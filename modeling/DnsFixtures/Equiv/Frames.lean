import DnsFixtures.FaultProxy

/-!
# Frames on a socket

A message on a TCP connection stands behind its length (`framed`).  `run_recvFrame` and `run_next`
read the next one, however the stream is cut, and `run_serveFreshTcp` says what the fresh responder
writes for each key that sends one reply (`delivery`).
-/

namespace DnsFixtures

open Dns

/-! ### Frames -/

/-- A message behind its length. -/
def framed (bs : Octets) : Octets := packU16 (UInt16.ofNat bs.length) ++ bs

@[simp] theorem length_framed (bs : Octets) : (framed bs).length = bs.length + 2 := by
  rw [framed, List.length_append, length_packU16, Nat.add_comm]

theorem packLength_of_le {n : Nat} (h : n ≤ 65535) :
    packLength n = .ok (packU16 (UInt16.ofNat n)) := packLength_of_lt (by omega)

theorem frame_eq {bs : Octets} (h : bs.length ≤ 65535) : frame bs = .ok (framed bs) := by
  rw [frame, packLength_of_le h]
  rfl

theorem take_framed (bs : Octets) (n : Nat) :
    (framed bs).take (2 + n) = packU16 (UInt16.ofNat bs.length) ++ bs.take n := by
  rw [framed, List.take_append, length_packU16, List.take_of_length_le (by rw [length_packU16]; omega),
    Nat.add_sub_cancel_left]

theorem toNat_ofNat_length {bs : Octets} (h : bs.length ≤ 65535) :
    (UInt16.ofNat bs.length).toNat = bs.length := by
  rw [UInt16.toNat_ofNat', Nat.mod_eq_of_lt (by omega)]

/-! ### Reading and writing -/

/-- The socket `s'` is `s` when `rest` is still to come and `parts` were written. -/
structure Sock.After (s s' : Sock) (rest : Octets) (parts : List Octets) : Prop where
  stream : s'.peer.stream = rest
  ending : s'.peer.ending = s.peer.ending
  written : s'.written = s.written ++ parts

theorem Sock.After.trans {s s' s'' : Sock} {rest rest' : Octets} {parts parts' : List Octets}
    (h : s.After s' rest parts) (h' : s'.After s'' rest' parts') :
    s.After s'' rest' (parts ++ parts') :=
  ⟨h'.stream, h'.ending.trans h.ending, by rw [h'.written, h.written, List.append_assoc]⟩

theorem Sock.After.refl (s : Sock) : s.After s s.peer.stream [] :=
  ⟨rfl, rfl, (List.append_nil _).symm⟩

/-- Octets that the peer sends are received. -/
theorem run_recvAll_sock (eof : Raised) {s : Sock} {bs rest : Octets}
    (hs : s.peer.stream = bs ++ rest) :
    ∃ s', (Sock.recvAll bs.length eof).run s = (.ok bs, s') ∧ s.After s' rest [] := by
  obtain ⟨cuts, hrun⟩ := run_recvAll eof hs
  refine ⟨{ s with peer := { s.peer with stream := rest, cuts := cuts } }, ?_,
    rfl, rfl, (List.append_nil _).symm⟩
  rw [Sock.recvAll, Session.run_zoom, hrun]

theorem run_sendall (bs : Octets) (s : Sock) :
    (sendall bs).run s = (.ok (), { s with written := s.written ++ [bs] }) := rfl

theorem run_sendParts (parts : List Octets) (s : Sock) :
    (sendParts parts).run s = (.ok (), { s with written := s.written ++ parts }) := by
  unfold sendParts
  induction parts generalizing s with
  | nil =>
    rw [List.forM_eq_forM, List.forM_nil, Session.run_pure, List.append_nil]
  | cons p parts ih =>
    rw [List.forM_eq_forM, List.forM_cons, Session.run_bind_ok (run_sendall p s),
      ← List.forM_eq_forM, ih, List.append_assoc]
    rfl

theorem after_written (s : Sock) (parts : List Octets) :
    s.After { s with written := s.written ++ parts } s.peer.stream parts := ⟨rfl, rfl, rfl⟩

/-- **The next frame** is received, however the stream is cut. -/
theorem run_recvFrame {s : Sock} {bs rest : Octets} (hs : s.peer.stream = framed bs ++ rest)
    (hne : bs ≠ []) (hlen : bs.length ≤ 65535) :
    ∃ s', recvFrame.run s = (.ok bs, s') ∧ s.After s' rest [] := by
  rw [framed, List.append_assoc] at hs
  -- the length, and then as many octets
  obtain ⟨s₁, hrun₁, h₁⟩ := run_recvAll_sock .eofError hs
  obtain ⟨s₂, hrun₂, h₂⟩ := run_recvAll_sock .eofError h₁.stream
  have hread : readU16 (packU16 (UInt16.ofNat bs.length)) 0 = some (UInt16.ofNat bs.length) :=
    HoldsAt.readU16 (List.prefix_refl _)
  have hzero : UInt16.ofNat bs.length ≠ 0 := by
    intro h
    have hnat := congrArg UInt16.toNat h
    rw [toNat_ofNat_length hlen] at hnat
    exact hne (List.length_eq_zero_iff.mp hnat)
  refine ⟨s₂, ?_, h₁.trans h₂⟩
  rw [length_packU16] at hrun₁
  unfold recvFrame
  rw [Session.run_bind_ok hrun₁, hread]
  dsimp only
  rw [if_neg hzero, toNat_ofNat_length hlen, hrun₂]

/-- The next query of a batch is received, when it has a whole header. -/
theorem run_next {s : Sock} {bs rest : Octets} (hs : s.peer.stream = framed bs ++ rest)
    (h12 : 12 ≤ bs.length) (hlen : bs.length ≤ 65535) :
    ∃ s', next.run s = (.ok bs, s') ∧ s.After s' rest [] := by
  rw [framed, List.append_assoc] at hs
  obtain ⟨s₁, hrun₁, h₁⟩ := run_recvAll_sock .eofError hs
  obtain ⟨s₂, hrun₂, h₂⟩ := run_recvAll_sock .eofError h₁.stream
  have hread : readU16 (packU16 (UInt16.ofNat bs.length)) 0 = some (UInt16.ofNat bs.length) :=
    HoldsAt.readU16 (List.prefix_refl _)
  have hlong : ¬ UInt16.ofNat bs.length < 12 := by
    rw [UInt16.lt_iff_toNat_lt, toNat_ofNat_length hlen]
    exact Nat.not_lt.mpr h12
  refine ⟨s₂, ?_, h₁.trans h₂⟩
  rw [length_packU16] at hrun₁
  unfold next
  rw [Session.run_bind_ok hrun₁, hread]
  dsimp only
  rw [if_neg hlong, toNat_ofNat_length hlen, hrun₂]

/-- At the end of the stream there is no frame. -/
theorem run_recvFrame_nil {s : Sock} (hs : s.peer.stream = []) :
    recvFrame.run s = (.error (s.peer.ending.raised .eofError), s) := by
  have hrun := @run_recvAll_nil 2 .eofError _ hs (by decide)
  refine Session.run_bind_error ?_
  rw [Sock.recvAll, Session.run_zoom, hrun]

/-- Octets that are received were sent, and nothing is written. -/
theorem run_recvAll_sock_sound {size : Nat} {eof : Raised} {s s' : Sock} {bs : Octets}
    (h : (Sock.recvAll size eof).run s = (.ok bs, s')) :
    s.peer.stream = bs ++ s'.peer.stream ∧ bs.length = size := by
  rw [Sock.recvAll, Session.run_zoom] at h
  cases hrun : (recvAll size eof).run s.peer with
  | mk result p =>
    rw [hrun] at h
    cases h
    exact run_recvAll_sound hrun

/-- A length in front of as many octets is a frame. -/
theorem framed_of_length {size bs : Octets} {length : UInt16} (hsize : size.length = 2)
    (hread : readU16 size 0 = some length) (hbs : bs.length = length.toNat) :
    size ++ bs = framed bs := by
  obtain ⟨rest, hrest⟩ := readU16_eq_some_iff.mp hread
  rw [List.drop_zero] at hrest
  have hnil : rest = [] := by
    have hlen := congrArg List.length hrest
    rw [List.length_append, length_packU16, hsize] at hlen
    exact List.length_eq_zero_iff.mp (by omega)
  rw [hnil, List.append_nil] at hrest
  rw [framed, hbs, UInt16.ofNat_toNat, hrest]

/-- A frame that is received was sent. -/
theorem run_recvFrame_sound {s s' : Sock} {bs : Octets} (h : recvFrame.run s = (.ok bs, s')) :
    s.peer.stream = framed bs ++ s'.peer.stream ∧ bs ≠ [] ∧ bs.length ≤ 65535 := by
  obtain ⟨size, s₁, hsize, hrun⟩ := Session.run_bind_eq_ok h
  obtain ⟨hstream, h2⟩ := run_recvAll_sock_sound hsize
  cases hread : readU16 size 0 with
  | none =>
    rw [hread] at hrun
    cases hrun
  | some length =>
    rw [hread] at hrun
    dsimp only at hrun
    by_cases hzero : length = 0
    · rw [if_pos hzero, Session.run_throw] at hrun
      cases hrun
    · rw [if_neg hzero] at hrun
      obtain ⟨hstream', hbs⟩ := run_recvAll_sock_sound hrun
      have hlt := length.toNat_lt
      refine ⟨?_, ?_, by omega⟩
      · rw [hstream, hstream', ← List.append_assoc, framed_of_length h2 hread hbs]
      · rintro rfl
        exact hzero (UInt16.toNat_inj.mp hbs.symm)

/-- A query of a batch that is received was sent. -/
theorem run_next_sound {s s' : Sock} {bs : Octets} (h : next.run s = (.ok bs, s')) :
    s.peer.stream = framed bs ++ s'.peer.stream ∧ 12 ≤ bs.length ∧ bs.length ≤ 65535 := by
  obtain ⟨size, s₁, hsize, hrun⟩ := Session.run_bind_eq_ok h
  obtain ⟨hstream, h2⟩ := run_recvAll_sock_sound hsize
  cases hread : readU16 size 0 with
  | none =>
    rw [hread] at hrun
    cases hrun
  | some length =>
    rw [hread] at hrun
    dsimp only at hrun
    by_cases hshort : length < 12
    · rw [if_pos hshort, Session.run_throw] at hrun
      cases hrun
    · rw [if_neg hshort] at hrun
      obtain ⟨hstream', hbs⟩ := run_recvAll_sock_sound hrun
      have hlt := length.toNat_lt
      rw [UInt16.lt_iff_toNat_lt] at hshort
      refine ⟨?_, ?_, by omega⟩
      · rw [hstream, hstream', ← List.append_assoc, framed_of_length h2 hread hbs]
      · rw [hbs]
        exact Nat.le_of_not_lt hshort

/-! ### Slices -/

theorem flatten_slices {size : Nat} (hsize : 0 < size) (bs : Octets) :
    (slices size bs).flatten = bs := by
  have hprefix : ∀ n, ((List.range n).map fun i => (bs.drop (i * size)).take size).flatten
      = bs.take (n * size) := by
    intro n
    induction n with
    | zero => simp
    | succ n ih =>
      rw [List.range_succ, List.map_append, List.flatten_append, ih, List.map_singleton,
        List.flatten_singleton, Nat.succ_mul, List.take_add]
  rw [slices, hprefix]
  refine List.take_of_length_le ?_
  have hdiv := Nat.div_add_mod (bs.length + size - 1) size
  have hmod := Nat.mod_lt (bs.length + size - 1) hsize
  rw [Nat.mul_comm]
  omega

theorem flatten_map_singleton (bs : Octets) : (bs.map fun byte => [byte]).flatten = bs := by
  induction bs with
  | nil => rfl
  | cons b bs ih => rw [List.map_cons, List.flatten_cons, ih]; rfl

/-- However a frame is cut into writes, the stream is the frame. -/
theorem flatten_frameParts (key : String) (frame : Octets) :
    (frameParts key frame).flatten = frame := by
  unfold frameParts
  split_ifs
  · have hdrop : frame.drop 2 = (frame.drop 1).drop 1 := by rw [List.drop_drop]
    rw [hdrop, List.flatten_cons, List.flatten_cons, List.flatten_cons, List.flatten_nil,
      List.append_nil, List.take_append_drop, List.take_append_drop]
  · rw [List.flatten_cons, flatten_slices (by decide), List.take_append_drop]
  · exact flatten_map_singleton frame
  · rw [List.flatten_singleton]

/-! ### The fresh responder -/

/-- The keys that wait for two more queries. -/
def batchKeys : List String := ["reordered", "coalesced"]

/-- What is written for the reply to one query, and whether the connection is kept. -/
def delivery (key : String) (reply : Octets) : List Octets × Bool :=
  if key ∈ ["close-before", "stall"] then ([], false)
  else if key = "close-prefix" then ([(framed reply).take 2], false)
  else if key = "close-body" then ([(framed reply).take (2 + reply.length / 2)], false)
  else if key = "length-mismatch" then
    ([packU16 (UInt16.ofNat (reply.length + 16)) ++ reply], false)
  else if key = "mismatch-id" then ([framed (changeId reply)], false)
  else if key = "mismatch-question" then ([framed (changeQuestion reply)], false)
  else if key = "duplicate" then ([framed reply, framed reply], false)
  else if key = "trailing" then ([framed reply, [0, 16] ++ textOctets "garbage"], false)
  else (frameParts key (framed reply), true)

theorem length_changeId {reply : Octets} (h : 2 ≤ reply.length) :
    (changeId reply).length = reply.length := by
  rw [changeId, List.length_append, length_packU16, List.length_drop]
  omega

theorem length_changeQuestion (reply : Octets) : (changeQuestion reply).length = reply.length := by
  unfold changeQuestion
  split_ifs
  · exact List.length_set
  · rfl

/-- **What the fresh responder writes** for a key that sends one reply. -/
theorem run_serveFreshTcp {d : Dnspython} {query reply : Octets} {key : String}
    (hkey : scenario d query = .ok key) (hreply : answerFresh d query true = .ok reply)
    (h2 : 2 ≤ reply.length) (hlen : reply.length ≤ 65535) (hbatch : key ∉ batchKeys)
    (hmismatch : key = "length-mismatch" → reply.length + 16 ≤ 65535) (s : Sock) :
    (serveFreshTcp d query).run s = (.ok (delivery key reply).2,
      { s with written := s.written ++ (delivery key reply).1 }) := by
  have hne : reply ≠ [] := List.length_pos_iff.mp (by omega)
  simp only [batchKeys, List.mem_cons, List.not_mem_nil, or_false] at hbatch
  unfold serveFreshTcp delivery
  rw [Session.run_ofExcept_bind hkey, Session.run_ofExcept_bind hreply, if_neg hne,
    Session.run_ofExcept_bind (frame_eq hlen)]
  simp only [List.mem_cons, List.not_mem_nil, or_false]
  -- the branches in their order; behind each the key is none of its keys
  by_cases hclose : key = "close-before" ∨ key = "stall"
  · rw [if_pos hclose, if_pos hclose, Session.run_pure, List.append_nil]
  rw [if_neg hclose, if_neg hclose, if_neg hbatch]
  by_cases hid : key = "mismatch-id"
  · subst hid
    have hframe : frame (changeId reply) = .ok (framed (changeId reply)) :=
      frame_eq (by rwa [length_changeId h2])
    rw [if_pos rfl, Session.run_ofExcept_bind hframe]
    rfl
  by_cases hquestion : key = "mismatch-question"
  · subst hquestion
    have hframe : frame (changeQuestion reply) = .ok (framed (changeQuestion reply)) :=
      frame_eq (by rwa [length_changeQuestion])
    rw [if_neg hid, if_pos rfl, Session.run_ofExcept_bind hframe]
    rfl
  rw [if_neg hid, if_neg hquestion,
    Session.run_ofExcept_bind (x := pure (framed reply)) (a := framed reply) rfl]
  by_cases hprefix : key = "close-prefix"
  · subst hprefix
    rfl
  by_cases hbody : key = "close-body"
  · subst hbody
    rfl
  by_cases hlength : key = "length-mismatch"
  · subst hlength
    rw [if_neg hprefix, if_neg hbody, if_pos rfl,
      Session.run_ofExcept_bind (packLength_of_le (hmismatch rfl))]
    rfl
  rw [if_neg hprefix, if_neg hbody, if_neg hlength, if_neg hprefix, if_neg hbody, if_neg hlength,
    if_neg hid, if_neg hquestion, Session.run_bind_ok (run_sendParts ..)]
  by_cases hduplicate : key = "duplicate"
  · subst hduplicate
    rw [if_pos rfl, if_pos rfl, Session.run_bind_ok (run_sendall ..), Session.run_pure,
      List.append_assoc]
    rfl
  by_cases htrailing : key = "trailing"
  · subst htrailing
    rw [if_neg hduplicate, if_neg hduplicate, if_pos rfl, if_pos rfl,
      Session.run_bind_ok (run_sendall ..), Session.run_pure, List.append_assoc]
    rfl
  rw [if_neg hduplicate, if_neg hduplicate, if_neg htrailing, if_neg htrailing, Session.run_pure,
    decide_eq_true (by simp [hid, hquestion])]

end DnsFixtures
