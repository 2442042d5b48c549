import DnsFixtures.Equiv.Envelope
import DnsFixtures.Equiv.Frames
import DnsFixtures.Reference

/-!
# Batches

Under the keys `reordered` and `coalesced` the fresh responder reads two more messages from the
connection and answers all three in one write (`run_serveFreshTcp_batch`).  It does not look at the
two messages, so one of them that is itself a response gets an empty frame
(`deliversBatch_iff`).
-/

namespace DnsFixtures

open Dns

/-- The octets are a message with QR set. -/
def IsResponse (w : Octets) : Prop := ∃ h, readHeader w = some h ∧ hasFlag h.flags Flag.QR

theorem isIgnored_iff_isResponse {w : Octets} (h : 12 ≤ w.length) : IsIgnored w ↔ IsResponse w :=
  or_iff_right (Nat.not_lt.mpr h)

/-! ### Frames in a row -/

theorem framed_append_inj {bs bs' rest rest' : Octets} (hbs : bs.length ≤ 65535)
    (hbs' : bs'.length ≤ 65535) (h : framed bs ++ rest = framed bs' ++ rest') :
    bs = bs' ∧ rest = rest' := by
  have hlength : ∀ bs : Octets, (packU16 (UInt16.ofNat bs.length)).length = 2 := fun bs =>
    length_packU16 _
  rw [framed, framed, List.append_assoc, List.append_assoc] at h
  obtain ⟨hsize, hrest⟩ := List.append_inj h ((hlength bs).trans (hlength bs').symm)
  have hlen : bs.length = bs'.length := by
    rw [← toNat_ofNat_length hbs, ← toNat_ofNat_length hbs', packU16_injective hsize]
  exact List.append_inj hrest hlen

/-! ### The run of a batch -/

/-- The order of the replies: of the three queries, or the reverse. -/
def inOrder {α : Type} (key : String) (replies : List α) : List α :=
  if key = "reordered" then replies.reverse else replies

theorem mem_batchKeys {key : String} (h : key ∈ batchKeys) :
    (key = "reordered" ∨ key = "coalesced") ∧ ¬ (key = "close-before" ∨ key = "stall") := by
  have hkeys : ∀ key ∈ batchKeys, (key = "reordered" ∨ key = "coalesced") ∧
      ¬ (key = "close-before" ∨ key = "stall") := by decide
  exact hkeys key h

theorem written_next (s : Sock) : (next.run s).2.written = s.written := by
  have hrecv : ∀ size (s : Sock), ((Sock.recvAll size .eofError).run s).2.written = s.written :=
    fun _ _ => rfl
  have hsize := hrecv 2 s
  unfold next
  rw [Session.run_bind]
  cases hrun : (Sock.recvAll 2 .eofError).run s with
  | mk result s₁ =>
    rw [hrun] at hsize
    cases result with
    | error e => exact hsize
    | ok size =>
      dsimp only
      cases readU16 size 0 with
      | none => exact hsize
      | some length =>
        dsimp only
        split_ifs
        · exact hsize
        · exact (hrecv length.toNat s₁).trans hsize

/-- What reading the next query comes to; nothing is written. -/
theorem run_next_cases (s : Sock) :
    (∃ e s', next.run s = (.error e, s') ∧ s'.written = s.written) ∨
      ∃ q s', next.run s = (.ok q, s') ∧ s'.written = s.written ∧
        s.peer.stream = framed q ++ s'.peer.stream ∧ q.length ≤ 65535 := by
  have hwritten := written_next s
  cases hrun : next.run s with
  | mk result s' =>
    rw [hrun] at hwritten
    cases result with
    | error e => exact Or.inl ⟨e, s', rfl, hwritten⟩
    | ok q =>
      obtain ⟨hstream, -, hlen⟩ := run_next_sound hrun
      exact Or.inr ⟨q, s', rfl, hwritten, hstream, hlen⟩

section

variable {d : Dnspython} {q₁ q₂ q₃ r₁ r₂ r₃ : Octets} {key : String}

/-- A response is not answered, whatever its key. -/
theorem run_serveFreshTcp_nil (hkey : scenario d q₁ = .ok key)
    (h₁ : answerFresh d q₁ true = .ok []) (s : Sock) :
    (serveFreshTcp d q₁).run s = (.ok false, s) := by
  unfold serveFreshTcp
  rw [Session.run_ofExcept_bind hkey, Session.run_ofExcept_bind h₁, if_pos rfl, Session.run_pure]

/-- What is left of the responder behind the reply to the first query. -/
theorem run_serveFreshTcp_of_batch (hkey : scenario d q₁ = .ok key) (hbatch : key ∈ batchKeys)
    (h₁ : answerFresh d q₁ true = .ok r₁) (hne : r₁ ≠ []) (hlen : r₁.length ≤ 65535) (s : Sock) :
    (serveFreshTcp d q₁).run s = (do
      let second ← next
      let third ← next
      let frames ← Session.ofExcept <|
        [q₁, second, third].mapM fun item => do frame (← answerFresh d item true)
      sendall (inOrder key frames).flatten
      return false : Session Sock Bool).run s := by
  obtain ⟨hbatch, hclose⟩ := mem_batchKeys hbatch
  unfold serveFreshTcp inOrder
  rw [Session.run_ofExcept_bind hkey, Session.run_ofExcept_bind h₁, if_neg hne,
    Session.run_ofExcept_bind (frame_eq hlen), if_neg hclose, if_pos hbatch]

theorem mapM_frames (h₁ : answerFresh d q₁ true = .ok r₁) (hlen₁ : r₁.length ≤ 65535)
    (h₂ : answerFresh d q₂ true = .ok r₂) (hlen₂ : r₂.length ≤ 65535)
    (h₃ : answerFresh d q₃ true = .ok r₃) (hlen₃ : r₃.length ≤ 65535) :
    [q₁, q₂, q₃].mapM (fun item => do frame (← answerFresh d item true))
      = .ok [framed r₁, framed r₂, framed r₃] := by
  simp only [List.mapM_cons, List.mapM_nil, h₁, h₂, h₃]
  show (frame r₁ >>= _) = _
  rw [frame_eq hlen₁]
  show (frame r₂ >>= _) >>= _ = _
  rw [frame_eq hlen₂]
  show ((frame r₃ >>= _) >>= _) >>= _ = _
  rw [frame_eq hlen₃]
  rfl

/-- The frames of a batch are made only when all its messages are answered. -/
theorem mapM_frames_sound {frames : List Octets}
    (h : [q₁, q₂, q₃].mapM (fun item => do frame (← answerFresh d item true)) = .ok frames) :
    (∃ r, answerFresh d q₂ true = .ok r) ∧ ∃ r, answerFresh d q₃ true = .ok r := by
  rw [List.mapM_cons, List.mapM_cons, List.mapM_cons] at h
  obtain ⟨_, -, h⟩ := bind_eq_ok h
  obtain ⟨_, h, -⟩ := bind_eq_ok h
  obtain ⟨_, hframe₂, h⟩ := bind_eq_ok h
  obtain ⟨_, h, -⟩ := bind_eq_ok h
  obtain ⟨_, hframe₃, -⟩ := bind_eq_ok h
  obtain ⟨r₂, h₂, -⟩ := bind_eq_ok hframe₂
  obtain ⟨r₃, h₃, -⟩ := bind_eq_ok hframe₃
  exact ⟨⟨r₂, h₂⟩, ⟨r₃, h₃⟩⟩

/-- **A batch that arrives** is answered in one write. -/
theorem run_serveFreshTcp_batch (hkey : scenario d q₁ = .ok key) (hbatch : key ∈ batchKeys)
    (h₁ : answerFresh d q₁ true = .ok r₁) (hne : r₁ ≠ []) (hlen₁ : r₁.length ≤ 65535)
    (h₂ : answerFresh d q₂ true = .ok r₂) (hlen₂ : r₂.length ≤ 65535)
    (h₃ : answerFresh d q₃ true = .ok r₃) (hlen₃ : r₃.length ≤ 65535) {s : Sock} {rest : Octets}
    (hs : s.peer.stream = framed q₂ ++ framed q₃ ++ rest)
    (hq₂ : 12 ≤ q₂.length ∧ q₂.length ≤ 65535) (hq₃ : 12 ≤ q₃.length ∧ q₃.length ≤ 65535) :
    ∃ s', (serveFreshTcp d q₁).run s = (.ok false, s') ∧
      s.After s' rest [(inOrder key [framed r₁, framed r₂, framed r₃]).flatten] := by
  rw [List.append_assoc] at hs
  obtain ⟨s₂, hrun₂, hafter₂⟩ := run_next hs hq₂.1 hq₂.2
  obtain ⟨s₃, hrun₃, hafter₃⟩ := run_next hafter₂.stream hq₃.1 hq₃.2
  have hsent := after_written s₃ [(inOrder key [framed r₁, framed r₂, framed r₃]).flatten]
  rw [hafter₃.stream] at hsent
  refine ⟨_, ?_, (hafter₂.trans hafter₃).trans hsent⟩
  rw [run_serveFreshTcp_of_batch hkey hbatch h₁ hne hlen₁, Session.run_bind_ok hrun₂,
    Session.run_bind_ok hrun₃,
    Session.run_ofExcept_bind (mapM_frames h₁ hlen₁ h₂ hlen₂ h₃ hlen₃),
    Session.run_bind_ok (run_sendall ..), Session.run_pure]

end

/-! ### What a batch delivers -/

/-- A reply to the query: a whole header with its identifier, in a frame of its own. -/
structure IsReply (d : Dnspython) (query reply : Octets) : Prop where
  answer : answerFresh d query true = .ok reply
  ne_nil : reply ≠ []
  length_le : reply.length ≤ 65535
  id : reply.take 2 = query.take 2

/-- However the two messages arrive, whole or in part, nothing is written or the three replies in
their order, and the connection ends. -/
def DeliversBatch (d : Dnspython) (key : String) (q₁ q₂ q₃ : Octets) : Prop :=
  ∀ s s' result, s.peer.stream <+: framed q₂ ++ framed q₃ ∨
      framed q₂ ++ framed q₃ <+: s.peer.stream →
    (serveFreshTcp d q₁).run s = (result, s') → s'.written = s.written ∨
      ∃ r₁ r₂ r₃, IsReply d q₁ r₁ ∧ IsReply d q₂ r₂ ∧ IsReply d q₃ r₃ ∧ result = .ok false ∧
        s'.written = s.written ++ [(inOrder key [framed r₁, framed r₂, framed r₃]).flatten]

/-- A reply fits a frame. -/
theorem length_answerFresh_le {d : Dnspython} (hd : d.Documented) {query reply : Octets} {tcp : Bool}
    (h : answerFresh d query tcp = .ok reply) : reply.length ≤ 65535 := by
  by_cases hne : reply = []
  · rw [hne]
    exact Nat.zero_le _
  · exact (answerFresh_reply hd h hne).2.1

/-- **What a batch can write**: nothing, or what its three messages are answered with, and no part of
it before both messages have arrived. -/
theorem run_serveFreshTcp_batch_sound {d : Dnspython} (hd : d.Documented) {q₁ r₁ : Octets}
    {key : String} (hkey : scenario d q₁ = .ok key) (hbatch : key ∈ batchKeys)
    (h₁ : answerFresh d q₁ true = .ok r₁) (hne : r₁ ≠ []) {s s' : Sock}
    {result : Except Raised Bool} (h : (serveFreshTcp d q₁).run s = (result, s')) :
    s'.written = s.written ∨ ∃ q₂ q₃ r₂ r₃ rest, s.peer.stream = framed q₂ ++ framed q₃ ++ rest ∧
      q₂.length ≤ 65535 ∧ q₃.length ≤ 65535 ∧ answerFresh d q₂ true = .ok r₂ ∧
      answerFresh d q₃ true = .ok r₃ ∧ result = .ok false ∧
      s'.written = s.written ++ [(inOrder key [framed r₁, framed r₂, framed r₃]).flatten] := by
  have hlen₁ := length_answerFresh_le hd h₁
  rw [run_serveFreshTcp_of_batch hkey hbatch h₁ hne hlen₁] at h
  -- nothing is written before both further messages are read
  obtain ⟨e, s₂, hrun₂, hwritten₂⟩ | ⟨q₂, s₂, hrun₂, hwritten₂, hstream₂, hlen₂⟩ :=
    run_next_cases s
  · rw [Session.run_bind_error hrun₂] at h
    cases h
    exact Or.inl hwritten₂
  rw [Session.run_bind_ok hrun₂] at h
  obtain ⟨e, s₃, hrun₃, hwritten₃⟩ | ⟨q₃, s₃, hrun₃, hwritten₃, hstream₃, hlen₃⟩ :=
    run_next_cases s₂
  · rw [Session.run_bind_error hrun₃] at h
    cases h
    exact Or.inl (hwritten₃.trans hwritten₂)
  rw [Session.run_bind_ok hrun₃] at h
  cases hframes : [q₁, q₂, q₃].mapM (fun item => do frame (← answerFresh d item true)) with
  | error e =>
    rw [Session.run_ofExcept_bind_error hframes] at h
    cases h
    exact Or.inl (hwritten₃.trans hwritten₂)
  | ok frames =>
    obtain ⟨⟨r₂, h₂⟩, r₃, h₃⟩ := mapM_frames_sound hframes
    rw [Session.run_ofExcept_bind (mapM_frames h₁ hlen₁ h₂ (length_answerFresh_le hd h₂) h₃
      (length_answerFresh_le hd h₃)), Session.run_bind_ok (run_sendall ..), Session.run_pure] at h
    cases h
    refine Or.inr ⟨q₂, q₃, r₂, r₃, s₃.peer.stream, ?_, hlen₂, hlen₃, h₂, h₃, rfl, ?_⟩
    · rw [hstream₂, hstream₃, List.append_assoc]
    · rw [hwritten₃, hwritten₂]

theorem isReply_of_ne_nil {d : Dnspython} (hd : d.Documented) {query reply : Octets}
    (h : answerFresh d query true = .ok reply) (hne : reply ≠ []) : IsReply d query reply := by
  obtain ⟨-, hlen, hid, -⟩ := answerFresh_reply hd h hne
  exact ⟨h, hne, hlen, hid⟩

/-- When both messages arrive in one piece, all three replies are written. -/
theorem DeliversBatch.ne_nil {d : Dnspython} {key : String} {q₁ q₂ q₃ r₁ r₂ r₃ : Octets}
    (h : DeliversBatch d key q₁ q₂ q₃) (hkey : scenario d q₁ = .ok key) (hbatch : key ∈ batchKeys)
    (h₁ : answerFresh d q₁ true = .ok r₁) (hne : r₁ ≠ []) (hlen₁ : r₁.length ≤ 65535)
    (h₂ : answerFresh d q₂ true = .ok r₂) (hlen₂ : r₂.length ≤ 65535)
    (h₃ : answerFresh d q₃ true = .ok r₃) (hlen₃ : r₃.length ≤ 65535)
    (hq₂ : 12 ≤ q₂.length ∧ q₂.length ≤ 65535) (hq₃ : 12 ≤ q₃.length ∧ q₃.length ≤ 65535) :
    r₂ ≠ [] ∧ r₃ ≠ [] := by
  obtain ⟨s', hrun, hafter⟩ := run_serveFreshTcp_batch hkey hbatch h₁ hne hlen₁ h₂ hlen₂ h₃ hlen₃
    (s := ⟨⟨framed q₂ ++ framed q₃, [], .closed⟩, []⟩) (List.append_nil _).symm hq₂ hq₃
  obtain hwritten | ⟨_, _, _, -, hr₂, hr₃, -, -⟩ := h _ _ _ (Or.inl (List.prefix_refl _)) hrun
  · rw [hafter.written] at hwritten
    cases hwritten
  · obtain rfl := Except.ok.inj (h₂.symm.trans hr₂.answer)
    obtain rfl := Except.ok.inj (h₃.symm.trans hr₃.answer)
    exact ⟨hr₂.ne_nil, hr₃.ne_nil⟩

/-- **Batches of three replies.**  One is delivered unless one of the two further messages is itself
a response. -/
theorem deliversBatch_iff {d : Dnspython} (hd : d.Documented) {key : String} {q₁ q₂ q₃ : Octets}
    (hkey : scenario d q₁ = .ok key) (hbatch : key ∈ batchKeys)
    (hq₂ : 12 ≤ q₂.length ∧ q₂.length ≤ 65535) (hq₃ : 12 ≤ q₃.length ∧ q₃.length ≤ 65535)
    (hanswers : ∀ q ∈ [q₁, q₂, q₃], ∃ r, answerFresh d q true = .ok r) :
    DeliversBatch d key q₁ q₂ q₃ ↔ (IsIgnored q₁ ∨ ¬ IsResponse q₂ ∧ ¬ IsResponse q₃) := by
  obtain ⟨r₁, h₁⟩ := hanswers q₁ (by simp)
  obtain ⟨r₂, h₂⟩ := hanswers q₂ (by simp)
  obtain ⟨r₃, h₃⟩ := hanswers q₃ (by simp)
  have hnil : ∀ {q r : Octets}, answerFresh d q true = .ok r → (r = [] ↔ IsIgnored q) := by
    intro q r h
    rw [← answerFresh_eq_nil_iff hd true, h]
    exact ⟨fun hr => by rw [hr], fun hr => Except.ok.inj hr⟩
  rw [← isIgnored_iff_isResponse hq₂.1, ← isIgnored_iff_isResponse hq₃.1, ← hnil h₁, ← hnil h₂,
    ← hnil h₃]
  by_cases hne : r₁ = []
  · subst hne
    refine iff_of_true (fun s s' result _ hrun => ?_) (Or.inl rfl)
    rw [run_serveFreshTcp_nil hkey h₁] at hrun
    cases hrun
    exact Or.inl rfl
  -- the first message is a query: the other two decide
  rw [or_iff_right hne]
  constructor
  · intro hdelivers
    exact hdelivers.ne_nil hkey hbatch h₁ hne (length_answerFresh_le hd h₁) h₂
      (length_answerFresh_le hd h₂) h₃ (length_answerFresh_le hd h₃) hq₂ hq₃
  · rintro ⟨hne₂, hne₃⟩ s s' result harrives hrun
    obtain hwritten | ⟨second, third, s₂, s₃, rest, hstream, hsecond, hthird, hs₂, hs₃, hend,
      hwritten⟩ := run_serveFreshTcp_batch_sound hd hkey hbatch h₁ hne hrun
    · exact Or.inl hwritten
    · -- the two messages that were read are the two that arrive
      obtain ⟨rfl, rfl⟩ : second = q₂ ∧ third = q₃ := by
        rw [hstream] at harrives
        obtain ⟨more, hmore⟩ | ⟨more, hmore⟩ := harrives
        · rw [List.append_assoc, List.append_assoc] at hmore
          obtain ⟨rfl, htail⟩ := framed_append_inj hsecond hq₂.2 hmore
          rw [← List.append_nil (framed q₃)] at htail
          exact ⟨rfl, (framed_append_inj hthird hq₃.2 htail).1⟩
        · rw [List.append_assoc, List.append_assoc] at hmore
          obtain ⟨rfl, htail⟩ := framed_append_inj hq₂.2 hsecond hmore
          exact ⟨rfl, (framed_append_inj hq₃.2 hthird htail).1.symm⟩
      obtain rfl := Except.ok.inj (h₂.symm.trans hs₂)
      obtain rfl := Except.ok.inj (h₃.symm.trans hs₃)
      exact Or.inr ⟨r₁, r₂, r₃, isReply_of_ne_nil hd h₁ hne, isReply_of_ne_nil hd h₂ hne₂,
        isReply_of_ne_nil hd h₃ hne₃, hend, hwritten⟩

/-- Three queries are answered, the last one first. -/
theorem deliversBatch_reordered : DeliversBatch Reference.dnspython "reordered"
    (Reference.askKey "reordered" RRType.A) (Reference.askKey "a" RRType.A)
    (Reference.askKey "b" RRType.A) := by
  refine (deliversBatch_iff Reference.documented (by decide +kernel) (by decide) (by decide)
    (by decide) ?_).mpr (Or.inr ⟨?_, ?_⟩)
  · simp only [List.forall_mem_cons]
    exact ⟨Reference.exists_of_isOk (by decide +kernel), Reference.exists_of_isOk (by decide +kernel),
      Reference.exists_of_isOk (by decide +kernel), by simp⟩
  · exact fun h => Reference.not_isIgnored_ask _ _ (Or.inr h)
  · exact fun h => Reference.not_isIgnored_ask _ _ (Or.inr h)

/-- The header of a response, with nothing behind it. -/
def Reference.emptyResponse : Octets := [0x12, 0x34, 0x80, 0, 0, 0, 0, 0, 0, 0, 0, 0]

/-- A response among the three messages gets an empty frame. -/
theorem not_deliversBatch_response : Reference.dnspython.Documented ∧
    scenario Reference.dnspython (Reference.askKey "coalesced" RRType.A) = .ok "coalesced" ∧
    answerFresh Reference.dnspython Reference.emptyResponse true = .ok [] ∧
    ¬ DeliversBatch Reference.dnspython "coalesced" (Reference.askKey "coalesced" RRType.A)
      (Reference.askKey "a" RRType.A) Reference.emptyResponse := by
  have hkey : scenario Reference.dnspython (Reference.askKey "coalesced" RRType.A)
      = .ok "coalesced" := by decide +kernel
  have hnil : answerFresh Reference.dnspython Reference.emptyResponse true = .ok [] := by decide
  refine ⟨Reference.documented, hkey, hnil, fun hdelivers => ?_⟩
  obtain ⟨r₁, h₁⟩ := Reference.exists_of_isOk (by decide +kernel :
    (answerFresh Reference.dnspython (Reference.askKey "coalesced" RRType.A) true).isOk = true)
  obtain ⟨r₂, h₂⟩ := Reference.exists_of_isOk (by decide +kernel :
    (answerFresh Reference.dnspython (Reference.askKey "a" RRType.A) true).isOk = true)
  have hr₁ := isReply_of_ne_nil Reference.documented h₁ (Reference.ne_nil_of_ask h₁)
  have hr₂ := isReply_of_ne_nil Reference.documented h₂ (Reference.ne_nil_of_ask h₂)
  exact (hdelivers.ne_nil hkey (by decide) h₁ hr₁.ne_nil hr₁.length_le h₂ hr₂.length_le hnil
    (Nat.zero_le _) (by decide) (by decide)).2 rfl

end DnsFixtures
