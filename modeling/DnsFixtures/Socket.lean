import DnsFixtures.Python

/-!
# Sockets

A `Session` is a computation that reads and writes a state and may raise; what it did before it
raised stays done (`Session.run_bind`).

The other end of a connection is a `Peer`: the octets it sends, how they are cut into the results
of `recv`, and what `recv` finds behind them.  Every list of cuts is a possible segmentation, so a
statement about all peers is one about all segmentations.
-/

namespace DnsFixtures

open Dns

/-! ### Computations with a state -/

abbrev Session (σ α : Type) := ExceptT Raised (StateM σ) α

namespace Session

variable {σ τ α β : Type}

/-- The outcome and the state that is left. -/
def run (m : Session σ α) (s : σ) : Except Raised α × σ := m s

/-- A computation on a part of the state. -/
def zoom (get : σ → τ) (set : τ → σ → σ) (m : Session τ α) : Session σ α := fun s =>
  let r := m.run (get s)
  (r.1, set r.2 s)

def modifyState (f : σ → σ) : Session σ Unit := fun s => (.ok (), f s)

/-- What may raise but touches no state. -/
def ofExcept (x : Except Raised α) : Session σ α := fun s => (x, s)

@[simp] theorem run_pure (a : α) (s : σ) : run (pure a) s = (.ok a, s) := rfl

@[simp] theorem run_throw (e : Raised) (s : σ) : run (throw e : Session σ α) s = (.error e, s) := rfl

@[simp] theorem run_ofExcept (x : Except Raised α) (s : σ) : run (ofExcept x) s = (x, s) := rfl

@[simp] theorem run_modifyState (f : σ → σ) (s : σ) : run (modifyState f) s = (.ok (), f s) := rfl

@[simp] theorem run_zoom (get : σ → τ) (set : τ → σ → σ) (m : Session τ α) (s : σ) :
    run (zoom get set m) s = ((m.run (get s)).1, set (m.run (get s)).2 s) := rfl

theorem run_bind (m : Session σ α) (f : α → Session σ β) (s : σ) :
    run (m >>= f) s = match run m s with
      | (.ok a, s') => run (f a) s'
      | (.error e, s') => (.error e, s') := by
  unfold run
  simp only [bind, ExceptT.bind, ExceptT.mk, StateT.bind, ExceptT.bindCont]
  cases m s with
  | mk result s' => cases result <;> rfl

theorem run_bind_ok {m : Session σ α} {f : α → Session σ β} {s s' : σ} {a : α}
    (h : run m s = (.ok a, s')) : run (m >>= f) s = run (f a) s' := by
  rw [run_bind, h]

theorem run_bind_error {m : Session σ α} {f : α → Session σ β} {s s' : σ} {e : Raised}
    (h : run m s = (.error e, s')) : run (m >>= f) s = (.error e, s') := by
  rw [run_bind, h]

/-- A computation that returns has returned from its first part. -/
theorem run_bind_eq_ok {m : Session σ α} {f : α → Session σ β} {s s' : σ} {b : β}
    (h : run (m >>= f) s = (.ok b, s')) :
    ∃ a s₁, run m s = (.ok a, s₁) ∧ run (f a) s₁ = (.ok b, s') := by
  rw [run_bind] at h
  cases hm : run m s with
  | mk result s₁ =>
    rw [hm] at h
    cases result with
    | error e => cases h
    | ok a => exact ⟨a, s₁, rfl, h⟩

theorem run_ofExcept_bind {x : Except Raised α} {a : α} (h : x = .ok a) (f : α → Session σ β)
    (s : σ) : run (ofExcept x >>= f) s = run (f a) s :=
  run_bind_ok (by rw [run_ofExcept, h])

theorem run_ofExcept_bind_error {x : Except Raised α} {e : Raised} (h : x = .error e)
    (f : α → Session σ β) (s : σ) : run (ofExcept x >>= f) s = (.error e, s) :=
  run_bind_error (by rw [run_ofExcept, h])

end Session

/-! ### The other end of a connection -/

/-- What `recv` finds behind the last octet: the end of the stream, nothing until the timeout, or
a broken connection. -/
inductive Ending where
  | closed | silent | broken
  deriving DecidableEq, Repr

structure Peer where
  /-- what the peer sends -/
  stream : Octets
  /-- the next `recv` returns at most `cuts[0] + 1` octets, and so on -/
  cuts : List Nat
  ending : Ending
  deriving DecidableEq, Repr

/-- `sock.recv(size)`. -/
def recv (size : Nat) : Session Peer Octets := fun p =>
  if p.stream = [] then
    match p.ending with
    | .closed => (.ok [], p)
    | .silent => (.error .timeout, p)
    | .broken => (.error .osError, p)
  else
    let n := match p.cuts with
      | [] => size
      | cut :: _ => min size (cut + 1)
    (.ok (p.stream.take n), { p with stream := p.stream.drop n, cuts := p.cuts.tail })

/-- The loop `while len(received) < size`, with at most as many turns as octets are missing. -/
def recvLoop (size : Nat) (eof : Raised) : Nat → Octets → Session Peer Octets
  | 0, received => pure received
  | fuel + 1, received =>
    if received.length < size then do
      let chunk ← recv (size - received.length)
      if chunk = [] then throw eof
      else recvLoop size eof fuel (received ++ chunk)
    else pure received

/-- `recv_exact` and `_read`; they differ in the exception for a closed stream. -/
def recvAll (size : Nat) (eof : Raised) : Session Peer Octets := recvLoop size eof size []

/-- A connected socket: what the peer sends, and what was written to it by each `sendall`. -/
structure Sock where
  peer : Peer
  written : List Octets
  deriving DecidableEq, Repr

/-- `sock.sendall(bs)`. -/
def sendall (bs : Octets) : Session Sock Unit :=
  Session.modifyState fun s => { s with written := s.written ++ [bs] }

/-- Receive on a socket. -/
def Sock.recvAll (size : Nat) (eof : Raised) : Session Sock Octets :=
  Session.zoom Sock.peer (fun p s => { s with peer := p }) (DnsFixtures.recvAll size eof)

/-! ### Reading what a peer has sent -/

theorem run_recv (size : Nat) (p : Peer) : (recv size).run p =
    if p.stream = [] then
      match p.ending with
      | .closed => (.ok [], p)
      | .silent => (.error .timeout, p)
      | .broken => (.error .osError, p)
    else
      let n := match p.cuts with
        | [] => size
        | cut :: _ => min size (cut + 1)
      (.ok (p.stream.take n), { p with stream := p.stream.drop n, cuts := p.cuts.tail }) := rfl

/-- However the stream is cut, `recv` returns between one and `size` of its octets. -/
theorem run_recv_of_ne_nil {p : Peer} {size : Nat} (h : p.stream ≠ []) (hsize : 0 < size) :
    ∃ n cuts, 0 < n ∧ n ≤ size ∧ (recv size).run p
      = (.ok (p.stream.take n), { p with stream := p.stream.drop n, cuts := cuts }) := by
  rw [run_recv, if_neg h]
  cases p.cuts with
  | nil => exact ⟨size, _, hsize, Nat.le_refl _, rfl⟩
  | cons cut cuts => exact ⟨min size (cut + 1), _, by omega, Nat.min_le_left .., rfl⟩

theorem run_recvLoop {size : Nat} (eof : Raised) {fuel : Nat} {received bs rest : Octets} {p : Peer}
    (hp : p.stream = bs ++ rest) (hsize : received.length + bs.length = size)
    (hfuel : bs.length ≤ fuel) :
    ∃ cuts, (recvLoop size eof fuel received).run p
      = (.ok (received ++ bs), { p with stream := rest, cuts := cuts }) := by
  induction fuel generalizing received bs p with
  | zero =>
    obtain rfl := List.length_eq_zero_iff.mp (Nat.le_zero.mp hfuel)
    refine ⟨p.cuts, ?_⟩
    rw [List.nil_append] at hp
    rw [recvLoop, Session.run_pure, List.append_nil, ← hp]
  | succ fuel ih =>
    rw [recvLoop]
    -- the loop ends when the size is reached, which is where nothing is left of `bs`
    by_cases hbs : bs = []
    · subst hbs
      rw [List.nil_append] at hp
      rw [List.length_nil] at hsize
      rw [if_neg (by omega)]
      exact ⟨p.cuts, by rw [Session.run_pure, List.append_nil, ← hp]⟩
    · have hpos := List.length_pos_iff.mpr hbs
      rw [if_pos (by omega)]
      have hne : p.stream ≠ [] := by simp [hp, hbs]
      obtain ⟨n, cuts, hn, hle, hrecv⟩ :=
        run_recv_of_ne_nil hne (by omega : 0 < size - received.length)
      -- what one `recv` returns lies within `bs`, as it asks for no more than is missing
      have hchunk : (bs ++ rest).take n = bs.take n := List.take_append_of_le_length (by omega)
      have hleft : (bs ++ rest).drop n = bs.drop n ++ rest := List.drop_append_of_le_length (by omega)
      rw [hp, hchunk, hleft] at hrecv
      have hlen : (bs.take n).length = n := by
        rw [List.length_take]
        omega
      have hnil : bs.take n ≠ [] := List.length_pos_iff.mp (by omega)
      have hsize' : (received ++ bs.take n).length + (bs.drop n).length = size := by
        rw [List.length_append, hlen, List.length_drop]
        omega
      have hfuel' : (bs.drop n).length ≤ fuel := by
        rw [List.length_drop]
        omega
      obtain ⟨cuts', hrun⟩ : ∃ cuts', (recvLoop size eof fuel (received ++ bs.take n)).run
          { p with stream := bs.drop n ++ rest, cuts := cuts }
          = (.ok (received ++ bs.take n ++ bs.drop n), { p with stream := rest, cuts := cuts' }) :=
        ih rfl hsize' hfuel'
      refine ⟨cuts', ?_⟩
      rw [Session.run_bind_ok hrecv, if_neg hnil, hrun, List.append_assoc, List.take_append_drop]

/-- Octets that the peer sends are received, however the stream is cut. -/
theorem run_recvAll (eof : Raised) {bs rest : Octets} {p : Peer} (hp : p.stream = bs ++ rest) :
    ∃ cuts, (recvAll bs.length eof).run p
      = (.ok bs, { p with stream := rest, cuts := cuts }) :=
  run_recvLoop eof hp (by simp) (Nat.le_refl _)

/-- What `recv` returns is the front of the stream, at most `size` octets of it. -/
theorem run_recv_sound {size : Nat} {p p' : Peer} {chunk : Octets}
    (h : (recv size).run p = (.ok chunk, p')) :
    p.stream = chunk ++ p'.stream ∧ chunk.length ≤ size := by
  rw [run_recv] at h
  by_cases hp : p.stream = []
  · rw [if_pos hp] at h
    cases hend : p.ending with
    | closed =>
      rw [hend] at h
      cases h
      exact ⟨rfl, Nat.zero_le _⟩
    | silent =>
      rw [hend] at h
      cases h
    | broken =>
      rw [hend] at h
      cases h
  · rw [if_neg hp] at h
    cases h
    refine ⟨(List.take_append_drop _ _).symm, ?_⟩
    rw [List.length_take]
    refine Nat.le_trans (Nat.min_le_left ..) ?_
    cases p.cuts with
    | nil => exact Nat.le_refl _
    | cons cut cuts => exact Nat.min_le_left ..

theorem run_recvLoop_sound {size : Nat} {eof : Raised} {fuel : Nat} {received bs : Octets}
    {p p' : Peer} (h : (recvLoop size eof fuel received).run p = (.ok bs, p'))
    (hle : received.length ≤ size) (hfuel : size ≤ received.length + fuel) :
    ∃ chunk, bs = received ++ chunk ∧ p.stream = chunk ++ p'.stream ∧ bs.length = size := by
  induction fuel generalizing received p with
  | zero =>
    rw [recvLoop, Session.run_pure] at h
    cases h
    exact ⟨[], (List.append_nil _).symm, rfl, by omega⟩
  | succ fuel ih =>
    rw [recvLoop] at h
    by_cases hlt : received.length < size
    · rw [if_pos hlt] at h
      obtain ⟨chunk, p₁, hrecv, hrun⟩ := Session.run_bind_eq_ok h
      obtain ⟨hstream, hchunk⟩ := run_recv_sound hrecv
      -- an empty read is the end of the stream, where the loop raises
      by_cases hnil : chunk = []
      · rw [if_pos hnil, Session.run_throw] at hrun
        cases hrun
      · rw [if_neg hnil] at hrun
        have hpos := List.length_pos_iff.mpr hnil
        obtain ⟨more, hbs, hmore, hlen⟩ := ih hrun (by rw [List.length_append]; omega)
          (by rw [List.length_append]; omega)
        refine ⟨chunk ++ more, ?_, ?_, hlen⟩
        · rw [hbs, List.append_assoc]
        · rw [hstream, hmore, List.append_assoc]
    · rw [if_neg hlt, Session.run_pure] at h
      cases h
      exact ⟨[], (List.append_nil _).symm, rfl, by omega⟩

/-- Octets that are received were sent. -/
theorem run_recvAll_sound {size : Nat} {eof : Raised} {p p' : Peer} {bs : Octets}
    (h : (recvAll size eof).run p = (.ok bs, p')) :
    p.stream = bs ++ p'.stream ∧ bs.length = size := by
  obtain ⟨chunk, hbs, hstream, hlen⟩ :=
    run_recvLoop_sound h (Nat.zero_le _) (by rw [List.length_nil]; omega)
  rw [List.nil_append] at hbs
  rw [hbs]
  exact ⟨hstream, hbs ▸ hlen⟩

/-- What reading behind the last octet raises. -/
def Ending.raised (eof : Raised) : Ending → Raised
  | .closed => eof
  | .silent => .timeout
  | .broken => .osError

theorem run_recvAll_nil {size : Nat} (eof : Raised) {p : Peer} (hp : p.stream = [])
    (hsize : 0 < size) : (recvAll size eof).run p = (.error (p.ending.raised eof), p) := by
  obtain ⟨size, rfl⟩ : ∃ k, size = k + 1 := ⟨size - 1, by omega⟩
  rw [recvAll, recvLoop, if_pos (by simp)]
  cases hend : p.ending with
  | closed =>
    have hrecv : (recv (size + 1 - ([] : Octets).length)).run p = (.ok [], p) := by
      rw [run_recv, if_pos hp, hend]
    rw [Session.run_bind_ok hrecv, if_pos rfl, Session.run_throw]
    rfl
  | silent => exact Session.run_bind_error (by rw [run_recv, if_pos hp, hend]; rfl)
  | broken => exact Session.run_bind_error (by rw [run_recv, if_pos hp, hend]; rfl)

end DnsFixtures
