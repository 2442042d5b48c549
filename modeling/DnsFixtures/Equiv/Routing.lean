import DnsFixtures.Equiv.Frames
import DnsFixtures.Equiv.QuestionName
import DnsFixtures.Reference

/-!
# Which queries are answered locally

`is_fresh` reads the question name with dnspython, which follows backward pointers only and stops at
255 octets (`isFresh_iff`); the proxy's own reader knows neither limit.  `keptLocal_iff`: a name that
the proxy reads as a fresh one is kept from the upstream exactly when it is inside both.
-/

namespace DnsFixtures

open Dns

/-! ### The routing decision -/

section

variable {d : Dnspython} (hd : d.Documented) {w : Octets}
include hd

/-- `is_fresh` never raises. -/
theorem isFresh_total (w : Octets) : ∃ b, isFresh d w = .ok b := by
  unfold isFresh
  split_ifs
  · exact ⟨false, rfl⟩
  · cases h : d.nameFromWire w 12 with
    | ok r => exact ⟨_, rfl⟩
    | error e =>
      dsimp only
      rw [if_pos (hd.nameFromWire_raises _ _ _ h)]
      exact ⟨false, rfl⟩

theorem isFresh_eq_false_iff : isFresh d w = .ok false ↔ ¬ isFresh d w = .ok true := by
  obtain ⟨b, hb⟩ := isFresh_total hd w
  rw [hb]
  cases b <;> simp

/-- **Which octets are fresh**: a first question name ends in `fresh.example.test`, as dnspython
reads it. -/
theorem isFresh_iff : isFresh d w = .ok true ↔ ∃ h ls ps, readHeader w = some h ∧ h.qdcount ≠ 0 ∧
    Expands w 12 ls ps ∧ Backward 12 ps ∧ nameLength ls ≤ 255 ∧
    foldCase (ls.drop (ls.length - 3)) = SUFFIX := by
  unfold isFresh
  constructor
  · intro hrun
    split_ifs at hrun with hshort
    · cases hrun
    rw [not_or] at hshort
    obtain ⟨h, hh⟩ := Option.isSome_iff_exists.mp
      ((readHeader_isSome_iff w).mpr (Nat.not_lt.mp hshort.1))
    have hcount : h.qdcount ≠ 0 := by
      intro h0
      exact hshort.2 (h0 ▸ (readHeader_eq_some hh).2.2.1)
    cases hname : d.nameFromWire w 12 with
    | error e =>
      rw [hname] at hrun
      dsimp only at hrun
      rw [if_pos (hd.nameFromWire_raises _ _ _ hname)] at hrun
      cases hrun
    | ok r =>
      obtain ⟨n, used⟩ := r
      rw [hname] at hrun
      have hsuffix : foldCase (lastLabels n) = SUFFIX := of_decide_eq_true (Except.ok.inj hrun)
      obtain ⟨ps, hexp, hback⟩ := (hd.nameFromWire_iff w 12 n).mp ⟨used, hname⟩
      exact ⟨h, n.labels, ps, hh, hcount, hexp, hback, n.legal.total_le, hsuffix⟩
  · rintro ⟨h, ls, ps, hh, hcount, hexp, hback, hle, hsuffix⟩
    have hlen : 12 ≤ w.length := (readHeader_isSome_iff w).mp (by rw [hh]; rfl)
    have hne : ¬ (w.length < 12 ∨ readU16 w 4 = some 0) := by
      rintro (hlt | h0)
      · omega
      · rw [(readHeader_eq_some hh).2.2.1] at h0
        exact hcount (Option.some.inj h0)
    obtain ⟨used, hname⟩ := (hd.nameFromWire_iff w 12 ⟨ls, hexp.legal hle⟩).mpr ⟨ps, hexp, hback⟩
    rw [if_neg hne, hname]
    show Except.ok (decide (foldCase (ls.drop (ls.length - 3)) = SUFFIX)) = _
    rw [decide_eq_true hsuffix]

end

/-! ### What the handlers do with a fresh query -/

section

variable {d : Dnspython} {w : Octets}

theorem run_onClient {α : Type} (m : Session Sock α) (c : Connection) :
    (onClient m).run c = ((m.run c.client).1, { c with client := (m.run c.client).2 }) := rfl

/-- One turn of the loop of the TCP handler on a fresh query leaves the upstream alone. -/
theorem forwarded_of_isFresh (hfresh : isFresh d w = .ok true) {c : Connection} {rest : Octets}
    (hc : c.client.peer.stream = framed w ++ rest) (hne : w ≠ []) (hlen : w.length ≤ 65535) :
    ((serveLoop d 1).run c).2.forwarded = c.forwarded := by
  obtain ⟨s, hrun, -⟩ := run_recvFrame hc hne hlen
  have hrecv : (onClient recvFrame).run c = (.ok w, { c with client := s }) := by
    rw [run_onClient, hrun]
  rw [serveLoop, Session.run_bind_ok hrecv, Session.run_ofExcept_bind hfresh, if_pos rfl,
    Session.run_bind, run_onClient]
  cases (serveFreshTcp d w).run s with
  | mk result s' =>
    cases result with
    | error e => rfl
    | ok reuse => cases reuse <;> rfl

theorem handleUdp_of_isFresh (hfresh : isFresh d w = .ok true) (addresses : List Outcome) :
    (handleUdp d w addresses).2.forwarded = [] := by
  have hrun : ((serveDatagram d w addresses).run ⟨[], []⟩).2.forwarded = [] := by
    rw [serveDatagram, Session.run_ofExcept_bind hfresh, if_pos rfl]
    cases hreply : answerFresh d w false with
    | error e => rw [Session.run_ofExcept_bind_error rfl]
    | ok r =>
      rw [Session.run_ofExcept_bind rfl]
      split_ifs
      · rfl
      · rfl
  unfold handleUdp
  revert hrun
  cases (serveDatagram d w addresses).run ⟨[], []⟩ with
  | mk result e =>
    intro hrun
    cases result with
    | ok _ => exact hrun
    | error err =>
      dsimp only at hrun ⊢
      split_ifs
      · exact hrun
      · exact hrun

end

/-! ### Names that the proxy reads -/

/-- The proxy's own reader finds a name under `fresh.example.test` in the only question of a
QUERY. -/
structure ReadsFresh (w : Octets) (ls : List Label) (ps : List Nat) : Prop where
  query : ∃ h, readHeader w = some h ∧ opcodeOf h.flags = 0
  question : ReadsQuestion w ls ps
  suffix : foldCase (ls.drop (ls.length - 3)) = SUFFIX

/-- The message is answered locally: neither handler sends it upstream. -/
structure KeptLocal (d : Dnspython) (w : Octets) : Prop where
  isFresh : isFresh d w = .ok true
  udp : ∀ addresses, (handleUdp d w addresses).2.forwarded = []
  tcp : ∀ c rest, c.client.peer.stream = framed w ++ rest → w.length ≤ 65535 →
    ((serveLoop d 1).run c).2.forwarded = c.forwarded

/-- **Fresh names stay local** exactly when dnspython reads them as well: their pointers lead strictly
backwards and they take at most 255 octets. -/
theorem keptLocal_iff {d : Dnspython} (hd : d.Documented) {w : Octets} {ls : List Label}
    {ps : List Nat} (h : ReadsFresh w ls ps) :
    KeptLocal d w ↔ Backward 12 ps ∧ nameLength ls ≤ 255 := by
  obtain ⟨hdr, hh, hcount⟩ := h.question.qdcount
  obtain ⟨stop, hdec, -⟩ := h.question.decodes
  have hne : w ≠ [] := by
    rintro rfl
    cases hh
  constructor
  · intro hlocal
    obtain ⟨_, ls', ps', -, -, hexp, hback, hle, -⟩ := (isFresh_iff hd).mp hlocal.isFresh
    obtain ⟨rfl, rfl⟩ := hdec.expands.unique hexp
    exact ⟨hback, hle⟩
  · rintro ⟨hback, hle⟩
    have hfresh : isFresh d w = .ok true := by
      refine (isFresh_iff hd).mpr ⟨hdr, ls, ps, hh, ?_, hdec.expands, hback, hle, h.suffix⟩
      rw [hcount]
      decide
    exact ⟨hfresh, handleUdp_of_isFresh hfresh,
      fun c rest hc hlen => forwarded_of_isFresh hfresh hc hne hlen⟩

/-- A query whose name is a pointer to `fresh.example.test` behind the question. -/
def Reference.askForward : Octets :=
  [0x12, 0x34, 1, 0, 0, 1, 0, 0, 0, 0, 0, 0, 0xC0, 18, 0, 1, 0, 1] ++ wireLabels SUFFIX

theorem readsFresh_askForward : ReadsFresh Reference.askForward SUFFIX [18] := by
  have hsuffix : LegalLabels SUFFIX := by decide
  have hholds : HoldsAt Reference.askForward 18 (wireLabels SUFFIX) := by decide
  have hexp : Expands Reference.askForward 12 SUFFIX [18] :=
    @Expands.pointer _ _ 0xC0 18 _ _ rfl (by decide) rfl
      (expands_of_holdsAt hsuffix.label_ne_nil hsuffix.label_le hholds)
  exact ⟨⟨⟨0x1234, 0x0100, 1, 0, 0, 0⟩, by decide, by decide⟩,
    ⟨⟨⟨0x1234, 0x0100, 1, 0, 0, 0⟩, by decide, rfl⟩,
      14, ⟨hexp, by decide, by decide, @EndsAt.pointer _ _ 0xC0 rfl (by decide)⟩, by decide⟩,
    by decide⟩

/-- The proxy reads a fresh name, and sends the query upstream. -/
theorem not_keptLocal_askForward : Reference.dnspython.Documented ∧
    ReadsFresh Reference.askForward SUFFIX [18] ∧
    isFresh Reference.dnspython Reference.askForward = .ok false ∧
    (handleUdp Reference.dnspython Reference.askForward [.timeout]).2.forwarded
      = [Reference.askForward] :=
  ⟨Reference.documented, readsFresh_askForward, by decide +kernel, by decide +kernel⟩

/-- The name of an ordinary query holds no pointer. -/
theorem keptLocal_iff_reference : ∃ w ls, ReadsFresh w ls [] ∧
    (KeptLocal Reference.dnspython w ↔ Backward 12 [] ∧ nameLength ls ≤ 255) := by
  have hlegal : LegalLabels (Reference.underZeros [textOctets "a"]) := by decide
  have hholds : HoldsAt (Reference.askKey "a" RRType.A) 12
      (wireLabels (Reference.underZeros [textOctets "a"])) := by decide
  have hread : ReadsFresh (Reference.askKey "a" RRType.A) (Reference.underZeros [textOctets "a"]) [] :=
    ⟨⟨⟨0x1234, 0x0100, 1, 0, 0, 0⟩, by decide, by decide⟩,
      ⟨⟨⟨0x1234, 0x0100, 1, 0, 0, 0⟩, by decide, rfl⟩,
        12 + nameLength (Reference.underZeros [textOctets "a"]),
        ⟨expands_of_holdsAt hlegal.label_ne_nil hlegal.label_le hholds, by decide, by decide,
          endsAt_of_holdsAt hlegal.label_ne_nil hlegal.label_le hholds⟩, by decide⟩, by decide⟩
  exact ⟨_, _, hread, keptLocal_iff Reference.documented hread⟩

end DnsFixtures
