import DnsFixtures.Equiv.Recovery
import DnsFixtures.Reference

/-!
# What `answer_fresh` returns

`answerFresh_cases` lists the outcomes of `answer_fresh` on any octets (`ReplyCase`): nothing, an
error response that is recovered from the query, the limited response to a query that was parsed, or
an exception.
-/

namespace DnsFixtures

open Dns

/-- The limits on the sizes of replies. -/
theorem replySize_bounds (query : Message) (tcp : Bool) :
    512 ≤ replySize query tcp ∧ replySize query tcp ≤ 65535 := by
  unfold replySize
  split_ifs <;> omega

/-- The octets are no query: they are no whole header, or that of a response. -/
def IsIgnored (w : Octets) : Prop :=
  w.length < 12 ∨ ∃ h, readHeader w = some h ∧ hasFlag h.flags Flag.QR

/-- What `answer_fresh` can make of the octets `w` on either transport. -/
inductive ReplyCase (d : Dnspython) (w : Octets) : (Bool → Except Raised Octets) → Prop
  | ignored : IsIgnored w → ReplyCase d w fun _ => .ok []
  /-- an operation other than QUERY -/
  | notImplemented {h : Header} {m : Message} : readHeader w = some h → ¬ hasFlag h.flags Flag.QR →
      opcodeOf h.flags ≠ 0 → Recovered d w h Rcode.NOTIMP m → ReplyCase d w fun _ => .ok (d.render m)
  /-- a QUERY that cannot be parsed -/
  | malformed {h : Header} {e : Raised} {m : Message} : readHeader w = some h →
      ¬ hasFlag h.flags Flag.QR → opcodeOf h.flags = 0 → d.messageFromWire w = .error e →
      Recovered d w h Rcode.FORMERR m → ReplyCase d w fun _ => .ok (d.render m)
  | answered {query s response : Message} : d.messageFromWire w = .ok query →
      ¬ hasFlag query.flags Flag.QR → opcodeOf query.flags = 0 → Skeleton query s →
      ResponseCase d query s (.ok response) →
      ReplyCase d w fun tcp => .ok (d.render (limited d response (replySize query tcp)))
  | raised {query s : Message} {e : Raised} : d.messageFromWire w = .ok query →
      ¬ hasFlag query.flags Flag.QR → opcodeOf query.flags = 0 → Skeleton query s →
      ResponseCase d query s (.error e) → ReplyCase d w fun _ => .error e

/-- A message that was read has a whole header. -/
theorem readHeader_of_parse {d : Dnspython} (hd : d.Documented) {w : Octets} {query : Message}
    (h : d.messageFromWire w = .ok query) : ∃ hdr, readHeader w = some hdr ∧
      query.id = hdr.id ∧ query.flags = hdr.flags ∧ query.question.length = hdr.qdcount.toNat := by
  obtain ⟨hdr, -, -, hh, hid, hflags, hlen, -⟩ := hd.messageFromWire_header _ _ h
  exact ⟨hdr, hh, hid, hflags, hlen⟩

theorem render_ne_nil {d : Dnspython} (hd : d.Documented) (m : Message) : d.render m ≠ [] := by
  have := (hd.render_header m).2
  exact List.length_pos_iff.mp (by omega)

section

variable {d : Dnspython} (hd : d.Documented) {w : Octets}
include hd

/-- The reply to a QUERY. -/
theorem replyCase_of_query {h : Header} (hh : readHeader w = some h)
    (hqr : ¬ hasFlag h.flags Flag.QR) (hop : opcodeOf h.flags = 0) :
    ReplyCase d w fun tcp => match d.messageFromWire w with
      | .error e => if e.isDNSException then errorResponse d w Rcode.FORMERR else throw e
      | .ok query => respond d query >>= fun response =>
          encodeResponse d response (replySize query tcp) := by
  cases hparse : d.messageFromWire w with
  | error e =>
    obtain ⟨m, hm, hrun⟩ := errorResponse_eq hd hh Rcode.FORMERR (by decide) (by decide)
    dsimp only
    rw [if_pos (hd.messageFromWire_raises _ _ hparse), hrun]
    exact .malformed hh hqr hop hparse hm
  | ok query =>
    obtain ⟨h', hh', -, hflags, -⟩ := readHeader_of_parse hd hparse
    rw [hh] at hh'
    cases hh'
    rw [← hflags] at hqr hop
    obtain ⟨s, hs, hcase⟩ := respond_cases hd hqr hop
    dsimp only
    cases hrespond : respond d query with
    | error e =>
      rw [hrespond] at hcase
      exact .raised hparse hqr hop hs hcase
    | ok response =>
      rw [hrespond] at hcase
      have hsend := hcase.sendable hd hs hop rfl
      have hrun : (fun tcp => Except.ok response >>= fun response =>
          encodeResponse d response (replySize query tcp))
            = fun tcp => .ok (d.render (limited d response (replySize query tcp))) := by
        funext tcp
        obtain ⟨hlow, hhigh⟩ := replySize_bounds query tcp
        exact encodeResponse_eq hd hsend.renderable hlow hhigh
      rw [hrun]
      exact .answered hparse hqr hop hs hcase

/-- **What `answer_fresh` returns.** -/
theorem answerFresh_cases (w : Octets) : ReplyCase d w (answerFresh d w) := by
  unfold answerFresh
  by_cases hlen : w.length < 12
  · simp only [if_pos hlen]
    exact .ignored (Or.inl hlen)
  simp only [if_neg hlen]
  obtain ⟨h, hh⟩ : ∃ h, readHeader w = some h :=
    Option.isSome_iff_exists.mp ((readHeader_isSome_iff w).mpr (Nat.not_lt.mp hlen))
  rw [(readHeader_eq_some hh).2.1]
  dsimp only
  by_cases hqr : hasFlag h.flags Flag.QR
  · simp only [if_pos hqr]
    exact .ignored (Or.inr ⟨h, hh, hqr⟩)
  simp only [if_neg hqr]
  by_cases hop : opcodeOf h.flags = 0
  · simp only [if_neg (not_not_intro hop)]
    exact replyCase_of_query hd hh hqr hop
  · obtain ⟨m, hm, hrun⟩ := errorResponse_eq hd hh Rcode.NOTIMP (by decide) (by decide)
    simp only [if_pos hop, hrun]
    exact .notImplemented hh hqr hop hm

/-- What `answer_fresh` returns for a QUERY that can be parsed. -/
theorem answerFresh_of_parse {query : Message} (hparse : d.messageFromWire w = .ok query)
    (hqr : ¬ hasFlag query.flags Flag.QR) (hop : opcodeOf query.flags = 0) :
    ∃ s x, Skeleton query s ∧ ResponseCase d query s x ∧ ∀ tcp, answerFresh d w tcp
      = x.map fun response => d.render (limited d response (replySize query tcp)) := by
  obtain ⟨hdr, hh, -, hflags, -⟩ := readHeader_of_parse hd hparse
  have hcase := answerFresh_cases hd w
  revert hcase
  generalize answerFresh d w = f
  intro hcase
  cases hcase with
  | ignored hw =>
    -- what was parsed has a header
    exfalso
    rcases hw with hlen | ⟨h', hh', hqr'⟩
    · exact absurd ((readHeader_isSome_iff w).mp (by rw [hh]; rfl)) (Nat.not_le.mpr hlen)
    · rw [hh] at hh'
      cases hh'
      exact hqr (hflags ▸ hqr')
  | notImplemented hh' _ hop' _ =>
    rw [hh] at hh'
    cases hh'
    exact absurd (hflags ▸ hop) hop'
  | malformed _ _ _ herror =>
    rw [hparse] at herror
    cases herror
  | @answered query' s response hparse' _ _ hs hresponse =>
    rw [hparse] at hparse'
    cases hparse'
    exact ⟨s, .ok response, hs, hresponse, fun _ => rfl⟩
  | @raised query' s e hparse' _ _ hs hresponse =>
    rw [hparse] at hparse'
    cases hparse'
    exact ⟨s, .error e, hs, hresponse, fun _ => rfl⟩

/-- Only what is no query gets an empty reply. -/
theorem answerFresh_eq_nil_iff (tcp : Bool) : answerFresh d w tcp = .ok [] ↔ IsIgnored w := by
  constructor
  · have hcase := answerFresh_cases hd w
    revert hcase
    generalize answerFresh d w = f
    intro hcase h
    cases hcase with
    | ignored hw => exact hw
    | notImplemented => exact absurd (Except.ok.inj h) (render_ne_nil hd _)
    | malformed => exact absurd (Except.ok.inj h) (render_ne_nil hd _)
    | answered => exact absurd (Except.ok.inj h) (render_ne_nil hd _)
    | raised => cases h
  · rintro (hlen | ⟨h, hh, hqr⟩)
    · unfold answerFresh
      rw [if_pos hlen]
      rfl
    · have hlen := (readHeader_isSome_iff w).mp (Option.isSome_iff_exists.mpr ⟨h, hh⟩)
      unfold answerFresh
      rw [if_neg (Nat.not_lt.mpr hlen), (readHeader_eq_some hh).2.1]
      show (if hasFlag h.flags Flag.QR then _ else _) = _
      rw [if_pos hqr]
      rfl

end

theorem Reference.not_isIgnored_ask (ls : List Label) (kind : UInt16) :
    ¬ IsIgnored (ask ls kind) := by
  have hread : readHeader (ask ls kind) = some ⟨0x1234, 0x0100, 1, 0, 0, 0⟩ := by
    rw [ask, List.append_assoc, List.append_assoc]
    exact readHeader_of_holdsAt ⟨_, rfl⟩
  rintro (hshort | ⟨h, hh, hqr⟩)
  · exact absurd ((readHeader_isSome_iff _).mp (by rw [hread]; rfl)) (Nat.not_le.mpr hshort)
  · rw [hread] at hh
    cases hh
    exact absurd hqr (by decide)

/-- A query of the reference gets a reply. -/
theorem Reference.ne_nil_of_ask {ls : List Label} {kind : UInt16} {tcp : Bool} {r : Octets}
    (h : answerFresh dnspython (ask ls kind) tcp = .ok r) : r ≠ [] := by
  rintro rfl
  exact not_isIgnored_ask ls kind ((answerFresh_eq_nil_iff documented tcp).mp h)

end DnsFixtures
