import DnsFixtures.Equiv.Fallback
import DnsFixtures.Equiv.Truncated

/-!
# What a datagram sets off

A datagram is answered at most once, in a message with its identifier, and what goes upstream are copies
of it, at most one for each address (`handleUdp_datagram`).  A reply from upstream is the first datagram
that came back (`replies_relayed`).
-/

namespace DnsFixtures

open Dns

variable {d : Dnspython} {query r : Octets} {upstreams : List Outcome}

/-! ### Replies from upstream -/

/-- The scenarios in which a datagram is forwarded. -/
def Scenario.relays (s : Scenario) : Prop := s ∉ [closeBeforeResponse, stall, forceTcp]

/-- What a relayed datagram leaves behind is what its forwarding does. -/
theorem run_serveDatagram_relayed (hfresh : isFresh d query = .ok false) {s : Scenario}
    (hs : queryScenario query = .ok s) (hrelay : s.relays) (upstreams : List Outcome) :
    (serveDatagram d query upstreams).run ⟨[], []⟩
      = ((forwardUdp query upstreams) >>= sendClient).run ⟨[], []⟩ := by
  simp only [Scenario.relays, List.mem_cons, List.not_mem_nil, or_false, not_or] at hrelay
  obtain ⟨hclose, hstall, htcp⟩ := hrelay
  rw [serveDatagram, Session.run_ofExcept_bind hfresh, if_neg Bool.false_ne_true,
    Session.run_ofExcept_bind hs, if_neg (not_or.mpr ⟨hclose, hstall⟩), if_neg htcp]

/-- **The first datagram decides**: it is relayed when it is a valid response. -/
theorem replies_relayed (hfresh : isFresh d query = .ok false) {s : Scenario}
    (hs : queryScenario query = .ok s) (hrelay : s.relays) (upstreams : List Outcome) :
    (handleUdp d query upstreams).2.replies = ((upstreams.findSome? Outcome.datagram?).filter
      fun response => IsValidResponse query response).toList := by
  rw [replies_handleUdp, run_serveDatagram_relayed hfresh hs hrelay, Session.run_bind]
  cases hrun : (forwardUdp query upstreams).run ⟨[], []⟩ with
  | mk result e =>
    obtain ⟨hreplies, -⟩ := run_forwardUdpLoop_sound hrun
    have hnil : e.replies = [] := hreplies
    cases hfirst : upstreams.findSome? Outcome.datagram? with
    | none =>
      obtain ⟨err, herr⟩ := @run_forwardUdpLoop_of_none query upstreams
        (List.findSome?_eq_none_iff.mp hfirst) .osError ⟨[], []⟩
      rw [← forwardUdp, hrun] at herr
      cases herr
      exact hnil
    | some response =>
      have hresult := @run_forwardUdp_of_some query _ _ hfirst ⟨[], []⟩
      rw [hrun] at hresult
      by_cases hvalid : IsValidResponse query response
      · rw [validateUpstreamResponse_eq_ok_iff.mpr hvalid] at hresult
        cases hresult
        rw [Option.filter_some, if_pos (decide_eq_true hvalid)]
        show e.replies ++ [response] = [response]
        rw [hnil, List.nil_append]
      · cases hcheck : validateUpstreamResponse query response with
        | ok _ => exact absurd (validateUpstreamResponse_eq_ok_iff.mp hcheck) hvalid
        | error err =>
          rw [hcheck] at hresult
          cases hresult
          rw [Option.filter_some, if_neg (by simpa using hvalid)]
          exact hnil

/-! ### Copies -/

/-- Each address gets the query at most once. -/
theorem forwarded_forwardUdpLoop (query : Octets) (addresses : List Outcome) (lastError : Raised)
    (e : Exchange) : ∃ k ≤ addresses.length,
      ((forwardUdpLoop query addresses lastError).run e).2.forwarded
        = e.forwarded ++ List.replicate k query := by
  induction addresses generalizing lastError e with
  | nil => exact ⟨0, Nat.le_refl _, (List.append_nil _).symm⟩
  | cons o addresses ih =>
    cases o with
    | unreachable =>
      obtain ⟨k, hk, hrun⟩ := ih .osError e
      exact ⟨k, Nat.le_succ_of_le hk, hrun⟩
    | timeout =>
      obtain ⟨k, hk, hrun⟩ := ih .timeout { e with forwarded := e.forwarded ++ [query] }
      refine ⟨k + 1, Nat.succ_le_succ hk, ?_⟩
      rw [forwardUdpLoop, Session.run_bind_ok (run_sendUpstream ..), hrun, List.append_assoc,
        List.replicate_succ]
      rfl
    | datagram response =>
      refine ⟨1, Nat.succ_le_succ (Nat.zero_le _), ?_⟩
      rw [forwardUdpLoop, Session.run_bind_ok (run_sendUpstream ..), Session.run_bind]
      cases validateUpstreamResponse query response <;> rfl

theorem forwarded_relayed (hfresh : isFresh d query = .ok false) {s : Scenario}
    (hs : queryScenario query = .ok s) (hrelay : s.relays) (upstreams : List Outcome) :
    ∃ k ≤ upstreams.length, (handleUdp d query upstreams).2.forwarded = List.replicate k query := by
  obtain ⟨k, hk, hforwarded⟩ := forwarded_forwardUdpLoop query upstreams .osError ⟨[], []⟩
  refine ⟨k, hk, ?_⟩
  rw [replies_handleUdp, run_serveDatagram_relayed hfresh hs hrelay, Session.run_bind]
  rw [← forwardUdp] at hforwarded
  cases hrun : (forwardUdp query upstreams).run ⟨[], []⟩ with
  | mk result e =>
    rw [hrun] at hforwarded
    cases result <;> exact hforwarded

/-! ### Replies made here -/

/-- What a datagram that is not relayed leaves behind: at most one reply, made here. -/
inductive MadeHere (d : Dnspython) (query : Octets) : Exchange → Prop
  | silent : MadeHere d query ⟨[], []⟩
  | fresh {r : Octets} : answerFresh d query false = .ok r → r ≠ [] → MadeHere d query ⟨[], [r]⟩
  | truncated {r : Octets} : queryScenario query = .ok .forceTcp →
      makeTruncatedResponse d query = .ok r → MadeHere d query ⟨[], [r]⟩

/-- A datagram is relayed, or what is sent for it is made here. -/
theorem relayed_or_madeHere (d : Dnspython) (query : Octets) :
    (isFresh d query = .ok false ∧ ∃ s : Scenario, queryScenario query = .ok s ∧ s.relays) ∨
      ∀ upstreams, MadeHere d query (handleUdp d query upstreams).2 := by
  cases hfresh : isFresh d query with
  | error e =>
    refine Or.inr fun upstreams => ?_
    rw [replies_handleUdp, serveDatagram, Session.run_ofExcept_bind_error hfresh]
    exact .silent
  | ok fresh =>
    cases fresh with
    | true =>
      refine Or.inr fun upstreams => ?_
      rw [replies_handleUdp, serveDatagram, Session.run_ofExcept_bind hfresh, if_pos rfl]
      cases hreply : answerFresh d query false with
      | error e => exact .silent
      | ok r =>
        rw [Session.run_ofExcept_bind rfl]
        split_ifs with hne
        · exact .fresh hreply hne
        · exact .silent
    | false =>
      cases hs : queryScenario query with
      | error e =>
        refine Or.inr fun upstreams => ?_
        rw [replies_handleUdp, serveDatagram, Session.run_ofExcept_bind hfresh,
          if_neg Bool.false_ne_true, Session.run_ofExcept_bind_error hs]
        exact .silent
      | ok s =>
        by_cases hrelay : s.relays
        · exact Or.inl ⟨rfl, s, rfl, hrelay⟩
        · refine Or.inr fun upstreams => ?_
          rw [replies_handleUdp, serveDatagram, Session.run_ofExcept_bind hfresh,
            if_neg Bool.false_ne_true, Session.run_ofExcept_bind hs]
          split_ifs with hclosing htcp
          · exact .silent
          · subst htcp
            rw [Session.run_bind]
            cases hmake : makeTruncatedResponse d query with
            | error e => exact .silent
            | ok r => exact .truncated hs hmake
          · exact absurd (by simpa [Scenario.relays] using ⟨not_or.mp hclosing |>.1, not_or.mp hclosing |>.2, htcp⟩) hrelay

/-- A truncated response has the identifier of its query. -/
theorem take_makeTruncatedResponse (hd : d.Documented) (hresp : d.RefusesResponses)
    (hskeleton : d.DocumentedSkeleton) (hs : queryScenario query = .ok .forceTcp)
    (h : makeTruncatedResponse d query = .ok r) : 12 ≤ r.length ∧ r.take 2 = query.take 2 := by
  obtain ⟨ls, hasks⟩ := (queryScenario_iff (by decide)).mp hs
  obtain ⟨ps, hread⟩ := hasks.question
  obtain ⟨hdr, hh, hone⟩ := hread.qdcount
  obtain ⟨hdr', hh', hop⟩ := hasks.opcode
  rw [hh] at hh'
  cases hh'
  by_cases hcount : arcount query = 0
  · obtain ⟨stop, hdec, hlen⟩ := hread.decodes
    rw [makeTruncatedResponse_copy hh hone hdec hlen hcount] at h
    cases h
    obtain ⟨b, -, -, hcopy⟩ := copyOf_eq query hdr (stop + 4)
    rw [hcopy, take_of_readHeader hh]
    refine ⟨?_, rfl⟩
    rw [List.length_append, List.length_append, length_packU16]
    exact Nat.le_trans (by decide : 12 ≤ 2 + 10) (Nat.add_le_add_left (Nat.le_add_right ..) 2)
  · by_cases hqr : hasFlag hdr.flags Flag.QR
    · obtain ⟨e, he⟩ := makeTruncatedResponse_raises hd hresp ⟨hdr, hh, hqr⟩ hcount
      rw [h] at he
      cases he
    · cases hparse : d.messageFromWire query with
      | error e =>
        unfold makeTruncatedResponse at h
        rw [if_pos (show (readU16 query 10).getD 0 ≠ 0 from hcount), hparse] at h
        cases h
      | ok m =>
        obtain ⟨hdr', hh', -, hflags, hquestion⟩ := readHeader_of_parse hd hparse
        rw [hh] at hh'
        cases hh'
        have hopcode : opcodeOf m.flags = 0 := by
          have hzero : hdr.flags &&& Flag.opcodeMask = 0 := not_not.mp hop
          rw [hflags, opcodeOf, hzero]
          rfl
        obtain ⟨r', hr', hreply⟩ := truncatedReply_of_parse hd hskeleton hparse (hflags ▸ hqr) hopcode
          (by rw [hquestion, hone]; rfl) hcount
        rw [h] at hr'
        cases hr'
        obtain ⟨hq, hr, hhq, hhr, hid, -⟩ := hreply.header
        rw [take_of_readHeader hhq, take_of_readHeader hhr, hid]
        exact ⟨(readHeader_isSome_iff r).mp (by rw [hhr]; rfl), rfl⟩

/-! ### Datagrams -/

/-- What can be relied on of the handling of a datagram. -/
structure OneReply (d : Dnspython) (query : Octets) (upstreams : List Outcome) (e : Exchange) : Prop where
  at_most_one : e.replies.length ≤ 1
  identifier : ∀ r ∈ e.replies, 12 ≤ r.length ∧ r.take 2 = query.take 2
  copies : ∃ k ≤ upstreams.length, e.forwarded = List.replicate k query
  /-- a reply is made here, and nothing goes upstream, or it is the first datagram that came back -/
  origin : ∀ r ∈ e.replies, (e.forwarded = [] ∧
      (answerFresh d query false = .ok r ∨ makeTruncatedResponse d query = .ok r)) ∨
    upstreams.findSome? Outcome.datagram? = some r
  /-- a fresh query stays here -/
  local_only : isFresh d query = .ok true → e.forwarded = []

/-- **Every datagram**, whatever it holds and whatever the upstreams send. -/
theorem handleUdp_oneReply (hd : d.Documented) (hresp : d.RefusesResponses)
    (hskeleton : d.DocumentedSkeleton) (query : Octets) (upstreams : List Outcome) :
    OneReply d query upstreams (handleUdp d query upstreams).2 := by
  rcases relayed_or_madeHere d query with ⟨hfresh, s, hs, hrelay⟩ | hmade
  · have hreplies := replies_relayed hfresh hs hrelay upstreams
    obtain ⟨k, hk, hforwarded⟩ := forwarded_relayed hfresh hs hrelay upstreams
    have hfirst : ∀ r ∈ (handleUdp d query upstreams).2.replies,
        upstreams.findSome? Outcome.datagram? = some r ∧ IsValidResponse query r := by
      intro r hr
      rw [hreplies, Option.mem_toList, Option.filter_eq_some_iff] at hr
      exact ⟨hr.1, of_decide_eq_true hr.2⟩
    refine ⟨?_, fun r hr => (hfirst r hr).2, ⟨k, hk, hforwarded⟩, fun r hr => Or.inr (hfirst r hr).1, ?_⟩
    · rw [hreplies]
      exact Option.length_toList_le
    · intro htrue
      rw [hfresh] at htrue
      cases htrue
  · have hcase := hmade upstreams
    generalize (handleUdp d query upstreams).2 = e at hcase
    cases hcase with
    | silent => exact ⟨Nat.zero_le _, nofun, ⟨0, Nat.zero_le _, rfl⟩, nofun, fun _ => rfl⟩
    | @fresh r hreply hne =>
      refine ⟨Nat.le_refl _, ?_, ⟨0, Nat.zero_le _, rfl⟩, ?_, fun _ => rfl⟩
      · intro r' hr'
        obtain rfl := List.mem_singleton.mp hr'
        obtain ⟨h12, -, hid, -⟩ := answerFresh_reply hd hreply hne
        exact ⟨h12, hid⟩
      · intro r' hr'
        obtain rfl := List.mem_singleton.mp hr'
        exact Or.inl ⟨rfl, Or.inl hreply⟩
    | @truncated r hs hmake =>
      refine ⟨Nat.le_refl _, ?_, ⟨0, Nat.zero_le _, rfl⟩, ?_, fun _ => rfl⟩
      · intro r' hr'
        obtain rfl := List.mem_singleton.mp hr'
        exact take_makeTruncatedResponse hd hresp hskeleton hs hmake
      · intro r' hr'
        obtain rfl := List.mem_singleton.mp hr'
        exact Or.inl ⟨rfl, Or.inr hmake⟩

theorem handleUdp_oneReply_forceTcp : OneReply Reference.dnspython
    (Reference.ask (transportOwner .forceTcp) RRType.A) [.timeout]
    (handleUdp Reference.dnspython (Reference.ask (transportOwner .forceTcp) RRType.A) [.timeout]).2 :=
  handleUdp_oneReply Reference.documented Reference.refusesResponses Reference.documentedSkeleton _ _

end DnsFixtures
