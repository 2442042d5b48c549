import DnsFixtures.Equiv.Envelope
import DnsFixtures.Equiv.Forwarding

/-!
# The transcript of a TCP connection

`run_serveLoop_fresh` and `run_serveLoop_forwarded` are the turns of the loop of the TCP handler.
`handleTcp_transcript` puts them together: ordinary queries are answered one by one in their order,
at most 64 of them, however the stream of the client is cut.
-/

namespace DnsFixtures

open Dns

/-! ### A fresh turn -/

/-- The keys behind whose reply the connection ends. -/
def closingKeys : List String :=
  ["close-before", "stall", "close-prefix", "close-body", "length-mismatch", "mismatch-id",
    "mismatch-question", "duplicate", "trailing"]

/-- Every other key sends one frame and keeps the connection. -/
theorem delivery_of_not_closing {key : String} (h : key ∉ closingKeys) (reply : Octets) :
    delivery key reply = (frameParts key (framed reply), true) := by
  simp only [closingKeys, List.mem_cons, List.not_mem_nil, or_false, not_or] at h
  obtain ⟨h1, h2, h3, h4, h5, h6, h7, h8, h9⟩ := h
  unfold delivery
  rw [if_neg (by simp [h1, h2]), if_neg h3, if_neg h4, if_neg h5, if_neg h6, if_neg h7, if_neg h8,
    if_neg h9]

/-- The TCP handler on a fresh query. -/
theorem run_serveLoop_fresh {d : Dnspython} {w reply rest : Octets} {key : String} {c : Connection}
    (hfresh : isFresh d w = .ok true) (hkey : scenario d w = .ok key)
    (hreply : answerFresh d w true = .ok reply) (h2 : 2 ≤ reply.length)
    (hlen : reply.length ≤ 65535) (hbatch : key ∉ batchKeys)
    (hmismatch : key = "length-mismatch" → reply.length + 16 ≤ 65535)
    (hc : c.client.peer.stream = framed w ++ rest) (hne : w ≠ []) (hw : w.length ≤ 65535) (n : Nat) :
    ∃ c', c.client.After c'.client rest (delivery key reply).1 ∧ c'.upstreams = c.upstreams ∧
      c'.forwarded = c.forwarded ∧ (serveLoop d (n + 1)).run c
        = if (delivery key reply).2 then (serveLoop d n).run c' else (.ok (), c') := by
  obtain ⟨sock, hrecv, hafter⟩ := run_recvFrame hc hne hw
  have hrecv' : (onClient recvFrame).run c = (.ok w, { c with client := sock }) := by
    rw [run_onClient, hrecv]
  have hserve := run_serveFreshTcp hkey hreply h2 hlen hbatch hmismatch sock
  refine ⟨{ c with client := { sock with written := sock.written ++ (delivery key reply).1 } },
    ⟨hafter.stream, hafter.ending, by rw [hafter.written, List.append_nil]⟩, rfl, rfl, ?_⟩
  rw [serveLoop, Session.run_bind_ok hrecv', Session.run_ofExcept_bind hfresh, if_pos rfl,
    Session.run_bind, run_onClient, hserve]
  dsimp only
  split_ifs
  · rfl
  · rfl

/-! ### Ordinary queries -/

/-- One query on the connection and what it is answered with. -/
structure Turnaround where
  query : Octets
  reply : Octets
  /-- the upstream connection of a query that is forwarded -/
  upstream : Option Peer

/-- A fresh query whose key neither closes the connection nor waits for more, or a query that is
forwarded without a fault. -/
inductive Ordinary (d : Dnspython) : Turnaround → Prop
  | fresh {query reply : Octets} {key : String} : isFresh d query = .ok true →
      scenario d query = .ok key → key ∉ closingKeys → key ∉ batchKeys →
      answerFresh d query true = .ok reply → reply ≠ [] → query.length ≤ 65535 →
      Ordinary d ⟨query, reply, none⟩
  | forwarded {query reply behind : Octets} {peer : Peer} {s : Scenario} : query ≠ [] →
      query.length ≤ 65535 → isFresh d query = .ok false → queryScenario query = .ok s →
      s ∈ [Scenario.normal, .forceTcp] → peer.stream = framed reply ++ behind →
      Answers query reply → Ordinary d ⟨query, reply, some peer⟩

/-- The octets of the frames of the queries. -/
def queriesOf (ts : List Turnaround) : Octets := ts.flatMap fun t => framed t.query

/-- The octets of the frames of the replies. -/
def repliesOf (ts : List Turnaround) : Octets := ts.flatMap fun t => framed t.reply

/-- The upstream connections that are opened. -/
def upstreamsOf (ts : List Turnaround) : List (Option Peer) :=
  ts.flatMap fun t => (t.upstream.map some).toList

theorem not_length_mismatch {key : String} (h : key ∉ closingKeys) : key ≠ "length-mismatch" := by
  rintro rfl
  exact h (by decide)

section

variable {d : Dnspython} (hd : d.Documented)
include hd

theorem Ordinary.id_eq {t : Turnaround} (h : Ordinary d t) : t.reply.take 2 = t.query.take 2 := by
  cases h with
  | fresh _ _ _ _ hreply hne => exact (answerFresh_reply hd hreply hne).2.2.1
  | forwarded _ _ _ _ _ _ hans => exact hans.id

/-- One turn of the loop on an ordinary query. -/
theorem Ordinary.run {t : Turnaround} (h : Ordinary d t) {c : Connection} {rest : Octets}
    {rests : List (Option Peer)} (hc : c.client.peer.stream = framed t.query ++ rest)
    (hup : c.upstreams = (t.upstream.map some).toList ++ rests) (n : Nat) :
    ∃ c' parts, parts.flatten = framed t.reply ∧ c.client.After c'.client rest parts ∧
      c'.upstreams = rests ∧ (serveLoop d (n + 1)).run c = (serveLoop d n).run c' := by
  cases h with
  | @fresh query reply key hfresh hkey hclosing hbatch hreply hne hlen =>
    obtain ⟨h12, hmax, -, hdr, hh, -⟩ := answerFresh_reply hd hreply hne
    have hquery : query ≠ [] := by
      rintro rfl
      cases hh
    obtain ⟨c', hafter, hups, -, hrun⟩ := run_serveLoop_fresh hfresh hkey hreply (by omega) hmax
      hbatch (fun h => absurd h (not_length_mismatch hclosing)) hc hquery hlen n
    rw [delivery_of_not_closing hclosing] at hafter hrun
    exact ⟨c', _, flatten_frameParts key _, hafter, hups.trans hup, by rw [hrun, if_pos rfl]⟩
  | @forwarded query reply behind peer s hquery hlen hfresh hscenario hs hstream hans =>
    have hrelay : s ∈ [Scenario.normal, .forceTcp, .splitPrefix, .splitBody, .bytewise, .delayed] :=
      (by decide : ∀ s ∈ [Scenario.normal, .forceTcp],
        s ∈ [Scenario.normal, .forceTcp, .splitPrefix, .splitBody, .bytewise, .delayed]) s hs
    have hkeep : s = .normal ∨ s = .forceTcp := by simpa using hs
    obtain ⟨c', parts, hparts, hafter, hups, -, hrun⟩ := run_serveLoop_forwarded hfresh hscenario
      hrelay hc hquery hlen ⟨peer, behind, hup, hstream⟩ hans n
    exact ⟨c', parts, hparts, hafter, hups, by rw [hrun, if_pos hkeep]⟩

/-- Ordinary queries in a row, with `n` turns to spare. -/
theorem run_serveLoop_ordinary {ts : List Turnaround} (hts : ∀ t ∈ ts, Ordinary d t)
    {c : Connection} {rest : Octets} {rests : List (Option Peer)}
    (hc : c.client.peer.stream = queriesOf ts ++ rest)
    (hup : c.upstreams = upstreamsOf ts ++ rests) (n : Nat) :
    ∃ c' parts, parts.flatten = repliesOf ts ∧ c.client.After c'.client rest parts ∧
      (serveLoop d (ts.length + n)).run c = (serveLoop d n).run c' := by
  induction ts generalizing c with
  | nil =>
    have hnil : c.client.After c.client c.client.peer.stream [] := Sock.After.refl _
    rw [hc] at hnil
    exact ⟨c, [], rfl, hnil, by rw [List.length_nil, Nat.zero_add]⟩
  | cons t ts ih =>
    have hc' : c.client.peer.stream = framed t.query ++ (queriesOf ts ++ rest) := by
      rw [hc, queriesOf, List.flatMap_cons, List.append_assoc]
      rfl
    have hup' : c.upstreams = (t.upstream.map some).toList ++ (upstreamsOf ts ++ rests) := by
      rw [hup, upstreamsOf, List.flatMap_cons, List.append_assoc]
      rfl
    -- one turn, and then the others on what it leaves
    obtain ⟨c₁, parts₁, hparts₁, hafter₁, hups₁, hrun₁⟩ :=
      (hts t List.mem_cons_self).run hd hc' hup' (ts.length + n)
    obtain ⟨c₂, parts₂, hparts₂, hafter₂, hrun₂⟩ :=
      ih (fun t ht => hts t (List.mem_cons_of_mem _ ht)) hafter₁.stream hups₁
    refine ⟨c₂, parts₁ ++ parts₂, ?_, hafter₁.trans hafter₂, ?_⟩
    · show (parts₁ ++ parts₂).flatten = framed t.reply ++ repliesOf ts
      rw [List.flatten_append, hparts₁, hparts₂]
    · rw [List.length_cons, Nat.add_right_comm, hrun₁, hrun₂]

/-- **The transcript of a connection.**  Ordinary queries are answered in their order, each by its own
reply with its identifier; behind the 64th the connection ends, whatever follows. -/
theorem handleTcp_transcript {ts : List Turnaround} (hts : ∀ t ∈ ts, Ordinary d t)
    (hlen : ts.length ≤ MAX_TCP_QUERIES) {c : Connection} {rest : Octets}
    {rests : List (Option Peer)} (hc : c.client.peer.stream = queriesOf ts ++ rest)
    (hrest : ts.length < MAX_TCP_QUERIES → rest = [])
    (hup : c.upstreams = upstreamsOf ts ++ rests) :
    (∀ t ∈ ts, t.reply.take 2 = t.query.take 2) ∧
      ∃ c' parts, handleTcp d c = (.ok (), c') ∧ c'.client.peer.stream = rest ∧
        c'.client.written = c.client.written ++ parts ∧ parts.flatten = repliesOf ts := by
  refine ⟨fun t ht => (hts t ht).id_eq hd, ?_⟩
  obtain ⟨n, hn⟩ : ∃ n, MAX_TCP_QUERIES = ts.length + n := ⟨MAX_TCP_QUERIES - ts.length, by omega⟩
  obtain ⟨c', parts, hparts, hafter, hrun⟩ := run_serveLoop_ordinary hd hts hc hup n
  refine ⟨c', parts, ?_, hafter.stream, hafter.written, hparts⟩
  unfold handleTcp
  rw [hn, hrun]
  cases n with
  | zero => rfl
  | succ n =>
    -- no query is left, and the handler sees how the connection ends
    have hnil := hafter.stream
    rw [hrest (by omega)] at hnil
    have hrecv : (onClient recvFrame).run c'
        = (.error (c'.client.peer.ending.raised .eofError), c') := by
      rw [run_onClient, run_recvFrame_nil hnil]
    have hlogged : ∀ ending : Ending, (ending.raised .eofError).isLogged = true ∨
        ending.raised .eofError = .eofError := by
      intro ending
      cases ending <;> decide
    rw [serveLoop, Session.run_bind_error hrecv]
    dsimp only
    rw [if_pos (hlogged _)]

end

/-- What is answered to a query over TCP; nothing when it raises. -/
def Reference.replyTo (query : Octets) : Octets :=
  ((answerFresh Reference.dnspython query true).toOption).getD []

/-- A fresh query for an address. -/
def Reference.freshTurn : Turnaround :=
  ⟨askKey "a" RRType.A, replyTo (askKey "a" RRType.A), none⟩

/-- A query that is forwarded, and an upstream that refuses it. -/
def Reference.forwardedTurn : Turnaround :=
  let refusal : Octets := [0x12, 0x34, 0x81, 0x85, 0, 0, 0, 0, 0, 0, 0, 0]
  ⟨ask host.labels RRType.A, refusal, some ⟨framed refusal, [0, 4], .closed⟩⟩

theorem ordinary_freshTurn : Ordinary Reference.dnspython Reference.freshTurn := by
  have hkey : scenario Reference.dnspython (Reference.askKey "a" RRType.A) = .ok "a" := by
    decide +kernel
  refine Ordinary.fresh ?_ hkey (by decide) (by decide) ?_ ?_ (by decide)
  · decide +kernel
  · decide +kernel
  · decide +kernel

theorem ordinary_forwardedTurn : Ordinary Reference.dnspython Reference.forwardedTurn := by
  have hscenario : queryScenario (Reference.ask Reference.host.labels RRType.A) = .ok .normal := by
    decide
  exact Ordinary.forwarded (by decide) (by decide) (by decide +kernel) hscenario (by decide)
    (List.append_nil _).symm ⟨by decide, by decide, by decide⟩

/-- Both kinds of queries on one connection, in pieces of one, four and two octets. -/
theorem handleTcp_transcript_mixed :
    let ts := [Reference.freshTurn, Reference.forwardedTurn, Reference.freshTurn]
    ∃ c' parts, handleTcp Reference.dnspython
        ⟨⟨⟨queriesOf ts, [0, 3, 1], .closed⟩, []⟩, upstreamsOf ts, []⟩ = (.ok (), c') ∧
      c'.client.written = parts ∧ parts.flatten = repliesOf ts := by
  intro ts
  have hts : ∀ t ∈ ts, Ordinary Reference.dnspython t := by
    intro t ht
    simp only [ts, List.mem_cons, List.not_mem_nil, or_false] at ht
    obtain rfl | rfl | rfl := ht
    · exact ordinary_freshTurn
    · exact ordinary_forwardedTurn
    · exact ordinary_freshTurn
  obtain ⟨-, c', parts, hrun, -, hwritten, hparts⟩ := handleTcp_transcript Reference.documented hts
    (by decide) (c := ⟨⟨⟨queriesOf ts, [0, 3, 1], .closed⟩, []⟩, upstreamsOf ts, []⟩)
    (List.append_nil _).symm (fun _ => rfl) (List.append_nil _).symm
  exact ⟨c', parts, hrun, hwritten, hparts⟩

end DnsFixtures
