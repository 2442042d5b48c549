import DnsFixtures.SessionTrace
import DnsFixtures.Equiv.Frames

/-!
# The dialogue of a TCP session

The protocol that a TCP session follows, as an automaton that reads its events: `Phase.Moves` says which
event may come in which phase.  It knows nothing of the handler; `Orderly` is what a reader of the trace
can rely on.
-/

namespace DnsFixtures

open Dns

/-- Where a session is; `left` is the number of queries to go. -/
inductive Phase where
  | idle (left : Nat)
  /-- a fresh query was read that is answered on its own -/
  | fresh (left : Nat)
  | answered (left : Nat)
  /-- a fresh query was read that is answered together with `reads` more -/
  | batch (reads : Nat)
  /-- a query was read that is to be forwarded -/
  | asked (left : Nat) (query : Octets) (scenario : Scenario)
  | waiting (left : Nat) (scenario : Scenario)
  | relaying (left : Nat) (scenario : Scenario)
  /-- nothing comes any more but a failure -/
  | closing
  | failed
  deriving DecidableEq, Repr

/-- A query that the proxy forwards. -/
def IsForwarded (d : Dnspython) (query : Octets) : Prop :=
  isFresh d query = .ok false ∧ ∃ s, queryScenario query = .ok s ∧
    s ∉ [Scenario.closeBeforeResponse, .stall]

/-- The line that a response leaves in the log. -/
def completedLine (s : Scenario) : LogLine := ⟨"completed", "complete", s, "tcp"⟩

namespace Phase

/-- The number of queries to go, where one may be read. -/
def left : Phase → Option Nat
  | idle n | answered n => some n
  | _ => none

/-- The phase behind a response. -/
def completed (n : Nat) (s : Scenario) : Phase :=
  if s = .normal ∨ s = .forceTcp then idle n else closing

inductive Moves (d : Dnspython) : Phase → Event → Phase → Prop
  | fresh {φ : Phase} {n : Nat} {query : Octets} {key : String} : φ.left = some (n + 1) →
      isFresh d query = .ok true → scenario d query = .ok key → key ∉ batchKeys →
      Moves d φ (.received query) (.fresh n)
  | batch {φ : Phase} {n : Nat} {query : Octets} {key : String} : φ.left = some (n + 1) →
      isFresh d query = .ok true → scenario d query = .ok key → key ∈ batchKeys →
      Moves d φ (.received query) (.batch 2)
  | asked {φ : Phase} {n : Nat} {query : Octets} {s : Scenario} : φ.left = some (n + 1) →
      isFresh d query = .ok false → queryScenario query = .ok s →
      s ∉ [Scenario.closeBeforeResponse, .stall] →
      Moves d φ (.received query) (.asked n query s)
  | dropped {φ : Phase} {n : Nat} {query : Octets} : φ.left = some (n + 1) →
      ¬ IsForwarded d query → Moves d φ (.received query) .closing
  | answer {n : Nat} {part : Octets} : Moves d (.fresh n) (.sent part) (.answered n)
  | more {n : Nat} {part : Octets} : Moves d (.answered n) (.sent part) (.answered n)
  | next {k : Nat} {query : Octets} : 12 ≤ query.length →
      Moves d (.batch (k + 1)) (.received query) (.batch k)
  | answerAll {part : Octets} : Moves d (.batch 0) (.sent part) .closing
  | forward {n : Nat} {query : Octets} {s : Scenario} :
      Moves d (.asked n query s) (.forwarded (framed query)) (.waiting n s)
  | relay {n : Nat} {s : Scenario} {part : Octets} : part ≠ [] →
      Moves d (.waiting n s) (.sent part) (.relaying n s)
  | relayMore {n : Nat} {s : Scenario} {part : Octets} : part ≠ [] →
      Moves d (.relaying n s) (.sent part) (.relaying n s)
  | complete {n : Nat} {s : Scenario} :
      Moves d (.relaying n s) (.logged (completedLine s)) (completed n s)
  | fail {φ : Phase} {line : LogLine} : φ ≠ .failed → line.event = "failed" →
      Moves d φ (.logged line) .failed

/-- The phase that a trace leads to. -/
inductive Accepts (d : Dnspython) : List Event → Phase → Prop
  | nil : Accepts d [] (.idle MAX_TCP_QUERIES)
  | snoc {es : List Event} {e : Event} {φ ψ : Phase} : Accepts d es φ → Moves d φ e ψ →
      Accepts d (es ++ [e]) ψ

end Phase

/-! ### What can be relied on -/

/-- The lines of this kind in the log. -/
def loggedAs (event : String) (trace : List Event) : List LogLine :=
  (logged trace).filter fun line => line.event = event

open Classical in
/-- The messages that the upstream is to get. -/
noncomputable def wanted (d : Dnspython) (trace : List Event) : List Octets :=
  ((received trace).filter fun query => IsForwarded d query).map framed

/-- At any time at most one query is forwarded and not completed; the upstream gets the queries that are
to be forwarded in their order, each once and unchanged; and a failure is the end. -/
structure Orderly (d : Dnspython) (trace : List Event) : Prop where
  accepted : ∃ φ, Phase.Accepts d trace φ
  bounded : (received trace).length ≤ MAX_TCP_QUERIES + 2
  in_order : forwarded trace <+: wanted d trace
  outstanding : (loggedAs "completed" trace).length ≤ (forwarded trace).length ∧
    (forwarded trace).length ≤ (loggedAs "completed" trace).length + 1
  idle_at_query : ∀ front query behind, trace = front ++ .received query :: behind →
    (forwarded front).length = (loggedAs "completed" front).length
  idle_at_forward : ∀ front message behind, trace = front ++ .forwarded message :: behind →
    (forwarded front).length = (loggedAs "completed" front).length ∧
      ∃ query, front.getLast? = some (.received query) ∧ message = framed query
  failure_last : ∀ front line behind, trace = front ++ .logged line :: behind →
    line.event = "failed" → behind = []

end DnsFixtures
