import DnsFixtures.Concurrency.Process
import DnsFixtures.SessionGate
import DnsFixtures.Dialogue

/-!
# The servers of `dns_fault_proxy.py`

The gate and the sessions behind it.  A request that was admitted is handled call by call
(`Event.progress`), while others arrive, are admitted or rejected, come to their end, and while the input
of connections comes in (`Event.deliver`); a `Run` is any interleaving of these.  The pauses and the
shutdown of the servers are not modelled.
-/

namespace DnsFixtures.Server

open Concurrency

/-! ### Sessions as processes -/

/-- More input comes in behind what is there. -/
def feedInput (s : Handler Unit × SessionState) (x : Input) : Handler Unit × SessionState :=
  (s.1, { s.2 with input := s.2.input ++ [x] })

theorem sessionEnv_feed {c : Call} {s s' : SessionState} {r : Except Raised (Reply c)} (x : Input)
    (h : sessionEnv c s = some (r, s')) :
    sessionEnv c { s with input := s.input ++ [x] }
      = some (r, { s' with input := s'.input ++ [x] }) := by
  obtain ⟨input, answers, addresses, scenario, trace⟩ := s
  cases c with
  | recvFrame =>
    rcases input with _ | ⟨query | ⟨trailing, ending⟩, input⟩ <;> cases h <;> rfl
  | next =>
    rcases input with _ | ⟨query | ⟨trailing, ending⟩, input⟩
    · cases h
    · simp only [sessionEnv, List.cons_append] at h ⊢
      split_ifs at h ⊢ <;> cases h <;> rfl
    · cases h
      rfl
  | exchange query =>
    rcases answers with _ | ⟨_ | answer, answers⟩
    · cases h
      rfl
    · cases h
      rfl
    · simp only [sessionEnv] at h ⊢
      cases hframe : frame query with
      | error e =>
        rw [hframe] at h
        cases h
        rfl
      | ok framed =>
        rw [hframe] at h
        cases h
        rfl
  | sendUpstream query =>
    rcases addresses with _ | ⟨_ | _ | response, addresses⟩ <;> cases h <;> rfl
  | getaddrinfo | assign scenario | sendall part | sendto part | logEvent event transport reason =>
    cases h
    rfl

/-- A session takes a step with each call of its handler. -/
abbrev sessionProcess : Process Input where
  State := Handler Unit × SessionState
  step := Program.step sessionEnv
  feed := feedInput
  step_feed := by
    rintro ⟨p, s⟩ ⟨p', s'⟩ x h
    obtain ⟨c, k, rfl, ⟨r, hr, rfl⟩ | ⟨e, he, rfl⟩⟩ := Program.step_cases h
    · rw [feedInput, Program.step, sessionEnv_feed x hr]
      rfl
    · rw [feedInput, Program.step, sessionEnv_feed x he]
      rfl

/-- The result of a handler that has come to its end. -/
def result : Handler Unit → Option (Except Raised Unit)
  | .pure a => some (.ok a)
  | .raise e => some (.error e)
  | .call _ _ => none

/-! ### The servers -/

def transportOf (start : Start) : Gate.Transport := if start.isTcp then .tcp else .udp

/-- What came out of the `except` clauses. -/
def outcomeOf : Except Raised Unit → Gate.Outcome
  | .ok _ => .returned
  | .error _ => .raised

/-- The gate with its requests, and for each of them the session that it has or would have. -/
structure State where
  gate : Gate.State
  sessions : List (Handler Unit × SessionState)

def State.initial (config : Gate.Config) : State := ⟨.initial config, []⟩

inductive Event where
  | arrive (address : Gate.IPAddress) (start : Start)
  /-- an action on the request of this index -/
  | act (i : Nat) (action : Gate.Action)
  /-- a call of the handler of this request -/
  | progress (i : Nat)
  /-- a frame that comes in for a connection, or the end of its stream -/
  | deliver (i : Nat) (x : Input)

/-- The handler has come to its end with this outcome. -/
def Ends (tcp : Bool) (outcome : Gate.Outcome) (session : Handler Unit × SessionState) : Prop :=
  ∃ r, result session.1 = some r ∧ outcomeOf (catchRaised tcp session.2.scenario r).1 = outcome

inductive Step (config : Gate.Config) (d : Dnspython) (s : State) : Event → State → Prop
  | arrive {address : Gate.IPAddress} {start : Start} {gate' : Gate.State} :
      Gate.Step config s.gate (.arrive (transportOf start) address) gate' →
      Step config d s (.arrive address start)
        ⟨gate', s.sessions ++ [(start.handler d, start.state [])]⟩
  /-- a handler returns or raises when it has come to its end -/
  | act {i : Nat} {action : Gate.Action} {gate' : Gate.State} :
      Gate.Step config s.gate (.act i action) gate' →
      (∀ outcome, action = .complete outcome → ∃ r session, s.gate.requests[i]? = some r ∧
        s.sessions[i]? = some session ∧ Ends (r.transport = .tcp) outcome session) →
      Step config d s (.act i action) ⟨gate', s.sessions⟩
  | progress {i : Nat} {r : Gate.Request} {session session' : Handler Unit × SessionState} :
      s.gate.requests[i]? = some r → r.phase = .handling → s.sessions[i]? = some session →
      sessionProcess.step session = some session' →
      Step config d s (.progress i) ⟨s.gate, s.sessions.set i session'⟩
  | deliver {i : Nat} {r : Gate.Request} {session : Handler Unit × SessionState} (x : Input) :
      s.gate.requests[i]? = some r → r.transport = .tcp → s.sessions[i]? = some session →
      Step config d s (.deliver i x) ⟨s.gate, s.sessions.set i (sessionProcess.feed session x)⟩

/-- The events of a run and the state it leads to. -/
inductive Run (config : Gate.Config) (d : Dnspython) : List Event → State → Prop
  | nil : Run config d [] (.initial config)
  | snoc {es : List Event} {e : Event} {s s' : State} : Run config d es s →
      Step config d s e s' → Run config d (es ++ [e]) s'

/-! ### What is seen of a run -/

def starts (es : List Event) : List Start :=
  es.filterMap fun
    | .arrive _ start => some start
    | _ => none

/-- The input of a connection. -/
def delivered (i : Nat) (es : List Event) : List Input :=
  es.filterMap fun
    | .deliver j x => if j = i then some x else none
    | _ => none

/-- What has happened to a request, with what the server and the `except` clauses log. -/
def traceOf (r : Gate.Request) (session : Handler Unit × SessionState) :
    List DnsFixtures.Event :=
  let transport := if r.transport = .tcp then "tcp" else "udp"
  match r.phase with
  | .accessRejected => [.logged (logEvent "rejected" transport .normal "access")]
  | .overloadRejected => [.logged (logEvent "rejected" transport .normal "overload")]
  | .finishing _ | .finished _ => (conclude (r.transport = .tcp) (result session.1, session.2)).2
  | _ => session.2.trace

/-- What can be relied on of a request: without a thread nothing is read or written for it, and with one
it is a session of its own start and input, as far as it has come. -/
structure Served (d : Dnspython) (start : Start) (input : List Input) (r : Gate.Request)
    (trace : List DnsFixtures.Event) : Prop where
  transport : r.transport = transportOf start
  unserved : r.phase.hasThread = false →
    received trace = [] ∧ sent trace = [] ∧ forwarded trace = []
  running : r.phase.hasThread = true → trace <+: (session d start input).2
  ended : ∀ outcome, r.phase = .finishing outcome ∨ r.phase = .finished outcome →
    ∃ result, session d start input = (some result, trace) ∧ outcomeOf result = outcome
  orderly : r.phase.hasThread = true → start.isTcp = true →
    (∀ query, .frame query ∈ input → 1 ≤ query.length ∧ query.length ≤ 65535) → Orderly d trace

/-! ### Coming to rest -/

/-- A step of the servers themselves: nothing new comes in. -/
def Event.isOwn : Event → Bool
  | .act _ _ | .progress _ => true
  | .arrive _ _ | .deliver _ _ => false

/-- The servers go on by themselves. -/
inductive Drains (config : Gate.Config) (d : Dnspython) (s : State) : List Event → State → Prop
  | nil : Drains config d s [] s
  | snoc {es : List Event} {e : Event} {s' s'' : State} : Drains config d s es s' →
      e.isOwn = true → Step config d s' e s'' → Drains config d s (es ++ [e]) s''

end DnsFixtures.Server
