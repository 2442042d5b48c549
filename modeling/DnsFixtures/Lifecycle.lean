import DnsFixtures.Server

/-!
# `run` of `dns_fault_proxy.py`

From the start of the two accept loops to the log line of the shutdown.  Four kinds of threads take
turns: `run` itself (`Main`), the two loops of `serve_forever` (`Loop`), and the handlers, whose steps
are those of `Server`.  A signal may come at any time.

`serve_forever` and `shutdown` are those of `socketserver`: `shutdown` sets a flag, which the loop looks
at behind each `select`, and waits for an event, which the loop sets when it ends.  What the handlers of
datagrams do when their socket has been closed is not modelled.
-/

namespace DnsFixtures.Lifecycle

open Gate (Transport)

/-- Where the thread of a server stands. -/
inductive Loop where
  | notStarted
  /-- in front of `serve_forever` -/
  | started
  /-- in `select`, or with a request in hand -/
  | polling
  /-- in front of `get_request` -/
  | accepting
  | ended
  deriving DecidableEq

/-- The thread of a server, with `__shutdown_request` and `__is_shut_down`. -/
structure Listener where
  loop : Loop
  shutdownRequest : Bool
  isShutDown : Bool
  deriving DecidableEq

/-- Where `run` stands. -/
inductive Main where
  /-- in front of `thread.start()` -/
  | starting (t : Transport)
  /-- in front of the line that says that the servers listen -/
  | announcing
  /-- in `stop_event.wait()` -/
  | waiting
  /-- in `shutdown`, in front of the flag -/
  | requesting (t : Transport)
  /-- in `shutdown`, in front of the event -/
  | awaiting (t : Transport)
  /-- in front of `server_close()` -/
  | closing
  /-- in `thread.join(...)`, which has a timeout -/
  | joining (t : Transport)
  /-- in front of the line that says that the servers have stopped -/
  | logging
  | stopped
  deriving DecidableEq

/-- The sockets of the servers are open. -/
def Main.socketsOpen : Main → Bool
  | joining _ | logging | stopped => false
  | _ => true

structure State where
  server : Server.State
  listener : Transport → Listener
  /-- `stop_event` -/
  stop : Bool
  main : Main

def State.initial (config : Gate.Config) : State where
  server := .initial config
  listener := fun _ => ⟨.notStarted, false, false⟩
  stop := false
  main := .starting .tcp

def State.update (s : State) (t : Transport) (f : Listener → Listener) : State :=
  { s with listener := Function.update s.listener t (f (s.listener t)) }

/-- No request is in the hands of the loop. -/
def State.Free (s : State) (t : Transport) : Prop :=
  ∀ r ∈ s.server.gate.requests, r.transport = t → r.phase.inLoop = false

inductive Event where
  | signal
  /-- the next step of `run` -/
  | main
  /-- `serve_forever` begins -/
  | enter (t : Transport)
  /-- `select` returns a request, and no shutdown was asked for -/
  | ready (t : Transport)
  /-- `get_request` raises -/
  | missed (t : Transport)
  /-- the loop sees that a shutdown was asked for -/
  | leave (t : Transport)
  | served (e : Server.Event)

/-- The steps of `run`. -/
inductive Advances (s : State) : State → Prop
  | startTcp : s.main = .starting .tcp → Advances s
      { s.update .tcp fun l => { l with loop := .started } with main := .starting .udp }
  | startUdp : s.main = .starting .udp → Advances s
      { s.update .udp fun l => { l with loop := .started } with main := .announcing }
  | announce : s.main = .announcing → Advances s { s with main := .waiting }
  | wake : s.main = .waiting → s.stop = true → Advances s { s with main := .requesting .tcp }
  | request (t : Transport) : s.main = .requesting t → Advances s
      { s.update t fun l => { l with shutdownRequest := true } with main := .awaiting t }
  | shutDownTcp : s.main = .awaiting .tcp → (s.listener .tcp).isShutDown = true →
      Advances s { s with main := .requesting .udp }
  | shutDownUdp : s.main = .awaiting .udp → (s.listener .udp).isShutDown = true →
      Advances s { s with main := .closing }
  | close : s.main = .closing → Advances s { s with main := .joining .tcp }
  | joinTcp : s.main = .joining .tcp → Advances s { s with main := .joining .udp }
  | joinUdp : s.main = .joining .udp → Advances s { s with main := .logging }
  | log : s.main = .logging → Advances s { s with main := .stopped }

/-- The transport of a request that arrives. -/
def arrival : Server.Event → Option Transport
  | .arrive _ start => some (Server.transportOf start)
  | _ => none

inductive Step (config : Gate.Config) (d : Dnspython) (s : State) : Event → State → Prop
  | signal : Step config d s .signal { s with stop := true }
  | main {s' : State} : Advances s s' → Step config d s .main s'
  | enter {t : Transport} : (s.listener t).loop = .started → Step config d s (.enter t)
      (s.update t fun l => { l with loop := .polling, isShutDown := false })
  | ready {t : Transport} : (s.listener t).loop = .polling → s.Free t →
      (s.listener t).shutdownRequest = false →
      Step config d s (.ready t) (s.update t fun l => { l with loop := .accepting })
  | missed {t : Transport} : (s.listener t).loop = .accepting →
      Step config d s (.missed t) (s.update t fun l => { l with loop := .polling })
  | leave {t : Transport} : (s.listener t).loop = .polling → s.Free t →
      (s.listener t).shutdownRequest = true →
      Step config d s (.leave t) (s.update t fun _ => ⟨.ended, false, true⟩)
  /-- `get_request` returns one -/
  | arrive {e : Server.Event} {t : Transport} {server' : Server.State} : arrival e = some t →
      (s.listener t).loop = .accepting → Server.Step config d s.server e server' →
      Step config d s (.served e)
        { s.update t fun l => { l with loop := .polling } with server := server' }
  | served {e : Server.Event} {server' : Server.State} : arrival e = none →
      Server.Step config d s.server e server' →
      (s.main.socketsOpen = false → ∀ i, e = .progress i → ∀ r,
        s.server.gate.requests[i]? = some r → r.transport = .tcp) →
      Step config d s (.served e) { s with server := server' }

/-- The events of a run and the state it leads to. -/
inductive Run (config : Gate.Config) (d : Dnspython) : List Event → State → Prop
  | nil : Run config d [] (.initial config)
  | snoc {es : List Event} {e : Event} {s s' : State} : Run config d es s →
      Step config d s e s' → Run config d (es ++ [e]) s'

/-- What the servers do in a run. -/
def serverEvents (es : List Event) : List Server.Event :=
  es.filterMap fun
    | .served e => some e
    | _ => none

/-- The transports of the requests that arrive. -/
def arrivals (es : List Event) : List Transport := (serverEvents es).filterMap arrival

/-! ### Winding down -/

/-- A step of `run` or of an accept loop that needs nothing from outside.  Steps of the handlers are
none. -/
def IsOwn (s : State) : Event → Prop
  | .main | .enter _ | .missed _ | .leave _ => True
  | .served (.arrive _ _) => True
  | .served (.act i _) => ∃ r, s.server.gate.requests[i]? = some r ∧ r.phase.inLoop = true
  | .signal | .ready _ | .served _ => False

/-- `run` and the loops go on by themselves. -/
inductive WindsDown (config : Gate.Config) (d : Dnspython) (s : State) : List Event → State → Prop
  | nil : WindsDown config d s [] s
  | snoc {es : List Event} {e : Event} {s' s'' : State} : WindsDown config d s es s' →
      IsOwn s' e → Step config d s' e s'' → WindsDown config d s (es ++ [e]) s''

end DnsFixtures.Lifecycle
