import DnsFixtures.Concurrency.Semaphore

/-!
# The session gate of `dns_fault_proxy.py`

The TCP and the UDP server share one semaphore with `max_sessions` permits.  An accept loop looks at
one request after another (`verify_request`, `process_request`); an admitted request is handled in a
thread of its own (`process_request_thread`).  `Acts` is one atomic step of the thread that has a
request in hand: what it does to the gate and where it leaves the request.  `Step` lets any request
move or a new one arrive, so that a `Run` is any interleaving of the two loops and the handlers.

What a handler does with its session is not modelled here, only that it returns or raises, and
neither are the log lines and the closing of sockets.
-/

namespace DnsFixtures.Gate

open Concurrency

/-! ### Access -/

/-- `ipaddress.IPv4Address` and `ipaddress.IPv6Address`. -/
inductive IPAddress where
  | v4 (bits : BitVec 32)
  | v6 (bits : BitVec 128)
  deriving DecidableEq

/-- `ipaddress.IPv4Network` and `ipaddress.IPv6Network`: the network address and `prefixlen`. -/
inductive IPNetwork where
  | v4 (address : BitVec 32) (prefixlen : Nat)
  | v6 (address : BitVec 128) (prefixlen : Nat)
  deriving DecidableEq

def netmask (width prefixlen : Nat) : BitVec width := BitVec.allOnes width <<< (width - prefixlen)

/-- `address in network`. -/
def IPNetwork.contains : IPNetwork → IPAddress → Bool
  | .v4 network n, .v4 address => address &&& netmask 32 n = network
  | .v6 network n, .v6 address => address &&& netmask 128 n = network
  | _, _ => false

/-- `address.ipv4_mapped`. -/
def IPAddress.ipv4Mapped : IPAddress → Option IPAddress
  | .v4 _ => none
  | .v6 bits => if bits >>> 32 = 0xFFFF then some (.v4 (bits.setWidth 32)) else none

def LOOPBACK_CLIENTS : List IPNetwork := [.v4 0x7F000001 32, .v6 1 128]

structure Config where
  maxSessions : Nat
  allowedClients : List IPNetwork

/-- `verify_request`. -/
def verifyRequest (config : Config) (address : IPAddress) : Bool :=
  let address := address.ipv4Mapped.getD address
  config.allowedClients.any fun network => network.contains address

/-! ### Requests -/

/-- `transport_name`: the server a request arrived at. -/
inductive Transport where
  | tcp | udp
  deriving DecidableEq

/-- How a handler ends. -/
inductive Outcome where
  | returned | raised
  deriving DecidableEq

/-- Where a request stands. -/
inductive Phase where
  /-- in front of `verify_request` -/
  | verifying
  | accessRejected
  /-- in `process_request`, in front of `acquire` -/
  | acquiring
  | overloadRejected
  /-- in `super().process_request`, which starts the thread -/
  | starting
  /-- in the `except` clause, in front of `release` -/
  | startFailed
  | failed
  /-- in `super().process_request_thread` -/
  | handling
  /-- in the `finally` clause, in front of `release` -/
  | finishing (outcome : Outcome)
  | finished (outcome : Outcome)
  deriving DecidableEq

/-- The request is in the hands of the accept loop of its server. -/
def Phase.inLoop : Phase → Bool
  | verifying | acquiring | starting | startFailed => true
  | _ => false

/-- The request was admitted, its start did not fail for good and its thread has not finished. -/
def Phase.unfinished : Phase → Bool
  | starting | startFailed | handling | finishing _ => true
  | _ => false

/-- A handler thread was started for the request. -/
def Phase.hasThread : Phase → Bool
  | handling | finishing _ | finished _ => true
  | _ => false

structure Request where
  transport : Transport
  address : IPAddress
  phase : Phase
  deriving DecidableEq

/-! ### Steps -/

inductive Action where
  | rejectAccess | permit | rejectOverload | acquire | start | startRaises | release | releaseRaises
  | complete (outcome : Outcome)
  deriving DecidableEq

/-- One step with a request in hand, from the gate and the phase before it to those behind it. -/
inductive Acts (config : Config) (address : IPAddress) (gate : BoundedSemaphore) :
    Phase → Action → BoundedSemaphore → Phase → Prop
  | rejectAccess : verifyRequest config address = false →
      Acts config address gate .verifying .rejectAccess gate .accessRejected
  | permit : verifyRequest config address = true →
      Acts config address gate .verifying .permit gate .acquiring
  | rejectOverload {gate' : BoundedSemaphore} : gate.acquire = (false, gate') →
      Acts config address gate .acquiring .rejectOverload gate' .overloadRejected
  | acquire {gate' : BoundedSemaphore} : gate.acquire = (true, gate') →
      Acts config address gate .acquiring .acquire gate' .starting
  | start : Acts config address gate .starting .start gate .handling
  /-- no thread could be started -/
  | startRaises : Acts config address gate .starting .startRaises gate .startFailed
  | releaseFailed {gate' : BoundedSemaphore} : gate.release = some gate' →
      Acts config address gate .startFailed .release gate' .failed
  | releaseFailedRaises : gate.release = none →
      Acts config address gate .startFailed .releaseRaises gate .failed
  | complete (outcome : Outcome) :
      Acts config address gate .handling (.complete outcome) gate (.finishing outcome)
  | release {gate' : BoundedSemaphore} (outcome : Outcome) : gate.release = some gate' →
      Acts config address gate (.finishing outcome) .release gate' (.finished outcome)
  | releaseRaises (outcome : Outcome) : gate.release = none →
      Acts config address gate (.finishing outcome) .releaseRaises gate (.finished outcome)

/-- The gate, and all requests in the order of their arrival. -/
structure State where
  gate : BoundedSemaphore
  requests : List Request
  deriving DecidableEq

/-- `run`: one semaphore for both servers. -/
def State.initial (config : Config) : State := ⟨.ofInitial config.maxSessions, []⟩

/-- The admitted requests whose handler thread has not finished. -/
def State.unfinished (s : State) : Nat := s.requests.countP fun r => r.phase.unfinished

/-- The handler threads that were started. -/
def State.threads (s : State) : Nat := s.requests.countP fun r => r.phase.hasThread

inductive Event where
  | arrive (transport : Transport) (address : IPAddress)
  /-- an action on the request of this index -/
  | act (i : Nat) (action : Action)
  deriving DecidableEq

inductive Step (config : Config) (s : State) : Event → State → Prop
  /-- an accept loop has one request in hand at a time -/
  | arrive (transport : Transport) (address : IPAddress) :
      (∀ r ∈ s.requests, r.transport = transport → r.phase.inLoop = false) →
      Step config s (.arrive transport address)
        ⟨s.gate, s.requests ++ [⟨transport, address, .verifying⟩]⟩
  | act {i : Nat} {r : Request} {action : Action} {gate' : BoundedSemaphore} {phase : Phase} :
      s.requests[i]? = some r → Acts config r.address s.gate r.phase action gate' phase →
      Step config s (.act i action) ⟨gate', s.requests.set i { r with phase := phase }⟩

/-- The events of a run and the state it leads to. -/
inductive Run (config : Config) : List Event → State → Prop
  | nil : Run config [] (.initial config)
  | snoc {es : List Event} {e : Event} {s s' : State} : Run config es s →
      Step config s e s' → Run config (es ++ [e]) s'

end DnsFixtures.Gate
