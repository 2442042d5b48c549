import DnsFixtures.Equiv.Forwarding
import DnsFixtures.Handlers

/-!
# The handlers call by call are the handlers

`connectionEnv` answers the calls of a TCP handler on a `Connection` as `serveLoop` does, and
`exchangeEnv` those of a UDP handler on an `Exchange`; both forget the log.  In them the programs run
like the computations they stand for (`run_serveLoop`, `run_serveDatagram`).
-/

namespace DnsFixtures

open Dns Concurrency

/-! ### TCP -/

def connectionEnv : Env Call Reply Raised Connection
  | .recvFrame, c => some ((onClient recvFrame).run c)
  | .next, c => some ((onClient next).run c)
  | .sendall part, c => some ((onClient (sendall part)).run c)
  | .exchange query, c => some ((connectAndExchange query).run c)
  | .assign _, c => some (.ok (), c)
  | .logEvent _ _ _, c => some (.ok (), c)
  | .sendto response, c => some ((onClient (sendall response)).run c)
  | .getaddrinfo, c => some (.ok 0, c)
  | .sendUpstream _, c => some (.error .osError, c)

/-- The program does in `env` what the computation does. -/
def Interprets {σ α : Type} (env : Env Call Reply Raised σ) (p : Handler α) (m : Session σ α) : Prop :=
  ∀ s, p.run env s = (some (m.run s).1, (m.run s).2)

namespace Interprets

variable {σ α β : Type} {env : Env Call Reply Raised σ}

theorem pure (a : α) : Interprets env (.pure a) (Pure.pure a) := fun _ => rfl

theorem raise (e : Raised) : Interprets env (.raise e : Handler α) (throw e) := fun _ => rfl

theorem ofExcept (x : Except Raised α) : Interprets env (Handler.ofExcept x) (Session.ofExcept x) :=
  fun _ => Program.run_ofExcept x

theorem bind {p : Handler α} {m : Session σ α} {f : α → Handler β} {g : α → Session σ β}
    (h : Interprets env p m) (hf : ∀ a, Interprets env (f a) (g a)) :
    Interprets env (p >>= f) (m >>= g) := by
  intro s
  rw [Program.run_bind, Session.run_bind, h s]
  cases hm : m.run s with
  | mk result s' =>
    cases result with
    | error e => rfl
    | ok a => exact hf a s'

theorem ite {c : Prop} [Decidable c] {p q : Handler α} {m n : Session σ α}
    (hp : Interprets env p m) (hq : Interprets env q n) :
    Interprets env (if c then p else q) (if c then m else n) := by
  split_ifs
  · exact hp
  · exact hq

theorem perform {c : Call} {m : Session σ (Reply c)}
    (h : ∀ s, env c s = some (m.run s)) : Interprets env (Handler.perform c) m := by
  intro s
  rw [Handler.perform, Program.perform, Program.run, h s]
  cases hm : m.run s with
  | mk result s' => cases result <;> rfl

/-- A call that does nothing to the state. -/
theorem skip {c : Call} {r : Reply c} {f : Reply c → Handler α} {m : Session σ α}
    (h : ∀ s, env c s = some (.ok r, s)) (hf : Interprets env (f r) m) :
    Interprets env (Handler.perform c >>= f) m := by
  intro s
  rw [Program.perform_bind, Program.run_call_ok (h s)]
  exact hf s

end Interprets

/-! ### On the socket of the client -/

section

variable {α β : Type}

theorem onClient_pure (a : α) : onClient (pure a) = pure a := rfl

theorem onClient_ofExcept (x : Except Raised α) : onClient (Session.ofExcept x) = Session.ofExcept x := rfl

theorem onClient_bind (m : Session Sock α) (f : α → Session Sock β) :
    onClient (m >>= f) = onClient m >>= fun a => onClient (f a) := by
  funext c
  have h : (onClient (m >>= f)).run c = (onClient m >>= fun a => onClient (f a)).run c := by
    rw [Session.run_bind, onClient, onClient, Session.run_zoom, Session.run_zoom, Session.run_bind]
    cases hm : m.run c.client with
    | mk result s => cases result <;> rfl
  exact h

theorem onClient_ite {c : Prop} [Decidable c] (m n : Session Sock α) :
    onClient (if c then m else n) = if c then onClient m else onClient n := by
  split_ifs <;> rfl

end

theorem interprets_sendParts (parts : List Octets) :
    Interprets connectionEnv (Handler.sendParts parts) (onClient (sendParts parts)) := by
  induction parts with
  | nil => exact .pure ()
  | cons part parts ih =>
    have hparts : sendParts (part :: parts) = sendall part >>= fun _ => sendParts parts := rfl
    rw [hparts, onClient_bind]
    exact (Interprets.perform fun _ => rfl).bind fun _ => ih

theorem interprets_serveFreshTcp (d : Dnspython) (query : Octets) :
    Interprets connectionEnv (Handler.serveFreshTcp d query) (onClient (serveFreshTcp d query)) := by
  have hsend : ∀ part, Interprets connectionEnv (Handler.perform (.sendall part))
      (onClient (sendall part)) := fun part => .perform fun _ => rfl
  have hnext : Interprets connectionEnv (Handler.perform .next) (onClient next) :=
    .perform fun _ => rfl
  have hend : ∀ part : Octets, Interprets connectionEnv
      (Handler.perform (.sendall part) >>= fun _ => Pure.pure false)
      (onClient (sendall part >>= fun _ => Pure.pure false)) := by
    intro part
    rw [onClient_bind]
    exact (hsend part).bind fun _ => .pure false
  unfold Handler.serveFreshTcp serveFreshTcp
  simp only [onClient_bind, onClient_ofExcept, onClient_ite, onClient_pure]
  refine (Interprets.ofExcept _).bind fun key => (Interprets.ofExcept _).bind fun reply => ?_
  refine .ite (.pure false) ((Interprets.ofExcept _).bind fun framed => ?_)
  refine .ite (.pure false) (.ite ?_ ?_)
  · refine hnext.bind fun second => hnext.bind fun third => (Interprets.ofExcept _).bind fun frames => ?_
    exact (hsend _).bind fun _ => .pure false
  · refine (Interprets.ofExcept _).bind fun framed => ?_
    refine .ite ((hsend _).bind fun _ => .pure false) (.ite ((hsend _).bind fun _ => .pure false) ?_)
    refine .ite ((Interprets.ofExcept _).bind fun size => (hsend _).bind fun _ => .pure false) ?_
    refine (interprets_sendParts _).bind fun _ => ?_
    exact .ite ((hsend _).bind fun _ => .pure false)
      (.ite ((hsend _).bind fun _ => .pure false) (.pure _))

theorem interprets_sendFrame (payload : Octets) (scenario : Scenario) :
    Interprets connectionEnv (Handler.sendFrame payload scenario)
      (onClient (sendFrame payload scenario)) := by
  unfold Handler.sendFrame sendFrame
  rw [onClient_ite]
  refine .ite (.raise _) ?_
  rw [onClient_bind]
  exact (Interprets.ofExcept _).bind fun parts => interprets_sendParts _

theorem interprets_forwardTcp (query : Octets) :
    Interprets connectionEnv (Handler.forwardTcp query) (forwardTcp query) :=
  (Interprets.perform fun _ => rfl).bind fun response =>
    (Interprets.ofExcept _).bind fun _ => .pure response

theorem interprets_serveLoop (d : Dnspython) (n : Nat) :
    Interprets connectionEnv (Handler.serveLoop d n) (serveLoop d n) := by
  induction n with
  | zero => exact .pure ()
  | succ n ih =>
    unfold Handler.serveLoop serveLoop
    refine (Interprets.perform fun _ => rfl).bind fun query => ?_
    refine (Interprets.ofExcept _).bind fun fresh => .ite ?_ ?_
    · exact (interprets_serveFreshTcp d query).bind fun reuse => .ite ih (.pure ())
    · refine (Interprets.ofExcept _).bind fun scenario => .skip (fun _ => rfl) ?_
      refine .ite (.pure ()) ((interprets_forwardTcp query).bind fun response => ?_)
      refine (interprets_sendFrame response scenario).bind fun _ => .skip (fun _ => rfl) ?_
      exact .ite ih (.pure ())

/-! ### UDP -/

/-- On what was sent and the upstream addresses that are left. -/
def exchangeEnv : Env Call Reply Raised (Exchange × List Outcome)
  | .getaddrinfo, (e, addresses) => some (.ok addresses.length, e, addresses)
  | .sendUpstream _, (e, []) => some (.error .osError, e, [])
  | .sendUpstream _, (e, .unreachable :: rest) => some (.ok .unreachable, e, rest)
  | .sendUpstream query, (e, outcome :: rest) =>
    some (.ok outcome, { e with forwarded := e.forwarded ++ [query] }, rest)
  | .sendto response, (e, addresses) =>
    some (.ok (), { e with replies := e.replies ++ [response] }, addresses)
  | .assign _, s => some (.ok (), s)
  | .logEvent _ _ _, s => some (.ok (), s)
  | .sendall part, (e, addresses) =>
    some (.ok (), { e with replies := e.replies ++ [part] }, addresses)
  | .exchange _, s => some (.error .osError, s)
  | .recvFrame, _ => none
  | .next, _ => none

/-- The program does what the computation does; it may use up some of the addresses. -/
def InterpretsUdp {α : Type} (addresses : List Outcome) (p : Handler α) (m : Session Exchange α) :
    Prop :=
  ∀ e, ∃ rest, p.run exchangeEnv (e, addresses) = (some (m.run e).1, (m.run e).2, rest)

namespace InterpretsUdp

variable {α β : Type} {addresses : List Outcome}

theorem pure (a : α) : InterpretsUdp addresses (.pure a) (Pure.pure a) := fun _ => ⟨addresses, rfl⟩

theorem ofExcept (x : Except Raised α) :
    InterpretsUdp addresses (Handler.ofExcept x) (Session.ofExcept x) :=
  fun _ => ⟨addresses, Program.run_ofExcept x⟩

theorem bind {p : Handler α} {m : Session Exchange α} {f : α → Handler β} {g : α → Session Exchange β}
    (h : InterpretsUdp addresses p m) (hf : ∀ a rest, InterpretsUdp rest (f a) (g a)) :
    InterpretsUdp addresses (p >>= f) (m >>= g) := by
  intro e
  obtain ⟨rest, hrun⟩ := h e
  rw [Program.run_bind, Session.run_bind, hrun]
  cases hm : m.run e with
  | mk result e' =>
    cases result with
    | error err => exact ⟨rest, rfl⟩
    | ok a => exact hf a rest e'

theorem ofExcept_bind {x : Except Raised α} {f : α → Handler β} {g : α → Session Exchange β}
    (hf : ∀ a, InterpretsUdp addresses (f a) (g a)) :
    InterpretsUdp addresses (Handler.ofExcept x >>= f) (Session.ofExcept x >>= g) := by
  intro e
  cases x with
  | error err => exact ⟨addresses, rfl⟩
  | ok a => exact hf a e

theorem sendto (response : Octets) :
    InterpretsUdp addresses (Handler.perform (.sendto response)) (sendClient response) :=
  fun _ => ⟨addresses, rfl⟩

end InterpretsUdp

theorem interpretsUdp_forwardUdpLoop (query : Octets) (addresses : List Outcome)
    (lastError : Raised) : InterpretsUdp addresses
      (Handler.forwardUdpLoop query addresses.length lastError)
      (forwardUdpLoop query addresses lastError) := by
  induction addresses generalizing lastError with
  | nil => exact fun _ => ⟨[], rfl⟩
  | cons outcome addresses ih =>
    intro e
    cases outcome with
    | unreachable => exact ih .osError e
    | timeout => exact ih .timeout { e with forwarded := e.forwarded ++ [query] }
    | datagram response =>
      have hrest : InterpretsUdp addresses
          (Handler.ofExcept (validateUpstreamResponse query response) >>= fun _ => Pure.pure response)
          (Session.ofExcept (validateUpstreamResponse query response) >>= fun _ => Pure.pure response) :=
        .bind (.ofExcept _) fun _ _ => .pure response
      exact hrest { e with forwarded := e.forwarded ++ [query] }

theorem interpretsUdp_forwardUdp (query : Octets) (addresses : List Outcome) :
    InterpretsUdp addresses (Handler.forwardUdp query) (forwardUdp query addresses) :=
  interpretsUdp_forwardUdpLoop query addresses .osError

theorem interpretsUdp_serveDatagram (d : Dnspython) (query : Octets) (addresses : List Outcome) :
    InterpretsUdp addresses (Handler.serveDatagram d query) (serveDatagram d query addresses) := by
  unfold Handler.serveDatagram serveDatagram
  refine .ofExcept_bind fun fresh => ?_
  split_ifs
  · refine .ofExcept_bind fun response => ?_
    split_ifs
    · exact .sendto response
    · exact .pure ()
  · refine .ofExcept_bind fun scenario => ?_
    intro e
    rw [Program.perform_bind, Program.run_call_ok rfl]
    have hsend : ∀ response rest, InterpretsUdp rest (Handler.perform (.sendto response) >>= fun _ =>
        Handler.perform (.logEvent "completed" "udp" "complete")) (sendClient response) :=
      fun response rest e => ⟨rest, rfl⟩
    split_ifs
    · exact ⟨addresses, rfl⟩
    · exact InterpretsUdp.ofExcept_bind (fun response => hsend response addresses) e
    · exact InterpretsUdp.bind (interpretsUdp_forwardUdp query addresses) hsend e

/-! ### The handlers -/

/-- **TCP**: run call by call the handler leaves the connection that `handleTcp` says. -/
theorem run_serveLoop (d : Dnspython) (c : Connection) : ∃ result c',
    (Handler.serveLoop d MAX_TCP_QUERIES).run connectionEnv c = (some result, c') ∧
      handleTcp d c = ((catchRaised true .normal result).1, c') := by
  refine ⟨_, _, interprets_serveLoop d MAX_TCP_QUERIES c, ?_⟩
  rw [handleTcp]
  cases hrun : (serveLoop d MAX_TCP_QUERIES).run c with
  | mk result c' =>
    cases result with
    | ok _ => rfl
    | error e => cases e <;> rfl

/-- **UDP**. -/
theorem run_serveDatagram (d : Dnspython) (query : Octets) (addresses : List Outcome) :
    ∃ result e rest, (Handler.serveDatagram d query).run exchangeEnv (⟨[], []⟩, addresses)
        = (some result, e, rest) ∧
      handleUdp d query addresses = ((catchRaised false .normal result).1, e) := by
  obtain ⟨rest, hrun⟩ := interpretsUdp_serveDatagram d query addresses ⟨[], []⟩
  refine ⟨_, _, rest, hrun, ?_⟩
  rw [handleUdp]
  cases hrun : (serveDatagram d query addresses).run ⟨[], []⟩ with
  | mk result e =>
    cases result with
    | ok _ => rfl
    | error err => cases err <;> rfl

end DnsFixtures
