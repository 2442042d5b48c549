import DnsFixtures.Server
import DnsFixtures.Equiv.Accounting
import DnsFixtures.Equiv.Dialogue

/-!
# Sessions behind the gate

The sessions of a run are a pool of processes, so that each of them is the session that its own start
and its own input make, whatever else the servers do meanwhile (`run_isolated`).  Once no request and no
input comes any more, the servers come to rest, with all permits back (`run_drains`).
-/

namespace DnsFixtures.Server

open Concurrency

variable {config : Gate.Config} {d : Dnspython} {es : List Event} {e : Event} {s s' : State}

/-! ### Two views of a run -/

/-- What the sessions see of a run. -/
def poolEvents (d : Dnspython) (es : List Event) : List (Pool.Event sessionProcess) :=
  es.filterMap fun
    | .arrive _ start => some (.join (start.handler d, start.state []))
    | .act _ _ => none
    | .progress i => some (.step i)
    | .deliver i x => some (.feed i x)

/-- What the gate sees of it. -/
def gateEvents (es : List Event) : List Gate.Event :=
  es.filterMap fun
    | .arrive address start => some (.arrive (transportOf start) address)
    | .act i action => some (.act i action)
    | .progress _ | .deliver _ _ => none

theorem poolEvents_concat (es : List Event) (e : Event) :
    poolEvents d (es ++ [e]) = poolEvents d es ++ poolEvents d [e] := List.filterMap_append

theorem gateEvents_concat (es : List Event) (e : Event) :
    gateEvents (es ++ [e]) = gateEvents es ++ gateEvents [e] := List.filterMap_append

theorem starts_concat (es : List Event) (e : Event) : starts (es ++ [e]) = starts es ++ starts [e] :=
  List.filterMap_append

theorem delivered_concat (i : Nat) (es : List Event) (e : Event) :
    delivered i (es ++ [e]) = delivered i es ++ delivered i [e] := List.filterMap_append

theorem joined_poolEvents (es : List Event) : Pool.joined sessionProcess (poolEvents d es)
    = (starts es).map fun start => (start.handler d, start.state []) := by
  rw [Pool.joined, poolEvents, starts, List.filterMap_filterMap, List.map_filterMap]
  congr 1
  funext e
  cases e <;> rfl

theorem fed_poolEvents (i : Nat) (es : List Event) :
    Pool.fed sessionProcess i (poolEvents d es) = delivered i es := by
  rw [Pool.fed, poolEvents, delivered, List.filterMap_filterMap]
  congr 1
  funext e
  cases e <;> rfl

/-! ### The invariant -/

/-- What is known of a session from the phase of its request. -/
structure SessionOk (r : Gate.Request) (session : Handler Unit × SessionState) : Prop where
  untouched : r.phase.hasThread = false → session.2.trace = []
  ends : ∀ outcome, r.phase = .finishing outcome ∨ r.phase = .finished outcome →
    Ends (r.transport = .tcp) outcome session

structure Invariant (config : Gate.Config) (d : Dnspython) (es : List Event) (s : State) : Prop where
  pool : Pool.Run sessionProcess (poolEvents d es) s.sessions
  gate : Gate.Run config (gateEvents es) s.gate
  transports : s.gate.requests.map Gate.Request.transport = (starts es).map transportOf
  sessions : ∀ (i : Nat) (r : Gate.Request) (session : Handler Unit × SessionState),
    s.gate.requests[i]? = some r → s.sessions[i]? = some session → SessionOk r session
  connected : ∀ i, delivered i es ≠ [] →
    (s.gate.requests.map Gate.Request.transport)[i]? = some .tcp

theorem hasThread_of_acts {address : Gate.IPAddress} {gate gate' : BoundedSemaphore}
    {phase phase' : Gate.Phase} {action : Gate.Action}
    (h : Gate.Acts config address gate phase action gate' phase') (hno : phase'.hasThread = false) :
    phase.hasThread = false := by
  cases h <;> first | rfl | cases hno

theorem SessionOk.act {r : Gate.Request} {session : Handler Unit × SessionState} (h : SessionOk r session)
    {gate gate' : BoundedSemaphore} {phase : Gate.Phase} {action : Gate.Action}
    (hacts : Gate.Acts config r.address gate r.phase action gate' phase)
    (hcomplete : ∀ outcome, action = .complete outcome → Ends (r.transport = .tcp) outcome session) :
    SessionOk { r with phase := phase } session := by
  refine ⟨fun hno => h.untouched (hasThread_of_acts hacts hno), fun outcome hphase => ?_⟩
  have hends := h.ends outcome
  obtain ⟨transport, address, phase₀⟩ := r
  cases hacts with
  | complete outcome' =>
    rcases hphase with heq | heq
    · cases heq
      exact hcomplete _ rfl
    · cases heq
  | release outcome' _ | releaseRaises outcome' _ =>
    rcases hphase with heq | heq
    · cases heq
    · cases heq
      exact hends (Or.inl rfl)
  | _ => rcases hphase with heq | heq <;> cases heq

theorem Invariant.sessions_set (h : Invariant config d es s) {i : Nat} {r : Gate.Request}
    {session session' : Handler Unit × SessionState} (hr : s.gate.requests[i]? = some r)
    (hsession : s.sessions[i]? = some session) (hok : SessionOk r session → SessionOk r session') :
    ∀ (j : Nat) (r' : Gate.Request) (session'' : Handler Unit × SessionState),
      s.gate.requests[j]? = some r' → (s.sessions.set i session')[j]? = some session'' →
      SessionOk r' session'' := by
  intro j r' session'' hr' hset
  rcases of_getElem?_set hset with ⟨rfl, rfl⟩ | ⟨-, hset⟩
  · rw [hr] at hr'
    cases hr'
    exact hok (h.sessions _ _ _ hr hsession)
  · exact h.sessions _ _ _ hr' hset

theorem Invariant.length_eq (h : Invariant config d es s) :
    s.sessions.length = s.gate.requests.length := by
  have hlength := congrArg List.length h.transports
  rw [List.length_map, List.length_map] at hlength
  have hpool := h.pool.length_eq
  rw [joined_poolEvents] at hpool
  exact hpool.trans ((List.length_map _).trans hlength.symm)

theorem map_set_of_eq {α β : Type*} {f : α → β} {xs : List α} {i : Nat} {x y : α}
    (hi : xs[i]? = some x) (heq : f y = f x) : (xs.set i y).map f = xs.map f := by
  obtain ⟨hlt, rfl⟩ := List.getElem?_eq_some_iff.mp hi
  rw [List.map_set, heq, ← List.getElem_map f, List.set_getElem_self]
  rwa [List.length_map]

/-- A request comes in, with a session of its own. -/
theorem Invariant.arrive (h : Invariant config d es s) {address : Gate.IPAddress} {start : Start}
    {gate' : Gate.State} (hgate : Gate.Step config s.gate (.arrive (transportOf start) address) gate') :
    Invariant config d (es ++ [.arrive address start])
      ⟨gate', s.sessions ++ [(start.handler d, start.state [])]⟩ := by
  have hpool : poolEvents d [.arrive address start] = [.join (start.handler d, start.state [])] := rfl
  have hgates : gateEvents [.arrive address start] = [.arrive (transportOf start) address] := rfl
  have hone : starts [.arrive address start] = [start] := rfl
  have hlength := h.length_eq
  refine ⟨?_, ?_, ?_, ?_, ?_⟩
  · rw [poolEvents_concat, hpool]
    exact h.pool.snoc (.join _)
  · rw [gateEvents_concat, hgates]
    exact h.gate.snoc hgate
  · rw [starts_concat, hone, List.map_append, ← h.transports]
    cases hgate
    rw [List.map_append]
    rfl
  · cases hgate
    intro i r session hr hsession
    rcases of_getElem?_concat hr with hr | ⟨rfl, rfl⟩
    · rcases of_getElem?_concat hsession with hsession | ⟨rfl, -⟩
      · exact h.sessions _ _ _ hr hsession
      · rw [hlength] at hr
        exact absurd (List.getElem?_eq_some_iff.mp hr).1 (Nat.lt_irrefl _)
    · rw [← hlength, List.getElem?_concat_length] at hsession
      cases hsession
      cases start
      · exact ⟨fun _ => rfl, nofun⟩
      · exact ⟨fun _ => rfl, nofun⟩
  · intro i hne
    have hnil : delivered i [.arrive address start] = [] := rfl
    rw [delivered_concat, hnil, List.append_nil] at hne
    have hmem := h.connected i hne
    cases hgate
    rw [List.map_append]
    rw [List.getElem?_append_left (List.getElem?_eq_some_iff.mp hmem).1]
    exact hmem

/-- No request comes in. -/
theorem Invariant.kept (h : Invariant config d es s) (hstarts : starts [e] = [])
    (hpool : Pool.Run sessionProcess (poolEvents d es ++ poolEvents d [e]) s'.sessions)
    (hgate : Gate.Run config (gateEvents es ++ gateEvents [e]) s'.gate)
    (htransports : s'.gate.requests.map Gate.Request.transport
      = s.gate.requests.map Gate.Request.transport)
    (hsessions : ∀ (i : Nat) (r : Gate.Request) (session : Handler Unit × SessionState),
      s'.gate.requests[i]? = some r → s'.sessions[i]? = some session → SessionOk r session)
    (hconnected : ∀ i, delivered i [e] ≠ [] →
      (s.gate.requests.map Gate.Request.transport)[i]? = some .tcp) :
    Invariant config d (es ++ [e]) s' := by
  refine ⟨?_, ?_, ?_, hsessions, fun i hne => ?_⟩
  · rw [poolEvents_concat]
    exact hpool
  · rw [gateEvents_concat]
    exact hgate
  · rw [starts_concat, hstarts, List.append_nil, htransports]
    exact h.transports
  · rw [htransports]
    by_cases hnil : delivered i [e] = []
    · rw [delivered_concat, hnil, List.append_nil] at hne
      exact h.connected i hne
    · exact hconnected i hnil

/-- **One event** keeps the invariant. -/
theorem Invariant.step (h : Invariant config d es s) (hstep : Step config d s e s') :
    Invariant config d (es ++ [e]) s' := by
  cases hstep with
  | arrive hgate => exact h.arrive hgate
  | @act i action gate' hgate hcomplete =>
    have htransports : gate'.requests.map Gate.Request.transport
        = s.gate.requests.map Gate.Request.transport := by
      cases hgate with
      | act hr _ => exact map_set_of_eq hr rfl
    refine h.kept rfl ?_ (h.gate.snoc hgate) htransports ?_ fun _ hne => absurd rfl hne
    · have hnone : poolEvents d [.act i action] = [] := rfl
      rw [hnone, List.append_nil]
      exact h.pool
    cases hgate with
    | @act _ r _ _ _ hr hacts =>
      intro j r' session hr' hsession
      rcases of_getElem?_set hr' with ⟨rfl, rfl⟩ | ⟨-, hr'⟩
      · refine (h.sessions _ _ _ hr hsession).act hacts fun outcome haction => ?_
        obtain ⟨r', session', hr', hsession', hends⟩ := hcomplete outcome haction
        rw [hr] at hr'
        rw [hsession] at hsession'
        cases hr'
        cases hsession'
        exact hends
      · exact h.sessions _ _ _ hr' hsession
  | @progress i r session session' hr hphase hsession hprogress =>
    have hnone : gateEvents [.progress i] = [] := rfl
    refine h.kept rfl (h.pool.snoc (.step hsession hprogress)) ?_ rfl ?_ fun _ hne => absurd rfl hne
    · rw [hnone, List.append_nil]
      exact h.gate
    · -- the request is being handled
      refine h.sessions_set hr hsession fun _ => ⟨fun hno => ?_, fun outcome hends => ?_⟩
      · rw [hphase] at hno
        cases hno
      · rw [hphase] at hends
        rcases hends with heq | heq <;> cases heq
  | @deliver i r session x hr htcp hsession =>
    have hnone : gateEvents [.deliver i x] = [] := rfl
    refine h.kept rfl (h.pool.snoc (.feed x hsession)) ?_ rfl ?_ fun j hne => ?_
    · rw [hnone, List.append_nil]
      exact h.gate
    · exact h.sessions_set hr hsession fun hok =>
        ⟨fun hno => hok.untouched hno, fun outcome hends => hok.ends outcome hends⟩
    · by_cases hij : i = j
      · subst hij
        rw [List.getElem?_map, hr, ← htcp]
        rfl
      · exact absurd (by simp [delivered, hij]) hne

theorem Run.invariant (h : Run config d es s) : Invariant config d es s := by
  induction h with
  | nil =>
    exact ⟨.nil, .nil, rfl, fun _ _ _ hr => absurd hr nofun, fun _ hne => absurd rfl hne⟩
  | snoc _ hstep ih => exact ih.step hstep

/-! ### Isolation -/

theorem feeds_eq (p : Handler Unit) (st : SessionState) (xs : List Input) :
    sessionProcess.feeds (p, st) xs = (p, { st with input := st.input ++ xs }) := by
  induction xs using List.reverseRecOn with
  | nil =>
    rw [Process.feeds_nil, List.append_nil]
  | append_singleton xs x ih =>
    rw [Process.feeds_concat, ih, ← List.append_assoc]
    rfl

theorem isTcp_eq (start : Start) : decide (transportOf start = .tcp) = start.isTcp := by
  cases start <;> rfl

/-- A session is on the way of the session that its start and its input make. -/
theorem Invariant.session (h : Invariant config d es s) {i : Nat} {start : Start}
    (hstart : (starts es)[i]? = some start) :
    ∃ r session, s.gate.requests[i]? = some r ∧ s.sessions[i]? = some session ∧
      r.transport = transportOf start ∧ SessionOk r session ∧
      (start.handler d).run sessionEnv (start.state (delivered i es))
        = session.1.run sessionEnv session.2 := by
  have hlt : i < (starts es).length := (List.getElem?_eq_some_iff.mp hstart).1
  have hlength := congrArg List.length h.transports
  rw [List.length_map, List.length_map] at hlength
  obtain ⟨r, hr⟩ : ∃ r, s.gate.requests[i]? = some r :=
    ⟨_, List.getElem?_eq_getElem (by omega)⟩
  obtain ⟨session, hsession⟩ : ∃ session, s.sessions[i]? = some session :=
    ⟨_, List.getElem?_eq_getElem (by rw [h.length_eq]; omega)⟩
  have htransport : r.transport = transportOf start := by
    have heq := congrArg (fun ts => ts[i]?) h.transports
    rw [List.getElem?_map, List.getElem?_map, hr, hstart] at heq
    exact Option.some.inj heq
  refine ⟨r, session, hr, hsession, htransport, h.sessions i r session hr hsession, ?_⟩
  obtain ⟨start', hstart', hsteps⟩ := h.pool.steps hsession
  rw [joined_poolEvents, List.getElem?_map, hstart] at hstart'
  cases hstart'
  rw [fed_poolEvents, feeds_eq] at hsteps
  obtain ⟨p, st⟩ := session
  have hrun := Program.run_of_steps hsteps
  cases start <;> exact hrun

theorem result_eq_some {p : Handler Unit} {r : Except Raised Unit} (h : result p = some r)
    (st : SessionState) : p.run sessionEnv st = (some r, st) := by
  cases p with
  | pure a =>
    cases h
    rfl
  | raise e =>
    cases h
    rfl
  | call c k => cases h

theorem prefix_conclude (tcp : Bool) (x : Option (Except Raised Unit) × SessionState) :
    x.2.trace <+: (conclude tcp x).2 := by
  obtain ⟨_ | r, st⟩ := x
  · exact List.prefix_refl _
  · exact List.prefix_append _ _

/-- The trace of a session that has come to its end. -/
theorem SessionOk.ended {r : Gate.Request} {session : Handler Unit × SessionState} (hok : SessionOk r session)
    {start : Start} (htransport : r.transport = transportOf start) {input : List Input}
    (hrun : (start.handler d).run sessionEnv (start.state input) = session.1.run sessionEnv session.2)
    {outcome : Gate.Outcome} (hphase : r.phase = .finishing outcome ∨ r.phase = .finished outcome) :
    ∃ result, DnsFixtures.session d start input = (some result, traceOf r session) ∧
      outcomeOf result = outcome := by
  obtain ⟨res, hres, houtcome⟩ := hok.ends outcome hphase
  have htrace : traceOf r session = (conclude start.isTcp (some res, session.2)).2 := by
    rw [← isTcp_eq, ← htransport, ← hres, traceOf]
    rcases hphase with heq | heq <;> rw [heq]
  rw [DnsFixtures.session, hrun, result_eq_some hres, htrace]
  refine ⟨(catchRaised start.isTcp session.2.scenario res).1, rfl, ?_⟩
  rw [← isTcp_eq, ← htransport]
  exact houtcome

theorem Invariant.served (h : Invariant config d es s) {i : Nat} {start : Start}
    (hstart : (starts es)[i]? = some start) :
    ∃ r session, s.gate.requests[i]? = some r ∧ s.sessions[i]? = some session ∧
      Served d start (delivered i es) r (traceOf r session) := by
  obtain ⟨r, session, hr, hsession, htransport, hok, hrun⟩ := h.session hstart
  have hrunning : r.phase.hasThread = true →
      traceOf r session <+: (DnsFixtures.session d start (delivered i es)).2 := by
    intro hthread
    cases hphase : r.phase with
    | handling =>
      have htrace : traceOf r session = session.2.trace := by rw [traceOf, hphase]
      rw [htrace, DnsFixtures.session, hrun]
      exact (monotone_sessionEnv.shows_run _ _).trans (prefix_conclude _ _)
    | finishing outcome =>
      obtain ⟨result, heq, -⟩ := hok.ended htransport hrun (Or.inl hphase)
      rw [heq]
    | finished outcome =>
      obtain ⟨result, heq, -⟩ := hok.ended htransport hrun (Or.inr hphase)
      rw [heq]
    | _ =>
      rw [hphase] at hthread
      cases hthread
  refine ⟨r, session, hr, hsession, htransport, ?_, hrunning, fun outcome =>
    hok.ended htransport hrun, ?_⟩
  · intro hno
    have htrace := hok.untouched hno
    cases hphase : r.phase with
    | accessRejected | overloadRejected =>
      rw [traceOf, hphase]
      exact ⟨rfl, rfl, rfl⟩
    | handling | finishing outcome | finished outcome =>
      rw [hphase] at hno
      cases hno
    | _ =>
      rw [traceOf, hphase]
      dsimp only
      rw [htrace]
      exact ⟨rfl, rfl, rfl⟩
  · intro hthread htcp hinput
    cases start with
    | udp query addresses => cases htcp
    | tcp answers =>
      obtain ⟨φ, hφ⟩ := accepts_session d answers hinput
      obtain ⟨more, hmore⟩ := hrunning hthread
      rw [← hmore] at hφ
      obtain ⟨ψ, hψ⟩ := hφ.of_append
      exact orderly_of_accepts hψ

/-- **Isolation**: whatever the servers do meanwhile, each request is served as a session of its own
start and its own input, and one that is rejected or could not be started is not served at all. -/
theorem run_isolated (h : Run config d es s) {i : Nat} {start : Start}
    (hstart : (starts es)[i]? = some start) :
    ∃ r session, s.gate.requests[i]? = some r ∧ s.sessions[i]? = some session ∧
      Served d start (delivered i es) r (traceOf r session) :=
  h.invariant.served hstart

/-- A client connects and closes the connection. -/
def closedEvents : List Event :=
  [.arrive (.v4 0x7F000001) (.tcp []), .act 0 .permit, .act 0 .acquire, .act 0 .start,
    .deliver 0 (.tail [] .closed), .progress 0, .act 0 (.complete .returned)]

theorem exists_run_closedEvents :
    ∃ s, Run ⟨1, Gate.LOOPBACK_CLIENTS⟩ Reference.dnspython closedEvents s := by
  have h₀ : Run ⟨1, Gate.LOOPBACK_CLIENTS⟩ Reference.dnspython [] _ := .nil
  have h₁ := h₀.snoc (e := .arrive (.v4 0x7F000001) (.tcp [])) (.arrive (.arrive _ _ nofun))
  have h₂ := h₁.snoc (e := .act 0 .permit) (.act (.act rfl (.permit (by decide))) nofun)
  have h₃ := h₂.snoc (e := .act 0 .acquire) (.act (.act rfl (.acquire rfl)) nofun)
  have h₄ := h₃.snoc (e := .act 0 .start) (.act (.act rfl .start) nofun)
  have h₅ := h₄.snoc (e := .deliver 0 (.tail [] .closed)) (.deliver _ rfl rfl rfl)
  have h₆ := h₅.snoc (e := .progress 0) (.progress rfl rfl rfl rfl)
  refine ⟨_, h₆.snoc (.act (.act rfl (.complete .returned)) fun outcome heq => ?_)⟩
  cases heq
  exact ⟨_, _, rfl, rfl, _, rfl, rfl⟩

theorem run_isolated_closed : ∃ s r session,
    Run ⟨1, Gate.LOOPBACK_CLIENTS⟩ Reference.dnspython closedEvents s ∧
      s.gate.requests[0]? = some r ∧ s.sessions[0]? = some session ∧
      Served Reference.dnspython (.tcp []) [.tail [] .closed] r (traceOf r session) := by
  obtain ⟨s, hs⟩ := exists_run_closedEvents
  obtain ⟨r, session, hr, hsession, hserved⟩ := run_isolated hs (i := 0) rfl
  exact ⟨s, r, session, hs, hr, hsession, hserved⟩

/-! ### Coming to rest -/

/-- The steps that a request may still take outside of its handler. -/
def rank : Gate.Phase → Nat
  | .verifying => 5
  | .acquiring => 4
  | .starting => 3
  | .handling => 2
  | .finishing _ | .startFailed => 1
  | .accessRejected | .overloadRejected | .failed | .finished _ => 0

/-- The steps that are left when nothing comes in any more. -/
def stepsLeft (s : State) : Nat :=
  (s.gate.requests.map fun r => rank r.phase).sum +
    (s.sessions.map fun session => session.1.steps sessionEnv session.2).sum

theorem sum_map_set {α : Type*} {f : α → Nat} {xs : List α} {i : Nat} {x y : α} (hi : xs[i]? = some x) :
    ((xs.set i y).map f).sum + f x = (xs.map f).sum + f y := by
  induction xs generalizing i with
  | nil => cases hi
  | cons x' xs ih =>
    cases i with
    | zero =>
      cases hi
      simp only [List.set_cons_zero, List.map_cons, List.sum_cons]
      omega
    | succ i =>
      have hrest := ih hi
      simp only [List.set_cons_succ, List.map_cons, List.sum_cons]
      omega

theorem rank_lt_of_acts {address : Gate.IPAddress} {gate gate' : BoundedSemaphore}
    {phase phase' : Gate.Phase} {action : Gate.Action}
    (h : Gate.Acts config address gate phase action gate' phase') : rank phase' < rank phase := by
  cases h <;> simp [rank]

theorem Step.stepsLeft_lt (h : Step config d s e s') (hown : e.isOwn = true) :
    stepsLeft s' < stepsLeft s := by
  cases h with
  | arrive _ => cases hown
  | deliver _ _ _ _ => cases hown
  | act hgate _ =>
    cases hgate with
    | @act _ r _ _ phase hr hacts =>
      have hlt := rank_lt_of_acts hacts
      have hsum := sum_map_set (f := fun r : Gate.Request => rank r.phase) (y := { r with phase := phase }) hr
      unfold stepsLeft
      dsimp only at hsum ⊢
      omega
  | @progress i r session session' _ _ hsession hprogress =>
    obtain ⟨p, st⟩ := session
    obtain ⟨p', st'⟩ := session'
    have hone := Program.steps_of_step hprogress
    have hsum := sum_map_set (f := fun session : Handler Unit × SessionState =>
      session.1.steps sessionEnv session.2) (y := (p', st')) hsession
    unfold stepsLeft
    dsimp only at hsum ⊢
    omega

/-- **Termination**. -/
theorem Drains.length_le {own : List Event} (h : Drains config d s own s') :
    own.length + stepsLeft s' ≤ stepsLeft s := by
  induction h with
  | nil => rw [List.length_nil, Nat.zero_add]
  | snoc _ hown hstep ih =>
    have hlt := hstep.stepsLeft_lt hown
    rw [List.length_append, List.length_singleton]
    omega

theorem Drains.run {own : List Event} (h : Drains config d s own s') (hs : Run config d es s) :
    Run config d (es ++ own) s' := by
  induction h with
  | nil => rwa [List.append_nil]
  | snoc _ _ hstep ih =>
    rw [← List.append_assoc]
    exact ih.snoc hstep

/-! ### No deadlock -/

/-- A session whose input ends does not wait for more. -/
theorem exists_run_of_tail (p : Handler Unit) {st : SessionState}
    (h : ∃ trailing ending, .tail trailing ending ∈ st.input) :
    ∃ r, (p.run sessionEnv st).1 = some r := by
  refine Program.exists_run_eq_some
    (I := fun st => ∃ trailing ending, Input.tail trailing ending ∈ st.input) ?_ p h
  rintro c ⟨input, answers, addresses, scenario, trace⟩ ⟨trailing, ending, hmem⟩
  cases c with
  | recvFrame =>
    rcases input with _ | ⟨query | ⟨trailing', ending'⟩, input⟩
    · cases hmem
    · refine ⟨_, _, rfl, trailing, ending, ?_⟩
      rcases List.mem_cons.mp hmem with heq | hmem
      · cases heq
      · exact hmem
    · exact ⟨_, _, rfl, trailing, ending, hmem⟩
  | next =>
    rcases input with _ | ⟨query | ⟨trailing', ending'⟩, input⟩
    · cases hmem
    · simp only [sessionEnv]
      split_ifs
      · exact ⟨_, _, rfl, trailing, ending, hmem⟩
      · refine ⟨_, _, rfl, trailing, ending, ?_⟩
        rcases List.mem_cons.mp hmem with heq | hmem
        · cases heq
        · exact hmem
    · exact ⟨_, _, rfl, trailing, ending, hmem⟩
  | exchange query =>
    rcases answers with _ | ⟨_ | answer, answers⟩
    · exact ⟨_, _, rfl, trailing, ending, hmem⟩
    · exact ⟨_, _, rfl, trailing, ending, hmem⟩
    · simp only [sessionEnv]
      cases frame query <;> exact ⟨_, _, rfl, trailing, ending, hmem⟩
  | sendUpstream query =>
    rcases addresses with _ | ⟨_ | _ | response, addresses⟩ <;>
      exact ⟨_, _, rfl, trailing, ending, hmem⟩
  | getaddrinfo | assign scenario | sendall part | sendto part | logEvent event transport reason =>
    exact ⟨_, _, rfl, trailing, ending, hmem⟩

/-- The request is served, or it never will be. -/
def AtRest (r : Gate.Request) : Prop := r.phase.inLoop = false ∧ r.phase.unfinished = false

/-- A request that is neither handled nor at rest can take a step. -/
theorem exists_acts {r : Gate.Request} (h : ¬ AtRest r) (hphase : r.phase ≠ .handling)
    (config : Gate.Config) (gate : BoundedSemaphore) : ∃ action gate' phase,
      Gate.Acts config r.address gate r.phase action gate' phase ∧
        ∀ outcome', action ≠ .complete outcome' := by
  obtain ⟨transport, address, phase⟩ := r
  cases phase with
  | accessRejected | overloadRejected | failed | finished outcome => exact absurd ⟨rfl, rfl⟩ h
  | handling => exact absurd rfl hphase
  | verifying =>
    cases hverify : Gate.verifyRequest config address with
    | false => exact ⟨_, _, _, .rejectAccess hverify, nofun⟩
    | true => exact ⟨_, _, _, .permit hverify, nofun⟩
  | acquiring =>
    rcases hacquire : gate.acquire with ⟨_ | _, gate'⟩
    · exact ⟨_, _, _, .rejectOverload hacquire, nofun⟩
    · exact ⟨_, _, _, .acquire hacquire, nofun⟩
  | starting => exact ⟨_, _, _, .start, nofun⟩
  | startFailed =>
    cases hrelease : gate.release with
    | none => exact ⟨_, _, _, .releaseFailedRaises hrelease, nofun⟩
    | some gate' => exact ⟨_, _, _, .releaseFailed hrelease, nofun⟩
  | finishing outcome =>
    cases hrelease : gate.release with
    | none => exact ⟨_, _, _, .releaseRaises outcome hrelease, nofun⟩
    | some gate' => exact ⟨_, _, _, .release outcome hrelease, nofun⟩

theorem Invariant.exists_start (h : Invariant config d es s) {i : Nat} {r : Gate.Request}
    (hr : s.gate.requests[i]? = some r) : ∃ start, (starts es)[i]? = some start := by
  have hlt := (List.getElem?_eq_some_iff.mp hr).1
  have hlength := congrArg List.length h.transports
  rw [List.length_map, List.length_map] at hlength
  exact ⟨_, List.getElem?_eq_getElem (by omega)⟩

/-- A session does not wait for ever where the input has come to an end. -/
theorem Invariant.exists_run (h : Invariant config d es s)
    (htail : ∀ (i : Nat) (answers : List Answer), (starts es)[i]? = some (.tcp answers) →
      ∃ trailing ending, .tail trailing ending ∈ delivered i es)
    {i : Nat} {start : Start} (hstart : (starts es)[i]? = some start) :
    ∃ res, ((start.handler d).run sessionEnv (start.state (delivered i es))).1 = some res := by
  cases start with
  | tcp answers => exact exists_run_of_tail _ (htail i answers hstart)
  | udp query addresses =>
    have hnil : delivered i es = [] := by
      by_contra hne
      have hconnected := h.connected i hne
      rw [h.transports, List.getElem?_map, hstart] at hconnected
      cases hconnected
    obtain ⟨res, _, _, hrun, -⟩ := run_serveDatagram_session d query addresses
    rw [hnil]
    exact ⟨res, by rw [Start.handler, hrun]⟩

/-- **No deadlock**: where the streams of all connections have come to an end, some step is possible
until all requests are at rest. -/
theorem Invariant.exists_step (h : Invariant config d es s)
    (htail : ∀ (i : Nat) (answers : List Answer), (starts es)[i]? = some (.tcp answers) →
      ∃ trailing ending, .tail trailing ending ∈ delivered i es)
    {i : Nat} {r : Gate.Request} (hr : s.gate.requests[i]? = some r) (hrest : ¬ AtRest r) :
    ∃ e s', e.isOwn = true ∧ Step config d s e s' := by
  by_cases hphase : r.phase = .handling
  · obtain ⟨start, hstart⟩ := h.exists_start hr
    obtain ⟨r', ⟨p, st⟩, hr', hsession, htransport, -, hrun⟩ := h.session hstart
    rw [hr] at hr'
    cases hr'
    cases hstep : sessionProcess.step (p, st) with
    | some session' => exact ⟨.progress i, _, rfl, .progress hr hphase hsession hstep⟩
    | none =>
      -- the handler has come to its end: its input has ended, so it cannot be waiting
      obtain ⟨res, hres⟩ : ∃ res, result p = some res := by
        rcases (Program.run_of_step_none hstep).2 with ⟨a, rfl⟩ | ⟨e, rfl⟩ | hblocked
        · exact ⟨_, rfl⟩
        · exact ⟨_, rfl⟩
        · obtain ⟨res, hsome⟩ := h.exists_run htail hstart
          rw [hrun, hblocked] at hsome
          cases hsome
      obtain ⟨outcome, houtcome⟩ : ∃ outcome,
          outcomeOf (catchRaised (r.transport = .tcp) st.scenario res).1 = outcome := ⟨_, rfl⟩
      have hacts : Gate.Acts config r.address s.gate.gate r.phase (.complete outcome) s.gate.gate
          (.finishing outcome) := by
        rw [hphase]
        exact .complete outcome
      refine ⟨_, _, rfl, .act (.act hr hacts) fun outcome' heq => ?_⟩
      cases heq
      exact ⟨r, (p, st), hr, hsession, res, hres, houtcome⟩
  · obtain ⟨action, gate', phase, hacts, hno⟩ := exists_acts hrest hphase config s.gate.gate
    exact ⟨.act i action, _, rfl, .act (.act hr hacts) fun outcome heq => absurd heq (hno outcome)⟩

theorem starts_of_isOwn {own : List Event} (h : Drains config d s own s') (es : List Event) :
    starts (es ++ own) = starts es ∧ ∀ i, delivered i (es ++ own) = delivered i es := by
  induction h with
  | nil =>
    rw [List.append_nil]
    exact ⟨rfl, fun _ => rfl⟩
  | @snoc own e _ _ _ hown _ ih =>
    have hnone : starts [e] = [] ∧ ∀ i, delivered i [e] = [] := by
      cases e with
      | arrive _ _ | deliver _ _ => cases hown
      | act _ _ | progress _ => exact ⟨rfl, fun _ => rfl⟩
    rw [← List.append_assoc, starts_concat, hnone.1, List.append_nil]
    exact ⟨ih.1, fun i => by rw [delivered_concat, hnone.2, List.append_nil, ih.2]⟩

/-- **Coming to rest**: when no request and no input comes any more, the servers take finitely many
steps, and where they cannot take another one all requests are at rest and all permits are back. -/
theorem run_drains (h : Run config d es s)
    (htail : ∀ (i : Nat) (answers : List Answer), (starts es)[i]? = some (.tcp answers) →
      ∃ trailing ending, .tail trailing ending ∈ delivered i es) :
    (∃ n, ∀ own s', Drains config d s own s' → own.length ≤ n) ∧
      ∀ own s', Drains config d s own s' → (∀ e s'', e.isOwn = true → ¬ Step config d s' e s'') →
        (∀ r ∈ s'.gate.requests, AtRest r) ∧ s'.gate.gate.value = config.maxSessions := by
  refine ⟨⟨stepsLeft s, fun own s' hown => Nat.le_trans (Nat.le_add_right ..) hown.length_le⟩, ?_⟩
  intro own s' hown hstop
  have hinv := (hown.run h).invariant
  have hsame := starts_of_isOwn hown es
  have hrest : ∀ r ∈ s'.gate.requests, AtRest r := by
    intro r hmem
    by_contra hr
    obtain ⟨i, hi⟩ := List.mem_iff_getElem?.mp hmem
    obtain ⟨e, s'', he, hstep⟩ := hinv.exists_step (by
      intro j answers hj
      rw [hsame.1] at hj
      rw [hsame.2]
      exact htail j answers hj) hi hr
    exact hstop e s'' he hstep
  refine ⟨hrest, ?_⟩
  have hgate := hinv.gate.invariant
  have hnone : s'.gate.requests.countP (fun r => r.phase.unfinished) = 0 := by
    rw [List.countP_eq_zero]
    intro r hmem
    rw [(hrest r hmem).2]
    decide
  have haccounted := hgate.accounted
  unfold Accounted at haccounted
  rw [hnone, Nat.zero_add, hgate.initial] at haccounted
  exact haccounted

theorem run_drains_closed : ∃ s,
    Run ⟨1, Gate.LOOPBACK_CLIENTS⟩ Reference.dnspython closedEvents s ∧
      (∃ n, ∀ own s', Drains ⟨1, Gate.LOOPBACK_CLIENTS⟩ Reference.dnspython s own s' → own.length ≤ n) ∧
      ∀ own s', Drains ⟨1, Gate.LOOPBACK_CLIENTS⟩ Reference.dnspython s own s' →
        (∀ e s'', e.isOwn = true → ¬ Step ⟨1, Gate.LOOPBACK_CLIENTS⟩ Reference.dnspython s' e s'') →
        (∀ r ∈ s'.gate.requests, AtRest r) ∧ s'.gate.gate.value = 1 := by
  obtain ⟨s, hs⟩ := exists_run_closedEvents
  refine ⟨s, hs, run_drains hs fun i answers hi => ?_⟩
  obtain rfl : i = 0 := Nat.lt_one_iff.mp (List.getElem?_eq_some_iff.mp hi).1
  exact ⟨[], .closed, List.mem_singleton_self _⟩

end DnsFixtures.Server
