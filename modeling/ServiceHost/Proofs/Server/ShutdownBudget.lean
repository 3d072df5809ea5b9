import ServiceHost.Proofs.Lifecycle.Punctual
import ServiceHost.Proofs.Listener.Leading
import ServiceHost.Proofs.Listener.Shutdown
import ServiceHost.Proofs.Server.CloseTimeout
/-!
The built-in processes of a server respect the time that they have to shut down.

All four serve on a listener and stop it when they are shut down; they differ in whether they have a
close timeout of their own, and in what they return when serving has not ended in time
(`Server.BuiltIn`).  Each of them comes back within its budget, the time left in its scope and its
close timeout, whichever is less (`KeepsBudget`).  So a server of these four processes alone is
stopped by the deadline of its shutdown, whatever its connections do.
-/

namespace ServiceHost.Server

open Engine Listener Listener.Scene Supervisor

variable {W : Type} {slot : Slot W Listener} {c : Component W} {closeTimeout : Option Nat}
  {late : Outcome}

/-! ### The built-in processes -/

/-- The party runs the process, and serves. -/
def Runs (slot : Slot W Listener) (c : Component W) (party : Party W) : Prop :=
  party.code slot = c.run ∧ ∃ lead name traffic, party = .serve lead name traffic

/-- The processes that serve on a listener, each with its own close timeout, if it has one, and with
what its shutdown returns when serving has not ended in time. -/
inductive BuiltIn (slot : Slot W Listener) : Component W → Option Nat → Outcome → Prop
  | grpc (s : Rpc.Server) (traffic : Traffic) :
      BuiltIn slot (s.component slot traffic) (some s.closeTimeout) .ok
  | gateway (s : Gateway.Server) (traffic : Traffic) :
      BuiltIn slot (s.component slot traffic) (some s.closeTimeout)
        (.failed (.host (.shutdownTimeout Gateway.Server.name)))
  | metrics (s : Metrics.Server) (state : Slot W Metrics.State)
      (apart : ∀ m w, Same slot w (state.put m w)) (traffic : Traffic) :
      BuiltIn slot (s.component slot state traffic) (some s.closeTimeout)
        (.failed (.host (.shutdownTimeout Metrics.Server.name)))
  | profiling (s : Profiling.Server) (traffic : Traffic) :
      BuiltIn slot (s.component slot traffic) none
        (.failed (.host (.shutdownTimeout Profiling.Server.name)))

/-- All four stop their listener in the same way. -/
theorem BuiltIn.close_eq (h : BuiltIn slot c closeTimeout late) :
    ∃ finish, c.close = stopping slot closeTimeout finish ∧
      (∀ inTime w, Same slot w (finish inTime w).1) ∧ (∀ w, (finish true w).2 = .ok) ∧
      ∀ w, (finish false w).2 = late := by
  cases h with
  | grpc => exact ⟨fun _ w => (w, .ok), rfl, fun _ _ => rfl, fun _ => rfl, fun _ => rfl⟩
  | gateway =>
    exact ⟨fun inTime w => (w, inTimeOrFail Gateway.Server.name inTime), rfl, fun _ _ => rfl,
      fun _ => rfl, fun _ => rfl⟩
  | metrics s state apart =>
    exact ⟨fun inTime w =>
      (state.modify s.withoutVersion w, inTimeOrFail Metrics.Server.name inTime), rfl,
      fun _ _ => apart _ _, fun _ => rfl, fun _ => rfl⟩
  | profiling =>
    exact ⟨fun inTime w => (w, inTimeOrFail Profiling.Server.name inTime), rfl, fun _ _ => rfl,
      fun _ => rfl, fun _ => rfl⟩

/-- None of them panics when it is late. -/
theorem BuiltIn.late_ne_panicked (h : BuiltIn slot c closeTimeout late) : late ≠ .panicked := by
  cases h <;> simp

/-- A stop ends with success or as it is told to. -/
theorem canEnd_stopping {finish : Bool → W → W × Outcome} {o : Outcome}
    (hfair : ∀ inTime w, Same slot w (finish inTime w).1)
    (h : (stopping slot closeTimeout finish).CanEnd o) :
    o = .ok ∨ ∃ inTime w, o = (finish inTime w).2 := by
  obtain ⟨rest, hsuffix, hends⟩ := h
  cases hends with
  | stop => exact .inl rfl
  | @act effect rest m w w' _ gives =>
    refine .inr ?_
    obtain ⟨n, hn⟩ : ∃ n, .act effect :: rest = (stopping slot closeTimeout finish).drop n :=
      ⟨_, List.suffix_iff_eq_drop.1 hsuffix⟩
    have hturn : Routine.Turn m ((stopping slot closeTimeout finish).drop n) w _ (some o) w' :=
      hn ▸ (Routine.Turn.finish gives : Routine.Turn m (.act effect :: rest) w _ (some o) w')
    match n with
    | 0 =>
      obtain ⟨-, ho, -⟩ := turn_ask hturn
      cases ho
    | 1 =>
      obtain ⟨-, ho, -⟩ | ⟨w₁, p, ho, -⟩ := turn_drop hfair hturn
      · cases ho
      · exact ⟨true, w₁, Option.some.inj ho⟩
    | 2 => cases hturn
    | 3 =>
      obtain ⟨inTime, w₁, ho, -⟩ := turn_judge hfair hturn
      exact ⟨inTime, w₁, Option.some.inj ho⟩
    | n + 4 => simp [stopping] at hn

/-- All four are punctual. -/
theorem BuiltIn.punctual (h : BuiltIn slot c closeTimeout late) : c.Punctual := by
  obtain ⟨finish, hclose, hfair, hok, hlate⟩ := h.close_eq
  constructor
  · intro d
    rw [hclose, limit?_stopping]
    cases closeTimeout with
    | none => exact ⟨d, Nat.le_refl _, rfl⟩
    | some c => exact ⟨min d c, Nat.min_le_left .., rfl⟩
  · rw [hclose]
    intro hpanics
    obtain ho | ⟨inTime, w, ho⟩ := canEnd_stopping hfair hpanics
    · cases ho
    · cases inTime with
      | true => cases ho.trans (hok w)
      | false => exact h.late_ne_panicked (ho.trans (hlate w)).symm

/-- Each of them serves on its listener when it runs, the metrics pages after making their
routes. -/
theorem BuiltIn.exists_party (h : BuiltIn slot c closeTimeout late) :
    ∃ party, Runs slot c party ∧ party.Fair slot := by
  have hlead : Routine.Respects (Same slot) [] := Routine.respects_nil
  cases h with
  | grpc s traffic =>
    exact ⟨.serve [] Rpc.Server.name traffic, ⟨rfl, _, _, _, rfl⟩, hlead⟩
  | gateway s traffic =>
    exact ⟨.serve [] Gateway.Server.name traffic, ⟨rfl, _, _, _, rfl⟩, hlead⟩
  | profiling s traffic =>
    exact ⟨.serve [] Profiling.Server.name traffic, ⟨rfl, _, _, _, rfl⟩, hlead⟩
  | metrics s state apart traffic =>
    exact ⟨.serve [s.routing] Metrics.Server.name traffic, ⟨rfl, _, _, _, rfl⟩,
      Routine.respects_nil.act fun _ _ => rfl⟩

/-! ### Preparing -/

/-- A routine that succeeds has bound the listener. -/
def Binds (slot : Slot W Listener) (o : Outcome) (w : W) : Prop :=
  o = .ok → ∃ address refusal, Listener.bind {} address refusal = .ok (slot.get w)

/-- Binding a new listener leads to a bound one, and so does leaving it alone afterwards. -/
theorem leads_bound {address : String} {traffic : Traffic} {rest : Routine W} {w : W}
    (hw : slot.get w = {}) (hrest : rest.Respects (Same slot)) :
    Routine.Leads (Same slot) (Binds slot) (binding slot address traffic :: rest) w := by
  refine leads_binding (fun _ _ _ _ ho => by cases ho) fun w₁ refusal l hsame hbind => ?_
  rw [show slot.get w₁ = {} from hsame.trans hw] at hbind
  refine hrest.leads fun _ w₂ hsame' _ => ⟨address, refusal, ?_⟩
  rw [hbind, hsame', slot.get_put]

/-- A check that does not end with success leads on. -/
theorem leads_check_bound {fault? : Option Outcome} {address : String} {traffic : Traffic} {w : W}
    (hfault : fault? ≠ some .ok) (hw : slot.get w = {}) :
    Routine.Leads (Same slot) (Binds slot)
      [.act (fun _ w => (w, fault?)), binding slot address traffic] w := by
  refine leads_check (fun o _ ho hok => absurd (hok ▸ ho) hfault) fun w₁ hsame => ?_
  exact leads_bound (hsame.trans hw) Routine.respects_nil

/-- A process that has been prepared with success has bound its listener. -/
theorem BuiltIn.leads (h : BuiltIn slot c closeTimeout late) {w : W} (hw : slot.get w = {}) :
    c.prepare.Leads (Same slot) (Binds slot) w := by
  cases h with
  | grpc s =>
    have hfault : s.descriptionFault?.map Outcome.failed ≠ some .ok := by simp
    exact leads_check_bound hfault hw
  | gateway s =>
    have hfault : s.routesFault? ≠ some .ok := by
      unfold Gateway.Server.routesFault?
      split
      · simp
      next fault _ => cases fault <;> simp [Gateway.Fault.outcome]
    exact leads_check_bound hfault hw
  | profiling => exact leads_bound hw Routine.respects_nil
  | metrics s state apart =>
    -- registering the version leaves the listener alone
    exact leads_bound hw (Routine.respects_nil.act fun _ w => apart _ w)

/-! ### In service -/

/-- Where there are no tasks, a call makes none. -/
theorem kept_idle {phase : Phase} : Kept phase fun e : Engine W => e.tasks = [] where
  happens _ _ hstep h := by
    cases hstep with
    | clock | change | arrive | cancel | leave => exact h
    -- these need a task
    | start here | goOn here | finish here => simp [h] at here
  called _ _ _ h := h
  returned _ _ _ h := h

/-- A process in service.  It was prepared, with nobody else about; then any number of its runs was
started, among other things that leave its listener alone. -/
structure InService (slot : Slot W Listener) (c : Component W) (s : Scene W) : Prop where
  prepared : ∃ (sch : Schedule W) (index : Nat) (scope : Scope) (e₀ e₁ : Engine W),
    slot.get e₀.world = {} ∧ e₀.tasks = [] ∧
      e₀.call sch .prepare index scope c.prepare = (e₁, .outcome .ok) ∧ Reaches slot ⟨[], e₁⟩ s
  runs : ∀ party ∈ s.parties, Runs slot c party ∨ ∃ code, party = .other code

/-- While a process is in service, its listener is in order and nobody stops it. -/
theorem BuiltIn.sound (h : BuiltIn slot c closeTimeout late) {s : Scene W}
    (hs : InService slot c s) :
    Sound slot s ∧ ∀ closeTimeout finish, .stop closeTimeout finish ∉ s.parties := by
  obtain ⟨⟨sch, index, scope, e₀, e₁, hnew, hidle, hcall, hreached⟩, hruns⟩ := hs
  constructor
  · have hidle₁ : e₁.tasks = [] := kept_idle.call hcall hidle
    have hrespects : e₀.Respects (Same slot) := by simp [Respects, hidle]
    obtain ⟨-, hbinds⟩ := call_leads hcall hrespects (h.leads hnew)
    obtain ⟨address, refusal, hbind⟩ := hbinds rfl
    exact ((sound_of_bound hbind hidle₁).reaches hreached).1
  · intro closeTimeout finish hstop
    obtain ⟨-, _, _, _, hserve⟩ | ⟨_, hother⟩ := hruns _ hstop
    · cases hserve
    · cases hother

/-- A process that keeps to the budget of its shutdown: the time left in its scope and its close
timeout, whichever is less. -/
structure KeepsBudget (slot : Slot W Listener) (c : Component W) (closeTimeout : Option Nat)
    (late : Outcome) : Prop where
  /-- A shutdown comes back within its budget, if it has one, whatever goes on besides. -/
  inTime : ∀ (sch : Schedule W) (index : Nat) (scope : Scope) (e : Engine W) (d : Nat),
    budget closeTimeout (scope.remaining e.now) = some d →
      ∃ e' o, e.call sch .close index scope c.close = (e', .outcome o) ∧ e'.now ≤ e.now + d
  /-- A shutdown that comes back says whether serving has ended. -/
  judged : ∀ (s : Scene W), InService slot c s →
    ∀ (sch : Schedule W) (index : Nat) (scope : Scope) (e' : Engine W) (o : Outcome),
      s.engine.call sch .close index scope c.close = (e', .outcome o) →
        ShutsDown slot late (budget closeTimeout (scope.remaining s.engine.now)) s.engine.now
          ⟨s.parties, e'⟩ o

/-- All four keep to their budget. -/
theorem BuiltIn.keepsBudget (h : BuiltIn slot c closeTimeout late) :
    KeepsBudget slot c closeTimeout late := by
  obtain ⟨finish, hclose, hfair, hok, hlate⟩ := h.close_eq
  constructor
  · intro sch index scope e d hd
    rw [hclose]
    exact call_within ((limit?_stopping ..).trans hd) sch .close index
  · intro s hs sch index scope e' o hcall
    obtain ⟨hsound, hstop⟩ := h.sound hs
    rw [hclose] at hcall
    obtain ⟨e₁, hperforms, rfl⟩ := performs_of_call hcall
    have hcompany : Company slot s.parties .away (s.engine.record (.called .close index
      (s.engine.moment scope (scope.remaining s.engine.now)))) := hsound.company
    exact (shutsDown_of_performs hcompany hsound.fair hstop hfair hok hlate hperforms).record _

/-! ### A server of these four processes -/

variable {s : Server Host} {site : Site} {sup : Supervisor Host} {metrics : Metrics.State}

/-- A server without telemetry and without processes of its owner has the four alone. -/
theorem processes_of_plain (htelemetry : s.telemetry = false) (hcomponents : s.components = [])
    (h : s.assemble site = .ok (sup, metrics)) :
    ∃ version, sup.processes = s.systemComponents site version := by
  have hservice : s.telemetryService = .ok (none, s.metrics) := by
    rw [telemetryService, htelemetry]
    rfl
  unfold assemble at h
  rw [hservice] at h
  obtain ⟨rfl, -⟩ := Prod.mk.inj (Except.ok.inj h)
  exact ⟨s.metrics.meters.length, by simp [hcomponents]⟩

/-- The four processes of a server, on their listeners. -/
theorem exists_builtIn {version : Nat} {p : Component Host}
    (hp : p ∈ s.systemComponents site version) :
    ∃ slot closeTimeout late, BuiltIn slot p closeTimeout late := by
  simp only [systemComponents, List.mem_cons, List.not_mem_nil, or_false] at hp
  rcases hp with rfl | rfl | rfl | rfl
  · exact ⟨_, _, _, .grpc _ _⟩
  · exact ⟨_, _, _, .gateway _ _⟩
  · have hapart (m : Metrics.State) (w : Host) :
        Same Host.pagesSlot w (Host.metricsSlot.put m w) := rfl
    exact ⟨_, _, _, .metrics _ _ hapart _⟩
  · exact ⟨_, _, _, .profiling _ _⟩

/-- **The built-in processes keep to the time that they have to shut down.**  Each of them keeps to
its budget, whatever its connections do.  So a server of these four alone that enters its last stage
returns, and is stopped no later than its close timeout from then, if the clock can show that
moment. -/
theorem shutdowns_keep_budget :
    (∀ {W : Type} {slot : Slot W Listener} {c : Component W} {closeTimeout : Option Nat}
      {late : Outcome}, BuiltIn slot c closeTimeout late → KeepsBudget slot c closeTimeout late) ∧
    ∀ (sch : Schedule Host) (s : Server Host) (site : Site) (journal : Logging.Journal)
      (outer : Scope) (tokens : Tokens) (outside : List (Nat × Token)) (time : Nat),
      s.telemetry = false → s.components = [] →
      (s.run sch site journal outer tokens outside).1.enteredAt? .stopping = some time →
      time + s.settings.closeTimeout.nanos < clockLimit →
      ∃ result stopped,
        (s.run sch site journal outer tokens outside).2 = .returned result ∧
        (s.run sch site journal outer tokens outside).1.enteredAt? .stopped = some stopped ∧
        stopped ≤ time + s.settings.closeTimeout.nanos := by
  refine ⟨fun h => h.keepsBudget, ?_⟩
  intro sch s site journal outer tokens outside time htelemetry hcomponents hstopping hfits
  obtain ⟨sup, metrics, hassemble, hrun⟩ := exists_supervisor hstopping
  obtain ⟨htimeout, -⟩ := assemble_eq_ok hassemble
  obtain ⟨version, hprocesses⟩ := processes_of_plain htelemetry hcomponents hassemble
  have he := fresh_begin (newHost site metrics journal) tokens outside site.clock
  rw [hrun] at hstopping ⊢
  obtain ⟨e₁, e₂, hstops⟩ := stops_of_entered he (.inl (entered_mem_deeds hstopping))
  obtain rfl : e₂.now = time :=
    Option.some.inj ((hstops.enteredAt?_stopping he).symm.trans hstopping)
  rw [← htimeout] at hfits ⊢
  refine hstops.punctual he hfits fun p hp => ?_
  obtain ⟨slot, closeTimeout, late, hbuiltIn⟩ := exists_builtIn (hprocesses ▸ hp)
  exact hbuiltIn.punctual

/-- Profiles that somebody goes on asking for, whatever happens. -/
def endlessProfiles : Component Listener :=
  Profiling.Server.component { address := ":8080" } onlyListener { linger := none }

/-- They have been prepared. -/
def preparedProfiles : Engine Listener :=
  (call .usual .prepare 0 ⟨[0], none⟩ endlessProfiles.prepare { world := {} }).1

/-- They have been in service for one unit of time. -/
def servingProfiles : Scene Listener where
  parties := [.serve [] Profiling.Server.name { linger := none }]
  engine := ((preparedProfiles.spawn 0 ⟨[0], none⟩ endlessProfiles.run).1.await .usual fun e =>
    some (max e.now 1)).1

theorem inService_servingProfiles : InService onlyListener endlessProfiles servingProfiles where
  prepared := by
    have hprepared : call .usual .prepare 0 ⟨[0], none⟩ endlessProfiles.prepare { world := {} } =
      (preparedProfiles, .outcome .ok) := Prod.ext rfl rfl
    have hjoins : Reaches onlyListener ⟨[], preparedProfiles⟩
        ⟨_, (preparedProfiles.spawn 0 ⟨[0], none⟩ endlessProfiles.run).1⟩ :=
      .single (.joins (.serve [] Profiling.Server.name { linger := none })
        Routine.respects_nil 0 ⟨[0], none⟩)
    refine ⟨_, _, _, _, _, rfl, rfl, hprepared, hjoins.trans ?_⟩
    exact reaches_await .usual (fun e t ht => Option.some.inj ht ▸ Nat.le_max_left ..) _
  runs := by
    rintro party hparty
    obtain rfl := List.mem_singleton.1 hparty
    exact .inl ⟨rfl, _, _, _, rfl⟩

/-- Endless profiles are shut down when the time left in the scope is used up, and a server whose
metrics pages never come to an end is stopped after its close timeout. -/
theorem shutdowns_keep_budget_endless :
    (∃ e', servingProfiles.engine.call .usual .close 0 ⟨[0], some 6⟩ endlessProfiles.close =
        (e', .outcome (inTimeOrFail Profiling.Server.name false)) ∧ e'.now = 6 ∧
      ShutsDown onlyListener (inTimeOrFail Profiling.Server.name false) (some 5) 1
        ⟨servingProfiles.parties, e'⟩ (inTimeOrFail Profiling.Server.name false)) ∧
    ∃ result stopped,
      let r := ({} : Server Host).run .usual { hostname := "host", pages := { linger := none } } {}
        ⟨[0], none⟩ ⟨1, []⟩ [(200 * Duration.nanosPerMilli, [0])]
      r.2 = .returned result ∧ r.1.enteredAt? .stopped = some stopped ∧
        stopped ≤ 200 * Duration.nanosPerMilli + 10 * Duration.nanosPerSecond := by
  obtain ⟨hkeeps, hserver⟩ := shutdowns_keep_budget
  constructor
  · have hbuiltIn : BuiltIn onlyListener endlessProfiles none
        (inTimeOrFail Profiling.Server.name false) := .profiling { address := ":8080" } _
    have hcall : servingProfiles.engine.call .usual .close 0 ⟨[0], some 6⟩ endlessProfiles.close =
        (_, .outcome (inTimeOrFail Profiling.Server.name false)) := Prod.ext rfl rfl
    exact ⟨_, hcall, by decide, (hkeeps hbuiltIn).judged _ inService_servingProfiles .usual 0
      ⟨[0], some 6⟩ _ _ hcall⟩
  · exact hserver .usual {} { hostname := "host", pages := { linger := none } } {} ⟨[0], none⟩
      ⟨1, []⟩ [(200 * Duration.nanosPerMilli, [0])] _ rfl rfl (by decide +kernel)
      (by decide +kernel)

end ServiceHost.Server
