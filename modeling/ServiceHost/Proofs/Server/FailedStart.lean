import ServiceHost.Proofs.Server.Restoration
/-!
What a server that fails to start leaves in its registry.

When a process cannot be prepared the run is over, and nothing is shut down.  So what the processes
before it have registered stays in the registry, and with it what telemetry has registered itself,
if it fails at a part that it sets up later.  `Leaves` tells which of the server's own names are
there then, by the process that fails; the main result is `failed_start_leaves`.  Only a failure of
one of the first three processes leaves the registry as it was, and a server that is started again
over what another one has left does not come further than to its metrics pages
(`failed_start_not_taken_back`).
-/

namespace ServiceHost.Server

open Engine
open Telemetry (Part setupError)
open Telemetry.Service

/-! ### Preparations that fail -/

/-- How many of the two collectors of calls are registered when telemetry cannot set up a part. -/
def Reached : Part → Nat → Prop
  | .tracing, n => n = 0
  | .metrics, n => n < 2
  | .logging, n | .profiling, n => n = 2

/-- What is shown when a process could not be prepared: what was registered before its preparation,
and if it is telemetry with a meter of calls, some of the collectors of that. -/
inductive Stuck (spared : String → Prop) (base : Metrics.Registry) (plan : Metrics.Plan)
    (source : ComponentError) (h : Host) : Nat → Prop
  | before {k : Nat} (hplan : k = 4 → plan 4 = none)
      (hshows : Metrics.Registry.Shows spared base (plan.before k) h.metrics.registry) :
      Stuck spared base plan source h k
  | within {part : Part} {fault : Telemetry.SetupFault} {n : Nat}
      (hsource : source = .host (setupError part fault)) (hreached : Reached part n)
      (hplan : (plan 4).isSome)
      (hshows : Metrics.Registry.Shows spared base (plan.before 4 ++ (plan.collectors 4).take n)
        h.metrics.registry) :
      Stuck spared base plan source h 4

section Processes

variable {spared : String → Prop} {base : Metrics.Registry} {plan : Metrics.Plan} {k place : Nat}
  {h h' : Host} {p : Component Host} {source : ComponentError}

/-- A process that registers nothing. -/
theorem stuck_of_respects (hprepare : p.prepare.Respects (Host.Spares spared))
    (hplan : k = 4 → plan 4 = none) (hfilled : Filled spared base plan k h) :
    p.prepare.Leads (Host.Spares spared)
      (fun o h' => o = .failed source → Stuck spared base plan source h' k) h := by
  apply hprepare.leads
  intro _ h' hspares _
  exact .before hplan (hfilled.of_spares hspares).metrics.shows

/-- The metrics pages register nothing if they fail: they have a single collector. -/
theorem stuck_metrics {s : Metrics.Server} {traffic : Traffic} {m : Metrics.VersionMeter}
    (hplan : plan 2 = some (s.version, .version m)) (hfilled : Filled spared base plan 2 h) :
    (s.component Host.pagesSlot Host.metricsSlot traffic).prepare.Leads (Host.Spares spared)
      (fun o h' => o = .failed source → Stuck spared base plan source h' 2) h := by
  have hslot : Apart Host.pagesSlot := fun _ _ _ => Host.spares_of_eq rfl rfl
  refine (Metrics.Server.leads_prepare (hslot spared) traffic h).mono fun o h' hprepared ho => ?_
  cases hprepared with
  | unbound before => exact .before (by omega) (hfilled.of_spares before).metrics.shows
  | refused before registers =>
    obtain ⟨n, hn, hshows⟩ := (hfilled.of_spares before).metrics.register_refused hplan registers
    have hone : (plan.collectors 2).length = 1 := by
      rw [Metrics.Plan.collectors, hplan]
      rfl
    obtain rfl : n = 0 := by omega
    rw [List.take_zero, List.append_nil] at hshows
    exact .before (by omega) hshows
  | registered => cases ho

/-- Telemetry keeps what it has registered when it fails later. -/
theorem stuck_telemetry {s : Telemetry.Service} {m : Metrics.CallMeter}
    (hmeter : s.meter = some place) (hcounts : Telemetry.countsCalls s.settings = true)
    (coloured : Bool) (c : Telemetry.Closings) (hplan : plan 4 = some (place, .calls m))
    (hfilled : Filled spared base plan 4 h) :
    (s.component Host.telemetryPlaces coloured c).prepare.Leads (Host.Spares spared)
      (fun o h' => o = .failed source → Stuck spared base plan source h' 4) h := by
  have hsome : (plan 4).isSome := by
    rw [hplan]
    rfl
  have htwo : (plan.collectors 4).length = 2 := by
    rw [Metrics.Plan.collectors, hplan]
    rfl
  refine (leads_prepare (Host.minor_spares spared) hmeter hcounts coloured h).mono
    fun o h' hprepared ho => ?_
  cases hprepared with
  | untraced before =>
    have hreached : Reached .tracing 0 := rfl
    refine .within (Outcome.failed.inj ho).symm hreached hsome ?_
    rw [List.take_zero, List.append_nil]
    exact (hfilled.of_spares before).metrics.shows
  | refused before registers =>
    obtain ⟨n, hn, hshows⟩ := (hfilled.of_spares before).metrics.register_refused hplan registers
    have hreached : Reached .metrics n := (htwo ▸ hn : n < 2)
    exact .within (Outcome.failed.inj ho).symm hreached hsome hshows
  | registered before registers after ends =>
    have hshows := (((hfilled.of_spares before).metrics.register hplan registers).of_spared
      after.meters after.registry).shows
    rw [plan.before_succ, ← List.take_of_length_le (Nat.le_of_eq htwo)] at hshows
    obtain ⟨part, fault, hpart, rfl⟩ := ends.resolve_left fun hok => by cases hok.symm.trans ho
    have hreached : Reached part 2 := by
      rcases hpart with rfl | rfl <;> rfl
    exact .within (Outcome.failed.inj ho).symm hreached hsome hshows

end Processes

/-! ### The processes of a server -/

section Assembled

variable {s : Server Host} {site : Site} {spared : String → Prop} {base : Metrics.Registry}
  {telemetry : Option Telemetry.Service} {st : Metrics.State} {version : Nat × Metrics.VersionMeter}
  {calls : Option (Nat × Metrics.CallMeter)} {source : ComponentError} {h : Host}

/-- What every process of a server leaves when it cannot be prepared. -/
theorem Placed.stuck {k : Nat} {p : Component Host} (hplaced : s.Placed site version calls k p)
    (hcomponents : ∀ p ∈ s.components, Careful spared p)
    (hfilled : Filled spared base (plan version calls) k h) :
    p.prepare.Leads (Host.Spares spared) (fun o h' => o = .failed source →
      Stuck spared base (plan version calls) source h' k) h := by
  have hgrpc : Apart Host.grpcSlot := fun _ _ _ => Host.spares_of_eq rfl rfl
  have hgateway : Apart Host.gatewaySlot := fun _ _ _ => Host.spares_of_eq rfl rfl
  have hprofiles : Apart Host.profilesSlot := fun _ _ _ => Host.spares_of_eq rfl rfl
  cases hplaced with
  | grpc =>
    refine stuck_of_respects (.act ?_ fun _ h => refl h) (by omega) hfilled
    exact Listener.respects_binding (hgrpc spared) _ _
  | gateway =>
    refine stuck_of_respects (.act ?_ fun _ h => refl h) (by omega) hfilled
    exact Listener.respects_binding (hgateway spared) _ _
  | pages => exact stuck_metrics (s := s.metricsServer version.1) rfl hfilled
  | profiles =>
    exact stuck_of_respects (Listener.respects_binding (hprofiles spared) _ _) (by omega) hfilled
  | quiet hmeter =>
    exact stuck_of_respects (respects_prepare (Host.minor_spares spared) hmeter _)
      (fun _ => rfl) hfilled
  | counting hmeter hcounts => exact stuck_telemetry hmeter hcounts _ _ rfl hfilled
  | owner hmem hplan =>
    exact stuck_of_respects (hcomponents p hmem).prepare (fun hk => hk ▸ hplan) hfilled

/-! ### What is left -/

/-- Which of the server's own names are registered when a process could not be prepared. -/
inductive Leaves (s : Server Host) (source : ComponentError) : Nat → List String → Prop
  | nothing {index : Nat} (hindex : index ≤ 2) : Leaves s source index []
  | version : Leaves s source 3 [Metrics.versionName]
  | telemetry {part : Part} {fault : Telemetry.SetupFault} {n : Nat}
      (hsource : source = .host (setupError part fault)) (hreached : Reached part n)
      (hcounts : (s.telemetry && Telemetry.countsCalls s.settings) = true) :
      Leaves s source 4 (s.ownNames.take (n + 1))
  | all {index : Nat} (hindex : 4 ≤ index)
      (hcounts : index = 4 → (s.telemetry && Telemetry.countsCalls s.settings) = false) :
      Leaves s source index s.ownNames

/-- Behind the metrics pages the version is among them. -/
theorem Leaves.version_mem {index : Nat} {names : List String}
    (hleaves : s.Leaves source index names) (hindex : 2 < index) :
    Metrics.versionName ∈ names := by
  cases hleaves with
  | nothing hle => omega
  | version => exact List.mem_singleton_self _
  | telemetry => exact List.mem_cons_self
  | all => exact List.mem_cons_self

/-- The collectors of a server have its own names. -/
theorem map_name_before (hcounts : s.Counts telemetry st calls) :
    ((plan version calls).before 5).map (·.name) = s.ownNames := by
  rw [ownNames, ← hcounts.isSome_eq]
  cases calls with
  | none => rfl
  | some x =>
    rw [← hcounts.namesp x rfl]
    rfl

/-- What is shown when a process could not be prepared has these names. -/
theorem Stuck.leaves (hcounts : s.Counts telemetry st calls) {index : Nat}
    (hstuck : Stuck spared base (plan version calls) source h index) :
    ∃ kept, s.Leaves source index (kept.map (·.name)) ∧
      Metrics.Registry.Shows spared base kept h.metrics.registry := by
  cases hstuck with
  | before hplan hshows =>
    refine ⟨_, ?_, hshows⟩
    match index with
    | 0 | 1 | 2 => exact .nothing (by omega)
    | 3 => exact .version
    | 4 =>
      have hnone : calls = none := by simpa [plan] using hplan rfl
      subst hnone
      have hsame : (plan version none).before 4 = (plan version none).before 5 := rfl
      rw [hsame, map_name_before hcounts]
      exact .all (Nat.le_refl 4) fun _ => hcounts.isSome_eq.symm
    | k + 5 =>
      rw [before_eq (Nat.le_add_left 5 k), map_name_before hcounts]
      exact .all (by omega) (by omega)
  | @within part fault n hsource hreached hplan hshows =>
    refine ⟨_, ?_, hshows⟩
    have htake : (plan version calls).before 4 ++ ((plan version calls).collectors 4).take n =
        ((plan version calls).before 5).take (n + 1) := by
      rw [Metrics.Plan.before_succ _ 4]
      rfl
    rw [htake, List.map_take, map_name_before hcounts]
    refine .telemetry hsource hreached ?_
    rw [← hcounts.isSome_eq]
    simpa [plan] using hplan

/-- A server whose run returns a failure to prepare was assembled. -/
theorem exists_supervisor_of_preRun {sch : Schedule Host} {journal : Logging.Journal}
    {outer : Scope} {tokens : Tokens} {outside : List (Nat × Token)}
    (hreturned : (s.run sch site journal outer tokens outside).2 =
      .returned (.error (.preRun source))) :
    ∃ sup metrics, s.assemble site = .ok (sup, metrics) ∧
      s.run sch site journal outer tokens outside =
        sup.run sch outer
          (Supervisor.begin (newHost site metrics journal) tokens outside site.clock) := by
  unfold run at hreturned ⊢
  cases hassemble : s.assemble site with
  | error fault =>
    -- a server that cannot be assembled has no process that could fail
    rw [hassemble] at hreturned
    unfold assemble at hassemble
    split at hassemble
    next => cases hassemble; cases hreturned
    next => cases hassemble
  | ok assembled => exact ⟨assembled.1, assembled.2, rfl, rfl⟩

/-- A server does not come to run over a registry that has the version already. -/
theorem not_running_of_has {sch : Schedule Host} {journal : Logging.Journal} {outer : Scope}
    {tokens : Tokens} {outside : List (Nat × Token)}
    (hcomponents : ∀ p ∈ s.components, Careful (· = Metrics.versionName) p)
    (hhas : s.metrics.registry.has Metrics.versionName = true) :
    (s.run sch site journal outer tokens outside).1.enteredAt? .running = none := by
  rw [Option.eq_none_iff_forall_not_mem]
  intro time hrunning
  obtain ⟨sup, metrics, hassemble, hrun⟩ := exists_supervisor_of_entered (by simp) hrunning
  rw [hrun] at hrunning
  have he := Supervisor.fresh_begin (newHost site metrics journal) tokens outside site.clock
  obtain ⟨plan, hundoes, hbegins, -, hown, -⟩ := exists_plan hassemble hcomponents
  obtain ⟨os, e', hvisits, hok⟩ :=
    Supervisor.allPrepared_of_entered he (entered_mem_deeds hrunning)
  -- once all processes are prepared the version is registered, so that it was not there before
  obtain ⟨-, hprepared⟩ := Supervisor.prepared_of_visits hvisits hok
    (fun j p hp => (Nat.zero_add j).symm ▸ hundoes j p hp) (Supervisor.respects_publish he _)
    (hbegins journal)
  obtain ⟨c, hc, hname⟩ := hown Metrics.versionName List.mem_cons_self
  rw [Nat.zero_add] at hprepared
  have hfree := (has_of_filled hprepared hc hname).1
  rw [hname, hhas] at hfree
  cases hfree

/-- **What a failed start leaves.**  Let the processes of the owner spare some names of the
registry.  If the run of a server returns that a process could not be prepared, there is a first
such process, and of the names that are spared the registry shows what it showed before and some of
the server's own collectors, which were not there before: none, if it is one of the first three
processes; the version, if it is the one after them; with it, if it is telemetry that counts calls,
what telemetry has registered itself before it failed; and all of them, if it is a later one.  Once
the version has been left there, no other server comes to run over the same registry. -/
theorem failed_start_leaves (sch : Schedule Host) (s : Server Host) (site : Site)
    (journal : Logging.Journal) (outer : Scope) (tokens : Tokens) (outside : List (Nat × Token))
    {spared : String → Prop} (hcomponents : ∀ p ∈ s.components, Careful spared p)
    {source : ComponentError}
    (hreturned : (s.run sch site journal outer tokens outside).2 =
      .returned (.error (.preRun source))) :
    ∃ (sup : Supervisor Host) (metrics : Metrics.State) (index : Nat)
      (kept : List Metrics.Collector),
      s.assemble site = .ok (sup, metrics) ∧
      Supervisor.FailsFirst sch sup outer
        (Supervisor.begin (newHost site metrics journal) tokens outside site.clock) index source ∧
      s.Leaves source index (kept.map (·.name)) ∧
      (∀ c ∈ kept, spared c.name → s.metrics.registry.has c.name = false) ∧
      (∀ c : Metrics.Collector, spared c.name →
        (c ∈ (s.run sch site journal outer tokens outside).1.world.metrics.registry ↔
          c ∈ s.metrics.registry ∨ c ∈ kept)) ∧
      (2 < index → spared Metrics.versionName → ∀ s' : Server Host,
        s'.metrics.registry =
          (s.run sch site journal outer tokens outside).1.world.metrics.registry →
        (∀ p ∈ s'.components, Careful (· = Metrics.versionName) p) →
        ∀ sch' site' journal' outer' tokens' outside',
          (s'.run sch' site' journal' outer' tokens' outside').1.enteredAt? .running = none) := by
  obtain ⟨sup, metrics, hassemble, hrun⟩ := exists_supervisor_of_preRun hreturned
  rw [hrun] at hreturned ⊢
  have he := Supervisor.fresh_begin (newHost site metrics journal) tokens outside site.clock
  obtain ⟨index, hfails⟩ := Supervisor.failsFirst_of_returned hreturned
  obtain ⟨telemetry, st, hservice, rfl, hprocesses, -⟩ := assemble_cases hassemble
  obtain ⟨calls, hcounts⟩ := exists_counts hservice
  let version : Nat × Metrics.VersionMeter :=
    (st.meters.length, { version := s.settings.appVersion })
  have hplaced (k : Nat) (p : Component Host) (hp : sup.processes[k]? = some p) :
      s.Placed site version calls k p := placed hcounts (hprocesses ▸ hp)
  have hstuck := hfails.leaves he (fun k p _ hp => (hplaced k p hp).undoes hcomponents)
    (hcounts.begins _ site journal version.2)
    (fun p _ hp hfilled => (hplaced index p hp).stuck hcomponents hfilled)
  obtain ⟨kept, hleaves, hshows⟩ := hstuck.leaves hcounts
  refine ⟨sup, _, index, kept, hassemble, hfails, hleaves, fun c => hshows.has_eq_false,
    hshows.mem_iff, fun hindex hspared s' hregistry hcareful' _ _ _ _ _ _ => ?_⟩
  obtain ⟨c, hc, hname⟩ := List.mem_map.1 (hleaves.version_mem hindex)
  refine not_running_of_has hcareful' ?_
  rw [hregistry, ← hname]
  exact Metrics.Registry.has_of_mem ((hshows.mem_iff c (hname ▸ hspared)).2 (.inr hc))

/-- A process of the owner that cannot be prepared. -/
def unready : Component Host where
  name := "bad"
  prepare := .failWith (some (.text "no"))

/-- A server that counts calls, with a process of its owner that adds a collector, and another one
that cannot be prepared. -/
def unreadyServer : Server Host :=
  { countingServer with components := [jobs, unready] }

/-- What the registry shows in the end are the server's own collectors. -/
theorem failed_start_leaves_unready :
    (unreadyServer.run .usual { hostname := "host" } {} ⟨[0], none⟩ ⟨1, []⟩ []).2 =
        .returned (.error (.preRun (.text "no"))) ∧
      ∃ kept index, unreadyServer.Leaves (.text "no") index kept ∧
        ∀ c : Metrics.Collector, c.name ≠ "jobs_total" →
          c ∈ (unreadyServer.run .usual { hostname := "host" } {} ⟨[0], none⟩ ⟨1, []⟩
            []).1.world.metrics.registry → c.name ∈ kept := by
  have hcomponents (p : Component Host) (hp : p ∈ unreadyServer.components) :
      Careful (· ≠ "jobs_total") p := by
    rcases List.mem_pair.1 hp with rfl | rfl
    · exact careful_jobs
    · exact ⟨Routine.respects_nil.act fun _ h => refl h, Routine.respects_nil,
        Routine.respects_nil⟩
  have hreturned : (unreadyServer.run .usual { hostname := "host" } {} ⟨[0], none⟩ ⟨1, []⟩ []).2 =
      .returned (.error (.preRun (.text "no"))) := by
    decide +kernel
  obtain ⟨-, -, index, kept, -, -, hleaves, -, hshows, -⟩ :=
    failed_start_leaves .usual unreadyServer { hostname := "host" } {} ⟨[0], none⟩ ⟨1, []⟩ []
      hcomponents hreturned
  refine ⟨hreturned, _, index, hleaves, fun c hc hmem => ?_⟩
  rcases (hshows c hc).1 hmem with hbefore | hkept
  · cases hbefore
  · exact List.mem_map_of_mem hkept

/-- A server with nothing but a process of its owner that cannot be prepared. -/
def plainServer : Server Host where
  settings := { grpcAddress := "127.0.0.1:0", httpAddress := "127.0.0.1:0"
                metricsAddress := "127.0.0.1:0", pprofAddress := "127.0.0.1:0" }
  components := [unready]

/-- The version stays in a registry that was empty, and a server without the process that could not
be prepared fails over it. -/
theorem failed_start_not_taken_back :
    let r := plainServer.run .usual { hostname := "host" } {} ⟨[0], none⟩ ⟨1, []⟩ []
    r.2 = .returned (.error (.preRun (.text "no"))) ∧
      plainServer.metrics.registry = [] ∧
      r.1.world.metrics.registry = [⟨Metrics.versionName, 0, .version⟩] ∧
      (({ plainServer with components := [], metrics := r.1.world.metrics } : Server Host).run
        .usual { hostname := "host" } {} ⟨[0], none⟩ ⟨1, []⟩ []).2 =
          .returned (.error (.preRun (.host (.metrics .duplicate)))) := by
  decide +kernel

end Assembled

end ServiceHost.Server
