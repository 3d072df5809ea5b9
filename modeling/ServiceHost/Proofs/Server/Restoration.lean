import ServiceHost.Proofs.Server.CloseTimeout
import ServiceHost.Proofs.Server.Registering
/-!
A server takes back what it has registered.

The processes of a server register its own meters when they are prepared, each in its place, and
take them back when they are shut down.  So of the names that the owner's processes spare, the
registry of a run that goes through all its stages shows the same before and after it, and those of
the server's own meters in between, whatever ended the run and whatever the shutdowns returned
(`registry_restored`).  There is one exception.  Telemetry removes the durations of calls after
their number, and not if that is missing: if the owner's processes did not spare the number of
calls, the durations may be left, although nobody else has touched them (`durations_left_behind`).
-/

namespace ServiceHost.Server

open Engine

/-! ### What a server registers -/

/-- What the server registers: the version with the metrics pages, and the meter of calls, if there
is one, with telemetry. -/
def plan (version : Nat × Metrics.VersionMeter) (calls : Option (Nat × Metrics.CallMeter)) :
    Metrics.Plan
  | 2 => some (version.1, .version version.2)
  | 4 => calls.map fun x => (x.1, .calls x.2)
  | _ => none

section Plans

variable {version : Nat × Metrics.VersionMeter} {calls : Option (Nat × Metrics.CallMeter)} {k : Nat}

/-- Only these meters are registered. -/
theorem plan_cases {place : Nat} {m : Metrics.Meter} (h : plan version calls k = some (place, m)) :
    (place = version.1 ∧ m = .version version.2) ∨
      ∃ x ∈ calls, place = x.1 ∧ m = .calls x.2 := by
  unfold plan at h
  split at h
  · cases h
    exact .inl ⟨rfl, rfl⟩
  · obtain ⟨x, hx, heq⟩ := Option.map_eq_some_iff.1 h
    cases heq
    exact .inr ⟨x, hx, rfl, rfl⟩
  · cases h

/-- The names of the server's own meters are different. -/
theorem nodup_plan (version : Nat × Metrics.VersionMeter)
    (calls : Option (Nat × Metrics.CallMeter)) :
    (((plan version calls).before 5).map (·.name)).Nodup := by
  cases calls with
  | none =>
    simp [Metrics.Plan.before, List.range_succ, Metrics.Plan.collectors, plan,
      Metrics.Meter.collectors]
  | some x =>
    have hnames := Metrics.names_nodup x.2.namesp
    simpa [Metrics.Plan.before, List.range_succ, Metrics.Plan.collectors, plan,
      Metrics.Meter.collectors] using hnames

/-- After telemetry nothing is registered. -/
theorem before_eq (hk : 5 ≤ k) :
    (plan version calls).before k = (plan version calls).before 5 := by
  induction k, hk using Nat.le_induction with
  | base => rfl
  | succ k hk ih =>
    obtain ⟨k, rfl⟩ := Nat.exists_eq_add_of_le' hk
    rw [Metrics.Plan.before_succ_of_none rfl, ih]

/-- Whatever has been registered so far has different names. -/
theorem nodup_before (version : Nat × Metrics.VersionMeter)
    (calls : Option (Nat × Metrics.CallMeter)) (k : Nat) :
    (((plan version calls).before k).map (·.name)).Nodup := by
  have hbefore : List.Sublist ((plan version calls).before k) ((plan version calls).before 5) := by
    rcases Nat.le_total k 5 with hk | hk
    · exact Metrics.Plan.before_sublist _ hk
    · rw [before_eq hk]
  exact (nodup_plan version calls).sublist (hbefore.map _)

/-- Only the durations of calls stand behind another collector, which is their number. -/
theorem behind_plan {spared : String → Prop} {c : Metrics.Collector}
    (h : (plan version calls).Behind spared c) :
    ∃ x ∈ calls, c = ⟨Metrics.CallMeter.durationsName x.2.namesp, x.1, .durations⟩ ∧
      ¬ spared (Metrics.CallMeter.requestsName x.2.namesp) := by
  obtain ⟨k, o, later, hsuffix, ho, hc⟩ := h
  match k with
  | 0 | 1 | 3 | _ + 5 => cases List.suffix_nil.1 hsuffix
  | 2 =>
    -- the version has no other collector behind it
    rcases List.suffix_cons_iff.1 hsuffix with heq | hsuffix
    · obtain ⟨-, rfl⟩ := List.cons.inj heq
      cases hc
    · cases List.suffix_nil.1 hsuffix
  | 4 =>
    cases calls with
    | none => cases List.suffix_nil.1 hsuffix
    | some x =>
      refine ⟨x, rfl, ?_⟩
      rcases List.suffix_cons_iff.1 hsuffix with heq | hsuffix
      · obtain ⟨rfl, rfl⟩ := List.cons.inj heq
        exact ⟨List.mem_singleton.1 hc, ho⟩
      · rcases List.suffix_cons_iff.1 hsuffix with heq | hsuffix
        · obtain ⟨-, rfl⟩ := List.cons.inj heq
          cases hc
        · cases List.suffix_nil.1 hsuffix

end Plans

/-! ### The processes of a server -/

section Assembled

variable {s : Server Host} {site : Site} {sup : Supervisor Host} {metrics : Metrics.State}
  {telemetry : Option Telemetry.Service} {st : Metrics.State} {version : Nat × Metrics.VersionMeter}
  {calls : Option (Nat × Metrics.CallMeter)}

/-- What the supervisor of a server is made of. -/
theorem assemble_cases (h : s.assemble site = .ok (sup, metrics)) :
    ∃ (telemetry : Option Telemetry.Service) (st : Metrics.State),
      s.telemetryService = .ok (telemetry, st) ∧
      metrics = (st.add (.version { version := s.settings.appVersion })).1 ∧
      sup.processes = s.systemComponents site st.meters.length ++
        (telemetry.map fun t =>
          t.component Host.telemetryPlaces site.coloured site.closings).toList ++ s.components ∧
      ∀ f, sup.announcer = some f → ∃ text, f = Host.print text := by
  unfold assemble at h
  split at h
  next => cases h
  next telemetry st hservice =>
    obtain ⟨rfl, rfl⟩ := Prod.mk.inj (Except.ok.inj h)
    refine ⟨telemetry, st, hservice, rfl, rfl, fun f hf => ?_⟩
    dsimp only at hf
    split at hf
    · exact ⟨_, (Option.some.inj hf).symm⟩
    · cases hf

/-- The meter with which telemetry counts calls, if it does, and its place among the meters. -/
structure Counts (s : Server Host) (telemetry : Option Telemetry.Service) (st : Metrics.State)
    (calls : Option (Nat × Metrics.CallMeter)) : Prop where
  isSome_eq : calls.isSome = (s.telemetry && Telemetry.countsCalls s.settings)
  namesp : ∀ x ∈ calls, x.2.namesp = s.settings.telemetry.metrics.namesp
  there : ∀ x ∈ calls, st.meters[x.1]? = some (.calls x.2)
  registry : st.registry = s.metrics.registry
  none : calls = none → ∀ t ∈ telemetry, t.meter = none
  some : ∀ x ∈ calls, ∃ t, telemetry = some t ∧ t.meter = some x.1 ∧
    Telemetry.countsCalls t.settings = true

theorem counts_none (hoff : (s.telemetry && Telemetry.countsCalls s.settings) = false)
    (hmeter : ∀ t ∈ telemetry, t.meter = none) : s.Counts telemetry s.metrics none where
  isSome_eq := hoff.symm
  namesp _ hx := by cases hx
  there _ hx := by cases hx
  registry := rfl
  none _ := hmeter
  some _ hx := by cases hx

/-- Telemetry counts calls with a meter that it adds to the others, or counts none. -/
theorem exists_counts (h : s.telemetryService = .ok (telemetry, st)) :
    ∃ calls, s.Counts telemetry st calls := by
  unfold telemetryService at h
  split at h
  next htelemetry =>
    unfold Telemetry.Service.create at h
    split at h
    next hcounts =>
      rcases hcreate : Metrics.CallMeter.create s.settings.telemetry.metrics.namesp with fault | meter
      · rw [hcreate] at h
        cases h
      · rw [hcreate] at h
        cases h
        refine ⟨some (s.metrics.meters.length, meter), ?_⟩
        constructor
        case isSome_eq => rw [htelemetry, hcounts, Option.isSome_some, Bool.true_and]
        case registry => rfl
        case none => exact fun hnone => by cases hnone
        all_goals rintro x ⟨⟩
        · exact congrArg _ (Metrics.CallMeter.eq_of_create hcreate)
        · exact List.getElem?_concat_length
        · exact ⟨_, rfl, rfl, hcounts⟩
    next hcounts =>
      cases h
      refine ⟨none, counts_none ?_ ?_⟩
      · rw [Bool.eq_false_iff.2 hcounts, Bool.and_false]
      · rintro t ⟨⟩
        rfl
  next htelemetry =>
    cases h
    refine ⟨none, counts_none ?_ ?_⟩
    · rw [Bool.eq_false_iff.2 htelemetry, Bool.false_and]
    · rintro t ⟨⟩

/-- All that a process of the owner does spares the names. -/
structure Careful (spared : String → Prop) (p : Component Host) : Prop where
  prepare : p.prepare.Respects (Host.Spares spared)
  run : p.run.Respects (Host.Spares spared)
  close : p.close.Respects (Host.Spares spared)

/-- Which process of a server is in which place, and what telemetry counts calls with. -/
inductive Placed (s : Server Host) (site : Site) (version : Nat × Metrics.VersionMeter) :
    Option (Nat × Metrics.CallMeter) → Nat → Component Host → Prop
  | grpc {calls : Option (Nat × Metrics.CallMeter)} :
      Placed s site version calls 0 (s.grpcServer.component Host.grpcSlot site.grpc)
  | gateway {calls : Option (Nat × Metrics.CallMeter)} :
      Placed s site version calls 1
        ((s.gatewayServer site.files).component Host.gatewaySlot site.gateway)
  | pages {calls : Option (Nat × Metrics.CallMeter)} :
      Placed s site version calls 2
        ((s.metricsServer version.1).component Host.pagesSlot Host.metricsSlot site.pages)
  | profiles {calls : Option (Nat × Metrics.CallMeter)} :
      Placed s site version calls 3 (s.profilingServer.component Host.profilesSlot site.profiles)
  | quiet {t : Telemetry.Service} (meter : t.meter = none) :
      Placed s site version none 4 (t.component Host.telemetryPlaces site.coloured site.closings)
  | counting {t : Telemetry.Service} {x : Nat × Metrics.CallMeter} (meter : t.meter = some x.1)
      (counts : Telemetry.countsCalls t.settings = true) :
      Placed s site version (some x) 4
        (t.component Host.telemetryPlaces site.coloured site.closings)
  | owner {calls : Option (Nat × Metrics.CallMeter)} {k : Nat} {p : Component Host}
      (mem : p ∈ s.components) (nothing : plan version calls k = none) :
      Placed s site version calls k p

/-- Every process of a server is in its place. -/
theorem placed (hcounts : s.Counts telemetry st calls) {k : Nat} {p : Component Host}
    (hp : (s.systemComponents site version.1 ++ (telemetry.map fun t =>
      t.component Host.telemetryPlaces site.coloured site.closings).toList ++ s.components)[k]? =
        some p) : s.Placed site version calls k p := by
  match k with
  | 0 =>
    obtain rfl := Option.some.inj hp
    exact .grpc
  | 1 =>
    obtain rfl := Option.some.inj hp
    exact .gateway
  | 2 =>
    obtain rfl := Option.some.inj hp
    exact .pages
  | 3 =>
    obtain rfl := Option.some.inj hp
    exact .profiles
  | k + 4 =>
    rw [List.append_assoc] at hp
    replace hp : ((telemetry.map fun t => t.component Host.telemetryPlaces site.coloured
        site.closings).toList ++ s.components)[k]? = some p := hp
    -- the owner's processes come after telemetry, if there is telemetry
    cases telemetry with
    | none =>
      have hnone : calls = none := by
        refine Option.eq_none_iff_forall_not_mem.2 fun x hx => ?_
        obtain ⟨t, ht, -⟩ := hcounts.some x hx
        cases ht
      obtain rfl := hnone
      exact .owner (List.mem_of_getElem? hp) (by cases k <;> rfl)
    | some t =>
      cases k with
      | succ k => exact .owner (List.mem_of_getElem? hp) rfl
      | zero =>
        obtain rfl := Option.some.inj hp
        cases calls with
        | none => exact .quiet (hcounts.none rfl t rfl)
        | some x =>
          obtain ⟨_, ⟨⟩, hmeter, hsettings⟩ := hcounts.some x rfl
          exact .counting hmeter hsettings

/-- Every process of a server takes back what it registers. -/
theorem Placed.undoes {spared : String → Prop} {base : Metrics.Registry} {k : Nat}
    {p : Component Host} (hplaced : s.Placed site version calls k p)
    (hcomponents : ∀ p ∈ s.components, Careful spared p) :
    Supervisor.Undoes (Host.Spares spared) (Filled spared base (plan version calls))
      (Emptied spared base (plan version calls)) k p := by
  have hgrpc : Apart Host.grpcSlot := fun _ _ _ => Host.spares_of_eq rfl rfl
  have hgateway : Apart Host.gatewaySlot := fun _ _ _ => Host.spares_of_eq rfl rfl
  have hprofiles : Apart Host.profilesSlot := fun _ _ _ => Host.spares_of_eq rfl rfl
  cases hplaced with
  | grpc =>
    exact undoes_of_serving hgrpc rfl (fun _ => .ok)
      ((Listener.respects_binding (hgrpc spared) _ _).act fun _ h => refl h) rfl rfl
  | gateway =>
    exact undoes_of_serving hgateway rfl (Listener.inTimeOrFail Gateway.Server.name)
      ((Listener.respects_binding (hgateway spared) _ _).act fun _ h => refl h) rfl rfl
  | pages => exact undoes_metrics (s.metricsServer version.1) site.pages rfl
  | profiles =>
    exact undoes_of_serving hprofiles rfl (Listener.inTimeOrFail Profiling.Server.name)
      (Listener.respects_binding (hprofiles spared) _ _) rfl rfl
  | quiet hmeter => exact undoes_telemetry_of_none hmeter _ _ rfl
  | counting hmeter hcounts => exact undoes_telemetry hmeter hcounts _ _ rfl
  | owner hmem hplan =>
    obtain ⟨hprepare, hrun, hclose⟩ := hcomponents p hmem
    exact undoes_of_respects hplan hprepare hrun hclose

/-- The names of the server's own meters. -/
def ownNames (s : Server Host) : List String :=
  Metrics.versionName :: if s.telemetry && Telemetry.countsCalls s.settings then
    [Metrics.CallMeter.requestsName s.settings.telemetry.metrics.namesp,
      Metrics.CallMeter.durationsName s.settings.telemetry.metrics.namesp]
  else []

/-- What may remain of the server's own collectors: nothing, or, if the number of calls is not
spared, their durations. -/
inductive Remains (s : Server Host) (spared : String → Prop) : List Metrics.Collector → Prop
  | nothing : Remains s spared []
  | durations (place : Nat)
      (hcounts : (s.telemetry && Telemetry.countsCalls s.settings) = true)
      (hrequests :
        ¬ spared (Metrics.CallMeter.requestsName s.settings.telemetry.metrics.namesp)) :
      Remains s spared [⟨Metrics.CallMeter.durationsName s.settings.telemetry.metrics.namesp, place,
        .durations⟩]

/-- No more than that is left when all steps have been taken back. -/
theorem remains_of_left {spared : String → Prop} (hcounts : s.Counts telemetry st calls)
    {left : List Metrics.Collector} (hleft : Metrics.Left spared (plan version calls) 0 left) :
    s.Remains spared left := by
  cases left with
  | nil => exact .nothing
  | cons c others =>
    obtain ⟨x, hx, hc, hrequests⟩ := behind_plan (hleft.behind c List.mem_cons_self)
    -- another collector would have the same name
    have hnone : others = [] := by
      refine List.eq_nil_iff_forall_not_mem.2 fun c' hc' => ?_
      obtain ⟨x', hx', hsame, -⟩ := behind_plan (hleft.behind c' (List.mem_cons_of_mem _ hc'))
      obtain rfl : x' = x := Option.some.inj (hx'.symm.trans hx)
      have hnames : ((c :: others).map (·.name)).Nodup := hleft.names
      rw [List.map_cons, List.nodup_cons] at hnames
      refine hnames.1 ?_
      rw [hc, ← hsame]
      exact List.mem_map_of_mem hc'
    have hcalls : calls.isSome = true := Option.isSome_iff_exists.2 ⟨x, hx⟩
    rw [hcounts.namesp x hx] at hc hrequests
    rw [hnone, hc]
    exact .durations x.1 (hcounts.isSome_eq.symm.trans hcalls) hrequests

/-- A host whose registry has not changed meets the first condition. -/
theorem filled_newHost (spared : String → Prop) (site : Site) (journal : Logging.Journal)
    {base : Metrics.Registry} (hregistry : metrics.registry = base)
    (hversion : metrics.meters[version.1]? = some (.version version.2))
    (hcalls : ∀ x ∈ calls, metrics.meters[x.1]? = some (.calls x.2)) :
    Filled spared base (plan version calls) 0 (newHost site metrics journal) := by
  subst hregistry
  refine ⟨⟨fun k place m hm => ?_, .refl ..⟩, rfl⟩
  obtain ⟨rfl, rfl⟩ | ⟨x, hx, rfl, rfl⟩ := plan_cases hm
  · exact ⟨_, hversion, rfl⟩
  · exact ⟨_, hcalls x hx, rfl⟩

/-- So does the host of a server with its version among the meters. -/
theorem Counts.begins (hcounts : s.Counts telemetry st calls) (spared : String → Prop) (site : Site)
    (journal : Logging.Journal) (version : Metrics.VersionMeter) :
    Filled spared s.metrics.registry (plan (st.meters.length, version) calls) 0
      (newHost site (st.add (.version version)).1 journal) := by
  refine filled_newHost _ site journal hcounts.registry List.getElem?_concat_length ?_
  intro x hx
  have hthere := hcounts.there x hx
  exact (List.getElem?_append_left (List.getElem?_eq_some_iff.1 hthere).1).trans hthere

/-- The server's own names are registered by the processes that count, once all are prepared. -/
theorem exists_collector (hcounts : s.Counts telemetry st calls) {n : Nat} (hn : 2 < n)
    (hcalls : calls.isSome → 4 < n) {name : String} (hname : name ∈ s.ownNames) :
    ∃ c ∈ (plan version calls).before n, c.name = name := by
  have hbefore (i : Nat) (hi : i < n) {c : Metrics.Collector}
      (hc : c ∈ (plan version calls).collectors i) : c ∈ (plan version calls).before n :=
    List.mem_flatMap.2 ⟨i, List.mem_range.2 hi, hc⟩
  rw [ownNames, List.mem_cons, ← hcounts.isSome_eq] at hname
  rcases hname with rfl | hname
  · exact ⟨_, hbefore 2 hn List.mem_cons_self, rfl⟩
  · cases calls with
    | none => cases hname
    | some x =>
      rw [Option.isSome_some, if_pos rfl, ← hcounts.namesp x rfl, List.mem_pair] at hname
      rcases hname with rfl | rfl
      · exact ⟨_, hbefore 4 (hcalls rfl) List.mem_cons_self, rfl⟩
      · exact ⟨_, hbefore 4 (hcalls rfl) (List.mem_cons_of_mem _ List.mem_cons_self), rfl⟩

/-- The processes of a server take back what they register, but for what may remain, and they
register its own names. -/
theorem exists_plan {spared : String → Prop} (hassemble : s.assemble site = .ok (sup, metrics))
    (hcomponents : ∀ p ∈ s.components, Careful spared p) :
    ∃ plan : Metrics.Plan,
      (∀ k p, sup.processes[k]? = some p → Supervisor.Undoes (Host.Spares spared)
        (Filled spared s.metrics.registry plan) (Emptied spared s.metrics.registry plan) k p) ∧
      (∀ journal, Filled spared s.metrics.registry plan 0 (newHost site metrics journal)) ∧
      (∀ k, ((plan.before k).map (·.name)).Nodup) ∧
      (∀ name ∈ s.ownNames, ∃ c ∈ plan.before sup.processes.length, c.name = name) ∧
      ∀ left, Metrics.Left spared plan 0 left → s.Remains spared left := by
  obtain ⟨telemetry, st, hservice, rfl, hprocesses, -⟩ := assemble_cases hassemble
  obtain ⟨calls, hcounts⟩ := exists_counts hservice
  have hlength : 4 ≤ sup.processes.length := (assemble_eq_ok hassemble).2
  refine ⟨plan (st.meters.length, { version := s.settings.appVersion }) calls, fun k p hp => ?_,
    fun journal => hcounts.begins _ site journal _, nodup_before _ _, fun name => ?_,
    fun left => remains_of_left hcounts⟩
  · rw [hprocesses] at hp
    have hplaced : s.Placed site (st.meters.length, { version := s.settings.appVersion }) calls k p :=
      placed hcounts hp
    exact hplaced.undoes hcomponents
  · refine exists_collector hcounts (by omega) fun hcalls => ?_
    obtain ⟨x, hx⟩ := Option.isSome_iff_exists.1 hcalls
    obtain ⟨t, rfl, -⟩ := hcounts.some x hx
    rw [hprocesses]
    simp [systemComponents]

/-! ### The registry of a run -/

/-- What a registry shows before a run, when all processes are prepared, when the wait for the end
is over, and after the run. -/
structure Restored (spared : String → Prop) (own : List String) (left : List Metrics.Collector)
    (before prepared ended after : Metrics.Registry) : Prop where
  /-- Afterwards it shows the same collectors as before, and what is left. -/
  mem_iff : ∀ c : Metrics.Collector, spared c.name → (c ∈ after ↔ c ∈ before ∨ c ∈ left)
  /-- Its own names are there in between, and only then, unless they are left. -/
  own : ∀ name ∈ own, spared name → before.has name = false ∧ prepared.has name = true ∧
    ended.has name = true ∧ (after.has name = true ↔ ∃ c ∈ left, c.name = name)

/-- Own collectors are shown while they are registered. -/
theorem has_of_filled {spared : String → Prop} {base : Metrics.Registry} {plan : Metrics.Plan}
    {k : Nat} {h : Host} (hfilled : Filled spared base plan k h) {c : Metrics.Collector}
    (hc : c ∈ plan.before k) (hspared : spared c.name) :
    base.has c.name = false ∧ h.metrics.registry.has c.name = true := by
  refine ⟨hfilled.metrics.shows.has_eq_false hc hspared, ?_⟩
  exact Metrics.Registry.has_of_mem ((hfilled.metrics.shows.mem_iff c hspared).2 (.inr hc))

/-- **A run that returns takes back what it has registered.**  Let the processes of the owner spare
some names of the registry.  If all processes of a server have been prepared, and its run returns,
whatever ended it and whatever the shutdowns returned, then of the names that are spared the
registry shows the same collectors as before; and those of the server's own meters, which were not
there before, were there from the preparations to the end of the wait.  Only the durations of calls
may be left, if their number is not spared. -/
theorem registry_restored (sch : Schedule Host) (s : Server Host) (site : Site)
    (journal : Logging.Journal) (outer : Scope) (tokens : Tokens) (outside : List (Nat × Token))
    {spared : String → Prop} (hcomponents : ∀ p ∈ s.components, Careful spared p) {time : Nat}
    {result : Except HostError Unit}
    (hrunning : (s.run sch site journal outer tokens outside).1.enteredAt? .running = some time)
    (hreturned : (s.run sch site journal outer tokens outside).2 = .returned result) :
    ∃ (sup : Supervisor Host) (metrics : Metrics.State) (e₁ e₂ : Engine Host)
      (left : List Metrics.Collector),
      s.assemble site = .ok (sup, metrics) ∧
      Supervisor.Stops sch sup outer
        (Supervisor.begin (newHost site metrics journal) tokens outside site.clock) e₁ e₂ ∧
      s.Remains spared left ∧
      Restored spared s.ownNames left s.metrics.registry e₁.world.metrics.registry
        e₂.world.metrics.registry
        (s.run sch site journal outer tokens outside).1.world.metrics.registry := by
  obtain ⟨sup, metrics, hassemble, hrun⟩ := exists_supervisor_of_entered (by simp) hrunning
  rw [hrun] at hrunning hreturned ⊢
  have he := Supervisor.fresh_begin (newHost site metrics journal) tokens outside site.clock
  obtain ⟨e₁, e₂, hstops⟩ :=
    Supervisor.stops_of_entered he (.inr ⟨entered_mem_deeds hrunning, result, hreturned⟩)
  obtain ⟨plan, hundoes, hbegins, hnodup, hown, hremains⟩ := exists_plan hassemble hcomponents
  have hannouncer (f : Host → Host) (hf : sup.announcer = some f) (h : Host) :
      Host.Spares spared h (f h) := by
    obtain ⟨_, _, -, -, -, hprints⟩ := assemble_cases hassemble
    obtain ⟨text, rfl⟩ := hprints f hf
    exact Host.spares_of_eq rfl rfl
  obtain ⟨hprepared, hended, left, hleft, hafter⟩ := hstops.undone he hannouncer
    (fun _ _ hspares hfilled => hfilled.of_spares hspares)
    (fun _ hfilled => hfilled.emptied (hnodup _))
    (fun _ _ hspares hemptied => hemptied.of_spares hspares) hundoes (hbegins journal) hreturned
  have hshows := hafter.metrics.shows
  refine ⟨sup, metrics, e₁, e₂, left, hassemble, hstops, hremains left hleft, hshows.mem_iff,
    fun name hname hspared => ?_⟩
  obtain ⟨c, hc, rfl⟩ := hown name hname
  obtain ⟨hbefore, hhas₁⟩ := has_of_filled hprepared hc hspared
  obtain ⟨-, hhas₂⟩ := has_of_filled hended hc hspared
  refine ⟨hbefore, hhas₁, hhas₂, hshows.has_iff hspared hbefore⟩

/-- A process of the owner that adds a collector of its own, and leaves it there. -/
def jobs : Component Host where
  name := "jobs"
  prepare := [.act fun _ => fun h => (Host.metricsSlot.modify (fun st =>
    { st with registry := st.registry ++ [⟨"jobs_total", 0, .requests⟩] }) h, none)]

theorem careful_jobs : Careful (· ≠ "jobs_total") jobs where
  prepare := by
    refine Routine.respects_nil.act fun _ h => ⟨rfl, .refl _, fun c hc => ?_⟩
    have hother : c ∉ [(⟨"jobs_total", 0, .requests⟩ : Metrics.Collector)] :=
      fun hmem => hc (List.mem_singleton.1 hmem ▸ rfl)
    exact List.mem_append.trans (or_iff_left hother)
  run := Routine.respects_nil
  close := Routine.respects_nil

/-- A server that counts calls, with a process of its owner. -/
def countingServer : Server Host where
  settings := { telemetry := { metrics := { enabled := true } } }
  components := [jobs]
  telemetry := true

/-- Its metrics pages never come to an end. -/
def endlessPages : Site where
  hostname := "host"
  pages := { linger := none }

/-- The registry is restored although the metrics pages are not shut down in time. -/
theorem registry_restored_late :
    let r := countingServer.run .usual endlessPages {} ⟨[0], none⟩ ⟨1, []⟩
      [(200 * Duration.nanosPerMilli, [0])]
    r.2 = .returned (.error (.shutdown 2 (.host (.shutdownTimeout Metrics.Server.name)))) ∧
      ∃ prepared ended, Restored (· ≠ "jobs_total")
        [Metrics.versionName, "app_grpc_requests_total", "app_grpc_request_duration_seconds"] [] []
        prepared ended r.1.world.metrics.registry := by
  have hcomponents (p : Component Host) (hp : p ∈ countingServer.components) :
      Careful (· ≠ "jobs_total") p := List.mem_singleton.1 hp ▸ careful_jobs
  have hreturned : (countingServer.run .usual endlessPages {} ⟨[0], none⟩ ⟨1, []⟩
      [(200 * Duration.nanosPerMilli, [0])]).2 =
      .returned (.error (.shutdown 2 (.host (.shutdownTimeout Metrics.Server.name)))) := by
    decide +kernel
  have hrunning : (countingServer.run .usual endlessPages {} ⟨[0], none⟩ ⟨1, []⟩
      [(200 * Duration.nanosPerMilli, [0])]).1.enteredAt? .running = some 0 := by decide +kernel
  obtain ⟨-, -, e₁, e₂, left, -, -, hremains, hrestored⟩ := registry_restored .usual countingServer
    endlessPages {} ⟨[0], none⟩ ⟨1, []⟩ [(200 * Duration.nanosPerMilli, [0])] hcomponents hrunning
    hreturned
  cases hremains with
  | nothing => exact ⟨hreturned, _, _, hrestored⟩
  | durations _ _ hrequests => exact absurd (by decide) hrequests

/-- A process of the owner that removes the number of calls from the registry when it is shut
down. -/
def meddling : Component Host where
  name := "meddling"
  close := [.act fun _ => fun h => (Host.metricsSlot.modify (fun st =>
    { st with registry := st.registry.filter (·.name != "app_grpc_requests_total") }) h, none)]

/-- A server that counts calls, with this process. -/
def meddledServer : Server Host :=
  { countingServer with components := [meddling] }

theorem careful_meddling : Careful (· ≠ "app_grpc_requests_total") meddling where
  prepare := Routine.respects_nil
  run := Routine.respects_nil
  close := by
    refine Routine.respects_nil.act fun _ h => ⟨rfl, .refl _, fun c hc => ?_⟩
    have hkept : (c.name != "app_grpc_requests_total") = true := bne_iff_ne.2 hc
    exact List.mem_filter.trans (and_iff_left hkept)

/-- The durations of calls were not there before the run, and its owner spared them; and they are
there after it. -/
theorem durations_left_behind :
    (∀ p ∈ meddledServer.components, Careful (· ≠ "app_grpc_requests_total") p) ∧
      let r := meddledServer.run .usual { hostname := "host" } {} ⟨[0], none⟩ ⟨1, []⟩
        [(200 * Duration.nanosPerMilli, [0])]
      r.1.enteredAt? .running = some 0 ∧
        r.2 = .returned (.error (.shutdown 4 (.host (.telemetryShutdown
          ["metrics unregister: Error: collector <desc> is not registered"])))) ∧
        meddledServer.metrics.registry = [] ∧
        r.1.world.metrics.registry = [⟨"app_grpc_request_duration_seconds", 0, .durations⟩] := by
  refine ⟨fun p hp => List.mem_singleton.1 hp ▸ careful_meddling, ?_⟩
  decide +kernel

end Assembled

end ServiceHost.Server
