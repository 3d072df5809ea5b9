import ServiceHost.Proofs.Lifecycle.Undoing
import ServiceHost.Proofs.Metrics.Registration
import ServiceHost.Proofs.Server.Registrants
import ServiceHost.Server.Host
/-!
Which processes register something, and that they take it back.

The metrics pages register the version when they are prepared, and telemetry, if it publishes
metrics, registers the meter of calls.  Each of them removes again what it has registered when it is
shut down, whether that comes in time or not and whatever else goes wrong (`undoes_metrics`,
`undoes_telemetry`).  All other processes register nothing; those of the owner may add and remove
collectors as they like, but for the names that they spare (`Host.Spares`).  If they do not spare
all names of a meter, a part of it may be left (`Emptied`).
-/

namespace ServiceHost

open Engine

/-! ### What is spared -/

/-- The owner's code neither adds nor removes collectors of the names that it spares.  It has no
access to what telemetry remembers, nor to the collectors of the meters that the server makes. -/
structure Host.Spares (spared : String → Prop) (h h' : Host) : Prop where
  telemetry : h'.telemetry.registered = h.telemetry.registered
  meters : h.metrics.Keeps h'.metrics
  registry : ∀ c : Metrics.Collector, spared c.name →
    (c ∈ h'.metrics.registry ↔ c ∈ h.metrics.registry)

namespace Host

variable {spared : String → Prop} {h h' : Host}

instance : IsPreorder Host (Spares spared) where
  refl _ := ⟨rfl, .refl _, fun _ _ => .rfl⟩
  trans _ _ _ h h' := ⟨h'.telemetry.trans h.telemetry, h.meters.trans h'.meters,
    fun c hc => (h'.registry c hc).trans (h.registry c hc)⟩

/-- What touches neither the registration nor the meters spares all. -/
theorem spares_of_eq (htelemetry : h'.telemetry.registered = h.telemetry.registered)
    (hmetrics : h'.metrics = h.metrics) : Spares spared h h' := by
  refine ⟨htelemetry, ?_, fun c _ => ?_⟩
  · rw [hmetrics]
    exact .refl _
  · rw [hmetrics]

/-- Whatever telemetry does besides its meter spares all. -/
theorem minor_spares (spared : String → Prop) : telemetryPlaces.Minor (Spares spared) where
  journal _ _ := spares_of_eq rfl rfl
  files _ _ := spares_of_eq rfl rfl
  state _ _ hst := spares_of_eq hst rfl

end Host

/-! ### Conditions of a run -/

namespace Server

/-- Some collectors are registered, and telemetry remembers its own if it is before the place. -/
structure Holds (spared : String → Prop) (base : Metrics.Registry) (plan : Metrics.Plan) (k : Nat)
    (own : List Metrics.Collector) (h : Host) : Prop where
  metrics : h.metrics.Holds spared base plan own
  telemetry : h.telemetry.registered = (decide (4 < k) && (plan 4).isSome)

/-- What holds of the host when the processes before a place have been prepared. -/
def Filled (spared : String → Prop) (base : Metrics.Registry) (plan : Metrics.Plan) (k : Nat)
    (h : Host) : Prop :=
  Holds spared base plan k (plan.before k) h

/-- What holds of the host when the processes from a place on have been shut down. -/
def Emptied (spared : String → Prop) (base : Metrics.Registry) (plan : Metrics.Plan) (k : Nat)
    (h : Host) : Prop :=
  ∃ left, Metrics.Left spared plan k left ∧ Holds spared base plan k (plan.before k ++ left) h

section Processes

variable {spared : String → Prop} {base : Metrics.Registry} {plan : Metrics.Plan} {k place : Nat}
  {own : List Metrics.Collector} {m : Metrics.Meter} {h h' : Host} {p : Component Host}

/-- What the owner's code does makes no difference. -/
theorem Holds.of_spares (hholds : Holds spared base plan k own h) (hspares : h.Spares spared h') :
    Holds spared base plan k own h' :=
  ⟨hholds.metrics.of_spared hspares.meters hspares.registry,
    hspares.telemetry.trans hholds.telemetry⟩

theorem Filled.of_spares (hfilled : Filled spared base plan k h) (hspares : h.Spares spared h') :
    Filled spared base plan k h' :=
  Holds.of_spares hfilled hspares

theorem Emptied.of_spares (hemptied : Emptied spared base plan k h) (hspares : h.Spares spared h') :
    Emptied spared base plan k h' := by
  obtain ⟨left, hleft, hholds⟩ := hemptied
  exact ⟨left, hleft, hholds.of_spares hspares⟩

/-- Telemetry counts from its own place on. -/
theorem flag_succ (hplan : k ≠ 4 ∨ plan 4 = none) :
    (decide (4 < k + 1) && (plan 4).isSome) = (decide (4 < k) && (plan 4).isSome) := by
  rcases hplan with hplan | hplan
  · congr 2
    exact propext (by omega)
  · simp [hplan]

/-- Where nothing is registered, telemetry remembers the same. -/
theorem flag_succ_of_none (hplan : plan k = none) :
    (decide (4 < k + 1) && (plan 4).isSome) = (decide (4 < k) && (plan 4).isSome) := by
  refine flag_succ ?_
  by_cases hk : k = 4
  · exact .inr (hk ▸ hplan)
  · exact .inl hk

theorem Filled.succ (hfilled : Filled spared base plan k h) (hplan : plan k = none) :
    Filled spared base plan (k + 1) h := by
  unfold Filled
  rw [Metrics.Plan.before_succ_of_none hplan]
  exact ⟨hfilled.metrics, hfilled.telemetry.trans (flag_succ_of_none hplan).symm⟩

theorem Emptied.of_succ (hemptied : Emptied spared base plan (k + 1) h) (hplan : plan k = none) :
    Emptied spared base plan k h := by
  obtain ⟨left, hleft, hholds⟩ := hemptied
  have hnames := hleft.names
  rw [Metrics.Plan.before_succ_of_none hplan] at hholds hnames
  exact ⟨left, ⟨hleft.behind, hnames⟩, hholds.metrics,
    hholds.telemetry.trans (flag_succ_of_none hplan)⟩

/-- Before the shutdowns nothing is left of what is not registered. -/
theorem Filled.emptied (hfilled : Filled spared base plan k h)
    (hnames : ((plan.before k).map (·.name)).Nodup) : Emptied spared base plan k h := by
  refine ⟨[], ⟨fun c hc => absurd hc List.not_mem_nil, ?_⟩, ?_⟩
  · rwa [List.append_nil]
  · rwa [List.append_nil]

/-- A process that registers nothing and spares what the others register. -/
theorem undoes_of_respects (hplan : plan k = none)
    (hprepare : p.prepare.Respects (Host.Spares spared))
    (hrun : p.run.Respects (Host.Spares spared)) (hclose : p.close.Respects (Host.Spares spared)) :
    Supervisor.Undoes (Host.Spares spared) (Filled spared base plan) (Emptied spared base plan) k
      p where
  prepares _ hfilled := hprepare.leads fun _ _ hspares _ => (hfilled.of_spares hspares).succ hplan
  runs := hrun
  undoes _ hemptied := hclose.leads fun _ _ hspares =>
    (hemptied.of_succ hplan).of_spares hspares

/-- The slot has nothing to do with the registry. -/
def Apart (slot : Slot Host Listener) : Prop :=
  ∀ (spared : String → Prop) l h, Host.Spares spared h (slot.put l h)

/-- A process that serves on a listener, and takes back what it has registered in the last act of
its stop. -/
theorem undoes_of_stopping {slot : Slot Host Listener} (hslot : Apart slot) {name : String}
    {lead : Routine Host} {traffic : Traffic} {closeTimeout : Option Nat}
    {finish : Bool → Host → Host × Outcome}
    (hprepare : ∀ h, Filled spared base plan k h → p.prepare.Leads (Host.Spares spared)
      (fun o h' => o = .ok → Filled spared base plan (k + 1) h') h)
    (hlead : lead.Respects (Host.Spares spared))
    (hrun : p.run = lead ++ Listener.serving slot name traffic)
    (hclose : p.close = Listener.stopping slot closeTimeout finish)
    (hfinish : ∀ inTime h, Emptied spared base plan (k + 1) h →
      Emptied spared base plan k (finish inTime h).1) :
    Supervisor.Undoes (Host.Spares spared) (Filled spared base plan) (Emptied spared base plan) k
      p where
  prepares := hprepare
  runs := by
    rw [hrun]
    exact hlead.append (Listener.respects_serving (hslot spared) name traffic)
  undoes h hemptied := by
    rw [hclose]
    exact Listener.leads_stopping (fun l _ hemptied => hemptied.of_spares (hslot spared l _))
      (fun _ _ hspares hemptied => hemptied.of_spares hspares) hfinish closeTimeout hemptied

/-- A process that serves on a listener and registers nothing. -/
theorem undoes_of_serving {slot : Slot Host Listener} (hslot : Apart slot) (hplan : plan k = none)
    {name : String} {traffic : Traffic} {closeTimeout : Option Nat} (verdict : Bool → Outcome)
    (hprepare : p.prepare.Respects (Host.Spares spared))
    (hrun : p.run = Listener.serving slot name traffic)
    (hclose : p.close = Listener.stopping slot closeTimeout fun inTime h => (h, verdict inTime)) :
    Supervisor.Undoes (Host.Spares spared) (Filled spared base plan) (Emptied spared base plan) k
      p := by
  have hrun' : p.run = [] ++ Listener.serving slot name traffic := hrun
  refine undoes_of_stopping hslot (fun h hfilled => ?_) Routine.respects_nil hrun' hclose
    fun _ _ hemptied => hemptied.of_succ hplan
  exact hprepare.leads fun _ _ hspares _ => (hfilled.of_spares hspares).succ hplan

/-! ### The metrics pages -/

/-- The metrics pages register the version, and remove it when they are shut down. -/
theorem undoes_metrics (s : Metrics.Server) (traffic : Traffic)
    (hplan : plan 2 = some (s.version, m)) :
    Supervisor.Undoes (Host.Spares spared) (Filled spared base plan) (Emptied spared base plan) 2
      (s.component Host.pagesSlot Host.metricsSlot traffic) := by
  have hslot : Apart Host.pagesSlot := fun _ _ _ => Host.spares_of_eq rfl rfl
  have hrun : (s.component Host.pagesSlot Host.metricsSlot traffic).run =
    [s.routing] ++ Listener.serving Host.pagesSlot Metrics.Server.name traffic := rfl
  have hclose : (s.component Host.pagesSlot Host.metricsSlot traffic).close =
    Listener.stopping Host.pagesSlot (some s.closeTimeout) fun inTime h =>
      (Host.metricsSlot.modify s.withoutVersion h,
        Listener.inTimeOrFail Metrics.Server.name inTime) := rfl
  refine undoes_of_stopping hslot (fun h hfilled => ?_)
    (Routine.respects_nil.act fun _ h => refl h) hrun hclose fun _ h hemptied => ?_
  · refine (Metrics.Server.leads_prepare (hslot spared) traffic h).mono fun o h' hprepared ho => ?_
    cases hprepared with
    | unbound | refused => cases ho
    | registered before registers =>
      have hbefore := hfilled.of_spares before
      exact ⟨hbefore.metrics.register hplan registers, hbefore.telemetry⟩
  · obtain ⟨left, hleft, hholds⟩ := hemptied
    obtain ⟨left', hleft', hremoved⟩ := hholds.metrics.unregister hleft hplan
    exact ⟨left', hleft', hremoved, hholds.telemetry⟩

/-! ### Telemetry -/

section Telemetry

open Telemetry.Service

variable {s : Telemetry.Service}

/-- Telemetry without a meter of calls registers nothing. -/
theorem undoes_telemetry_of_none (hmeter : s.meter = none) (coloured : Bool)
    (c : Telemetry.Closings) (hplan : plan k = none) :
    Supervisor.Undoes (Host.Spares spared) (Filled spared base plan) (Emptied spared base plan) k
      (s.component Host.telemetryPlaces coloured c) where
  prepares h hfilled := by
    apply (respects_prepare (Host.minor_spares spared) hmeter coloured).leads
    intro _ h' hspares _
    exact (hfilled.of_spares hspares).succ hplan
  runs := Routine.respects_nil.pause _
  undoes h hemptied := by
    refine (leads_close (Host.minor_spares spared) s c h).mono fun _ h' hclosed => ?_
    cases hclosed with
    | removed _ _ meter => cases hmeter.symm.trans meter
    | kept before _ after =>
      exact ((hemptied.of_succ hplan).of_spares before).of_spares after

/-- Telemetry with a meter of calls registers it, and removes it when it is shut down. -/
theorem undoes_telemetry (hmeter : s.meter = some place)
    (hcounts : Telemetry.countsCalls s.settings = true) (coloured : Bool) (c : Telemetry.Closings)
    (hplan : plan 4 = some (place, m)) :
    Supervisor.Undoes (Host.Spares spared) (Filled spared base plan) (Emptied spared base plan) 4
      (s.component Host.telemetryPlaces coloured c) where
  prepares h hfilled := by
    refine (leads_prepare (Host.minor_spares spared) hmeter hcounts coloured h).mono
      fun o h' hprepared ho => ?_
    cases hprepared with
    | untraced | refused => cases ho
    | @registered _ st h₁ _ before registers after =>
      have hafter : Filled spared base plan 5 (Host.telemetryPlaces.state.modify
          (fun st => { st with registered := true }) (Host.telemetryPlaces.metrics.put st h₁)) := by
        refine ⟨(hfilled.of_spares before).metrics.register hplan registers, ?_⟩
        rw [hplan]
        rfl
      exact hafter.of_spares after
  runs := Routine.respects_nil.pause _
  undoes h hemptied := by
    obtain ⟨left, hleft, hholds⟩ := hemptied
    refine (leads_close (Host.minor_spares spared) s c h).mono fun _ h' hclosed => ?_
    cases hclosed with
    | @removed failures place' h₁ before flag meter after =>
      obtain rfl : place' = place := Option.some.inj (meter.symm.trans hmeter)
      obtain ⟨left', hleft', hremoved⟩ :=
        (hholds.of_spares before).metrics.unregister hleft hplan
      have hafter : Emptied spared base plan 4 (Host.telemetryPlaces.state.put
          { h₁.telemetry with registered := false, failures := failures }
          (Host.telemetryPlaces.metrics.put (h₁.metrics.unregister place').1 h₁)) :=
        ⟨left', hleft', hremoved, rfl⟩
      exact hafter.of_spares after
    | @kept h₁ before flag =>
      -- it has been registered
      have hregistered : h₁.telemetry.registered = true := by
        rw [(hholds.of_spares before).telemetry, hplan]
        rfl
      rcases flag with hflag | hnone
      · cases hregistered.symm.trans hflag
      · cases hnone.symm.trans hmeter

end Telemetry

end Processes

end Server

end ServiceHost
