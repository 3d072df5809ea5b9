import Mathlib.Logic.Function.Basic
import ServiceHost.Proofs.Metrics.Atomicity
import ServiceHost.Proofs.Server.Registrants
/-!
Metrics pages and telemetry with one registry.

In an estate any number of metrics pages and telemetry services share the meters and the registry,
and each of them has a slot for what it keeps for itself.  What a preparation or a shutdown of one
of them does to the registry, and to what telemetry remembers, is the same for both kinds
(`Registrant.Prepares`, `Registrant.Closes`), but that telemetry removes its meter only if it
remembers that it has registered it.
-/

namespace ServiceHost

open Metrics (Collector Registry versionName)

/-! ### A registry that several share -/

/-- What metrics pages and telemetry services share, and what each of them has for itself, by its
place among them. -/
structure Estate where
  metrics : Metrics.State := {}
  listeners : Nat → Listener := fun _ => {}
  telemetry : Nat → Telemetry.State := fun _ => {}
  journal : Logging.Journal := {}
  files : Files := {}

namespace Estate

/-- The meters and the registry. -/
def metricsSlot : Slot Estate Metrics.State where
  get w := w.metrics
  put m w := { w with metrics := m }

/-- The listener of the metrics pages at a place. -/
def listener (k : Nat) : Slot Estate Listener where
  get w := w.listeners k
  put l w := { w with listeners := Function.update w.listeners k l }
  get_put _ _ := Function.update_self ..

/-- The places of the telemetry at a place. -/
def places (k : Nat) : Telemetry.Places Estate where
  state :=
    { get := fun w => w.telemetry k
      put := fun st w => { w with telemetry := Function.update w.telemetry k st }
      get_put := fun _ _ => Function.update_self .. }
  metrics := metricsSlot
  journal := { get := fun w => w.journal, put := fun j w => { w with journal := j } }
  files := { get := fun w => w.files, put := fun fs w => { w with files := fs } }

/-- Nothing is registered or removed, and every telemetry remembers what it did. -/
structure Steady (w w' : Estate) : Prop where
  metrics : w'.metrics = w.metrics
  flags : ∀ k, (w'.telemetry k).registered = (w.telemetry k).registered

instance : IsPreorder Estate Steady where
  refl _ := ⟨rfl, fun _ => rfl⟩
  trans _ _ _ h h' := ⟨h'.metrics.trans h.metrics, fun k => (h'.flags k).trans (h.flags k)⟩

theorem steady_listener (k : Nat) (l : Listener) (w : Estate) : w.Steady ((listener k).put l w) :=
  ⟨rfl, fun _ => rfl⟩

/-- Telemetry at a place changes what the others remember as little as its own meter. -/
theorem minor_steady (k : Nat) : (places k).Minor Steady where
  journal _ _ := ⟨rfl, fun _ => rfl⟩
  files _ _ := ⟨rfl, fun _ => rfl⟩
  state st w hst := by
    refine ⟨rfl, fun j => ?_⟩
    by_cases hj : j = k
    · obtain rfl := hj
      exact (congrArg Telemetry.State.registered (Function.update_self ..)).trans hst
    · exact congrArg Telemetry.State.registered (Function.update_of_ne hj ..)

/-! ### Those who register something -/

/-- A process that registers its meter when it is prepared and removes it when it is shut down. -/
inductive Registrant where
  | pages (s : Metrics.Server) (traffic : Traffic)
  | telemetry (s : Telemetry.Service) (coloured : Bool) (closings : Telemetry.Closings)

namespace Registrant

/-- The process at a place. -/
def component (k : Nat) : Registrant → Component Estate
  | .pages s traffic => s.component (listener k) metricsSlot traffic
  | .telemetry s coloured closings => s.component (places k) coloured closings

/-- Are these metrics pages? -/
def isPages : Registrant → Bool
  | .pages .. => true
  | .telemetry .. => false

/-- The place of its meter, if it has one. -/
def meter? : Registrant → Option Nat
  | .pages s _ => some s.version
  | .telemetry s _ _ => s.meter

/-- The collectors of its meter. -/
def collectors : Registrant → List Collector
  | .pages s _ => [⟨versionName, s.version, .version⟩]
  | .telemetry s _ _ => s.meter.elim [] fun place =>
    Metrics.Meter.collectors place (.calls { namesp := s.settings.telemetry.metrics.namesp })

/-- The meter of a registrant is there. -/
def MeterIn (t : Registrant) (st : Metrics.State) : Prop :=
  ∀ place ∈ t.meter?, ∃ m, st.meters[place]? = some m ∧ m.collectors place = t.collectors

/-- Telemetry has a meter of calls if it counts calls for a registry. -/
def Counts : Registrant → Prop
  | .pages .. => True
  | .telemetry s _ _ => s.meter.isSome = Telemetry.countsCalls s.settings

section

variable {s : Telemetry.Service} {coloured : Bool} {closings : Telemetry.Closings}

theorem collectors_of_none (h : s.meter = none) :
    (telemetry s coloured closings).collectors = [] := by
  simp only [collectors, h, Option.elim_none]

theorem collectors_of_some {place : Nat} (h : s.meter = some place) :
    (telemetry s coloured closings).collectors =
      Metrics.Meter.collectors place
        (.calls { namesp := s.settings.telemetry.metrics.namesp }) := by
  simp only [collectors, h, Option.elim_some]

end

/-- All its collectors are of its meter. -/
theorem meter?_of_mem {t : Registrant} {c : Collector} (h : c ∈ t.collectors) :
    t.meter? = some c.meter := by
  cases t with
  | pages s traffic =>
    obtain rfl := List.mem_singleton.1 h
    rfl
  | telemetry s coloured closings =>
    cases hmeter : s.meter with
    | none =>
      rw [collectors_of_none hmeter] at h
      cases h
    | some place =>
      rw [collectors_of_some hmeter] at h
      rcases List.mem_pair.1 h with rfl | rfl <;> exact hmeter

/-- Telemetry does not register the version. -/
theorem name_ne_version {t : Registrant} (ht : t.isPages = false) {c : Collector}
    (h : c ∈ t.collectors) : c.name ≠ versionName := by
  cases t with
  | pages s traffic => cases ht
  | telemetry s coloured closings =>
    cases hmeter : s.meter with
    | none =>
      rw [collectors_of_none hmeter] at h
      cases h
    | some place =>
      rw [collectors_of_some hmeter] at h
      have hname := Metrics.Meter.mem_names.2 ⟨c, h, rfl⟩
      have hversion := (List.nodup_cons.1
        (Metrics.names_nodup s.settings.telemetry.metrics.namesp)).1
      exact fun hsame => hversion (hsame ▸ hname)

/-- Telemetry that has just been made has its meter, if it needs one, at a new place. -/
theorem meterIn_of_create {settings : Settings} {st st' : Metrics.State} {s : Telemetry.Service}
    (h : Telemetry.Service.create settings st = .ok (s, st')) (coloured : Bool)
    (closings : Telemetry.Closings) :
    (telemetry s coloured closings).Counts ∧ (telemetry s coloured closings).MeterIn st' ∧
      ∀ place ∈ s.meter, st.meters[place]? = none := by
  unfold Telemetry.Service.create at h
  split at h
  next hcounts =>
    rcases hcreate : Metrics.CallMeter.create settings.telemetry.metrics.namesp with fault | meter
    · rw [hcreate] at h
      cases h
    · rw [hcreate] at h
      cases h
      refine ⟨hcounts.symm, fun place hplace => ?_, fun place hplace => ?_⟩
      · obtain rfl := Option.some.inj hplace
        refine ⟨.calls meter, by simp, ?_⟩
        rw [Metrics.CallMeter.eq_of_create hcreate]
        rfl
      · obtain rfl := Option.some.inj hplace
        exact List.getElem?_eq_none (Nat.le_refl _)
  next hcounts =>
    cases h
    refine ⟨(Bool.eq_false_iff.2 hcounts).symm, fun place hplace => ?_, fun place hplace => ?_⟩
    all_goals cases hplace

end Registrant

/-! ### What calls do -/

namespace Registrant

variable {t : Registrant} {k : Nat} {w w' : Estate} {o : Outcome}

theorem MeterIn.of_keeps {st st' : Metrics.State} (h : t.MeterIn st) (hkeeps : st.Keeps st') :
    t.MeterIn st' := by
  intro place hplace
  obtain ⟨m, hm, hcollectors⟩ := h place hplace
  obtain ⟨m', hm', hsame⟩ := hkeeps place m hm
  exact ⟨m', hm', hsame.trans hcollectors⟩

/-- What a preparation does: some first ones of the collectors are added, whose names were free, and
all of them unless it fails; then telemetry remembers what it did. -/
structure Prepares (t : Registrant) (k : Nat) (w : Estate) (o : Outcome) (w' : Estate) : Prop where
  meters : w.metrics.Keeps w'.metrics
  others : ∀ j, j ≠ k → (w'.telemetry j).registered = (w.telemetry j).registered
  adds : ∃ n, w'.metrics.registry = w.metrics.registry ++ t.collectors.take n ∧
    (∀ c ∈ t.collectors.take n, w.metrics.registry.has c.name = false) ∧
    (t.collectors.length ≤ n ∨
      o ≠ .ok ∧ (w'.telemetry k).registered = (w.telemetry k).registered)

/-- Nothing was registered. -/
theorem prepares_of_steady (h : w.Steady w') (hnothing : t.collectors = [] ∨ o ≠ .ok) :
    t.Prepares k w o w' where
  meters := h.metrics.symm ▸ .refl _
  others j _ := h.flags j
  adds := by
    refine ⟨0, ?_, by simp, hnothing.imp (fun hnil => ?_) fun hfails => ?_⟩
    · rw [List.take_zero, List.append_nil, h.metrics]
    · rw [hnil]
      exact Nat.le_refl 0
    · exact ⟨hfails, h.flags k⟩

/-- The meter was registered or refused. -/
theorem prepares_of_register {w₁ : Estate} {place : Nat} {st : Metrics.State}
    {fault : Option MetricFault} (hmeter : t.MeterIn w.metrics) (hplace : t.meter? = some place)
    (before : w.Steady w₁) (registers : w₁.metrics.register place = (st, fault))
    (hmetrics : w'.metrics = st)
    (hothers : ∀ j, j ≠ k → (w'.telemetry j).registered = (w₁.telemetry j).registered)
    (hrefused : fault ≠ none →
      o ≠ .ok ∧ (w'.telemetry k).registered = (w₁.telemetry k).registered) :
    t.Prepares k w o w' := by
  obtain ⟨m, hm, hcollectors⟩ := hmeter place hplace
  rw [before.metrics] at registers
  obtain ⟨hkeeps, n, heq, hfree, hall⟩ := Metrics.State.register_adds hm registers
  rw [hcollectors] at heq hfree hall
  refine ⟨hmetrics.symm ▸ hkeeps, fun j hj => (hothers j hj).trans (before.flags j), n, ?_, hfree,
    ?_⟩
  · rw [hmetrics, heq]
  · by_cases hfault : fault = none
    · exact .inl (hall hfault)
    · exact .inr ((hrefused hfault).imp_right fun h => h.trans (before.flags k))

theorem leads_prepare (hcounts : t.Counts) (hmeter : t.MeterIn w.metrics) :
    (t.component k).prepare.Leads Steady (t.Prepares k w) w := by
  cases t with
  | pages s traffic =>
    refine (Metrics.Server.leads_prepare (steady_listener k) traffic w).mono
      fun o w' hprepared => ?_
    cases hprepared with
    | unbound before => exact prepares_of_steady before (.inr (by simp))
    | refused before registers =>
      exact prepares_of_register hmeter rfl before registers rfl (fun _ _ => rfl)
        fun _ => ⟨by simp, rfl⟩
    | registered before registers =>
      exact prepares_of_register hmeter rfl before registers rfl (fun _ _ => rfl)
        fun hrefused => absurd rfl hrefused
  | telemetry s coloured closings =>
    cases hplace : s.meter with
    | none =>
      apply (Telemetry.Service.respects_prepare (minor_steady k) hplace coloured).leads
      intro o w' hsteady
      exact prepares_of_steady hsteady (.inl (collectors_of_none hplace))
    | some place =>
      have hcounts : Telemetry.countsCalls s.settings = true := by
        have hsome : s.meter.isSome = Telemetry.countsCalls s.settings := hcounts
        rw [← hsome, hplace]
        rfl
      refine (Telemetry.Service.leads_prepare (minor_steady k) hplace hcounts coloured w).mono
        fun o w' hprepared => ?_
      cases hprepared with
      | untraced before => exact prepares_of_steady before (.inr (by simp))
      | refused before registers =>
        exact prepares_of_register hmeter hplace before registers rfl (fun _ _ => rfl)
          fun _ => ⟨by simp, rfl⟩
      | registered before registers after =>
        refine prepares_of_register hmeter hplace before registers after.metrics (fun j hj => ?_)
          fun hrefused => absurd rfl hrefused
        refine (after.flags j).trans (congrArg Telemetry.State.registered ?_)
        exact Function.update_of_ne hj ..

/-- What a shutdown does: metrics pages remove the names of their collectors, and telemetry does if
it remembers that it has registered them.  Afterwards it does not. -/
structure Closes (t : Registrant) (k : Nat) (w w' : Estate) : Prop where
  meters : w'.metrics.meters = w.metrics.meters
  others : ∀ j, j ≠ k → (w'.telemetry j).registered = (w.telemetry j).registered
  forgets : t.isPages = false → (w'.telemetry k).registered = true → t.collectors = []
  removes : w'.metrics.registry = w.metrics.registry ∧ t.isPages = false ∨
    (t.isPages = false → (w.telemetry k).registered = true) ∧
      w'.metrics.registry =
        (Registry.removeAll (t.collectors.map (·.name)) w.metrics.registry).1

/-- Removing its meter. -/
theorem unregister_eq {st : Metrics.State} (hmeter : t.MeterIn st) {place : Nat}
    (hplace : t.meter? = some place) :
    (st.unregister place).1 = { st with
      registry := (Registry.removeAll (t.collectors.map (·.name)) st.registry).1 } := by
  obtain ⟨m, hm, hcollectors⟩ := hmeter place hplace
  rw [Metrics.State.unregister_eq hm, hcollectors]

theorem close_pages (s : Metrics.Server) (traffic : Traffic) (k : Nat) :
    (component k (pages s traffic)).close =
      Listener.stopping (listener k) (some s.closeTimeout) fun inTime w =>
        (metricsSlot.modify s.withoutVersion w,
          Listener.inTimeOrFail Metrics.Server.name inTime) := rfl

theorem leads_close (hmeter : t.MeterIn w.metrics) :
    (t.component k).close.Leads Steady (fun _ w' => t.Closes k w w') w := by
  cases t with
  | pages s traffic =>
    have htrans {w₁ w₂ w₃ : Estate} (h : w₁.Steady w₂) (h' : w₂.Steady w₃) : w₁.Steady w₃ :=
      IsTrans.trans _ _ _ h h'
    rw [close_pages]
    refine Listener.leads_stopping (P := w.Steady)
      (fun l w₁ h => htrans h (steady_listener k l w₁)) (fun w₁ w₂ h h' => htrans h' h)
      (fun inTime w₁ h => ?_) _ (refl w)
    -- the version is removed in the last act, whether that comes in time or not
    have heq : (metricsSlot.modify s.withoutVersion w₁).metrics =
        (w.metrics.unregister s.version).1 := by
      show (w₁.metrics.unregister s.version).1 = _
      rw [h.metrics]
    rw [unregister_eq hmeter rfl] at heq
    have hpages : (pages s traffic).isPages ≠ false := by simp [isPages]
    exact ⟨congrArg (·.meters) heq, fun j _ => h.flags j, fun hnot => absurd hnot hpages,
      .inr ⟨fun hnot => absurd hnot hpages, congrArg (·.registry) heq⟩⟩
  | telemetry s coloured closings =>
    refine (Telemetry.Service.leads_close (minor_steady k) s closings w).mono
      fun o w' hclosed => ?_
    cases hclosed with
    | @removed failures place w₁ before flag meter after =>
      have heq : w'.metrics = (w.metrics.unregister place).1 := by
        rw [after.metrics, ← before.metrics]
        rfl
      rw [unregister_eq hmeter meter] at heq
      have hremembered : (w.telemetry k).registered = true := (before.flags k).symm.trans flag
      constructor
      case meters => exact congrArg (·.meters) heq
      case removes => exact .inr ⟨fun _ => hremembered, congrArg (·.registry) heq⟩
      case others =>
        intro j hj
        refine ((after.flags j).trans (congrArg Telemetry.State.registered ?_)).trans
          (before.flags j)
        exact Function.update_of_ne hj ..
      case forgets =>
        intro _ hflag
        rw [after.flags k] at hflag
        cases (congrArg Telemetry.State.registered (Function.update_self ..)).symm.trans hflag
    | kept before flag after =>
      have hsteady : w.Steady w' := IsTrans.trans _ _ _ before after
      constructor
      case meters => exact congrArg (·.meters) hsteady.metrics
      case removes => exact .inl ⟨congrArg (·.registry) hsteady.metrics, rfl⟩
      case others => exact fun j _ => hsteady.flags j
      case forgets =>
        intro _ hflag
        rw [after.flags k] at hflag
        rcases flag with hfalse | hnone
        · cases hflag.symm.trans hfalse
        · exact collectors_of_none hnone

/-- A run registers and removes nothing. -/
theorem respects_run (t : Registrant) (k : Nat) : (t.component k).run.Respects Steady := by
  cases t with
  | pages s traffic =>
    exact .act (Listener.respects_serving (steady_listener k) _ _) fun _ w => refl w
  | telemetry s coloured closings => exact Routine.respects_nil.pause _

end Registrant

end Estate

end ServiceHost
