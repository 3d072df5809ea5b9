import ServiceHost.Proofs.Telemetry.Closing
import ServiceHost.Server.Host
/-!
The life of a service of telemetry: how preparations and shutdowns follow one another.

A preparation sets up what the settings ask for, up to the first part that fails
(`Service.leads_prepare_readied`), and whatever has been set up by then is ended by the next
shutdown.  Two results follow for every life.  A shutdown attempts to end all that has been set up,
reports every failure, and leaves nothing for another shutdown (`Service.every_failure_reported`).
It takes as long as all these attempts together, each of which has the whole budget for itself; so
it comes back by its deadline just in case they fit in it one after the other
(`Service.back_by_deadline_iff`).
-/

namespace ServiceHost.Telemetry

open Engine

variable {W : Type} {p : Places W} {M : Metrics.State → Metrics.State → Prop} {s : Service}

/-! ### What a preparation sets up -/

/-- The state when the parts have been set up that the settings ask for. -/
def Service.setUp (s : Service) (st : State) : State :=
  let t := s.settings.telemetry
  { st with
    traces := st.traces || t.tracing.enabled
    meters := st.meters || (t.metrics.enabled && t.metrics.backend == .otlp)
    registered := st.registered || (countsCalls s.settings && s.meter.isSome) }

/-- How a setup comes out that does this to the state: it does nothing to it if it fails. -/
inductive Sets (p : Places W) (f : State → State) (w : W) : W × Option SetupFault → Prop
  | up {w' : W} (state : p.state.get w' = f (p.state.get w)) : Sets p f w (w', none)
  | nothing {w' : W} {fault : SetupFault} (state : p.state.get w' = p.state.get w) :
      Sets p f w (w', some fault)

/-- The worlds have the same state of telemetry. -/
def Stays (p : Places W) (w w' : W) : Prop :=
  p.state.get w' = p.state.get w

instance (p : Places W) : IsPreorder W (Stays p) where
  refl _ := rfl
  trans _ _ _ h h' := h'.trans h

/-- A setup that leaves the state alone. -/
theorem Sets.of_stays {w : W} {r : W × Option SetupFault} (h : Stays p w r.1) : Sets p id w r := by
  obtain ⟨w', _ | fault⟩ := r
  · exact .up h
  · exact .nothing h

namespace Service

section

variable (apart : p.Apart) (s : Service) (w : W)

include apart

/-- What telemetry writes down leaves the state alone. -/
theorem writes_stays : p.Writes (Stays p) :=
  ⟨apart.state_journal, apart.state_files⟩

theorem get_inform (target message : String) (fields : List (String × Logging.Value)) :
    p.state.get (p.inform target message fields w) = p.state.get w :=
  (writes_stays apart).inform target message fields w

theorem sets_setupTracing :
    Sets p (fun st => { st with traces := st.traces || s.settings.telemetry.tracing.enabled }) w
      (s.setupTracing p w) := by
  have hshown (c : Prop) [Decidable c] (target message : String)
      (fields : List (String × Logging.Value)) :
      p.state.get (if c then p.inform target message fields w else w) = p.state.get w := by
    split
    · exact get_inform apart w ..
    · rfl
  unfold setupTracing
  dsimp only
  split
  next hoff => exact .up (by simp_all [get_inform apart])
  next hon =>
    have hon' : s.settings.telemetry.tracing.enabled = true := by simpa using hon
    split
    · exact .nothing (hshown ..)
    · refine .up ?_
      rw [Slot.get_modify, get_inform apart, hshown, hon', Bool.or_true]

theorem sets_setupMetrics :
    Sets p (fun st =>
      { st with
        meters := st.meters ||
          (s.settings.telemetry.metrics.enabled && s.settings.telemetry.metrics.backend == .otlp)
        registered := st.registered || (countsCalls s.settings && s.meter.isSome) }) w
      (s.setupMetrics p w) := by
  unfold setupMetrics countsCalls
  dsimp only
  split
  next hoff => exact .up (by simp_all [get_inform apart])
  next hon =>
    have hon' : s.settings.telemetry.metrics.enabled = true := by simpa using hon
    split
    next place hbackend hplace =>
      split
      · exact .nothing (apart.state_metrics ..)
      · refine .up ?_
        rw [get_inform apart, Slot.get_modify, apart.state_metrics, hon', hbackend, hplace]
        simp
    next hbackend hplace =>
      have hotlp : (Settings.MetricsBackend.prometheus == .otlp) = false := rfl
      refine .up ?_
      rw [get_inform apart, hon', hbackend, hplace, hotlp]
      simp
    next hbackend =>
      split
      · exact .nothing rfl
      · refine .up ?_
        rw [Slot.get_modify, get_inform apart, hon', hbackend]
        simp

theorem sets_setupLogging (coloured : Bool) : Sets p id w (s.setupLogging p coloured w) :=
  .of_stays (writes_setupLogging (writes_stays apart) coloured w)

theorem sets_setupProfiling : Sets p id w (s.setupProfiling p w) :=
  .of_stays (writes_setupProfiling (writes_stays apart) w)

end

/-- What a preparation leaves of the state: what it was to become, if it succeeds. -/
def Readied (s : Service) (p : Places W) (goal : State) (o : Outcome) (w : W) : Prop :=
  s.Fits (p.state.get w) ∧ (o = .ok → p.state.get w = goal)

/-- Setting up a part leads on to what comes after it. -/
theorem leads_settingUp_sets {part : Part} {setup : Setup W} {f : State → State}
    (hsets : ∀ w, Sets p f w (setup w)) {goal : State} {rest : Routine W} {w : W}
    (fits : s.Fits (p.state.get w))
    (hrest : ∀ w', p.state.get w' = f (p.state.get w) →
      rest.Leads (Others p M) (s.Readied p goal) w') :
    Routine.Leads (Others p M) (s.Readied p goal) (settingUp part setup :: rest) w := by
  apply leads_settingUp part
  · intro fault w₁ w₂ hothers hsetup
    have hsetup' := hsets w₁
    rw [hsetup] at hsetup'
    cases hsetup' with
    | nothing state =>
      refine ⟨?_, nofun⟩
      rwa [state, hothers.1]
  · intro w₁ w₂ hothers hsetup
    have hsetup' := hsets w₁
    rw [hsetup] at hsetup'
    cases hsetup' with
    | up state => exact hrest w₂ (by rw [state, hothers.1])

/-- **Where a preparation leads.** -/
theorem leads_prepare_readied (apart : p.Apart) (coloured : Bool) {w : W}
    (fits : s.Fits (p.state.get w)) :
    (s.prepare p coloured).Leads (Others p M) (s.Readied p (s.setUp (p.state.get w))) w := by
  refine .act (fun _ _ _ _ _ hends => by cases hends) fun _ w₁ w₂ hothers hgoesOn => ?_
  obtain ⟨rfl, -⟩ := Prod.mk.inj hgoesOn
  have hbegun : p.state.get (p.inform (targetOf "") "📡 Initializing telemetry services" [] w₁) =
      p.state.get w := (get_inform apart w₁ ..).trans hothers.1
  apply leads_settingUp_sets (sets_setupTracing apart s) (by rwa [hbegun])
  intro w₃ htraced
  have hfits₃ : s.Fits (p.state.get w₃) := by
    rw [htraced, hbegun]
    exact ⟨fits.failures, fits.meter⟩
  apply leads_settingUp_sets (sets_setupMetrics apart s) hfits₃
  intro w₄ hmetered
  have hfits₄ : s.Fits (p.state.get w₄) := by
    rw [hmetered]
    refine ⟨hfits₃.failures, fun hregistered => ?_⟩
    rcases Bool.or_eq_true_iff.1 hregistered with hbefore | hcounts
    · exact hfits₃.meter hbefore
    · exact (Bool.and_eq_true_iff.1 hcounts).2
  apply leads_settingUp_sets (sets_setupLogging apart s · coloured) hfits₄
  intro w₅ hlogged
  have hfits₅ : s.Fits (p.state.get w₅) := by rwa [hlogged]
  apply leads_settingUp_sets (sets_setupProfiling apart s) hfits₅
  intro w₆ hprofiled
  refine .nil ⟨by rwa [hprofiled], fun _ => ?_⟩
  rw [hprofiled, id, hlogged, id, hmetered, htraced, hbegun]
  rfl

/-! ### Preparations and shutdowns -/

/-- The life of a service beside others that leave its state alone.  The flag tells whether it has
been prepared since its last shutdown.  Where there is an agent for profiles, a preparation starts
it as well. -/
inductive Life (s : Service) (p : Places W) (M : Metrics.State → Metrics.State → Prop) :
    Bool → Engine W → Prop
  | new {e : Engine W} (unused : p.state.get e.world = {}) (alone : e.Respects (Others p M)) :
      Life s p M false e
  | prepared {b : Bool} {e e' : Engine W} {sch : Schedule W} {index : Nat} {scope : Scope}
      {coloured : Bool} {o : Outcome} (before : Life s p M b e)
      (call : e.call sch .prepare index scope (s.prepare p coloured) = (e', .outcome o)) :
      Life s p M true e'
  | agent {e : Engine W} (before : Life s p M true e) :
      Life s p M true
        { e with world := p.state.modify (fun st => { st with profiler := true }) e.world }
  | closed {b : Bool} {e e' : Engine W} {sch : Schedule W} {index : Nat} {scope : Scope}
      {c : Closings} {o : Outcome} (before : Life s p M b e)
      (call : e.call sch .close index scope (s.close p c) = (e', .outcome o)) : Life s p M false e'
  | others {b : Bool} {e e' : Engine W} (before : Life s p M b e)
      (drifts : Drifts (Others p M) e e') : Life s p M b e'

section Living

variable [IsPreorder Metrics.State M] {b : Bool} {e : Engine W}

/-- The state fits at every stage of a life, and there is nothing set up when the service has not
been prepared since its last shutdown. -/
theorem Life.fits (apart : p.Apart) (h : Life s p M b e) :
    e.Respects (Others p M) ∧ s.Fits (p.state.get e.world) ∧
      (b = false → p.state.get e.world = {}) := by
  have hempty : s.Fits {} := ⟨rfl, nofun⟩
  induction h with
  | new unused alone => exact ⟨alone, unused ▸ hempty, fun _ => unused⟩
  | prepared _ call ih =>
    obtain ⟨alone, fits, -⟩ := ih
    obtain ⟨alone', fits', -⟩ := call_leads call alone (leads_prepare_readied apart _ fits)
    exact ⟨alone', fits', nofun⟩
  | agent _ ih =>
    obtain ⟨alone, fits, -⟩ := ih
    refine ⟨alone.of_tasks rfl, ?_, nofun⟩
    rw [Slot.get_modify]
    exact ⟨fits.failures, fits.meter⟩
  | @closed _ e _ sch index scope c _ _ call ih =>
    obtain ⟨alone, fits, -⟩ := ih
    obtain ⟨e₁, m, hcall, hshut⟩ := closes apart alone fits sch index scope c
    obtain rfl : e₁ = _ := congrArg Prod.fst (hcall.symm.trans call)
    exact ⟨hshut.alone, hshut.state ▸ hempty, fun _ => hshut.state⟩
  | others _ drifts ih =>
    rw [drifts.world.1]
    exact ⟨drifts.respects, ih.2⟩

/-- **A shutdown attempts all that is to be done, and reports every failure.**  A preparation that
succeeds sets up what the settings ask for.  A shutdown then attempts to end each part that has been
set up, and to remove the meter if it has been registered, once and in this order, however the
attempts before have gone.  It returns the report on them.  Another one without a preparation in
between has nothing to do: it succeeds at once and leaves the meters alone. -/
theorem every_failure_reported (apart : p.Apart) (life : s.Life p M b e) (sch : Schedule W)
    (index : Nat) (scope : Scope) :
    (∀ coloured e', e.call sch .prepare index scope (s.prepare p coloured) = (e', .outcome .ok) →
      p.state.get e'.world = s.setUp (p.state.get e.world)) ∧
    ∀ c, ∃ e' m, e.call sch .close index scope (s.close p c) =
        (e', .outcome (reported (s.attempts c ((scope.remaining e.now).getD defaultBudget)
          (p.state.get e.world) m))) ∧
      s.ShutDown p M c ((scope.remaining e.now).getD defaultBudget) e m e' ∧ s.Life p M false e' ∧
      (b = false → e.call sch .close index scope (s.close p c) = (e', .outcome .ok) ∧
        e'.now = e.now ∧ M (p.metrics.get e.world) (p.metrics.get e'.world)) := by
  obtain ⟨alone, fits, hnothing⟩ := life.fits apart
  refine ⟨fun coloured e' hcall => ?_, fun c => ?_⟩
  · obtain ⟨-, -, hprepared⟩ := call_leads hcall alone (leads_prepare_readied apart coloured fits)
    exact hprepared rfl
  · obtain ⟨e', m, hcall, hshut⟩ := closes apart alone fits sch index scope c
    refine ⟨e', m, hcall, hshut, life.closed hcall, fun hb => ?_⟩
    have hstate := hnothing hb
    refine ⟨?_, ?_, ?_⟩
    · rw [hcall, hstate]
      rfl
    · rw [hshut.now, hstate]
      rfl
    · have hafter := hshut.after
      rw [hstate] at hafter
      exact IsTrans.trans _ _ _ hshut.before hafter

/-- A service that exports traces and metrics. -/
def exporter : Service where
  settings := { telemetry :=
    { tracing := { enabled := true }, metrics := { enabled := true, backend := .otlp } } }

/-- The service has been prepared. -/
def preparedExporter : Engine Host :=
  (call .usual .prepare 0 ⟨[0], none⟩ (exporter.prepare Host.telemetryPlaces false)
    { world := {} }).1

theorem apart_telemetryPlaces : Host.telemetryPlaces.Apart :=
  ⟨fun _ _ => rfl, fun _ _ => rfl, fun _ _ => rfl, fun _ _ => rfl⟩

theorem life_preparedExporter : exporter.Life Host.telemetryPlaces Eq true preparedExporter := by
  have hnew : exporter.Life Host.telemetryPlaces Eq false { world := {} } :=
    .new rfl (by simp [Respects])
  exact hnew.prepared (Prod.ext rfl rfl :
    call .usual .prepare 0 ⟨[0], none⟩ (exporter.prepare Host.telemetryPlaces false)
      { world := {} } = (preparedExporter, .outcome .ok))

/-- The end of the traces fails and that of the metrics never comes: both are reported, and then
there is nothing left to do. -/
theorem every_failure_reported_exporter :
    ∃ e' e'', preparedExporter.call .usual .close 0 ⟨[0], none⟩ (exporter.close Host.telemetryPlaces
        { traces := { ending := .failed "no route" }, meters := { duration := none } }) =
        (e', .outcome (.failed (.host (.telemetryShutdown
          ["trace provider shutdown: no route", "meter provider shutdown: deadline exceeded"])))) ∧
      e'.call .usual .close 0 ⟨[0], none⟩ (exporter.close Host.telemetryPlaces {}) =
        (e'', .outcome .ok) ∧ e''.now = e'.now := by
  obtain ⟨e', m, hcall, -, hlife, -⟩ := (every_failure_reported apart_telemetryPlaces
    life_preparedExporter .usual 0 ⟨[0], none⟩).2
      { traces := { ending := .failed "no route" }, meters := { duration := none } }
  obtain ⟨e'', m', -, -, -, hagain⟩ :=
    (every_failure_reported apart_telemetryPlaces hlife .usual 0 ⟨[0], none⟩).2 {}
  obtain ⟨hcall', hnow, -⟩ := hagain rfl
  exact ⟨e', e'', hcall, hcall', hnow⟩

/-- **When a shutdown comes back by its deadline**: just in case the attempts to end what has been
set up fit before it one after the other, each taking at most the time that is left when the
shutdown begins.  A single one always fits. -/
theorem back_by_deadline_iff (apart : p.Apart) (life : s.Life p M b e) {scope : Scope}
    {deadline : Nat} (hdeadline : scope.deadline = some deadline) (hnow : e.now ≤ deadline)
    (sch : Schedule W) (index : Nat) (c : Closings) :
    ∃ e' o, e.call sch .close index scope (s.close p c) = (e', .outcome o) ∧
      e'.now = e.now + (p.state.get e.world).takes c (deadline - e.now) ∧
      (e'.now ≤ deadline ↔
        (p.state.get e.world).takes c (deadline - e.now) ≤ deadline - e.now) ∧
      ((p.state.get e.world).parts.length ≤ 1 → e'.now ≤ deadline) := by
  obtain ⟨alone, fits, -⟩ := life.fits apart
  obtain ⟨e', m, hcall, hshut⟩ := closes apart alone fits sch index scope c
  have hbudget : (scope.remaining e.now).getD defaultBudget = deadline - e.now := by
    rw [Scope.remaining, hdeadline]
    rfl
  have htakes := hshut.now
  rw [hbudget] at htakes
  refine ⟨e', _, hcall, htakes, by omega, fun hsingle => ?_⟩
  have hfits : (p.state.get e.world).takes c (deadline - e.now) ≤ deadline - e.now := by
    unfold State.takes
    match hparts : (p.state.get e.world).parts with
    | [] => exact Nat.zero_le _
    | [q] => exact (q.closing c).spent_le _
    | _ :: _ :: _ => simp [hparts] at hsingle
  omega

/-- The ends of traces and of meters take so long. -/
def lasting (traces meters : Nat) : Closings where
  traces := { duration := some traces }
  meters := { duration := some meters }

/-- Ends of 600 and 300 nanoseconds fit before a deadline at 1000, two of 600 do not. -/
theorem back_by_deadline_iff_exporter :
    (∃ e' o, preparedExporter.call .usual .close 0 ⟨[0], some 1000⟩
        (exporter.close Host.telemetryPlaces (lasting 600 300)) = (e', .outcome o) ∧
      e'.now ≤ 1000) ∧
    ∃ e' o, preparedExporter.call .usual .close 0 ⟨[0], some 1000⟩
        (exporter.close Host.telemetryPlaces (lasting 600 600)) = (e', .outcome o) ∧
      ¬e'.now ≤ 1000 := by
  have hback := back_by_deadline_iff apart_telemetryPlaces life_preparedExporter
    (show Scope.deadline ⟨[0], some 1000⟩ = some 1000 from rfl) (Nat.zero_le _) .usual 0
  obtain ⟨e₁, o₁, hcall₁, -, hiff₁, -⟩ := hback (lasting 600 300)
  obtain ⟨e₂, o₂, hcall₂, -, hiff₂, -⟩ := hback (lasting 600 600)
  refine ⟨⟨e₁, o₁, hcall₁, hiff₁.2 ?_⟩, e₂, o₂, hcall₂, fun hle => absurd (hiff₂.1 hle) ?_⟩
  · decide
  · decide

/-- Two ends that both come within the time that is left: the shutdown succeeds, 200 nanoseconds
after its deadline. -/
theorem exporter_overruns_deadline :
    exporter.Life Host.telemetryPlaces Eq true preparedExporter ∧ preparedExporter.now = 0 ∧
    ∃ e', preparedExporter.call .usual .close 0 ⟨[0], some 1000⟩
        (exporter.close Host.telemetryPlaces (lasting 600 600)) = (e', .outcome .ok) ∧
      e'.now = 1200 :=
  ⟨life_preparedExporter, rfl, _, Prod.ext rfl rfl, rfl⟩

end Living

end Service

end ServiceHost.Telemetry
