import Mathlib.Algebra.GroupWithZero.Nat
import ServiceHost.Proofs.Lifecycle.Stepping
import ServiceHost.Proofs.Server.Registrants
/-!
What shutting telemetry down takes, and what it leaves.

The shutdown goes through three parts and the meter of calls, in a fixed order, and ends each that
has been set up, whatever became of those before it.  The three parts are ended in the same way
(`Telemetry.Provider`): each waits as long as its end takes, but not longer than the budget, which
is the same for each of them (`performs_ending`), and all of them together take the sum
(`performs_endings`).  So a whole shutdown is known from the state in which it begins
(`Service.closes`): how long it takes, what it returns, and what becomes of the registry.
-/

namespace ServiceHost.Telemetry

open Engine

variable {W : Type} {p : Places W} {M : Metrics.State → Metrics.State → Prop}

/-! ### Others who leave telemetry alone -/

/-- What others do who leave the state of telemetry alone, and do to the meters only what `M` allows
them. -/
def Others (p : Places W) (M : Metrics.State → Metrics.State → Prop) (w w' : W) : Prop :=
  p.state.get w' = p.state.get w ∧ M (p.metrics.get w) (p.metrics.get w')

instance (p : Places W) [IsPreorder Metrics.State M] : IsPreorder W (Others p M) where
  refl _ := ⟨rfl, refl _⟩
  trans _ _ _ h h' := ⟨h'.1.trans h.1, IsTrans.trans _ _ _ h.2 h'.2⟩

/-- The places of telemetry are different ones: its state is not changed through the others, nor the
meters through its state. -/
structure Places.Apart (p : Places W) : Prop where
  metrics_state : ∀ st w, p.metrics.get (p.state.put st w) = p.metrics.get w
  state_metrics : ∀ m w, p.state.get (p.metrics.put m w) = p.state.get w
  state_journal : ∀ j w, p.state.get (p.journal.put j w) = p.state.get w
  state_files : ∀ fs w, p.state.get (p.files.put fs w) = p.state.get w

/-! ### The parts that have an end -/

/-- The parts that are ended when telemetry is shut down. -/
inductive Provider where
  | traces
  | meters
  | profiler
  deriving DecidableEq, Repr

namespace Provider

/-- All of them, in the order in which they are ended. -/
def all : List Provider := [traces, meters, profiler]

/-- How a part is called in a report. -/
def label : Provider → String
  | traces => "trace provider shutdown"
  | meters => "meter provider shutdown"
  | profiler => "profiler shutdown"

/-- Has the part been set up? -/
def isSetUp : Provider → State → Bool
  | traces, st => st.traces
  | meters, st => st.meters
  | profiler, st => st.profiler

/-- The state without the part. -/
def clear : Provider → State → State
  | traces, st => { st with traces := false }
  | meters, st => { st with meters := false }
  | profiler, st => { st with profiler := false }

/-- How the end of the part goes. -/
def closing : Provider → Closings → Closing
  | traces, c => c.traces
  | meters, c => c.meters
  | profiler, c => c.profiler

/-- What ends the part. -/
def code (q : Provider) (p : Places W) (c : Closings) : Routine W :=
  Service.ending p q.label q.isSetUp q.clear (q.closing c)

variable {q q' : Provider} {st : State}

/-- A part that has not been set up is not there. -/
theorem clear_eq_self (h : q.isSetUp st = false) : q.clear st = st := by
  obtain ⟨traces, meters, profiler, registered, failures⟩ := st
  cases q <;> simp_all [isSetUp, clear]

/-- Ending a part leaves the others. -/
theorem isSetUp_clear_of_ne (h : q' ≠ q) (st : State) :
    q'.isSetUp (q.clear st) = q'.isSetUp st := by
  cases q <;> cases q' <;> first | rfl | exact absurd rfl h

@[simp] theorem isSetUp_with_failures (q : Provider) (st : State) (texts : List String) :
    q.isSetUp { st with failures := texts } = q.isSetUp st := by
  cases q <;> rfl

@[simp] theorem clear_with_failures (q : Provider) (st : State) (texts : List String) :
    q.clear { st with failures := texts } = { q.clear st with failures := texts } := by
  cases q <;> rfl

end Provider

/-- How long ending a part takes within a budget. -/
def Closing.spent (c : Closing) (budget : Nat) : Nat :=
  c.duration.elim budget (min · budget)

theorem Closing.spent_le (c : Closing) (budget : Nat) : c.spent budget ≤ budget := by
  unfold spent
  cases c.duration with
  | none => exact Nat.le_refl _
  | some d => exact Nat.min_le_right ..

namespace Provider

/-- What a report says of a part whose end fails within a budget. -/
def complaint? (q : Provider) (c : Closings) (budget : Nat) : Option String :=
  ((q.closing c).failure? budget).map fun text => q.label ++ ": " ++ text

/-- How long it takes to end a part, which is no time if it has not been set up. -/
def taken (q : Provider) (c : Closings) (budget : Nat) (st : State) : Nat :=
  if q.isSetUp st then (q.closing c).spent budget else 0

/-- The state when the part has been ended. -/
def ended (q : Provider) (c : Closings) (budget : Nat) (st : State) : State :=
  if q.isSetUp st then
    { q.clear st with failures := st.failures ++ (q.complaint? c budget).toList }
  else st

/-- Ending a part makes no difference to the others. -/
theorem isSetUp_ended_of_ne {q q' : Provider} (h : q' ≠ q) (c : Closings) (budget : Nat)
    (st : State) : q'.isSetUp (q.ended c budget st) = q'.isSetUp st := by
  unfold ended
  split
  · rw [isSetUp_with_failures, isSetUp_clear_of_ne h]
  · rfl

/-- Clearing parts does not look at the failures. -/
theorem foldl_clear_with_failures (qs : List Provider) (st : State) (texts : List String) :
    qs.foldl (fun st q => q.clear st) { st with failures := texts } =
      { qs.foldl (fun st q => q.clear st) st with failures := texts } := by
  induction qs generalizing st with
  | nil => rfl
  | cons q qs ih => rw [List.foldl_cons, List.foldl_cons, clear_with_failures, ih]

/-- Several parts are ended: they are cleared, and those of them that had been set up have left an
entry if they failed. -/
theorem foldl_ended {qs : List Provider} (hqs : qs.Nodup) (c : Closings) (budget : Nat)
    (st : State) :
    qs.foldl (fun st q => q.ended c budget st) st =
      { qs.foldl (fun st q => q.clear st) st with
        failures :=
          st.failures ++ (qs.filter (·.isSetUp st)).filterMap (·.complaint? c budget) } := by
  induction qs generalizing st with
  | nil => simp
  | cons q qs ih =>
    obtain ⟨hq, hqs⟩ := List.nodup_cons.1 hqs
    have hothers : qs.filter (·.isSetUp (q.ended c budget st)) = qs.filter (·.isSetUp st) :=
      List.filter_congr fun q' hq' =>
        isSetUp_ended_of_ne (fun heq => hq (by rwa [← heq])) c budget st
    rw [List.foldl_cons, ih hqs, hothers, List.foldl_cons, List.filter_cons]
    unfold ended
    split
    next hsetUp =>
      rw [foldl_clear_with_failures, List.filterMap_cons]
      cases q.complaint? c budget <;> simp
    next hunset => rw [clear_eq_self (Bool.eq_false_iff.2 hunset)]

end Provider

/-! ### Ending the parts -/

section Ending

variable {c : Closings} {s : Scope} {allowance : Option Nat} {rest : Routine W} {e : Engine W}
  {r : Engine W × Returned} {st : State}

/-- How an engine comes out of a piece of work that has taken so long, with telemetry in the given
state and the meters left to others. -/
structure ComesTo (p : Places W) (M : Metrics.State → Metrics.State → Prop) (e : Engine W)
    (taken : Nat) (st : State) (e' : Engine W) : Prop where
  now : e'.now = e.now + taken
  alone : e'.Respects (Others p M)
  state : p.state.get e'.world = st
  metrics : M (p.metrics.get e.world) (p.metrics.get e'.world)

/-- The pause before the end of a part lasts as long as the end takes, but not longer than the
budget, and no time if the part has not been set up. -/
theorem readyAt_ending {q : Provider} (hst : p.state.get e.world = st) {code : Routine W}
    {since : Nat} (hsince : since ≤ e.now) :
    e.readyAt s since allowance (.pause [.holds fun w => !q.isSetUp (p.state.get w),
        .elapsed fun _ => (q.closing c).duration,
        .elapsed fun allowance => some (allowance.getD defaultBudget)] :: code) =
      some (max e.now (since + q.taken c (allowance.getD defaultBudget) st)) := by
  unfold Provider.taken
  split
  next hsetUp =>
    cases hduration : (q.closing c).duration with
    | none => simp [readyAt, signalAt, hst, hsetUp, Closing.spent, hduration, List.filterMap_cons]
    | some d =>
      have hmin : min (max e.now (since + d)) (max e.now (since + allowance.getD defaultBudget)) =
          max e.now (since + min d (allowance.getD defaultBudget)) := by omega
      simp [readyAt, signalAt, hst, hsetUp, Closing.spent, hduration, hmin]
  next hunset =>
    rw [Nat.add_zero, Nat.max_eq_left hsince]
    refine readyAt_of_given List.mem_cons_self ?_ code
    simp [signalAt, hst, hunset]

variable [IsPreorder Metrics.State M]

/-- A part that has been set up is ended within the budget, and one that has not is passed over. -/
theorem performs_ending (apart : p.Apart) {q : Provider}
    (h : Performs s allowance (q.code p c ++ rest) e r) (alone : e.Respects (Others p M))
    (hst : p.state.get e.world = st) :
    ∃ e', Performs s allowance rest e' r ∧
      ComesTo p M e (q.taken c (allowance.getD defaultBudget) st)
        (q.ended c (allowance.getD defaultBudget) st) e' := by
  unfold Provider.code Service.ending at h
  simp only [List.cons_append, List.nil_append] at h
  have hwaited := h.pause_cases alone (some (q.taken c (allowance.getD defaultBudget) st))
    fun x hworld hlater => readyAt_ending (hworld.1.trans hst) hlater
  rcases hwaited with ⟨d, e₁, hd, hnow, hdrifts, h⟩ | ⟨hnone, -⟩
  case inr => cases hnone
  obtain rfl := Option.some.inj hd
  -- the act that follows looks at the state once more
  obtain ⟨e₂, hnow₂, hdrifts₂, h⟩ := h.act_cases hdrifts.respects
  have hworld := IsTrans.trans _ _ _ hdrifts.world hdrifts₂.world
  have hst₂ : p.state.get e₂.world = st := hworld.1.trans hst
  rw [hst₂] at h
  unfold Provider.ended
  split at h
  next hsetUp =>
    rcases h with ⟨w, gives, h⟩ | ⟨w, o, gives, -⟩
    · obtain ⟨rfl, -⟩ := Prod.mk.inj gives
      refine ⟨_, h, hnow₂.trans hnow, hdrifts₂.respects.of_tasks rfl, ?_, ?_⟩
      · rw [if_pos hsetUp, Slot.get_put]
        rfl
      · rw [apart.metrics_state]
        exact hworld.2
    · cases gives
  next hunset =>
    rcases h with ⟨w, gives, h⟩ | ⟨w, o, gives, -⟩
    · obtain ⟨rfl, -⟩ := Prod.mk.inj gives
      refine ⟨_, h, hnow₂.trans hnow, hdrifts₂.respects.of_tasks rfl, ?_, hworld.2⟩
      rw [if_neg hunset]
      exact hst₂
    · cases gives

/-- Several parts are ended one after the other, each within the same budget. -/
theorem performs_endings (apart : p.Apart) {qs : List Provider} (hqs : qs.Nodup)
    (h : Performs s allowance ((qs.flatMap fun q => q.code p c) ++ rest) e r)
    (alone : e.Respects (Others p M)) (hst : p.state.get e.world = st) :
    ∃ e', Performs s allowance rest e' r ∧
      ComesTo p M e (qs.map fun q => q.taken c (allowance.getD defaultBudget) st).sum
        (qs.foldl (fun st q => q.ended c (allowance.getD defaultBudget) st) st) e' := by
  induction qs generalizing e st with
  | nil => exact ⟨e, h, rfl, alone, hst, refl _⟩
  | cons q qs ih =>
    obtain ⟨hq, hqs⟩ := List.nodup_cons.1 hqs
    rw [List.flatMap_cons, List.append_assoc] at h
    obtain ⟨e₁, h, hfirst⟩ := performs_ending apart h alone hst
    obtain ⟨e₂, h, hothers⟩ := ih hqs h hfirst.alone hfirst.state
    -- the others take as long as they would have taken before
    have htaken : (qs.map fun q' => q'.taken c (allowance.getD defaultBudget)
        (q.ended c (allowance.getD defaultBudget) st)) =
        qs.map fun q' => q'.taken c (allowance.getD defaultBudget) st :=
      List.map_congr_left fun q' hq' => by
        have hne : q' ≠ q := fun heq => hq (by rwa [← heq])
        rw [Provider.taken, Provider.isSetUp_ended_of_ne hne, Provider.taken]
    refine ⟨e₂, h, ?_, hothers.alone, hothers.state,
      IsTrans.trans _ _ _ hfirst.metrics hothers.metrics⟩
    rw [hothers.now, hfirst.now, htaken, List.map_cons, List.sum_cons, Nat.add_assoc]

end Ending

/-! ### A whole shutdown -/

/-- The state of telemetry between two calls: no failures are noted, and only the meter of calls can
be registered. -/
structure Service.Fits (s : Service) (st : State) : Prop where
  failures : st.failures = []
  meter : st.registered = true → s.meter.isSome = true

/-- The parts that have been set up, in the order in which they are ended. -/
def State.parts (st : State) : List Provider :=
  Provider.all.filter (·.isSetUp st)

/-- The meter that a shutdown removes, if it is registered. -/
def Service.removes? (s : Service) (st : State) : Option Nat :=
  if st.registered then s.meter else none

/-- What a shutdown attempts, in this order: the end of each part that has been set up and the
removal of the meter, if it has been registered.  Each attempt comes with its name in a report and
with the cause of its failure, if it fails. -/
def Service.attempts (s : Service) (c : Closings) (budget : Nat) (st : State) (m : Metrics.State) :
    List (String × Option String) :=
  (st.parts.map fun q => (q.label, (q.closing c).failure? budget)) ++
    (s.removes? st).toList.map fun place =>
      ("metrics unregister", (m.unregister place).2.map MetricFault.message)

/-- The report on some attempts: an entry for each that has failed, with its cause. -/
def report (attempts : List (String × Option String)) : List String :=
  attempts.filterMap fun a => a.2.map fun cause => a.1 ++ ": " ++ cause

/-- What a shutdown returns: the report, unless all attempts have succeeded. -/
def reported (attempts : List (String × Option String)) : Outcome :=
  if attempts.all (·.2.isNone) then .ok
  else .failed (.host (.telemetryShutdown (report attempts)))

theorem report_singleton (label : String) (cause : Option String) :
    report [(label, cause)] = (cause.map fun text => label ++ ": " ++ text).toList := by
  cases cause <;> rfl

/-- Nothing is reported if all attempts have succeeded. -/
theorem isEmpty_report (attempts : List (String × Option String)) :
    (report attempts).isEmpty = attempts.all (·.2.isNone) := by
  induction attempts with
  | nil => rfl
  | cons a attempts ih => cases hcause : a.2 <;> simp_all [report]

/-- The meters that a shutdown leaves. -/
def Service.leaves (s : Service) (st : State) (m : Metrics.State) : Metrics.State :=
  (s.removes? st).elim m fun place => (m.unregister place).1

/-- How long a shutdown takes. -/
def State.takes (st : State) (c : Closings) (budget : Nat) : Nat :=
  (st.parts.map fun q => (q.closing c).spent budget).sum

/-- All parts together take so long. -/
theorem State.sum_taken (st : State) (c : Closings) (budget : Nat) :
    (Provider.all.map fun q => q.taken c budget st).sum = st.takes c budget := by
  rw [takes, parts]
  induction Provider.all with
  | nil => rfl
  | cons q qs ih =>
    rw [List.map_cons, List.sum_cons, ih, Provider.taken, List.filter_cons]
    split <;> simp

/-- How an engine comes out of a shutdown which found the meters in the state `m` when it came to
them. -/
structure Service.ShutDown (s : Service) (p : Places W) (M : Metrics.State → Metrics.State → Prop)
    (c : Closings) (budget : Nat) (e : Engine W) (m : Metrics.State) (e' : Engine W) : Prop where
  now : e'.now = e.now + (p.state.get e.world).takes c budget
  alone : e'.Respects (Others p M)
  state : p.state.get e'.world = {}
  before : M (p.metrics.get e.world) m
  after : M (s.leaves (p.state.get e.world) m) (p.metrics.get e'.world)

section Closing

variable [IsPreorder Metrics.State M] {s : Service} {scope : Scope} {allowance : Option Nat}
  {rest : Routine W} {e : Engine W} {r : Engine W × Returned} {st : State}

namespace Service

/-- What a report says of the meter, if it cannot be removed. -/
def meterComplaint? (s : Service) (st : State) (m : Metrics.State) : Option String :=
  (s.removes? st).bind fun place =>
    (m.unregister place).2.map fun fault => "metrics unregister: " ++ fault.message

/-- The report of a shutdown has the entries of its parts, and that of the meter. -/
theorem report_attempts (s : Service) (c : Closings) (budget : Nat) (st : State)
    (m : Metrics.State) :
    report (s.attempts c budget st m) =
      st.parts.filterMap (·.complaint? c budget) ++ (s.meterComplaint? st m).toList := by
  rw [attempts, report, List.filterMap_append, List.filterMap_map]
  congr 1
  unfold meterComplaint?
  cases s.removes? st with
  | none => rfl
  | some place =>
    exact (report_singleton ..).trans (congrArg Option.toList (Option.map_map ..))

/-- The meter is removed at once, if it is registered. -/
theorem performs_unregistering (apart : p.Apart)
    (h : Performs scope allowance (s.unregistering p :: rest) e r)
    (alone : e.Respects (Others p M)) (hst : p.state.get e.world = st)
    (hmeter : st.registered = true → s.meter.isSome = true) :
    ∃ e' m, Performs scope allowance rest e' r ∧ e'.now = e.now ∧ e'.Respects (Others p M) ∧
      p.state.get e'.world =
        { st with registered := false
                  failures := st.failures ++ (s.meterComplaint? st m).toList } ∧
      M (p.metrics.get e.world) m ∧ p.metrics.get e'.world = s.leaves st m := by
  obtain ⟨e₁, hnow, hdrifts, h⟩ := h.act_cases alone
  have hst₁ : p.state.get e₁.world = st := hdrifts.world.1.trans hst
  dsimp only at h
  rw [hst₁] at h
  rcases h with ⟨w, gives, h⟩ | ⟨w, o, gives, -⟩
  case inr => split at gives <;> cases gives
  refine ⟨_, p.metrics.get e₁.world, h, hnow, hdrifts.respects.of_tasks rfl, ?_⟩
  split at gives
  next place hregistered hplace =>
    obtain ⟨rfl, -⟩ := Prod.mk.inj gives
    have hremoves : s.removes? st = some place := by rw [removes?, if_pos hregistered, hplace]
    refine ⟨?_, hdrifts.world.2, ?_⟩
    · rw [Slot.get_put, meterComplaint?, hremoves]
      rfl
    · rw [apart.metrics_state, Slot.get_put, leaves, hremoves]
      rfl
  next hnot =>
    obtain ⟨rfl, -⟩ := Prod.mk.inj gives
    have hregistered : st.registered = false := by
      refine Bool.eq_false_iff.2 fun hregistered => ?_
      obtain ⟨place, hplace⟩ := Option.isSome_iff_exists.1 (hmeter hregistered)
      exact hnot place hregistered hplace
    have hremoves : s.removes? st = none := by
      rw [removes?, if_neg (Bool.eq_false_iff.1 hregistered)]
    refine ⟨?_, hdrifts.world.2, ?_⟩
    · simp [hst₁, meterComplaint?, hremoves, ← hregistered]
    · rw [leaves, hremoves]
      rfl

/-- The failures are reported at once, and forgotten. -/
theorem performs_reporting (apart : p.Apart)
    (h : Performs scope allowance [reporting p] e r) (alone : e.Respects (Others p M))
    (hst : p.state.get e.world = st) :
    ∃ e' o, r = (e', .outcome o) ∧
      o = (if st.failures.isEmpty then .ok else .failed (.host (.telemetryShutdown st.failures))) ∧
      ComesTo p M e 0 { st with failures := [] } e' := by
  obtain ⟨e₁, hnow, hdrifts, h⟩ := h.act_cases alone
  have hst₁ : p.state.get e₁.world = st := hdrifts.world.1.trans hst
  dsimp only at h
  rw [hst₁] at h
  rcases h with ⟨w, gives, -⟩ | ⟨w, o, gives, rfl⟩
  case inl => split at gives <;> cases gives
  have hw : w = p.state.put { st with failures := [] } e₁.world := by
    split at gives <;> exact (Prod.mk.inj gives).1.symm
  refine ⟨_, o, rfl, ?_, hnow, hdrifts.respects.of_tasks rfl, ?_, ?_⟩
  · split at gives
    next hempty => rw [if_pos hempty, Option.some.inj (Prod.mk.inj gives).2]
    next hsome => rw [if_neg hsome, Option.some.inj (Prod.mk.inj gives).2]
  · rw [hw, Slot.get_put]
  · rw [hw, apart.metrics_state]
    exact hdrifts.world.2

/-- The state when all parts have been ended. -/
theorem foldl_ended_all (c : Closings) (budget : Nat) {st : State} (hst : st.failures = []) :
    Provider.all.foldl (fun st q => q.ended c budget st) st =
      { registered := st.registered, failures := st.parts.filterMap (·.complaint? c budget) } := by
  rw [Provider.foldl_ended (by decide), hst]
  rfl

/-- A shutdown ends what has been set up, each part once, and returns the report on that. -/
theorem performs_close (apart : p.Apart) {c : Closings}
    (h : Performs scope allowance (s.close p c) e r) (alone : e.Respects (Others p M))
    (fits : s.Fits (p.state.get e.world)) :
    ∃ e' m, r = (e', .outcome (reported
        (s.attempts c (allowance.getD defaultBudget) (p.state.get e.world) m))) ∧
      s.ShutDown p M c (allowance.getD defaultBudget) e m e' := by
  have hcode : s.close p c = (Provider.all.flatMap fun q => q.code p c) ++
      [s.unregistering p, reporting p] := rfl
  rw [hcode] at h
  obtain ⟨e₁, h, hended⟩ := performs_endings apart (by decide) h alone rfl
  have hst₁ := hended.state
  rw [foldl_ended_all c _ fits.failures] at hst₁
  obtain ⟨e₂, m, h, hnow₂, halone₂, hst₂, hmeters, hleaves⟩ :=
    performs_unregistering apart h hended.alone hst₁ fits.meter
  obtain ⟨e₃, o, rfl, rfl, hreported⟩ := performs_reporting apart h halone₂ hst₂
  refine ⟨e₃, m, ?_, ?_, hreported.alone, hreported.state,
    IsTrans.trans _ _ _ hended.metrics hmeters, ?_⟩
  · rw [reported, ← isEmpty_report, s.report_attempts]
    rfl
  · rw [hreported.now, Nat.add_zero, hnow₂, hended.now, State.sum_taken]
  · have hafter := hreported.metrics
    rwa [hleaves] at hafter

/-- **How a call of the shutdown comes out.** -/
theorem closes (apart : p.Apart) (alone : e.Respects (Others p M))
    (fits : s.Fits (p.state.get e.world)) (sch : Schedule W) (index : Nat) (scope : Scope)
    (c : Closings) :
    ∃ e' m, e.call sch .close index scope (s.close p c) =
        (e', .outcome (reported (s.attempts c ((scope.remaining e.now).getD defaultBudget)
          (p.state.get e.world) m))) ∧
      s.ShutDown p M c ((scope.remaining e.now).getD defaultBudget) e m e' := by
  obtain ⟨r, hperforms, hcall⟩ := call_cases sch .close index scope (s.close p c) e
  obtain ⟨e₁, m, rfl, hshut⟩ := performs_close apart hperforms (alone.of_tasks rfl) fits
  rcases hcall with ⟨e₂, o, hr, hcall⟩ | ⟨e₂, hr, -⟩
  case inr => cases hr
  cases hr
  exact ⟨_, m, hcall, hshut.now, hshut.alone.of_tasks rfl, hshut.state, hshut.before, hshut.after⟩

end Service

end Closing

end ServiceHost.Telemetry
