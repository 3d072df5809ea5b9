import ServiceHost.Metrics.Server
import ServiceHost.Proofs.Listener.Leading
import ServiceHost.Telemetry.Service
/-!
The two processes that register something.

Metrics pages and telemetry work on slots of a world that they share with others.  What becomes of
their meters is said here once for every world, and for every relation that all else they do
respects: what their preparation comes to (`Metrics.Server.Prepared`, `Telemetry.Service.Prepared`),
and what telemetry leaves when it is shut down (`Telemetry.Service.Closed`).
-/

namespace ServiceHost

variable {W : Type} {R : W → W → Prop} {w : W}

/-! ### Metrics pages -/

namespace Metrics.Server

variable {s : Server} {slot : Slot W Listener} {metrics : Slot W State}

/-- What preparing metrics pages comes to: the listener cannot be bound, the version is refused, or
it is registered. -/
inductive Prepared (s : Server) (metrics : Slot W State) (R : W → W → Prop) (w : W) :
    Outcome → W → Prop
  | unbound {fault : ComponentError} {w' : W} (before : R w w') :
      Prepared s metrics R w (.failed fault) w'
  | refused {f : MetricFault} {st : State} {w₁ : W} (before : R w w₁)
      (registers : (metrics.get w₁).register s.version = (st, some f)) :
      Prepared s metrics R w (.failed (.host (.metrics f))) (metrics.put st w₁)
  | registered {st : State} {w₁ : W} (before : R w w₁)
      (registers : (metrics.get w₁).register s.version = (st, none)) :
      Prepared s metrics R w .ok (metrics.put st w₁)

theorem leads_prepare [IsPreorder W R] (hslot : ∀ l w, R w (slot.put l w)) (traffic : Traffic)
    (w : W) :
    (s.component slot metrics traffic).prepare.Leads R (s.Prepared metrics R w) w := by
  apply Listener.leads_binding
  · intro _ _ w₁ hworld
    exact .unbound hworld
  intro w₁ _ l hworld _
  have hbound : R w (slot.put l w₁) := IsTrans.trans _ _ _ hworld (hslot l w₁)
  apply Routine.leads_attempt (fun w => (metrics.put ((metrics.get w).register s.version).1 w,
    ((metrics.get w).register s.version).2))
  · intro f w₂ w₃ hworld₂ hgives
    obtain ⟨rfl, hfault⟩ := Prod.mk.inj hgives
    exact .refused (IsTrans.trans _ _ _ hbound hworld₂) (Prod.ext rfl hfault)
  · intro w₂ w₃ hworld₂ hgives
    obtain ⟨rfl, hfault⟩ := Prod.mk.inj hgives
    exact .nil (.registered (IsTrans.trans _ _ _ hbound hworld₂) (Prod.ext rfl hfault))

end Metrics.Server

/-! ### Telemetry -/

namespace Telemetry

variable {p : Places W} {s : Service} {place : Nat}

/-- A relation respects what telemetry writes down, in the journal and in its files. -/
structure Places.Writes (p : Places W) (R : W → W → Prop) : Prop where
  journal : ∀ j w, R w (p.journal.put j w)
  files : ∀ fs w, R w (p.files.put fs w)

theorem Places.Writes.inform (h : p.Writes R) (target message : String)
    (fields : List (String × Logging.Value)) (w : W) : R w (p.inform target message fields w) :=
  h.journal _ w

/-- A relation respects whatever telemetry does besides its meter. -/
structure Places.Minor (p : Places W) (R : W → W → Prop) : Prop where
  journal : ∀ j w, R w (p.journal.put j w)
  files : ∀ fs w, R w (p.files.put fs w)
  state : ∀ st w, st.registered = (p.state.get w).registered → R w (p.state.put st w)

theorem Places.Minor.writes (h : p.Minor R) : p.Writes R :=
  ⟨h.journal, h.files⟩

theorem Places.Minor.inform (h : p.Minor R) (target message : String)
    (fields : List (String × Logging.Value)) (w : W) : R w (p.inform target message fields w) :=
  h.writes.inform target message fields w

namespace Service

/-! #### Setting up -/

/-- Setting up a part respects what the setup itself does. -/
theorem respects_settingUp {rest : Routine W} {setup : Setup W} (h : rest.Respects R) (part : Part)
    (hsetup : ∀ w, R w (setup w).1) : Routine.Respects R (settingUp part setup :: rest) :=
  h.act fun _ w => hsetup w

/-- Setting up a part leads on, or fails. -/
theorem leads_settingUp {Q : Outcome → W → Prop} {rest : Routine W} {setup : Setup W} (part : Part)
    (hends : ∀ fault w₁ w₂, R w w₁ → setup w₁ = (w₂, some fault) →
      Q (.failed (.host (setupError part fault))) w₂)
    (hrest : ∀ w₁ w₂, R w w₁ → setup w₁ = (w₂, none) → rest.Leads R Q w₂) :
    Routine.Leads R Q (settingUp part setup :: rest) w :=
  Routine.leads_attempt setup (fun fault => .failed (.host (setupError part fault))) hends hrest

section

variable [IsPreorder W R] (h : p.Writes R)

include h

theorem writes_setupLogging (coloured : Bool) (w : W) : R w (s.setupLogging p coloured w).1 := by
  have hstart (w : W) : R w (s.startLogging p coloured w) := by
    unfold startLogging
    split
    · exact IsTrans.trans _ _ _ (h.journal _ _) (h.inform ..)
    · exact h.journal _ _
  unfold setupLogging
  split
  · exact h.inform ..
  · split
    · exact hstart w
    · split
      · exact IsTrans.trans _ _ _ (h.files _ w) (hstart _)
      · exact refl w

theorem writes_setupProfiling (w : W) : R w (s.setupProfiling p w).1 := by
  unfold setupProfiling
  dsimp only
  split
  · exact h.inform ..
  · split
    · exact h.inform ..
    · exact refl w
    · exact h.inform ..
    · exact h.inform ..

end

section

variable [IsPreorder W R] (h : p.Minor R)

include h

theorem minor_setupTracing (w : W) : R w (s.setupTracing p w).1 := by
  have hshown (c : Prop) [Decidable c] (target message : String)
      (fields : List (String × Logging.Value)) :
      R w (if c then p.inform target message fields w else w) := by
    split
    · exact h.inform ..
    · exact refl w
  unfold setupTracing
  dsimp only
  split
  · exact h.inform ..
  · split
    · exact hshown ..
    · exact IsTrans.trans _ _ _ (IsTrans.trans _ _ _ (hshown ..) (h.inform ..)) (h.state _ _ rfl)

/-- Without a meter of calls nothing is registered. -/
theorem minor_setupMetrics (hmeter : s.meter = none) (w : W) : R w (s.setupMetrics p w).1 := by
  unfold setupMetrics
  rw [hmeter]
  dsimp only
  split
  · exact h.inform ..
  · split
    · next hsome => cases hsome
    · exact h.inform ..
    · split
      · exact refl w
      · exact IsTrans.trans _ _ _ (h.inform ..) (h.state _ _ rfl)

/-- What is set up after the metrics. -/
theorem respects_lateParts (coloured : Bool) :
    Routine.Respects R [settingUp .logging (s.setupLogging p coloured),
      settingUp .profiling (s.setupProfiling p)] :=
  respects_settingUp (respects_settingUp Routine.respects_nil _ (writes_setupProfiling h.writes)) _
    (writes_setupLogging h.writes coloured)

/-- Without a meter of calls the preparation registers nothing. -/
theorem respects_prepare (hmeter : s.meter = none) (coloured : Bool) :
    (s.prepare p coloured).Respects R :=
  .act (respects_settingUp (respects_settingUp (respects_lateParts h coloured) _
    (minor_setupMetrics h hmeter)) _ (minor_setupTracing h)) fun _ w => h.inform _ _ _ w

end

theorem enabled_of_countsCalls {settings : Settings} (h : countsCalls settings = true) :
    settings.telemetry.metrics.enabled = true ∧
      settings.telemetry.metrics.backend = .prometheus := by
  simpa [countsCalls] using h

/-- The metrics cannot be set up if the meter is refused. -/
theorem setupMetrics_refused (hmeter : s.meter = some place)
    (hcounts : countsCalls s.settings = true) {st : Metrics.State} {f : MetricFault}
    (hregister : (p.metrics.get w).register place = (st, some f)) :
    s.setupMetrics p w = (p.metrics.put st w, some (.registration f)) := by
  obtain ⟨henabled, hbackend⟩ := enabled_of_countsCalls hcounts
  unfold setupMetrics
  dsimp only
  rw [hmeter, henabled, hbackend]
  simp only [hregister]
  rfl

/-- They are set up if it is registered, which is noted. -/
theorem setupMetrics_registered (hmeter : s.meter = some place)
    (hcounts : countsCalls s.settings = true) {st : Metrics.State}
    (hregister : (p.metrics.get w).register place = (st, none)) :
    ∃ fields, s.setupMetrics p w =
      (p.inform (targetOf "") "Prometheus metrics initialized" fields
        (p.state.modify (fun st => { st with registered := true }) (p.metrics.put st w)),
          none) := by
  obtain ⟨henabled, hbackend⟩ := enabled_of_countsCalls hcounts
  unfold setupMetrics
  dsimp only
  rw [hmeter, henabled, hbackend]
  simp only [hregister]
  exact ⟨_, rfl⟩

/-- What preparing telemetry with a meter of calls comes to: it fails before that, the meter is
refused, or it is registered, and then a later part may still fail. -/
inductive Prepared (p : Places W) (place : Nat) (R : W → W → Prop) (w : W) : Outcome → W → Prop
  | untraced {fault : SetupFault} {w' : W} (before : R w w') :
      Prepared p place R w (.failed (.host (setupError .tracing fault))) w'
  | refused {fault : SetupFault} {f : MetricFault} {st : Metrics.State} {w₁ : W} (before : R w w₁)
      (registers : (p.metrics.get w₁).register place = (st, some f)) :
      Prepared p place R w (.failed (.host (setupError .metrics fault))) (p.metrics.put st w₁)
  | registered {o : Outcome} {st : Metrics.State} {w₁ w' : W} (before : R w w₁)
      (registers : (p.metrics.get w₁).register place = (st, none))
      (after : R (p.state.modify (fun st => { st with registered := true }) (p.metrics.put st w₁))
        w')
      (ends : o = .ok ∨ ∃ part fault, (part = .logging ∨ part = .profiling) ∧
        o = .failed (.host (setupError part fault))) : Prepared p place R w o w'

theorem leads_prepare [IsPreorder W R] (h : p.Minor R) (hmeter : s.meter = some place)
    (hcounts : countsCalls s.settings = true) (coloured : Bool) (w : W) :
    (s.prepare p coloured).Leads R (Prepared p place R w) w := by
  have htrans {w₁ w₂ w₃ : W} (h : R w₁ w₂) (h' : R w₂ w₃) : R w₁ w₃ := IsTrans.trans _ _ _ h h'
  -- what a setup does that leaves the meter alone
  have hsets {setup : Setup W} {w₁ w₂ : W} {fault : Option SetupFault}
      (hminor : ∀ w, R w (setup w).1) (hgives : setup w₁ = (w₂, fault)) : R w₁ w₂ := by
    have hworld := hminor w₁
    rwa [hgives] at hworld
  refine .act (fun _ _ _ _ _ hends => by cases hends) fun _ w₁ w₂ hworld hgives => ?_
  obtain ⟨rfl, -⟩ := Prod.mk.inj hgives
  have hbegun := htrans hworld (h.inform (targetOf "") "📡 Initializing telemetry services" [] w₁)
  apply leads_settingUp .tracing
  · intro fault w₃ w₄ hworld hsetup
    exact .untraced (htrans hbegun (htrans hworld (hsets (minor_setupTracing h) hsetup)))
  intro w₃ w₄ hworld hsetup
  have htraced := htrans hbegun (htrans hworld (hsets (minor_setupTracing h) hsetup))
  apply leads_settingUp .metrics
  · intro fault w₅ w₆ hworld hsetup
    rcases hregister : (p.metrics.get w₅).register place with ⟨st, _ | f⟩
    · obtain ⟨fields, heq⟩ := setupMetrics_registered hmeter hcounts hregister
      cases heq.symm.trans hsetup
    · rw [setupMetrics_refused hmeter hcounts hregister] at hsetup
      obtain ⟨rfl, -⟩ := Prod.mk.inj hsetup
      exact .refused (htrans htraced hworld) hregister
  intro w₅ w₆ hworld hsetup
  rcases hregister : (p.metrics.get w₅).register place with ⟨st, _ | f⟩
  case some =>
    rw [setupMetrics_refused hmeter hcounts hregister] at hsetup
    cases hsetup
  obtain ⟨fields, heq⟩ := setupMetrics_registered hmeter hcounts hregister
  obtain ⟨rfl, -⟩ := Prod.mk.inj (heq.symm.trans hsetup)
  have hmeasured := htrans htraced hworld
  have hnoted := h.inform (targetOf "") "Prometheus metrics initialized" fields
    (p.state.modify (fun st => { st with registered := true }) (p.metrics.put st w₅))
  apply leads_settingUp .logging
  · intro fault w₇ w₈ hworld hsetup
    exact .registered hmeasured hregister
      (htrans hnoted (htrans hworld (hsets (writes_setupLogging h.writes coloured) hsetup)))
      (.inr ⟨_, _, .inl rfl, rfl⟩)
  intro w₇ w₈ hworld hsetup
  have hlogged := htrans hnoted (htrans hworld (hsets (writes_setupLogging h.writes coloured) hsetup))
  apply leads_settingUp .profiling
  · intro fault w₉ w₁₀ hworld hsetup
    exact .registered hmeasured hregister
      (htrans hlogged (htrans hworld (hsets (writes_setupProfiling h.writes) hsetup)))
      (.inr ⟨_, _, .inr rfl, rfl⟩)
  · intro w₉ w₁₀ hworld hsetup
    exact .nil (.registered hmeasured hregister
      (htrans hlogged (htrans hworld (hsets (writes_setupProfiling h.writes) hsetup))) (.inl rfl))

/-! #### Shutting down -/

/-- What telemetry does first when it is shut down: it ends the parts that have been set up. -/
def endings (p : Places W) (c : Closings) : Routine W :=
  ending p "trace provider shutdown" (·.traces) (fun st => { st with traces := false }) c.traces ++
    ending p "meter provider shutdown" (·.meters) (fun st => { st with meters := false }) c.meters ++
    ending p "profiler shutdown" (·.profiler) (fun st => { st with profiler := false }) c.profiler

theorem close_eq (s : Service) (p : Places W) (c : Closings) :
    s.close p c = endings p c ++ [s.unregistering p, reporting p] := rfl

/-- Ending a part leaves the meter alone, and the shutdown goes on. -/
theorem minor_ending [IsPreorder W R] (h : p.Minor R) {label : String} {isSetUp : State → Bool}
    {clear : State → State} (hclear : ∀ st, (clear st).registered = st.registered) {c : Closing}
    {effect : Moment → W → W × Option Outcome}
    (hmem : .act effect ∈ ending p label isSetUp clear c) (m : Moment) (w : W) :
    R w (effect m w).1 ∧ (effect m w).2 = none := by
  simp only [ending, List.mem_cons, Instruction.act.injEq, reduceCtorEq, false_or,
    List.not_mem_nil, or_false] at hmem
  rw [hmem]
  dsimp only
  split
  · exact ⟨h.state _ w (hclear _), rfl⟩
  · exact ⟨refl w, rfl⟩

theorem minor_endings [IsPreorder W R] (h : p.Minor R) {c : Closings}
    {effect : Moment → W → W × Option Outcome} (hmem : .act effect ∈ endings p c) (m : Moment)
    (w : W) : R w (effect m w).1 ∧ (effect m w).2 = none := by
  rw [endings, List.mem_append, List.mem_append] at hmem
  rcases hmem with (hmem | hmem) | hmem
  all_goals
    refine minor_ending h ?_ hmem m w
    exact fun _ => rfl

/-- What shutting telemetry down comes to: the meter is removed, if it has been registered. -/
inductive Closed (s : Service) (p : Places W) (R : W → W → Prop) (w w' : W) : Prop
  | removed {failures : List String} {place : Nat} {w₁ : W} (before : R w w₁)
      (flag : (p.state.get w₁).registered = true) (meter : s.meter = some place)
      (after : R (p.state.put { p.state.get w₁ with registered := false, failures := failures }
        (p.metrics.put ((p.metrics.get w₁).unregister place).1 w₁)) w')
  | kept {w₁ : W} (before : R w w₁)
      (flag : (p.state.get w₁).registered = false ∨ s.meter = none) (after : R w₁ w')

theorem leads_close [IsPreorder W R] (h : p.Minor R) (s : Service) (c : Closings) (w : W) :
    (s.close p c).Leads R (fun _ w' => s.Closed p R w w') w := by
  have htrans {w₁ w₂ w₃ : W} (h : R w₁ w₂) (h' : R w₂ w₃) : R w₁ w₃ := IsTrans.trans _ _ _ h h'
  have hendings : (endings p c).Respects R := fun _ hmem m w => (minor_endings h hmem m w).1
  -- after the meter only the report is left
  have hreports {w₁ : W} (hclosed : ∀ w', R w₁ w' → s.Closed p R w w') :
      Routine.Leads R (fun _ w' => s.Closed p R w w') [reporting p] w₁ := by
    refine Routine.Respects.leads (Routine.respects_nil.act fun _ w => ?_) fun _ => hclosed
    dsimp only
    split <;> exact h.state _ w rfl
  rw [close_eq]
  refine hendings.leads_append (fun effect hmem m w₁ _ _ _ hgives => ?_) fun w₁ hworld => ?_
  · have hgoesOn := (minor_endings h hmem m w₁).2
    rw [hgives] at hgoesOn
    cases hgoesOn
  refine .act (fun _ _ _ _ _ hgives => ?_) fun _ w₂ w₃ hworld₂ hgives => ?_
  · dsimp only at hgives
    split at hgives <;> cases hgives
  · dsimp only at hgives
    split at hgives
    next hflag hmeter =>
      obtain ⟨rfl, -⟩ := Prod.mk.inj hgives
      exact hreports fun w' => .removed (htrans hworld hworld₂) hflag hmeter
    next hnot =>
      obtain ⟨rfl, -⟩ := Prod.mk.inj hgives
      refine hreports fun w' => .kept (htrans hworld hworld₂) ?_
      cases hflag : (p.state.get w₂).registered with
      | false => exact .inl rfl
      | true =>
        refine .inr (Option.eq_none_iff_forall_not_mem.2 fun place hplace => ?_)
        exact hnot place hflag hplace

theorem exists_limit?_ending (label : String) (isSetUp : State → Bool) (clear : State → State)
    (c : Closing) (allowance : Option Nat) {i : Instruction W}
    (hmem : i ∈ ending p label isSetUp clear c) : ∃ d, i.limit? allowance = some d := by
  simp only [ending, List.mem_cons, List.not_mem_nil, or_false] at hmem
  rcases hmem with rfl | rfl
  · -- without a budget of its own it waits for the default
    have hmem : (.elapsed fun allowance => some (allowance.getD defaultBudget)) ∈
        [Signal.holds fun w => !isSetUp (p.state.get w), .elapsed fun _ => c.duration,
          .elapsed fun allowance => some (allowance.getD defaultBudget)] := by simp
    exact Instruction.exists_limit?_pause hmem rfl
  · exact ⟨0, rfl⟩

/-- A shutdown of telemetry has a limit, in every scope. -/
theorem exists_limit?_close (s : Service) (p : Places W) (c : Closings) (allowance : Option Nat) :
    ∃ d, (s.close p c).limit? allowance = some d := by
  apply Routine.exists_limit?
  intro i hmem
  rw [close_eq, endings, List.mem_append, List.mem_append, List.mem_append] at hmem
  rcases hmem with ((hmem | hmem) | hmem) | hmem
  · exact exists_limit?_ending _ _ _ _ allowance hmem
  · exact exists_limit?_ending _ _ _ _ allowance hmem
  · exact exists_limit?_ending _ _ _ _ allowance hmem
  · simp only [List.mem_cons, List.not_mem_nil, or_false] at hmem
    rcases hmem with rfl | rfl <;> exact ⟨0, rfl⟩

end Service

end Telemetry

end ServiceHost
