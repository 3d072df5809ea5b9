import ServiceHost.Proofs.Lifecycle.Passage
/-!
The preparations, and what a failure to prepare a process leads to.

`Supervisor.FailsFirst` says of the processes alone, without the supervisor's loop, that one of them
is the first that cannot be prepared; `Supervisor.AllPrepared` says that there is none.  The main
result ties the end of a run, its deeds and its stages to the two.

While processes are prepared there is no task, hence no run that could begin, end or fail
(`Engine.Quiet`).
-/

namespace ServiceHost

variable {W : Type}

namespace Engine

/-! ### No run during the preparations -/

/-- No run has begun: there is no task, and no run is on record. -/
structure Quiet (e : Engine W) : Prop where
  tasks : e.tasks = []
  calls : e.calls .run = []
  failures : e.failures = []

theorem Fresh.quiet {e : Engine W} (h : e.Fresh) : e.Quiet := by
  refine ⟨h.tasks, ?_, ?_⟩
  · simp [calls, entries, h.history, Call.ofEntry?]
  · simp [failures, entries, h.history, Entry.failure?]

/-- An event that is no call and no end of a run leaves no run on record. -/
theorem Quiet.record {e : Engine W} (h : e.Quiet) {event : Event}
    (hcall : Call.ofEntry? .run ⟨e.now, e.stage, event⟩ = none)
    (hfailure : Entry.failure? ⟨e.now, e.stage, event⟩ = none) : (e.record event).Quiet := by
  refine ⟨h.tasks, ?_, ?_⟩
  · rw [calls_record, h.calls, hcall]
    rfl
  · rw [failures_record, h.failures, hfailure]
    rfl

theorem Quiet.publish {e : Engine W} (h : e.Quiet) (stage : Stage) : (e.publish stage).Quiet :=
  ⟨h.tasks, (calls_publish ..).trans h.calls, (failures_publish ..).trans h.failures⟩

/-- Without a task no run begins, whatever happens. -/
theorem Quiet.happens {e e' : Engine W} (h : e.Quiet) (hstep : Happens e e') : e'.Quiet := by
  have hnone (k : Nat) : e.tasks[k]? = none := by simp [h.tasks]
  cases hstep with
  | clock | change | leave => exact ⟨h.tasks, h.calls, h.failures⟩
  | arrive =>
    refine Quiet.record (e := { e with outside := _, tokens := _ }) ?_ rfl rfl
    exact ⟨h.tasks, h.calls, h.failures⟩
  | cancel =>
    refine Quiet.record (e := { e with tokens := _ }) ?_ rfl rfl
    exact ⟨h.tasks, h.calls, h.failures⟩
  -- these need a task
  | start here | goOn here | finish here => cases (hnone _).symm.trans here

theorem kept_quiet : Kept .prepare (Quiet (W := W)) where
  happens _ _ hstep h := h.happens hstep
  called _ _ _ h := h.record rfl rfl
  returned _ _ _ h := h.record rfl rfl

end Engine

namespace Supervisor

open Engine

/-! ### The first failure -/

section Definitions

variable (sch : Schedule W) (sup : Supervisor W) (outer : Scope) (e : Engine W)

/-- A process is the first that cannot be prepared: those before it are prepared one after the other
with success, and then its own preparation fails. -/
def FailsFirst (index : Nat) (source : ComponentError) : Prop :=
  ∃ e', Breaks sch .prepare outer Component.prepare (· = .ok) sup.numbered (e.publish .preRunning)
    index (.outcome (.failed source)) e'

/-- All processes are prepared one after the other with success. -/
def AllPrepared : Prop :=
  ∃ os e', Visits sch .prepare outer Component.prepare sup.numbered (e.publish .preRunning) os e' ∧
    ∀ o ∈ os, o = .ok

end Definitions

variable {sch : Schedule W} {sup : Supervisor W} {outer : Scope} {e e' : Engine W}

/-- A run whose preparations stop at a failure is over. -/
theorem run_of_breaks {index : Nat} {source : ComponentError}
    (h : Breaks sch .prepare outer Component.prepare (· = .ok) sup.numbered (e.publish .preRunning)
      index (.outcome (.failed source)) e') :
    sup.run sch outer e = (e'.publish .stopped, .returned (.error (.preRun source))) := by
  rcases prepareAll_of_breaks h with ⟨hr, -⟩ | ⟨hr, -⟩ | ⟨source', hr, heq⟩
  · cases hr
  · cases hr
  · cases hr
    rw [run, heq]

/-- The deeds of preparations that stop at a call which came back. -/
theorem deeds_of_breaks (he : e.Fresh) {index : Nat} {o : Outcome}
    (h : Breaks sch .prepare outer Component.prepare (· = .ok) sup.numbered (e.publish .preRunning)
      index (.outcome o) e') :
    e'.deeds = [.entered .idle, .entered .preRunning] ++
        Deed.visits .prepare (List.range (index + 1)) ∧ index < sup.processes.length := by
  obtain ⟨before, p, after, hrow, hdeeds⟩ := h.deeds_outcome (by simp)
  obtain ⟨hbefore, hindex⟩ := map_fst_of_numbered_eq hrow
  rw [hdeeds, deeds_publish_preRunning he, hbefore, List.range_succ]
  exact ⟨rfl, hindex⟩

/-- After the first failure nothing else is done, and the run returns it. -/
theorem FailsFirst.run {index : Nat} {source : ComponentError} (he : e.Fresh)
    (h : FailsFirst sch sup outer e index source) :
    index < sup.processes.length ∧
      (sup.run sch outer e).2 = .returned (.error (.preRun source)) ∧
      (sup.run sch outer e).1.deeds = [.entered .idle, .entered .preRunning] ++
        Deed.visits .prepare (List.range (index + 1)) ++ [.entered .stopped] ∧
      (sup.run sch outer e).1.stages = [.idle, .preRunning, .stopped] ∧
      (sup.run sch outer e).1.calls .run = [] := by
  obtain ⟨e', hbreaks⟩ := h
  obtain ⟨hdeeds, hindex⟩ := deeds_of_breaks he hbreaks
  have hquiet : e'.Quiet := kept_quiet.breaks hbreaks (he.quiet.publish .preRunning)
  have hdeeds' : (e'.publish .stopped).deeds = [.entered .idle, .entered .preRunning] ++
      Deed.visits .prepare (List.range (index + 1)) ++ [.entered .stopped] := by
    rw [deeds_publish, hdeeds]
  rw [run_of_breaks hbreaks]
  refine ⟨hindex, rfl, hdeeds', ?_, (hquiet.publish .stopped).calls⟩
  rw [stages_eq, hdeeds', List.filterMap_append, List.filterMap_append,
    Deed.filterMap_stage?_visits]
  rfl

/-- The result of the last stage is no failure to prepare. -/
theorem closingResult_ne_preRun (cause : Option Report) (returns : List (Nat × Outcome))
    (source : ComponentError) :
    closingResult (causeResult cause) returns ≠ .error (.preRun source) := by
  intro hresult
  cases cause with
  | some r =>
    rw [causeResult, closingResult_error] at hresult
    cases hresult
  | none =>
    rcases closingResult_ok returns with ⟨-, hok⟩ | ⟨_, _, _, _, -, -, herror⟩
    · cases hok.symm.trans hresult
    · cases herror.symm.trans hresult

/-- Only a first failure makes a run return a failure to prepare. -/
theorem failsFirst_of_returned {source : ComponentError}
    (hreturned : (sup.run sch outer e).2 = .returned (.error (.preRun source))) :
    ∃ index, FailsFirst sch sup outer e index source := by
  have hends := run_ends sch sup outer e
  generalize sup.run sch outer e = r at hends hreturned
  cases hends with
  | hangs | panics | waits => cases hreturned
  | fails hbreaks =>
    cases hreturned
    exact ⟨_, _, hbreaks⟩
  | @stops os e₁ e₂ =>
    -- the last stage returns what ended the wait or a failure to shut down
    exfalso
    have hstop := stop_ends sch sup (sup.start outer e₁).2 (takeCause sch outer e₂).2
      (takeCause sch outer e₂).1
    generalize stop sch sup _ _ _ = r at hstop hreturned
    cases hstop with
    | unfit | hangs | panics => cases hreturned
    | closed => exact closingResult_ne_preRun _ _ source (Ending.returned.inj hreturned)

/-- Only a run whose processes are all prepared comes to its main stage. -/
theorem allPrepared_of_entered (he : e.Fresh)
    (hrunning : .entered .running ∈ (sup.run sch outer e).1.deeds) :
    AllPrepared sch sup outer e := by
  have hends := run_ends sch sup outer e
  generalize sup.run sch outer e = r at hends hrunning
  cases hends with
  | hangs hbreaks | panics hbreaks => exact absurd hrunning (later_not_mem_of_breaks he hbreaks).1
  | fails hbreaks =>
    rw [deeds_publish, List.mem_append] at hrunning
    rcases hrunning with hrunning | hrunning
    · exact absurd hrunning (later_not_mem_of_breaks he hbreaks).1
    · simp at hrunning
  | waits hvisits hprepared | stops hvisits hprepared => exact ⟨_, _, hvisits, hprepared⟩

/-- **A failure to prepare ends the run, and nothing else does so with its error.**  After the first
process that cannot be prepared no other one is prepared, none is run or shut down, nothing is
announced, and the run returns that error.  A run that returns such an error had such a process, and
a run that comes to its main stage had none. -/
theorem prepare_failure_ends_run (sch : Schedule W) (sup : Supervisor W) (outer : Scope)
    {e : Engine W} (he : e.Fresh) :
    (∀ index source, FailsFirst sch sup outer e index source →
      index < sup.processes.length ∧
      (sup.run sch outer e).2 = .returned (.error (.preRun source)) ∧
      (sup.run sch outer e).1.deeds = [.entered .idle, .entered .preRunning] ++
        Deed.visits .prepare (List.range (index + 1)) ++ [.entered .stopped] ∧
      (sup.run sch outer e).1.stages = [.idle, .preRunning, .stopped] ∧
      (sup.run sch outer e).1.calls .run = []) ∧
    (∀ source, (sup.run sch outer e).2 = .returned (.error (.preRun source)) →
      ∃ index, FailsFirst sch sup outer e index source) ∧
    (.running ∈ (sup.run sch outer e).1.stages → AllPrepared sch sup outer e) := by
  refine ⟨?_, ?_, ?_⟩
  · intro index source hfails
    exact hfails.run he
  · intro source hreturned
    exact failsFirst_of_returned hreturned
  · intro hrunning
    exact allPrepared_of_entered he (mem_stages_iff.1 hrunning)

/-- Of three processes the second cannot be prepared, and the outer scope is already cancelled. -/
theorem prepare_failure_ends_run_second :
    let boom : ComponentError := .text "boom"
    let calm : Component Unit := {}
    let broken : Component Unit := { prepare := .finish (.failed boom) }
    let r := ({ processes := [calm, broken, calm] } : Supervisor Unit).run .usual ⟨[0], none⟩
      (begin () ⟨1, [[0]]⟩ [])
    r.2 = .returned (.error (.preRun boom)) ∧ r.1.deeds = [.entered .idle, .entered .preRunning,
      .called .prepare 0, .returned .prepare 0, .called .prepare 1, .returned .prepare 1,
      .entered .stopped] := by
  intro boom calm broken
  have hnumbered : ({ processes := [calm, broken, calm] } : Supervisor Unit).numbered =
      [(0, calm)] ++ (1, broken) :: [(2, calm)] := rfl
  have hfails : FailsFirst .usual { processes := [calm, broken, calm] } ⟨[0], none⟩
      (begin () ⟨1, [[0]]⟩ []) 1 boom := by
    rw [FailsFirst, hnumbered]
    refine ⟨_, .mk (.cons rfl .nil) (by simp) rfl ?_⟩
    rintro o ho rfl
    cases ho
  have hfresh := fresh_begin () ⟨1, [[0]]⟩ []
  obtain ⟨-, hresult, hdeeds, -, -⟩ :=
    (prepare_failure_ends_run .usual _ ⟨[0], none⟩ hfresh).1 1 boom hfails
  exact ⟨hresult, hdeeds⟩

end Supervisor

end ServiceHost
