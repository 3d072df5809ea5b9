import ServiceHost.Proofs.Lifecycle.Order
import ServiceHost.Proofs.Lifecycle.Moves
/-!
A shutdown that panics.

A failure of a running process is reported, and a failure to shut down is kept for the result, so
that neither keeps the supervisor from its work.  A panic of a shutdown does: the row of shutdowns
stops there, and with it the run.  `Supervisor.brokenCourse` lists what such a run has done, and
`Supervisor.close_panic_ends_run` says that the supervisor does no more than that: the processes
before the one that panicked are not shut down, the running ones are not told to stop, nothing is
drained, and the last stage is never left.

All this is about what the supervisor does.  When a panic has ended it, the tasks that are still
running go with it; their end is no deed of its own, and the record does not show it.
-/

namespace ServiceHost

variable {W : Type}

namespace Engine

variable {sch : Schedule W} {phase : Phase} {s : Scope} {code : Component W → Routine W}
  {good : Outcome → Prop} {row row' : List (Nat × Component W)} {e e₁ e₂ : Engine W}
  {os os' : List Outcome} {index : Nat}

/-! ### Rows that stop at a call which came back -/

/-- One row of calls after another. -/
theorem Visits.append (h : Visits sch phase s code row e os e₁)
    (h' : Visits sch phase s code row' e₁ os' e₂) :
    Visits sch phase s code (row ++ row') e (os ++ os') e₂ := by
  induction h with
  | nil => exact h'
  | cons hfirst _ ih => exact .cons hfirst (ih h')

/-- A row that stops at a call which came back is a row of calls up to there. -/
theorem Breaks.visits_outcome {o : Outcome}
    (h : Breaks sch phase s code good row e index (.outcome o) e₁) :
    ∃ before p after os, row = before ++ (index, p) :: after ∧ (∀ x ∈ os, good x) ∧
      Visits sch phase s code (before ++ [(index, p)]) e (os ++ [o]) e₁ := by
  obtain ⟨hvisits, hall, hcall, -⟩ := h
  exact ⟨_, _, _, _, rfl, hall, hvisits.append (.cons hcall .nil)⟩

/-- The only return of a row that stops which would not let it go on is that of the call at which
it stops. -/
theorem Breaks.eq_of_mem_returns (hphase : phase ≠ .run) {r : Returned}
    (h : Breaks sch phase s code good row e index r e₁) (hnone : e.returns phase = []) {i : Nat}
    {o : Outcome} (hmem : (i, o) ∈ e₁.returns phase) (ho : ¬ good o) :
    i = index ∧ r = .outcome o := by
  obtain ⟨hvisits, hall, hcall, -⟩ := h
  have hreturns := hvisits.returns_eq hphase
  rw [hnone, List.nil_append] at hreturns
  cases r with
  | never =>
    rw [returns_call_never hphase hcall, hreturns] at hmem
    exact absurd (hall o (List.of_mem_zip hmem).2) ho
  | outcome o' =>
    rw [returns_call hphase hcall, hreturns, List.mem_append, List.mem_singleton] at hmem
    rcases hmem with hmem | heq
    · exact absurd (hall o (List.of_mem_zip hmem).2) ho
    · obtain ⟨rfl, rfl⟩ := Prod.mk.inj heq
      exact ⟨rfl, rfl⟩

end Engine

namespace Supervisor

open Engine

variable {sch : Schedule W} {sup : Supervisor W} {outer : Scope} {e e₁ e₂ : Engine W}

/-! ### What has been done by then -/

/-- The processes that are shut down if that is over with process `i`, in order: from the last one
down to it. -/
def downTo (sup : Supervisor W) (i : Nat) : List Nat :=
  (List.range sup.processes.length).reverse.take (sup.processes.length - i)

/-- The deeds of a run that ends with the shutdown of process `i`. -/
def brokenCourse (sup : Supervisor W) (i : Nat) : List Deed :=
  sup.opening ++ [.entered .stopping] ++ Deed.visits .close (sup.downTo i)

/-- No process is shut down that stands before the one with which that is over. -/
theorem le_of_mem_downTo {i j : Nat} (h : j ∈ sup.downTo i) : i ≤ j := by
  obtain ⟨k, hk, rfl⟩ := List.mem_iff_getElem.1 h
  unfold downTo at hk ⊢
  rw [List.length_take, List.length_reverse, List.length_range] at hk
  rw [List.getElem_take, List.getElem_reverse, List.getElem_range, List.length_range]
  omega

/-- What stands in the row of shutdowns up to a process are that process and those after it. -/
theorem map_fst_of_reverse_numbered_eq {index : Nat} {p : Component W}
    {before after : List (Nat × Component W)}
    (h : sup.numbered.reverse = before ++ (index, p) :: after) :
    (before ++ [(index, p)]).map Prod.fst = sup.downTo index ∧ index < sup.processes.length := by
  have hforward : sup.numbered = after.reverse ++ (index, p) :: before.reverse := by
    rw [← List.reverse_reverse sup.numbered, h]
    simp
  obtain ⟨hafter, hindex⟩ := map_fst_of_numbered_eq hforward
  have hlength : after.length = index := by
    simpa using congrArg List.length hafter
  have hrow : before.length + (after.length + 1) = sup.processes.length := by
    have := congrArg List.length (map_fst_reverse_numbered sup)
    rw [h] at this
    simpa using this
  refine ⟨?_, hindex⟩
  have hsplit : (List.range sup.processes.length).reverse =
      (before ++ [(index, p)]).map Prod.fst ++ after.map Prod.fst := by
    rw [← map_fst_reverse_numbered, h]
    simp
  rw [downTo, hsplit, List.take_left']
  rw [List.length_map, List.length_append, List.length_singleton]
  omega

/-- A run that a panic ends has entered all stages up to the last one. -/
theorem stages_brokenCourse {i : Nat} (h : e.deeds = sup.brokenCourse i) :
    e.stages = [.idle, .preRunning, .running, .stopping] := by
  rw [stages_eq, h]
  unfold brokenCourse opening
  simp only [List.filterMap_append, Deed.filterMap_stage?_visits]
  split <;> rfl

/-- The shutdowns of a run that a panic ends. -/
theorem closes_brokenCourse {i : Nat} (h : e.deeds = sup.brokenCourse i) :
    (e.calls .close).map Call.index = sup.downTo i := by
  rw [map_index_calls (by simp), h]
  unfold brokenCourse opening
  simp only [List.filterMap_append, Deed.filterMap_index?_visits,
    Deed.filterMap_index?_visits_of_ne (show Phase.prepare ≠ Phase.close by simp)]
  split <;> rfl

/-- A run that a panic ends has not told its running processes to stop. -/
theorem runCancelled_not_mem_brokenCourse (sup : Supervisor W) (i : Nat) :
    .runCancelled ∉ sup.brokenCourse i := by
  simp [brokenCourse, opening, Deed.visits]

/-! ### Whole runs -/

/-- If a shutdown panics, that is the end of the run. -/
theorem Stops.broken_of_panic (h : Stops sch sup outer e e₁ e₂) (he : e.Fresh) {i : Nat}
    (hpanic : (i, .panicked) ∈ (sup.run sch outer e).1.returns .close) :
    (sup.run sch outer e).2 = .panicked ∧ i < sup.processes.length ∧
      (sup.run sch outer e).1.deeds = sup.brokenCourse i ∧
      (sup.run sch outer e).1.stage = .stopping := by
  have hpassed := h.passed he
  have hends := h.ends
  generalize sup.run sch outer e = r at hends hpanic ⊢
  cases hends with
  | unfit =>
    -- nothing is shut down
    rw [returns_publish, hpassed.returns] at hpanic
    cases hpanic
  | hangs _ hbreaks =>
    have hlast := hbreaks.eq_of_mem_returns (by simp) hpassed.returns_closing hpanic (by simp)
    cases hlast.2
  | panics _ hbreaks =>
    obtain ⟨rfl, -⟩ :=
      hbreaks.eq_of_mem_returns (by simp) hpassed.returns_closing hpanic (by simp)
    obtain ⟨before, p, after, os, hrow, -, hvisits⟩ := hbreaks.visits_outcome
    obtain ⟨hindices, hi⟩ := map_fst_of_reverse_numbered_eq hrow
    refine ⟨rfl, hi, ?_, hvisits.stage_eq⟩
    rw [hvisits.deeds_eq (by simp), hpassed.deeds_closing, hindices]
    rfl
  | closed _ hvisits hall =>
    have hcompleted := hpassed.completed (sup.start outer e₁).2
      ((takeCause sch outer e₂).1.now + sup.closeTimeout) hvisits hall
    rw [hcompleted.returns] at hpanic
    exact absurd rfl (hall _ (List.of_mem_zip hpanic).2)

/-- If the clock cannot show the end of the time to shut down, the run ends by a panic when its last
stage is entered, and no process is shut down. -/
theorem Stops.broken_of_unfit (h : Stops sch sup outer e e₁ e₂) (he : e.Fresh)
    (hunfit : clockLimit ≤ e₂.now + sup.closeTimeout) :
    (sup.run sch outer e).2 = .panicked ∧
      (sup.run sch outer e).1.deeds = sup.opening ++ [.entered .stopping] ∧
      (sup.run sch outer e).1.calls .close = [] ∧ (sup.run sch outer e).1.stage = .stopping := by
  have hpassed := h.passed he
  have hends := h.ends
  rw [← now_takeCause sch outer] at hunfit
  generalize sup.run sch outer e = r at hends ⊢
  cases hends with
  | unfit =>
    refine ⟨rfl, by rw [deeds_publish, hpassed.deeds], ?_, rfl⟩
    refine List.eq_nil_iff_forall_not_mem.2 fun c hc => ?_
    exact hpassed.called_close_not_mem c.index (called_mem_deeds (by simp) hc)
  | hangs hfits | panics hfits | closed hfits => exact absurd hunfit (Nat.not_le.2 hfits)

/-- **A shutdown that panics ends the run.**  If the shutdown of a process panics while a run is in
its last stage, then the processes behind it have been shut down in reverse order and those before
it never are, the supervisor does not tell the running processes to stop, neither aborts one of them
nor takes out a report, and ends by that panic without leaving its last stage.  If the clock can
show the end of the time to shut down and every shutdown comes back, the run does all that a full
course lists just in case none of them panics. -/
theorem close_panic_ends_run (sch : Schedule W) (sup : Supervisor W) (outer : Scope) {e : Engine W}
    (he : e.Fresh) {time : Nat}
    (hstopping : (sup.run sch outer e).1.enteredAt? .stopping = some time) :
    (∀ i, (i, .panicked) ∈ (sup.run sch outer e).1.returns .close →
      (sup.run sch outer e).2 = .panicked ∧ i < sup.processes.length ∧
      (sup.run sch outer e).1.deeds = sup.brokenCourse i ∧
      ((sup.run sch outer e).1.calls .close).map Call.index = sup.downTo i ∧
      (∀ c ∈ (sup.run sch outer e).1.calls .close, i ≤ c.index) ∧
      .runCancelled ∉ (sup.run sch outer e).1.deeds ∧
      (∀ x ∈ (sup.run sch outer e).1.entries, x.event.Ongoing) ∧
      (sup.run sch outer e).1.stages = [.idle, .preRunning, .running, .stopping] ∧
      (sup.run sch outer e).1.stage = .stopping) ∧
    (time + sup.closeTimeout < clockLimit →
      (∀ c ∈ (sup.run sch outer e).1.calls .close,
        ∃ x ∈ (sup.run sch outer e).1.returns .close, x.1 = c.index) →
      ((sup.run sch outer e).1.deeds = sup.fullCourse ↔
        ∀ i, (i, .panicked) ∉ (sup.run sch outer e).1.returns .close)) := by
  obtain ⟨e₁, e₂, hstops⟩ := stops_of_entered he (.inl (entered_mem_deeds hstopping))
  obtain rfl : e₂.now = time :=
    Option.some.inj ((hstops.enteredAt?_stopping he).symm.trans hstopping)
  refine ⟨fun i hpanic => ?_, fun hfits hback => ⟨fun hfull i hpanic => ?_, fun hnone => ?_⟩⟩
  · obtain ⟨hended, hi, hdeeds, hstage⟩ := hstops.broken_of_panic he hpanic
    have hcalls := closes_brokenCourse hdeeds
    refine ⟨hended, hi, hdeeds, hcalls, ?_, ?_, ?_, stages_brokenCourse hdeeds, hstage⟩
    · intro c hc
      exact le_of_mem_downTo (hcalls ▸ List.mem_map_of_mem hc)
    · rw [hdeeds]
      exact runCancelled_not_mem_brokenCourse sup i
    · -- a run that returns nothing has cleared nothing away
      obtain ⟨os, hvisits, -⟩ := hstops.prepared
      obtain ⟨e₃, hpath, hend⟩ := hstops.moves (fun _ _ => True) (fun _ _ _ _ _ => trivial) trivial
      rcases hend with ⟨heq, -⟩ | ⟨-, -, result, hreturned⟩
      · rw [heq]
        exact ongoing_of_path he hvisits hpath
      · cases hended.symm.trans hreturned
  · obtain ⟨-, -, hdeeds, -⟩ := hstops.broken_of_panic he hpanic
    apply runCancelled_not_mem_brokenCourse sup i
    rw [← hdeeds, hfull]
    simp [fullCourse]
  · have hcloses : (sup.run sch outer e).1.ClosesReturn := by
      intro c hc
      obtain ⟨⟨i, o⟩, hx, rfl⟩ := hback c hc
      exact ⟨(c.index, o), hx, rfl, fun ho => hnone c.index (ho ▸ hx)⟩
    obtain ⟨os, hcompleted⟩ := hstops.completed_of_closesReturn he hfits hcloses
    exact hcompleted.deeds

/-- Of three processes the second panics when it is shut down, after the first has failed: the first
is never shut down, and the run does not come to the stage in which it would be over. -/
theorem close_panic_ends_run_second :
    let failing : Component Unit :=
      { run := .sleep (150 * Duration.nanosPerMilli) ++ .failWith (some (.text "crash")) }
    let panicking : Component Unit := { close := .finish .panicked }
    let r := ({ processes := [failing, panicking, {}] } : Supervisor Unit).run .usual ⟨[0], none⟩
      (begin () ⟨1, []⟩ [])
    r.2 = .panicked ∧ (r.1.calls .close).map Call.index = [2, 1] ∧
      .runCancelled ∉ r.1.deeds ∧ r.1.stages = [.idle, .preRunning, .running, .stopping] := by
  intro failing panicking r
  have hstopping : r.1.enteredAt? .stopping = some (150 * Duration.nanosPerMilli) := by
    decide +kernel
  have hpanic : (1, .panicked) ∈ r.1.returns .close := by decide +kernel
  obtain ⟨hended, -, -, hcalls, -, hrunning, -, hstages, -⟩ := (close_panic_ends_run .usual
    { processes := [failing, panicking, {}] } ⟨[0], none⟩ (fresh_begin () ⟨1, []⟩ []) hstopping).1
    1 hpanic
  exact ⟨hended, hcalls.trans (by decide), hrunning, hstages⟩

/-- A panic of a shutdown is not contained as a failure is: with the failure the other process is
shut down and the run comes to its end, with the panic neither. -/
theorem close_panic_uncontained :
    let failing : Component Unit :=
      { run := .sleep (150 * Duration.nanosPerMilli) ++ .failWith (some (.text "crash")) }
    let run (o : Outcome) := ({ processes := [failing, { close := .finish o }] } :
      Supervisor Unit).run .usual ⟨[0], none⟩ (begin () ⟨1, []⟩ [])
    let failed := run (.failed (.text "boom"))
    let panicked := run .panicked
    (0 ∈ (failed.1.calls .close).map Call.index ∧ .stopped ∈ failed.1.stages) ∧
      .stopping ∈ panicked.1.stages ∧ 0 ∉ (panicked.1.calls .close).map Call.index ∧
      .runCancelled ∉ panicked.1.deeds ∧ .stopped ∉ panicked.1.stages := by
  decide +kernel

end Supervisor

end ServiceHost
