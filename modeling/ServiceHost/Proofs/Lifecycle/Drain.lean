import Mathlib.Data.Finset.Lattice.Fold
import ServiceHost.Proofs.Lifecycle.Onset
import ServiceHost.Proofs.Lifecycle.Roster
import ServiceHost.Proofs.Lifecycle.Turns
/-!
How long a run is drained.

When all processes have been shut down the supervisor waits for their runs to end, but not beyond
the time to shut down.  If `E` is the moment at which the last shutdown came back, `D` the end of
the time to shut down and `F` the moment at which the last run ends, `⊤` if one never does, the run
returns at `max E (min D F)`, and the runs that have not ended by then are aborted
(`Supervisor.drained_in_time`).  The invariant of the wait is `Supervisor.Draining`: while the clock
goes on, some run has not ended.
-/

namespace ServiceHost

variable {W : Type}

/-! ### Views of the record -/

/-- Which run was aborted, and when, if the entry tells that. -/
def Entry.aborted? (x : Entry) : Option (Nat × Nat) :=
  match x.event with
  | .aborted index => some (x.time, index)
  | _ => none

namespace Engine

/-- The runs that were aborted: when, and of which process. -/
def aborts (e : Engine W) : List (Nat × Nat) :=
  e.entries.filterMap Entry.aborted?

/-- When the last shutdown came back; `start` if no process was shut down. -/
def closedAt (start : Nat) (e : Engine W) : Nat :=
  (e.returnTimes .close).getLast?.getD start

/-- When the last of the runs of the first `n` processes ended. -/
noncomputable def lastEnd (n : Nat) (e : Engine W) : ℕ∞ :=
  (Finset.range n).sup fun i => instant (e.endTime? i)

theorem lastEnd_le_iff {n : Nat} {e : Engine W} {t : ℕ∞} :
    lastEnd n e ≤ t ↔ ∀ i < n, instant (e.endTime? i) ≤ t := by
  simp [lastEnd]

theorem le_lastEnd {n i : Nat} (hi : i < n) (e : Engine W) :
    instant (e.endTime? i) ≤ lastEnd n e :=
  lastEnd_le_iff.1 (le_refl _) i hi

/-- While a run goes on, nothing is aborted. -/
theorem aborts_eq_nil {e : Engine W} (h : ∀ x ∈ e.entries, x.event.Ongoing) : e.aborts = [] := by
  refine List.filterMap_eq_nil_iff.2 ?_
  rintro ⟨time, stage, event⟩ hx
  cases event with
  | aborted => exact (h _ hx).elim
  | _ => rfl

/-! ### Ends of runs -/

/-- A run has ended just in case its return is on record. -/
theorem endTime?_eq_none_iff {e : Engine W} {i : Nat} :
    e.endTime? i = none ↔ i ∉ (e.returns .run).map Prod.fst := by
  rw [endTime?, Option.map_eq_none_iff, List.find?_eq_none, List.mem_map]
  constructor
  · rintro hnone ⟨⟨j, o⟩, hmem, rfl⟩
    obtain ⟨⟨time, stage, event⟩, hx, hreturned⟩ := List.mem_filterMap.1 hmem
    cases event with
    | returned p index o' =>
      simp only [Entry.returned?] at hreturned
      split at hreturned
      next hp =>
        cases hreturned
        exact hnone _ hx (by simp [endsRun, hp])
      next => cases hreturned
    | _ => cases hreturned
  · rintro hnone ⟨time, stage, event⟩ hx hends
    cases event with
    | returned p index o =>
      cases p with
      | run =>
        obtain rfl : index = i := by simpa [endsRun] using hends
        exact hnone ⟨(index, o), List.mem_filterMap.2 ⟨_, hx, rfl⟩, rfl⟩
      | prepare | close => cases hends
    | _ => cases hends

namespace Adds

variable {P : Entry → Prop} {e e' : Engine W} {i : Nat}

/-- The moment at which a run ended stays the same. -/
theorem endTime?_eq {t : Nat} (h : Adds P e e') (ht : e.endTime? i = some t) :
    e'.endTime? i = some t := by
  obtain ⟨x, hx, rfl⟩ := Option.map_eq_some_iff.1 ht
  obtain ⟨new, hnew, -, -⟩ := h.entries
  unfold endTime?
  rw [hnew, List.find?_append, hx]
  rfl

/-- A run that has not ended does not end in the past. -/
theorem now_le_endTime (h : Adds P e e') (hnone : e.endTime? i = none) :
    (e.now : ℕ∞) ≤ instant (e'.endTime? i) := by
  cases ht : e'.endTime? i with
  | none => exact le_top
  | some t =>
    obtain ⟨x, hx, rfl⟩ := Option.map_eq_some_iff.1 ht
    obtain ⟨new, hnew, -, hall⟩ := h.entries
    rw [hnew, List.find?_append, Option.map_eq_none_iff.1 hnone, Option.none_or] at hx
    exact Nat.cast_le.2 (hall x (List.mem_of_find?_eq_some hx)).2.1

/-- A run that ends at the present moment or later does so whatever is recorded. -/
theorem le_endTime {m : Nat} (h : Adds P e e') (hm : m ≤ e.now)
    (hle : (m : ℕ∞) ≤ instant (e.endTime? i)) : (m : ℕ∞) ≤ instant (e'.endTime? i) := by
  cases ht : e.endTime? i with
  | none => exact (Nat.cast_le.2 hm).trans (h.now_le_endTime ht)
  | some t => rwa [h.endTime?_eq ht, ← ht]

end Adds

/-- No run ended later than now. -/
theorem Ordered.endTime?_le {e : Engine W} (h : e.Ordered) {i t : Nat}
    (ht : e.endTime? i = some t) : t ≤ e.now := by
  obtain ⟨x, hx, rfl⟩ := Option.map_eq_some_iff.1 ht
  exact h.le_now x (List.mem_of_find?_eq_some hx)

end Engine

namespace Supervisor

open Engine Relation

/-! ### The wait for the runs to end -/

variable {processes : List (Component W)} {e e' : Engine W} {closed deadline : Nat}

/-- A task has not ended just in case the record tells of no end of its run. -/
theorem Roster.outcome_eq_none_iff (h : Roster processes e) {k : Nat} {t : Task W}
    (hk : e.tasks[k]? = some t) : t.outcome = none ↔ e.endTime? k = none := by
  rw [endTime?_eq_none_iff, ← h.ended k t hk]
  simp

/-- All tasks have ended just in case the record tells of the end of every run. -/
theorem Roster.all_ended_iff (h : Roster processes e) :
    e.tasks.all (·.outcome.isSome) = true ↔ ∀ i < processes.length, e.endTime? i ≠ none := by
  rw [List.all_eq_true]
  constructor
  · intro hall i hi hnone
    have hlt : i < e.tasks.length := h.length ▸ hi
    have hk : e.tasks[i]? = some e.tasks[i] := List.getElem?_eq_getElem hlt
    have hsome := hall _ (List.getElem_mem hlt)
    rw [(h.outcome_eq_none_iff hk).2 hnone] at hsome
    cases hsome
  · intro hall t ht
    obtain ⟨k, hk⟩ := List.mem_iff_getElem?.1 ht
    have hlt : k < processes.length := h.length ▸ (List.getElem?_eq_some_iff.1 hk).1
    rw [Option.isSome_iff_ne_none]
    exact fun hnone => hall k hlt ((h.outcome_eq_none_iff hk).1 hnone)

/-- What holds while the supervisor waits for the runs to end, from the moment `closed` on: the
clock does not go beyond the deadline, and it has gone on only while some run had not ended. -/
structure Draining (processes : List (Component W)) (closed deadline : Nat) (e : Engine W) :
    Prop where
  roster : Roster processes e
  ordered : e.Ordered
  closed_le : closed ≤ e.now
  now_le : e.now ≤ max closed deadline
  busy : e.now = closed ∨ ∃ i < processes.length, (e.now : ℕ∞) ≤ instant (e.endTime? i)

namespace Draining

/-- While some run has not ended, the supervisor goes on at the deadline. -/
theorem drainedAt_cases (h : Draining processes closed deadline e) :
    ((∀ i < processes.length, e.endTime? i ≠ none) ∧ drainedAt deadline e = some e.now) ∨
      ((∃ i < processes.length, e.endTime? i = none) ∧
        drainedAt deadline e = some (max e.now deadline)) := by
  unfold drainedAt
  split
  next hall => exact .inl ⟨h.roster.all_ended_iff.1 hall, rfl⟩
  next hall =>
    refine .inr ⟨?_, rfl⟩
    simpa using mt h.roster.all_ended_iff.2 hall

/-- Someone in the background acts. -/
theorem waits (h : Draining processes closed deadline e)
    (hwaits : Waits (drainedAt deadline) e e') : Draining processes closed deadline e' := by
  have hacts : ReflTransGen (Acts fun _ _ => False) e e' := waits_acts (.single hwaits)
  have hadds := (course_of_acts hacts).adds
  have hroster : Roster processes e' := by
    clear hwaits hadds
    induction hacts with
    | refl => exact h.roster
    | tail _ hlast ih => exact ih.acts hlast
  cases hwaits with
  | @act who time hable _ hsoon =>
    have hlater := now_le_of_mem_background hable
    obtain ⟨hcourse, hnow⟩ := acts_course hable
    refine ⟨hroster, hadds.ordered h.ordered, ?_, ?_, ?_⟩
    · rw [hnow]
      exact Nat.le_trans h.closed_le hlater
    · have hle := h.now_le
      rw [hnow]
      rcases h.drainedAt_cases with ⟨-, heq⟩ | ⟨-, heq⟩
      · have := hsoon _ heq
        omega
      · have := hsoon _ heq
        omega
    · rw [hnow]
      rcases h.drainedAt_cases with ⟨-, heq⟩ | ⟨⟨i, hi, hnone⟩, -⟩
      · -- all runs have ended, so the clock stands still
        obtain rfl : time = e.now := Nat.le_antisymm (hsoon _ heq) hlater
        refine h.busy.imp_right fun ⟨i, hi, hle⟩ => ⟨i, hi, ?_⟩
        exact hadds.le_endTime (Nat.le_refl _) hle
      · exact .inr ⟨i, hi, hcourse.adds.now_le_endTime hnone⟩

/-- When the supervisor goes on it is time to, and this would be so whatever might happen then. -/
theorem ends (h : Draining processes closed deadline e) {t : Nat}
    (hready : drainedAt deadline e = some t)
    (hcourse : Course { e with now := t, active := .caller } e') :
    (t : ℕ∞) = max ↑closed (min ↑deadline (lastEnd processes.length e')) := by
  have hclosed := h.closed_le
  have hnow := h.now_le
  have hadds := hcourse.adds
  rw [max_min_distrib_left, ← Nat.mono_cast.map_max]
  rcases h.drainedAt_cases with ⟨hall, heq⟩ | ⟨⟨i, hi, hnone⟩, heq⟩
  · -- all runs have ended, the last of them now, unless they had when the wait began
    obtain rfl : e.now = t := Option.some.inj (heq.symm.trans hready)
    refine le_antisymm (le_min (Nat.cast_le.2 hnow) ?_) (min_le_of_right_le (max_le ?_ ?_))
    · rcases h.busy with hstill | ⟨i, hi, hle⟩
      · exact le_max_of_le_left (Nat.cast_le.2 (Nat.le_of_eq hstill))
      · exact le_max_of_le_right
          ((hadds.le_endTime (Nat.le_refl _) hle).trans (le_lastEnd hi e'))
    · exact Nat.cast_le.2 hclosed
    · refine lastEnd_le_iff.2 fun i hi => ?_
      obtain ⟨t, ht⟩ := Option.ne_none_iff_exists'.1 (hall i hi)
      rw [hadds.endTime?_eq ht]
      exact Nat.cast_le.2 (h.ordered.endTime?_le ht)
  · -- some run has not ended, and can do so at the deadline at the earliest
    obtain rfl : max e.now deadline = t := Option.some.inj (heq.symm.trans hready)
    refine le_antisymm (le_min (Nat.cast_le.2 (by omega)) ?_)
      (min_le_of_left_le (Nat.cast_le.2 (by omega)))
    exact le_max_of_le_right ((hadds.now_le_endTime hnone).trans (le_lastEnd hi e'))

/-- The supervisor goes on at some moment. -/
theorem await (h : Draining processes closed deadline e) (sch : Schedule W) :
    ∃ e₁ t, Draining processes closed deadline e₁ ∧ drainedAt deadline e₁ = some t ∧
      (e.await sch (drainedAt deadline)).1 = { e₁ with now := t, active := .caller } := by
  obtain ⟨e₁, hsteps, hend⟩ := await_waits sch (drainedAt deadline) e
  have h₁ : Draining processes closed deadline e₁ := by
    clear hend
    induction hsteps with
    | refl => exact h
    | tail _ hlast ih => exact ih.waits hlast
  generalize e.await sch _ = r at hend ⊢
  cases hend with
  | goesOn hable => exact ⟨e₁, _, h₁, hable, rfl⟩
  | never hunable =>
    rcases h₁.drainedAt_cases with ⟨-, heq⟩ | ⟨-, heq⟩ <;> cases heq.symm.trans hunable

end Draining

/-! ### What is aborted -/

/-- Clearing away aborts the tasks that have not ended. -/
theorem aborts_cleared (e : Engine W) : (cleared e).aborts =
    e.aborts ++ (e.tasks.filter (·.outcome.isNone)).map fun t => (e.now, t.index) := by
  rw [aborts, filterMap_entries_cleared]
  simp [aborts, Entry.aborted?]

/-- Clearing away ends no run. -/
theorem endTime?_cleared (e : Engine W) (i : Nat) : (cleared e).endTime? i = e.endTime? i := by
  cases ht : e.endTime? i with
  | none =>
    rw [endTime?_eq_none_iff, returns_cleared]
    exact endTime?_eq_none_iff.1 ht
  | some t => exact (adds_cleared e).endTime?_eq ht

theorem lastEnd_cleared (n : Nat) (e : Engine W) : lastEnd n (cleared e) = lastEnd n e := by
  simp only [lastEnd, endTime?_cleared]

/-- The tasks that have not ended are those of whose ends the record does not tell. -/
theorem Roster.map_index_unended (h : Roster processes e) :
    (e.tasks.filter (·.outcome.isNone)).map Task.index =
      (List.range processes.length).filter fun i => (e.endTime? i).isNone := by
  have hindices : e.tasks.map Task.index = List.range processes.length := by
    refine List.ext_getElem? fun k => ?_
    rw [List.getElem?_map]
    cases hk : e.tasks[k]? with
    | none =>
      have hle := List.getElem?_eq_none_iff.1 hk
      rw [h.length] at hle
      exact (List.getElem?_eq_none_iff.2 (by simpa using hle)).symm
    | some t =>
      have hlt := (List.getElem?_eq_some_iff.1 hk).1
      rw [h.length] at hlt
      rw [List.getElem?_range hlt, Option.map_some, (h.task k t hk).1]
  rw [← hindices, List.filter_map]
  congr 1
  refine List.filter_congr fun t ht => ?_
  obtain ⟨k, hk⟩ := List.mem_iff_getElem?.1 ht
  have hiff := h.outcome_eq_none_iff hk
  rw [← (h.task k t hk).1] at hiff
  rw [Bool.eq_iff_iff, Option.isNone_iff_eq_none, Function.comp_apply, Option.isNone_iff_eq_none]
  exact hiff

/-! ### Whole runs -/

variable {sch : Schedule W} {sup : Supervisor W} {outer : Scope} {e₁ e₂ e₃ : Engine W}
  {os : List Outcome}

namespace Stops

/-- The state in which a run is drained when the last shutdown has come back: the running processes
have just been told to stop. -/
abbrev drainFrom (sup : Supervisor W) (outer : Scope) (e₁ e₃ : Engine W) : Engine W :=
  (e₃.cancel (sup.start outer e₁).2.token).record .runCancelled

section

variable (h : Stops sch sup outer e e₁ e₂) (he : e.Fresh)
  (hvisits : Visits sch .close (scope sch sup outer e₂) Component.close sup.numbered.reverse
    (closing (takeCause sch outer e₂).1) os e₃)

include h he hvisits in
/-- When the drain begins, no time has passed since the last shutdown came back. -/
theorem draining : Draining sup.processes e₃.now deadline (drainFrom sup outer e₁ e₃) := by
  obtain ⟨_, hprepared, -⟩ := h.prepared
  have hpath := h.moves_closed (fun _ _ => True) (fun _ _ _ _ _ => trivial) trivial hvisits
  have hstart : Adds (fun x => x.event.Ongoing) e₁ (sup.start outer e₁).1 :=
    .of_record rfl rfl trivial
  have hadds := ((path_prepared he hprepared).adds.trans hstart).trans hpath.adds
  refine ⟨?_, hadds.ordered (ordered_fresh he), Nat.le_refl _, Nat.le_max_left .., .inl rfl⟩
  exact hpath.preserves (fun _ _ hmove h => h.moves (by simp) hmove) (roster_start he hprepared)

include h he hvisits in
/-- The moment at which the last shutdown came back is on record. -/
theorem closedAt_eq : e₃.closedAt e₂.now = e₃.now := by
  obtain ⟨cs, ts, -, htimes, -, hturns, -⟩ := hvisits.turns (by simp)
  have hnow : (closing (takeCause sch outer e₂).1).now = e₂.now := now_takeCause sch outer e₂
  rw [h.returnTimes_closing he, List.nil_append] at htimes
  rw [hnow] at hturns
  have hlast := congrArg List.getLast? hturns
  rw [List.getLast?_concat, List.getLast?_cons] at hlast
  rw [closedAt, htimes]
  exact (Option.some.inj hlast).symm

include hvisits in
/-- The running processes are told to stop when the last shutdown has come back. -/
theorem runCancelled_mem :
    ⟨e₃.now, .stopping, .runCancelled⟩ ∈ (drainFrom sup outer e₁ e₃).entries := by
  have hstage : (e₃.cancel (sup.start outer e₁).2.token).stage = .stopping := hvisits.stage_eq
  rw [entries_record, hstage]
  exact List.mem_append_right _ List.mem_cons_self

include h he hvisits in
/-- When the drain is over, no deed has entered the stage in which the run is over. -/
theorem stopped_not_mem :
    .entered .stopped ∉ (drain sch deadline (drainFrom sup outer e₁ e₃)).deeds := by
  rw [deeds_drain, deeds_record, (Happens.cancel _).course.deeds_eq, hvisits.deeds_eq (by simp),
    (h.passed he).deeds_closing]
  simp [opening, Deed.visits, Event.deed?]

end

end Stops

/-- **A run is drained no longer than it has to be, and no longer than it may be.**  A run that has
entered its last stage and whose shutdowns all come back returns at `max E (min D F)`, where `E` is
the moment at which the last shutdown came back and the running processes are told to stop, `D` is
`closeTimeout` after the last stage was entered, and `F` is the moment at which the last run ends by
itself, `⊤` if one never does.  This is so for the ends on record, and it would be so for those that
would come if the runs were not aborted then.  The runs that are aborted are those that have not
ended, all of them and at that moment. -/
theorem drained_in_time (sch : Schedule W) (sup : Supervisor W) (outer : Scope) {e : Engine W}
    (he : e.Fresh) {time : Nat}
    (hstopping : (sup.run sch outer e).1.enteredAt? .stopping = some time)
    (hfits : time + sup.closeTimeout < clockLimit)
    (hcloses : (sup.run sch outer e).1.ClosesReturn) :
    (∃ result, (sup.run sch outer e).2 = .returned result) ∧
    (sup.run sch outer e).1.enteredAt? .stopped = some (sup.run sch outer e).1.now ∧
    ⟨(sup.run sch outer e).1.closedAt time, .stopping, .runCancelled⟩ ∈
      (sup.run sch outer e).1.entries ∧
    ((sup.run sch outer e).1.now : ℕ∞) = max ↑((sup.run sch outer e).1.closedAt time)
      (min ↑(time + sup.closeTimeout) (lastEnd sup.processes.length (sup.run sch outer e).1)) ∧
    (∃ e₁, (sup.run sch outer e).1 = cleared e₁ ∧ ∀ e', Course e₁ e' →
      ((sup.run sch outer e).1.now : ℕ∞) = max ↑((sup.run sch outer e).1.closedAt time)
        (min ↑(time + sup.closeTimeout) (lastEnd sup.processes.length e'))) ∧
    (sup.run sch outer e).1.aborts =
      ((List.range sup.processes.length).filter fun i =>
        ((sup.run sch outer e).1.endTime? i).isNone).map
          fun i => ((sup.run sch outer e).1.now, i) := by
  obtain ⟨e₁, e₂, hstops⟩ := stops_of_entered he (.inl (entered_mem_deeds hstopping))
  obtain rfl : e₂.now = time :=
    Option.some.inj ((hstops.enteredAt?_stopping he).symm.trans hstopping)
  obtain ⟨os, e₃, hvisits, -, heq⟩ := hstops.closed_of_closesReturn he hfits hcloses
  obtain ⟨_, hprepared, -⟩ := hstops.prepared
  have hfrom : Draining sup.processes e₃.now (e₂.now + sup.closeTimeout)
      (Stops.drainFrom sup outer e₁ e₃) := hstops.draining he hvisits
  obtain ⟨e₄, t, hdraining, hready, hawait⟩ := hfrom.await sch
  -- the state at the end of the wait, in which what is left over is cleared away
  have hrun : (sup.run sch outer e).1 = cleared { e₄ with now := t, active := .caller } := by
    rw [heq, ← hawait]
    rfl
  have hnow : (sup.run sch outer e).1.now = t := by
    rw [hrun, cleared_eq]
  have hclosed : (sup.run sch outer e).1.closedAt e₂.now = e₃.now := by
    rw [← hstops.closedAt_eq he hvisits, closedAt, closedAt, heq, returnTimes_drained]
  have hends (e' : Engine W) (hcourse : Course { e₄ with now := t, active := .caller } e') :
      ((sup.run sch outer e).1.now : ℕ∞) = max ↑((sup.run sch outer e).1.closedAt e₂.now)
        (min ↑(e₂.now + sup.closeTimeout) (lastEnd sup.processes.length e')) := by
    rw [hnow, hclosed]
    exact hdraining.ends hready hcourse
  refine ⟨⟨_, congrArg Prod.snd heq⟩, ?_, ?_, ?_, ⟨_, hrun, hends⟩, ?_⟩
  · rw [heq]
    exact enteredAt?_publish (hstops.stopped_not_mem he hvisits)
  · rw [hclosed, heq]
    have hdrain := adds_drain sch (e₂.now + sup.closeTimeout) (Stops.drainFrom sup outer e₁ e₃)
    have hcancelled : ⟨e₃.now, .stopping, .runCancelled⟩ ∈
        (Stops.drainFrom sup outer e₁ e₃).entries := Stops.runCancelled_mem hvisits
    rw [entries_publish]
    exact List.mem_append_left _ (hdrain.subset_entries hcancelled)
  · have hlast := hends _ (.refl _)
    rwa [← lastEnd_cleared, ← hrun] at hlast
  · have hpath := (hstops.moves_closed (fun _ _ => True) (fun _ _ _ _ _ => trivial) trivial
      hvisits).trans (path_drain sch (e₂.now + sup.closeTimeout) _)
    rw [hawait] at hpath
    have hroster : Roster sup.processes { e₄ with now := t, active := .caller } :=
      hdraining.roster.of_eq rfl rfl
    rw [hnow, hrun, aborts_cleared, aborts_eq_nil (ongoing_of_path he hprepared hpath),
      List.nil_append]
    simp only [endTime?_cleared]
    rw [← hroster.map_index_unended, List.map_map]
    rfl

/-- Of two processes one never ends its run and the other ends it 10 milliseconds after it was told
to stop, which is 30 milliseconds after the last stage was entered: the run returns when the time to
shut down is over, and the first process is aborted then. -/
theorem drained_in_time_stuck :
    let stuck : Component Unit :=
      { run := .forever, close := .sleep (30 * Duration.nanosPerMilli) }
    let slow : Component Unit := { run := .untilDone ++ .sleep (10 * Duration.nanosPerMilli) }
    let sup : Supervisor Unit :=
      { processes := [stuck, slow], closeTimeout := 200 * Duration.nanosPerMilli }
    let r := sup.run .usual ⟨[0], none⟩ (begin () ⟨1, []⟩ [(150 * Duration.nanosPerMilli, [0])])
    r.1.now = 350 * Duration.nanosPerMilli ∧ r.1.closedAt 0 = 180 * Duration.nanosPerMilli ∧
      r.1.aborts = [(350 * Duration.nanosPerMilli, 0)] := by
  intro stuck slow sup r
  have hstopping : r.1.enteredAt? .stopping = some (150 * Duration.nanosPerMilli) := by
    decide +kernel
  have hcloses : r.1.ClosesReturn := by decide +kernel
  have haborts := (drained_in_time .usual sup ⟨[0], none⟩
    (fresh_begin () ⟨1, []⟩ [(150 * Duration.nanosPerMilli, [0])]) hstopping (by decide +kernel)
    hcloses).2.2.2.2.2
  refine ⟨by decide +kernel, by decide +kernel, ?_⟩
  rw [haborts]
  decide +kernel

end Supervisor

end ServiceHost
