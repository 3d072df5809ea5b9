import ServiceHost.Proofs.Lifecycle.Moves
/-!
The tasks of a run and what the record tells of their ends.

`Supervisor.Roster` is the invariant that ties the two together: the task at place `k` runs what is
left of the code of process `k`; it has ended if and only if the record tells of an end of run `k`;
the record tells of no end twice; and every end on record is one that the code of that very process
can come to (`Routine.CanEnd`).  It holds from the start of the tasks on, whatever moves are made,
until those left over are aborted.
-/

namespace ServiceHost

variable {W : Type}

/-- The routine can come to its end with the given outcome, at some point of it. -/
def Routine.CanEnd (code : Routine W) (o : Outcome) : Prop :=
  ∃ rest, rest <:+ code ∧ Routine.Ends rest o

namespace Engine

/-! ### What the end of a task changes -/

theorem tasks_endTask (e : Engine W) (k : Nat) (t : Task W) (o : Outcome) :
    (e.endTask k t o).tasks = e.tasks.set k { t with outcome := some o } := by
  rw [endTask_eq]
  rfl

theorem returns_endTask (e : Engine W) (k : Nat) (t : Task W) (o : Outcome) :
    (e.endTask k t o).returns .run = e.returns .run ++ [(t.index, o)] := by
  rw [endTask_eq]
  exact filterMap_entries_cons (x := ⟨e.now, e.stage, .returned .run t.index o⟩) _ rfl

/-- While processes are prepared there is no task, and no end of a run is on record. -/
theorem kept_unended : Kept .prepare fun e : Engine W => e.tasks = [] ∧ e.returns .run = [] where
  happens _ _ hstep h := by
    cases hstep with
    | clock | change | leave => exact h
    | arrive | cancel => exact ⟨h.1, (filterMap_entries_of_none _ rfl rfl).trans h.2⟩
    -- these need a task
    | start here | goOn here | finish here => simp [h.1] at here
  called _ _ _ h := ⟨h.1, (filterMap_entries_of_none _ rfl rfl).trans h.2⟩
  returned _ _ _ h := ⟨h.1, (filterMap_entries_of_none _ rfl rfl).trans h.2⟩

end Engine

namespace Supervisor

open Engine

/-- The tasks are those of the processes, in their places, and the record tells of all of their ends
and of no others. -/
structure Roster (processes : List (Component W)) (e : Engine W) : Prop where
  length : e.tasks.length = processes.length
  task : ∀ (k : Nat) (t : Task W), e.tasks[k]? = some t →
    t.index = k ∧ ∃ p : Component W, processes[k]? = some p ∧ t.code <:+ p.run
  ended : ∀ (k : Nat) (t : Task W), e.tasks[k]? = some t →
    (t.outcome.isSome = true ↔ k ∈ (e.returns .run).map Prod.fst)
  nodup : ((e.returns .run).map Prod.fst).Nodup
  canEnd : ∀ x ∈ e.returns .run,
    ∃ p : Component W, processes[x.1]? = some p ∧ Routine.CanEnd p.run x.2

namespace Roster

variable {processes : List (Component W)} {e e' : Engine W}

/-- What neither changes a task nor ends one. -/
theorem of_eq (h : Roster processes e) (htasks : e'.tasks = e.tasks)
    (hreturns : e'.returns .run = e.returns .run) : Roster processes e' := by
  constructor
  · rw [htasks]
    exact h.length
  · rw [htasks]
    exact h.task
  · rw [htasks, hreturns]
    exact h.ended
  · rw [hreturns]
    exact h.nodup
  · rw [hreturns]
    exact h.canEnd

/-- A task at some place of a row in which one task was replaced. -/
theorem of_getElem?_set {l : List (Task W)} {j k : Nat} {t u : Task W}
    (h : (l.set k t)[j]? = some u) : (k = j ∧ u = t) ∨ (k ≠ j ∧ l[j]? = some u) := by
  rw [List.getElem?_set] at h
  split at h
  next hkj =>
    split at h
    · exact .inl ⟨hkj, (Option.some.inj h).symm⟩
    · cases h
  next hkj => exact .inr ⟨hkj, h⟩

/-- A task begins or goes on. -/
theorem of_set (h : Roster processes e) {k : Nat} {t t' : Task W} (here : e.tasks[k]? = some t)
    (htasks : e'.tasks = e.tasks.set k t') (hreturns : e'.returns .run = e.returns .run)
    (hindex : t'.index = t.index) (hcode : t'.code <:+ t.code) (houtcome : t'.outcome = t.outcome) :
    Roster processes e' := by
  constructor
  · rw [htasks, List.length_set]
    exact h.length
  · intro j u hu
    rw [htasks] at hu
    rcases of_getElem?_set hu with ⟨rfl, rfl⟩ | ⟨-, hu⟩
    · obtain ⟨hk, p, hp, hsuffix⟩ := h.task k t here
      exact ⟨hindex.trans hk, p, hp, hcode.trans hsuffix⟩
    · exact h.task j u hu
  · intro j u hu
    rw [htasks] at hu
    rw [hreturns]
    rcases of_getElem?_set hu with ⟨rfl, rfl⟩ | ⟨-, hu⟩
    · rw [houtcome]
      exact h.ended k t here
    · exact h.ended j u hu
  · rw [hreturns]
    exact h.nodup
  · rw [hreturns]
    exact h.canEnd

/-- A task ends with an outcome that its code gives. -/
theorem endTask (h : Roster processes e) {k : Nat} {t : Task W} {o : Outcome}
    (here : e.tasks[k]? = some t) (live : t.outcome = none) (ends : Routine.Ends t.code o) :
    Roster processes (e.endTask k t o) := by
  obtain ⟨hk, p, hp, hsuffix⟩ := h.task k t here
  have hreturns : (e.endTask k t o).returns .run = e.returns .run ++ [(k, o)] := by
    rw [returns_endTask, hk]
  -- its end was not on record before
  have hnew : k ∉ (e.returns .run).map Prod.fst := by
    rw [← h.ended k t here, live]
    simp
  constructor
  · rw [tasks_endTask, List.length_set]
    exact h.length
  · intro j u hu
    rw [tasks_endTask] at hu
    rcases of_getElem?_set hu with ⟨rfl, rfl⟩ | ⟨-, hu⟩
    · exact h.task k t here
    · exact h.task j u hu
  · intro j u hu
    rw [tasks_endTask] at hu
    rw [hreturns, List.map_append, List.mem_append]
    rcases of_getElem?_set hu with ⟨rfl, rfl⟩ | ⟨hkj, hu⟩
    · simp
    · rw [h.ended j u hu]
      simp [Ne.symm hkj]
  · rw [hreturns, List.map_append]
    refine List.nodup_append.2 ⟨h.nodup, List.pairwise_singleton .., ?_⟩
    rintro i hi j hj rfl
    obtain rfl := List.mem_singleton.1 hj
    exact hnew hi
  · intro x hx
    rw [hreturns] at hx
    rcases List.mem_append.1 hx with hx | hx
    · exact h.canEnd x hx
    · obtain rfl := List.mem_singleton.1 hx
      exact ⟨p, hp, t.code, hsuffix, ends⟩

/-- The record tells of the ends of the tasks whatever is done. -/
theorem acts {mine : Option Nat → Token → Prop} (h : Roster processes e) (hacts : Acts mine e e') :
    Roster processes e' := by
  cases hacts with
  | clock | change | leave => exact h.of_eq rfl rfl
  | arrive | cancel => exact h.of_eq rfl (filterMap_entries_of_none _ rfl rfl)
  | start here =>
    exact h.of_set here rfl (filterMap_entries_of_none _ rfl rfl) rfl (List.suffix_refl _) rfl
  | goOn here live code =>
    exact h.of_set here rfl rfl rfl (by rw [code]; exact List.suffix_cons ..) rfl
  | finish here live ends => exact h.endTask here live ends

/-- The record tells of the ends of the tasks whatever moves are made. -/
theorem moves {phase : Phase} {s : Scope} {mine : Option Nat → Token → Prop} (hphase : phase ≠ .run)
    (h : Roster processes e) (hmove : Moves phase s mine e e') : Roster processes e' := by
  cases hmove with
  | acts hacts => exact h.acts hacts
  | returned index o =>
    exact h.of_eq rfl (filterMap_entries_of_none _ rfl (if_neg hphase))
  | newScope => exact h.of_eq rfl rfl
  | called | announced | received | published | runCancelled =>
    exact h.of_eq rfl (filterMap_entries_of_none _ rfl rfl)

end Roster

/-- When all tasks have just been made, none has ended and no end is on record. -/
theorem roster_start {sch : Schedule W} {sup : Supervisor W} {outer : Scope} {e e₁ : Engine W}
    {os : List Outcome} (he : e.Fresh) (hvisits : Visits sch .prepare outer Component.prepare
      sup.numbered (e.publish .preRunning) os e₁) :
    Roster sup.processes (sup.start outer e₁).1 := by
  have hnone : e₁.returns .run = [] := by
    refine (kept_unended.visits hvisits ⟨he.tasks, ?_⟩).2
    rw [returns_publish]
    simp [returns, entries, he.history, Entry.returned?]
  have hreturns : (sup.start outer e₁).1.returns .run = [] :=
    (filterMap_entries_of_none _ rfl rfl).trans hnone
  have htask (k : Nat) (t : Task W) (hk : (sup.start outer e₁).1.tasks[k]? = some t) :
      ∃ p, sup.processes[k]? = some p ∧ t =
        { index := k, scope := (Scope.child e₁.tokens outer).1, code := p.run,
          since := e₁.now } := by
    have hk : (sup.tasks (Scope.child e₁.tokens outer).1 e₁.now)[k]? = some t := hk
    rw [tasks, List.getElem?_map, List.getElem?_zipIdx, Option.map_map] at hk
    obtain ⟨p, hp, rfl⟩ := Option.map_eq_some_iff.1 hk
    exact ⟨p, hp, by simp⟩
  constructor
  · show (sup.tasks _ _).length = _
    simp [tasks]
  · intro k t hk
    obtain ⟨p, hp, rfl⟩ := htask k t hk
    exact ⟨rfl, p, hp, List.suffix_refl _⟩
  · intro k t hk
    obtain ⟨p, hp, rfl⟩ := htask k t hk
    simp [hreturns]
  · simp [hreturns]
  · simp [hreturns]

end Supervisor

end ServiceHost
