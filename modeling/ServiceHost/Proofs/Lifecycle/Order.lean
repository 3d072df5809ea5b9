import ServiceHost.Proofs.Lifecycle.Passage
/-!
The order in which a run shuts its processes down.

A run that comes to its last stage, with shutdowns that come back, does all that
`Supervisor.fullCourse` lists and nothing else, in that order, whatever ended the wait, whatever the
shutdowns return and whenever the processes end their runs.  The calls and the stages of such a run
are read off that list.
-/

namespace ServiceHost

variable {W : Type}

/-! ### Reading off the deeds -/

/-- The index of the process that a deed calls for a phase, if it does. -/
def Deed.index? (phase : Phase) : Deed → Option Nat
  | .called p index => if p = phase then some index else none
  | _ => none

theorem Deed.filterMap_index?_visits (phase : Phase) (indices : List Nat) :
    (Deed.visits phase indices).filterMap (Deed.index? phase) = indices := by
  induction indices with
  | nil => rfl
  | cons i is ih =>
    rw [Deed.visits_cons, List.filterMap_append, ih]
    simp [Deed.index?]

theorem Deed.filterMap_index?_visits_of_ne {phase other : Phase} (h : other ≠ phase)
    (indices : List Nat) : (Deed.visits other indices).filterMap (Deed.index? phase) = [] := by
  induction indices with
  | nil => rfl
  | cons i is ih =>
    rw [Deed.visits_cons, List.filterMap_append, ih]
    simp [Deed.index?, h]

/-- The processes whose phase was called, in order. -/
theorem Engine.map_index_calls {phase : Phase} (hphase : phase ≠ .run) (e : Engine W) :
    (e.calls phase).map Call.index = e.deeds.filterMap (Deed.index? phase) := by
  unfold calls deeds
  rw [List.map_filterMap, List.filterMap_filterMap]
  congr 1
  funext ⟨time, stage, event⟩
  cases event with
  | called p index m =>
    show (Call.ofEntry? phase ⟨time, stage, .called p index m⟩).map Call.index =
      (if p = .run then none else some (Deed.called p index)).bind (Deed.index? phase)
    by_cases hp : p = phase
    · simp [Call.ofEntry?, Deed.index?, hp, hphase]
    · rw [show Call.ofEntry? phase ⟨time, stage, .called p index m⟩ = none from if_neg hp]
      split
      · rfl
      · exact (if_neg hp).symm
  | returned p index o =>
    show none = (if p = .run then none else some (Deed.returned p index)).bind (Deed.index? phase)
    split <;> rfl
  | _ => rfl

namespace Supervisor

open Engine

variable {sch : Schedule W} {sup : Supervisor W} {outer : Scope} {e : Engine W}

/-- The shutdowns of a run that goes through all stages. -/
theorem closes_fullCourse (h : e.deeds = sup.fullCourse) :
    (e.calls .close).map Call.index = (List.range sup.processes.length).reverse := by
  rw [map_index_calls (by simp), h]
  unfold fullCourse opening
  simp only [List.filterMap_append, Deed.filterMap_index?_visits,
    Deed.filterMap_index?_visits_of_ne (show Phase.prepare ≠ Phase.close by simp)]
  split <;> exact List.append_nil _

end Supervisor

end ServiceHost
