import ServiceHost.Lifecycle.Supervisor
import ServiceHost.Proofs.Lifecycle.Course
/-!
Rows of calls: one phase of several processes, one after the other.

Preparing and shutting down are such rows.  They differ in the order, in the scope and in which ends
of a call let the row go on: only success when preparing, all but a panic when shutting down.
`Engine.Visits` describes the calls that came back, `Engine.Breaks` a row that stops at a call which
does not let it go on, and `visits_or_breaks` says that there is nothing else.
-/

namespace ServiceHost

variable {W : Type}

/-! ### What a row of calls leaves on record -/

/-- The deeds of calling a phase of some processes, each call after the one before it came back. -/
def Deed.visits (phase : Phase) (indices : List Nat) : List Deed :=
  indices.flatMap fun i => [.called phase i, .returned phase i]

theorem Deed.visits_append (phase : Phase) (is js : List Nat) :
    Deed.visits phase (is ++ js) = Deed.visits phase is ++ Deed.visits phase js :=
  List.flatMap_append

theorem Deed.visits_cons (phase : Phase) (i : Nat) (is : List Nat) :
    Deed.visits phase (i :: is) = [.called phase i, .returned phase i] ++ Deed.visits phase is :=
  rfl

/-- A row of calls enters no stage. -/
theorem Deed.filterMap_stage?_visits (phase : Phase) (indices : List Nat) :
    (Deed.visits phase indices).filterMap Deed.stage? = [] := by
  induction indices with
  | nil => rfl
  | cons i is ih =>
    rw [Deed.visits_cons, List.filterMap_append, ih]
    rfl

namespace Engine

/-- A phase of the processes of a row is called in a scope, one process after the other, and the
calls come back with the given outcomes. -/
inductive Visits (sch : Schedule W) (phase : Phase) (s : Scope) (code : Component W → Routine W) :
    List (Nat × Component W) → Engine W → List Outcome → Engine W → Prop
  | nil {e : Engine W} : Visits sch phase s code [] e [] e
  | cons {index : Nat} {p : Component W} {row : List (Nat × Component W)} {e e₁ e₂ : Engine W}
      {o : Outcome} {os : List Outcome}
      (first : e.call sch phase index s (code p) = (e₁, .outcome o))
      (others : Visits sch phase s code row e₁ os e₂) :
      Visits sch phase s code ((index, p) :: row) e (o :: os) e₂

/-- A row of calls stops: those before a process come back with good outcomes, and the call of that
process does not. -/
inductive Breaks (sch : Schedule W) (phase : Phase) (s : Scope) (code : Component W → Routine W)
    (good : Outcome → Prop) : List (Nat × Component W) → Engine W → Nat → Returned → Engine W → Prop
  | mk {index : Nat} {p : Component W} {before after : List (Nat × Component W)}
      {e e₁ e₂ : Engine W} {os : List Outcome} {r : Returned}
      (visits : Visits sch phase s code before e os e₁) (all_good : ∀ o ∈ os, good o)
      (call : e₁.call sch phase index s (code p) = (e₂, r)) (bad : ∀ o, r = .outcome o → ¬ good o) :
      Breaks sch phase s code good (before ++ (index, p) :: after) e index r e₂

variable {sch : Schedule W} {phase : Phase} {s : Scope} {code : Component W → Routine W}
  {good : Outcome → Prop} {row : List (Nat × Component W)} {e e' : Engine W} {os : List Outcome}
  {index : Nat}

/-- A row of calls comes back with good outcomes, or it stops somewhere. -/
theorem visits_or_breaks (sch : Schedule W) (phase : Phase) (s : Scope)
    (code : Component W → Routine W) (good : Outcome → Prop) (row : List (Nat × Component W))
    (e : Engine W) :
    (∃ os e', Visits sch phase s code row e os e' ∧ ∀ o ∈ os, good o) ∨
      ∃ index r e', Breaks sch phase s code good row e index r e' := by
  induction row generalizing e with
  | nil => exact .inl ⟨[], e, .nil, by simp⟩
  | cons x row ih =>
    obtain ⟨index, p⟩ := x
    rcases hcall : e.call sch phase index s (code p) with ⟨e₁, r⟩
    by_cases hgood : ∃ o, r = .outcome o ∧ good o
    · -- the row goes on: whatever becomes of the others, this call stands before them
      obtain ⟨o, rfl, ho⟩ := hgood
      rcases ih e₁ with ⟨os, e', hvisits, hall⟩ | ⟨j, r, e', hbreaks⟩
      · exact .inl ⟨o :: os, e', .cons hcall hvisits, List.forall_mem_cons.2 ⟨ho, hall⟩⟩
      · obtain ⟨hvisits, hall, hlast, hbad⟩ := hbreaks
        exact .inr ⟨j, r, e', .mk (.cons hcall hvisits) (List.forall_mem_cons.2 ⟨ho, hall⟩)
          hlast hbad⟩
    · -- the row stops here, with nothing before it
      have hbad : ∀ o, r = .outcome o → ¬ good o := fun o ho hgood' => hgood ⟨o, ho, hgood'⟩
      have hbreaks : Breaks sch phase s code good ([] ++ (index, p) :: row) e index r e₁ :=
        .mk .nil (by simp) hcall hbad
      exact .inr ⟨index, r, e₁, hbreaks⟩

theorem Visits.length_eq (h : Visits sch phase s code row e os e') : os.length = row.length := by
  induction h with
  | nil => rfl
  | cons _ _ ih => simp [ih]

theorem Visits.stage_eq (h : Visits sch phase s code row e os e') : e'.stage = e.stage := by
  induction h with
  | nil => rfl
  | cons hfirst _ ih =>
    obtain ⟨m, e₂, hcourse, hnever | ⟨o, heq⟩⟩ := call_course sch phase _ s _ _
    · cases hfirst.symm.trans hnever
    · cases hfirst.symm.trans heq
      exact ih.trans hcourse.stage_eq

/-- A call that was recorded and came back adds what happens within its phase. -/
theorem adds_call {index : Nat} {r : Routine W} {e₁ : Engine W} {result : Returned}
    (h : e.call sch phase index s r = (e₁, result)) :
    Adds (fun x => x.stage = e.stage ∧ x.event.Within phase) e e₁ := by
  obtain ⟨m, e₂, hcourse, hcall⟩ := call_course sch phase index s r e
  have hbegin : Adds (fun x => x.stage = e.stage ∧ x.event.Within phase) e
      (e.record (.called phase index m)) := .of_record rfl rfl ⟨rfl, .inl rfl⟩
  have hcourse' : Adds (fun x => x.stage = e.stage ∧ x.event.Within phase)
      (e.record (.called phase index m)) e₂ :=
    hcourse.adds.mono fun x hx => ⟨hx.1, hx.2.of_run phase⟩
  rcases hcall with hnever | ⟨o, heq⟩
  · cases h.symm.trans hnever
    exact hbegin.trans hcourse'
  · cases h.symm.trans heq
    exact (hbegin.trans hcourse').trans (.of_record rfl rfl ⟨hcourse.stage_eq, .inl rfl⟩)

theorem Visits.adds (h : Visits sch phase s code row e os e') :
    Adds (fun x => x.stage = e.stage ∧ x.event.Within phase) e e' := by
  induction h with
  | nil => exact .refl ..
  | cons hfirst hothers ih =>
    refine (adds_call hfirst).trans (ih.mono fun x hx => ⟨hx.1.trans ?_, hx.2⟩)
    exact (Visits.cons hfirst .nil).stage_eq

/-- The deeds of a call that came back. -/
theorem deeds_call (hphase : phase ≠ .run) {index : Nat} {r : Routine W} {e₁ : Engine W}
    {o : Outcome} (h : e.call sch phase index s r = (e₁, .outcome o)) :
    e₁.deeds = e.deeds ++ [.called phase index, .returned phase index] := by
  obtain ⟨m, e₂, hcourse, hnever | ⟨o', heq⟩⟩ := call_course sch phase index s r e
  · cases h.symm.trans hnever
  · cases h.symm.trans heq
    rw [deeds_record, hcourse.deeds_eq, deeds_record]
    simp [Event.deed?, hphase]

/-- The deed of a call that never came back. -/
theorem deeds_call_never (hphase : phase ≠ .run) {index : Nat} {r : Routine W} {e₁ : Engine W}
    (h : e.call sch phase index s r = (e₁, .never)) :
    e₁.deeds = e.deeds ++ [.called phase index] := by
  obtain ⟨m, e₂, hcourse, hnever | ⟨o, heq⟩⟩ := call_course sch phase index s r e
  · cases h.symm.trans hnever
    rw [hcourse.deeds_eq, deeds_record]
    simp [Event.deed?, hphase]
  · cases h.symm.trans heq

theorem Visits.deeds_eq (hphase : phase ≠ .run) (h : Visits sch phase s code row e os e') :
    e'.deeds = e.deeds ++ Deed.visits phase (row.map Prod.fst) := by
  induction h with
  | nil => simp [Deed.visits]
  | cons hfirst _ ih =>
    rw [ih, deeds_call hphase hfirst, List.map_cons, Deed.visits_cons, List.append_assoc]

/-- How a call came back is on record. -/
theorem returns_call (hphase : phase ≠ .run) {index : Nat} {r : Routine W} {e₁ : Engine W}
    {o : Outcome} (h : e.call sch phase index s r = (e₁, .outcome o)) :
    e₁.returns phase = e.returns phase ++ [(index, o)] := by
  obtain ⟨m, e₂, hcourse, hnever | ⟨o', heq⟩⟩ := call_course sch phase index s r e
  · cases h.symm.trans hnever
  · cases h.symm.trans heq
    rw [returns_record, hcourse.returns_eq hphase, returns_record]
    simp [Entry.returned?]

/-- A call that never came back has left no return on record. -/
theorem returns_call_never (hphase : phase ≠ .run) {index : Nat} {r : Routine W} {e₁ : Engine W}
    (h : e.call sch phase index s r = (e₁, .never)) : e₁.returns phase = e.returns phase := by
  obtain ⟨m, e₂, hcourse, hnever | ⟨o, heq⟩⟩ := call_course sch phase index s r e
  · cases h.symm.trans hnever
    rw [hcourse.returns_eq hphase, returns_record]
    simp [Entry.returned?]
  · cases h.symm.trans heq

theorem Visits.returns_eq (hphase : phase ≠ .run) (h : Visits sch phase s code row e os e') :
    e'.returns phase = e.returns phase ++ (row.map Prod.fst).zip os := by
  induction h with
  | nil => simp
  | cons hfirst _ ih =>
    rw [ih, returns_call hphase hfirst, List.map_cons, List.zip_cons_cons, List.append_assoc]
    rfl

theorem Visits.received_eq (h : Visits sch phase s code row e os e') :
    e'.received = e.received :=
  h.adds.filterMap_entries _ fun _ hx => hx.2.received?_eq_none

/-! ### Rows that stop -/

/-- The deeds of a row that stops at a call which came back. -/
theorem Breaks.deeds_outcome (hphase : phase ≠ .run) {o : Outcome}
    (h : Breaks sch phase s code good row e index (.outcome o) e') :
    ∃ before p after, row = before ++ (index, p) :: after ∧
      e'.deeds = e.deeds ++ Deed.visits phase (before.map Prod.fst ++ [index]) := by
  obtain ⟨hvisits, -, hcall, -⟩ := h
  refine ⟨_, _, _, rfl, ?_⟩
  rw [deeds_call hphase hcall, hvisits.deeds_eq hphase, Deed.visits_append, List.append_assoc]
  rfl

/-- The deeds of a row that stops at a call which never came back. -/
theorem Breaks.deeds_never (hphase : phase ≠ .run)
    (h : Breaks sch phase s code good row e index .never e') :
    ∃ before p after, row = before ++ (index, p) :: after ∧
      e'.deeds = e.deeds ++ Deed.visits phase (before.map Prod.fst) ++ [.called phase index] := by
  obtain ⟨hvisits, -, hcall, -⟩ := h
  exact ⟨_, _, _, rfl, by rw [deeds_call_never hphase hcall, hvisits.deeds_eq hphase]⟩

/-- A row that stops at a process has no good return of it, if there was none before and no other
process has its index. -/
theorem Breaks.not_mem_returns (hphase : phase ≠ .run) {r : Returned}
    (h : Breaks sch phase s code good row e index r e') (hnone : e.returns phase = [])
    (hdistinct : (row.map Prod.fst).Nodup) {o : Outcome} (ho : good o) :
    (index, o) ∉ e'.returns phase := by
  obtain @⟨_, p, before, after, _, e₁, _, os, _, hvisits, hall, hcall, hbad⟩ := h
  -- the processes before have other indices
  have hbefore : ∀ x, (index, x) ∉ (before.map Prod.fst).zip os := by
    intro x hx
    rw [List.map_append, List.map_cons] at hdistinct
    have hdisjoint := (List.nodup_append.1 hdistinct).2.2
    exact hdisjoint index (List.of_mem_zip hx).1 index List.mem_cons_self rfl
  have hreturns := hvisits.returns_eq hphase
  rw [hnone, List.nil_append] at hreturns
  cases r with
  | never =>
    rw [returns_call_never hphase hcall, hreturns]
    exact hbefore o
  | outcome o' =>
    rw [returns_call hphase hcall, hreturns, List.mem_append, List.mem_singleton]
    rintro (hmem | heq)
    · exact hbefore o hmem
    · cases heq
      exact hbad o rfl ho

theorem Breaks.adds {r : Returned} (h : Breaks sch phase s code good row e index r e') :
    Adds (fun x => x.stage = e.stage ∧ x.event.Within phase) e e' := by
  obtain ⟨hvisits, -, hcall, -⟩ := h
  exact hvisits.adds.trans ((adds_call hcall).mono fun x hx => ⟨hx.1.trans hvisits.stage_eq, hx.2⟩)

/-- A row that stops at a process has called it. -/
theorem Breaks.called_mem_deeds (hphase : phase ≠ .run) {r : Returned}
    (h : Breaks sch phase s code good row e index r e') : .called phase index ∈ e'.deeds := by
  cases r with
  | never =>
    obtain ⟨before, p, after, -, hdeeds⟩ := h.deeds_never hphase
    rw [hdeeds]
    simp
  | outcome o =>
    obtain ⟨before, p, after, -, hdeeds⟩ := h.deeds_outcome hphase
    rw [hdeeds]
    simp [Deed.visits]

/-! ### What a row of calls preserves -/

/-- A property that calling a phase preserves: whatever happens, and when the call and its return
are recorded. -/
structure Kept (phase : Phase) (P : Engine W → Prop) : Prop where
  happens : ∀ e e', Happens e e' → P e → P e'
  called : ∀ e index m, P e → P (e.record (.called phase index m))
  returned : ∀ e index o, P e → P (e.record (.returned phase index o))

namespace Kept

variable {P : Engine W → Prop}

theorem call (hP : Kept phase P) {index : Nat} {r : Routine W} {e₁ : Engine W} {result : Returned}
    (h : e.call sch phase index s r = (e₁, result)) (he : P e) : P e₁ := by
  obtain ⟨m, e₂, hcourse, hcall⟩ := call_course sch phase index s r e
  have hlast : P e₂ := hcourse.preserves hP.happens (hP.called e index m he)
  rcases hcall with hnever | ⟨o, heq⟩
  · cases h.symm.trans hnever
    exact hlast
  · cases h.symm.trans heq
    exact hP.returned e₂ index o hlast

theorem visits (hP : Kept phase P) (h : Visits sch phase s code row e os e') (he : P e) : P e' := by
  induction h with
  | nil => exact he
  | cons hfirst _ ih => exact ih (hP.call hfirst he)

theorem breaks (hP : Kept phase P) {index : Nat} {r : Returned}
    (h : Breaks sch phase s code good row e index r e') (he : P e) : P e' := by
  obtain ⟨hvisits, -, hcall, -⟩ := h
  exact hP.call hcall (hP.visits hvisits he)

end Kept

/-- No happening hands out a scope. -/
theorem Happens.kept_eq {e e' : Engine W} (h : Happens e e') : e'.kept = e.kept := by
  cases h with
  | finish =>
    rw [endTask_eq]
    rfl
  | _ => rfl

/-- Calling a phase hands out no scope. -/
theorem kept_handed (kept : Phase → Option Token) :
    Kept phase fun e : Engine W => e.kept = kept where
  happens _ _ hstep h := hstep.kept_eq.trans h
  called _ _ _ h := h
  returned _ _ _ h := h

end Engine

end ServiceHost
