import ServiceHost.Proofs.Lifecycle.Waiting
/-!
A wait as a row of choices.

`Engine.next` tells who acts next while a caller waits, and when.  A wait follows these choices
until one falls on the caller or nobody is left (`await_of_none`, `await_of_caller`,
`await_of_next`), and how much fuel it was given plays no role (`waitFor_eq`).  While
`await_waits` tells what a wait can do whatever the schedule, these equations tell what it does with
the schedule it has, which is what the comparison of two runs needs.
-/

namespace ServiceHost.Engine

variable {W : Type}

/-- Those of a list who can act at a moment. -/
def whoAt (able : List (Who × Nat)) (time : Nat) : List Who :=
  (able.filter (·.2 == time)).map (·.1)

/-- Everyone who can act while a caller waits, and when. -/
def able (ready : Engine W → Option Nat) (e : Engine W) : List (Who × Nat) :=
  e.background ++ ((ready e).map fun t => [(Who.caller, t)]).getD []

/-- Who acts next while a caller waits, and when. -/
def next (sch : Schedule W) (ready : Engine W → Option Nat) (e : Engine W) : Option (Nat × Who) :=
  (earliest (e.able ready)).map fun x => (x.1, e.choose sch x.1 x.2)

variable {sch : Schedule W} {ready : Engine W → Option Nat} {e : Engine W} {time : Nat} {who : Who}

theorem mem_whoAt {able : List (Who × Nat)} : who ∈ whoAt able time ↔ (who, time) ∈ able := by
  simp [whoAt]

/-- If someone can act at a moment and nobody earlier, that moment is the earliest. -/
theorem earliest_of_mem {able : List (Who × Nat)} (hmem : (who, time) ∈ able)
    (hfirst : ∀ m ∈ able, time ≤ m.2) : earliest able = some (time, whoAt able time) := by
  have hleast : (able.map (·.2)).min? = some time := by
    refine List.min?_eq_some_iff.2 ⟨List.mem_map_of_mem hmem, fun t ht => ?_⟩
    obtain ⟨m, hm, rfl⟩ := List.mem_map.1 ht
    exact hfirst m hm
  unfold earliest
  rw [hleast]
  rfl

/-- Those who can act at the earliest moment. -/
theorem whos_eq_of_earliest {able : List (Who × Nat)} {whos : List Who}
    (h : earliest able = some (time, whos)) : whos = whoAt able time := by
  obtain ⟨t, -, heq⟩ := Option.map_eq_some_iff.1 h
  cases heq
  rfl

theorem mem_able {m : Who × Nat} :
    m ∈ e.able ready ↔ m ∈ e.background ∨ ∃ t, ready e = some t ∧ m = (.caller, t) := by
  unfold able
  rw [List.mem_append]
  refine or_congr_right ?_
  cases ready e with
  | none => simp
  | some t => simp

/-- The caller can act when it is ready. -/
theorem caller_mem_able {t : Nat} : (.caller, t) ∈ e.able ready ↔ ready e = some t := by
  rw [mem_able]
  constructor
  · rintro (hmem | ⟨t', hready, heq⟩)
    · exact absurd rfl (ne_caller_of_mem_background hmem)
    · rw [hready, (Prod.mk.inj heq).2]
  · intro hready
    exact .inr ⟨t, hready, rfl⟩

/-- Whoever acts next can do so, and nobody can earlier. -/
theorem mem_able_of_next (h : e.next sch ready = some (time, who)) :
    (who, time) ∈ e.able ready ∧ ∀ m ∈ e.able ready, time ≤ m.2 := by
  obtain ⟨⟨t, whos⟩, hearliest, heq⟩ := Option.map_eq_some_iff.1 h
  obtain ⟨rfl, rfl⟩ := Prod.mk.inj heq
  obtain ⟨hmem, hne, hfirst⟩ := earliest_eq_some hearliest
  exact ⟨hmem _ (choose_mem sch e t hne), hfirst⟩

/-- If the choice does not fall on the caller, it falls on someone in the background. -/
theorem mem_background_of_next (h : e.next sch ready = some (time, who)) (hwho : who ≠ .caller) :
    (who, time) ∈ e.background := by
  rcases mem_able.1 (mem_able_of_next h).1 with hmem | ⟨t, -, heq⟩
  · exact hmem
  · exact absurd (Prod.mk.inj heq).1 hwho

/-- No choice lets anyone act before those in the background can, or the caller. -/
theorem le_of_next (h : e.next sch ready = some (time, who)) :
    (∀ m ∈ e.background, time ≤ m.2) ∧ ∀ t, ready e = some t → time ≤ t := by
  have hfirst := (mem_able_of_next h).2
  exact ⟨fun m hm => hfirst m (mem_able.2 (.inl hm)),
    fun t ht => hfirst _ (caller_mem_able.2 ht)⟩

/-- The next step of a wait. -/
theorem waitFor_succ (sch : Schedule W) (ready : Engine W → Option Nat) (fuel : Nat)
    (e : Engine W) :
    waitFor sch ready (fuel + 1) e = match e.next sch ready with
      | none => (e, false)
      | some (time, .caller) => (e.step time .caller, true)
      | some (time, who) => waitFor sch ready fuel (e.step time who) := by
  rw [waitFor]
  unfold next able
  cases earliest (e.background ++ _) with
  | none => rfl
  | some x =>
    obtain ⟨time, whos⟩ := x
    dsimp only [Option.map_some]
    cases e.choose sch time whos <;> rfl

/-- With enough fuel it does not matter how much there is. -/
theorem waitFor_eq {fuel fuel' : Nat} (h : e.work < fuel) (h' : e.work < fuel') :
    waitFor sch ready fuel e = waitFor sch ready fuel' e := by
  induction fuel generalizing e fuel' with
  | zero => omega
  | succ fuel ih =>
    obtain ⟨fuel', rfl⟩ := Nat.exists_eq_succ_of_ne_zero (Nat.ne_zero_of_lt h')
    rw [waitFor_succ, waitFor_succ]
    -- a step of the background uses up work as it does fuel
    have hstep {time : Nat} {who : Who} (hnext : e.next sch ready = some (time, who))
        (hwho : who ≠ .caller) : waitFor sch ready fuel (e.step time who) =
          waitFor sch ready fuel' (e.step time who) := by
      have hwork := work_step_lt (mem_background_of_next hnext hwho)
      exact ih (by omega) (by omega)
    split
    · rfl
    · rfl
    next hcaller hnext => exact hstep hnext hcaller

/-- A wait in which nobody is left to act never ends. -/
theorem await_of_none (h : e.next sch ready = none) : e.await sch ready = (e, false) := by
  rw [await, waitFor_succ, h]

/-- A wait ends when the choice falls on the caller. -/
theorem await_of_caller (h : e.next sch ready = some (time, .caller)) :
    e.await sch ready = (e.step time .caller, true) := by
  rw [await, waitFor_succ, h]

/-- A wait goes on after someone in the background has acted. -/
theorem await_of_next (h : e.next sch ready = some (time, who)) (hwho : who ≠ .caller) :
    e.await sch ready = (e.step time who).await sch ready := by
  have hwork := work_step_lt (mem_background_of_next h hwho)
  have hgo : e.await sch ready = waitFor sch ready e.work (e.step time who) := by
    rw [await, waitFor_succ, h]
    cases who with
    | caller => exact absurd rfl hwho
    | outside | task => rfl
  rw [hgo]
  exact waitFor_eq hwork (Nat.lt_succ_self _)

end ServiceHost.Engine
