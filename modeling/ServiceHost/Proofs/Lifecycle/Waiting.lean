import Mathlib.Logic.Relation
import ServiceHost.Lifecycle.Schedule
/-!
What waiting does, for every schedule.

A wait is a row of steps of the background, each made by someone who can act at the earliest moment
at which anyone can, followed by the caller's own step.  The steps of the background use up
`Engine.work`, so the bound inside `waitFor` is never what ends a wait: a caller that does not go on
is one for whom nothing is left to wait for.

Main result: `await_waits`.  All that later modules say about waiting goes through it, and none of
them mentions a schedule's picks.
-/

namespace ServiceHost.Engine

open Relation

variable {W : Type}

/-! ### Who can act, and when -/

/-- The background holds the cancellations to come and the tasks that can go on. -/
theorem mem_background {e : Engine W} {m : Who × Nat} :
    m ∈ e.background ↔
      (∃ k o, e.outside[k]? = some o ∧ m = (.outside k, max e.now o.1)) ∨
      ∃ k t time, e.tasks[k]? = some t ∧ e.taskReadyAt t = some time ∧ m = (.task k, time) := by
  simp only [background, List.mem_append, List.mem_map, List.mem_filterMap, Prod.exists,
    List.mk_mem_zipIdx_iff_getElem?, Option.map_eq_some_iff]
  constructor
  · rintro (⟨at', token, k, h, rfl⟩ | ⟨t, k, h, time, hready, rfl⟩)
    · exact .inl ⟨k, at', token, h, rfl⟩
    · exact .inr ⟨k, t, time, h, hready, rfl⟩
  · rintro (⟨k, at', token, h, rfl⟩ | ⟨k, t, time, h, hready, rfl⟩)
    · exact .inl ⟨at', token, k, h, rfl⟩
    · exact .inr ⟨t, k, h, time, hready, rfl⟩

/-- A scope is not done before now. -/
theorem now_le_doneAt {s : Scope} {ts : Tokens} {now time : Nat}
    (h : s.doneAt ts now = some time) : now ≤ time := by
  unfold Scope.doneAt at h
  split at h
  · exact Nat.le_of_eq (Option.some.inj h)
  · obtain ⟨deadline, -, rfl⟩ := Option.map_eq_some_iff.1 h
    exact Nat.le_max_left ..

/-- A scope is done at the moment at which it is going to be done. -/
theorem isDone_of_doneAt {s : Scope} {ts : Tokens} {now time : Nat}
    (h : s.doneAt ts now = some time) : s.isDone ts time = true := by
  unfold Scope.doneAt at h
  unfold Scope.isDone
  split at h
  next hcancelled => rw [hcancelled, Bool.true_or]
  next =>
    obtain ⟨deadline, hdeadline, rfl⟩ := Option.map_eq_some_iff.1 h
    rw [hdeadline, Bool.or_eq_true]
    exact .inr (decide_eq_true (Nat.le_max_right ..))

/-- A signal is not given before now. -/
theorem now_le_signalAt {e : Engine W} {s : Scope} {since time : Nat} {allowance : Option Nat}
    {signal : Signal W} (h : e.signalAt s since allowance signal = some time) : e.now ≤ time := by
  cases signal with
  | elapsed delay =>
    obtain ⟨d, -, rfl⟩ := Option.map_eq_some_iff.1 h
    exact Nat.le_max_left ..
  | done => exact now_le_doneAt h
  | holds condition =>
    simp only [signalAt] at h
    split at h
    · exact Nat.le_of_eq (Option.some.inj h)
    · cases h

/-- No instruction can be done before now. -/
theorem now_le_readyAt {e : Engine W} {s : Scope} {since time : Nat} {allowance : Option Nat}
    {code : Routine W} (h : e.readyAt s since allowance code = some time) : e.now ≤ time := by
  unfold readyAt at h
  split at h
  · have hmem := (List.min?_eq_some_iff.1 h).1
    obtain ⟨signal, -, hsignal⟩ := List.mem_filterMap.1 hmem
    exact now_le_signalAt hsignal
  · exact Nat.le_of_eq (Option.some.inj h)

/-- A task that can act has not ended. -/
theorem outcome_of_taskReadyAt {e : Engine W} {t : Task W} {time : Nat}
    (h : e.taskReadyAt t = some time) : t.outcome = none := by
  unfold taskReadyAt at h
  split at h
  · cases h
  · next hended => simpa using hended

/-- No task can act before now. -/
theorem now_le_taskReadyAt {e : Engine W} {t : Task W} {time : Nat}
    (h : e.taskReadyAt t = some time) : e.now ≤ time := by
  unfold taskReadyAt at h
  split at h
  · cases h
  · split at h
    · exact now_le_readyAt h
    · exact Nat.le_of_eq (Option.some.inj h)

/-- Nobody in the background can act before now. -/
theorem now_le_of_mem_background {e : Engine W} {who : Who} {time : Nat}
    (h : (who, time) ∈ e.background) : e.now ≤ time := by
  rcases mem_background.1 h with ⟨k, o, -, heq⟩ | ⟨k, t, ready, -, hready, heq⟩
  · obtain ⟨rfl, rfl⟩ := Prod.mk.inj heq
    exact Nat.le_max_left ..
  · obtain ⟨rfl, rfl⟩ := Prod.mk.inj heq
    exact now_le_taskReadyAt hready

/-- The caller does not stand in the background. -/
theorem ne_caller_of_mem_background {e : Engine W} {who : Who} {time : Nat}
    (h : (who, time) ∈ e.background) : who ≠ .caller := by
  rcases mem_background.1 h with ⟨k, o, -, heq⟩ | ⟨k, t, ready, -, -, heq⟩ <;>
    obtain ⟨rfl, -⟩ := Prod.mk.inj heq <;> simp

/-- If the background is idle, nothing is going to come from outside. -/
theorem outside_eq_nil {e : Engine W} (idle : e.background = []) : e.outside = [] := by
  refine List.eq_nil_iff_forall_not_mem.2 fun o ho => ?_
  obtain ⟨k, hk⟩ := List.mem_iff_getElem?.1 ho
  have hmem := mem_background.2 (.inl ⟨k, o, hk, rfl⟩)
  rw [idle] at hmem
  cases hmem

/-! ### The earliest moment -/

theorem earliest_eq_none_iff {able : List (Who × Nat)} : earliest able = none ↔ able = [] := by
  simp [earliest]

/-- The earliest moment is the least of all, and those who can act at it are some. -/
theorem earliest_eq_some {able : List (Who × Nat)} {time : Nat} {whos : List Who}
    (h : earliest able = some (time, whos)) :
    (∀ who ∈ whos, (who, time) ∈ able) ∧ whos ≠ [] ∧ ∀ m ∈ able, time ≤ m.2 := by
  obtain ⟨least, hleast, heq⟩ := Option.map_eq_some_iff.1 h
  obtain ⟨rfl, rfl⟩ := Prod.mk.inj heq
  obtain ⟨hmem, hle⟩ := List.min?_eq_some_iff.1 hleast
  refine ⟨?_, ?_, fun m hm => hle _ (List.mem_map_of_mem hm)⟩
  · intro who hwho
    obtain ⟨m, hm, rfl⟩ := List.mem_map.1 hwho
    obtain ⟨hmable, htime⟩ := List.mem_filter.1 hm
    rw [← beq_iff_eq.1 htime]
    exact hmable
  · obtain ⟨m, hm, rfl⟩ := List.mem_map.1 hmem
    exact List.ne_nil_of_mem (List.mem_map_of_mem (List.mem_filter.2 ⟨hm, beq_self_eq_true _⟩))

/-- Whoever a schedule picks, someone acts who can. -/
theorem choose_mem (sch : Schedule W) (e : Engine W) (time : Nat) {whos : List Who}
    (h : whos ≠ []) : e.choose sch time whos ∈ whos := by
  unfold choose
  dsimp only
  split
  · assumption
  · obtain ⟨who, rest, rfl⟩ := List.exists_cons_of_ne_nil h
    exact List.mem_cons_self

/-! ### Waiting comes to an end -/

/-- Changing one task changes the sum of all work by as much as the work of that task. -/
theorem foldr_work_set {l : List (Task W)} {k : Nat} {t : Task W} (h : l[k]? = some t)
    (t' : Task W) :
    (l.set k t').foldr (fun t n => t.work + n) 0 + t.work =
      l.foldr (fun t n => t.work + n) 0 + t'.work := by
  induction l generalizing k with
  | nil => simp at h
  | cons u l ih =>
    cases k with
    | zero =>
      obtain rfl : u = t := by simpa using h
      simp only [List.set_cons_zero, List.foldr_cons]
      omega
    | succ k =>
      have := ih (k := k) (by simpa using h)
      simp only [List.set_cons_succ, List.foldr_cons]
      omega

/-- What has less work left in one task has less work left, if less has come to the cancellations to
come than has been done. -/
theorem work_lt_of_set {e e' : Engine W} {k : Nat} {t t' : Task W} (h : e.tasks[k]? = some t)
    (htasks : e'.tasks = e.tasks.set k t')
    (hlt : e'.outside.length + t'.work < e.outside.length + t.work) : e'.work < e.work := by
  have hsum := foldr_work_set h t'
  unfold work
  rw [htasks]
  omega

/-- A clone that has been kept is cancelled now, or that is left for later, or there is none. -/
theorem cancelClone_cases (e : Engine W) (own : Scope) (kept : Option Phase)
    (later : Option Nat) :
    e.cancelClone own kept later = e ∨ ∃ token, e.clone? own kept = some token ∧
      ((later = none ∧ e.cancelClone own kept later = e.cancel token) ∨
        ∃ delay, later = some delay ∧ e.cancelClone own kept later =
          { e with outside := e.outside ++ [(e.now + delay, token)] }) := by
  unfold cancelClone
  cases e.clone? own kept with
  | none => exact .inl rfl
  | some token =>
    cases later with
    | none => exact .inr ⟨token, rfl, .inl ⟨rfl, rfl⟩⟩
    | some delay => exact .inr ⟨token, rfl, .inr ⟨delay, rfl, rfl⟩⟩

/-- It makes no difference whether a task goes on before or after a cancellation. -/
theorem goOn_cancelClone (e : Engine W) (own : Scope) (kept : Option Phase) (later : Option Nat)
    (k : Nat) (t : Task W) (rest : Routine W) :
    (e.cancelClone own kept later).goOn k t rest =
      (e.goOn k t rest).cancelClone own kept later := by
  have hclone : (e.goOn k t rest).clone? own kept = e.clone? own kept := by cases kept <;> rfl
  unfold cancelClone
  rw [hclone]
  cases e.clone? own kept with
  | none => rfl
  | some token => cases later <;> rfl

/-- Cancelling a clone changes neither the clock nor the tasks nor the world, and leaves at most one
cancellation behind. -/
theorem cancelClone_eq (e : Engine W) (own : Scope) (kept : Option Phase) (later : Option Nat) :
    (e.cancelClone own kept later).now = e.now ∧ (e.cancelClone own kept later).tasks = e.tasks ∧
      (e.cancelClone own kept later).world = e.world ∧
      (e.cancelClone own kept later).outside.length ≤ e.outside.length + 1 := by
  rcases e.cancelClone_cases own kept later with heq | ⟨token, -, ⟨-, heq⟩ | ⟨delay, -, heq⟩⟩
  all_goals
    rw [heq]
    refine ⟨rfl, rfl, rfl, ?_⟩
  · exact Nat.le_succ _
  · exact Nat.le_succ _
  · exact Nat.le_of_eq List.length_append

/-- The end of a task is recorded, and a failure is posted. -/
theorem endTask_eq (e : Engine W) (k : Nat) (t : Task W) (o : Outcome) :
    e.endTask k t o =
      { { e with tasks := e.tasks.set k { t with outcome := some o } }.record
          (.returned .run t.index o) with
        mailbox := (o.fault?.map (Report.mk t.index)).elim e.mailbox e.mailbox.post } := by
  unfold endTask
  dsimp only
  split
  next hnone =>
    rw [hnone]
    rfl
  next source hsome =>
    rw [hsome]
    rfl

/-- A task that acts has less to do afterwards. -/
theorem work_stepTask_lt {e : Engine W} {k : Nat} {t : Task W} (h : e.tasks[k]? = some t)
    (hlive : t.outcome = none) : (e.stepTask k t).work < e.work := by
  have hended (o : Outcome) : Task.work { t with outcome := some o } = 0 := by simp [Task.work]
  unfold stepTask
  rw [if_neg (by simp [hlive])]
  split
  -- a started task loses an instruction, or all that is left when it ends
  next hstarted =>
    split
    next hcode =>
      rw [endTask_eq]
      refine work_lt_of_set h rfl (Nat.add_lt_add_left ?_ _)
      rw [hended]
      simp [Task.work, hlive, hstarted]
    next rest hcode =>
      refine work_lt_of_set h rfl (Nat.add_lt_add_left ?_ _)
      simp [Task.work, hlive, hstarted, hcode]
    next kept later rest hcode =>
      -- what the instruction leaves behind weighs less than it does
      obtain ⟨-, htasks, -, houtside⟩ := (e.goOn k t rest).cancelClone_eq t.scope kept later
      refine work_lt_of_set h htasks (Nat.lt_of_le_of_lt (Nat.add_le_add_right houtside _) ?_)
      simp only [goOn, Task.work, hlive, hstarted, hcode, Option.isSome_none, Bool.false_eq_true,
        if_false, if_true, List.length_cons]
      omega
    next effect rest hcode =>
      split
      next w heffect =>
        refine work_lt_of_set h rfl (Nat.add_lt_add_left ?_ _)
        simp [Task.work, hlive, hstarted, hcode]
      next w o heffect =>
        rw [endTask_eq]
        refine work_lt_of_set h rfl (Nat.add_lt_add_left ?_ _)
        rw [hended]
        simp [Task.work, hlive, hstarted]
  -- starting a task is counted as one more step
  next hstarted =>
    refine work_lt_of_set h rfl (Nat.add_lt_add_left ?_ _)
    simp [Task.work, hlive, hstarted]

/-- Every step of the background uses up work. -/
theorem work_step_lt {e : Engine W} {who : Who} {time : Nat} (h : (who, time) ∈ e.background) :
    (e.step time who).work < e.work := by
  rcases mem_background.1 h with ⟨k, o, ho, heq⟩ | ⟨k, t, ready, ht, hready, heq⟩
  · -- a cancellation that has come is taken off the list
    obtain ⟨rfl, -⟩ := Prod.mk.inj heq
    obtain ⟨hk, -⟩ := List.getElem?_eq_some_iff.1 ho
    simp only [step, ho]
    simp only [work, cancel, record, List.length_eraseIdx_of_lt hk]
    omega
  · obtain ⟨rfl, -⟩ := Prod.mk.inj heq
    simp only [step, ht]
    exact work_stepTask_lt (e := { e with now := time, active := .task k }) ht
      (outcome_of_taskReadyAt hready)

/-! ### What a wait consists of -/

/-- Someone in the background acts, at a moment before which nobody can act and the caller cannot
go on. -/
inductive Waits (ready : Engine W → Option Nat) : Engine W → Engine W → Prop
  | act {e : Engine W} {who : Who} {time : Nat} (able : (who, time) ∈ e.background)
      (first : ∀ m ∈ e.background, time ≤ m.2) (soon : ∀ t, ready e = some t → time ≤ t) :
      Waits ready e (e.step time who)

/-- How a wait ends: the caller goes on before anyone in the background can act, or nothing is left
to wait for. -/
inductive WaitEnds (ready : Engine W → Option Nat) (e : Engine W) : Engine W × Bool → Prop
  | goesOn {time : Nat} (able : ready e = some time) (first : ∀ m ∈ e.background, time ≤ m.2) :
      WaitEnds ready e (e.step time .caller, true)
  | never (unable : ready e = none) (idle : e.background = []) : WaitEnds ready e (e, false)

/-- With enough fuel, a wait is a row of steps of the background and then ends. -/
theorem waitFor_waits (sch : Schedule W) (ready : Engine W → Option Nat) (fuel : Nat)
    (e : Engine W) (h : e.work < fuel) :
    ∃ e₁, ReflTransGen (Waits ready) e e₁ ∧ WaitEnds ready e₁ (waitFor sch ready fuel e) := by
  induction fuel generalizing e with
  | zero => omega
  | succ fuel ih =>
    unfold waitFor
    dsimp only
    split
    next hnone =>
      -- nobody can act, not even the caller
      obtain ⟨hidle, hcaller⟩ := List.append_eq_nil_iff.1 (earliest_eq_none_iff.1 hnone)
      have hunable : ready e = none := by
        cases hready : ready e with
        | none => rfl
        | some t => simp [hready] at hcaller
      exact ⟨e, .refl, .never hunable hidle⟩
    next time whos hsome =>
      obtain ⟨hable, hne, hfirst⟩ := earliest_eq_some hsome
      have hpick := hable _ (choose_mem sch e time hne)
      have hbackground : ∀ m ∈ e.background, time ≤ m.2 := fun m hm =>
        hfirst m (List.mem_append_left _ hm)
      split
      next hcaller =>
        -- the caller is not in the background, so it is `ready` that lets it go on
        rw [hcaller] at hpick
        rcases List.mem_append.1 hpick with hmem | hmem
        · exact absurd rfl (ne_caller_of_mem_background hmem)
        · obtain ⟨t, hready⟩ : ∃ t, ready e = some t := by
            cases hready : ready e with
            | none => simp [hready] at hmem
            | some t => exact ⟨t, rfl⟩
          obtain rfl : time = t := by simpa [hready] using hmem
          exact ⟨e, .refl, .goesOn hready hbackground⟩
      next hother =>
        -- someone in the background acts, which uses up work as it does fuel
        have hmem : (e.choose sch time whos, time) ∈ e.background := by
          rcases List.mem_append.1 hpick with hmem | hmem
          · exact hmem
          · cases hready : ready e with
            | none => simp [hready] at hmem
            | some t =>
              have heq : e.choose sch time whos = .caller := by
                simp only [hready, Option.map_some, Option.getD_some, List.mem_singleton,
                  Prod.mk.injEq] at hmem
                exact hmem.1
              exact absurd heq hother
        have hwaits : Waits ready e (e.step time (e.choose sch time whos)) := by
          apply Waits.act hmem hbackground
          intro t ht
          exact hfirst (.caller, t) (List.mem_append_right _ (by simp [ht]))
        have hwork := work_step_lt hmem
        obtain ⟨e₁, hsteps, hend⟩ := ih (e.step time (e.choose sch time whos)) (by omega)
        exact ⟨e₁, .head hwaits hsteps, hend⟩

/-- **What waiting does**: the background makes steps, each at the earliest moment, until the caller
goes on at the moment it was ready for, or until nothing can happen any more. -/
theorem await_waits (sch : Schedule W) (ready : Engine W → Option Nat) (e : Engine W) :
    ∃ e₁, ReflTransGen (Waits ready) e e₁ ∧ WaitEnds ready e₁ (e.await sch ready) :=
  waitFor_waits sch ready (e.work + 1) e (Nat.lt_succ_self _)

end ServiceHost.Engine
