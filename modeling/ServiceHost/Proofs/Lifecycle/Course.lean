import ServiceHost.Proofs.Lifecycle.Acts
import ServiceHost.Proofs.Lifecycle.Record
/-!
The course of events while a supervisor waits or calls a phase.

`Engine.Happens` lists once what can happen at one go: the clock goes on, a cancellation arrives, a
task starts, goes on or ends, a token is cancelled or left for later, the world changes.  It is what
`Engine.Acts` tells, less who holds a token and what the code of a task gives.  Waiting and calling
a phase are rows of such happenings (`await_course`, `call_course`), so that what every happening
preserves holds along all of them.

The first use is the record: whatever happens, only events beside the supervisor's deeds are added
(`Course.adds`).
-/

namespace ServiceHost.Engine

open Relation

variable {W : Type}

/-! ### What can happen -/

/-- What can happen at one go. -/
inductive Happens : Engine W → Engine W → Prop
  | clock {e : Engine W} {time : Nat} {who : Who} (later : e.now ≤ time)
      (first : ∀ m ∈ e.background, time ≤ m.2) : Happens e { e with now := time, active := who }
  | arrive {e : Engine W} {k time : Nat} {token : Token}
      (planned : e.outside[k]? = some (time, token)) (due : time ≤ e.now) :
      Happens e ({ e with outside := e.outside.eraseIdx k }.cancel token)
  | start {e : Engine W} {k : Nat} {t : Task W} (here : e.tasks[k]? = some t)
      (live : t.outcome = none) (idle : t.started = false) : Happens e (e.startTask k t)
  | goOn {e : Engine W} {k : Nat} {t : Task W} {i : Instruction W} {rest : Routine W}
      (here : e.tasks[k]? = some t) (live : t.outcome = none) (code : t.code = i :: rest) :
      Happens e (e.goOn k t rest)
  | finish {e : Engine W} {k : Nat} {t : Task W} (here : e.tasks[k]? = some t)
      (live : t.outcome = none) (o : Outcome) : Happens e (e.endTask k t o)
  | cancel {e : Engine W} (token : Token) : Happens e (e.cancel token)
  | leave {e : Engine W} (delay : Nat) (token : Token) :
      Happens e { e with outside := e.outside ++ [(e.now + delay, token)] }
  | change {e : Engine W} (w : W) : Happens e { e with world := w }

/-- A row of happenings. -/
def Course (e e' : Engine W) : Prop :=
  ReflTransGen Happens e e'

theorem Course.refl (e : Engine W) : Course e e :=
  ReflTransGen.refl

theorem Course.trans {e e' e'' : Engine W} (h₁ : Course e e') (h₂ : Course e' e'') :
    Course e e'' :=
  ReflTransGen.trans h₁ h₂

theorem Happens.course {e e' : Engine W} (h : Happens e e') : Course e e' :=
  ReflTransGen.single h

/-- What every happening preserves, a course of them preserves. -/
theorem Course.preserves {e e' : Engine W} {P : Engine W → Prop} (h : Course e e')
    (hstep : ∀ e e', Happens e e' → P e → P e') (he : P e) : P e' := by
  induction h with
  | refl => exact he
  | tail _ hlast ih => exact hstep _ _ hlast ih

/-! ### Waiting and performing are courses -/

/-- What is done at one go is something that can happen. -/
theorem Acts.happens {mine : Option Nat → Token → Prop} {e e' : Engine W} (h : Acts mine e e') :
    Happens e e' := by
  cases h with
  | clock later first => exact .clock later first
  | arrive planned due => exact .arrive planned due
  | start here live idle => exact .start here live idle
  | goOn here live code => exact .goOn here live code
  | finish here live => exact .finish here live _
  | cancel => exact .cancel _
  | leave => exact .leave _ _
  | change w => exact .change w

/-- A row of acts is a course of happenings. -/
theorem course_of_acts {mine : Option Nat → Token → Prop} {e e' : Engine W}
    (h : ReflTransGen (Acts mine) e e') : Course e e' :=
  ReflTransGen.mono (fun _ _ => Acts.happens) _ _ h

theorem now_stepTask (e : Engine W) (k : Nat) (t : Task W) : (e.stepTask k t).now = e.now := by
  unfold stepTask
  split
  · rfl
  · split
    · split
      · rw [endTask_eq]
        rfl
      · rfl
      · exact (cancelClone_eq ..).1
      · split
        · rfl
        · rw [endTask_eq]
          rfl
    · rfl

/-- Someone in the background acts by happenings, all of them at the moment of the step. -/
theorem acts_course {e : Engine W} {who : Who} {time : Nat} (h : (who, time) ∈ e.background) :
    Course { e with now := time, active := who } (e.step time who) ∧
      (e.step time who).now = time := by
  have hacts : ReflTransGen (Acts fun _ _ => False) _ _ := step_acts h
  refine ⟨course_of_acts hacts, ?_⟩
  rcases mem_background.1 h with ⟨k, o, ho, heq⟩ | ⟨k, t, ready, ht, hready, heq⟩
  · obtain ⟨rfl, rfl⟩ := Prod.mk.inj heq
    simp only [step, ho]
    rfl
  · obtain ⟨rfl, rfl⟩ := Prod.mk.inj heq
    simp only [step, ht]
    exact now_stepTask ..

/-- A wait is a course of happenings, if the caller is never ready in the past. -/
theorem await_course (sch : Schedule W) (ready : Engine W → Option Nat)
    (hready : ∀ e t, ready e = some t → e.now ≤ t) (e : Engine W) :
    Course e (e.await sch ready).1 := by
  have hacts : ReflTransGen (Acts fun _ _ => False) _ _ := await_acts sch ready hready e
  exact course_of_acts hacts

/-- A call of a phase is recorded, runs its course, and is recorded again when it comes back. -/
theorem call_course (sch : Schedule W) (phase : Phase) (index : Nat) (s : Scope)
    (code : Routine W) (e : Engine W) :
    ∃ m e₁, Course (e.record (.called phase index m)) e₁ ∧
      (e.call sch phase index s code = (e₁, .never) ∨
        ∃ o, e.call sch phase index s code =
          (e₁.record (.returned phase index o), .outcome o)) := by
  obtain ⟨e₁, hacts, hcall⟩ := call_acts (fun _ _ => True) sch phase index e fun _ _ _ => trivial
  exact ⟨_, e₁, course_of_acts hacts, hcall⟩

/-! ### What is recorded on the way -/

/-- No happening changes the stage. -/
theorem Happens.stage_eq {e e' : Engine W} (h : Happens e e') : e'.stage = e.stage := by
  cases h with
  | finish =>
    rw [endTask_eq]
    rfl
  | _ => rfl

/-- Every happening adds only events beside the supervisor's deeds. -/
theorem Happens.adds {e e' : Engine W} (h : Happens e e') :
    Adds (fun x => x.stage = e.stage ∧ x.event.Within .run) e e' := by
  cases h with
  | clock later => exact .of_history_eq later rfl
  | arrive | cancel => exact .of_record rfl rfl ⟨rfl, trivial⟩
  | start => exact .of_record rfl rfl ⟨rfl, .inl rfl⟩
  | goOn | leave | change => exact .of_history_eq (Nat.le_refl _) rfl
  | finish =>
    rw [endTask_eq]
    exact .of_record rfl rfl ⟨rfl, .inl rfl⟩

theorem Course.stage_eq {e e' : Engine W} (h : Course e e') : e'.stage = e.stage :=
  h.preserves (P := fun x => x.stage = e.stage) (fun _ _ hstep hx => hstep.stage_eq.trans hx) rfl

theorem Course.adds {e e' : Engine W} (h : Course e e') :
    Adds (fun x => x.stage = e.stage ∧ x.event.Within .run) e e' := by
  induction h with
  | refl => exact .refl ..
  | tail hfirst hlast ih =>
    refine ih.trans (hlast.adds.mono fun x hx => ⟨?_, hx.2⟩)
    exact hx.1.trans (Course.stage_eq hfirst)

theorem Course.deeds_eq {e e' : Engine W} (h : Course e e') : e'.deeds = e.deeds :=
  h.adds.filterMap_entries _ fun _ hx => hx.2.deed?_eq_none

theorem Course.returns_eq {e e' : Engine W} (h : Course e e') {phase : Phase}
    (hphase : phase ≠ .run) : e'.returns phase = e.returns phase :=
  h.adds.filterMap_entries _ fun _ hx => hx.2.returned?_eq_none hphase hphase

theorem Course.received_eq {e e' : Engine W} (h : Course e e') : e'.received = e.received :=
  h.adds.filterMap_entries _ fun _ hx => hx.2.received?_eq_none

/-! ### What waiting preserves -/

/-- Waiting preserves what the clock preserves when it goes on, which it does not beyond a moment at
which the caller can, and what everything preserves that happens at one moment. -/
theorem preserved_of_waits {ready : Engine W → Option Nat} {P : Engine W → Prop}
    (hclock : ∀ e time who, P e → e.now ≤ time → (∀ t, ready e = some t → time ≤ t) →
      P { e with now := time, active := who })
    (hhappens : ∀ e e', P e → Happens e e' → e'.now = e.now → P e') {e e' : Engine W}
    (hwaits : ReflTransGen (Waits ready) e e') (he : P e) : P e' := by
  -- a course that takes no time takes none at any of its happenings
  have hcourse {x y : Engine W} (hx : P x) (hcourse : Course x y) (hnow : y.now = x.now) : P y := by
    induction hcourse with
    | refl => exact hx
    | @tail z y hfirst hlast ih =>
      have hle := (Course.adds hfirst).now_le
      have hle' := hlast.adds.now_le
      have hnow' : z.now = x.now := by omega
      exact hhappens _ _ (ih hnow') hlast (by omega)
  induction hwaits with
  | refl => exact he
  | tail _ hlast ih =>
    obtain @⟨who, time, hable, -, hsoon⟩ := hlast
    obtain ⟨hacts, hnow⟩ := acts_course hable
    exact hcourse (hclock _ _ who ih (now_le_of_mem_background hable) hsoon) hacts hnow

end ServiceHost.Engine
