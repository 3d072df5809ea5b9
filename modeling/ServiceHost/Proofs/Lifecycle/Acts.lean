import ServiceHost.Proofs.Lifecycle.Waiting
/-!
What can happen while a supervisor waits or performs a routine, in full detail.

`Engine.Acts mine` lists once what the clock, the background and a caller can do at one go.  It
tells of a task that ends that its code gives that outcome (`Routine.Ends`), and of a token that is
cancelled, or left to be cancelled after a delay, who does so: a task which has come to that in its
code (`Engine.Cancelling`), or the caller, who may do what `mine` says.
Waiting and performing a routine are rows of such acts (`await_acts`, `perform_acts`), and a call of
a phase is such a row between the records of its beginning and its end (`call_acts`).
-/

namespace ServiceHost

/-! ### How a routine can end -/

/-- What a routine ends with if it does not go on: success where it stops, or what its next act
gives. -/
inductive Routine.Ends {W : Type} : Routine W → Outcome → Prop
  | stop : Ends [] .ok
  | act {effect : Moment → W → W × Option Outcome} {rest : Routine W} {m : Moment} {w w' : W}
      {o : Outcome} (gives : effect m w = (w', some o)) : Ends (.act effect :: rest) o

namespace Engine

open Relation

variable {W : Type}

/-! ### What can be done at one go -/

/-- A routine with a scope of its own can come to cancel a token, or to leave that behind. -/
def MayCancel (e : Engine W) (own : Scope) (code : Routine W) (later : Option Nat)
    (token : Token) : Prop :=
  ∃ kept, .cancel kept later ∈ code ∧ e.clone? own kept = some token

/-- The task at a place has begun and is about to cancel the token, or to leave that behind. -/
def Cancelling (e : Engine W) (k : Nat) (later : Option Nat) (token : Token) : Prop :=
  ∃ t kept rest, e.tasks[k]? = some t ∧ t.started = true ∧ t.outcome = none ∧
    t.code = .cancel kept later :: rest ∧ e.clone? t.scope kept = some token

/-- What the clock, the background or a caller who may do what `mine` says does at one go. -/
inductive Acts (mine : Option Nat → Token → Prop) : Engine W → Engine W → Prop
  | clock {e : Engine W} {time : Nat} {who : Who} (later : e.now ≤ time)
      (first : ∀ m ∈ e.background, time ≤ m.2) : Acts mine e { e with now := time, active := who }
  | arrive {e : Engine W} {k time : Nat} {token : Token}
      (planned : e.outside[k]? = some (time, token)) (due : time ≤ e.now) :
      Acts mine e ({ e with outside := e.outside.eraseIdx k }.cancel token)
  | start {e : Engine W} {k : Nat} {t : Task W} (here : e.tasks[k]? = some t)
      (live : t.outcome = none) (idle : t.started = false) : Acts mine e (e.startTask k t)
  | goOn {e : Engine W} {k : Nat} {t : Task W} {i : Instruction W} {rest : Routine W}
      (here : e.tasks[k]? = some t) (live : t.outcome = none) (code : t.code = i :: rest) :
      Acts mine e (e.goOn k t rest)
  | finish {e : Engine W} {k : Nat} {t : Task W} {o : Outcome} (here : e.tasks[k]? = some t)
      (live : t.outcome = none) (ends : t.code.Ends o) : Acts mine e (e.endTask k t o)
  | cancel {e : Engine W} {token : Token}
      (held : mine none token ∨ ∃ k, e.Cancelling k none token) : Acts mine e (e.cancel token)
  | leave {e : Engine W} {delay : Nat} {token : Token}
      (held : mine (some delay) token ∨ ∃ k, e.Cancelling k (some delay) token) :
      Acts mine e { e with outside := e.outside ++ [(e.now + delay, token)] }
  | change {e : Engine W} (w : W) : Acts mine e { e with world := w }

variable {mine : Option Nat → Token → Prop}

/-- What is done at one go is a row of its own. -/
theorem Acts.row {e e' : Engine W} (h : Acts mine e e') : ReflTransGen (Acts mine) e e' :=
  .single h

/-- What everything done at one go preserves, a row of it preserves. -/
theorem preserved_of_acts {P : Engine W → Prop} {e e' : Engine W}
    (h : ReflTransGen (Acts mine) e e') (hstep : ∀ e e', Acts mine e e' → P e → P e') (he : P e) :
    P e' := by
  induction h with
  | refl => exact he
  | tail _ hlast ih => exact hstep _ _ hlast ih

/-- No scope is handed out. -/
theorem Acts.kept_eq {e e' : Engine W} (h : Acts mine e e') : e'.kept = e.kept := by
  cases h with
  | finish =>
    rw [endTask_eq]
    rfl
  | _ => rfl

theorem kept_of_acts {e e' : Engine W} (h : ReflTransGen (Acts mine) e e') : e'.kept = e.kept :=
  preserved_of_acts (P := fun x => x.kept = e.kept) h
    (fun _ _ hstep hx => hstep.kept_eq.trans hx) rfl

/-- What a routine can come to cancel depends on what has been handed out. -/
theorem mayCancel_congr {e e' : Engine W} (h : e'.kept = e.kept) {own : Scope} {code : Routine W}
    {later : Option Nat} {token : Token} :
    e'.MayCancel own code later token ↔ e.MayCancel own code later token := by
  have hclone (kept : Option Phase) : e'.clone? own kept = e.clone? own kept := by
    cases kept with
    | none => rfl
    | some phase => exact congrFun h phase
  simp only [MayCancel, hclone]

/-! ### Waiting and performing -/

/-- Someone cancels what a routine with the given scope refers to, and may do so. -/
theorem cancelClone_acts {e : Engine W} {own : Scope} {kept : Option Phase} {later : Option Nat}
    (hheld : ∀ token, e.clone? own kept = some token →
      mine later token ∨ ∃ k, e.Cancelling k later token) :
    ReflTransGen (Acts mine) e (e.cancelClone own kept later) := by
  rcases e.cancelClone_cases own kept later with
    heq | ⟨token, hclone, ⟨rfl, heq⟩ | ⟨delay, rfl, heq⟩⟩
  · rw [heq]
  · rw [heq]
    exact (Acts.cancel (hheld token hclone)).row
  · rw [heq]
    exact (Acts.leave (hheld token hclone)).row

/-- A task acts. -/
theorem stepTask_acts {e : Engine W} {k : Nat} {t : Task W} (h : e.tasks[k]? = some t)
    (hlive : t.outcome = none) : ReflTransGen (Acts mine) e (e.stepTask k t) := by
  unfold stepTask
  rw [if_neg (by simp [hlive])]
  split
  next hstarted =>
    split
    -- the code is at its end, at a pause, at a cancellation or at an act
    next hcode => exact (Acts.finish h hlive (hcode ▸ .stop)).row
    next hcode => exact (Acts.goOn h hlive hcode).row
    next kept later rest hcode =>
      -- it makes no difference whether the task cancels first or goes on first
      have hcancels : ReflTransGen (Acts mine) e (e.cancelClone t.scope kept later) :=
        cancelClone_acts fun token hclone =>
          .inr ⟨k, t, kept, rest, h, hstarted, hlive, hcode, hclone⟩
      obtain ⟨-, htasks, -⟩ := e.cancelClone_eq t.scope kept later
      have hgoOn : Acts mine (e.cancelClone t.scope kept later)
          ((e.cancelClone t.scope kept later).goOn k t rest) := .goOn (htasks ▸ h) hlive hcode
      rw [goOn_cancelClone] at hgoOn
      exact hcancels.tail hgoOn
    next effect rest hcode =>
      split
      next w heffect =>
        exact (Acts.change w).row.tail (.goOn (e := { e with world := w }) h hlive hcode)
      next w o heffect =>
        refine (Acts.change w).row.tail (.finish (e := { e with world := w }) h hlive ?_)
        rw [hcode]
        exact .act heffect
  next hstarted => exact (Acts.start h hlive (by simpa using hstarted)).row

/-- Someone in the background acts, at the moment of the step. -/
theorem step_acts {e : Engine W} {who : Who} {time : Nat} (h : (who, time) ∈ e.background) :
    ReflTransGen (Acts mine) { e with now := time, active := who } (e.step time who) := by
  rcases mem_background.1 h with ⟨k, o, ho, heq⟩ | ⟨k, t, ready, ht, hready, heq⟩
  · obtain ⟨rfl, rfl⟩ := Prod.mk.inj heq
    simp only [step, ho]
    exact (Acts.arrive (e := { e with now := max e.now o.1, active := .outside k }) ho
      (Nat.le_max_right ..)).row
  · obtain ⟨rfl, rfl⟩ := Prod.mk.inj heq
    simp only [step, ht]
    exact stepTask_acts (e := { e with now := time, active := .task k }) ht
      (outcome_of_taskReadyAt hready)

/-- The steps of a wait are rows of acts. -/
theorem waits_acts {ready : Engine W → Option Nat} {e e' : Engine W}
    (h : ReflTransGen (Waits ready) e e') : ReflTransGen (Acts mine) e e' := by
  induction h with
  | refl => exact .refl
  | tail _ hlast ih =>
    obtain ⟨hable, hfirst, -⟩ := hlast
    exact (ih.tail (.clock (now_le_of_mem_background hable) hfirst)).trans (step_acts hable)

/-- A wait is a row of acts, if the caller is never ready in the past. -/
theorem await_acts (sch : Schedule W) (ready : Engine W → Option Nat)
    (hready : ∀ e t, ready e = some t → e.now ≤ t) (e : Engine W) :
    ReflTransGen (Acts mine) e (e.await sch ready).1 := by
  obtain ⟨e₁, hsteps, hend⟩ := await_waits sch ready e
  apply (waits_acts hsteps).trans
  generalize e.await sch ready = r at hend ⊢
  cases hend with
  | goesOn hable hfirst => exact (Acts.clock (hready _ _ hable) hfirst).row
  | never => exact .refl

/-- Performing a routine is a row of acts of a caller who may do what is in the code. -/
theorem perform_acts (sch : Schedule W) {s : Scope} (allowance : Option Nat) (code : Routine W)
    (e : Engine W) (hmine : ∀ later token, e.MayCancel s code later token → mine later token) :
    ReflTransGen (Acts mine) e (e.perform sch s allowance code).1 := by
  induction code generalizing e with
  | nil => exact .refl
  | cons i rest ih =>
    -- the rest of the code has no other cancellations, and nothing is handed out meanwhile
    have ih (e' : Engine W) (hkept : e'.kept = e.kept) :
        ReflTransGen (Acts mine) e' (e'.perform sch s allowance rest).1 := by
      refine ih e' fun later token hmay => hmine later token ?_
      obtain ⟨kept, hmem, hclone⟩ := (mayCancel_congr hkept).1 hmay
      exact ⟨kept, List.mem_cons_of_mem _ hmem, hclone⟩
    have hwait : ReflTransGen (Acts mine) e
        (e.await sch fun e' => e'.readyAt s e.now allowance (i :: rest)).1 :=
      await_acts sch _ (fun _ _ => now_le_readyAt) e
    unfold perform
    dsimp only
    generalize e.await sch _ = r at hwait ⊢
    obtain ⟨e', able⟩ := r
    dsimp only at hwait ⊢
    have hkept : e'.kept = e.kept := kept_of_acts hwait
    split
    · exact hwait
    · -- the first instruction is a pause, a cancellation or an act
      split
      · exact hwait.trans (ih _ hkept)
      next kept later =>
        have hcancels : ReflTransGen (Acts mine) e' (e'.cancelClone s kept later) := by
          refine cancelClone_acts fun token hclone => .inl (hmine later token ?_)
          exact (mayCancel_congr hkept).1 ⟨kept, List.mem_cons_self, hclone⟩
        exact (hwait.trans hcancels).trans (ih _ ((kept_of_acts hcancels).trans hkept))
      · split
        next w _ => exact (hwait.tail (.change w)).trans (ih _ hkept)
        next w o _ => exact hwait.tail (.change w)

/-- A call of a phase is recorded with what the process sees of its scope, runs its course, and is
recorded again when it comes back. -/
theorem call_acts (mine : Option Nat → Token → Prop) (sch : Schedule W) (phase : Phase)
    (index : Nat) {s : Scope} {code : Routine W} (e : Engine W)
    (hmine : ∀ later token, e.MayCancel s code later token → mine later token) :
    ∃ e₁, ReflTransGen (Acts mine)
        (e.record (.called phase index (e.moment s (s.remaining e.now)))) e₁ ∧
      (e.call sch phase index s code = (e₁, .never) ∨
        ∃ o, e.call sch phase index s code =
          (e₁.record (.returned phase index o), .outcome o)) := by
  have hperform : ReflTransGen (Acts mine) _ _ := perform_acts sch (s.remaining e.now) code
    (e.record (.called phase index (e.moment s (s.remaining e.now)))) hmine
  refine ⟨_, hperform, ?_⟩
  unfold call
  dsimp only
  split
  next e' h => exact .inl (by rw [h])
  next e' o h => exact .inr ⟨o, by rw [h]⟩

end Engine

end ServiceHost
