import ServiceHost.Proofs.Lifecycle.Performing
/-!
Performing a routine one instruction at a time.

`Engine.Performs` tells what performing a routine comes to.  Here it is taken apart from the front,
in front of a background that respects some relation: an act is done at once, in a world to which
the background may have changed the old one (`Performs.act_cases`), and a pause whose end does not
depend on what the background does lasts exactly as long as it says (`Performs.pause_cases`).  With
these two a routine is followed to the nanosecond, in the order of its instructions.
-/

namespace ServiceHost.Engine

open Relation

variable {W : Type} {R : W → W → Prop}

/-- The background has acted, and respects `R`, as it has in doing so. -/
structure Drifts (R : W → W → Prop) (e e' : Engine W) : Prop where
  respects : e'.Respects R
  world : R e.world e'.world

variable {s : Scope} {allowance : Option Nat} {rest : Routine W} {e e' e'' : Engine W}
  {r : Engine W × Returned}

section

variable [IsPreorder W R]

theorem Drifts.refl (h : e.Respects R) : Drifts R e e :=
  ⟨h, Std.Refl.refl _⟩

theorem Drifts.trans (h : Drifts R e e') (h' : Drifts R e' e'') : Drifts R e e'' :=
  ⟨h'.respects, IsTrans.trans _ _ _ h.world h'.world⟩

theorem Drifts.of_waits {ready : Engine W → Option Nat}
    (h : ReflTransGen (Waits ready) e e') (he : e.Respects R) : Drifts R e e' :=
  let ⟨hrespects, hworld⟩ := respected_of_waits h he
  ⟨hrespects, hworld⟩

end

variable [IsPreorder W R]

/-- An act is done at once. -/
theorem Performs.act_cases {effect : Moment → W → W × Option Outcome}
    (h : Performs s allowance (.act effect :: rest) e r) (he : e.Respects R) :
    ∃ e₁ : Engine W, e₁.now = e.now ∧ Drifts R e e₁ ∧
      ((∃ w, effect (e₁.moment s allowance) e₁.world = (w, none) ∧
          Performs s allowance rest { e₁ with world := w } r) ∨
        ∃ w o, effect (e₁.moment s allowance) e₁.world = (w, some o) ∧
          r = ({ e₁ with world := w }, .outcome o)) := by
  cases h with
  | never waits unable => cases unable
  | @goOn _ _ _ e₁ w _ waits gives goesOn =>
    have hnow := now_eq_of_waits waits
    have hdrifts := Drifts.of_waits waits he
    exact ⟨e₁.step e₁.now .caller, hnow, ⟨hdrifts.respects, hdrifts.world⟩,
      .inl ⟨w, gives, goesOn⟩⟩
  | @finish _ _ _ e₁ w o waits gives =>
    have hnow := now_eq_of_waits waits
    have hdrifts := Drifts.of_waits waits he
    exact ⟨e₁.step e₁.now .caller, hnow, ⟨hdrifts.respects, hdrifts.world⟩,
      .inr ⟨w, o, gives, rfl⟩⟩

/-- A pause whose signals tell its length, whatever the background does, lasts so long, or for ever
if it has none. -/
theorem Performs.pause_cases {signals : List (Signal W)}
    (h : Performs s allowance (.pause signals :: rest) e r) (he : e.Respects R)
    (length : Option Nat)
    (hready : ∀ x : Engine W, R e.world x.world → e.now ≤ x.now →
      x.readyAt s e.now allowance (.pause signals :: rest) =
        length.map fun d => max x.now (e.now + d)) :
    (∃ d e₁, length = some d ∧ e₁.now = e.now + d ∧ Drifts R e e₁ ∧
        Performs s allowance rest e₁ r) ∨
      length = none ∧ ∃ e₁, Drifts R e e₁ ∧ r = (e₁, .never) := by
  -- while the background acts, the clock does not go past the end of the pause
  have hwaits {x : Engine W} (hrow : ReflTransGen (Waits fun y => y.readyAt s e.now allowance
      (.pause signals :: rest)) e x) :
      Drifts R e x ∧ e.now ≤ x.now ∧ ∀ d, length = some d → x.now ≤ e.now + d := by
    induction hrow with
    | refl => exact ⟨.refl he, Nat.le_refl _, fun d _ => Nat.le_add_right ..⟩
    | @tail y z _ hlast ih =>
      obtain ⟨hdrifts, hlater, hwithin⟩ := ih
      refine ⟨hdrifts.trans (.of_waits (.single hlast) hdrifts.respects), ?_⟩
      obtain @⟨who, time, hable, -, hsoon⟩ := hlast
      have htime := now_le_of_mem_background hable
      rw [(acts_course hable).2]
      refine ⟨Nat.le_trans hlater htime, fun d hd => ?_⟩
      have hend := hready y hdrifts.world hlater
      rw [hd, Option.map_some] at hend
      have hsooner := hsoon _ hend
      have hyet := hwithin d hd
      omega
  cases h with
  | @never _ _ _ e₁ waits unable =>
    obtain ⟨hdrifts, hlater, -⟩ := hwaits waits
    rw [hready e₁ hdrifts.world hlater, Option.map_eq_none_iff] at unable
    exact .inr ⟨unable, e₁, hdrifts, rfl⟩
  | @pause _ _ _ e₁ time _ waits able goesOn =>
    obtain ⟨hdrifts, hlater, hwithin⟩ := hwaits waits
    rw [hready e₁ hdrifts.world hlater, Option.map_eq_some_iff] at able
    obtain ⟨d, hd, rfl⟩ := able
    have hyet := hwithin d hd
    have hnow : (e₁.step (max e₁.now (e.now + d)) .caller).now = e.now + d := Nat.max_eq_right hyet
    exact .inl ⟨d, _, hd, hnow, ⟨hdrifts.respects, hdrifts.world⟩, goesOn⟩

/-- A call performs its routine between two records, the second of which is missing if it never
comes back. -/
theorem call_cases (sch : Schedule W) (phase : Phase) (index : Nat) (s : Scope) (code : Routine W)
    (e : Engine W) :
    ∃ r, Performs s (s.remaining e.now) code
        (e.record (.called phase index (e.moment s (s.remaining e.now)))) r ∧
      ((∃ e₁ o, r = (e₁, .outcome o) ∧ e.call sch phase index s code =
          (e₁.record (.returned phase index o), .outcome o)) ∨
        ∃ e₁, r = (e₁, .never) ∧ e.call sch phase index s code = (e₁, .never)) := by
  refine ⟨_, performs sch s (s.remaining e.now) code _, ?_⟩
  unfold call
  dsimp only
  generalize perform sch s (s.remaining e.now) code _ = r
  rcases r with ⟨e₁, o | -⟩
  · exact .inl ⟨e₁, o, rfl, rfl⟩
  · exact .inr ⟨e₁, rfl, rfl⟩

end ServiceHost.Engine
