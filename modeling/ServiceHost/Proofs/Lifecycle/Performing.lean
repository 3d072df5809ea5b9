import Mathlib.Order.Defs.Unbundled
import ServiceHost.Proofs.Lifecycle.Course
/-!
What routines do to the world, for every schedule.

In the background one task at a time takes a turn on the world that all share (`Routine.Turn`,
`Waits.stirs`).  In front of it the caller performs a routine, and before each of its instructions
the background may act (`Engine.Performs`, `performs`).  No later statement about the work of a
routine goes back to the engine's own functions; three of them are made here.  What all routines of
the background respect, every wait respects (`respected_of_waits`); a routine that leads from a
world to some outcomes whatever the background does comes back with one of them
(`Performs.of_leads`); and a routine with a limit to each of its pauses comes back within their sum
(`Performs.within`).
-/

namespace ServiceHost

open Relation

variable {W : Type}

/-! ### Turns in the background -/

/-- One turn of a routine on a world: what is left of it, how it has ended, if it has, and the world
that it leaves.  A routine that ends stands where it was. -/
inductive Routine.Turn (m : Moment) : Routine W → W → Routine W → Option Outcome → W → Prop
  | stop {w : W} : Turn m [] w [] (some .ok) w
  | pause {signals : List (Signal W)} {rest : Routine W} {w : W} :
      Turn m (.pause signals :: rest) w rest none w
  | cancel {kept : Option Phase} {later : Option Nat} {rest : Routine W} {w : W} :
      Turn m (.cancel kept later :: rest) w rest none w
  | goOn {effect : Moment → W → W × Option Outcome} {rest : Routine W} {w w' : W}
      (gives : effect m w = (w', none)) : Turn m (.act effect :: rest) w rest none w'
  | finish {effect : Moment → W → W × Option Outcome} {rest : Routine W} {w w' : W} {o : Outcome}
      (gives : effect m w = (w', some o)) :
      Turn m (.act effect :: rest) w (.act effect :: rest) (some o) w'

/-- A routine goes on to its next instruction, or ends where it stands. -/
theorem Routine.Turn.of_cons {m : Moment} {i : Instruction W} {rest code' : Routine W} {w w' : W}
    {o : Option Outcome} (h : Turn m (i :: rest) w code' o w') :
    (code' = rest ∧ o = none) ∨ (code' = i :: rest ∧ ∃ end', o = some end') := by
  cases h with
  | pause | cancel | goOn => exact .inl ⟨rfl, rfl⟩
  | finish => exact .inr ⟨rfl, _, rfl⟩

/-- What is left of a routine is an end of it. -/
theorem Routine.Turn.suffix {m : Moment} {code code' : Routine W} {w w' : W} {o : Option Outcome}
    (h : Turn m code w code' o w') : code' <:+ code := by
  cases h with
  | stop | finish => exact List.suffix_rfl
  | pause | cancel | goOn => exact List.suffix_cons ..

/-- A turn only depends on the next instruction. -/
theorem Routine.Turn.of_append {m : Moment} {i : Instruction W} {rest more code' : Routine W}
    {w w' : W} {o : Option Outcome} (h : Turn m (i :: rest ++ more) w code' o w') :
    ∃ code'', code' = code'' ++ more ∧ Turn m (i :: rest) w code'' o w' := by
  cases h with
  | pause => exact ⟨rest, rfl, .pause⟩
  | cancel => exact ⟨rest, rfl, .cancel⟩
  | goOn gives => exact ⟨rest, rfl, .goOn gives⟩
  | finish gives => exact ⟨_ :: rest, rfl, .finish gives⟩

namespace Engine

/-- What a step of the background does to the tasks and to the world. -/
inductive Stirs : Engine W → Engine W → Prop
  | still {e e' : Engine W} (tasks : e'.tasks = e.tasks) (world : e'.world = e.world) : Stirs e e'
  | start {e e' : Engine W} {k : Nat} {t t' : Task W} (here : e.tasks[k]? = some t)
      (live : t.outcome = none) (tasks : e'.tasks = e.tasks.set k t') (code : t'.code = t.code)
      (outcome : t'.outcome = t.outcome) (world : e'.world = e.world) : Stirs e e'
  | turn {e e' : Engine W} {k : Nat} {t t' : Task W} {m : Moment} (here : e.tasks[k]? = some t)
      (live : t.outcome = none) (tasks : e'.tasks = e.tasks.set k t')
      (takes : Routine.Turn m t.code e.world t'.code t'.outcome e'.world) : Stirs e e'

/-- A task that acts starts or takes a turn. -/
theorem stepTask_stirs {e : Engine W} {k : Nat} {t : Task W} (h : e.tasks[k]? = some t)
    (hlive : t.outcome = none) : Stirs e (e.stepTask k t) := by
  have hturn {e' : Engine W} {t' : Task W} (htasks : e'.tasks = e.tasks.set k t')
      (htakes : Routine.Turn (e.moment t.scope t.allowance) t.code e.world t'.code t'.outcome
        e'.world) : Stirs e e' := .turn h hlive htasks htakes
  unfold stepTask
  rw [if_neg (by simp [hlive])]
  split
  next =>
    split
    -- the code is at its end, at a pause, at a cancellation or at an act
    next hcode =>
      rw [endTask_eq]
      exact hturn rfl (by rw [hcode]; exact .stop)
    next hcode => exact hturn rfl (by rw [hcode]; exact hlive ▸ .pause)
    next kept later rest hcode =>
      obtain ⟨-, htasks, hworld, -⟩ := (e.goOn k t rest).cancelClone_eq t.scope kept later
      refine hturn htasks ?_
      rw [hcode, hworld]
      exact hlive ▸ .cancel
    next hcode =>
      split
      next w heffect => exact hturn rfl (by rw [hcode]; exact hlive ▸ .goOn heffect)
      next w o heffect =>
        rw [endTask_eq]
        exact hturn rfl (by rw [hcode]; exact .finish heffect)
  next => exact .start h hlive rfl rfl rfl rfl

/-- Every step of a wait stirs the tasks in one of these ways. -/
theorem Waits.stirs {ready : Engine W → Option Nat} {e e' : Engine W} (h : Waits ready e e') :
    Stirs e e' := by
  obtain @⟨who, time, hable, -, -⟩ := h
  rcases mem_background.1 hable with ⟨k, o, ho, heq⟩ | ⟨k, t, ready, ht, hready, heq⟩
  · obtain ⟨rfl, rfl⟩ := Prod.mk.inj heq
    simp only [step, ho]
    exact .still rfl rfl
  · obtain ⟨rfl, rfl⟩ := Prod.mk.inj heq
    simp only [step, ht]
    have hstirs := stepTask_stirs (e := { e with now := time, active := .task k }) ht
      (outcome_of_taskReadyAt hready)
    -- the clock and who acts are neither task nor world
    cases hstirs with
    | still tasks world => exact .still tasks world
    | start here live tasks code outcome world => exact .start here live tasks code outcome world
    | turn here live tasks takes => exact .turn here live tasks takes

/-- A task keeps its place.  It stays as it is, or has not ended and starts or takes a turn. -/
theorem Stirs.task {e e' : Engine W} (h : Stirs e e') {k : Nat} {t : Task W}
    (ht : e.tasks[k]? = some t) :
    ∃ t', e'.tasks[k]? = some t' ∧ (t' = t ∨ t.outcome = none ∧
      (t'.code = t.code ∧ t'.outcome = t.outcome ∨
        ∃ m, Routine.Turn m t.code e.world t'.code t'.outcome e'.world)) := by
  obtain ⟨hlt, -⟩ := List.getElem?_eq_some_iff.1 ht
  cases h with
  | still tasks => exact ⟨t, tasks ▸ ht, .inl rfl⟩
  | @start j u u' here live tasks code outcome =>
    by_cases hjk : j = k
    · obtain rfl := hjk
      obtain rfl := Option.some.inj (here.symm.trans ht)
      exact ⟨u', by rw [tasks, List.getElem?_set_self hlt], .inr ⟨live, .inl ⟨code, outcome⟩⟩⟩
    · exact ⟨t, by rw [tasks, List.getElem?_set_ne hjk, ht], .inl rfl⟩
  | @turn j u u' m here live tasks takes =>
    by_cases hjk : j = k
    · obtain rfl := hjk
      obtain rfl := Option.some.inj (here.symm.trans ht)
      exact ⟨u', by rw [tasks, List.getElem?_set_self hlt], .inr ⟨live, .inr ⟨m, takes⟩⟩⟩
    · exact ⟨t, by rw [tasks, List.getElem?_set_ne hjk, ht], .inl rfl⟩

end Engine

/-! ### What the background respects -/

section Respecting

variable {R : W → W → Prop}

/-- Every act of a routine relates the world before it to the world after it. -/
def Routine.Respects (R : W → W → Prop) (code : Routine W) : Prop :=
  ∀ effect, .act effect ∈ code → ∀ m w, R w (effect m w).1

theorem Routine.respects_nil : Routine.Respects R [] :=
  fun _ hmem => by cases hmem

theorem Routine.Respects.act {effect : Moment → W → W × Option Outcome} {rest : Routine W}
    (h : rest.Respects R) (hact : ∀ m w, R w (effect m w).1) :
    Routine.Respects R (.act effect :: rest) := by
  intro other hmem
  rcases List.mem_cons.1 hmem with heq | hmem
  · obtain rfl := Instruction.act.inj heq
    exact hact
  · exact h other hmem

theorem Routine.Respects.pause {rest : Routine W} (h : rest.Respects R)
    (signals : List (Signal W)) : Routine.Respects R (.pause signals :: rest) := by
  intro effect hmem
  rcases List.mem_cons.1 hmem with heq | hmem
  · cases heq
  · exact h effect hmem

theorem Routine.Respects.append {code rest : Routine W} (h : code.Respects R)
    (hrest : rest.Respects R) : Routine.Respects R (code ++ rest) := by
  intro effect hmem
  exact (List.mem_append.1 hmem).elim (h effect) (hrest effect)

theorem Routine.Respects.tail {i : Instruction W} {rest : Routine W}
    (h : Routine.Respects R (i :: rest)) : rest.Respects R :=
  fun effect hmem => h effect (List.mem_cons_of_mem _ hmem)

/-- What a routine respects, each of its turns does, and the rest of it. -/
theorem Routine.Turn.respected [IsPreorder W R] {m : Moment} {code code' : Routine W} {w w' : W}
    {o : Option Outcome} (h : Turn m code w code' o w') (hcode : code.Respects R) :
    code'.Respects R ∧ R w w' := by
  cases h with
  | stop => exact ⟨hcode, refl _⟩
  | pause | cancel => exact ⟨hcode.tail, refl _⟩
  | goOn gives => exact ⟨hcode.tail, by simpa [gives] using hcode _ List.mem_cons_self m w⟩
  | finish gives => exact ⟨hcode, by simpa [gives] using hcode _ List.mem_cons_self m w⟩

namespace Engine

/-- Every act of a task relates the world before it to the world after it. -/
def Respects (R : W → W → Prop) (e : Engine W) : Prop :=
  ∀ t ∈ e.tasks, t.code.Respects R

/-- What all tasks but one respect, and the one does afterwards, all respect. -/
theorem Respects.set {e e' : Engine W} (h : e.Respects R) {k : Nat} {t' : Task W}
    (htasks : e'.tasks = e.tasks.set k t') (hcode : t'.code.Respects R) : e'.Respects R := by
  intro t ht
  rw [htasks] at ht
  rcases List.mem_or_eq_of_mem_set ht with ht | rfl
  · exact h t ht
  · exact hcode

theorem Respects.of_tasks {e e' : Engine W} (h : e.Respects R) (htasks : e'.tasks = e.tasks) :
    e'.Respects R := by
  unfold Respects
  rwa [htasks]

variable [IsPreorder W R]

theorem Stirs.respected {e e' : Engine W} (h : Stirs e e') (he : e.Respects R) :
    e'.Respects R ∧ R e.world e'.world := by
  cases h with
  | still tasks world => exact ⟨he.of_tasks tasks, world ▸ refl _⟩
  | start here _ tasks code _ world =>
    exact ⟨he.set tasks (code ▸ he _ (List.mem_of_getElem? here)), world ▸ refl _⟩
  | turn here _ tasks takes =>
    obtain ⟨hcode, hworld⟩ := takes.respected (he _ (List.mem_of_getElem? here))
    exact ⟨he.set tasks hcode, hworld⟩

/-- What all routines of the background respect, every wait does. -/
theorem respected_of_waits {ready : Engine W → Option Nat} {e e' : Engine W}
    (h : ReflTransGen (Waits ready) e e') (he : e.Respects R) :
    e'.Respects R ∧ R e.world e'.world := by
  induction h with
  | refl => exact ⟨he, refl _⟩
  | tail _ hlast ih =>
    obtain ⟨hlater, hworld⟩ := hlast.stirs.respected ih.1
    exact ⟨hlater, IsTrans.trans _ _ _ ih.2 hworld⟩

/-- What all routines of the background respect, waiting does. -/
theorem Respects.await {e : Engine W} (he : e.Respects R) (sch : Schedule W)
    (ready : Engine W → Option Nat) :
    (e.await sch ready).1.Respects R ∧ R e.world (e.await sch ready).1.world := by
  obtain ⟨e₁, hwaits, hend⟩ := await_waits sch ready e
  obtain ⟨hlater, hworld⟩ := respected_of_waits hwaits he
  generalize e.await sch ready = r at hend
  cases hend with
  | goesOn => exact ⟨hlater.of_tasks rfl, hworld⟩
  | never => exact ⟨hlater, hworld⟩

end Engine

end Respecting

/-! ### Performing in front of the background -/

namespace Engine

/-- What performing a routine in a scope comes to.  Before each instruction the background may act,
but not past the moment at which the instruction can be done. -/
inductive Performs (s : Scope) (allowance : Option Nat) :
    Routine W → Engine W → Engine W × Returned → Prop
  | stop {e : Engine W} : Performs s allowance [] e (e, .outcome .ok)
  | never {i : Instruction W} {rest : Routine W} {e e₁ : Engine W}
      (waits : ReflTransGen (Waits fun x => x.readyAt s e.now allowance (i :: rest)) e e₁)
      (unable : e₁.readyAt s e.now allowance (i :: rest) = none) (idle : e₁.background = []) :
      Performs s allowance (i :: rest) e (e₁, .never)
  | pause {signals : List (Signal W)} {rest : Routine W} {e e₁ : Engine W} {time : Nat}
      {r : Engine W × Returned}
      (waits : ReflTransGen (Waits fun x => x.readyAt s e.now allowance (.pause signals :: rest))
        e e₁)
      (able : e₁.readyAt s e.now allowance (.pause signals :: rest) = some time)
      (goesOn : Performs s allowance rest (e₁.step time .caller) r) :
      Performs s allowance (.pause signals :: rest) e r
  | cancel {kept : Option Phase} {later : Option Nat} {rest : Routine W} {e e₁ : Engine W}
      {r : Engine W × Returned} (waits : ReflTransGen (Waits fun x => some x.now) e e₁)
      (goesOn : Performs s allowance rest ((e₁.step e₁.now .caller).cancelClone s kept later) r) :
      Performs s allowance (.cancel kept later :: rest) e r
  | goOn {effect : Moment → W → W × Option Outcome} {rest : Routine W} {e e₁ : Engine W} {w : W}
      {r : Engine W × Returned} (waits : ReflTransGen (Waits fun x => some x.now) e e₁)
      (gives : effect (e₁.moment s allowance) e₁.world = (w, none))
      (goesOn : Performs s allowance rest { e₁.step e₁.now .caller with world := w } r) :
      Performs s allowance (.act effect :: rest) e r
  | finish {effect : Moment → W → W × Option Outcome} {rest : Routine W} {e e₁ : Engine W} {w : W}
      {o : Outcome} (waits : ReflTransGen (Waits fun x => some x.now) e e₁)
      (gives : effect (e₁.moment s allowance) e₁.world = (w, some o)) :
      Performs s allowance (.act effect :: rest) e
        ({ e₁.step e₁.now .caller with world := w }, .outcome o)

/-- **What performing a routine does**, whatever the schedule. -/
theorem performs (sch : Schedule W) (s : Scope) (allowance : Option Nat) (code : Routine W)
    (e : Engine W) : Performs s allowance code e (e.perform sch s allowance code) := by
  induction code generalizing e with
  | nil => exact .stop
  | cons i rest ih =>
    obtain ⟨e₁, hwaits, hend⟩ :=
      await_waits sch (fun x => x.readyAt s e.now allowance (i :: rest)) e
    unfold perform
    dsimp only
    generalize e.await sch _ = r at hend ⊢
    cases hend with
    | never unable idle => exact .never hwaits unable idle
    | @goesOn time able =>
      cases i with
      | pause signals => exact .pause hwaits able (ih _)
      | cancel kept later =>
        obtain rfl : e₁.now = time := Option.some.inj able
        exact .cancel hwaits (ih _)
      | act effect =>
        obtain rfl : e₁.now = time := Option.some.inj able
        rw [if_neg (by simp)]
        dsimp only
        split
        next w gives => exact .goOn hwaits gives (ih _)
        next w o gives => exact .finish hwaits gives

/-- A call that comes back has performed the routine between two records. -/
theorem performs_of_call {sch : Schedule W} {phase : Phase} {index : Nat} {s : Scope}
    {code : Routine W} {e e' : Engine W} {o : Outcome}
    (h : e.call sch phase index s code = (e', .outcome o)) :
    ∃ e₁, Performs s (s.remaining e.now) code
        (e.record (.called phase index (e.moment s (s.remaining e.now)))) (e₁, .outcome o) ∧
      e' = e₁.record (.returned phase index o) := by
  have hperforms := performs sch s (s.remaining e.now) code
    (e.record (.called phase index (e.moment s (s.remaining e.now))))
  unfold call at h
  dsimp only at h
  split at h
  · cases h
  next e₁ o' hperform =>
    obtain ⟨rfl, rfl⟩ : e₁.record (.returned phase index o') = e' ∧ o' = o := by simpa using h
    rw [hperform] at hperforms
    exact ⟨e₁, hperforms, rfl⟩

end Engine

/-! ### Where a routine leads -/

section Leading

variable {R : W → W → Prop} {Q : Outcome → W → Prop}

/-- A routine that is performed in front of a background which respects `R` leads from a world to
ends of which `Q` holds.  Before each instruction the world may change as `R` allows. -/
inductive Routine.Leads (R : W → W → Prop) (Q : Outcome → W → Prop) : Routine W → W → Prop
  | nil {w : W} (ends : Q .ok w) : Leads R Q [] w
  | act {effect : Moment → W → W × Option Outcome} {rest : Routine W} {w : W}
      (ends : ∀ m w₁ w₂ o, R w w₁ → effect m w₁ = (w₂, some o) → Q o w₂)
      (goesOn : ∀ m w₁ w₂, R w w₁ → effect m w₁ = (w₂, none) → Leads R Q rest w₂) :
      Leads R Q (.act effect :: rest) w
  | pause {signals : List (Signal W)} {rest : Routine W} {w : W}
      (goesOn : ∀ w₁, R w w₁ → Leads R Q rest w₁) : Leads R Q (.pause signals :: rest) w
  | cancel {kept : Option Phase} {later : Option Nat} {rest : Routine W} {w : W}
      (goesOn : ∀ w₁, R w w₁ → Leads R Q rest w₁) : Leads R Q (.cancel kept later :: rest) w

/-- Where a routine leads may be said with less. -/
theorem Routine.Leads.mono {Q' : Outcome → W → Prop} {code : Routine W} {w : W}
    (h : code.Leads R Q w) (hends : ∀ o w', Q o w' → Q' o w') : code.Leads R Q' w := by
  induction h with
  | nil ends => exact .nil (hends _ _ ends)
  | act ends _ ih =>
    exact .act (fun m w₁ w₂ o hworld hgives => hends _ _ (ends m w₁ w₂ o hworld hgives)) ih
  | pause _ ih => exact .pause ih
  | cancel _ ih => exact .cancel ih

/-- An attempt leads on if it succeeds, and to a failure if it does not. -/
theorem Routine.leads_attempt {F : Type} (attempt : W → W × Option F) (fault : F → Outcome)
    {rest : Routine W} {w : W}
    (hends : ∀ f w₁ w₂, R w w₁ → attempt w₁ = (w₂, some f) → Q (fault f) w₂)
    (hrest : ∀ w₁ w₂, R w w₁ → attempt w₁ = (w₂, none) → rest.Leads R Q w₂) :
    Routine.Leads R Q (.act (fun _ w => ((attempt w).1, (attempt w).2.map fault)) :: rest) w := by
  refine .act (fun _ w₁ w₂ o hworld hgives => ?_) fun _ w₁ w₂ hworld hgives => ?_
  · obtain ⟨rfl, hsome⟩ := Prod.mk.inj hgives
    obtain ⟨f, hf, rfl⟩ := Option.map_eq_some_iff.1 hsome
    exact hends f w₁ _ hworld (Prod.ext rfl hf)
  · obtain ⟨rfl, hnone⟩ := Prod.mk.inj hgives
    exact hrest w₁ _ hworld (Prod.ext rfl (Option.map_eq_none_iff.1 hnone))

variable [IsPreorder W R]

/-- A routine that respects what the background does leads on to what comes after it, if it does not
end before. -/
theorem Routine.Respects.leads_append {code rest : Routine W} {w : W} (h : code.Respects R)
    (hends : ∀ effect, .act effect ∈ code → ∀ m w₁ w₂ o, R w w₂ → effect m w₁ = (w₂, some o) →
      Q o w₂)
    (hrest : ∀ w', R w w' → rest.Leads R Q w') : Routine.Leads R Q (code ++ rest) w := by
  induction code generalizing w with
  | nil => exact hrest w (refl w)
  | cons i code ih =>
    -- what comes after the first instruction is reached from a later world
    have hlater {w' : W} (hworld : R w w') : Routine.Leads R Q (code ++ rest) w' :=
      ih h.tail
        (fun effect hmem m w₁ w₂ o hworld' =>
          hends effect (List.mem_cons_of_mem _ hmem) m w₁ w₂ o (IsTrans.trans _ _ _ hworld hworld'))
        fun w'' hworld' => hrest w'' (IsTrans.trans _ _ _ hworld hworld')
    cases i with
    | act effect =>
      have hacts {m : Moment} {w₁ w₂ : W} {o : Option Outcome} (hworld : R w w₁)
          (hgives : effect m w₁ = (w₂, o)) : R w w₂ := by
        have hact := h effect List.mem_cons_self m w₁
        rw [hgives] at hact
        exact IsTrans.trans _ _ _ hworld hact
      exact .act
        (fun m w₁ w₂ o hworld hgives =>
          hends effect List.mem_cons_self m w₁ w₂ o (hacts hworld hgives) hgives)
        fun _ _ _ hworld hgives => hlater (hacts hworld hgives)
    | pause => exact .pause fun _ => hlater
    | cancel => exact .cancel fun _ => hlater

/-- What a routine respects holds of the ends that it leads to. -/
theorem Routine.Respects.leads {code : Routine W} {w : W} (h : code.Respects R)
    (hends : ∀ o w', R w w' → Q o w') : code.Leads R Q w := by
  have hnothing {w' : W} (hworld : R w w') : Routine.Leads R Q [] w' := .nil (hends .ok w' hworld)
  have happend := h.leads_append (fun _ _ _ _ w₂ o hworld _ => hends o w₂ hworld) fun _ => hnothing
  rwa [List.append_nil] at happend

namespace Engine

/-- A routine comes back only with the ends that it leads to. -/
theorem Performs.of_leads {s : Scope} {allowance : Option Nat} {code : Routine W}
    {e : Engine W} {r : Engine W × Returned} (h : Performs s allowance code e r)
    (he : e.Respects R) (hleads : code.Leads R Q e.world) :
    r.1.Respects R ∧ ∀ o, r.2 = .outcome o → Q o r.1.world := by
  induction h with
  | stop =>
    obtain ⟨ends⟩ := hleads
    exact ⟨he, fun o ho => by cases ho; exact ends⟩
  | never waits => exact ⟨(respected_of_waits waits he).1, fun o ho => by cases ho⟩
  | pause waits _ _ ih =>
    obtain ⟨hlater, hworld⟩ := respected_of_waits waits he
    cases hleads with
    | pause goesOn => exact ih hlater (goesOn _ hworld)
  | @cancel kept later _ _ e₁ _ waits _ ih =>
    obtain ⟨hlater, hworld⟩ := respected_of_waits waits he
    obtain ⟨-, htasks, hsame, -⟩ := (e₁.step e₁.now .caller).cancelClone_eq s kept later
    cases hleads with
    | cancel goesOn => exact ih (hlater.of_tasks htasks) (hsame ▸ goesOn _ hworld)
  | goOn waits gives _ ih =>
    obtain ⟨hlater, hworld⟩ := respected_of_waits waits he
    cases hleads with
    | act _ goesOn => exact ih hlater (goesOn _ _ _ hworld gives)
  | finish waits gives =>
    obtain ⟨hlater, hworld⟩ := respected_of_waits waits he
    cases hleads with
    | act ends => exact ⟨hlater, fun o ho => by cases ho; exact ends _ _ _ _ hworld gives⟩

/-- A call comes back only with the ends that its routine leads to. -/
theorem call_leads {sch : Schedule W} {phase : Phase} {index : Nat} {s : Scope} {code : Routine W}
    {e e' : Engine W} {o : Outcome} (h : e.call sch phase index s code = (e', .outcome o))
    (he : e.Respects R) (hleads : code.Leads R Q e.world) : e'.Respects R ∧ Q o e'.world := by
  obtain ⟨e₁, hperforms, rfl⟩ := performs_of_call h
  have hcalled : (e.record (.called phase index (e.moment s (s.remaining e.now)))).Respects R :=
    he.of_tasks rfl
  obtain ⟨hlater, hends⟩ := hperforms.of_leads hcalled hleads
  exact ⟨hlater.of_tasks rfl, hends o rfl⟩

end Engine

end Leading

/-! ### When a routine can go on -/

/-- A pause one of whose signals is given can end at once. -/
theorem Engine.readyAt_of_given {e : Engine W} {s : Scope} {since : Nat} {allowance : Option Nat}
    {signals : List (Signal W)} {signal : Signal W} (hmem : signal ∈ signals)
    (hgiven : e.signalAt s since allowance signal = some e.now) (rest : Routine W) :
    e.readyAt s since allowance (.pause signals :: rest) = some e.now := by
  refine List.min?_eq_some_iff.2 ⟨List.mem_filterMap.2 ⟨signal, hmem, hgiven⟩, fun t ht => ?_⟩
  obtain ⟨other, -, hother⟩ := List.mem_filterMap.1 ht
  exact now_le_signalAt hother

/-! ### How long a routine takes at most -/

/-- The length of a signal that time alone gives. -/
def Signal.length? (allowance : Option Nat) : Signal W → Option Nat
  | .elapsed delay => delay allowance
  | _ => none

/-- The time that an instruction takes at most, if it has a limit: acts take none. -/
def Instruction.limit? (allowance : Option Nat) : Instruction W → Option Nat
  | .pause signals => (signals.filterMap (Signal.length? allowance)).min?
  | _ => some 0

/-- The time that a routine takes at most, if all its pauses have a limit. -/
def Routine.limit? (allowance : Option Nat) : Routine W → Option Nat
  | [] => some 0
  | i :: rest => (i.limit? allowance).bind fun d => (Routine.limit? allowance rest).map (d + ·)

/-- A pause has a limit if one of its signals has a length. -/
theorem Instruction.exists_limit?_pause {allowance : Option Nat} {signals : List (Signal W)}
    {signal : Signal W} (hmem : signal ∈ signals) {d : Nat}
    (hlength : signal.length? allowance = some d) :
    ∃ d, (Instruction.pause signals).limit? allowance = some d :=
  Option.isSome_iff_exists.1
    (List.isSome_min?_of_mem (List.mem_filterMap.2 ⟨signal, hmem, hlength⟩))

/-- A routine has a limit if all its instructions have one. -/
theorem Routine.exists_limit? {allowance : Option Nat} {code : Routine W}
    (h : ∀ i ∈ code, ∃ d, i.limit? allowance = some d) : ∃ d, code.limit? allowance = some d := by
  induction code with
  | nil => exact ⟨0, rfl⟩
  | cons i rest ih =>
    obtain ⟨hfirst, hrest⟩ := List.forall_mem_cons.1 h
    obtain ⟨d₁, h₁⟩ := hfirst
    obtain ⟨d₂, h₂⟩ := ih hrest
    refine ⟨d₁ + d₂, ?_⟩
    rw [limit?, h₁, h₂]
    rfl

namespace Engine

/-- An instruction with a limit can be done when it is over. -/
theorem readyAt_of_limit {s : Scope} {d : Nat} {allowance : Option Nat} {i : Instruction W}
    (h : i.limit? allowance = some d) (since : Nat) (rest : Routine W) (e : Engine W) :
    ∃ t, e.readyAt s since allowance (i :: rest) = some t ∧ t ≤ max e.now (since + d) := by
  cases i with
  | pause signals =>
    obtain ⟨signal, hmem, hlength⟩ := List.mem_filterMap.1 (List.min?_eq_some_iff.1 h).1
    have hsignal : e.signalAt s since allowance signal = some (max e.now (since + d)) := by
      cases signal with
      | elapsed delay =>
        have hdelay : delay allowance = some d := hlength
        rw [signalAt, hdelay]
        rfl
      | done | holds => cases hlength
    have hready : max e.now (since + d) ∈ signals.filterMap (e.signalAt s since allowance) :=
      List.mem_filterMap.2 ⟨signal, hmem, hsignal⟩
    obtain ⟨t, ht⟩ := Option.isSome_iff_exists.1
      (List.isSome_min?_of_mem hready)
    exact ⟨t, ht, (List.min?_eq_some_iff.1 ht).2 _ hready⟩
  | act | cancel => exact ⟨e.now, rfl, Nat.le_max_left ..⟩

/-- While a caller waits who can go on at a limit, the clock does not go past it. -/
theorem now_le_of_waits {ready : Engine W → Option Nat} {e e' : Engine W} (limit : Nat)
    (hready : ∀ x : Engine W, ∃ t, ready x = some t ∧ t ≤ max x.now limit)
    (h : ReflTransGen (Waits ready) e e') : e'.now ≤ max e.now limit := by
  induction h with
  | refl => exact Nat.le_max_left ..
  | @tail x y _ hlast ih =>
    obtain ⟨hable, -, hsoon⟩ := hlast
    obtain ⟨t, ht, hle⟩ := hready x
    have htime := hsoon t ht
    rw [(acts_course hable).2]
    omega

/-- The clock stands while the caller can go on at once. -/
theorem now_eq_of_waits {e e' : Engine W}
    (h : ReflTransGen (Waits fun x => some x.now) e e') : e'.now = e.now := by
  have hle := now_le_of_waits 0 (fun x => ⟨x.now, rfl, Nat.le_max_left ..⟩) h
  have hacts : ReflTransGen (Acts fun _ _ => False) e e' := waits_acts h
  have hge := (course_of_acts hacts).adds.now_le
  omega

/-- A routine has a limit if its first instruction and the rest have one. -/
theorem limit?_cons {allowance : Option Nat} {i : Instruction W} {rest : Routine W} {d : Nat}
    (h : Routine.limit? allowance (i :: rest) = some d) :
    ∃ d₁ d₂, i.limit? allowance = some d₁ ∧ rest.limit? allowance = some d₂ ∧ d = d₁ + d₂ := by
  obtain ⟨d₁, h₁, h⟩ := Option.bind_eq_some_iff.1 h
  obtain ⟨d₂, h₂, rfl⟩ := Option.map_eq_some_iff.1 h
  exact ⟨d₁, d₂, h₁, h₂, rfl⟩

/-- A routine with a limit comes back, and takes no longer. -/
theorem Performs.within {s : Scope} {allowance : Option Nat} {code : Routine W} {d : Nat}
    {e : Engine W} {r : Engine W × Returned} (h : Performs s allowance code e r)
    (hlimit : code.limit? allowance = some d) :
    (∃ o, r.2 = .outcome o) ∧ r.1.now ≤ e.now + d := by
  induction h generalizing d with
  | stop => exact ⟨⟨_, rfl⟩, Nat.le_add_right ..⟩
  | @never i rest e e₁ waits unable =>
    obtain ⟨d₁, d₂, h₁, -, -⟩ := limit?_cons hlimit
    obtain ⟨t, ht, -⟩ := readyAt_of_limit h₁ e.now rest e₁
    cases unable.symm.trans ht
  | @pause signals rest e e₁ time r waits able _ ih =>
    obtain ⟨d₁, d₂, h₁, h₂, rfl⟩ := limit?_cons hlimit
    have hwaited := now_le_of_waits (e.now + d₁) (readyAt_of_limit h₁ e.now rest) waits
    obtain ⟨t, ht, hle⟩ := readyAt_of_limit h₁ e.now rest e₁
    obtain rfl : time = t := Option.some.inj (able.symm.trans ht)
    obtain ⟨hreturns, hnow⟩ := ih h₂
    have hstep : (e₁.step time .caller).now = time := rfl
    exact ⟨hreturns, by omega⟩
  | @cancel kept later _ e e₁ _ waits _ ih =>
    obtain ⟨d₁, d₂, -, h₂, rfl⟩ := limit?_cons hlimit
    obtain ⟨hreturns, hnow⟩ := ih h₂
    have hwaited := now_eq_of_waits waits
    have hcancels : ((e₁.step e₁.now .caller).cancelClone s kept later).now = e₁.now :=
      (cancelClone_eq ..).1
    exact ⟨hreturns, by omega⟩
  | @goOn _ _ e e₁ _ _ waits _ _ ih =>
    obtain ⟨d₁, d₂, -, h₂, rfl⟩ := limit?_cons hlimit
    obtain ⟨hreturns, hnow⟩ := ih h₂
    have hwaited := now_eq_of_waits waits
    refine ⟨hreturns, Nat.le_trans hnow (show e₁.now + d₂ ≤ e.now + (d₁ + d₂) from ?_)⟩
    omega
  | @finish _ _ e e₁ _ _ waits =>
    have hwaited := now_eq_of_waits waits
    exact ⟨⟨_, rfl⟩, show e₁.now ≤ e.now + d by omega⟩

/-- A call of a routine with a limit comes back within it. -/
theorem call_within {s : Scope} {code : Routine W} {e : Engine W} {d : Nat}
    (hlimit : code.limit? (s.remaining e.now) = some d) (sch : Schedule W) (phase : Phase)
    (index : Nat) :
    ∃ e' o, e.call sch phase index s code = (e', .outcome o) ∧ e'.now ≤ e.now + d := by
  obtain ⟨⟨o, ho⟩, hnow⟩ := (performs sch s (s.remaining e.now) code
    (e.record (.called phase index (e.moment s (s.remaining e.now))))).within hlimit
  unfold call
  dsimp only
  generalize perform sch s _ code _ = r at ho hnow
  obtain ⟨e', r⟩ := r
  obtain rfl : r = .outcome o := ho
  exact ⟨e'.record (.returned phase index o), o, rfl, hnow⟩

end Engine

end ServiceHost
