import ServiceHost.Proofs.Lifecycle.Onset
import ServiceHost.Proofs.Lifecycle.Performing
import ServiceHost.Proofs.Scope.Cancellation
/-!
When a wait for the end of a scope is over.

Whether a scope is done, and how much time it has left, can be asked at any moment; a routine can
also wait until it is done.  The wait looks at a moment for the future (`Scope.doneAt`), the
questions look at the present (`Scope.isDone`, `Scope.remaining`).  They agree: the wait is over at
the first moment at which the scope is done, and lasts for ever if there is none
(`ScopeLog.waits_until_done`).

First that is said with the record (`Engine.Unended`): while the wait goes on, no moment that has
passed is one by which the scope was done.  Then the record is compared with the cancellations that
were going to come (`Engine.AsPlanned`), so that in the end nothing is mentioned but the operations
that made the scopes, and a plan of cancellations.
-/

namespace ServiceHost

open Relation

variable {W : Type}

/-! ### First moments -/

/-- The first moment by which something has come about: `⊤` if it never does. -/
noncomputable def firstMoment (P : Nat → Prop) : ℕ∞ :=
  ⨅ (t : Nat) (_ : P t), (t : ℕ∞)

/-- By some moment the first moment has come just in case the thing has come about by then, if what
has come about stays so. -/
theorem firstMoment_le_iff {P : Nat → Prop} (hstays : ∀ t u, t ≤ u → P t → P u) {t : Nat} :
    firstMoment P ≤ t ↔ P t := by
  refine ⟨fun hle => ?_, fun ht => iInf₂_le t ht⟩
  by_contra hnot
  have hlater : ((t + 1 : Nat) : ℕ∞) ≤ firstMoment P := by
    refine le_iInf₂ fun u hu => Nat.cast_le.2 (Nat.lt_of_not_le fun hut => ?_)
    exact hnot (hstays u t hut hu)
  exact Nat.not_succ_le_self t (Nat.cast_le.1 (hlater.trans hle))

/-- Moments are the same that have come by the same moments. -/
theorem eq_of_forall_le_natCast_iff {x y : ℕ∞} (h : ∀ t : Nat, x ≤ t ↔ y ≤ t) : x = y := by
  refine eq_of_forall_ge_iff fun z => ?_
  cases z using ENat.recTopCoe with
  | top => simp
  | coe t => exact h t

theorem instant_le_iff {x : Option Nat} {t : Nat} : instant x ≤ t ↔ ∃ d, x = some d ∧ d ≤ t := by
  cases x <;> simp [instant_none, instant_some]

section Firsts

variable {x : Option Nat} {P : Nat → Prop} (h : ∀ t : Nat, instant x ≤ t ↔ P t)

include h

/-- What has happened by the moments at which something holds happens at the first of them. -/
theorem eq_some_iff_first {t : Nat} : x = some t ↔ P t ∧ ∀ u < t, ¬ P u := by
  simp only [← h, instant_le_iff]
  constructor
  · rintro rfl
    exact ⟨⟨t, rfl, Nat.le_refl t⟩, fun u hu ⟨d, hd, hdu⟩ => by cases hd; omega⟩
  · rintro ⟨⟨d, rfl, hdt⟩, hfirst⟩
    exact congrArg some (Nat.le_antisymm hdt
      (Nat.le_of_not_lt fun hlt => hfirst d hlt ⟨d, rfl, Nat.le_refl d⟩))

/-- It never happens if there are no such moments. -/
theorem eq_none_iff_never : x = none ↔ ∀ t, ¬ P t := by
  simp only [← h, instant_le_iff]
  constructor
  · rintro rfl t ⟨d, hd, -⟩
    cases hd
  · intro hnever
    exact Option.eq_none_iff_forall_ne_some.2 fun d hd => hnever d ⟨d, hd, Nat.le_refl d⟩

end Firsts

/-! ### Scopes -/

namespace Scope

variable {s : Scope} {ts : Tokens} {now t : Nat}

/-- The moment at which a scope is going to be done is the first one at which it is, if no token is
cancelled any more. -/
theorem instant_doneAt_le_iff (h : now ≤ t) :
    instant (s.doneAt ts now) ≤ t ↔ s.isDone ts t = true := by
  rw [isDone_iff, doneAt]
  split
  next hcancelled => simp [hcancelled, instant_some, h]
  next hcancelled =>
    cases s.deadline with
    | none => simp [hcancelled, instant_none]
    | some d => simp [hcancelled, instant_some, h]

/-- There is always some time left, or none, if there is a deadline. -/
theorem remaining_eq_none_iff : s.remaining now = none ↔ s.deadline = none := by
  simp [remaining]

/-- No time is left from the deadline on. -/
theorem remaining_eq_zero_iff :
    s.remaining now = some 0 ↔ ∃ d, s.deadline = some d ∧ d ≤ now := by
  simp [remaining, Nat.sub_eq_zero_iff_le]

end Scope

/-! ### Waiting for the end -/

namespace Engine

variable {s : Scope} {start e e' : Engine W} {r : Engine W × Returned}

/-- When performing a routine was over: `none` if it never was. -/
def finishedAt? (r : Engine W × Returned) : Option Nat :=
  match r.2 with
  | .outcome _ => some r.1.now
  | .never => none

theorem readyAt_untilDone (e : Engine W) (s : Scope) (since : Nat) (allowance : Option Nat) :
    e.readyAt s since allowance Routine.untilDone = s.doneAt e.tokens e.now := by
  cases hdone : s.doneAt e.tokens e.now <;>
    simp [readyAt, Routine.untilDone, signalAt, hdone]

/-- From now on a scope is done as its tokens tell if and only if it is according to the record. -/
theorem Tells.isDone_iff_of_le (h : Tells start s e) (hordered : e.Ordered) {t : Nat}
    (ht : e.now ≤ t) : s.isDone e.tokens t = true ↔ DoneBy start e s t := by
  -- the clock may as well show that moment
  have hlater : Tells start s { e with now := t } := h.of_eq rfl rfl
  exact hlater.isDone_iff ⟨hordered.sorted, fun x hx => Nat.le_trans (hordered.le_now x hx) ht⟩

/-- While the end of a scope is waited for: it was not done by any moment that has passed. -/
structure Unended (start : Engine W) (s : Scope) (e : Engine W) : Prop where
  ordered : e.Ordered
  tells : Tells start s e
  now_le : start.now ≤ e.now
  not_done : ∀ t, start.now ≤ t → t < e.now → ¬ DoneBy start e s t

namespace Unended

/-- The clock goes on, but not beyond the moment at which the scope is done. -/
theorem clock (h : Unended start s e) {time : Nat} (who : Who) (hle : e.now ≤ time)
    (hsoon : ∀ t, s.doneAt e.tokens e.now = some t → time ≤ t) :
    Unended start s { e with now := time, active := who } where
  ordered := ⟨h.ordered.sorted, fun x hx => Nat.le_trans (h.ordered.le_now x hx) hle⟩
  tells := h.tells.of_eq rfl rfl
  now_le := Nat.le_trans h.now_le hle
  not_done t hstart ht hdone := by
    rcases Nat.lt_or_ge t e.now with hbefore | hafter
    · exact h.not_done t hstart hbefore hdone
    · have hisDone := (h.tells.isDone_iff_of_le h.ordered hafter).2 hdone
      obtain ⟨d, hd, hdt⟩ := instant_le_iff.1 ((Scope.instant_doneAt_le_iff hafter).2 hisDone)
      have htime := hsoon d hd
      have hlt : t < time := ht
      omega

/-- Something happens at the present moment. -/
theorem happens (h : Unended start s e) (hstep : Happens e e') (hnow : e'.now = e.now) :
    Unended start s e' where
  ordered := hstep.adds.ordered h.ordered
  tells := h.tells.happens hstep
  now_le := hnow ▸ h.now_le
  not_done t hstart ht hdone := by
    rw [hnow] at ht
    exact h.not_done t hstart ht (hstep.adds.doneBy_of_lt ht hdone)

theorem row (h : Unended start s e)
    (hwaits : ReflTransGen (Waits fun x => s.doneAt x.tokens x.now) e e') : Unended start s e' :=
  preserved_of_waits (fun _ _ who h hle hsoon => h.clock who hle hsoon)
    (fun _ _ h hstep hnow => h.happens hstep hnow) hwaits h

end Unended

/-- How waiting for the end of a scope comes out: it is over when the scope is done, or nothing is
left that could end it. -/
inductive Outlasts (start : Engine W) (s : Scope) : Engine W × Returned → Prop
  | ended {e : Engine W} (unended : Unended start s e) (done : s.isDone e.tokens e.now = true) :
      Outlasts start s (e, .outcome .ok)
  | never {e : Engine W} (unended : Unended start s e)
      (unable : s.doneAt e.tokens e.now = none) (idle : e.background = []) :
      Outlasts start s (e, .never)

theorem outlasts_untilDone (sch : Schedule W) (allowance : Option Nat) (hordered : start.Ordered)
    (htells : Tells start s start) :
    Outlasts start s (start.perform sch s allowance .untilDone) := by
  have hstart : Unended start s start :=
    ⟨hordered, htells, Nat.le_refl _, fun t hle hlt => absurd hle (Nat.not_le.2 hlt)⟩
  have hready (x : Engine W) := readyAt_untilDone x s start.now allowance
  have hperforms := performs sch s allowance .untilDone start
  generalize start.perform sch s allowance .untilDone = r at hperforms
  unfold Routine.untilDone at hperforms hready
  cases hperforms with
  | never waits unable idle =>
    simp only [hready] at waits unable
    exact .never (hstart.row waits) unable idle
  | @pause _ _ _ e₁ time _ waits able goesOn =>
    simp only [hready] at waits able
    cases goesOn
    refine .ended ((hstart.row waits).clock .caller (now_le_doneAt able) fun t ht => ?_)
      (isDone_of_doneAt able)
    exact Nat.le_of_eq (Option.some.inj (able.symm.trans ht))

/-- **A wait for the end of a scope is over at the first moment by which the scope was done**,
according to the record, and never if there is none. -/
theorem Outlasts.finishedAt?_eq (h : Outlasts start s r) :
    instant (finishedAt? r) = max ↑start.now (doneTime start r.1 s) := by
  refine eq_of_forall_le_natCast_iff fun t => ?_
  rw [max_le_iff, Nat.cast_le, doneTime_le_iff]
  cases h with
  | @ended e unended done =>
    show (e.now : ℕ∞) ≤ t ↔ _
    rw [Nat.cast_le]
    constructor
    · intro hle
      have hdone := (unended.tells.isDone_iff unended.ordered).1 done
      exact ⟨Nat.le_trans unended.now_le hle, hdone.mono hle⟩
    · rintro ⟨hstart, hdone⟩
      exact Nat.le_of_not_lt fun hlt => unended.not_done t hstart hlt hdone
  | @never e unended unable idle =>
    refine ⟨fun hle => absurd (top_le_iff.1 hle) (ENat.natCast_ne_top t), fun ⟨_, hdone⟩ => ?_⟩
    -- by then, or now at the latest, the scope would be done
    have hdone' : DoneBy start e s (max e.now t) := hdone.mono (Nat.le_max_right ..)
    have hisDone := (unended.tells.isDone_iff_of_le unended.ordered (Nat.le_max_left ..)).2 hdone'
    obtain ⟨d, hd, -⟩ :=
      instant_le_iff.1 ((Scope.instant_doneAt_le_iff (Nat.le_max_left ..)).2 hisDone)
    cases unable.symm.trans hd

/-! ### Cancellations that are planned -/

/-- All that is cancelled was going to be: no task cancels anything, and what came from outside had
been planned and was due. -/
structure AsPlanned (start e : Engine W) : Prop where
  quiet : ∀ t ∈ e.tasks, ∀ kept later, .cancel kept later ∉ t.code
  left : e.outside ⊆ start.outside
  came : ∀ c ∈ e.cancellations, ∃ o ∈ start.outside, o.1 ≤ c.1 ∧ o.2 = c.2

namespace AsPlanned

/-- A task has other work to do, in which nothing is cancelled either. -/
theorem set (h : AsPlanned start e) {k : Nat} {t' : Task W}
    (htasks : e'.tasks = e.tasks.set k t') (hquiet : ∀ kept later, .cancel kept later ∉ t'.code)
    (houtside : e'.outside = e.outside) (hcancellations : e'.cancellations = e.cancellations) :
    AsPlanned start e' where
  quiet t ht := by
    rw [htasks] at ht
    rcases List.mem_or_eq_of_mem_set ht with ht | rfl
    · exact h.quiet t ht
    · exact hquiet
  left := houtside ▸ h.left
  came := hcancellations ▸ h.came

theorem acts (h : AsPlanned start e) (hacts : Acts (fun _ _ => False) e e') :
    AsPlanned start e' := by
  have hquiet {k : Nat} {t : Task W} (here : e.tasks[k]? = some t) :
      ∀ kept later, .cancel kept later ∉ t.code := h.quiet t (List.mem_of_getElem? here)
  -- nobody cancels anything, at once or later
  have hnobody {later : Option Nat} {token : Token} :
      ¬ (False ∨ ∃ k, e.Cancelling k later token) := by
    rintro (hnobody | ⟨k, t, kept, rest, here, -, -, hcode, -⟩)
    · exact hnobody
    · exact hquiet here kept later (hcode ▸ List.mem_cons_self)
  cases hacts with
  | clock | change => exact ⟨h.quiet, h.left, h.came⟩
  | @arrive k time token planned due =>
    refine ⟨h.quiet, fun o ho => h.left (List.mem_of_mem_eraseIdx ho), fun c hc => ?_⟩
    rw [cancellations_cancel, List.mem_append, List.mem_singleton] at hc
    rcases hc with hc | rfl
    · exact h.came c hc
    · exact ⟨_, h.left (List.mem_of_getElem? planned), due, rfl⟩
  | start here =>
    have hcode := hquiet here
    exact h.set rfl hcode rfl (filterMap_entries_of_none _ rfl rfl)
  | goOn here live code =>
    have hcode := hquiet here
    rw [code] at hcode
    exact h.set rfl (fun kept later hmem => hcode kept later (List.mem_cons_of_mem _ hmem)) rfl rfl
  | finish here =>
    have hcode := hquiet here
    rw [endTask_eq]
    exact h.set rfl hcode rfl (filterMap_entries_of_none _ rfl rfl)
  | cancel held | leave held => exact absurd held hnobody

end AsPlanned

/-- By `time` a scope is done if everything goes as planned. -/
def PlannedDone (start : Engine W) (s : Scope) (time : Nat) : Prop :=
  s.isCancelled start.tokens = true ∨ (∃ o ∈ start.outside, o.1 ≤ time ∧ o.2 <:+ s.token) ∨
    ∃ deadline ∈ s.deadline, deadline ≤ time

/-- What the record tells was planned. -/
theorem AsPlanned.plannedDone (h : AsPlanned start e) {t : Nat} (hdone : DoneBy start e s t) :
    PlannedDone start s t := by
  refine hdone.imp_right (Or.imp_left ?_)
  rintro ⟨c, hc, hct, hsuffix⟩
  obtain ⟨o, ho, hoc, htoken⟩ := h.came c hc
  exact ⟨o, ho, Nat.le_trans hoc hct, htoken ▸ hsuffix⟩

/-- What was planned has come in time, if it is not still going to come. -/
theorem Punctual.doneBy (h : Punctual start e) {t : Nat} (hstart : start.now ≤ t)
    (hplanned : PlannedDone start s t) (hcame : t < e.now ∨ e.outside = []) :
    DoneBy start e s t := by
  refine hplanned.imp_right (Or.imp_left ?_)
  rintro ⟨o, ho, hot, hsuffix⟩
  rcases h.planned o ho with hc | ⟨hmem, hlate⟩
  · exact ⟨_, hc, Nat.max_le.2 ⟨hstart, hot⟩, hsuffix⟩
  · rcases hcame with hlt | hnone
    · omega
    · rw [hnone] at hmem
      cases hmem

/-- If all goes as planned, a wait for the end of a scope is over at the first moment at which the
scope is done according to the plan. -/
theorem finishedAt?_le_iff (sch : Schedule W) (allowance : Option Nat) (hfresh : start.history = [])
    (hquiet : ∀ t ∈ start.tasks, ∀ kept later, .cancel kept later ∉ t.code) {t : Nat} :
    instant (finishedAt? (start.perform sch s allowance .untilDone)) ≤ t ↔
      start.now ≤ t ∧ PlannedDone start s t := by
  have hnone : start.cancellations = [] := by simp [cancellations, entries, hfresh]
  have hordered : start.Ordered := by constructor <;> simp [entries, hfresh]
  have htells : Tells start s start := ⟨by simp [hnone]⟩
  have hacts : ReflTransGen (Acts fun _ _ => False) start
      (start.perform sch s allowance .untilDone).1 :=
    perform_acts sch allowance .untilDone start (by simp [MayCancel, Routine.untilDone])
  have hplanned := preserved_of_acts hacts (fun _ _ hact h => AsPlanned.acts h hact)
    ⟨hquiet, List.Subset.refl _, by simp [hnone]⟩
  have hpunctual := preserved_of_acts hacts (fun _ _ hact h => Punctual.acts h hact)
    (.of_fresh start)
  have hends := outlasts_untilDone sch allowance hordered htells
  rw [hends.finishedAt?_eq, max_le_iff, Nat.cast_le, doneTime_le_iff]
  refine and_congr_right fun hstart => ?_
  generalize start.perform sch s allowance .untilDone = r at hends hplanned hpunctual
  refine ⟨hplanned.plannedDone, fun hdone => ?_⟩
  cases hends with
  | @ended e unended done =>
    rcases Nat.lt_or_ge t e.now with hbefore | hafter
    · exact hpunctual.doneBy hstart hdone (.inl hbefore)
    · exact ((unended.tells.isDone_iff unended.ordered).1 done).mono hafter
  | never _ _ idle => exact hpunctual.doneBy hstart hdone (.inr (outside_eq_nil idle))

end Engine

namespace ScopeLog

open Engine

/-! ### The scopes of a log -/

/-- Cancellations that are going to come: the moment of each, and the place of its scope. -/
abbrev Plan := List (Nat × Nat)

variable {steps : List Step} {log : ScopeLog} {plan : Plan} {i : Nat}

/-- The tokens at a moment, when the cancellations have come that were planned up to then. -/
def tokensAt (log : ScopeLog) (plan : Plan) (time : Nat) : Tokens :=
  ((plan.filter (·.1 ≤ time)).map fun c => (log.scope c.2).token).foldl Tokens.cancel log.tokens

/-- What goes on after a log: cancellations come as planned, beside some tasks. -/
def onward (log : ScopeLog) (plan : Plan) (tasks : List (Task W)) (world : W) : Engine W where
  now := log.now
  tokens := log.tokens
  world := world
  tasks := tasks
  outside := plan.map fun c => (c.1, (log.scope c.2).token)

/-- By `time` cancelling was asked for, or was planned, on a scope that reaches the one at `i`. -/
def CancelledBy (steps : List Step) (plan : Plan) (i time : Nat) : Prop :=
  ∃ j, Reaches steps j i ∧ (Cancels steps j ∨ ∃ c ∈ plan, c.2 = j ∧ c.1 ≤ time)

/-- What is cancelled stays so. -/
theorem CancelledBy.mono {t u : Nat} (h : CancelledBy steps plan i t) (hle : t ≤ u) :
    CancelledBy steps plan i u := by
  obtain ⟨j, hreaches, hcancels⟩ := h
  exact ⟨j, hreaches, hcancels.imp_right fun ⟨c, hc, hj, hct⟩ => ⟨c, hc, hj, hct.trans hle⟩⟩

/-- A scope is cancelled at a moment just in case it or an ancestor was by then. -/
theorem isCancelled_tokensAt_iff (h : Runs {} steps log) (hi : i < log.scopes.length)
    (hplan : ∀ c ∈ plan, c.2 < log.scopes.length) {t : Nat} :
    (log.scope i).isCancelled (log.tokensAt plan t) = true ↔ CancelledBy steps plan i t := by
  obtain ⟨htree, htold⟩ := h.tree
  have hbefore := htold.isCancelled_iff htree hi
  simp only [Scope.isCancelled, Tokens.isCancelled_iff] at hbefore
  simp only [Scope.isCancelled, Tokens.isCancelled_iff, tokensAt, Tokens.mem_cancelled_foldl]
  constructor
  · rintro ⟨token, hmem | hmem, hsuffix⟩
    · obtain ⟨c, hc, rfl⟩ := List.mem_map.1 hmem
      obtain ⟨hc, hct⟩ := List.mem_filter.1 hc
      exact ⟨c.2, (htree.reaches_iff (hplan c hc) hi).2 hsuffix,
        .inr ⟨c, hc, rfl, of_decide_eq_true hct⟩⟩
    · obtain ⟨j, hj, hreaches⟩ := hbefore.1 ⟨token, hmem, hsuffix⟩
      exact ⟨j, hreaches, .inl hj⟩
  · rintro ⟨j, hreaches, hcancels | ⟨c, hc, rfl, hct⟩⟩
    · obtain ⟨token, hmem, hsuffix⟩ := hbefore.2 ⟨j, hcancels, hreaches⟩
      exact ⟨token, .inr hmem, hsuffix⟩
    · have hmem : (log.scope c.2).token ∈
          (plan.filter (·.1 ≤ t)).map fun c => (log.scope c.2).token :=
        List.mem_map_of_mem (List.mem_filter.2 ⟨hc, decide_eq_true hct⟩)
      exact ⟨_, .inl hmem, htree.suffix_of_reaches hreaches⟩

/-- What is planned in a log comes about in what goes on after it. -/
theorem plannedDone_onward_iff {tasks : List (Task W)} {world : W} {s : Scope} {t : Nat} :
    PlannedDone (log.onward plan tasks world) s t ↔ s.isDone (log.tokensAt plan t) t = true := by
  rw [Scope.isDone_iff, Scope.isCancelled, Tokens.isCancelled_iff]
  simp only [tokensAt, Tokens.mem_cancelled_foldl, or_and_right, exists_or, PlannedDone, onward,
    Scope.isCancelled, Tokens.isCancelled_iff, List.mem_map, List.mem_filter, decide_eq_true_eq,
    Option.mem_def]
  rw [or_left_comm, or_assoc]
  refine or_congr ?_ Iff.rfl
  constructor
  · rintro ⟨o, ⟨c, hc, rfl⟩, hct, hsuffix⟩
    exact ⟨_, ⟨c, ⟨hc, hct⟩, rfl⟩, hsuffix⟩
  · rintro ⟨token, ⟨c, ⟨hc, hct⟩, rfl⟩, hsuffix⟩
    exact ⟨_, ⟨c, hc, rfl⟩, hct, hsuffix⟩

/-- A wait with a limit tells whether the scope is done when the limit is over, if nothing is
cancelled on the way. -/
theorem done_wait (log : ScopeLog) (s : Scope) (limit : Nat) :
    (log.wait s limit).2.done = s.isDone log.tokens (log.now + limit) := by
  have hdone : instant (s.doneAt log.tokens log.now) ≤ (log.now + limit : Nat) ↔
      s.isDone log.tokens (log.now + limit) = true :=
    Scope.instant_doneAt_le_iff (Nat.le_add_right log.now limit)
  rw [instant_le_iff] at hdone
  refine Bool.eq_iff_iff.2 (Iff.trans ?_ hdone)
  unfold wait
  split
  next t ht =>
    split
    next hle => exact iff_of_true rfl ⟨t, ht, hle⟩
    next hlt =>
      refine iff_of_false nofun fun ⟨d, hd, hle⟩ => hlt ?_
      rwa [Option.some.inj (ht.symm.trans hd)]
  next hnone => exact iff_of_false nofun fun ⟨d, hd, _⟩ => by cases hnone.symm.trans hd

/-- What the scope at `i` tells of its end agrees with a wait for its end, which was over at
`finished`: all moments from the end of the log on are asked about, with the cancellations that are
planned. -/
structure Agrees (steps : List Step) (log : ScopeLog) (plan : Plan) (i : Nat)
    (finished : Option Nat) : Prop where
  /-- It is done when it or an ancestor was cancelled, or its deadline has come. -/
  done_iff : ∀ t, (log.scope i).isDone (log.tokensAt plan t) t = true ↔
    CancelledBy steps plan i t ∨ ∃ d, (log.scope i).deadline = some d ∧ d ≤ t
  /-- The wait is over at the first moment at which it is done. -/
  first : ∀ t, finished = some t ↔ log.now ≤ t ∧
    (log.scope i).isDone (log.tokensAt plan t) t = true ∧
      ∀ u, log.now ≤ u → u < t → (log.scope i).isDone (log.tokensAt plan u) u = false
  /-- The wait lasts for ever if there is none. -/
  never : finished = none ↔
    ∀ t, log.now ≤ t → (log.scope i).isDone (log.tokensAt plan t) t = false
  /-- That is the moment of the first cancellation or the deadline, whichever comes first. -/
  moment : instant finished =
    max ↑log.now (min (firstMoment (CancelledBy steps plan i)) (instant (log.scope i).deadline))
  /-- The time that is left is missing just in case there is no deadline. -/
  unlimited_iff : ∀ t, (log.scope i).remaining t = none ↔ (log.scope i).deadline = none
  /-- No time is left just in case the deadline has come. -/
  expired_iff : ∀ t, (log.scope i).remaining t = some 0 ↔
    ∃ d, (log.scope i).deadline = some d ∧ d ≤ t
  /-- What is done was cancelled or has no time left, and the other way round. -/
  ended_iff : ∀ t, (log.scope i).isDone (log.tokensAt plan t) t = true ↔
    (log.scope i).isCancelled (log.tokensAt plan t) = true ∨ (log.scope i).remaining t = some 0

/-- **The three ways to learn of the end of a scope agree.**  For every scope that a row of
operations has made, every plan of cancellations on scopes of that row, every schedule, and beside
any tasks that cancel nothing: a wait for the end of the scope is over at the first moment at which
the scope is done, and never if there is none. -/
theorem waits_until_done (h : Runs {} steps log) (hi : i < log.scopes.length)
    (hplan : ∀ c ∈ plan, c.2 < log.scopes.length) {tasks : List (Task W)}
    (hquiet : ∀ t ∈ tasks, ∀ kept later, .cancel kept later ∉ t.code) (world : W)
    (sch : Schedule W) (allowance : Option Nat) :
    Agrees steps log plan i (finishedAt?
      ((log.onward plan tasks world).perform sch (log.scope i) allowance .untilDone)) := by
  have hfinished (t : Nat) : instant (finishedAt?
      ((log.onward plan tasks world).perform sch (log.scope i) allowance .untilDone)) ≤ t ↔
      log.now ≤ t ∧ (log.scope i).isDone (log.tokensAt plan t) t = true := by
    rw [finishedAt?_le_iff sch allowance rfl hquiet, plannedDone_onward_iff]
    rfl
  generalize finishedAt? _ = finished at hfinished
  have hcancelled (t : Nat) := isCancelled_tokensAt_iff h hi hplan (t := t)
  have hdone (t : Nat) : (log.scope i).isDone (log.tokensAt plan t) t = true ↔
      CancelledBy steps plan i t ∨ ∃ d, (log.scope i).deadline = some d ∧ d ≤ t := by
    rw [Scope.isDone_iff, hcancelled]
  constructor
  case done_iff => exact hdone
  case first =>
    intro t
    rw [eq_some_iff_first hfinished, and_assoc]
    simp only [not_and, Bool.not_eq_true]
    exact and_congr_right fun _ => and_congr_right fun _ =>
      ⟨fun hfirst u hu hlt => hfirst u hlt hu, fun hfirst u hlt hu => hfirst u hu hlt⟩
  case never =>
    rw [eq_none_iff_never hfinished]
    simp only [not_and, Bool.not_eq_true]
  case moment =>
    refine eq_of_forall_le_natCast_iff fun t => ?_
    rw [hfinished, hdone, max_le_iff, min_le_iff, Nat.cast_le, instant_le_iff,
      firstMoment_le_iff fun t u hle ht => ht.mono hle]
  case unlimited_iff => exact fun t => Scope.remaining_eq_none_iff
  case expired_iff => exact fun t => Scope.remaining_eq_zero_iff
  case ended_iff =>
    intro t
    rw [hdone, hcancelled, Scope.remaining_eq_zero_iff]

/-- A scope, a child of it, a scope with a timeout of 10 and a child of that.  The first is going to
be cancelled at 3 and the third at 20, and a task sleeps beside.  A wait for the end of the first
child is over at 3, since its parent is cancelled, and one for the end of the second at 10, since
its deadline has come. -/
theorem waits_until_done_beside_sleep :
    let steps : List Step := [.background, .child 0, .timeout 10, .child 2]
    let plan : Plan := [(20, 2), (3, 0)]
    ∃ log, Runs {} steps log ∧ Agrees steps log plan 1 (some 3) ∧
      Agrees steps log plan 3 (some 10) := by
  intro steps plan
  let log : ScopeLog := {
    tokens := { next := 4 }
    scopes := [⟨[0], none⟩, ⟨[1, 0], none⟩, ⟨[2], some 10⟩, ⟨[3, 2], some 10⟩] }
  have hlog : Runs {} steps log :=
    .snoc (.snoc (.snoc (.snoc .nil (by decide) rfl) (by decide) rfl) (by decide) rfl)
      (by decide) rfl
  let sleeper : Task Unit := { index := 0, scope := ⟨[7], none⟩, code := .sleep 4, since := 0 }
  have hquiet : ∀ t ∈ [sleeper], ∀ kept later, .cancel kept later ∉ t.code := by
    simp [sleeper, Routine.sleep]
  have hcancelled : finishedAt? ((log.onward plan [sleeper] ()).perform .usual (log.scope 1) none
      .untilDone) = some 3 := by decide +kernel
  have hexpired : finishedAt? ((log.onward plan [sleeper] ()).perform .usual (log.scope 3) none
      .untilDone) = some 10 := by decide +kernel
  refine ⟨log, hlog, hcancelled ▸ ?_, hexpired ▸ ?_⟩
  · exact waits_until_done hlog (by decide) (by decide) hquiet () .usual none
  · exact waits_until_done hlog (by decide) (by decide) hquiet () .usual none

end ScopeLog

end ServiceHost
