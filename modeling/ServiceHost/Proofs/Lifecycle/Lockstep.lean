import ServiceHost.Proofs.Lifecycle.Widening
/-!
Waiting and calling with one more task that has nothing to do.

While a caller waits in front of two engines that stand abreast, the additional task may make steps
of its own, by which the second engine gets ahead (`Engine.Lags`).  If apart from that the second
schedule picks what the first does (`Schedule.Alike`), the two waits end alike: in states that are
abreast again, or never (`Engine.Lags.await`).  The same follows for routines and for calls of a
phase (`Engine.Abreast.perform`, `Engine.Abreast.call`).
-/

namespace ServiceHost

variable {W : Type}

namespace Engine

/-! ### Readiness that does not depend on the clock -/

/-- A caller is ready from a moment on that only depends on what engines beside each other have in
common, or now if that is over. -/
def Steady (k : Nat) (s : Scope) (ready : Engine W → Option Nat) : Prop :=
  ∃ since : Engine W → Option Nat, (∀ e, ready e = (since e).map (max e.now)) ∧
    ∀ e e', Beside k s e e' → since e' = since e

variable {k : Nat} {s : Scope} {ready : Engine W → Option Nat} {e e' : Engine W}

/-- A steady caller is not ready in the past. -/
theorem Steady.now_le (h : Steady k s ready) {t : Nat} (ht : ready e = some t) : e.now ≤ t := by
  obtain ⟨since, hready, -⟩ := h
  rw [hready] at ht
  obtain ⟨m, -, rfl⟩ := Option.map_eq_some_iff.1 ht
  exact Nat.le_max_left ..

/-- If the clock of the second engine is ahead, but not beyond the moment at which the caller is
ready, it is ready at the same moment there. -/
theorem Steady.agree (h : Steady k s ready) (hbeside : Beside k s e e') (hle : e.now ≤ e'.now)
    (hlate : ∀ t, ready e = some t → e'.now ≤ t) : ready e' = ready e := by
  obtain ⟨since, hready, hsince⟩ := h
  rw [hready e] at hlate ⊢
  rw [hready e', hsince e e' hbeside]
  cases hm : since e with
  | none => rfl
  | some m =>
    have hm := hlate (max e.now m) (by rw [hm]; rfl)
    show some (max e'.now m) = some (max e.now m)
    congr 1
    omega

theorem steady_until (k : Nat) (s : Scope) (t : Nat) :
    Steady k s fun e : Engine W => some (max e.now t) :=
  ⟨fun _ => some t, fun _ => rfl, fun _ _ _ => rfl⟩

theorem doneAt_eq (scope : Scope) (ts : Tokens) (now : Nat) :
    scope.doneAt ts now =
      (if scope.isCancelled ts then some 0 else scope.deadline).map (max now) := by
  unfold Scope.doneAt
  split
  · show some now = some (max now 0)
    rw [Nat.max_zero]
  · rfl

theorem min?_map_max (n : Nat) (l : List Nat) : (l.map (max n)).min? = l.min?.map (max n) := by
  induction l with
  | nil => rfl
  | cons m l ih =>
    rw [List.map_cons, List.min?_cons, List.min?_cons, ih]
    cases l.min? with
    | none => rfl
    | some j =>
      show some (min (max n m) (max n j)) = some (max n (min m j))
      congr 1
      omega

/-- The moment from which on a signal is given. -/
def signalSince (e : Engine W) (scope : Scope) (since : Nat) (allowance : Option Nat) :
    Signal W → Option Nat
  | .elapsed delay => (delay allowance).map (since + ·)
  | .done => if scope.isCancelled e.tokens then some 0 else scope.deadline
  | .holds condition => if condition e.world then some 0 else none

theorem signalAt_eq (e : Engine W) (scope : Scope) (since : Nat) (allowance : Option Nat)
    (signal : Signal W) : e.signalAt scope since allowance signal =
      (e.signalSince scope since allowance signal).map (max e.now) := by
  cases signal with
  | elapsed delay =>
    show (delay allowance).map _ = ((delay allowance).map _).map _
    rw [Option.map_map]
    rfl
  | done => exact doneAt_eq ..
  | holds condition =>
    simp only [signalAt, signalSince]
    split <;> simp

/-- The moment from which on the next instruction can be done. -/
def readySince (e : Engine W) (scope : Scope) (since : Nat) (allowance : Option Nat) :
    Routine W → Option Nat
  | .pause signals :: _ => (signals.filterMap (e.signalSince scope since allowance)).min?
  | _ => some 0

theorem readyAt_eq (e : Engine W) (scope : Scope) (since : Nat) (allowance : Option Nat)
    (code : Routine W) : e.readyAt scope since allowance code =
      (e.readySince scope since allowance code).map (max e.now) := by
  have hnow : some e.now = (some 0).map (max e.now) := by simp
  cases code with
  | nil => exact hnow
  | cons i rest =>
    cases i with
    | pause signals =>
      show (signals.filterMap _).min? = (signals.filterMap _).min?.map _
      rw [← min?_map_max, List.map_filterMap]
      congr 2
      funext signal
      exact signalAt_eq ..
    | act | cancel => exact hnow

/-- From when on an instruction can be done only depends on what engines beside each other have in
common. -/
theorem Beside.readySince_eq (h : Beside k s e e') (scope : Scope) (since : Nat)
    (allowance : Option Nat) (code : Routine W) :
    e'.readySince scope since allowance code = e.readySince scope since allowance code := by
  have hsignal : e'.signalSince scope since allowance = e.signalSince scope since allowance := by
    funext signal
    cases signal <;> simp [signalSince, h.tokens, h.world]
  unfold readySince
  rw [hsignal]

theorem steady_readyAt (k : Nat) (s scope : Scope) (since : Nat) (allowance : Option Nat)
    (code : Routine W) : Steady k s fun e => e.readyAt scope since allowance code :=
  ⟨fun e => e.readySince scope since allowance code, fun e => readyAt_eq e scope since allowance
    code, fun _ _ h => h.readySince_eq scope since allowance code⟩

/-! ### Those who can act -/

theorem steady_taskReadyAt (k : Nat) (s : Scope) (t : Task W) :
    Steady k s fun e => e.taskReadyAt t := by
  unfold taskReadyAt
  split
  · exact ⟨fun _ => none, fun _ => rfl, fun _ _ _ => rfl⟩
  · split
    · exact steady_readyAt ..
    · exact ⟨fun _ => some 0, fun e => by simp, fun _ _ _ => rfl⟩

/-- If nobody in the background could have acted before the second engine's time, the same can act
there at the same moments, and perhaps the additional task. -/
theorem Beside.background (h : Beside k s e e') (hnow : e.now ≤ e'.now)
    (hlate : ∀ m ∈ e.background, e'.now ≤ m.2) :
    Widened (Prod.map (Who.shift k) id) (·.1 = .task k) e.background e'.background := by
  unfold Engine.background
  rw [h.outside]
  refine Widened.append ?_ ?_
  · -- the cancellations to come stay in their places
    refine (Widened.refl (fun _ => False) e.outside.zipIdx).map ?_ fun _ hnone => hnone.elim
    rintro ⟨o, j⟩ hmem
    have hcomes : (.outside j, max e.now o.1) ∈ e.background :=
      mem_background.2 (.inl ⟨j, o, List.mk_mem_zipIdx_iff_getElem?.1 hmem, rfl⟩)
    have hle : e'.now ≤ max e.now o.1 := hlate _ hcomes
    show (Who.outside j, max e'.now o.1) = (Who.outside j, max e.now o.1)
    congr 1
    omega
  · -- the others are ready when they were, for what they wait for does not depend on the clock
    refine h.crew.zipIdx.filterMap ?_ ?_
    · rintro ⟨t, i⟩ hmem
      have here := List.mk_mem_zipIdx_iff_getElem?.1 hmem
      have hready : e'.taskReadyAt t = e.taskReadyAt t :=
        (steady_taskReadyAt k s t).agree h hnow fun time htime =>
          hlate _ (mem_background.2 (.inr ⟨i, t, time, here, htime, rfl⟩))
      show (e'.taskReadyAt t).map _ = ((e.taskReadyAt t).map _).map _
      rw [hready, Option.map_map]
      rfl
    · rintro ⟨t, i⟩ m rfl hm
      obtain ⟨time, -, rfl⟩ := Option.map_eq_some_iff.1 hm
      rfl

theorem Beside.able (h : Beside k s e e') (hnow : e.now ≤ e'.now)
    (hlate : ∀ m ∈ e.background, e'.now ≤ m.2) (hagree : ready e' = ready e) :
    Widened (Prod.map (Who.shift k) id) (·.1 = .task k) (e.able ready) (e'.able ready) := by
  refine (h.background hnow hlate).append ?_
  rw [hagree]
  cases ready e with
  | none => exact .nil
  | some t => exact .both (Who.caller, t) .nil

/-! ### Getting ahead -/

/-- The second engine stood abreast of the first one, and since then only the additional task has
made steps, which the schedule picked.  The caller is ready at the same moment all the time. -/
inductive Lags (sch' : Schedule W) (ready : Engine W → Option Nat) (k : Nat) (s : Scope)
    (e : Engine W) : Engine W → Prop
  | abreast {e' : Engine W} (abreast : Abreast k s e e') (agree : ready e' = ready e) :
      Lags sch' ready k s e e'
  | idle {e' : Engine W} {time : Nat} (lags : Lags sch' ready k s e e')
      (next : e'.next sch' ready = some (time, .task k))
      (agree : ready (e'.step time (.task k)) = ready e) :
      Lags sch' ready k s e (e'.step time (.task k))

theorem now_step {time : Nat} {who : Who} (h : (who, time) ∈ e.background) :
    (e.step time who).now = time :=
  (acts_course h).2

namespace Lags

variable {sch' : Schedule W}

theorem agree (h : Lags sch' ready k s e e') : ready e' = ready e := by
  cases h with
  | abreast _ agree => exact agree
  | idle _ _ agree => exact agree

theorem beside (h : Lags sch' ready k s e e') : Beside k s e e' := by
  induction h with
  | abreast abreast => exact abreast.toBeside
  | idle _ next _ ih => exact ih.idle (mem_background_of_next next (by simp))

/-- The additional task acts no earlier than now. -/
theorem now_le (h : Lags sch' ready k s e e') : e.now ≤ e'.now := by
  induction h with
  | abreast abreast => exact Nat.le_of_eq abreast.now.symm
  | idle _ next _ ih =>
    have hable := mem_background_of_next next (by simp)
    rw [now_step hable]
    exact Nat.le_trans ih (now_le_of_mem_background hable)

/-- Nobody in the background could have acted before the second engine's time. -/
theorem late (h : Lags sch' ready k s e e') : ∀ m ∈ e.background, e'.now ≤ m.2 := by
  induction h with
  | abreast abreast =>
    intro m hm
    rw [abreast.now]
    exact now_le_of_mem_background hm
  | idle lags next _ ih =>
    intro m hm
    have hmem := (lags.beside.background lags.now_le ih).mem hm
    rw [now_step (mem_background_of_next next (by simp))]
    exact (le_of_next next).1 (m.1.shift k, m.2) hmem

/-- Those who can act, and perhaps the additional task. -/
theorem able (h : Lags sch' ready k s e e') :
    Widened (Prod.map (Who.shift k) id) (·.1 = .task k) (e.able ready) (e'.able ready) :=
  h.beside.able h.now_le h.late h.agree

end Lags

end Engine

/-! ### Picking alike -/

/-- The second schedule resolves races as the first does: of those who can act at the same moment it
lets the additional task at place `k` act, or it picks the one that the first schedule picks without
that task.  Whether a scope that is done counts before a report is the same for both. -/
structure Schedule.Alike (k : Nat) (sch sch' : Schedule W) : Prop where
  choose : ∀ (s : Scope) (ready : Engine W → Option Nat) (e e' : Engine W) (time : Nat)
    (whos whos' : List Who), Engine.Lags sch' ready k s e e' →
    Engine.earliest (e.able ready) = some (time, whos) →
    Engine.earliest (e'.able ready) = some (time, whos') →
    e'.choose sch' time whos' = .task k ∨
      e'.choose sch' time whos' = (e.choose sch time whos).shift k
  scopeFirst : ∀ (s : Scope) (e e' : Engine W), Engine.Abreast k s e e' →
    sch'.scopeFirst e' = sch.scopeFirst e

namespace Engine

variable {k : Nat} {s : Scope} {ready : Engine W → Option Nat} {e e' : Engine W}
  {sch sch' : Schedule W}

/-- When the additional task does not act, the same one acts on both sides, at the same moment. -/
theorem Lags.next_or (h : Lags sch' ready k s e e') (halike : Schedule.Alike k sch sch') :
    (∃ time, e'.next sch' ready = some (time, .task k)) ∨
      e'.next sch' ready = (e.next sch ready).map fun x => (x.1, x.2.shift k) := by
  have hable := h.able
  unfold Engine.next
  cases hearliest : earliest (e'.able ready) with
  | none =>
    -- who can act without the additional task can act with it
    have hnobody : e.able ready = [] := by
      refine List.eq_nil_iff_forall_not_mem.2 fun m hm => ?_
      have hmem := hable.mem hm
      rw [earliest_eq_none_iff.1 hearliest] at hmem
      cases hmem
    rw [earliest_eq_none_iff.2 hnobody]
    exact .inr rfl
  | some x =>
    obtain ⟨time, whos'⟩ := x
    by_cases hwho : e'.choose sch' time whos' = .task k
    · exact .inl ⟨time, by rw [Option.map_some, hwho]⟩
    obtain ⟨hmem, hne, hfirst⟩ := earliest_eq_some hearliest
    obtain ⟨⟨who, t⟩, hother, heq⟩ :=
      (hable.exists_of_mem (hmem _ (choose_mem sch' e' time hne))).resolve_left hwho
    obtain rfl : t = time := congrArg Prod.snd heq
    have hbase := earliest_of_mem hother fun m hm => hfirst (m.1.shift k, m.2) (hable.mem hm)
    have hchoose := halike.choose s ready e e' t _ whos' h hbase hearliest
    rw [hbase, Option.map_some, Option.map_some, Option.map_some, hchoose.resolve_left hwho]
    exact .inr rfl

/-! ### Waiting -/

/-- Two waits end alike. -/
inductive Meets (k : Nat) (s : Scope) : Engine W × Bool → Engine W × Bool → Prop
  | goesOn {e e' : Engine W} (abreast : Abreast k s e e') : Meets k s (e, true) (e', true)
  | never {e e' : Engine W} (beside : Beside k s e e') : Meets k s (e, false) (e', false)

/-- Two waits have ends that are related by `Q`, if their ends that are alike are, and if all are
that begin when the first engine is not `awake` any more.  While it is, the caller has to be ready
at the same moment in both.  `P` is something that the steps of the first engine preserve.

Each step that the second wait makes uses up its work, and this is what the induction is on: a step
of the additional task leaves the first engine where it is, any other one is made by both. -/
theorem Lags.await (halike : Schedule.Alike k sch sch') {P awake : Engine W → Prop}
    {Q : Engine W × Bool → Engine W × Bool → Prop}
    (hready : ∀ e t, ready e = some t → e.now ≤ t)
    (hagree : ∀ e e', awake e → Beside k s e e' → e.now ≤ e'.now →
      (∀ t, ready e = some t → e'.now ≤ t) → ready e' = ready e)
    (hP : ∀ e time who, (who, time) ∈ e.background → P e → P (e.step time who))
    (hmeets : ∀ r r', Meets k s r r' → Q r r')
    (hasleep : ∀ e e', Abreast k s e e' → P e → ¬ awake e →
      Q (e.await sch ready) (e'.await sch' ready))
    (h : Lags sch' ready k s e e') (he : P e) (hawake : awake e) :
    Q (e.await sch ready) (e'.await sch' ready) := by
  induction hwork : e'.work using Nat.strongRecOn generalizing e e' with
  | ind n ih =>
    subst hwork
    rcases h.next_or halike with ⟨time, hnext⟩ | hnext
    · -- the additional task acts
      have hable := mem_background_of_next hnext (by simp)
      have hnow := now_step hable
      rw [await_of_next hnext (by simp)]
      refine ih _ (work_step_lt hable) (.idle h hnext ?_) he hawake rfl
      refine hagree e _ hawake (h.beside.idle hable) ?_ fun t ht => ?_
      · rw [hnow]
        exact Nat.le_trans h.now_le (now_le_of_mem_background hable)
      · rw [hnow]
        exact (le_of_next hnext).2 t (h.agree.trans ht)
    · cases hfirst : e.next sch ready with
      | none =>
        rw [hfirst] at hnext
        rw [await_of_none hfirst, await_of_none hnext]
        exact hmeets _ _ (.never h.beside)
      | some x =>
        obtain ⟨time, who⟩ := x
        rw [hfirst] at hnext
        have habreast : Abreast k s (e.step time who) (e'.step time (who.shift k)) :=
          h.beside.step (mem_background_of_next hfirst)
        by_cases hwho : who = .caller
        · subst hwho
          rw [await_of_caller hfirst, await_of_caller hnext]
          exact hmeets _ _ (.goesOn habreast)
        · -- both go on with the same step
          have hwho' : who.shift k ≠ .caller := fun heq => hwho (Who.shift_eq_caller_iff.1 heq)
          have he₁ : P (e.step time who) := hP e time who (mem_background_of_next hfirst hwho) he
          rw [await_of_next hfirst hwho, await_of_next hnext hwho']
          by_cases hstill : awake (e.step time who)
          · refine ih _ (work_step_lt (mem_background_of_next hnext hwho')) ?_ he₁ hstill rfl
            refine .abreast habreast (hagree _ _ hstill habreast.toBeside ?_ fun t ht => ?_)
            · exact Nat.le_of_eq habreast.now.symm
            · rw [habreast.now]
              exact hready _ t ht
          · exact hasleep _ _ habreast he₁ hstill

/-- A steady caller is ready at the same moment in engines that stand abreast. -/
theorem Abreast.ready_eq (h : Abreast k s e e') (hsteady : Steady k s ready) :
    ready e' = ready e :=
  hsteady.agree h.toBeside (Nat.le_of_eq h.now.symm) fun _ ht => h.now ▸ hsteady.now_le ht

/-- Two waits of a steady caller that begin abreast end alike. -/
theorem Abreast.await (h : Abreast k s e e') (halike : Schedule.Alike k sch sch')
    (hsteady : Steady k s ready) : Meets k s (e.await sch ready) (e'.await sch' ready) := by
  -- the first engine is awake all the time
  have hasleep (e₁ e₁' : Engine W) (_ : Abreast k s e₁ e₁') (_ : True) (hstill : ¬ True) :
      Meets k s (e₁.await sch ready) (e₁'.await sch' ready) := absurd trivial hstill
  exact Lags.await halike (fun _ _ => hsteady.now_le) (fun _ _ _ => hsteady.agree)
    (fun _ _ _ _ => id) (fun _ _ => id) hasleep (.abreast h (h.ready_eq hsteady)) trivial trivial

/-! ### Calling -/

/-- Two calls end alike. -/
inductive Answers (k : Nat) (s : Scope) : Engine W × Returned → Engine W × Returned → Prop
  | outcome {e e' : Engine W} (abreast : Abreast k s e e') (o : Outcome) :
      Answers k s (e, .outcome o) (e', .outcome o)
  | never {e e' : Engine W} (beside : Beside k s e e') : Answers k s (e, .never) (e', .never)

/-- The same routine ends alike on both sides. -/
theorem Abreast.perform (h : Abreast k s e e') (halike : Schedule.Alike k sch sch')
    (scope : Scope) (allowance : Option Nat) (code : Routine W) :
    Answers k s (e.perform sch scope allowance code) (e'.perform sch' scope allowance code) := by
  induction code generalizing e e' with
  | nil => exact .outcome h .ok
  | cons i rest ih =>
    have hwait := h.await halike (steady_readyAt k s scope e.now allowance (i :: rest))
    unfold Engine.perform
    dsimp only
    rw [h.now]
    generalize e.await sch _ = r, e'.await sch' _ = r' at hwait ⊢
    cases hwait with
    | never beside => exact .never beside
    | goesOn abreast =>
      rw [if_neg (by simp), if_neg (by simp)]
      cases i with
      | pause => exact ih abreast
      | cancel kept later => exact ih (abreast.cancelClone scope kept later)
      | act effect =>
        dsimp only
        rw [abreast.moment_eq, abreast.world]
        split
        next w heq => exact ih (abreast.change w)
        next w o heq => exact .outcome (abreast.change w) o

/-- The same call ends alike on both sides. -/
theorem Abreast.call (h : Abreast k s e e') (halike : Schedule.Alike k sch sch') (phase : Phase)
    (index : Nat) (scope : Scope) (code : Routine W) :
    Answers k s (e.call sch phase index scope code)
      (e'.call sch' phase (shift k index) scope code) := by
  have hcalled := h.record (.called phase index (e.moment scope (scope.remaining e.now)))
  have hperform := hcalled.perform halike scope (scope.remaining e.now) code
  unfold Engine.call
  dsimp only
  rw [h.now, h.moment_eq]
  generalize Engine.perform sch scope _ code _ = r at hperform ⊢
  have hsame : Event.shift k (.called phase index (e.moment scope (scope.remaining e.now))) =
      .called phase (shift k index) (e.moment scope (scope.remaining e.now)) := rfl
  rw [hsame] at hperform
  generalize Engine.perform sch' scope _ code _ = r' at hperform ⊢
  cases hperform with
  | outcome abreast o => exact .outcome (abreast.record (.returned phase index o)) o
  | never beside => exact .never beside

/-- Calling a phase in which the additional process has nothing to do takes no time, and changes
nothing that can be seen of the others. -/
theorem Abreast.call_right (h : Abreast k s e e') (sch' : Schedule W) (phase : Phase)
    (scope : Scope) :
    ∃ e₁', e'.call sch' phase k scope [] = (e₁', .outcome .ok) ∧ Abreast k s e e₁' :=
  ⟨_, rfl, (h.record_right rfl).record_right rfl⟩

end Engine

end ServiceHost
