import Mathlib.Data.ENat.Lattice
import ServiceHost.Proofs.Lifecycle.Moves
import ServiceHost.Proofs.Lifecycle.Trigger
/-!
When the last stage is entered.

A run enters its last stage as soon as the startup delay is over and either its outer scope is done
or some run has failed.  What may never happen happens at `⊤`, so that this moment is
`max ready (min done failed)`, and a run that never comes to its last stage is the case `⊤`
(`Supervisor.stopping_entered_at`).  Both causes are read off the record (`Engine.doneTime`,
`Engine.failTime`); a cancellation that is going to come from outside is there in time, since the
clock never goes beyond it (`Engine.Punctual`).
-/

namespace ServiceHost

variable {W : Type}

/-! ### What may never happen -/

/-- The moment of what may never happen: `⊤` if it does not. -/
def instant (t : Option Nat) : ℕ∞ :=
  t.elim ⊤ Nat.cast

theorem instant_none : instant none = ⊤ := rfl

theorem instant_some (t : Nat) : instant (some t) = t := rfl

theorem instant_eq_top_iff {t : Option Nat} : instant t = ⊤ ↔ t = none := by
  cases t <;> simp [instant_none, instant_some]

/-- The first of some moments. -/
noncomputable def soonest (ts : List Nat) : ℕ∞ :=
  ts.foldr (fun (t : Nat) (n : ℕ∞) => min ↑t n) ⊤

/-- By some moment the first has come just in case one of them has. -/
theorem soonest_le_iff {ts : List Nat} {t : Nat} : soonest ts ≤ t ↔ ∃ s ∈ ts, s ≤ t := by
  induction ts with
  | nil => simp [soonest]
  | cons s ts ih =>
    show min (s : ℕ∞) (soonest ts) ≤ t ↔ _
    rw [min_le_iff, ih, Nat.cast_le]
    simp

/-- What has not come at any moment before `t` does not come before `t`. -/
theorem le_of_forall_lt_not_le {t : Nat} {x : ℕ∞} (h : ∀ s < t, ¬ x ≤ s) : (t : ℕ∞) ≤ x := by
  cases x using ENat.recTopCoe with
  | top => exact le_top
  | coe n => exact Nat.cast_le.2 (Nat.le_of_not_lt fun hlt => h n hlt (le_refl _))

/-- What has not come at any moment never comes. -/
theorem eq_top_of_forall_not_le {x : ℕ∞} (h : ∀ s : Nat, ¬ x ≤ s) : x = ⊤ := by
  cases x using ENat.recTopCoe with
  | top => rfl
  | coe n => exact absurd (le_refl _) (h n)

namespace Engine

/-! ### The two causes -/

/-- When a scope is done in a run from `start` to `e`: from the first if it was cancelled before the
run, else from its deadline on or from the first cancellation of it or of an ancestor. -/
noncomputable def doneTime (start e : Engine W) (s : Scope) : ℕ∞ :=
  if s.isCancelled start.tokens then 0
  else soonest (s.deadline.toList ++
    (e.cancellations.filter fun c => c.2.isSuffixOf s.token).map Prod.fst)

/-- When the first run failed. -/
noncomputable def failTime (e : Engine W) : ℕ∞ :=
  soonest (e.failures.map Prod.fst)

theorem doneTime_le_iff {start e : Engine W} {s : Scope} {t : Nat} :
    doneTime start e s ≤ t ↔ DoneBy start e s t := by
  unfold doneTime DoneBy
  split
  next hstart => simp [hstart]
  next hstart =>
    rw [soonest_le_iff]
    constructor
    · rintro ⟨u, hu, hle⟩
      rcases List.mem_append.1 hu with hu | hu
      · exact .inr (.inr ⟨u, Option.mem_toList.1 hu, hle⟩)
      · obtain ⟨c, hc, rfl⟩ := List.mem_map.1 hu
        obtain ⟨hc, hsuffix⟩ := List.mem_filter.1 hc
        exact .inr (.inl ⟨c, hc, hle, List.isSuffixOf_iff_suffix.1 hsuffix⟩)
    · rintro (h | ⟨c, hc, hle, hsuffix⟩ | ⟨u, hu, hle⟩)
      · exact absurd h hstart
      · refine ⟨c.1, List.mem_append_right _ (List.mem_map_of_mem ?_), hle⟩
        exact List.mem_filter.2 ⟨hc, List.isSuffixOf_iff_suffix.2 hsuffix⟩
      · exact ⟨u, List.mem_append_left _ (Option.mem_toList.2 hu), hle⟩

theorem failTime_le_iff {e : Engine W} {t : Nat} : failTime e ≤ t ↔ ∃ f ∈ e.failures, f.1 ≤ t := by
  unfold failTime
  simp [soonest_le_iff]

/-- Every run that failed has ended with a failure. -/
theorem exists_return_of_mem_failures {e : Engine W} {f : Nat × Report} (h : f ∈ e.failures) :
    ∃ x ∈ e.returns .run, x.2.fault? = some f.2.source := by
  obtain ⟨⟨time, stage, event⟩, hx, hfailure⟩ := List.mem_filterMap.1 h
  cases event with
  | returned p index o =>
    cases p with
    | run =>
      obtain ⟨source, hsource, rfl⟩ := Option.map_eq_some_iff.1 hfailure
      exact ⟨(index, o), List.mem_filterMap.2 ⟨_, hx, rfl⟩, hsource⟩
    | prepare | close => cases hfailure
  | _ => cases hfailure

/-! ### Cancellations that are going to come -/

/-- Each cancellation that was going to come in `start` has come at its moment, or at once if that
was over, or it is still going to come and is not late. -/
structure Punctual (start e : Engine W) : Prop where
  now_le : start.now ≤ e.now
  planned : ∀ o ∈ start.outside, (max start.now o.1, o.2) ∈ e.cancellations ∨
    (o ∈ e.outside ∧ e.now ≤ max start.now o.1)

namespace Punctual

variable {start e e' : Engine W}

theorem of_fresh (e : Engine W) : Punctual e e :=
  ⟨Nat.le_refl _, fun _ ho => .inr ⟨ho, Nat.le_max_left ..⟩⟩

/-- What takes no time, takes nothing off the list and leaves the record of cancellations. -/
theorem of_eq (h : Punctual start e) (hnow : e'.now = e.now) (houtside : e'.outside = e.outside)
    (hcancellations : e.cancellations ⊆ e'.cancellations) : Punctual start e' := by
  refine ⟨hnow ▸ h.now_le, fun o ho => (h.planned o ho).imp (fun hc => hcancellations hc) ?_⟩
  rw [hnow, houtside]
  exact id

/-- A cancellation comes, and is taken off the list. -/
theorem arrive (h : Punctual start e) {k time : Nat} {token : Token}
    (planned : e.outside[k]? = some (time, token)) (due : time ≤ e.now) :
    Punctual start ({ e with outside := e.outside.eraseIdx k }.cancel token) := by
  refine ⟨h.now_le, fun o ho => ?_⟩
  rw [cancellations_cancel, List.mem_append]
  rcases h.planned o ho with hcame | ⟨hmem, hlate⟩
  · exact .inl (.inl hcame)
  · obtain ⟨i, hi⟩ := List.mem_iff_getElem?.1 hmem
    by_cases hik : i = k
    · -- this is the one that comes; it is due, and it is not late
      obtain rfl : o = (time, token) := Option.some.inj (hi.symm.trans (hik ▸ planned))
      have hnow := h.now_le
      have heq : max start.now time = e.now := by
        dsimp only at hlate
        omega
      exact .inl (.inr (by simp [heq]))
    · exact .inr ⟨List.mem_eraseIdx_iff_getElem?.2 ⟨i, hik, hi⟩, hlate⟩

/-- A cancellation to come is left behind. -/
theorem leave (h : Punctual start e) (o : Nat × Token) :
    Punctual start { e with outside := e.outside ++ [o] } := by
  refine ⟨h.now_le, fun p hp => (h.planned p hp).imp_right ?_⟩
  rintro ⟨hmem, hlate⟩
  exact ⟨List.mem_append_left _ hmem, hlate⟩

/-- No cancellation is late, whatever is done. -/
theorem acts {mine : Option Nat → Token → Prop} (h : Punctual start e) (hacts : Acts mine e e') :
    Punctual start e' := by
  have hsubset : e.cancellations ⊆ e'.cancellations :=
    (hacts.happens.adds.prefix_filterMap _).subset
  cases hacts with
  | @clock time who later first =>
    refine ⟨Nat.le_trans h.now_le later, fun o ho => (h.planned o ho).imp_right ?_⟩
    rintro ⟨hmem, hlate⟩
    obtain ⟨k, hk⟩ := List.mem_iff_getElem?.1 hmem
    -- the clock does not go beyond the moment at which the cancellation can come
    have hfirst : time ≤ max e.now o.1 := first _ (mem_background.2 (.inl ⟨k, o, hk, rfl⟩))
    refine ⟨hmem, ?_⟩
    show time ≤ max start.now o.1
    omega
  | arrive planned due => exact h.arrive planned due
  | leave => exact h.leave _
  | start | goOn | change | cancel => exact h.of_eq rfl rfl hsubset
  | finish => exact h.of_eq (by rw [endTask_eq]; rfl) (by rw [endTask_eq]; rfl) hsubset

end Punctual

end Engine

namespace Supervisor

open Engine

/-- No cancellation is late, whatever moves are made. -/
theorem punctual_moves {phase : Phase} {s : Scope} {mine : Option Nat → Token → Prop}
    {start e e' : Engine W} (h : Punctual start e) (hmove : Moves phase s mine e e') :
    Punctual start e' := by
  have hsubset : e.cancellations ⊆ e'.cancellations := (hmove.adds.prefix_filterMap _).subset
  cases hmove with
  | acts hacts => exact h.acts hacts
  | newScope | called | returned | announced | received | published | runCancelled =>
    exact h.of_eq rfl rfl hsubset

variable {sch : Schedule W} {sup : Supervisor W} {outer : Scope} {e e₁ e₂ : Engine W}

/-- When all tasks have just been made, no cancellation is late. -/
theorem punctual_start {os : List Outcome} (he : e.Fresh) (hvisits : Visits sch .prepare outer
    Component.prepare sup.numbered (e.publish .preRunning) os e₁) :
    Punctual e (sup.start outer e₁).1 := by
  have hprepared : Punctual e e₁ :=
    (path_prepared he hvisits).preserves (fun _ _ hmove h => punctual_moves h hmove) (.of_fresh e)
  have hstart : Adds (fun _ => True) e₁ (sup.start outer e₁).1 := .of_record rfl rfl trivial
  exact hprepared.of_eq rfl rfl (hstart.prefix_filterMap _).subset

/-! ### What has happened when the wait ends, and when it does not -/

/-- While the wait for the end lasts longer than the startup delay, neither cause has come before
the present moment, and what comes later does not change that. -/
theorem Pending.now_le_cause {P : Entry → Prop} {ready : Nat} {e' : Engine W}
    (h : Pending outer e ready e₂) (hadds : Adds P e₂ e') (hready : ready < e₂.now) :
    (e₂.now : ℕ∞) ≤ min (doneTime e e' outer) (failTime e') := by
  refine le_min (le_of_forall_lt_not_le ?_) (le_of_forall_lt_not_le ?_)
  · intro t ht hdone
    exact h.not_done hready t ht (hadds.doneBy_of_lt ht (doneTime_le_iff.1 hdone))
  · intro t ht hfailed
    obtain ⟨f, hf, hle⟩ := failTime_le_iff.1 hfailed
    rcases hadds.mem_failures hf with hf | hlater
    · have := h.no_failure hready f hf
      omega
    · omega

/-- A run that comes to its last stage does so as soon as the startup delay is over and one of the
causes is there. -/
theorem Stops.now_eq (h : Stops sch sup outer e e₁ e₂) (he : e.Fresh) :
    (e₂.now : ℕ∞) = max ↑(e₁.now + sup.startupDelay)
      (min (doneTime e (sup.run sch outer e).1 outer) (failTime (sup.run sch outer e).1)) := by
  obtain ⟨hpending, hreason⟩ := h.pending he
  refine le_antisymm ?_ (max_le (Nat.cast_le.2 hpending.ready_le) ?_)
  · rcases Nat.eq_or_lt_of_le hpending.ready_le with hready | hready
    · exact hready ▸ le_max_left ..
    · exact le_max_of_le_right (hpending.now_le_cause h.adds hready)
  · rcases hreason with hreports | hdone
    · -- a report is in the mailbox, so a run has failed
      apply min_le_of_right_le
      rw [hpending.collects.reports] at hreports
      obtain ⟨f, hf⟩ := List.exists_mem_of_ne_nil _ fun hnil =>
        hreports (congrArg (List.map _) hnil)
      exact failTime_le_iff.2 ⟨f, (h.adds.prefix_filterMap _).subset hf,
        hpending.ordered.failures_le hf⟩
    · apply min_le_of_left_le
      exact doneTime_le_iff.2 (h.adds.doneBy ((hpending.tells.isDone_iff hpending.ordered).1 hdone))

/-- A run that waits for its end for ever has not entered its last stage. -/
theorem Stalls.enteredAt?_eq_none (h : Stalls sch sup outer e e₁ e₂) (he : e.Fresh) :
    (sup.run sch outer e).1.enteredAt? .stopping = none := by
  obtain ⟨os, hvisits, -⟩ := h.prepared
  have hcourse := await_course sch (causeAt outer) (fun _ _ => now_le_causeAt)
    (waiting sch sup outer e₁)
  rw [h.wait] at hcourse
  rw [h.run]
  cases hentered : e₂.enteredAt? .stopping with
  | none => rfl
  | some t =>
    have hmem := entered_mem_deeds hentered
    rw [hcourse.deeds_eq, deeds_waiting_eq_opening he hvisits] at hmem
    simp [opening, Deed.visits] at hmem

/-- A run waits for its end for ever only if neither cause ever comes, and nothing that was going to
come from outside is left. -/
theorem Stalls.idle (h : Stalls sch sup outer e e₁ e₂) (he : e.Fresh) :
    doneTime e e₂ outer = ⊤ ∧ failTime e₂ = ⊤ ∧ e₂.outside = [] := by
  obtain ⟨os, hvisits, -⟩ := h.prepared
  obtain ⟨e', hsteps, hend⟩ := await_waits sch (causeAt outer) (waiting sch sup outer e₁)
  have hpending := (pending_waiting he hvisits).row hsteps
  rw [h.wait] at hend
  cases hend with
  | never unable idle =>
    have hnothing (t : Nat) := hpending.nothing_of_lt (Nat.lt_succ_of_le (Nat.le_max_left e₂.now t))
      fun u hu => by cases unable.symm.trans hu
    refine ⟨eq_top_of_forall_not_le fun t ht => ?_, eq_top_of_forall_not_le fun t ht => ?_,
      outside_eq_nil idle⟩
    · exact (hnothing t).2 t (Nat.lt_succ_of_le (Nat.le_max_right ..)) (doneTime_le_iff.1 ht)
    · obtain ⟨f, hf, -⟩ := failTime_le_iff.1 ht
      rw [(hnothing t).1] at hf
      cases hf

/-! ### Whole runs -/

/-- The moment at which a run enters its last stage, with both causes read off its record. -/
theorem stopping_eq (he : e.Fresh) {time : Nat}
    (hrunning : (sup.run sch outer e).1.enteredAt? .running = some time) :
    instant ((sup.run sch outer e).1.enteredAt? .stopping) =
      max ↑(time + sup.startupDelay)
        (min (doneTime e (sup.run sch outer e).1 outer) (failTime (sup.run sch outer e).1)) := by
  rcases stops_or_stalls he (entered_mem_deeds hrunning) with ⟨e₁, e₂, hstops⟩ | ⟨e₁, e₂, hstalls⟩
  · obtain rfl : e₁.now = time :=
      Option.some.inj ((hstops.enteredAt?_running he).symm.trans hrunning)
    rw [hstops.enteredAt?_stopping he]
    exact hstops.now_eq he
  · obtain ⟨hdone, hfailed, -⟩ := hstalls.idle he
    rw [hstalls.enteredAt?_eq_none he, hstalls.run, hdone, hfailed, min_self, max_top_right]
    rfl

/-- A run that has entered its main stage enters the last one at the latest when the startup delay
is over and a cancellation of its outer scope comes that was going to come. -/
theorem stopping_le_planned (he : e.Fresh) {time : Nat}
    (hrunning : (sup.run sch outer e).1.enteredAt? .running = some time) {o : Nat × Token}
    (ho : o ∈ e.outside) (hsuffix : o.2 <:+ outer.token) :
    instant ((sup.run sch outer e).1.enteredAt? .stopping) ≤
      max ↑(time + sup.startupDelay) ↑(max e.now o.1) := by
  -- if it has come, the scope was done then
  have hcame (h : (max e.now o.1, o.2) ∈ (sup.run sch outer e).1.cancellations) :
      instant ((sup.run sch outer e).1.enteredAt? .stopping) ≤
        max ↑(time + sup.startupDelay) ↑(max e.now o.1) := by
    rw [stopping_eq he hrunning]
    have hdone : doneTime e (sup.run sch outer e).1 outer ≤ ↑(max e.now o.1) :=
      doneTime_le_iff.2 (.inr (.inl ⟨_, h, Nat.le_refl _, hsuffix⟩))
    exact max_le_max_left _ (min_le_of_left_le hdone)
  rcases stops_or_stalls he (entered_mem_deeds hrunning) with ⟨e₁, e₂, hstops⟩ | ⟨e₁, e₂, hstalls⟩
  · obtain ⟨os, hvisits, -⟩ := hstops.prepared
    have hpath : Path .close outer (fun _ _ => False) _ _ := hstops.moves_cause
    have hpunctual := hpath.preserves (fun _ _ hmove h => punctual_moves h hmove)
      (punctual_start he hvisits)
    rcases hpunctual.planned o ho with hc | ⟨-, hlate⟩
    · have hpublish : Adds (fun _ => True) (takeCause sch outer e₂).1
          ((takeCause sch outer e₂).1.publish .stopping) := .of_record rfl rfl trivial
      exact hcame (((hpublish.trans hstops.ends.adds).prefix_filterMap _).subset hc)
    · rw [hstops.enteredAt?_stopping he]
      rw [now_takeCause] at hlate
      exact le_max_of_le_right (Nat.cast_le.2 hlate)
  · obtain ⟨os, hvisits, -⟩ := hstalls.prepared
    have hpath : Path .close outer (fun _ _ => False) _ _ := hstalls.moves
    have hpunctual := hpath.preserves (fun _ _ hmove h => punctual_moves h hmove)
      (punctual_start he hvisits)
    refine hcame ((hpunctual.planned o ho).resolve_right fun h => ?_)
    rw [hstalls.run, (hstalls.idle he).2.2] at h
    cases h.1

/-- **A run stops as soon as it has to, and not before.**  A run that has entered its main stage
enters the last one as soon as the startup delay is over and its outer scope is done or some run has
failed, whatever comes first; a cancellation of the outer scope that is going to come from outside
is not missed.  If no run ever fails, however many of them end with success, and the outer scope is
never done, then the last stage is never entered and the run goes on for ever. -/
theorem stopping_entered_at (sch : Schedule W) (sup : Supervisor W) (outer : Scope) {e : Engine W}
    (he : e.Fresh) {time : Nat}
    (hrunning : (sup.run sch outer e).1.enteredAt? .running = some time) :
    instant ((sup.run sch outer e).1.enteredAt? .stopping) =
        max ↑(time + sup.startupDelay)
          (min (doneTime e (sup.run sch outer e).1 outer) (failTime (sup.run sch outer e).1)) ∧
    (∀ o ∈ e.outside, o.2 <:+ outer.token →
      instant ((sup.run sch outer e).1.enteredAt? .stopping) ≤
        max ↑(time + sup.startupDelay) ↑(max e.now o.1)) ∧
    ((∀ x ∈ (sup.run sch outer e).1.returns .run, x.2 = .ok) →
      (∀ t, ¬ DoneBy e (sup.run sch outer e).1 outer t) →
      .stopping ∉ (sup.run sch outer e).1.stages ∧ (sup.run sch outer e).2 = .never) := by
  have hstopping := stopping_eq he hrunning
  refine ⟨hstopping, fun o ho hsuffix => stopping_le_planned he hrunning ho hsuffix, ?_⟩
  intro hok hnever
  have hdone : doneTime e (sup.run sch outer e).1 outer = ⊤ :=
    eq_top_of_forall_not_le fun t ht => hnever t (doneTime_le_iff.1 ht)
  have hfailed : failTime (sup.run sch outer e).1 = ⊤ := by
    refine eq_top_of_forall_not_le fun t ht => ?_
    obtain ⟨f, hf, -⟩ := failTime_le_iff.1 ht
    obtain ⟨x, hx, hfault⟩ := exists_return_of_mem_failures hf
    rw [hok x hx] at hfault
    cases hfault
  rw [hdone, hfailed, min_self, max_top_right, instant_eq_top_iff] at hstopping
  rcases stops_or_stalls he (entered_mem_deeds hrunning) with ⟨e₁, e₂, hstops⟩ | ⟨e₁, e₂, hstalls⟩
  · cases (hstops.enteredAt?_stopping he).symm.trans hstopping
  · refine ⟨fun hmem => ?_, by rw [hstalls.run]⟩
    obtain ⟨_, _, hstops⟩ := stops_of_entered he (.inl (mem_stages_iff.1 hmem))
    cases (hstops.enteredAt?_stopping he).symm.trans hstopping

/-- One process succeeds at once and another fails after the startup delay, while the deadline of
the outer scope is later still: the run enters its last stage when the process fails.  With two
processes that succeed and no deadline it never does. -/
theorem stopping_entered_at_failure :
    let failing : Component Unit :=
      { run := .sleep (150 * Duration.nanosPerMilli) ++ .failWith (some (.text "boom")) }
    let outer : Scope := ⟨[0], some (200 * Duration.nanosPerMilli)⟩
    let start := begin () ⟨1, []⟩ []
    let r := ({ processes := [{}, failing] } : Supervisor Unit).run .usual outer start
    let r' := ({ processes := [{}, {}] } : Supervisor Unit).run .usual ⟨[0], none⟩ start
    r.1.enteredAt? .stopping = some (150 * Duration.nanosPerMilli) ∧
      instant (r.1.enteredAt? .stopping) = max ↑(0 + 100 * Duration.nanosPerMilli)
        (min (doneTime start r.1 outer) (failTime r.1)) ∧
      .stopping ∉ r'.1.stages ∧ r'.2 = .never := by
  intro failing outer start r r'
  have hrunning : r.1.enteredAt? .running = some 0 := by decide +kernel
  have hrunning' : r'.1.enteredAt? .running = some 0 := by decide +kernel
  have hstopping := (stopping_entered_at .usual { processes := [{}, failing] } outer
    (fresh_begin () ⟨1, []⟩ []) hrunning).1
  have hnever := (stopping_entered_at .usual { processes := [{}, {}] } ⟨[0], none⟩
    (fresh_begin () ⟨1, []⟩ []) hrunning').2.2
  refine ⟨by decide +kernel, hstopping, hnever (by decide +kernel) ?_⟩
  have hnone : r'.1.cancellations = [] := by decide +kernel
  rintro t (hstart | ⟨c, hc, -⟩ | ⟨deadline, hdeadline, -⟩)
  · cases hstart
  · rw [hnone] at hc
    cases hc
  · cases hdeadline

end Supervisor

end ServiceHost
