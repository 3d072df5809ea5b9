import ServiceHost.Proofs.Lifecycle.Sharing
/-!
The time that processes have to shut down.

All processes are shut down in one scope, which is made when the last stage is entered and has no
ancestor (`Supervisor.shutdownScope`).  What they see of it is the invariant `Sees`.  Since the
shutdowns follow each other without a pause, each has what the ones before it have left of the time,
whatever becomes of the outer scope (`Supervisor.shutdown_budget`).
-/

namespace ServiceHost

variable {W : Type}

namespace Engine

/-- What is cancelled stays so. -/
theorem Happens.isCancelled {e e' : Engine W} (h : Happens e e') {s : Scope}
    (hs : s.isCancelled e.tokens = true) : s.isCancelled e'.tokens = true := by
  cases h with
  | arrive | cancel => exact Bool.or_eq_true_iff.2 (.inr hs)
  | finish =>
    rw [endTask_eq]
    exact hs
  | clock | start | goOn | leave | change => exact hs

end Engine

namespace Supervisor

open Engine

/-- The scope in which a run that began in `e` shuts its processes down, if it has entered its last
stage at `time`.  Its token is the second one that the run makes, after that of the running
processes. -/
def shutdownScope (sup : Supervisor W) (e : Engine W) (time : Nat) : Scope :=
  ⟨[e.tokens.next + 1], some (time + sup.closeTimeout)⟩

/-! ### What the processes see -/

/-- What each process saw of the scope `s` when it was called to shut down: the scope as it was at
that moment. -/
structure Sees (s : Scope) (e : Engine W) : Prop where
  moment : ∀ c ∈ e.calls .close, c.moment =
    { now := c.time
      cancelled := c.moment.cancelled
      done := c.moment.cancelled || s.deadline.any (· ≤ c.time)
      remaining := s.remaining c.time
      allowance := s.remaining c.time }
  cancelled : ∀ c ∈ e.calls .close, c.moment.cancelled = true → s.isCancelled e.tokens = true

namespace Sees

variable {s : Scope} {e e' : Engine W}

/-- No process is called to shut down. -/
theorem of_calls (h : Sees s e) (hcalls : e'.calls .close = e.calls .close)
    (hcancelled : s.isCancelled e.tokens = true → s.isCancelled e'.tokens = true) : Sees s e' := by
  constructor
  · rw [hcalls]
    exact h.moment
  · rw [hcalls]
    exact fun c hc hc' => hcancelled (h.cancelled c hc hc')

theorem moves {mine : Option Nat → Token → Prop} (h : Sees s e) (hmove : Moves .close s mine e e') :
    Sees s e' := by
  cases hmove with
  | acts hacts =>
    exact h.of_calls (hacts.happens.course.calls_eq (by simp)) hacts.happens.isCancelled
  | newScope => exact h.of_calls rfl id
  | returned | announced | received | published | runCancelled =>
    exact h.of_calls (filterMap_entries_of_none _ rfl rfl) id
  | called index =>
    constructor
    all_goals
      intro c hc
      rw [calls_record] at hc
      rcases List.mem_append.1 hc with hc | hc
    · exact h.moment c hc
    · obtain rfl : c = _ := by simpa [Call.ofEntry?] using hc
      rfl
    · exact h.cancelled c hc
    · obtain rfl : c = _ := by simpa [Call.ofEntry?] using hc
      exact id

end Sees

/-! ### Whole runs -/

variable {sch : Schedule W} {sup : Supervisor W} {outer : Scope} {e e₁ e₂ : Engine W}

theorem cancellations_cleared (e : Engine W) : (cleared e).cancellations = e.cancellations :=
  filterMap_cleared _ e (fun _ => rfl) (fun _ => rfl) rfl

theorem tokens_cleared (e : Engine W) : (cleared e).tokens = e.tokens := by
  rw [cleared_eq]

/-- Clearing away shuts no process down. -/
theorem Sees.cleared {s : Scope} (h : Sees s e) : Sees s (cleared e) := by
  refine h.of_calls (filterMap_cleared _ e (fun _ => rfl) (fun _ => rfl) rfl) ?_
  rw [tokens_cleared]
  exact id

namespace Stops

/-- The scope in which the processes are shut down has the second token that the run makes, and the
moment at which the last stage is entered decides its deadline. -/
theorem scope_eq (h : Stops sch sup outer e e₁ e₂) :
    scope sch sup outer e₂ = sup.shutdownScope e e₂.now := by
  show Scope.mk [_] (some (_ + _)) = Scope.mk [_] (some (_ + _))
  rw [h.next_eq, now_takeCause]

/-- At the end of a run the record tells whether a scope is cancelled. -/
theorem tells_run (h : Stops sch sup outer e e₁ e₂) (he : e.Fresh) (s : Scope) :
    Tells e s (sup.run sch outer e).1 := by
  obtain ⟨os, hvisits, -⟩ := h.prepared
  have hprepared : Tells e s e₁ := (path_prepared he hvisits).preserves
    (fun _ _ hmove h => tells_moves h hmove) (tells_fresh he s)
  have hstart : Tells e s (sup.start outer e₁).1 :=
    hprepared.of_eq rfl (filterMap_entries_of_none _ rfl rfl)
  exact h.preserves_run (fun _ _ => True) (fun _ _ _ _ _ => trivial) trivial
    (fun _ _ hmove h => tells_moves h hmove)
    (fun e h => h.of_eq (by rw [tokens_cleared]) (cancellations_cleared e)) hstart

/-- All processes that are shut down see the same scope. -/
theorem sees_run (h : Stops sch sup outer e e₁ e₂) (he : e.Fresh) :
    Sees (scope sch sup outer e₂) (sup.run sch outer e).1 := by
  obtain ⟨os, hvisits, -⟩ := h.prepared
  have hnone : (sup.start outer e₁).1.calls .close = [] :=
    (filterMap_entries_of_none _ rfl rfl).trans (filterMap_prepared he hvisits _
      (fun _ hx => hx.ofEntry?_eq_none (by simp) (by simp)) (fun _ _ _ => rfl))
  have hstart : Sees (scope sch sup outer e₂) (sup.start outer e₁).1 := by
    constructor <;> simp [hnone]
  exact h.preserves_run (fun _ _ => True) (fun _ _ _ _ _ => trivial) trivial
    (fun _ _ hmove h => Sees.moves h hmove) (fun _ => Sees.cleared) hstart

/-- If the clock can show the end of the time to shut down, some process is shut down if there is
any. -/
theorem calls_ne_nil (h : Stops sch sup outer e e₁ e₂) (he : e.Fresh)
    (hfits : e₂.now + sup.closeTimeout < clockLimit) (hsome : sup.processes ≠ []) :
    (sup.run sch outer e).1.calls .close ≠ [] := by
  intro hnone
  -- otherwise all calls have come back, and the run has gone through all its stages
  have hcloses : (sup.run sch outer e).1.ClosesReturn := by
    unfold ClosesReturn
    simp [hnone]
  obtain ⟨os, hcompleted⟩ := h.completed_of_closesReturn he hfits hcloses
  have hpos : 0 < sup.processes.length := List.length_pos_iff.2 hsome
  have hmem : .called .close 0 ∈ (sup.run sch outer e).1.deeds := by
    rw [hcompleted.deeds]
    simp [fullCourse, Deed.visits, hpos]
  obtain ⟨c, hc, -⟩ := exists_call_of_mem_deeds hmem
  rw [hnone] at hc
  cases hc

end Stops

/-- **The processes share one fresh time limit, whatever becomes of the outer scope.**  If the clock
can show the end of the time to shut down, all processes are shut down in one scope that has no
ancestor and ends `closeTimeout` after the last stage was entered, the first of them at once.  Each
of them, in reverse order, begins when the time that those before it took is over, and has left what
they have left.  The scope is cancelled only if some process does so, in whatever phase and by
whatever clone; if none does, no process finds it cancelled, it is done for a process just in case
its deadline is over, and it is not cancelled at the end. -/
theorem shutdown_budget (sch : Schedule W) (sup : Supervisor W) (outer : Scope) {e : Engine W}
    (he : e.Fresh) (hissues : e.Issues outer) {time : Nat}
    (hstopping : (sup.run sch outer e).1.enteredAt? .stopping = some time)
    (hfits : time + sup.closeTimeout < clockLimit) :
    (∃ running cause e', sup.closingScope e' = sup.shutdownScope e time ∧
      StopEnds sch sup running cause e' (sup.run sch outer e)) ∧
    (sup.processes ≠ [] → (sup.run sch outer e).1.calls .close ≠ []) ∧
    ((sup.run sch outer e).1.calls .close).map Call.index <+:
      (List.range sup.processes.length).reverse ∧
    (∀ k c, ((sup.run sch outer e).1.calls .close)[k]? = some c →
      c.time = time + (((sup.run sch outer e).1.durations .close).take k).sum ∧
      c.moment.remaining =
        some (sup.closeTimeout - (((sup.run sch outer e).1.durations .close).take k).sum)) ∧
    ((∀ p ∈ sup.processes, ∀ phase later, ¬ p.Cancels phase later .close) →
      ∀ x ∈ (sup.run sch outer e).1.cancellations, x.2 ≠ (sup.shutdownScope e time).token) ∧
    ((∀ x ∈ (sup.run sch outer e).1.cancellations, x.2 ≠ (sup.shutdownScope e time).token) →
      (∀ c ∈ (sup.run sch outer e).1.calls .close, c.moment.cancelled = false ∧
        c.moment.done = decide (time + sup.closeTimeout ≤ c.time)) ∧
      (sup.shutdownScope e time).isCancelled (sup.run sch outer e).1.tokens = false) := by
  obtain ⟨e₁, e₂, hstops⟩ := stops_of_entered he (.inl (entered_mem_deeds hstopping))
  obtain rfl : e₂.now = time :=
    Option.some.inj ((hstops.enteredAt?_stopping he).symm.trans hstopping)
  have hscope := hstops.scope_eq
  have hsees := hstops.sees_run he
  obtain ⟨hindices, hturns, hsorted⟩ := hstops.turns he
  have hcause : ∀ x ∈ (sup.run sch outer e).1.cancellations,
      x.2 <:+ (sup.shutdownScope e e₂.now).token → x.2 = (sup.shutdownScope e e₂.now).token ∧
        ∃ p ∈ sup.processes, ∃ phase later, p.Cancels phase later .close := by
    intro x hx hsuffix
    obtain ⟨y, earlier, hrecorded, -, hevent⟩ := recorded_of_mem_cancellations hx
    obtain ⟨later, haccounted⟩ := (observed_run sch sup he hissues).accounts y earlier hrecorded
      x.2 hevent
    obtain ⟨htoken, k, phase, later, hresponsible⟩ :=
      haccounted.of_suffix_close hissues.outer hsuffix
    obtain ⟨p, hp, hcancels⟩ := hresponsible.cancels
    exact ⟨htoken, p, List.mem_of_getElem? hp, phase, later, hcancels⟩
  rw [hscope] at hsees
  refine ⟨⟨_, _, _, hscope, hstops.ends⟩, hstops.calls_ne_nil he hfits, hindices, ?_, ?_, ?_⟩
  · intro k c hc
    have htime := time_eq_add_sum hturns hsorted hc
    refine ⟨htime, ?_⟩
    rw [hsees.moment c (List.mem_of_getElem? hc)]
    show some (e₂.now + sup.closeTimeout - c.time) = _
    rw [htime, Nat.add_sub_add_left]
    rfl
  · intro hnever x hx hsame
    obtain ⟨-, p, hp, phase, later, hcancels⟩ := hcause x hx (hsame ▸ List.suffix_refl _)
    exact hnever p hp phase later hcancels
  · intro hnever
    have hend :
        (sup.shutdownScope e e₂.now).isCancelled (sup.run sch outer e).1.tokens = false := by
      rw [← Bool.not_eq_true, (hstops.tells_run he _).isCancelled_iff]
      rintro (hbefore | ⟨x, hx, hsuffix⟩)
      · obtain ⟨t, ht, hsuffix⟩ := List.any_eq_true.1 hbefore
        exact (hissues.cancelled t ht).not_suffix (Nat.le_succ _)
          (List.isSuffixOf_iff_suffix.1 hsuffix)
      · exact hnever x hx (hcause x hx hsuffix).1
    refine ⟨fun c hc => ?_, hend⟩
    have hcancelled : c.moment.cancelled = false := by
      rw [← Bool.not_eq_true]
      intro h
      exact absurd (hsees.cancelled c hc h) (by simp [hend])
    refine ⟨hcancelled, ?_⟩
    rw [hsees.moment c hc]
    show (c.moment.cancelled || decide (e₂.now + sup.closeTimeout ≤ c.time)) = _
    rw [hcancelled, Bool.false_or]

/-- The outer scope is cancelled during the startup delay, and three processes take 30 milliseconds
each to shut down within 50: the scope of the shutdowns is not cancelled, and the second of them has
20 milliseconds left. -/
theorem shutdown_budget_three :
    let slow : Component Unit := { close := .sleep (30 * Duration.nanosPerMilli) }
    let sup : Supervisor Unit :=
      { processes := [slow, slow, slow], closeTimeout := 50 * Duration.nanosPerMilli }
    let start := begin () ⟨1, []⟩ [(10 * Duration.nanosPerMilli, [0])]
    let r := sup.run .usual ⟨[0], none⟩ start
    (∀ c ∈ r.1.calls .close, c.moment.cancelled = false) ∧
      ∀ c, (r.1.calls .close)[1]? = some c → c.moment.remaining =
        some (50 * Duration.nanosPerMilli - [30 * Duration.nanosPerMilli].sum) := by
  intro slow sup start r
  have hissues : start.Issues ⟨[0], none⟩ := by
    constructor <;> simp [start, begin, Tokens.Issued]
  have hstopping : r.1.enteredAt? .stopping = some (100 * Duration.nanosPerMilli) := by
    decide +kernel
  have hdurations : (r.1.durations .close).take 1 = [30 * Duration.nanosPerMilli] := by
    decide +kernel
  obtain ⟨-, -, -, hremaining, hnever, huncancelled⟩ := shutdown_budget .usual sup ⟨[0], none⟩
    (fresh_begin () ⟨1, []⟩ [(10 * Duration.nanosPerMilli, [0])]) hissues hstopping
    (by decide +kernel)
  have hslow : ∀ p ∈ sup.processes, ∀ phase later, ¬ p.Cancels phase later .close := by
    intro p hp phase later
    obtain rfl : p = slow := by simpa [sup] using hp
    cases phase <;> simp [Component.Cancels, Component.code, slow, Routine.sleep]
  refine ⟨fun c hc => ?_, fun c hc => ?_⟩
  · exact ((huncancelled (hnever hslow)).1 c hc).1
  · rw [← hdurations]
    exact (hremaining 1 c hc).2

end Supervisor

end ServiceHost
