import ServiceHost.Proofs.Lifecycle.Preparation
import ServiceHost.Proofs.Lifecycle.Reports
/-!
What ends the wait of a supervisor.

After the startup delay a supervisor waits until its outer scope is done or a run has failed.  The
invariant of that wait is `Supervisor.Pending`: once the clock has gone on, no run had failed and
the outer scope was not done before the present moment.  It holds when the wait begins, since then
the clock stands at the end of the delay, and each step preserves it, since the clock goes on only
while there is nothing that could end the wait.

What has happened by the end of the startup delay is seen at once, and the order in which it
happened is lost.
-/

namespace ServiceHost.Supervisor

open Engine Relation

variable {W : Type}

/-! ### The invariant of the wait -/

/-- What holds while a supervisor waits for its end, from the moment `ready` on. -/
structure Pending (outer : Scope) (start : Engine W) (ready : Nat) (e : Engine W) : Prop where
  ordered : e.Ordered
  collects : e.Collects
  tells : Tells start outer e
  ready_le : ready ≤ e.now
  no_failure : ready < e.now → ∀ f ∈ e.failures, e.now ≤ f.1
  not_done : ready < e.now → ∀ t < e.now, ¬ DoneBy start e outer t

namespace Pending

variable {sch : Schedule W} {outer : Scope} {start e e' : Engine W} {ready : Nat}

/-- If the clock goes on to a moment before which nothing ends the wait, no run has failed and the
scope is not done before that moment. -/
theorem nothing_of_lt (h : Pending outer start ready e) {time : Nat} (hlt : e.now < time)
    (hsoon : ∀ t, causeAt outer e = some t → time ≤ t) :
    e.failures = [] ∧ ∀ t < time, ¬ DoneBy start e outer t := by
  have hreports : e.mailbox.reports = [] := by
    cases hreports : e.mailbox.reports with
    | nil => rfl
    | cons r rest =>
      have hcause : causeAt outer e = some e.now := if_neg (by simp [hreports])
      exact absurd (hsoon _ hcause) (Nat.not_le.2 hlt)
  have hcause : causeAt outer e = outer.doneAt e.tokens e.now := if_pos (by simp [hreports])
  -- a cancelled scope would be done now, before the clock goes on
  have hcancelled : ¬ outer.isCancelled e.tokens = true := by
    intro hcancelled
    have hdone : outer.doneAt e.tokens e.now = some e.now := if_pos hcancelled
    exact absurd (hsoon _ (hcause.trans hdone)) (Nat.not_le.2 hlt)
  refine ⟨?_, ?_⟩
  · have := h.collects.reports
    rw [hreports] at this
    exact List.map_eq_nil_iff.1 this.symm
  · rintro t ht (hstart | ⟨c, hc, -, hsuffix⟩ | ⟨deadline, hdeadline, hle⟩)
    · exact hcancelled (h.tells.isCancelled_iff.2 (.inl hstart))
    · exact hcancelled (h.tells.isCancelled_iff.2 (.inr ⟨c, hc, hsuffix⟩))
    · have hdone : outer.doneAt e.tokens e.now = some (max e.now deadline) := by
        rw [Scope.doneAt, if_neg hcancelled, Option.mem_def.1 hdeadline]
        rfl
      have := hsoon _ (hcause.trans hdone)
      omega

/-- The clock goes on. -/
theorem clock (h : Pending outer start ready e) {time : Nat} (who : Who) (hle : e.now ≤ time)
    (hsoon : ∀ t, causeAt outer e = some t → time ≤ t) :
    Pending outer start ready { e with now := time, active := who } where
  ordered := ⟨h.ordered.sorted, fun x hx => Nat.le_trans (h.ordered.le_now x hx) hle⟩
  collects := h.collects.of_eq rfl rfl (Nat.le_refl _)
  tells := h.tells.of_eq rfl rfl
  ready_le := Nat.le_trans h.ready_le hle
  no_failure hready f hf := by
    rcases Nat.eq_or_lt_of_le hle with rfl | hlt
    · exact h.no_failure hready f hf
    · have hnone : f ∈ e.failures := hf
      rw [(h.nothing_of_lt hlt hsoon).1] at hnone
      cases hnone
  not_done hready := by
    rcases Nat.eq_or_lt_of_le hle with rfl | hlt
    · exact h.not_done hready
    · exact (h.nothing_of_lt hlt hsoon).2

/-- Something happens at the present moment. -/
theorem happens (h : Pending outer start ready e) (hstep : Happens e e') (hnow : e'.now = e.now) :
    Pending outer start ready e' where
  ordered := hstep.adds.ordered h.ordered
  collects := h.collects.happens hstep
  tells := h.tells.happens hstep
  ready_le := hnow ▸ h.ready_le
  no_failure hready f hf := by
    rw [hnow] at hready ⊢
    rcases hstep.adds.mem_failures hf with hold | hnew
    · exact h.no_failure hready f hold
    · exact hnew
  not_done hready t ht hdone := by
    rw [hnow] at hready ht
    exact h.not_done hready t ht (hstep.adds.doneBy_of_lt ht hdone)

/-- Those in the background act, one after the other. -/
theorem row (h : Pending outer start ready e)
    (hsteps : ReflTransGen (Waits (causeAt outer)) e e') : Pending outer start ready e' :=
  preserved_of_waits (fun _ _ who h hle hsoon => h.clock who hle hsoon)
    (fun _ _ h hstep hnow => h.happens hstep hnow) hsteps h

/-- When the wait is over there is a reason for it. -/
theorem await (h : Pending outer start ready e)
    (hwait : e.await sch (causeAt outer) = (e', true)) :
    Pending outer start ready e' ∧
      (e'.mailbox.reports ≠ [] ∨ outer.isDone e'.tokens e'.now = true) := by
  obtain ⟨e₁, hsteps, hend⟩ := await_waits sch (causeAt outer) e
  have h₁ := h.row hsteps
  rw [hwait] at hend
  cases hend with
  | @goesOn time hable hfirst =>
    refine ⟨h₁.clock .caller (now_le_causeAt hable) fun t ht => ?_, ?_⟩
    · exact Nat.le_of_eq (Option.some.inj (hable.symm.trans ht))
    · -- the caller was ready for a report, or at the moment at which the scope is done
      unfold causeAt at hable
      split at hable
      · exact .inr (isDone_of_doneAt hable)
      next hreports =>
        left
        intro hnil
        exact hreports (List.isEmpty_iff.2 hnil)

end Pending

/-! ### The beginning of the wait -/

variable {sch : Schedule W} {sup : Supervisor W} {outer : Scope} {e e₁ e₂ : Engine W}

/-- Waiting for a fixed moment ends at that moment, or at once. -/
theorem now_until (sch : Schedule W) (e : Engine W) (t : Nat) :
    (e.await sch fun e => some (max e.now t)).1.now = max e.now t := by
  obtain ⟨e₁, hsteps, hend⟩ := await_waits sch (fun e => some (max e.now t)) e
  -- no step of the background goes beyond the moment at which the caller is ready
  have hbetween : e.now ≤ e₁.now ∧ e₁.now ≤ max e.now t := by
    clear hend
    induction hsteps with
    | refl => omega
    | tail _ hlast ih =>
      cases hlast with
      | @act who time hable _ hsoon =>
        have hle := now_le_of_mem_background hable
        have hsoon := hsoon _ rfl
        rw [(acts_course hable).2]
        omega
  generalize e.await sch _ = r at hend ⊢
  cases hend with
  | @goesOn time hable =>
    obtain rfl := Option.some.inj hable
    show max e₁.now t = max e.now t
    omega
  | never hunable => cases hunable

/-- The wait for the end begins when the startup delay is over. -/
theorem now_waiting (sch : Schedule W) (sup : Supervisor W) (outer : Scope) (e : Engine W) :
    (waiting sch sup outer e).now = e.now + sup.startupDelay := by
  have hnow := now_until sch (sup.start outer e).1 (e.now + sup.startupDelay)
  have hstart : (sup.start outer e).1.now = e.now := rfl
  rw [hstart, Nat.max_eq_right (Nat.le_add_right ..)] at hnow
  unfold waiting announce
  dsimp only
  split <;> exact hnow

/-- When all tasks have just been made, the mailbox is empty and has room for one report of each. -/
theorem collects_start (hquiet : e.Quiet) : (sup.start outer e).1.Collects := by
  have hfailures : (sup.start outer e).1.failures = [] := by
    rw [start_eq, failures_publish]
    exact hquiet.failures
  have hlive : (sup.start outer e).1.live ≤ sup.processes.length := by
    have hle : (sup.start outer e).1.live ≤
        (sup.tasks (Scope.child e.tokens outer).1 e.now).length := List.countP_le_length
    simpa [tasks] using hle
  refine ⟨?_, ?_⟩
  · rw [hfailures]
    rfl
  · rw [hfailures]
    show 0 + (sup.start outer e).1.live ≤ max sup.processes.length 1
    omega

/-- What holds of a fresh state. -/
theorem tells_fresh (he : e.Fresh) (s : Scope) : Tells e s e := by
  have hnone : e.cancellations = [] := by
    simp [cancellations, entries, he.history, Entry.cancelled?]
  refine ⟨?_⟩
  rw [hnone]
  simp

theorem ordered_fresh (he : e.Fresh) : e.Ordered := by
  constructor <;> simp [entries, he.history]

/-- The invariant holds when the wait begins. -/
theorem pending_waiting {os : List Outcome} (he : e.Fresh)
    (hvisits : Visits sch .prepare outer Component.prepare sup.numbered (e.publish .preRunning)
      os e₁) :
    Pending outer e (e₁.now + sup.startupDelay) (waiting sch sup outer e₁) := by
  have hnow := now_waiting sch sup outer e₁
  have hquiet : e₁.Quiet := kept_quiet.visits hvisits (he.quiet.publish .preRunning)
  have htells : Tells e outer e₁ :=
    (Tells.kept .prepare e outer).visits hvisits ((tells_fresh he outer).publish .preRunning)
  have hstart : Adds (fun _ => True) e₁ (sup.start outer e₁).1 := .of_record rfl rfl trivial
  have hadds : Adds (fun _ => True) e (e.publish .preRunning) := .of_record rfl rfl trivial
  have hprepared := hadds.trans (hvisits.adds.mono fun _ _ => trivial)
  have hwaiting := (adds_waiting sch sup outer e₁).mono fun _ _ => trivial
  have hordered := ((hprepared.trans hstart).trans hwaiting).ordered (ordered_fresh he)
  -- the clock stands at the end of the delay, so the last two parts say nothing yet
  refine ⟨hordered, ?_, ?_, Nat.le_of_eq hnow.symm, ?_, ?_⟩
  · refine waiting_preserves (fun _ _ hstep h => h.happens hstep) (fun e h => ?_)
      (collects_start hquiet)
    exact h.of_eq rfl (filterMap_entries_of_none _ rfl rfl) (Nat.le_refl _)
  · refine waiting_preserves (fun _ _ hstep h => h.happens hstep) (fun e h => ?_)
      (htells.of_eq rfl (filterMap_entries_of_none _ rfl rfl))
    exact h.of_eq rfl (filterMap_entries_of_none _ rfl rfl)
  · intro hlt
    omega
  · intro hlt
    omega

/-! ### The end of the wait -/

namespace Stops

/-- The invariant and the reason for the end of the wait, when a run comes to its last stage. -/
theorem pending (h : Stops sch sup outer e e₁ e₂) (he : e.Fresh) :
    Pending outer e (e₁.now + sup.startupDelay) e₂ ∧
      (e₂.mailbox.reports ≠ [] ∨ outer.isDone e₂.tokens e₂.now = true) := by
  obtain ⟨os, hvisits, -⟩ := h.prepared
  exact (pending_waiting he hvisits).await h.wait

/-- All that is on record at the end of the run comes after what is on record at the end of the
wait. -/
theorem adds (h : Stops sch sup outer e e₁ e₂) :
    Adds (fun _ => True) e₂ (sup.run sch outer e).1 := by
  have hcause : Adds (fun _ => True) e₂ (takeCause sch outer e₂).1 := by
    rcases takeCause_cases sch outer e₂ with ⟨heq, -⟩ | ⟨r, rest, -, -, heq⟩
    · rw [heq]
      exact .refl ..
    · rw [heq]
      exact .of_record rfl rfl trivial
  have hpublish : Adds (fun _ => True) (takeCause sch outer e₂).1
      ((takeCause sch outer e₂).1.publish .stopping) := .of_record rfl rfl trivial
  exact (hcause.trans hpublish).trans h.ends.adds

/-- The main stage is entered when all processes have been prepared. -/
theorem enteredAt?_running (h : Stops sch sup outer e e₁ e₂) (he : e.Fresh) :
    (sup.run sch outer e).1.enteredAt? .running = some e₁.now := by
  obtain ⟨os, hvisits, -⟩ := h.prepared
  have hfirst : .entered .running ∉ e₁.deeds := by
    rw [hvisits.deeds_eq (by simp), deeds_publish_preRunning he]
    simp [Deed.visits]
  have hstart : (sup.start outer e₁).1.enteredAt? .running = some e₁.now :=
    enteredAt?_publish (e := { e₁ with tokens := _, tasks := _, mailbox := _ }) hfirst
  exact h.adds.enteredAt?_eq (h.course.adds.enteredAt?_eq
    ((adds_waiting sch sup outer e₁).enteredAt?_eq hstart))

end Stops

end ServiceHost.Supervisor
