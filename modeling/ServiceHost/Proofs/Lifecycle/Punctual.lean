import ServiceHost.Proofs.Lifecycle.Drain
import ServiceHost.Proofs.Lifecycle.Performing
/-!
Supervisors of punctual processes.

A process is punctual if its shutdown takes no longer than the time that its scope has left,
whatever that is, and does not panic.  All shutdowns of a run share one deadline, and each of them
takes what the ones before it have left, so if all processes are punctual the last one comes back by
the deadline, and so does the drain after it (`Stops.punctual`).
-/

namespace ServiceHost

open Relation Engine

variable {W : Type}

/-! ### Punctual processes -/

/-- A shutdown that takes no longer than the time left in its scope, and does not panic. -/
structure Component.Punctual (p : Component W) : Prop where
  limit : ∀ d, ∃ d' ≤ d, p.close.limit? (some d) = some d'
  unpanicked : ¬ p.close.CanEnd .panicked

/-- A routine that comes back has come to an end of its code. -/
theorem Engine.Performs.canEnd {s : Scope} {allowance : Option Nat} {code : Routine W}
    {e : Engine W} {r : Engine W × Returned} (h : Performs s allowance code e r) {o : Outcome}
    (ho : r.2 = .outcome o) : code.CanEnd o := by
  have hlater {i : Instruction W} {rest : Routine W} (h : rest.CanEnd o) :
      Routine.CanEnd (i :: rest) o := by
    obtain ⟨code, hsuffix, hends⟩ := h
    exact ⟨code, hsuffix.trans (List.suffix_cons i rest), hends⟩
  induction h with
  | stop =>
    cases ho
    exact ⟨[], List.suffix_refl _, .stop⟩
  | never => cases ho
  | pause _ _ _ ih | cancel _ _ ih | goOn _ _ _ ih => exact hlater (ih ho)
  | finish _ gives =>
    cases ho
    exact ⟨_, List.suffix_refl _, .act gives⟩

/-- The shutdown of a punctual process comes back by the deadline of its scope, without a panic. -/
theorem Component.Punctual.call {p : Component W} (h : p.Punctual) (sch : Schedule W) (index : Nat)
    {s : Scope} {deadline : Nat} (hdeadline : s.deadline = some deadline) {e : Engine W}
    (hnow : e.now ≤ deadline) :
    ∃ e' o, e.call sch .close index s p.close = (e', .outcome o) ∧ e'.now ≤ deadline ∧
      o ≠ .panicked := by
  obtain ⟨d, hd, hlimit⟩ := h.limit (deadline - e.now)
  have hremaining : s.remaining e.now = some (deadline - e.now) := by
    rw [Scope.remaining, hdeadline]
    rfl
  have hlimit' : p.close.limit? (s.remaining e.now) = some d := hremaining ▸ hlimit
  obtain ⟨e', o, hcall, hreturned⟩ := call_within hlimit' sch .close index
  refine ⟨e', o, hcall, by omega, ?_⟩
  rintro rfl
  obtain ⟨e₁, hperforms, -⟩ := performs_of_call hcall
  exact h.unpanicked (hperforms.canEnd rfl)

namespace Supervisor

variable {sch : Schedule W} {sup : Supervisor W} {outer scope : Scope} {e e₁ e₂ : Engine W}
  {row : List (Nat × Component W)} {deadline : Nat}

/-- The shutdowns of punctual processes come back by the deadline. -/
theorem now_le_of_visits {os : List Outcome}
    (h : Visits sch .close scope Component.close row e os e₁)
    (hdeadline : scope.deadline = some deadline) (hrow : ∀ x ∈ row, x.2.Punctual)
    (hnow : e.now ≤ deadline) : e₁.now ≤ deadline := by
  induction h with
  | nil => exact hnow
  | @cons index p row e e₁ e₂ o os hfirst _ ih =>
    obtain ⟨hp, hothers⟩ := List.forall_mem_cons.1 hrow
    obtain ⟨e', o', hcall, hreturned, -⟩ := hp.call sch index hdeadline hnow
    obtain ⟨rfl, -⟩ := Prod.mk.inj (hcall.symm.trans hfirst)
    exact ih hothers hreturned

/-- A row of shutdowns of punctual processes does not stop anywhere. -/
theorem not_breaks {index : Nat} {r : Returned}
    (h : Breaks sch .close scope Component.close (· ≠ .panicked) row e index r e₁)
    (hdeadline : scope.deadline = some deadline) (hrow : ∀ x ∈ row, x.2.Punctual)
    (hnow : e.now ≤ deadline) : False := by
  obtain ⟨hvisits, -, hcall, hbad⟩ := h
  rw [List.forall_mem_append, List.forall_mem_cons] at hrow
  have hnow' := now_le_of_visits hvisits hdeadline hrow.1 hnow
  obtain ⟨e', o, hcall', -, hgood⟩ := hrow.2.1.call sch index hdeadline hnow'
  obtain ⟨-, rfl⟩ := Prod.mk.inj (hcall'.symm.trans hcall)
  exact hbad o rfl hgood

/-- A drain is over by the deadline, if that has not passed when it begins. -/
theorem now_drain_le (sch : Schedule W) (deadline : Nat) (e : Engine W) :
    (drain sch deadline e).now ≤ max e.now deadline := by
  have hready (x : Engine W) : ∃ t, drainedAt deadline x = some t ∧ t ≤ max x.now deadline := by
    unfold drainedAt
    split
    · exact ⟨_, rfl, Nat.le_max_left ..⟩
    · exact ⟨_, rfl, Nat.le_refl _⟩
  obtain ⟨e₁, hwaits, hend⟩ := await_waits sch (drainedAt deadline) e
  have hwaited := now_le_of_waits deadline hready hwaits
  -- clearing away takes no time
  have hcleared := congrArg Engine.now (cleared_eq (e.await sch (drainedAt deadline)).1)
  rw [show (drain sch deadline e).now = (e.await sch (drainedAt deadline)).1.now from hcleared]
  generalize e.await sch (drainedAt deadline) = r at hend
  cases hend with
  | @goesOn time able =>
    obtain ⟨t, ht, hle⟩ := hready e₁
    obtain rfl := Option.some.inj (able.symm.trans ht)
    show time ≤ _
    omega
  | never => exact hwaited

/-- **A run of punctual processes is over by its deadline.**  Once it has entered its last stage it
returns, and it does so no later than the close timeout from then. -/
theorem Stops.punctual (h : Stops sch sup outer e e₁ e₂) (he : e.Fresh)
    (hfits : e₂.now + sup.closeTimeout < clockLimit)
    (hpunctual : ∀ p ∈ sup.processes, p.Punctual) :
    ∃ result time, (sup.run sch outer e).2 = .returned result ∧
      (sup.run sch outer e).1.enteredAt? .stopped = some time ∧
      time ≤ e₂.now + sup.closeTimeout := by
  have hrow : ∀ x ∈ sup.numbered.reverse, x.2.Punctual := by
    intro x hx
    obtain ⟨y, hy, rfl⟩ := List.mem_map.1 (List.mem_reverse.1 hx)
    exact hpunctual y.1 (List.fst_mem_of_mem_zipIdx hy)
  have hnow : (takeCause sch outer e₂).1.now = e₂.now := now_takeCause sch outer e₂
  have hbegins : (closing (takeCause sch outer e₂).1).now ≤
      (takeCause sch outer e₂).1.now + sup.closeTimeout := Nat.le_add_right ..
  have hends := h.ends
  generalize sup.run sch outer e = r at hends ⊢
  cases hends with
  | unfit hunfit =>
    rw [hnow] at hunfit
    exact absurd hfits (Nat.not_lt.2 hunfit)
  | hangs _ hbreaks | panics _ hbreaks => exact (not_breaks hbreaks rfl hrow hbegins).elim
  | @closed os e₃ _ hvisits =>
    have hclosed := now_le_of_visits hvisits rfl hrow hbegins
    refine ⟨_, _, rfl, enteredAt?_publish (h.stopped_not_mem he hvisits), ?_⟩
    refine Nat.le_trans (now_drain_le sch _ _) (Nat.max_le.2 ⟨?_, ?_⟩)
    · rw [← hnow]
      exact hclosed
    · rw [hnow]

end Supervisor

end ServiceHost
