import ServiceHost.Proofs.Lifecycle.Trigger
/-!
What a run returns.

A run that comes to its main stage and returns was ended by the report of a failed run or by its
outer scope.  In the first case it returns that failure; in the second, the failure to shut down the
process with the highest index among those that could not be shut down, or success.  Nothing that
happens after the wait, be it a failure of a run or a further failure to shut down, changes that.
-/

namespace ServiceHost.Supervisor

open Engine

variable {W : Type}

/-- Shutting down in strictly decreasing order, the failure with the highest index is returned. -/
theorem closingResult_highest {returns : List (Nat × Outcome)}
    (hsorted : returns.Pairwise fun x y => y.1 < x.1) {i : Nat} {s : ComponentError}
    (hmem : (i, .failed s) ∈ returns) (hhighest : ∀ j t, (j, .failed t) ∈ returns → j ≤ i) :
    closingResult (.ok ()) returns = .error (.shutdown i s) := by
  rcases closingResult_ok returns with ⟨hnone, -⟩ | ⟨before, j, t, after, rfl, hbefore, herror⟩
  · exact absurd hmem (hnone i s)
  · rcases List.mem_append.1 hmem with hmem | hmem
    · exact absurd hmem (hbefore i s)
    · rcases List.mem_cons.1 hmem with heq | hmem
      · cases heq
        exact herror
      · -- a failure after the first one has a smaller index
        have hlt := List.rel_of_pairwise_cons (List.pairwise_append.1 hsorted).2.1 hmem
        have hle := hhighest j t (List.mem_append_right _ List.mem_cons_self)
        exact absurd hle (Nat.not_le.2 hlt)

/-- Without a failure to shut down there is nothing to return. -/
theorem closingResult_none {returns : List (Nat × Outcome)}
    (hnone : ∀ i s, (i, .failed s) ∉ returns) : closingResult (.ok ()) returns = .ok () := by
  rcases closingResult_ok returns with ⟨-, hok⟩ | ⟨before, j, t, after, rfl, -, -⟩
  · exact hok
  · exact absurd (List.mem_append_right _ List.mem_cons_self) (hnone j t)

variable {sch : Schedule W} {sup : Supervisor W} {outer : Scope} {e e₁ e₂ : Engine W}

namespace Completed

variable {cause : Option Report} {os : List Outcome} {ending : Ending}

/-- All processes were shut down, in reverse order. -/
theorem map_fst_returns (h : Completed sup cause os e ending) :
    (e.returns .close).map Prod.fst = (List.range sup.processes.length).reverse := by
  rw [h.returns]
  exact List.map_fst_zip (by simp [h.length])

theorem returns_sorted (h : Completed sup cause os e ending) :
    (e.returns .close).Pairwise fun x y => y.1 < x.1 := by
  rw [← List.pairwise_map (f := Prod.fst) (R := fun i j => j < i), h.map_fst_returns]
  exact List.pairwise_reverse.2 List.pairwise_lt_range

/-- The result is made of what ended the wait and of how the shutdowns came back. -/
theorem result_eq (h : Completed sup cause os e ending) {result : Except HostError Unit}
    (hreturned : ending = .returned result) :
    result = closingResult (causeResult cause) (e.returns .close) := by
  rw [h.returns]
  exact Ending.returned.inj (hreturned.symm.trans h.ending)

end Completed

namespace Stops

/-- What ended the wait: the first failure there was, or the outer scope was done. -/
theorem cause_cases (h : Stops sch sup outer e e₁ e₂) (he : e.Fresh) :
    (∃ f ∈ e₂.failures.head?, (takeCause sch outer e₂).2 = some f.2 ∧
        ¬(outer.isDone e₂.tokens e₂.now = true ∧ sch.scopeFirst e₂ = true)) ∨
      ((takeCause sch outer e₂).2 = none ∧ outer.isDone e₂.tokens e₂.now = true ∧
        (e₂.failures = [] ∨ sch.scopeFirst e₂ = true)) := by
  obtain ⟨hpending, hreason⟩ := h.pending he
  have hreports := hpending.collects.reports
  rcases takeCause_cases sch outer e₂ with ⟨heq, hnone⟩ | ⟨r, rest, hcons, hfirst, heq⟩
  · -- nothing was received, so the scope was done: there was no report, or it counted first
    refine .inr ⟨by rw [heq], ?_⟩
    rcases hnone with hnil | ⟨hdone, hfirst⟩
    · refine ⟨hreason.resolve_left (absurd hnil), .inl ?_⟩
      rw [hnil] at hreports
      exact List.map_eq_nil_iff.1 hreports.symm
    · exact ⟨hdone, .inr hfirst⟩
  · rw [hcons] at hreports
    cases hfailures : e₂.failures with
    | nil => simp [hfailures] at hreports
    | cons f later =>
      rw [hfailures, List.map_cons] at hreports
      obtain ⟨rfl, -⟩ := List.cons.inj hreports
      exact .inl ⟨f, rfl, by rw [heq], hfirst⟩

end Stops

/-- **What ended the wait decides first, then the first failure to shut down.**  A run that comes to
its main stage and returns has received one report, of a run that had failed by then, and returns
it; or it has received none, its outer scope was done, and it returns the failure to shut down the
process with the highest index, or success if there is none. -/
theorem result_precedence (sch : Schedule W) (sup : Supervisor W) (outer : Scope) {e : Engine W}
    (he : e.Fresh) {result : Except HostError Unit}
    (hrunning : .running ∈ (sup.run sch outer e).1.stages)
    (hreturned : (sup.run sch outer e).2 = .returned result) :
    ∃ time, (sup.run sch outer e).1.enteredAt? .stopping = some time ∧
      ((sup.run sch outer e).1.returns .close).map Prod.fst =
        (List.range sup.processes.length).reverse ∧
      ((∃ r, (sup.run sch outer e).1.received = [r] ∧
          (∃ t ≤ time, (t, r) ∈ (sup.run sch outer e).1.failures) ∧
          result = .error (.process r.index r.source)) ∨
        ((sup.run sch outer e).1.received = [] ∧
          DoneBy e (sup.run sch outer e).1 outer time ∧
          (∀ i s, (i, .failed s) ∈ (sup.run sch outer e).1.returns .close →
            (∀ j t, (j, .failed t) ∈ (sup.run sch outer e).1.returns .close → j ≤ i) →
            result = .error (.shutdown i s)) ∧
          ((∀ i s, (i, .failed s) ∉ (sup.run sch outer e).1.returns .close) →
            result = .ok ()))) := by
  obtain ⟨e₁, e₂, hstops⟩ := stops_of_entered he (.inr ⟨mem_stages_iff.1 hrunning, _, hreturned⟩)
  obtain ⟨os, hcompleted⟩ := hstops.completed_of_returned he hreturned
  obtain ⟨hpending, -⟩ := hstops.pending he
  have hresult := hcompleted.result_eq hreturned
  have hreceived := hcompleted.received
  refine ⟨e₂.now, hstops.enteredAt?_stopping he, hcompleted.map_fst_returns, ?_⟩
  rcases hstops.cause_cases he with ⟨⟨t, r⟩, hhead, hcause, -⟩ | ⟨hcause, hdone, -⟩
  · rw [hcause] at hresult hreceived
    have hfailed : (t, r) ∈ e₂.failures := List.mem_of_head? hhead
    refine .inl ⟨r, hreceived, ⟨t, ?_, ?_⟩, hresult.trans (closingResult_error _ _)⟩
    · exact hpending.ordered.failures_le hfailed
    · exact (hstops.adds.prefix_filterMap _).subset hfailed
  · rw [hcause] at hresult hreceived
    have hdone_by := (hpending.tells.isDone_iff hpending.ordered).1 hdone
    refine .inr ⟨hreceived, hstops.adds.doneBy hdone_by, ?_, ?_⟩
    · intro i s hmem hhighest
      exact hresult.trans (closingResult_highest hcompleted.returns_sorted hmem hhighest)
    · intro hnone
      exact hresult.trans (closingResult_none hnone)

/-- A run fails, and then no process can be shut down: the failure of the run is returned. -/
theorem result_precedence_both :
    let boom : ComponentError := .text "boom"
    let late : ComponentError := .text "late"
    let r := ({ processes := [{ run := .finish (.failed boom), close := .finish (.failed late) },
        { close := .finish (.failed late) }] } : Supervisor Unit).run .usual ⟨[0], none⟩
      (begin () ⟨1, []⟩ [])
    ∃ x, r.1.received = [x] ∧ (∃ t ≤ 100 * Duration.nanosPerMilli, (t, x) ∈ r.1.failures) ∧
      HostError.process x.index x.source = .process 0 boom := by
  intro boom late r
  have hrunning : .running ∈ r.1.stages := by decide +kernel
  have hreturned : r.2 = .returned (.error (.process 0 boom)) := by decide +kernel
  have hreceived : r.1.received ≠ [] := by decide +kernel
  have hstopping : r.1.enteredAt? .stopping = some (100 * Duration.nanosPerMilli) := by
    decide +kernel
  obtain ⟨time, htime, -, ⟨x, hx, hfailed, hresult⟩ | ⟨hnone, -⟩⟩ :=
    result_precedence .usual _ ⟨[0], none⟩ (fresh_begin () ⟨1, []⟩ []) hrunning hreturned
  · cases hstopping.symm.trans htime
    exact ⟨x, hx, hfailed, (Except.error.inj hresult).symm⟩
  · exact absurd hnone hreceived

end ServiceHost.Supervisor
