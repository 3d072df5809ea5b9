import ServiceHost.Proofs.Lifecycle.Result
/-!
Whether what happened first ends a run.

Two things end the wait of a supervisor: a run fails, or the outer scope is done.  The wait begins
only when the startup delay is over.  If not both have happened by then, the one that happens first
decides the result, for every schedule.  What has happened before the end of the delay is seen at
the same moment, and then the schedule decides and not the order: with `Schedule.scopeFirst` the
outer scope wins although a run failed before, and without it the failure wins although the scope
was done before.
-/

namespace ServiceHost.Supervisor

open Engine

variable {W : Type}

/-- A run returns the failure that came first, or one of the first. -/
def ReturnsFirst (e : Engine W) (result : Except HostError Unit) : Prop :=
  ∃ f ∈ e.failures, (∀ g ∈ e.failures, f.1 ≤ g.1) ∧ result = .error (.process f.2.index f.2.source)

/-- A run does not return the failure of a run. -/
def ReturnsNoFailure (result : Except HostError Unit) : Prop :=
  ∀ i s, result ≠ .error (.process i s)

/-- What happened first decides the result of a run from `start` to `e`: the first failure, if some
run failed before the outer scope was done, and no failure, if the outer scope was done before the
first run failed. -/
def FirstCauseWins (start e : Engine W) (outer : Scope) (result : Except HostError Unit) : Prop :=
  (∀ f ∈ e.failures, ¬ DoneBy start e outer f.1 → ReturnsFirst e result) ∧
    ∀ t, DoneBy start e outer t → (∀ f ∈ e.failures, t < f.1) → ReturnsNoFailure result

variable {sch : Schedule W} {sup : Supervisor W} {outer : Scope} {e e₁ e₂ : Engine W}
  {result : Except HostError Unit}

namespace Stops

/-- The first failure at the end of the wait is the first of all. -/
theorem returnsFirst_of_head (h : Stops sch sup outer e e₁ e₂) (he : e.Fresh) {f : Nat × Report}
    (hhead : f ∈ e₂.failures.head?) (hresult : result = .error (.process f.2.index f.2.source)) :
    ReturnsFirst (sup.run sch outer e).1 result := by
  have hordered := (h.pending he).1.ordered
  have hmem : f ∈ e₂.failures := List.mem_of_head? hhead
  refine ⟨f, (h.adds.prefix_filterMap _).subset hmem, fun g hg => ?_, hresult⟩
  rcases h.adds.mem_failures hg with hold | hlater
  · obtain ⟨rest, hrest⟩ := List.head?_eq_some_iff.1 hhead
    have hsorted := hordered.failures_sorted
    rw [hrest] at hsorted hold
    rcases List.mem_cons.1 hold with rfl | hold
    · exact Nat.le_refl _
    · exact List.rel_of_pairwise_cons hsorted hold
  · exact Nat.le_trans (hordered.failures_le hmem) hlater

/-- How a run that returns was ended, and what it returns. -/
theorem returns_cases (h : Stops sch sup outer e e₁ e₂) (he : e.Fresh)
    (hreturned : (sup.run sch outer e).2 = .returned result) :
    (∃ f ∈ e₂.failures.head?, result = .error (.process f.2.index f.2.source) ∧
        ¬(outer.isDone e₂.tokens e₂.now = true ∧ sch.scopeFirst e₂ = true)) ∨
      (ReturnsNoFailure result ∧ outer.isDone e₂.tokens e₂.now = true ∧
        (e₂.failures = [] ∨ sch.scopeFirst e₂ = true)) := by
  obtain ⟨os, hcompleted⟩ := h.completed_of_returned he hreturned
  have hresult := hcompleted.result_eq hreturned
  rcases h.cause_cases he with ⟨f, hhead, hcause, hchoice⟩ | ⟨hcause, hdone, hchoice⟩
  · rw [hcause, causeResult, closingResult_error] at hresult
    exact .inl ⟨f, hhead, hresult, hchoice⟩
  · rw [hcause, causeResult] at hresult
    refine .inr ⟨fun i s hfailure => ?_, hdone, hchoice⟩
    rcases closingResult_ok ((sup.run sch outer e).1.returns .close) with
      ⟨-, hok⟩ | ⟨_, _, _, _, -, -, herror⟩
    · cases hfailure.symm.trans (hresult.trans hok)
    · cases hfailure.symm.trans (hresult.trans herror)

/-- A run that had failed before the end of the wait was seen. -/
theorem mem_failures_of_lt (h : Stops sch sup outer e e₁ e₂) {f : Nat × Report}
    (hf : f ∈ (sup.run sch outer e).1.failures) (hlt : f.1 < e₂.now) : f ∈ e₂.failures :=
  (h.adds.mem_failures hf).resolve_right (Nat.not_le.2 hlt)

/-- If not both causes came by the end of the startup delay, the first one decides. -/
theorem firstCauseWins (h : Stops sch sup outer e e₁ e₂) (he : e.Fresh)
    (hreturned : (sup.run sch outer e).2 = .returned result)
    (hnot : ¬ DoneBy e (sup.run sch outer e).1 outer (e₁.now + sup.startupDelay) ∨
      ∀ f ∈ (sup.run sch outer e).1.failures, e₁.now + sup.startupDelay < f.1) :
    FirstCauseWins e (sup.run sch outer e).1 outer result := by
  obtain ⟨hpending, -⟩ := h.pending he
  have hcases := h.returns_cases he hreturned
  refine ⟨?_, ?_⟩
  · -- a run failed first: the outer scope cannot have ended the wait
    intro f hf hbefore
    rcases hcases with ⟨g, hhead, hresult, -⟩ | ⟨-, hscope, -⟩
    · exact h.returnsFirst_of_head he hhead hresult
    · exfalso
      have hnow := h.adds.doneBy ((hpending.tells.isDone_iff hpending.ordered).1 hscope)
      have hlt : f.1 < e₂.now := Nat.lt_of_not_le fun hle => hbefore (hnow.mono hle)
      -- the clock has not gone on since the delay, or the failure would have ended the wait
      have hstill : ¬ e₁.now + sup.startupDelay < e₂.now := by
        intro hgone
        have hle := hpending.no_failure hgone f (h.mem_failures_of_lt hf hlt)
        omega
      rcases hnot with hnot | hnot
      · exact hnot (hnow.mono (Nat.le_of_not_lt hstill))
      · have hlater := hnot f hf
        omega
  · -- the outer scope was done first: no failure can have ended the wait
    intro t ht hlater
    rcases hcases with ⟨g, hhead, hresult, -⟩ | ⟨hresult, -⟩
    · exfalso
      have hmem : g ∈ e₂.failures := List.mem_of_head? hhead
      have hg : g ∈ (sup.run sch outer e).1.failures := (h.adds.prefix_filterMap _).subset hmem
      have hle := hpending.ordered.failures_le hmem
      have hlt : t < e₂.now := Nat.lt_of_lt_of_le (hlater g hg) hle
      have hstill : ¬ e₁.now + sup.startupDelay < e₂.now := by
        intro hgone
        exact hpending.not_done hgone t hlt (h.adds.doneBy_of_lt hlt ht)
      rcases hnot with hnot | hnot
      · exact hnot (ht.mono (Nat.le_trans (Nat.le_of_lt hlt) (Nat.le_of_not_lt hstill)))
      · have hgreater := hnot g hg
        omega
    · exact hresult

/-- If the outer scope was done before the end of the startup delay and the schedule lets it count
first, no failure is returned. -/
theorem returnsNoFailure (h : Stops sch sup outer e e₁ e₂) (he : e.Fresh)
    (hreturned : (sup.run sch outer e).2 = .returned result)
    (hchoice : ∀ x, sch.scopeFirst x = true) {t : Nat} (ht : t < e₁.now + sup.startupDelay)
    (hdone : DoneBy e (sup.run sch outer e).1 outer t) : ReturnsNoFailure result := by
  obtain ⟨hpending, -⟩ := h.pending he
  rcases h.returns_cases he hreturned with ⟨-, -, -, hnot⟩ | ⟨hresult, -⟩
  · have hlt : t < e₂.now := Nat.lt_of_lt_of_le ht hpending.ready_le
    have hnow : DoneBy e e₂ outer e₂.now := (h.adds.doneBy_of_lt hlt hdone).mono (Nat.le_of_lt hlt)
    exact absurd ⟨(hpending.tells.isDone_iff hpending.ordered).2 hnow, hchoice e₂⟩ hnot
  · exact hresult

/-- If a run failed before the end of the startup delay and the schedule does not let the outer
scope count first, the first failure is returned. -/
theorem returnsFirst (h : Stops sch sup outer e e₁ e₂) (he : e.Fresh)
    (hreturned : (sup.run sch outer e).2 = .returned result)
    (hchoice : ∀ x, sch.scopeFirst x = false) {f : Nat × Report}
    (hf : f ∈ (sup.run sch outer e).1.failures) (hlt : f.1 < e₁.now + sup.startupDelay) :
    ReturnsFirst (sup.run sch outer e).1 result := by
  rcases h.returns_cases he hreturned with ⟨g, hhead, hresult, -⟩ | ⟨-, -, hnone | hfirst⟩
  · exact h.returnsFirst_of_head he hhead hresult
  · have hready := (h.pending he).1.ready_le
    have hmem := h.mem_failures_of_lt hf (Nat.lt_of_lt_of_le hlt hready)
    rw [hnone] at hmem
    cases hmem
  · cases (hchoice e₂).symm.trans hfirst

end Stops

/-- A run that returns the first failure returns a failure. -/
theorem ReturnsFirst.not_returnsNoFailure {e : Engine W} (h : ReturnsFirst e result) :
    ¬ ReturnsNoFailure result := by
  obtain ⟨f, -, -, hresult⟩ := h
  exact fun hnone => hnone _ _ hresult

/-- If no failure is returned, the first cause has won just in case no run failed before the outer
scope was done. -/
theorem ReturnsNoFailure.firstCauseWins_iff (h : ReturnsNoFailure result) (start e : Engine W)
    (outer : Scope) :
    FirstCauseWins start e outer result ↔ ∀ f ∈ e.failures, DoneBy start e outer f.1 := by
  constructor
  · intro hwins f hf
    apply Decidable.byContradiction
    intro hbefore
    exact (hwins.1 f hf hbefore).not_returnsNoFailure h
  · intro hdone
    exact ⟨fun f hf hbefore => absurd (hdone f hf) hbefore, fun _ _ _ => h⟩

/-- If the first failure is returned, the first cause has won just in case the outer scope was not
done before the first run failed. -/
theorem ReturnsFirst.firstCauseWins_iff {e : Engine W} (h : ReturnsFirst e result)
    (start : Engine W) (outer : Scope) :
    FirstCauseWins start e outer result ↔
      ∀ t, DoneBy start e outer t → ∃ f ∈ e.failures, f.1 ≤ t := by
  constructor
  · intro hwins t ht
    apply Decidable.byContradiction
    intro hnone
    apply h.not_returnsNoFailure
    apply hwins.2 t ht
    intro f hf
    exact Nat.lt_of_not_le fun hle => hnone ⟨f, hf, hle⟩
  · intro hbefore
    refine ⟨fun _ _ _ => h, fun t ht hlater => ?_⟩
    obtain ⟨f, hf, hle⟩ := hbefore t ht
    exact absurd hle (Nat.not_le.2 (hlater f hf))

/-- **What happens first ends the run, unless all has happened by the end of the startup delay.**
If by then the outer scope is not done or no run has failed, then what happens first decides the
result. Before the end of the delay the order does not count: if the schedule lets the scope count
first, no failure is returned once the scope was done then, and if it does not, the first failure is
returned once a run failed then; so the first cause wins only if it is the one that the schedule
prefers. -/
theorem first_cause_wins (sch : Schedule W) (sup : Supervisor W) (outer : Scope) {e : Engine W}
    (he : e.Fresh) {time : Nat} {result : Except HostError Unit}
    (hrunning : (sup.run sch outer e).1.enteredAt? .running = some time)
    (hreturned : (sup.run sch outer e).2 = .returned result) :
    ((¬ DoneBy e (sup.run sch outer e).1 outer (time + sup.startupDelay) ∨
        ∀ f ∈ (sup.run sch outer e).1.failures, time + sup.startupDelay < f.1) →
      FirstCauseWins e (sup.run sch outer e).1 outer result) ∧
    ((∀ x, sch.scopeFirst x = true) → ∀ t < time + sup.startupDelay,
      DoneBy e (sup.run sch outer e).1 outer t → ReturnsNoFailure result ∧
        (FirstCauseWins e (sup.run sch outer e).1 outer result ↔
          ∀ f ∈ (sup.run sch outer e).1.failures, DoneBy e (sup.run sch outer e).1 outer f.1)) ∧
    ((∀ x, sch.scopeFirst x = false) → ∀ f ∈ (sup.run sch outer e).1.failures,
      f.1 < time + sup.startupDelay → ReturnsFirst (sup.run sch outer e).1 result ∧
        (FirstCauseWins e (sup.run sch outer e).1 outer result ↔
          ∀ t, DoneBy e (sup.run sch outer e).1 outer t →
            ∃ f ∈ (sup.run sch outer e).1.failures, f.1 ≤ t)) := by
  obtain ⟨e₁, e₂, hstops⟩ := stops_of_entered he (.inr ⟨entered_mem_deeds hrunning, _, hreturned⟩)
  obtain rfl : e₁.now = time := Option.some.inj ((hstops.enteredAt?_running he).symm.trans hrunning)
  refine ⟨?_, ?_, ?_⟩
  · intro hnot
    exact hstops.firstCauseWins he hreturned hnot
  · intro hchoice t ht hdone
    have hnone := hstops.returnsNoFailure he hreturned hchoice ht hdone
    exact ⟨hnone, hnone.firstCauseWins_iff _ _ _⟩
  · intro hchoice f hf hlt
    have hfirst := hstops.returnsFirst he hreturned hchoice hf hlt
    exact ⟨hfirst, hfirst.firstCauseWins_iff _ _⟩

/-- A run fails after the startup delay and the outer scope is cancelled later: the failure wins. -/
theorem first_cause_wins_after_delay :
    let boom : ComponentError := .text "boom"
    let failing : Component Unit :=
      { run := .sleep (150 * Duration.nanosPerMilli) ++ .failWith (some boom) }
    let start := begin () ⟨1, []⟩ [(200 * Duration.nanosPerMilli, [0])]
    let r := ({ processes := [failing] } : Supervisor Unit).run .usual ⟨[0], none⟩ start
    (150 * Duration.nanosPerMilli, ⟨0, boom⟩) ∈ r.1.failures ∧
      FirstCauseWins start r.1 ⟨[0], none⟩ (.error (.process 0 boom)) := by
  intro boom failing start r
  have hrunning : r.1.enteredAt? .running = some 0 := by decide +kernel
  have hreturned : r.2 = .returned (.error (.process 0 boom)) := by decide +kernel
  have hnot : ¬ DoneBy start r.1 ⟨[0], none⟩ (0 + 100 * Duration.nanosPerMilli) := by
    decide +kernel
  have hwins := (first_cause_wins .usual { processes := [failing] } ⟨[0], none⟩
    (fresh_begin () ⟨1, []⟩ [(200 * Duration.nanosPerMilli, [0])]) hrunning hreturned).1
  exact ⟨by decide +kernel, hwins (.inl hnot)⟩

/-- A run fails during the startup delay and the outer scope is cancelled later, but still during
the delay: the failure is lost, if the schedule lets the scope count first. -/
theorem first_cause_lost_during_delay :
    let boom : ComponentError := .text "boom"
    let failing : Component Unit :=
      { run := .sleep (10 * Duration.nanosPerMilli) ++ .failWith (some boom) }
    let start := begin () ⟨1, []⟩ [(50 * Duration.nanosPerMilli, [0])]
    let r := ({ processes := [failing] } : Supervisor Unit).run .usual ⟨[0], none⟩ start
    r.2 = .returned (.ok ()) ∧ ¬ FirstCauseWins start r.1 ⟨[0], none⟩ (.ok ()) := by
  intro boom failing start r
  have hfailed : (10 * Duration.nanosPerMilli, ⟨0, boom⟩) ∈ r.1.failures := by decide +kernel
  have hbefore : ¬ DoneBy start r.1 ⟨[0], none⟩ (10 * Duration.nanosPerMilli) := by decide +kernel
  refine ⟨by decide +kernel, fun hwins => ?_⟩
  obtain ⟨f, -, -, hresult⟩ := hwins.1 _ hfailed hbefore
  cases hresult

end ServiceHost.Supervisor
