import ServiceHost.Listener
import ServiceHost.Proofs.Lifecycle.Performing
/-!
Where preparing, serving and stopping lead.

What does not depend on a listener is respected by all that is done with it.  A process that checks
something, or binds its listener, does not succeed by that alone; and a stop ends as its last act
tells it to, whichever way it comes there.
-/

namespace ServiceHost.Listener

variable {W : Type} {R : W → W → Prop} {Q : Outcome → W → Prop} {slot : Slot W Listener} {w : W}

/-- A check leads on in the same world. -/
theorem leads_check {fault? : Option Outcome} {rest : Routine W}
    (hends : ∀ o w₁, fault? = some o → Q o w₁) (hrest : ∀ w₁, R w w₁ → rest.Leads R Q w₁) :
    Routine.Leads R Q (.act (fun _ w => (w, fault?)) :: rest) w := by
  refine .act (fun _ w₁ w₂ o _ hfault => ?_) fun _ w₁ w₂ hworld hgoesOn => ?_
  · exact hends o w₂ (Prod.mk.inj hfault).2
  · obtain ⟨rfl, -⟩ := Prod.mk.inj hgoesOn
    exact hrest w₁ hworld

/-- What binding a listener comes to. -/
theorem bind_cases (l : Listener) (address : String) (refusal : Option SystemFault) :
    l.bind address refusal = .ok { l with waiting := true, everBound := true } ∨
      ∃ a fault, l.bind address refusal = .error (.bind a fault) := by
  unfold bind
  dsimp only
  split
  · exact .inr ⟨_, _, rfl⟩
  · exact .inl rfl

/-- Binding leads to a bound listener, or fails in the same world. -/
theorem leads_binding {address : String} {traffic : Traffic} {rest : Routine W}
    (hends : ∀ a fault w₁, R w w₁ → Q (.failed (.host (.bind a fault))) w₁)
    (hrest : ∀ w₁ refusal l, R w w₁ → (slot.get w₁).bind address refusal = .ok l →
      rest.Leads R Q (slot.put l w₁)) :
    Routine.Leads R Q (binding slot address traffic :: rest) w := by
  refine .act (fun m w₁ w₂ o hworld hfault => ?_) fun _ w₁ w₂ hworld hgoesOn => ?_
  · rcases bind_cases (slot.get w₁) address (traffic.refusal m.now) with hbind | ⟨a, fault, hbind⟩
      <;> rw [hbind] at hfault
    · cases hfault
    · cases hfault
      exact hends a fault _ hworld
  · split at hgoesOn
    next l hbind =>
      obtain ⟨rfl, -⟩ := Prod.mk.inj hgoesOn
      exact hrest w₁ _ l hworld hbind
    next => cases hgoesOn

/-- Binding respects what does not depend on the listener. -/
theorem respects_binding [IsPreorder W R] (hslot : ∀ l w, R w (slot.put l w)) (address : String)
    (traffic : Traffic) : Routine.Respects R [binding slot address traffic] := by
  refine Routine.respects_nil.act fun m w => ?_
  split
  · exact hslot _ w
  · exact refl w

/-- So does serving. -/
theorem respects_serving [IsPreorder W R] (hslot : ∀ l w, R w (slot.put l w)) (name : String)
    (traffic : Traffic) : (serving slot name traffic).Respects R := by
  have hlast : Routine.Respects R [.act fun _ w => (slot.modify markStopped w, some .ok)] :=
    Routine.respects_nil.act fun _ w => hslot _ w
  refine .act (.pause (.act (.pause hlast _) ?look) _) ?take
  · intro m w
    split
    · exact hslot _ w
    · exact refl w
  · intro m w
    split
    · exact hslot _ w
    · exact refl w

/-- A stop leads to the ends that its last act leads to. -/
theorem leads_stopping {P : W → Prop} (hslot : ∀ l w, P w → P (slot.put l w))
    (hstable : ∀ w w', R w w' → P w → P w') {finish : Bool → W → W × Outcome}
    (hfinish : ∀ inTime w, P w → Q (finish inTime w).2 (finish inTime w).1)
    (closeTimeout : Option Nat) (hw : P w) :
    (stopping slot closeTimeout finish).Leads R Q w := by
  refine .act (fun _ _ _ _ _ hends => by cases hends) fun _ w₁ _ hworld hgoesOn => ?_
  obtain ⟨rfl, -⟩ := Prod.mk.inj hgoesOn
  have hasked : P (slot.modify requestStop w₁) := hslot _ _ (hstable _ _ hworld hw)
  refine .act (fun _ w₂ _ _ hworld hends => ?_) fun _ w₂ _ hworld hgoesOn => ?_
  all_goals have hdropped : P (slot.modify drop w₂) := hslot _ _ (hstable _ _ hworld hasked)
  · -- there is nothing to wait for
    dsimp only at hends
    split at hends <;> cases hends
    exact hfinish true _ hdropped
  · dsimp only at hgoesOn
    split at hgoesOn
    · cases hgoesOn
    obtain ⟨rfl, -⟩ := Prod.mk.inj hgoesOn
    refine .pause fun w₃ hworld => ?_
    have hwaited := hstable _ _ hworld hdropped
    refine .act (fun _ w₄ _ _ hworld hends => ?_) fun _ w₄ _ _ hgoesOn => ?_
    · have hjudged := hstable _ _ hworld hwaited
      split at hends <;> cases hends
      · exact hfinish true _ hjudged
      · exact hfinish false _ (hslot _ _ hjudged)
    · split at hgoesOn <;> cases hgoesOn

/-- A stop takes no longer than its budget. -/
theorem limit?_stopping (slot : Slot W Listener) (closeTimeout allowance : Option Nat)
    (finish : Bool → W → W × Outcome) :
    (stopping slot closeTimeout finish).limit? allowance = budget closeTimeout allowance := by
  have hlengths : ([Signal.holds fun w => (slot.get w).stopped,
      .elapsed (budget closeTimeout)].filterMap (Signal.length? allowance)).min? =
      budget closeTimeout allowance := by
    cases hbudget : budget closeTimeout allowance <;>
      simp [List.filterMap_cons, Signal.length?, hbudget]
  unfold stopping
  simp only [Routine.limit?, Instruction.limit?, hlengths]
  cases budget closeTimeout allowance <;> simp

end ServiceHost.Listener
