import ServiceHost.Proofs.Lifecycle.Visits
/-!
How a run ends.

`Supervisor.RunEnds` lists once all ways in which a run goes: it breaks while preparing, it waits
for ever, or it comes to its last stage; `Supervisor.StopEnds` does the same for the last stage.
Every run is one of these (`run_ends`, `stop_ends`), and what a run did, returned or left on record
is proved by going through them.
-/

namespace ServiceHost.Supervisor

open Engine

variable {W : Type}

/-! ### Preparing and shutting down as rows of calls -/

/-- The result of the last stage before anything is shut down. -/
def causeResult (cause : Option Report) : Except HostError Unit :=
  match cause with
  | some r => .error (.process r.index r.source)
  | none => .ok ()

/-- The result after the given calls of `close` came back. -/
def closingResult (result : Except HostError Unit) (returns : List (Nat × Outcome)) :
    Except HostError Unit :=
  returns.foldl (fun r x => withClosed r x.1 x.2) result

/-- An error that was there before stays. -/
theorem closingResult_error (error : HostError) (returns : List (Nat × Outcome)) :
    closingResult (.error error) returns = .error error := by
  induction returns with
  | nil => rfl
  | cons x returns ih =>
    obtain ⟨index, o⟩ := x
    cases o <;> exact ih

/-- Without an error before, the first failure to shut down decides the result. -/
theorem closingResult_ok (returns : List (Nat × Outcome)) :
    ((∀ i s, (i, .failed s) ∉ returns) ∧ closingResult (.ok ()) returns = .ok ()) ∨
      ∃ before i s after, returns = before ++ (i, .failed s) :: after ∧
        (∀ j t, (j, .failed t) ∉ before) ∧
        closingResult (.ok ()) returns = .error (.shutdown i s) := by
  induction returns with
  | nil => exact .inl ⟨by simp, rfl⟩
  | cons x returns ih =>
    obtain ⟨index, o⟩ := x
    have hskip (ho : ∀ s, o ≠ .failed s) (row : List (Nat × Outcome))
        (hrow : ∀ j t, (j, .failed t) ∉ row) (j : Nat) (t : ComponentError) :
        (j, .failed t) ∉ (index, o) :: row := by
      intro hmem
      rcases List.mem_cons.1 hmem with heq | hmem
      · exact ho t (Prod.mk.inj heq).2.symm
      · exact hrow j t hmem
    cases o with
    | failed source =>
      exact .inr ⟨[], index, source, returns, rfl, by simp, closingResult_error _ returns⟩
    | ok | panicked =>
      rcases ih with ⟨hnone, hok⟩ | ⟨before, i, s, after, rfl, hbefore, herror⟩
      · exact .inl ⟨hskip (fun _ h => by cases h) returns hnone, hok⟩
      · exact .inr ⟨_ :: before, i, s, after, rfl, hskip (fun _ h => by cases h) before hbefore,
          herror⟩

/-- The indices of the numbered processes. -/
theorem map_fst_numbered (sup : Supervisor W) :
    sup.numbered.map Prod.fst = List.range sup.processes.length := by
  unfold numbered
  rw [List.map_map, List.range_eq_range']
  exact List.zipIdx_map_snd 0 sup.processes

/-- What stands before a process are the processes with smaller indices. -/
theorem map_fst_of_numbered_eq {sup : Supervisor W} {index : Nat} {p : Component W}
    {before after : List (Nat × Component W)} (h : sup.numbered = before ++ (index, p) :: after) :
    before.map Prod.fst = List.range index ∧ index < sup.processes.length := by
  have hrange := sup.map_fst_numbered
  rw [h, List.map_append, List.map_cons] at hrange
  have hlen : before.length + (after.length + 1) = sup.processes.length := by
    simpa using congrArg List.length hrange
  -- the number that stands at the place of `index` in the range is the length of `before`
  have hindex : before.length = index := by
    have hget := congrArg (fun l => l[before.length]?) hrange
    simp only [List.getElem?_range (show before.length < sup.processes.length by omega)] at hget
    simpa using hget.symm
  have htake := congrArg (List.take before.length) hrange
  rw [List.take_left' (by simp), List.take_range, Nat.min_eq_left (by omega), hindex] at htake
  exact ⟨htake, by omega⟩

/-- The processes before a process are the first of the list. -/
theorem numbered_split {sup : Supervisor W} {index : Nat} {p : Component W}
    {before after : List (Nat × Component W)} (h : sup.numbered = before ++ (index, p) :: after) :
    sup.processes[index]? = some p ∧
      before = ((sup.processes.take index).zipIdx 0).map fun (p, i) => (i, p) := by
  have hlength : before.length = index := by
    have hrange := congrArg List.length (map_fst_of_numbered_eq h).1
    rwa [List.length_map, List.length_range] at hrange
  constructor
  · have hget : sup.numbered[index]? = some (index, p) := by
      rw [h, ← hlength, List.getElem?_append_right (Nat.le_refl _), Nat.sub_self]
      rfl
    simpa [numbered] using hget
  · have htake := congrArg (List.take index) h
    rw [List.take_left' hlength] at htake
    rw [← htake]
    refine List.ext_getElem? fun i => ?_
    simp only [numbered, List.getElem?_take, List.getElem?_map, List.getElem?_zipIdx]
    split <;> rfl

section Rows

variable {sch : Schedule W} {outer scope : Scope} {row : List (Nat × Component W)}
  {e e' : Engine W} {os : List Outcome}

/-- Processes that were prepared with success let the row go on. -/
theorem prepareAll_of_visits (h : Visits sch .prepare outer Component.prepare row e os e')
    (hok : ∀ o ∈ os, o = .ok) (rest : List (Nat × Component W)) :
    prepareAll sch outer (row ++ rest) e = prepareAll sch outer rest e' := by
  induction h with
  | nil => rfl
  | cons hfirst _ ih =>
    obtain ⟨rfl, hothers⟩ := List.forall_mem_cons.1 hok
    rw [List.cons_append, prepareAll, hfirst]
    exact ih hothers

/-- A call that does not succeed ends the preparations. -/
theorem prepareAll_of_breaks {index : Nat} {r : Returned}
    (h : Breaks sch .prepare outer Component.prepare (· = .ok) row e index r e') :
    (r = .never ∧ prepareAll sch outer row e = (e', some .never)) ∨
      (r = .outcome .panicked ∧ prepareAll sch outer row e = (e', some .panicked)) ∨
      ∃ source, r = .outcome (.failed source) ∧ prepareAll sch outer row e =
        (e'.publish .stopped, some (.returned (.error (.preRun source)))) := by
  obtain ⟨hvisits, hok, hcall, hbad⟩ := h
  rw [prepareAll_of_visits hvisits hok, prepareAll, hcall]
  rcases r with o | -
  · cases o with
    | ok => exact absurd rfl (hbad .ok rfl)
    | failed source => exact .inr (.inr ⟨source, rfl, rfl⟩)
    | panicked => exact .inr (.inl ⟨rfl, rfl⟩)
  · exact .inl ⟨rfl, rfl⟩

/-- Processes whose shutdown came back without a panic let the row go on, whatever it returned. -/
theorem closeAll_of_visits (h : Visits sch .close scope Component.close row e os e')
    (hok : ∀ o ∈ os, o ≠ .panicked) (rest : List (Nat × Component W))
    (result : Except HostError Unit) :
    closeAll sch scope (row ++ rest) result e =
      closeAll sch scope rest (closingResult result ((row.map Prod.fst).zip os)) e' := by
  induction h generalizing result with
  | nil => rfl
  | @cons index p row e e₁ e₂ o os hfirst _ ih =>
    obtain ⟨ho, hothers⟩ := List.forall_mem_cons.1 hok
    have hgo : closeAll sch scope ((index, p) :: (row ++ rest)) result e =
        closeAll sch scope (row ++ rest) (withClosed result index o) e₁ := by
      rw [closeAll, hfirst]
      cases o with
      | panicked => exact absurd rfl ho
      | _ => rfl
    rw [List.cons_append, hgo, ih hothers]
    rfl

/-- A shutdown that panics or never comes back ends the row. -/
theorem closeAll_of_breaks {index : Nat} {r : Returned} (result : Except HostError Unit)
    (h : Breaks sch .close scope Component.close (· ≠ .panicked) row e index r e') :
    (r = .never ∧ closeAll sch scope row result e = (e', .never)) ∨
      (r = .outcome .panicked ∧ closeAll sch scope row result e = (e', .panicked)) := by
  obtain ⟨hvisits, hok, hcall, hbad⟩ := h
  rw [closeAll_of_visits hvisits hok, closeAll, hcall]
  rcases r with o | -
  · cases o with
    | panicked => exact .inr ⟨rfl, rfl⟩
    | ok => exact absurd (fun h => by cases h) (hbad .ok rfl)
    | failed source => exact absurd (fun h => by cases h) (hbad (.failed source) rfl)
  · exact .inl ⟨rfl, rfl⟩

end Rows

/-! ### The ways in which a run goes -/

section Runs

variable (sch : Schedule W) (sup : Supervisor W) (outer : Scope)

/-- A scope of its own is made, and handed out for the shutdowns. -/
def newScope (e : Engine W) : Engine W :=
  { e.hand .close e.tokens.root.1 with tokens := e.tokens.root.2 }

/-- The state in which the processes are shut down: in the last stage, with a scope made for it. -/
def closing (e : Engine W) : Engine W :=
  newScope (e.publish .stopping)

/-- The scope in which the processes are shut down. -/
def closingScope (e : Engine W) : Scope :=
  ⟨e.tokens.root.1, some (e.now + sup.closeTimeout)⟩

/-- The ways in which the last stage goes. -/
inductive StopEnds (running : Scope) (cause : Option Report) (e : Engine W) :
    Engine W × Ending → Prop
  | unfit (h : clockLimit ≤ e.now + sup.closeTimeout) :
      StopEnds running cause e (e.publish .stopping, .panicked)
  | hangs {index : Nat} {e₁ : Engine W} (fits : e.now + sup.closeTimeout < clockLimit)
      (breaks : Breaks sch .close (sup.closingScope e) Component.close (· ≠ .panicked)
        sup.numbered.reverse (closing e) index .never e₁) :
      StopEnds running cause e (e₁, .never)
  | panics {index : Nat} {e₁ : Engine W} (fits : e.now + sup.closeTimeout < clockLimit)
      (breaks : Breaks sch .close (sup.closingScope e) Component.close (· ≠ .panicked)
        sup.numbered.reverse (closing e) index (.outcome .panicked) e₁) :
      StopEnds running cause e (e₁, .panicked)
  | closed {os : List Outcome} {e₁ : Engine W} (fits : e.now + sup.closeTimeout < clockLimit)
      (visits : Visits sch .close (sup.closingScope e) Component.close sup.numbered.reverse
        (closing e) os e₁) (unpanicked : ∀ o ∈ os, o ≠ .panicked) :
      StopEnds running cause e
        ((drain sch (e.now + sup.closeTimeout)
            ((e₁.cancel running.token).record .runCancelled)).publish .stopped,
          .returned (closingResult (causeResult cause)
            ((sup.numbered.reverse.map Prod.fst).zip os)))

theorem stop_ends (running : Scope) (cause : Option Report) (e : Engine W) :
    StopEnds sch sup running cause e (stop sch sup running cause e) := by
  unfold stop
  dsimp only
  by_cases hfits : e.now + sup.closeTimeout < clockLimit
  · have hscope : Scope.withTimeout (e.publish .stopping).tokens (e.publish .stopping).now
        sup.closeTimeout = some (sup.closingScope e, e.tokens.root.2) := by
      unfold Scope.withTimeout
      rw [now_publish, if_pos hfits]
      rfl
    rw [hscope]
    dsimp only
    -- the equations of the row are about `causeResult` and `closing`, which the text spells out
    generalize hclosed : closeAll sch _ sup.numbered.reverse _ _ = closed
    rcases visits_or_breaks sch .close (sup.closingScope e) Component.close (· ≠ .panicked)
      sup.numbered.reverse (closing e) with ⟨os, e₁, hvisits, hall⟩ | ⟨index, r, e₁, hbreaks⟩
    · -- all shutdowns come back
      have hclose := closeAll_of_visits hvisits hall [] (causeResult cause)
      rw [List.append_nil, closeAll] at hclose
      rw [hclosed.symm.trans hclose]
      exact .closed hfits hvisits hall
    · -- one of them does not, or panics
      rcases closeAll_of_breaks (causeResult cause) hbreaks with ⟨rfl, heq⟩ | ⟨rfl, heq⟩
      · rw [hclosed.symm.trans heq]
        exact .hangs hfits hbreaks
      · rw [hclosed.symm.trans heq]
        exact .panics hfits hbreaks
  · -- the clock cannot show the end of the time to shut down
    have hscope : Scope.withTimeout (e.publish .stopping).tokens (e.publish .stopping).now
        sup.closeTimeout = none := by
      unfold Scope.withTimeout
      rw [now_publish, if_neg hfits]
    rw [hscope]
    exact .unfit (Nat.le_of_not_lt hfits)

/-- The state in which a run waits for its end: started and announced. -/
def waiting (e : Engine W) : Engine W :=
  announce sch sup (sup.start outer e).1

/-- The ways in which a run goes. -/
inductive RunEnds (e : Engine W) : Engine W × Ending → Prop
  | hangs {index : Nat} {e₁ : Engine W} (breaks : Breaks sch .prepare outer Component.prepare
      (· = .ok) sup.numbered (e.publish .preRunning) index .never e₁) : RunEnds e (e₁, .never)
  | panics {index : Nat} {e₁ : Engine W} (breaks : Breaks sch .prepare outer Component.prepare
      (· = .ok) sup.numbered (e.publish .preRunning) index (.outcome .panicked) e₁) :
      RunEnds e (e₁, .panicked)
  | fails {index : Nat} {source : ComponentError} {e₁ : Engine W}
      (breaks : Breaks sch .prepare outer Component.prepare (· = .ok) sup.numbered
        (e.publish .preRunning) index (.outcome (.failed source)) e₁) :
      RunEnds e (e₁.publish .stopped, .returned (.error (.preRun source)))
  | waits {os : List Outcome} {e₁ e₂ : Engine W} (visits : Visits sch .prepare outer
      Component.prepare sup.numbered (e.publish .preRunning) os e₁) (prepared : ∀ o ∈ os, o = .ok)
      (wait : (waiting sch sup outer e₁).await sch (causeAt outer) = (e₂, false)) :
      RunEnds e (e₂, .never)
  | stops {os : List Outcome} {e₁ e₂ : Engine W} (visits : Visits sch .prepare outer
      Component.prepare sup.numbered (e.publish .preRunning) os e₁) (prepared : ∀ o ∈ os, o = .ok)
      (wait : (waiting sch sup outer e₁).await sch (causeAt outer) = (e₂, true)) :
      RunEnds e (stop sch sup (sup.start outer e₁).2 (takeCause sch outer e₂).2
        (takeCause sch outer e₂).1)

theorem run_ends (e : Engine W) : RunEnds sch sup outer e (sup.run sch outer e) := by
  unfold run
  rcases visits_or_breaks sch .prepare outer Component.prepare (· = .ok) sup.numbered
    (e.publish .preRunning) with ⟨os, e₁, hvisits, hall⟩ | ⟨index, r, e₁, hbreaks⟩
  · have hprepare := prepareAll_of_visits hvisits hall []
    rw [List.append_nil, prepareAll] at hprepare
    rw [hprepare]
    dsimp only
    generalize hwait : Engine.await sch (causeAt outer) _ = waited
    obtain ⟨e₂, able⟩ := waited
    cases able with
    | false => exact .waits hvisits hall hwait
    | true => exact .stops hvisits hall hwait
  · rcases prepareAll_of_breaks hbreaks with ⟨rfl, heq⟩ | ⟨rfl, heq⟩ | ⟨source, rfl, heq⟩
    · rw [heq]
      exact .hangs hbreaks
    · rw [heq]
      exact .panics hbreaks
    · rw [heq]
      exact .fails hbreaks

end Runs

end ServiceHost.Supervisor
