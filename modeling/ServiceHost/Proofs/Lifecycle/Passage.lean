import ServiceHost.Proofs.Lifecycle.Endings
/-!
What a run has on record when it comes to its last stage, and what the last stage adds to it.

`Supervisor.opening` lists the deeds up to the last stage, `Supervisor.fullCourse` those of a run
that goes through all stages.  `Stops` says of a run that it comes to its last stage, `Passed`
bundles what is on record then, and `Completed` what is on record, and returned, at the end.
-/

namespace ServiceHost

variable {W : Type}

namespace Supervisor

open Engine

variable (sch : Schedule W) (sup : Supervisor W) (outer : Scope)

/-! ### The deeds of a run -/

/-- The deeds of a run up to its last stage. -/
def opening : List Deed :=
  [.entered .idle, .entered .preRunning] ++
    Deed.visits .prepare (List.range sup.processes.length) ++
    [.entered .running] ++ if sup.announcer.isSome then [.announced] else []

/-- The deeds of a run that goes through all stages: each process is prepared in order, then what is
to be announced is announced, each process is shut down in reverse order, and the scope of the
running processes is cancelled. -/
def fullCourse : List Deed :=
  sup.opening ++ [.entered .stopping] ++
    Deed.visits .close (List.range sup.processes.length).reverse ++
    [.runCancelled, .entered .stopped]

/-! ### Waiting -/

theorem now_le_causeAt {outer : Scope} {e : Engine W} {t : Nat} (h : causeAt outer e = some t) :
    e.now ≤ t := by
  unfold causeAt at h
  split at h
  · exact now_le_doneAt h
  · exact Nat.le_of_eq (Option.some.inj h)

/-- Waiting for a fixed moment. -/
theorem until_course (e : Engine W) (t : Nat) :
    Course e (e.await sch fun e => some (max e.now t)).1 :=
  await_course sch _ (fun _ _ h => Option.some.inj h ▸ Nat.le_max_left ..) e

/-- Announcing is a course of happenings and, if there is something to announce, one deed more. -/
theorem announce_course (e : Engine W) :
    ∃ e₁, Course e e₁ ∧
      ((sup.announcer.isSome = false ∧ announce sch sup e = e₁) ∨
        (sup.announcer.isSome = true ∧ announce sch sup e = e₁.record .announced)) := by
  have hwait := until_course sch e (e.now + sup.startupDelay)
  unfold announce
  dsimp only
  cases hannouncer : sup.announcer with
  | none => exact ⟨_, hwait, .inl ⟨rfl, rfl⟩⟩
  | some f => exact ⟨_, hwait.trans (Happens.change _).course, .inr ⟨rfl, rfl⟩⟩

theorem start_eq (e : Engine W) :
    (sup.start outer e).1 = Engine.publish { (e.hand .prepare outer.token).hand .run
        (Scope.child e.tokens outer).1.token with
      tokens := (Scope.child e.tokens outer).2
      tasks := sup.tasks (Scope.child e.tokens outer).1 e.now
      mailbox := { room := max sup.processes.length 1 } } .running := rfl

theorem deeds_start (e : Engine W) :
    (sup.start outer e).1.deeds = e.deeds ++ [.entered .running] := by
  rw [start_eq, deeds_publish]
  rfl

theorem deeds_waiting (e : Engine W) :
    (waiting sch sup outer e).deeds =
      e.deeds ++ [.entered .running] ++ if sup.announcer.isSome then [.announced] else [] := by
  obtain ⟨e₁, hcourse, ⟨hnone, heq⟩ | ⟨hsome, heq⟩⟩ :=
    announce_course sch sup (sup.start outer e).1
  · rw [waiting, heq, hcourse.deeds_eq, deeds_start, hnone]
    simp
  · rw [waiting, heq, deeds_record, hcourse.deeds_eq, deeds_start, hsome]
    rfl

variable {sch sup outer} in
/-- What every happening and the announcement preserve holds when the wait for the end begins, if it
holds when the tasks have just been made. -/
theorem waiting_preserves {P : Engine W → Prop} (hhappens : ∀ e e', Happens e e' → P e → P e')
    (hannounced : ∀ e, P e → P (e.record .announced)) {e : Engine W}
    (hstart : P (sup.start outer e).1) : P (waiting sch sup outer e) := by
  obtain ⟨e₁, hcourse, ⟨-, heq⟩ | ⟨-, heq⟩⟩ := announce_course sch sup (sup.start outer e).1
  · rw [waiting, heq]
    exact hcourse.preserves hhappens hstart
  · rw [waiting, heq]
    exact hannounced _ (hcourse.preserves hhappens hstart)

theorem stage_waiting (e : Engine W) : (waiting sch sup outer e).stage = .running := by
  refine waiting_preserves (P := fun x => x.stage = .running) ?_ (fun _ h => h) rfl
  intro e e' hstep h
  exact hstep.stage_eq.trans h

/-- Until the wait for the end begins, only what happens beside the supervisor's deeds is added, and
the announcement. -/
theorem adds_waiting (e : Engine W) :
    Adds (fun x => x.event.Within .run ∨ x.event = .announced) (sup.start outer e).1
      (waiting sch sup outer e) := by
  refine waiting_preserves (P := Adds _ (sup.start outer e).1) ?_ ?_ (.refl ..)
  · intro e e' hstep h
    exact h.trans (hstep.adds.mono fun x hx => .inl hx.2)
  · intro e h
    exact h.trans (.of_record rfl rfl (.inr rfl))

/-- Starting and announcing add nothing that a view sees which has no eye for what happens beside
the supervisor's deeds, for stages and for announcements. -/
theorem filterMap_waiting {β : Type} (f : Entry → Option β)
    (haside : ∀ x, x.event.Within .run → f x = none)
    (hpublished : ∀ t stage s, f ⟨t, stage, .published s⟩ = none)
    (hannounced : ∀ t stage, f ⟨t, stage, .announced⟩ = none) (e : Engine W) :
    (waiting sch sup outer e).entries.filterMap f = e.entries.filterMap f := by
  have hstart : (sup.start outer e).1.entries.filterMap f = e.entries.filterMap f :=
    filterMap_entries_of_none f rfl (hpublished ..)
  rw [(adds_waiting sch sup outer e).filterMap_entries f, hstart]
  rintro ⟨time, stage, event⟩ (hx | hx)
  · exact haside _ hx
  · obtain rfl : event = .announced := hx
    exact hannounced ..

/-- The ways in which the cause of the end is taken. -/
theorem takeCause_cases (e : Engine W) :
    (takeCause sch outer e = (e, none) ∧ (e.mailbox.reports = [] ∨
        (outer.isDone e.tokens e.now = true ∧ sch.scopeFirst e = true))) ∨
      ∃ r rest, e.mailbox.reports = r :: rest ∧
        ¬(outer.isDone e.tokens e.now = true ∧ sch.scopeFirst e = true) ∧
        takeCause sch outer e =
          (Engine.record { e with mailbox := { e.mailbox with reports := rest } } (.received r),
            some r) := by
  unfold takeCause
  split
  next hreports => exact .inl ⟨rfl, .inl hreports⟩
  next r rest hreports =>
    split
    next hdone => exact .inl ⟨rfl, .inr (by simpa using hdone)⟩
    next hdone => exact .inr ⟨r, rest, hreports, by simpa using hdone, rfl⟩

/-- Taking the cause takes no time. -/
theorem now_takeCause (sch : Schedule W) (outer : Scope) (e : Engine W) :
    (takeCause sch outer e).1.now = e.now := by
  rcases takeCause_cases sch outer e with ⟨heq, -⟩ | ⟨r, rest, -, -, heq⟩
  · rw [heq]
  · rw [heq]
    rfl

/-! ### Coming to the last stage -/

/-- A run comes to its last stage: the processes were prepared, which led from `e` to `e₁`, and the
wait for the end came to an end in `e₂`. -/
structure Stops (sch : Schedule W) (sup : Supervisor W) (outer : Scope) (e e₁ e₂ : Engine W) :
    Prop where
  prepared : ∃ os, Visits sch .prepare outer Component.prepare sup.numbered (e.publish .preRunning)
    os e₁ ∧ ∀ o ∈ os, o = .ok
  wait : (waiting sch sup outer e₁).await sch (causeAt outer) = (e₂, true)
  ends : StopEnds sch sup (sup.start outer e₁).2 (takeCause sch outer e₂).2
    (takeCause sch outer e₂).1 (sup.run sch outer e)

/-- What is on record when a run comes to its last stage. -/
structure Passed (cause : Option Report) (e : Engine W) : Prop where
  deeds : e.deeds = sup.opening
  stage : e.stage = .running
  returns : e.returns .close = []
  received : e.received = cause.toList

variable {sch sup outer}

/-- What stands at the beginning of a run is as it has to be. -/
theorem fresh_begin (world : W) (tokens : Tokens) (outside : List (Nat × Token))
    (now : Nat := 0) : (begin world tokens outside now).Fresh :=
  ⟨rfl, rfl, rfl, rfl⟩

theorem deeds_publish_preRunning {e : Engine W} (he : e.Fresh) :
    (e.publish .preRunning).deeds = [.entered .idle, .entered .preRunning] := by
  rw [deeds_publish]
  simp [deeds, entries, he.history, Event.deed?]

/-- A view that has no eye for what happens within the preparations and for stages has seen nothing
when all processes have been prepared. -/
theorem filterMap_prepared {e e₁ : Engine W} {os : List Outcome} (he : e.Fresh)
    (hvisits : Visits sch .prepare outer Component.prepare sup.numbered (e.publish .preRunning) os
      e₁) {β : Type} (f : Entry → Option β) (haside : ∀ x, x.event.Within .prepare → f x = none)
    (hpublished : ∀ t stage s, f ⟨t, stage, .published s⟩ = none) :
    e₁.entries.filterMap f = [] := by
  rw [hvisits.adds.filterMap_entries f fun x hx => haside x hx.2,
    filterMap_entries_of_none f rfl (hpublished ..)]
  simp [entries, he.history, hpublished]

/-- When the wait for the end begins, all that comes before the last stage has been done. -/
theorem deeds_waiting_eq_opening {e e₁ : Engine W} {os : List Outcome} (he : e.Fresh)
    (hvisits : Visits sch .prepare outer Component.prepare sup.numbered (e.publish .preRunning) os
      e₁) : (waiting sch sup outer e₁).deeds = sup.opening := by
  rw [deeds_waiting, hvisits.deeds_eq (by simp), deeds_publish_preRunning he, map_fst_numbered]
  rfl

namespace Stops

variable {e e₁ e₂ : Engine W}

/-- What happens while a run waits for its end. -/
theorem course (h : Stops sch sup outer e e₁ e₂) : Course (waiting sch sup outer e₁) e₂ := by
  have hcourse := await_course sch (causeAt outer) (fun _ _ => now_le_causeAt)
    (waiting sch sup outer e₁)
  rw [h.wait] at hcourse
  exact hcourse

/-- A view that has no eye for what happens within the preparations, for stages and for
announcements has seen nothing when the wait is over. -/
theorem filterMap_eq_nil (h : Stops sch sup outer e e₁ e₂) (he : e.Fresh) {β : Type}
    (f : Entry → Option β) (haside : ∀ x, x.event.Within .prepare → f x = none)
    (hpublished : ∀ t stage s, f ⟨t, stage, .published s⟩ = none)
    (hannounced : ∀ t stage, f ⟨t, stage, .announced⟩ = none) : e₂.entries.filterMap f = [] := by
  obtain ⟨os, hvisits, -⟩ := h.prepared
  have hrun : ∀ x, x.event.Within .run → f x = none := fun x hx => haside x (hx.of_run .prepare)
  rw [h.course.adds.filterMap_entries f fun x hx => hrun x hx.2,
    filterMap_waiting sch sup outer f hrun hpublished hannounced,
    filterMap_prepared he hvisits f haside hpublished]

/-- A run that comes to its last stage has done all that comes before it. -/
theorem passed (h : Stops sch sup outer e e₁ e₂) (he : e.Fresh) :
    Passed sup (takeCause sch outer e₂).2 (takeCause sch outer e₂).1 := by
  have hdeeds : e₂.deeds = sup.opening := by
    obtain ⟨os, hvisits, -⟩ := h.prepared
    rw [h.course.deeds_eq, deeds_waiting_eq_opening he hvisits]
  have hstage : e₂.stage = .running := h.course.stage_eq.trans (stage_waiting ..)
  have hreturns : e₂.returns .close = [] := by
    refine h.filterMap_eq_nil he _ ?_ (fun _ _ _ => rfl) (fun _ _ => rfl)
    intro x hx
    exact hx.returned?_eq_none (by simp) (by simp)
  have hreceived : e₂.received = [] := by
    refine h.filterMap_eq_nil he _ ?_ (fun _ _ _ => rfl) (fun _ _ => rfl)
    intro x hx
    exact hx.received?_eq_none
  rcases takeCause_cases sch outer e₂ with ⟨heq, -⟩ | ⟨r, rest, -, -, heq⟩
  · rw [heq]
    exact ⟨hdeeds, hstage, hreturns, hreceived⟩
  · -- a report is received: the views other than `received` have no eye for it
    rw [heq]
    refine ⟨?_, hstage, ?_, ?_⟩
    · exact (filterMap_entries_of_none _ rfl rfl).trans hdeeds
    · exact (filterMap_entries_of_none _ rfl rfl).trans hreturns
    · rw [received_record]
      show e₂.received ++ [r] = [r]
      rw [hreceived]
      rfl

end Stops

/-! ### The last stage -/

theorem now_le_drainedAt {deadline : Nat} {e : Engine W} {t : Nat}
    (h : drainedAt deadline e = some t) : e.now ≤ t := by
  unfold drainedAt at h
  split at h
  · exact Nat.le_of_eq (Option.some.inj h)
  · exact Option.some.inj h ▸ Nat.le_max_left ..

/-- Aborting what still runs adds only events of a drain. -/
theorem adds_abortAll (e : Engine W) :
    Adds (fun x => x.stage = e.stage ∧ x.event.InDrain) e (abortAll e) :=
  (adds_foldl_record _ _ (fun _ => trivial) e).trans (.of_history_eq (Nat.le_refl _) rfl)

theorem stage_abortAll (e : Engine W) : (abortAll e).stage = e.stage :=
  stage_foldl_record _ _ e

/-- Taking out the reports that are left adds only events of a drain. -/
theorem adds_discardReports (e : Engine W) :
    Adds (fun x => x.stage = e.stage ∧ x.event.InDrain) e (discardReports e) :=
  (adds_foldl_record _ _ (fun _ => trivial) e).trans (.of_history_eq (Nat.le_refl _) rfl)

theorem drain_course (sch : Schedule W) (deadline : Nat) (e : Engine W) :
    ∃ e₁, Course e e₁ ∧ drain sch deadline e = discardReports (abortAll e₁) :=
  ⟨_, await_course sch _ (fun _ _ => now_le_drainedAt) e, rfl⟩

/-- A drain adds only events of a drain. -/
theorem adds_drain (sch : Schedule W) (deadline : Nat) (e : Engine W) :
    Adds (fun x => x.stage = e.stage ∧ x.event.InDrain) e (drain sch deadline e) := by
  obtain ⟨e₁, hcourse, heq⟩ := drain_course sch deadline e
  have hstage : e₁.stage = e.stage := hcourse.stage_eq
  rw [heq]
  refine ((hcourse.adds.mono fun x hx => ⟨hx.1, hx.2.inDrain⟩).trans
    ((adds_abortAll e₁).mono ?_)).trans ((adds_discardReports (abortAll e₁)).mono ?_)
  · exact fun x hx => ⟨hx.1.trans hstage, hx.2⟩
  · exact fun x hx => ⟨hx.1.trans ((stage_abortAll e₁).trans hstage), hx.2⟩

theorem deeds_drain (sch : Schedule W) (deadline : Nat) (e : Engine W) :
    (drain sch deadline e).deeds = e.deeds :=
  (adds_drain sch deadline e).filterMap_entries _ fun _ hx => hx.2.deed?_eq_none

theorem returns_drain (sch : Schedule W) (deadline : Nat) (e : Engine W) :
    (drain sch deadline e).returns .close = e.returns .close :=
  (adds_drain sch deadline e).filterMap_entries _ fun _ hx => hx.2.returned?_eq_none

theorem received_drain (sch : Schedule W) (deadline : Nat) (e : Engine W) :
    (drain sch deadline e).received = e.received :=
  (adds_drain sch deadline e).filterMap_entries _ fun _ hx => hx.2.received?_eq_none

/-- What is on record, and returned, when a run has gone through all its stages. -/
structure Completed (sup : Supervisor W) (cause : Option Report) (os : List Outcome)
    (e : Engine W) (ending : Ending) : Prop where
  deeds : e.deeds = sup.fullCourse
  returns : e.returns .close = (List.range sup.processes.length).reverse.zip os
  length : os.length = sup.processes.length
  unpanicked : ∀ o ∈ os, o ≠ .panicked
  received : e.received = cause.toList
  stopping : ∀ c ∈ e.calls .close, c.stage = .stopping
  ending : ending = .returned (closingResult (causeResult cause)
    ((List.range sup.processes.length).reverse.zip os))

theorem map_fst_reverse_numbered (sup : Supervisor W) :
    sup.numbered.reverse.map Prod.fst = (List.range sup.processes.length).reverse := by
  rw [List.map_reverse, map_fst_numbered]

namespace Passed

variable {cause : Option Report} {e : Engine W}

theorem deeds_closing (h : Passed sup cause e) :
    (closing e).deeds = sup.opening ++ [.entered .stopping] := by
  rw [← h.deeds]
  exact deeds_publish e .stopping

theorem returns_closing (h : Passed sup cause e) : (closing e).returns .close = [] := by
  rw [← h.returns]
  exact returns_publish .close e .stopping

theorem received_closing (h : Passed sup cause e) : (closing e).received = cause.toList := by
  rw [← h.received]
  exact received_publish e .stopping

/-- Nothing has been shut down before the last stage. -/
theorem called_close_not_mem (h : Passed sup cause e) (index : Nat) :
    .called .close index ∉ (closing e).deeds := by
  rw [h.deeds_closing]
  simp [opening, Deed.visits]

end Passed

/-- All that the last stage adds before it is left is added in it. -/
theorem adds_last {e e₁ : Engine W} {os : List Outcome} {scope : Scope} (running : Scope)
    (deadline : Nat)
    (hvisits : Visits sch .close scope Component.close sup.numbered.reverse (closing e) os e₁) :
    Adds (fun x => x.stage = .stopping) (closing e)
      (drain sch deadline ((e₁.cancel running.token).record .runCancelled)) := by
  have hstage : e₁.stage = .stopping := hvisits.stage_eq
  have hcancel : Adds (fun x => x.stage = .stopping) e₁ (e₁.cancel running.token) :=
    .of_record rfl rfl hstage
  have hrun : Adds (fun x => x.stage = .stopping) (e₁.cancel running.token)
      ((e₁.cancel running.token).record .runCancelled) := .of_record rfl rfl hstage
  have hdrain := adds_drain sch deadline ((e₁.cancel running.token).record .runCancelled)
  refine (hvisits.adds.mono fun x hx => hx.1).trans ((hcancel.trans hrun).trans (hdrain.mono ?_))
  intro x hx
  exact hx.1.trans hstage

/-- A run whose processes were shut down without a panic has gone through all its stages. -/
theorem Passed.completed {cause : Option Report} {e e₁ : Engine W} {os : List Outcome}
    {scope : Scope} (h : Passed sup cause e) (running : Scope) (deadline : Nat)
    (hvisits : Visits sch .close scope Component.close sup.numbered.reverse (closing e) os e₁)
    (hall : ∀ o ∈ os, o ≠ .panicked) :
    Completed sup cause os
      ((drain sch deadline ((e₁.cancel running.token).record .runCancelled)).publish .stopped)
      (.returned (closingResult (causeResult cause)
        ((sup.numbered.reverse.map Prod.fst).zip os))) := by
  constructor
  · rw [deeds_publish, deeds_drain, deeds_record, (Happens.cancel _).course.deeds_eq,
      hvisits.deeds_eq (by simp), map_fst_reverse_numbered, h.deeds_closing,
      List.append_assoc _ _ [_]]
    rfl
  · rw [returns_publish, returns_drain, returns_record,
      (Happens.cancel _).course.returns_eq (by simp), hvisits.returns_eq (by simp),
      h.returns_closing, map_fst_reverse_numbered]
    exact List.append_nil _
  · rw [hvisits.length_eq, List.length_reverse, numbered, List.length_map, List.length_zipIdx]
  · exact hall
  · rw [received_publish, received_drain, received_record, (Happens.cancel _).course.received_eq,
      hvisits.received_eq, h.received_closing]
    exact List.append_nil _
  · intro c hc
    rw [calls_publish] at hc
    obtain ⟨new, hnew, -, hstopping⟩ := (adds_last running deadline hvisits).entries
    have hentry := mem_calls.1 hc
    rw [hnew, List.mem_append] at hentry
    -- no shutdown is on record before the last stage, and what is added is added in it
    rcases hentry with hbefore | hlast
    · exact absurd (called_mem_deeds (by simp) (mem_calls.2 hbefore)) (h.called_close_not_mem _)
    · exact (hstopping _ hlast).1
  · rw [map_fst_reverse_numbered]

/-! ### Runs that come to their last stage -/

/-- A run whose preparations stop at some process enters no later stage. -/
theorem later_not_mem_of_breaks {e e' : Engine W} {index : Nat} {r : Returned} (he : e.Fresh)
    (h : Breaks sch .prepare outer Component.prepare (· = .ok) sup.numbered (e.publish .preRunning)
      index r e') : .entered .running ∉ e'.deeds ∧ .entered .stopping ∉ e'.deeds := by
  cases r with
  | outcome o =>
    obtain ⟨before, p, after, -, hdeeds⟩ := h.deeds_outcome (by simp)
    rw [hdeeds, deeds_publish_preRunning he]
    simp [Deed.visits]
  | never =>
    obtain ⟨before, p, after, -, hdeeds⟩ := h.deeds_never (by simp)
    rw [hdeeds, deeds_publish_preRunning he]
    simp [Deed.visits]

/-- A run that has entered its last stage has come to it, and so has one that has entered its main
stage and returns. -/
theorem stops_of_entered {e : Engine W} (he : e.Fresh)
    (h : .entered .stopping ∈ (sup.run sch outer e).1.deeds ∨
      .entered .running ∈ (sup.run sch outer e).1.deeds ∧
        ∃ result, (sup.run sch outer e).2 = .returned result) :
    ∃ e₁ e₂, Stops sch sup outer e e₁ e₂ := by
  have hends := run_ends sch sup outer e
  generalize hrun : sup.run sch outer e = r at hends h
  cases hends with
  | hangs hbreaks | panics hbreaks =>
    obtain ⟨hrunning, hstopping⟩ := later_not_mem_of_breaks he hbreaks
    rcases h with h | ⟨h, -⟩
    · exact absurd h hstopping
    · exact absurd h hrunning
  | fails hbreaks =>
    obtain ⟨hrunning, hstopping⟩ := later_not_mem_of_breaks he hbreaks
    simp [hrunning, hstopping] at h
  | @waits os e₁ e₂ hvisits hprepared hwait =>
    -- a wait that never ends enters no stage and returns nothing
    rcases h with h | ⟨-, result, h⟩
    · have hcourse := await_course sch (causeAt outer) (fun _ _ => now_le_causeAt)
        (waiting sch sup outer e₁)
      rw [hwait] at hcourse
      rw [hcourse.deeds_eq, deeds_waiting_eq_opening he hvisits] at h
      simp [opening, Deed.visits] at h
    · cases h
  | @stops os e₁ e₂ hvisits hprepared hwait =>
    refine ⟨e₁, e₂, ⟨os, hvisits, hprepared⟩, hwait, ?_⟩
    rw [hrun]
    exact stop_ends ..

/-- What the last stage adds to the record. -/
theorem StopEnds.adds {running : Scope} {cause : Option Report} {e : Engine W}
    {r : Engine W × Ending} (h : StopEnds sch sup running cause e r) :
    Adds (fun _ => True) (e.publish .stopping) r.1 := by
  have hclosing : Adds (fun _ => True) (e.publish .stopping) (closing e) :=
    .of_history_eq (Nat.le_refl _) rfl
  cases h with
  | unfit => exact .refl ..
  | hangs _ hbreaks | panics _ hbreaks =>
    exact hclosing.trans (hbreaks.adds.mono fun _ _ => trivial)
  | @closed os e₁ _ hvisits =>
    have hlast := adds_last running (e.now + sup.closeTimeout) hvisits
    exact (hclosing.trans (hlast.mono fun _ _ => trivial)).trans (.of_record rfl rfl trivial)

namespace Stops

variable {e e₁ e₂ : Engine W}

/-- The last stage is entered when the wait for the end has come to an end. -/
theorem enteredAt?_stopping (h : Stops sch sup outer e e₁ e₂) (he : e.Fresh) :
    (sup.run sch outer e).1.enteredAt? .stopping = some e₂.now := by
  have hfirst : .entered .stopping ∉ (takeCause sch outer e₂).1.deeds := by
    rw [(h.passed he).deeds]
    simp [opening, Deed.visits]
  rw [h.ends.adds.enteredAt?_eq (enteredAt?_publish hfirst), now_takeCause]

/-- A run that comes to its last stage and returns has gone through all its stages. -/
theorem completed_of_returned (h : Stops sch sup outer e e₁ e₂) (he : e.Fresh)
    {result : Except HostError Unit} (hreturned : (sup.run sch outer e).2 = .returned result) :
    ∃ os, Completed sup (takeCause sch outer e₂).2 os (sup.run sch outer e).1
      (sup.run sch outer e).2 := by
  have hpassed := h.passed he
  have hends := h.ends
  generalize sup.run sch outer e = r at hends hreturned ⊢
  cases hends with
  | unfit | hangs | panics => cases hreturned
  | closed _ hvisits hall => exact ⟨_, hpassed.completed _ _ hvisits hall⟩

/-- If the clock can show the end of the time to shut down and every shutdown comes back without a
panic, all processes are shut down and the run is drained. -/
theorem closed_of_closesReturn (h : Stops sch sup outer e e₁ e₂) (he : e.Fresh)
    (hfits : e₂.now + sup.closeTimeout < clockLimit)
    (hcloses : (sup.run sch outer e).1.ClosesReturn) :
    ∃ os e₃, Visits sch .close (sup.closingScope (takeCause sch outer e₂).1) Component.close
        sup.numbered.reverse (closing (takeCause sch outer e₂).1) os e₃ ∧
      (∀ o ∈ os, o ≠ .panicked) ∧
      sup.run sch outer e =
        ((drain sch (e₂.now + sup.closeTimeout)
            ((e₃.cancel (sup.start outer e₁).2.token).record .runCancelled)).publish .stopped,
          .returned (closingResult (causeResult (takeCause sch outer e₂).2)
            ((sup.numbered.reverse.map Prod.fst).zip os))) := by
  have hpassed := h.passed he
  have hends := h.ends
  rw [← now_takeCause sch outer] at hfits ⊢
  generalize sup.run sch outer e = r at hends hcloses ⊢
  -- a row of shutdowns that stops has called a process of which there is no good return
  have hnot {index : Nat} {r : Returned} {e' : Engine W}
      (hbreaks : Breaks sch .close (sup.closingScope (takeCause sch outer e₂).1) Component.close
        (· ≠ .panicked) sup.numbered.reverse (closing (takeCause sch outer e₂).1) index r e')
      (hcloses : e'.ClosesReturn) : False := by
    obtain ⟨c, hc, rfl⟩ := exists_call_of_mem_deeds (hbreaks.called_mem_deeds (by simp))
    obtain ⟨⟨index, o⟩, ho, rfl, hgood⟩ := hcloses c hc
    have hdistinct : (sup.numbered.reverse.map Prod.fst).Nodup := by
      rw [map_fst_reverse_numbered]
      exact List.pairwise_reverse.2 (List.nodup_range.imp Ne.symm)
    exact hbreaks.not_mem_returns (by simp) hpassed.returns_closing hdistinct hgood ho
  cases hends with
  | unfit hunfit => exact absurd hfits (Nat.not_lt.2 hunfit)
  | hangs _ hbreaks | panics _ hbreaks => exact (hnot hbreaks hcloses).elim
  | closed _ hvisits hall => exact ⟨_, _, hvisits, hall, rfl⟩

/-- A run that comes to its last stage goes through all its stages, if the clock can show the end of
the time to shut down and every shutdown comes back without a panic. -/
theorem completed_of_closesReturn (h : Stops sch sup outer e e₁ e₂) (he : e.Fresh)
    (hfits : e₂.now + sup.closeTimeout < clockLimit)
    (hcloses : (sup.run sch outer e).1.ClosesReturn) :
    ∃ os, Completed sup (takeCause sch outer e₂).2 os (sup.run sch outer e).1
      (sup.run sch outer e).2 := by
  obtain ⟨os, e₃, hvisits, hall, heq⟩ := h.closed_of_closesReturn he hfits hcloses
  rw [heq]
  exact ⟨os, (h.passed he).completed _ _ hvisits hall⟩

end Stops

end Supervisor

end ServiceHost
