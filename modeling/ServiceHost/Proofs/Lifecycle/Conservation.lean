import ServiceHost.Proofs.Lifecycle.Result
import ServiceHost.Proofs.Lifecycle.Roster
/-!
What becomes of the reports of failed runs.

Every run that fails posts one report, and there is room for it.  A report stays in the mailbox
until the supervisor receives it as the cause of the end or takes it out at the end of the drain.
The invariant is `Supervisor.Balanced`: the reports of the runs that have failed are, in order,
those received and those in the mailbox.  Together with the roster of the tasks it says of a whole
run that no report is lost, duplicated, reordered or put to another process's account
(`Supervisor.reports_conserved`).
-/

namespace ServiceHost

variable {W : Type}

/-! ### Views of the record -/

/-- The report that was taken out unread, if the entry tells that. -/
def Entry.discarded? (x : Entry) : Option Report :=
  match x.event with
  | .discarded r => some r
  | _ => none

namespace Engine

/-- The reports that were taken out unread, in order. -/
def discarded (e : Engine W) : List Report :=
  e.entries.filterMap Entry.discarded?

/-- The reports that the ends of the runs call for, in the order of these ends: one of each run that
did not succeed. -/
def reports (e : Engine W) : List Report :=
  (e.returns .run).filterMap fun x => x.2.fault?.map (Report.mk x.1)

/-- The reports called for are those on the runs that failed. -/
theorem reports_eq (e : Engine W) : e.reports = e.failures.map Prod.snd := by
  unfold reports returns failures
  rw [List.filterMap_filterMap, List.map_filterMap]
  congr 1
  funext ⟨time, stage, event⟩
  cases event with
  | returned p index o =>
    cases p with
    | run => cases ho : o.fault? <;> simp [Entry.returned?, Entry.failure?, ho]
    | prepare | close => rfl
  | _ => rfl

/-- While a run goes on, no report is taken out. -/
theorem discarded_eq_nil {e : Engine W} (h : ∀ x ∈ e.entries, x.event.Ongoing) :
    e.discarded = [] := by
  refine List.filterMap_eq_nil_iff.2 ?_
  rintro ⟨time, stage, event⟩ hx
  cases event with
  | discarded => exact (h _ hx).elim
  | _ => rfl

end Engine

namespace Supervisor

open Engine

/-! ### The invariant -/

/-- The reports of the runs that have failed are those received and those in the mailbox, in this
order, and there is room for one more of each task that has not ended. -/
structure Balanced (e : Engine W) : Prop where
  reports : e.failures.map Prod.snd = e.received ++ e.mailbox.reports
  room : e.mailbox.reports.length + e.live ≤ e.mailbox.room

namespace Balanced

variable {e e' : Engine W}

/-- What neither changes the mailbox nor concerns a report. -/
theorem of_record (h : Balanced e) {event : Event} (hmailbox : e'.mailbox = e.mailbox)
    (htasks : e'.tasks = e.tasks) {stage : Stage}
    (hhistory : e'.history = ⟨e.now, stage, event⟩ :: e.history)
    (hfailure : Entry.failure? ⟨e.now, stage, event⟩ = none)
    (hreceived : Entry.received? ⟨e.now, stage, event⟩ = none) : Balanced e' := by
  have hlive : e'.live = e.live := by simp [live, htasks]
  refine ⟨?_, ?_⟩
  · rw [failures, filterMap_entries_of_none _ hhistory hfailure, Engine.received,
      filterMap_entries_of_none _ hhistory hreceived, hmailbox]
    exact h.reports
  · rw [hmailbox, hlive]
    exact h.room

/-- Whatever is done, the reports of runs that fail are put behind those in the mailbox. -/
theorem acts {mine : Option Nat → Token → Prop} (h : Balanced e) (hacts : Acts mine e e') :
    Balanced e' := by
  obtain ⟨new, hfailures, hreports, hroom⟩ := hacts.happens.posts h.room
  refine ⟨?_, hroom⟩
  rw [hfailures, List.map_append, h.reports, hacts.happens.course.received_eq, hreports,
    List.append_assoc]

/-- The reports are accounted for whatever moves are made. -/
theorem moves {phase : Phase} {s : Scope} {mine : Option Nat → Token → Prop} (hphase : phase ≠ .run)
    (h : Balanced e) (hmove : Moves phase s mine e e') : Balanced e' := by
  cases hmove with
  | acts hacts => exact h.acts hacts
  | returned index o =>
    refine h.of_record rfl rfl rfl ?_ rfl
    cases phase with
    | run => exact absurd rfl hphase
    | prepare | close => rfl
  | called | announced | published | runCancelled => exact h.of_record rfl rfl rfl rfl rfl
  | newScope => exact ⟨h.reports, h.room⟩
  | @received r rest first =>
    -- the first report of the mailbox is now the last that was received
    have hroom := h.room
    rw [first, List.length_cons] at hroom
    refine ⟨?_, ?_⟩
    · rw [failures_record, received_record]
      show (e.failures ++ []).map Prod.snd = (e.received ++ [r]) ++ rest
      rw [List.append_nil, h.reports, first, List.append_assoc]
      rfl
    · show rest.length + e.live ≤ e.mailbox.room
      omega

end Balanced

variable {sch : Schedule W} {sup : Supervisor W} {outer : Scope} {e e₁ e₂ e₃ : Engine W}

/-- When all tasks have just been made, there is no report yet. -/
theorem balanced_start {os : List Outcome} (he : e.Fresh) (hvisits : Visits sch .prepare outer
    Component.prepare sup.numbered (e.publish .preRunning) os e₁) :
    Balanced (sup.start outer e₁).1 := by
  have hquiet : e₁.Quiet := kept_quiet.visits hvisits (he.quiet.publish .preRunning)
  have hcollects : (sup.start outer e₁).1.Collects := collects_start hquiet
  have hfailures : (sup.start outer e₁).1.failures = [] :=
    (filterMap_entries_of_none _ rfl rfl).trans hquiet.failures
  have hreceived : (sup.start outer e₁).1.received = [] := by
    refine (filterMap_entries_of_none _ rfl rfl).trans (filterMap_prepared he hvisits _ ?_ ?_)
    · exact fun x hx => hx.received?_eq_none
    · exact fun _ _ _ => rfl
  refine ⟨?_, ?_⟩
  · rw [hfailures, hreceived]
    rfl
  · have hroom := hcollects.room
    rwa [hfailures] at hroom

/-! ### Clearing away what is left over -/

/-- Clearing away takes out exactly the reports that were in the mailbox. -/
theorem discarded_cleared (e : Engine W) :
    (cleared e).discarded = e.discarded ++ e.mailbox.reports := by
  rw [discarded, filterMap_entries_cleared]
  simp [discarded, Entry.discarded?]

/-! ### Whole runs -/

/-- A run that received a report returns it, and one that received none returns no failure of a
run. -/
theorem Completed.received_cases {cause : Option Report} {os : List Outcome} {ending : Ending}
    (h : Completed sup cause os e ending) {result : Except HostError Unit}
    (hreturned : ending = .returned result) :
    (∃ r, e.received = [r] ∧ result = .error (.process r.index r.source)) ∨
      (e.received = [] ∧ ∀ i s, result ≠ .error (.process i s)) := by
  have hresult := h.result_eq hreturned
  have hreceived := h.received
  cases cause with
  | some r =>
    rw [causeResult, closingResult_error] at hresult
    exact .inl ⟨r, hreceived, hresult⟩
  | none =>
    refine .inr ⟨hreceived, fun i s hfailure => ?_⟩
    rcases closingResult_ok (e.returns .close) with ⟨-, hok⟩ | ⟨_, _, _, _, -, -, herror⟩
    · cases hfailure.symm.trans (hresult.trans hok)
    · cases hfailure.symm.trans (hresult.trans herror)

/-- At the end of a run that has come to its main stage, the tasks and the reports have been
accounted for up to some state, and then the run was over or what was left over was cleared away. -/
theorem exists_accounted (he : e.Fresh)
    (hrunning : .entered .running ∈ (sup.run sch outer e).1.deeds) :
    ∃ e₃, Roster sup.processes e₃ ∧ Balanced e₃ ∧ (∀ x ∈ e₃.entries, x.event.Ongoing) ∧
      ((sup.run sch outer e).1 = e₃ ∧ (∀ result, (sup.run sch outer e).2 ≠ .returned result) ∨
        (sup.run sch outer e).1 = cleared e₃ ∧ e₃.stage = .stopping) := by
  have hphase : Phase.close ≠ .run := by simp
  rcases stops_or_stalls he hrunning with ⟨e₁, e₂, hstops⟩ | ⟨e₁, e₂, hstalls⟩
  · obtain ⟨os, hvisits, -⟩ := hstops.prepared
    obtain ⟨e₃, hpath, hend⟩ := hstops.moves (fun _ _ => True) (fun _ _ _ _ _ => trivial) trivial
    refine ⟨e₃, ?_, ?_, ongoing_of_path he hvisits hpath, hend.imp_right fun h => ⟨h.1, h.2.1⟩⟩
    · exact hpath.preserves (fun _ _ hmove h => h.moves hphase hmove) (roster_start he hvisits)
    · exact hpath.preserves (fun _ _ hmove h => h.moves hphase hmove) (balanced_start he hvisits)
  · obtain ⟨os, hvisits, -⟩ := hstalls.prepared
    have hpath : Path .close outer (fun _ _ => False) _ _ := hstalls.moves
    refine ⟨_, ?_, ?_, ongoing_of_path he hvisits hpath, .inl ⟨rfl, fun result => ?_⟩⟩
    · exact hpath.preserves (fun _ _ hmove h => h.moves hphase hmove) (roster_start he hvisits)
    · exact hpath.preserves (fun _ _ hmove h => h.moves hphase hmove) (balanced_start he hvisits)
    · rw [hstalls.run]
      simp

theorem received_cleared (e : Engine W) : (cleared e).received = e.received :=
  filterMap_cleared _ e (fun _ => rfl) (fun _ => rfl) rfl

theorem reports_cleared (e : Engine W) : (cleared e).reports = e.reports := by
  rw [Engine.reports, returns_cleared, Engine.reports]

/-- The last things on record are that reports were taken out, all those that ever were, and that
the run was over. -/
def TakenOutLast (e : Engine W) : Prop :=
  (e.discarded.map fun r => (⟨e.now, .stopping, .discarded r⟩ : Entry)) ++
    [⟨e.now, .stopped, .published .stopped⟩] <:+ e.entries

theorem takenOutLast_cleared (hdiscarded : e.discarded = []) (hstage : e.stage = .stopping) :
    TakenOutLast (cleared e) := by
  have hnow : (cleared e).now = e.now := by rw [cleared_eq]
  unfold TakenOutLast
  rw [discarded_cleared, hdiscarded, List.nil_append, hnow, entries_cleared, hstage,
    List.append_assoc]
  exact List.suffix_append ..

/-- The reports of the runs that have failed, in terms of the reports that their ends call for. -/
theorem Balanced.reports_eq (h : Balanced e) : e.reports = e.received ++ e.mailbox.reports := by
  rw [Engine.reports_eq, h.reports]

/-- **No report is lost, duplicated, reordered or put to another's account.**  Every end of a run on
record is one to which the code of that very process can come, and none is there twice.  The reports
that these ends call for are, in order, those received, those taken out unread and those still in
the mailbox; one that had found no room would be missing.  When the run returns, the mailbox is
empty, the last thing the run has done is to take out the reports that were left, and either the
first report of all is what it returns and the others were taken out, each once and in order, or it
returns no failure of a run and all were taken out. -/
theorem reports_conserved (sch : Schedule W) (sup : Supervisor W) (outer : Scope) {e : Engine W}
    (he : e.Fresh) (hrunning : .running ∈ (sup.run sch outer e).1.stages) :
    (∀ x ∈ (sup.run sch outer e).1.returns .run,
      ∃ p : Component W, sup.processes[x.1]? = some p ∧ Routine.CanEnd p.run x.2) ∧
    (((sup.run sch outer e).1.returns .run).map Prod.fst).Nodup ∧
    (sup.run sch outer e).1.reports = (sup.run sch outer e).1.received ++
      (sup.run sch outer e).1.discarded ++ (sup.run sch outer e).1.mailbox.reports ∧
    ∀ result, (sup.run sch outer e).2 = .returned result →
      (sup.run sch outer e).1.mailbox.reports = [] ∧ TakenOutLast (sup.run sch outer e).1 ∧
      ((∃ r, result = .error (.process r.index r.source) ∧
          (sup.run sch outer e).1.reports = r :: (sup.run sch outer e).1.discarded) ∨
        ((∀ i s, result ≠ .error (.process i s)) ∧
          (sup.run sch outer e).1.reports = (sup.run sch outer e).1.discarded)) := by
  have hentered := mem_stages_iff.1 hrunning
  obtain ⟨e₃, hroster, hbalanced, hongoing, hend⟩ := exists_accounted he hentered
  have hnone : e₃.discarded = [] := discarded_eq_nil hongoing
  rcases hend with ⟨heq, hnot⟩ | ⟨heq, hstage⟩
  · -- a run that does not return leaves its reports where they are
    rw [heq]
    refine ⟨hroster.canEnd, hroster.nodup, ?_, fun result hresult => absurd hresult (hnot result)⟩
    rw [hbalanced.reports_eq, hnone, List.append_nil]
  · -- the reports that were in the mailbox when it was cleared are those taken out
    have hdiscarded : (cleared e₃).discarded = e₃.mailbox.reports := by
      rw [discarded_cleared, hnone, List.nil_append]
    have hreports : (cleared e₃).reports = (cleared e₃).received ++ (cleared e₃).discarded := by
      rw [reports_cleared, hbalanced.reports_eq, received_cleared, hdiscarded]
    have hmailbox : (cleared e₃).mailbox.reports = [] := by rw [cleared_eq]
    refine ⟨?_, ?_, ?_, fun result hresult => ?_⟩
    · rw [heq, returns_cleared]
      exact hroster.canEnd
    · rw [heq, returns_cleared]
      exact hroster.nodup
    · rw [heq, hmailbox, List.append_nil]
      exact hreports
    · obtain ⟨e₁, e₂, hstops⟩ := stops_of_entered he (.inr ⟨hentered, _, hresult⟩)
      obtain ⟨os, hcompleted⟩ := hstops.completed_of_returned he hresult
      have hcases := hcompleted.received_cases hresult
      rw [heq] at hcases ⊢
      refine ⟨hmailbox, takenOutLast_cleared hnone hstage, ?_⟩
      rcases hcases with ⟨r, hreceived, herror⟩ | ⟨hreceived, hnot⟩
      · exact .inl ⟨r, herror, by rw [hreports, hreceived]; rfl⟩
      · exact .inr ⟨hnot, by rw [hreports, hreceived]; rfl⟩

/-- Of three processes the last panics while the supervisor waits and the second fails when it is
told to stop: the panic is returned, and the failure is taken out. -/
theorem reports_conserved_three :
    let boom : ComponentError := .text "boom"
    let calm : Component Unit := {}
    let failing : Component Unit := { run := .untilDone ++ .failWith (some boom) }
    let panicking : Component Unit :=
      { run := .sleep (150 * Duration.nanosPerMilli) ++ .finish .panicked }
    let r := ({ processes := [calm, failing, panicking] } : Supervisor Unit).run .usual ⟨[0], none⟩
      (begin () ⟨1, []⟩ [])
    .running ∈ r.1.stages ∧ r.2 = .returned (.error (.process 2 (.text "process panicked"))) ∧
      r.1.reports = ⟨2, .text "process panicked"⟩ :: r.1.discarded ∧
      r.1.discarded = [⟨1, boom⟩] := by
  intro boom calm failing panicking r
  have hrunning : .running ∈ r.1.stages := by decide +kernel
  have hreturned : r.2 = .returned (.error (.process 2 (.text "process panicked"))) := by
    decide +kernel
  obtain ⟨-, -, -, hresult⟩ := reports_conserved .usual
    { processes := [calm, failing, panicking] } ⟨[0], none⟩ (fresh_begin () ⟨1, []⟩ []) hrunning
  obtain ⟨-, -, ⟨⟨i, s⟩, herror, hreports⟩ | ⟨hnone, -⟩⟩ := hresult _ hreturned
  · cases herror
    exact ⟨hrunning, hreturned, hreports, by decide +kernel⟩
  · exact absurd rfl (hnone 2 _)

end Supervisor

end ServiceHost
