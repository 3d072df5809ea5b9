import ServiceHost.Proofs.Lifecycle.Accounts
import ServiceHost.Proofs.Lifecycle.Turns
/-!
Scopes that processes share.

All processes run in one scope, and all of them are shut down in another, so a process that cancels
the one it was handed cancels that of the others with it.  It may also keep a clone and do so in
another phase, or leave that to somebody else.  It can do no more than that: the scope of the
running processes is cancelled only by a process that has begun or when all have been shut down,
that of the shutdowns only by a process, and in the last stage.  The shutdowns come down from the
last process to the first (`Supervisor.Reaches`), so one that is found cancelled at a call was
cancelled before.

Main result: `Supervisor.cancellations_accounted`.
-/

namespace ServiceHost

variable {W : Type}

namespace Engine

/-! ### The numbers of tokens -/

/-- No happening makes a token. -/
theorem Happens.next_eq {e e' : Engine W} (h : Happens e e') : e'.tokens.next = e.tokens.next := by
  cases h with
  | finish =>
    rw [endTask_eq]
    rfl
  | _ => rfl

/-- While processes are prepared no token is made. -/
theorem kept_next (n : Nat) : Kept .prepare fun e : Engine W => e.tokens.next = n where
  happens _ _ hstep h := hstep.next_eq.trans h
  called _ _ _ h := h
  returned _ _ _ h := h

end Engine

namespace Supervisor

open Engine Relation

variable {sup : Supervisor W} {outer : Scope} {start e e' : Engine W}
  {mine : Option Nat → Token → Prop}

/-! ### The invariant of a run -/

/-- A process that finds its scope cancelled when it is called to be shut down finds it so because
some process did that before; one that did so while it was shut down, or since, is behind it. -/
def Finds (sup : Supervisor W) (outer : Scope) (start e : Engine W) : Prop :=
  Throughout (fun x before => ∀ index m, x.event = .called .close index m → m.cancelled = true →
    ∃ y earlier, y :: earlier <:+ before ∧ y.event = .cancelled (phaseToken outer start .close) ∧
      ∃ k phase later, sup.Responsible .close later earlier k phase ∧
        (phase = .close → index < k)) e.history

/-- What holds from the start of the tasks on. -/
structure Watched (sup : Supervisor W) (outer : Scope) (start e : Engine W) : Prop where
  manned : Manned sup outer start e
  clones : Clones sup outer start e
  accounts : Accounts sup outer start e
  handed : Handed outer start e
  finds : Finds sup outer start e

namespace Watched

theorem acts (h : Watched sup outer start e)
    (hmine : ∀ later token, mine later token → Accounted sup outer start e.history later token)
    (hacts : Acts mine e e') : Watched sup outer start e' := by
  have htasks (k : Nat) (later : Option Nat) (token : Token) :
      e.Cancelling k later token → Accounted sup outer start e.history later token :=
    h.clones.accounted h.manned
  refine ⟨h.manned.acts hacts, h.clones.acts htasks hmine hacts,
    h.accounts.acts h.clones htasks hmine hacts, h.handed.acts h.manned hacts, ?_⟩
  refine hacts.happens.adds.throughout (fun x hx earlier index m hevent => ?_) h.finds
  -- no process is called to be shut down
  have hwithin : x.event.Within .run := hx.2
  rw [hevent] at hwithin
  exact absurd hwithin (by simp [Event.Within])

/-- The supervisor records something. -/
theorem record {s : Scope} {event : Event} (h : Watched sup outer start e)
    (hmove : Moves .close s (fun _ _ => False) e (e.record event))
    (hcancelled : ∀ token, event ≠ .cancelled token)
    (hcalled : ∀ index m, event = .called .close index m → m.cancelled = true →
      ∃ y earlier, y :: earlier <:+ e.history ∧
        y.event = .cancelled (phaseToken outer start .close) ∧
        ∃ k phase later, sup.Responsible .close later earlier k phase ∧
          (phase = .close → index < k)) : Watched sup outer start (e.record event) :=
  ⟨h.manned.moves (by simp) hmove, h.clones.of_eq rfl (List.subset_cons_self ..) fun _ => .inl,
    h.accounts.cons fun token hevent => absurd hevent (hcancelled token),
    h.handed.moves (by simp) h.manned hmove, h.finds.cons hcalled⟩

/-- Moves of a run in which no process is shut down and the supervisor cancels nothing. -/
theorem path {s : Scope} (h : Watched sup outer start e)
    (hpath : Path .prepare s (fun _ _ => False) e e') : Watched sup outer start e' := by
  refine hpath.preserves (fun e e' hmove h => ?_) h
  have htasks (k : Nat) (later : Option Nat) (token : Token) :
      e.Cancelling k later token → Accounted sup outer start e.history later token :=
    h.clones.accounted h.manned
  have hmine (later : Option Nat) (token : Token) :
      False → Accounted sup outer start e.history later token := False.elim
  refine ⟨h.manned.moves (by simp) hmove, h.clones.moves htasks hmine hmove,
    h.accounts.moves h.clones htasks hmine hmove, h.handed.moves (by simp) h.manned hmove, ?_⟩
  cases hmove with
  | acts hacts => exact (h.acts hmine hacts).finds
  | newScope closing => cases closing
  | called | returned | announced | received | published | runCancelled =>
    exact h.finds.cons fun _ _ hevent => by cases hevent

/-- The last stage is entered, and a scope is made for it. -/
theorem closing (h : Watched sup outer start e) (hnext : e.tokens.next = start.tokens.next + 1) :
    Watched sup outer start (closing e) := by
  have hentered : HasEntered .stopping (e.publish .stopping).history :=
    ⟨_, List.mem_cons_self, rfl⟩
  have hpublished : Watched sup outer start (e.publish .stopping) :=
    h.path (s := outer) (.single (.published .stopping))
  have hmove : Moves .close outer (fun _ _ => False) (e.publish .stopping)
      (Supervisor.closing e) := .newScope rfl
  exact ⟨hpublished.manned.moves (by simp) hmove, hpublished.clones.newScope hentered hnext,
    hpublished.accounts, hpublished.handed.moves (by simp) hpublished.manned hmove,
    hpublished.finds⟩

end Watched

/-! ### The row of shutdowns -/

/-- The shutdowns have come down to the given number of processes: the others have come back, and
these have not been called. -/
structure Reaches (sup : Supervisor W) (n : Nat) (e : Engine W) : Prop where
  entered : HasEntered .stopping e.history
  behind : ∀ j < sup.processes.length, n ≤ j → HasReturned .close j e.history
  ahead : ∀ j < n, ¬ HasCalled .close j e.history ∧ ¬ HasReturned .close j e.history

/-- A process is being shut down: those behind it have come back, and those before it have not been
called. -/
structure ShutsDown (sup : Supervisor W) (index : Nat) (e : Engine W) : Prop where
  entered : HasEntered .stopping e.history
  underWay : UnderWay .close index e.history
  behind : ∀ j < sup.processes.length, index < j → HasReturned .close j e.history
  ahead : ∀ j < index, ¬ HasCalled .close j e.history ∧ ¬ HasReturned .close j e.history

theorem Reaches.called {index : Nat} (h : Reaches sup (index + 1) e) (m : Moment) :
    ShutsDown sup index (e.record (.called .close index m)) := by
  have hcalled (j : Nat) : HasCalled .close j (e.record (.called .close index m)).history ↔
      index = j ∨ HasCalled .close j e.history :=
    hasCalled_cons.trans (or_congr_left (by simp))
  have hreturned (j : Nat) : HasReturned .close j (e.record (.called .close index m)).history ↔
      HasReturned .close j e.history := hasReturned_cons.trans (by simp)
  refine ⟨h.entered.mono (List.subset_cons_self ..), ⟨(hcalled index).2 (.inl rfl), ?_⟩,
    fun j hj hlt => ?_, fun j hj => ?_⟩
  · rw [hreturned]
    exact (h.ahead index (Nat.lt_succ_self _)).2
  · exact (hreturned j).2 (h.behind j hj hlt)
  · obtain ⟨hnotCalled, hnotReturned⟩ := h.ahead j (Nat.lt_succ_of_lt hj)
    rw [hcalled, hreturned]
    exact ⟨not_or.2 ⟨Nat.ne_of_gt hj, hnotCalled⟩, hnotReturned⟩

/-- No shutdown begins or comes back while processes act. -/
theorem ShutsDown.course {index : Nat} (h : ShutsDown sup index e) (hcourse : Course e e') :
    ShutsDown sup index e' := by
  have hcalled (j : Nat) : HasCalled .close j e'.history ↔ HasCalled .close j e.history :=
    hcourse.hasCalled_iff (by simp)
  have hreturned (j : Nat) : HasReturned .close j e'.history ↔ HasReturned .close j e.history :=
    hcourse.hasReturned_iff (by simp)
  refine ⟨h.entered.mono hcourse.adds.history_subset, ?_,
    fun j hj hlt => (hreturned j).2 (h.behind j hj hlt), fun j hj => ?_⟩
  · exact (and_congr (hcalled index) (not_congr (hreturned index))).2 h.underWay
  · exact (and_congr (not_congr (hcalled j)) (not_congr (hreturned j))).2 (h.ahead j hj)

theorem ShutsDown.returned {index : Nat} (h : ShutsDown sup index e) (o : Outcome) :
    Reaches sup index (e.record (.returned .close index o)) := by
  refine ⟨h.entered.mono (List.subset_cons_self ..), fun j hj hle => hasReturned_cons.2 ?_,
    fun j hj => ⟨?_, ?_⟩⟩
  · rcases Nat.eq_or_lt_of_le hle with rfl | hlt
    · exact .inl ⟨o, rfl⟩
    · exact .inr (h.behind j hj hlt)
  · refine hasCalled_cons.not.2 ?_
    simpa using (h.ahead j hj).1
  · refine hasReturned_cons.not.2 ?_
    simpa [Nat.ne_of_gt hj] using (h.ahead j hj).2

/-- What stands first in the rest of a row of shutdowns. -/
theorem of_cons_suffix {index : Nat} {p : Component W} {row : List (Nat × Component W)}
    (h : (index, p) :: row <:+ sup.numbered.reverse) :
    index = row.length ∧ sup.processes[index]? = some p := by
  obtain ⟨before, h⟩ := h
  have hforward : sup.numbered = row.reverse ++ (index, p) :: before.reverse := by
    rw [← List.reverse_reverse sup.numbered, ← h]
    simp
  have hrow := (map_fst_of_numbered_eq hforward).1
  refine ⟨by simpa using (congrArg List.length hrow).symm, ?_⟩
  have hmem : (index, p) ∈ sup.numbered := by
    rw [hforward]
    simp
  obtain ⟨⟨q, i⟩, hq, heq⟩ := List.mem_map.1 hmem
  obtain ⟨rfl, rfl⟩ := Prod.mk.inj heq
  exact List.mk_mem_zipIdx_iff_getElem?.1 hq

variable {sch : Schedule W} {s : Scope} {index : Nat} {p : Component W}

/-- If a process finds the scope cancelled in which it is shut down, some process has done that. -/
theorem Watched.found (h : Watched sup outer start e) (hissues : start.Issues outer)
    (hreaches : Reaches sup (index + 1) e) (hs : s.token = phaseToken outer start .close)
    (hcancelled : s.isCancelled e.tokens = true) :
    ∃ y earlier, y :: earlier <:+ e.history ∧
      y.event = .cancelled (phaseToken outer start .close) ∧
      ∃ k phase later, sup.Responsible .close later earlier k phase ∧
        (phase = .close → index < k) := by
  rcases (h.handed.tells s).isCancelled_iff.1 hcancelled with hbefore | ⟨c, hc, hsuffix⟩
  · -- nothing that was handed out before the run reaches the scope
    obtain ⟨token, htoken, hsuffix⟩ := List.any_eq_true.1 hbefore
    rw [hs] at hsuffix
    exact absurd (List.isSuffixOf_iff_suffix.1 hsuffix)
      ((hissues.cancelled token htoken).not_suffix (Nat.le_succ _))
  · obtain ⟨x, earlier, hrecorded, -, hevent⟩ := recorded_of_mem_cancellations hc
    obtain ⟨later, haccounted⟩ := h.accounts x earlier hrecorded c.2 hevent
    obtain ⟨htoken, k, phase, later, hresponsible⟩ :=
      haccounted.of_suffix_close hissues.outer (hs ▸ hsuffix)
    refine ⟨x, earlier, hrecorded, htoken ▸ hevent, k, phase, later, hresponsible, ?_⟩
    -- of those that are shut down, only processes behind this one have been called
    rintro rfl
    by_contra hle
    exact (hreaches.ahead k (Nat.lt_succ_of_le (Nat.le_of_not_lt hle))).1
      (hresponsible.called.mono fun y hy => hrecorded.subset (List.mem_cons_of_mem x hy))

/-- While a process is shut down it does what its code says. -/
theorem Watched.during (h : Watched sup outer start e) (here : sup.processes[index]? = some p)
    (hshuts : ShutsDown sup index e) (hacts : ReflTransGen (Acts fun later token =>
      ∃ target, p.Cancels .close later target ∧ token = phaseToken outer start target) e e') :
    Watched sup outer start e' := by
  induction hacts with
  | refl => exact h
  | tail hfirst hlast ih =>
    have hnow := hshuts.course (course_of_acts hfirst)
    refine ih.acts ?_ hlast
    rintro later token ⟨target, hcancels, rfl⟩
    exact .clone ⟨by simp, ⟨p, here, hcancels⟩, hnow.underWay.1, fun _ => hnow.underWay.2,
      fun _ => hnow.entered⟩

/-- The next process is shut down, and if it comes back the row of shutdowns has come down to the
one before it. -/
theorem Watched.call (h : Watched sup outer start e) (hissues : start.Issues outer)
    (hreaches : Reaches sup (index + 1) e) (here : sup.processes[index]? = some p)
    (hs : s.token = phaseToken outer start .close) {r : Returned}
    (hcall : e.call sch .close index s p.close = (e', r)) :
    Watched sup outer start e' ∧ ∀ o, r = .outcome o → Reaches sup index e' := by
  obtain ⟨e₁, hacts, hcall'⟩ := call_acts (fun later token =>
      ∃ target, p.Cancels .close later target ∧ token = phaseToken outer start target) sch
    .close index e fun later token ⟨kept, hmem, hclone⟩ =>
      ⟨kept.getD .close, ⟨kept, hmem, rfl⟩,
        (h.clones.clone hs (fun _ => hreaches.entered) hclone).1⟩
  have hshuts := hreaches.called (e.moment s (s.remaining e.now))
  have hcalled : Watched sup outer start
      (e.record (.called .close index (e.moment s (s.remaining e.now)))) := by
    refine h.record (s := s) (.called index) nofun fun i m hevent hcancelled => ?_
    cases hevent
    exact h.found hissues hreaches hs hcancelled
  have hwatched : Watched sup outer start e₁ := hcalled.during here hshuts hacts
  rcases hcall' with hnever | ⟨o, houtcome⟩
  · cases hcall.symm.trans hnever
    exact ⟨hwatched, fun o ho => by cases ho⟩
  · cases hcall.symm.trans houtcome
    exact ⟨hwatched.record (s := s) (.returned index o) nofun nofun,
      fun _ _ => (hshuts.course (course_of_acts hacts)).returned o⟩

/-- Processes are shut down one after the other. -/
theorem Watched.visits {row rest : List (Nat × Component W)} {os : List Outcome}
    (h : Watched sup outer start e) (hissues : start.Issues outer)
    (hs : s.token = phaseToken outer start .close)
    (hvisits : Visits sch .close s Component.close row e os e')
    (hrow : row ++ rest <:+ sup.numbered.reverse) (hreaches : Reaches sup (row ++ rest).length e) :
    Watched sup outer start e' ∧ Reaches sup rest.length e' := by
  induction hvisits with
  | nil => exact ⟨h, hreaches⟩
  | cons hfirst _ ih =>
    obtain ⟨rfl, here⟩ := of_cons_suffix hrow
    obtain ⟨hwatched, hreaches'⟩ := h.call hissues hreaches here hs hfirst
    exact ih hwatched ((List.suffix_cons ..).trans hrow) (hreaches' _ rfl)

/-- Processes are shut down one after the other until one panics or never comes back. -/
theorem Watched.breaks {row : List (Nat × Component W)} {good : Outcome → Prop} {r : Returned}
    (h : Watched sup outer start e) (hissues : start.Issues outer)
    (hs : s.token = phaseToken outer start .close)
    (hbreaks : Breaks sch .close s Component.close good row e index r e')
    (hrow : row <:+ sup.numbered.reverse) (hreaches : Reaches sup row.length e) :
    Watched sup outer start e' := by
  obtain ⟨hvisits, -, hcall, -⟩ := hbreaks
  obtain ⟨hwatched, hreaches'⟩ := h.visits hissues hs hvisits hrow hreaches
  obtain ⟨rfl, here⟩ := of_cons_suffix ((List.suffix_append ..).trans hrow)
  exact (hwatched.call hissues hreaches' here hs hcall).1

/-! ### Whole runs -/

/-- What holds when a run is over. -/
structure Observed (sup : Supervisor W) (outer : Scope) (start e : Engine W) : Prop where
  scope : ∀ t ∈ e.tasks, t.scope = runScope outer start
  accounts : Accounts sup outer start e
  runs : ∀ c ∈ e.calls .run, c.moment.done = true → DoneBy start e (runScope outer start) c.time
  finds : Finds sup outer start e

theorem Watched.observed (h : Watched sup outer start e) : Observed sup outer start e :=
  ⟨h.manned.scope, h.accounts, h.handed.runs, h.finds⟩

/-- Clearing away what is left over changes nothing of that. -/
theorem Observed.cleared (h : Observed sup outer start e) :
    Observed sup outer start (cleared e) := by
  have hhistory : (Supervisor.cleared e).history = (⟨e.now, .stopped, .published .stopped⟩ ::
      ((e.mailbox.reports.map fun r => ⟨e.now, e.stage, .discarded r⟩).reverse ++
        ((e.tasks.filter (·.outcome.isNone)).map
          fun t => ⟨e.now, e.stage, .aborted t.index⟩).reverse)) ++ e.history := by
    rw [cleared_eq]
    simp
  -- what is added is neither a cancellation nor a call
  have hnew {Q : Entry → List Entry → Prop} (hpublished : ∀ t s earlier,
        Q ⟨t, s, .published .stopped⟩ earlier)
      (hdiscarded : ∀ t s r earlier, Q ⟨t, s, .discarded r⟩ earlier)
      (haborted : ∀ t s i earlier, Q ⟨t, s, .aborted i⟩ earlier) (hQ : Throughout Q e.history) :
      Throughout Q (Supervisor.cleared e).history := by
    rw [hhistory]
    refine hQ.append fun x hx earlier => ?_
    simp only [List.mem_cons, List.mem_append, List.mem_reverse, List.mem_map] at hx
    rcases hx with rfl | ⟨r, -, rfl⟩ | ⟨t, -, rfl⟩
    · exact hpublished ..
    · exact hdiscarded ..
    · exact haborted ..
  refine ⟨fun t ht => ?_, hnew nofun nofun nofun h.accounts, ?_, hnew nofun nofun nofun h.finds⟩
  · rw [cleared_eq] at ht
    exact h.scope t (List.mem_of_mem_filter ht)
  · rw [show (Supervisor.cleared e).calls .run = e.calls .run from
      filterMap_cleared _ e (fun _ => rfl) (fun _ => rfl) rfl]
    exact fun c hc hdone => (adds_cleared e).doneBy (h.runs c hc hdone)

/-- What holds before the tasks have been made. -/
theorem observed_of_quiet (hquiet : e.Quiet) (hpreparing : Preparing sup outer start e)
    (hfinds : Finds sup outer start e) : Observed sup outer start e := by
  refine ⟨?_, hpreparing.accounts, ?_, hfinds⟩
  · simp [hquiet.tasks]
  · simp [hquiet.calls]

variable {e₁ e₂ : Engine W}

/-- While the processes are prepared none is shut down. -/
theorem finds_prepared (he : e.Fresh) (hadds : Adds (fun x => x.event.Within .prepare)
    (e.publish .preRunning) e₁) : Finds sup outer e e₁ := by
  have hfresh : Finds sup outer e (e.publish .preRunning) := by
    show Throughout _ (_ :: _)
    rw [he.history]
    refine ((?_ : Throughout _ []).cons ?_).cons ?_
    · intro x earlier hsuffix
      cases List.suffix_nil.1 hsuffix
    · exact fun _ _ hevent => by cases hevent
    · exact fun _ _ hevent => by cases hevent
  refine hadds.throughout (fun x hx earlier index m hevent => ?_) hfresh
  rw [hevent] at hx
  exact absurd hx (by simp [Event.Within])

/-- The scope that the run makes for its running processes. -/
theorem scope_start {os : List Outcome} (hvisits : Visits sch .prepare outer Component.prepare
    sup.numbered (e.publish .preRunning) os e₁) : (sup.start outer e₁).2 = runScope outer e := by
  have hnext : e₁.tokens.next = e.tokens.next := (kept_next _).visits hvisits rfl
  show Scope.mk (_ :: _) _ = Scope.mk (_ :: _) _
  rw [hnext]

/-- When all tasks have just been made, the invariant holds. -/
theorem watched_start {os : List Outcome} (he : e.Fresh) (hissues : e.Issues outer)
    (hvisits : Visits sch .prepare outer Component.prepare sup.numbered (e.publish .preRunning) os
      e₁) : Watched sup outer e (sup.start outer e₁).1 := by
  have hquiet : e₁.Quiet := kept_quiet.visits hvisits (he.quiet.publish .preRunning)
  have hpath := path_prepared he hvisits
  have hpreparing : Preparing sup outer e e₁ :=
    (preparing_fresh he hissues).path hissues.outer hpath
  have hadds : Adds (fun _ => True) e (sup.start outer e₁).1 :=
    (hpath.adds.mono fun _ _ => trivial).trans (.of_record rfl rfl trivial)
  have htask : ∀ t ∈ (sup.start outer e₁).1.tasks,
      t.scope = (sup.start outer e₁).2 ∧ t.started = false := by
    intro t ht
    obtain ⟨x, -, rfl⟩ := List.mem_map.1 (show t ∈ sup.tasks _ _ from ht)
    exact ⟨rfl, rfl⟩
  have hruns : (sup.start outer e₁).1.calls .run = [] :=
    (filterMap_entries_of_none _ rfl rfl).trans hquiet.calls
  refine ⟨⟨roster_start he hvisits, ?_, ?_⟩, ?_, ?_, ⟨?_, ?_, ?_⟩, ?_⟩
  · exact fun t ht => (htask t ht).1.trans (scope_start hvisits)
  · intro t ht hstarted
    rw [(htask t ht).2] at hstarted
    cases hstarted
  · exact hpreparing.clones.started (congrArg Scope.token (scope_start hvisits))
  · exact hpreparing.accounts.cons fun _ hevent => by cases hevent
  · exact hadds.ordered (ordered_fresh he)
  · intro s
    have hprepared : Tells e s e₁ :=
      hpath.preserves (fun _ _ hmove h => tells_moves h hmove) (tells_fresh he s)
    exact hprepared.of_eq rfl (filterMap_entries_of_none _ rfl rfl)
  · simp [hruns]
  · exact (finds_prepared he (hvisits.adds.mono fun _ hx => hx.2)).cons
      fun _ _ hevent => by cases hevent

/-- When the first process is going to be shut down, none has been. -/
theorem Stops.reaches (h : Stops sch sup outer e e₁ e₂) (he : e.Fresh) :
    Reaches sup sup.processes.length (closing (takeCause sch outer e₂).1) := by
  refine ⟨⟨_, List.mem_cons_self, rfl⟩, fun j hj hle => absurd hj (Nat.not_lt.2 hle),
    fun j _ => ⟨?_, ?_⟩⟩
  · rintro ⟨⟨time, stage, event⟩, hx, m, rfl⟩
    have hcall : (⟨j, time, stage, m⟩ : Call) ∈ (closing (takeCause sch outer e₂).1).calls .close :=
      mem_calls.2 (List.mem_reverse.2 hx)
    rw [h.calls_closing he] at hcall
    cases hcall
  · rw [hasReturned_history, (h.passed he).returns_closing]
    simp

/-- Until the last stage is entered one token has been made, that of the running processes. -/
theorem Stops.next_eq (h : Stops sch sup outer e e₁ e₂) :
    (takeCause sch outer e₂).1.tokens.next = e.tokens.next + 1 := by
  obtain ⟨os, hvisits, -⟩ := h.prepared
  have hprepared : e₁.tokens.next = e.tokens.next := (kept_next _).visits hvisits rfl
  have hstart : (sup.start outer e₁).1.tokens.next = e.tokens.next + 1 :=
    congrArg (· + 1) hprepared
  have hwaiting : (waiting sch sup outer e₁).tokens.next = e.tokens.next + 1 :=
    waiting_preserves (P := fun x => x.tokens.next = e.tokens.next + 1)
      (fun _ _ hstep h => hstep.next_eq.trans h) (fun _ h => h) hstart
  have hnext : e₂.tokens.next = e.tokens.next + 1 :=
    h.course.preserves (P := fun x => x.tokens.next = e.tokens.next + 1)
      (fun _ _ hstep h => hstep.next_eq.trans h) hwaiting
  rcases takeCause_cases sch outer e₂ with ⟨heq, -⟩ | ⟨r, rest, -, -, heq⟩
  · rw [heq]
    exact hnext
  · rw [heq]
    exact hnext

/-- A run that comes to its last stage. -/
theorem Stops.observed (h : Stops sch sup outer e e₁ e₂) (he : e.Fresh)
    (hissues : e.Issues outer) : Observed sup outer e (sup.run sch outer e).1 := by
  obtain ⟨os, hvisits, -⟩ := h.prepared
  have hcause := (watched_start he hissues hvisits).path (s := outer) h.moves_cause
  have hclosing := hcause.closing h.next_eq
  have hreaches := h.reaches he
  have hscope : (scope sch sup outer e₂).token = phaseToken outer e .close :=
    congrArg (fun n => [n]) h.next_eq
  have hlength : sup.numbered.reverse.length = sup.processes.length := by simp [numbered]
  rw [← hlength] at hreaches
  have hends := h.ends
  generalize sup.run sch outer e = r at hends ⊢
  cases hends with
  | unfit =>
    exact (hcause.path (s := outer) (.single (.published .stopping))).observed
  | hangs _ hbreaks | panics _ hbreaks =>
    exact (hclosing.breaks hissues hscope hbreaks (List.suffix_refl _) hreaches).observed
  | @closed os e₃ _ hclosed =>
    rw [← List.append_nil sup.numbered.reverse] at hreaches
    obtain ⟨hwatched, hreaches⟩ := hclosing.visits hissues hscope hclosed (by simp) hreaches
    have hacts : Acts (fun later token => later = none ∧ token = (runScope outer e).token) e₃
        (e₃.cancel (sup.start outer e₁).2.token) :=
      .cancel (.inl ⟨rfl, congrArg Scope.token (scope_start hvisits)⟩)
    have hcancelled : Watched sup outer e (e₃.cancel (sup.start outer e₁).2.token) := by
      refine hwatched.acts ?_ hacts
      rintro later token ⟨rfl, rfl⟩
      exact .closed fun k hk => hreaches.behind k hk (Nat.zero_le _)
    exact ((hcancelled.path (s := outer)
      (.head .runCancelled (path_drain sch _ _))).observed).cleared

/-- Every run. -/
theorem observed_run (sch : Schedule W) (sup : Supervisor W) {outer : Scope} (he : e.Fresh)
    (hissues : e.Issues outer) : Observed sup outer e (sup.run sch outer e).1 := by
  have hends := run_ends sch sup outer e
  generalize hrun : sup.run sch outer e = r at hends ⊢
  -- a run that breaks while preparing has made no tasks
  have hbroken {index : Nat} {result : Returned} {e₁ : Engine W}
      (hbreaks : Breaks sch .prepare outer Component.prepare (· = .ok) sup.numbered
        (e.publish .preRunning) index result e₁) : Observed sup outer e e₁ := by
    refine observed_of_quiet (kept_quiet.breaks hbreaks (he.quiet.publish .preRunning)) ?_
      (finds_prepared he (hbreaks.adds.mono fun _ hx => hx.2))
    exact (preparing_fresh he hissues).path hissues.outer (.head (.published .preRunning)
      (path_breaks (fun _ _ _ _ => eq_of_mayCancel_fresh he) hbreaks))
  cases hends with
  | hangs hbreaks | panics hbreaks => exact hbroken hbreaks
  | fails hbreaks =>
    obtain ⟨hscope, haccounts, hruns, hfinds⟩ := hbroken hbreaks
    refine ⟨hscope, haccounts.cons nofun, ?_, hfinds.cons nofun⟩
    rw [calls_publish]
    have hstopped {e₁ : Engine W} : Adds (fun _ => True) e₁ (e₁.publish .stopped) :=
      .of_record rfl rfl trivial
    exact fun c hc hdone => hstopped.doneBy (hruns c hc hdone)
  | @waits os e₁ e₂ hvisits hprepared hwait =>
    have hstalls : Stalls sch sup outer e e₁ e₂ := ⟨⟨os, hvisits, hprepared⟩, hwait, hrun⟩
    have hwatched := (watched_start he hissues hvisits).path (s := outer) hstalls.moves
    rw [hrun] at hwatched
    exact hwatched.observed
  | @stops os e₁ e₂ hvisits hprepared hwait =>
    have hstops : Stops sch sup outer e e₁ e₂ :=
      ⟨⟨os, hvisits, hprepared⟩, hwait, hrun ▸ stop_ends ..⟩
    rw [← hrun]
    exact hstops.observed he hissues

/-- When the scope of the running processes is done but the outer one is not, that scope itself was
cancelled. -/
theorem Observed.doneBy (h : Observed sup outer start e) (houter : start.tokens.Issued outer.token)
    (hissued : ∀ t ∈ start.tokens.cancelled, start.tokens.Issued t) {time : Nat}
    (hdone : DoneBy start e (runScope outer start) time) :
    DoneBy start e outer time ∨ ∃ x earlier, x :: earlier <:+ e.history ∧ x.time ≤ time ∧
      x.event = .cancelled (runScope outer start).token ∧
      ((∃ k phase later, sup.Responsible .run later earlier k phase) ∨
        ∀ k < sup.processes.length, HasReturned .close k earlier) := by
  rcases hdone with hbefore | ⟨⟨_, token⟩, hc, htime, hsuffix⟩ | hdeadline
  · -- what was cancelled before the run reaches the new token through the outer one
    obtain ⟨token, htoken, hsuffix⟩ := List.any_eq_true.1 hbefore
    rcases List.suffix_cons_iff.1 (List.isSuffixOf_iff_suffix.1 hsuffix) with rfl | hsuffix
    · exact absurd ((hissued _ htoken).2 _ List.mem_cons_self) (Nat.lt_irrefl _)
    · exact .inl (.inl (List.any_eq_true.2 ⟨token, htoken, List.isSuffixOf_iff_suffix.2 hsuffix⟩))
  · obtain ⟨x, earlier, hrecorded, rfl, hevent⟩ := recorded_of_mem_cancellations hc
    obtain ⟨later, haccounted⟩ := h.accounts x earlier hrecorded token hevent
    rcases haccounted.of_suffix_runScope houter hsuffix with hsuffix | ⟨rfl, hcause⟩
    · exact .inl (.inr (.inl ⟨_, hc, htime, hsuffix⟩))
    · exact .inr ⟨x, earlier, hrecorded, htime, hevent, hcause⟩
  · exact .inl (.inr (.inr hdeadline))

/-- **Processes share their scopes, and nobody else cancels them.**  All processes run in one scope.
It is done only when the outer scope is, or when its token was cancelled: by a process, or after all
processes had been shut down.  The scope in which the processes are shut down is cancelled only by a
process, and only in the last stage; one that finds it cancelled when it is called to be shut down
finds it so because some process had done that before.  A process cancels a scope only if its code
says so: while its run or its shutdown is under way, by the scope that it was handed then or by a
clone that it or another one has kept, or later by what it has left behind. -/
theorem cancellations_accounted (sch : Schedule W) (sup : Supervisor W) (outer : Scope)
    {e : Engine W} (he : e.Fresh) (hissues : e.Issues outer) :
    (∀ t ∈ (sup.run sch outer e).1.tasks, t.scope = runScope outer e) ∧
    (∀ c ∈ (sup.run sch outer e).1.calls .run, c.moment.done = true →
      DoneBy e (sup.run sch outer e).1 (runScope outer e) c.time) ∧
    (∀ time, DoneBy e (sup.run sch outer e).1 (runScope outer e) time →
      DoneBy e (sup.run sch outer e).1 outer time ∨
      ∃ x earlier, x :: earlier <:+ (sup.run sch outer e).1.history ∧ x.time ≤ time ∧
        x.event = .cancelled (runScope outer e).token ∧
        ((∃ k phase later, sup.Responsible .run later earlier k phase) ∨
          ∀ k < sup.processes.length, HasReturned .close k earlier)) ∧
    (∀ x earlier token, x :: earlier <:+ (sup.run sch outer e).1.history →
      x.event = .cancelled token → token <:+ phaseToken outer e .close →
      token = phaseToken outer e .close ∧
        ∃ k phase later, sup.Responsible .close later earlier k phase) ∧
    (∀ x before index m, x :: before <:+ (sup.run sch outer e).1.history →
      x.event = .called .close index m → m.cancelled = true →
      ∃ y earlier, y :: earlier <:+ before ∧ y.event = .cancelled (phaseToken outer e .close) ∧
        ∃ k phase later, sup.Responsible .close later earlier k phase ∧
          (phase = .close → index < k)) := by
  have hobserved := observed_run sch sup he hissues
  refine ⟨hobserved.scope, hobserved.runs, fun time hdone => ?_,
    fun x earlier token hrecorded hevent hsuffix => ?_,
    fun x before index m hrecorded => hobserved.finds x before hrecorded index m⟩
  · exact hobserved.doneBy hissues.outer hissues.cancelled hdone
  · obtain ⟨later, haccounted⟩ := hobserved.accounts x earlier hrecorded token hevent
    exact haccounted.of_suffix_close hissues.outer hsuffix

/-- Of two processes the second cancels its scope after 150 milliseconds, and nothing else happens:
the scope of both is done by then, which is the doing of the second. -/
theorem cancellations_accounted_two :
    let waiting : Component Unit := { run := .untilDone }
    let selfish : Component Unit :=
      { run := Routine.sleep (150 * Duration.nanosPerMilli) ++ [.cancel] }
    let start := begin () ⟨1, []⟩ []
    let r := ({ processes := [waiting, selfish] } : Supervisor Unit).run .usual ⟨[0], none⟩ start
    ∃ x earlier, x :: earlier <:+ r.1.history ∧ x.time ≤ 150 * Duration.nanosPerMilli ∧
      x.event = .cancelled [1, 0] ∧ UnderWay .run 1 earlier := by
  intro waiting selfish start r
  have hissues : start.Issues ⟨[0], none⟩ := by
    constructor <;> simp [start, begin, Tokens.Issued]
  have hdone : DoneBy start r.1 (runScope ⟨[0], none⟩ start) (150 * Duration.nanosPerMilli) := by
    decide +kernel
  have houter : ¬ DoneBy start r.1 ⟨[0], none⟩ (150 * Duration.nanosPerMilli) := by
    decide +kernel
  have hreturns : r.1.returns .close = [] := by decide +kernel
  obtain ⟨-, -, hcause, -, -⟩ := cancellations_accounted .usual
    { processes := [waiting, selfish] } ⟨[0], none⟩ (fresh_begin () ⟨1, []⟩ []) hissues
  -- the code of the first process has no cancellation, that of the second has one, in its run
  have hwaiting (phase : Phase) (later : Option Nat) : ¬ waiting.Cancels phase later .run := by
    cases phase <;> simp [Component.Cancels, Component.code, waiting, Routine.untilDone]
  have hselfish (phase : Phase) (later : Option Nat) (h : selfish.Cancels phase later .run) :
      phase = .run ∧ later = none := by
    cases phase <;>
      simp_all [Component.Cancels, Component.code, selfish, Routine.sleep]
  -- from here on the run is not to be computed any more
  clear_value waiting selfish
  obtain ⟨x, earlier, hrecorded, htime, hevent, ⟨k, phase, later, hresponsible⟩ | hclosed⟩ :=
    (hcause _ hdone).resolve_left houter
  · refine ⟨x, earlier, hrecorded, htime, hevent, ?_⟩
    obtain ⟨p, hp, hcancels⟩ := hresponsible.cancels
    cases k with
    | zero =>
      obtain rfl : waiting = p := Option.some.inj hp
      exact absurd hcancels (hwaiting phase later)
    | succ k =>
      cases k with
      | zero =>
        obtain rfl : selfish = p := Option.some.inj hp
        obtain ⟨rfl, rfl⟩ := hselfish phase later hcancels
        exact ⟨hresponsible.called, hresponsible.underWay rfl⟩
      | succ k => cases hp
  · have hreturned : HasReturned .close 0 r.1.history :=
      (hclosed 0 (by simp)).mono fun y hy => hrecorded.subset (List.mem_cons_of_mem x hy)
    rw [hasReturned_history, hreturns] at hreturned
    cases hreturned

/-- A process that cancels neither of its scopes can lose both through another one.  Of two
processes the second cancels its scope, 150 milliseconds after it began and again when it is shut
down: the run of the first one ends at once, although the outer scope is not done and nothing has
been shut down, and its shutdown finds the scope cancelled. -/
theorem cancellation_not_contained :
    let waiting : Component Unit := { run := .untilDone }
    let selfish : Component Unit :=
      { run := Routine.sleep (150 * Duration.nanosPerMilli) ++ [.cancel], close := [.cancel] }
    let start := begin () ⟨1, []⟩ [(500 * Duration.nanosPerMilli, [0])]
    let r := ({ processes := [waiting, selfish] } : Supervisor Unit).run .usual ⟨[0], none⟩ start
    (∀ phase later target, ¬ waiting.Cancels phase later target) ∧
      r.1.endTime? 0 = some (150 * Duration.nanosPerMilli) ∧
      DoneBy start r.1 (runScope ⟨[0], none⟩ start) (150 * Duration.nanosPerMilli) ∧
      ¬ DoneBy start r.1 ⟨[0], none⟩ (150 * Duration.nanosPerMilli) ∧
      r.1.enteredAt? .stopping = some (500 * Duration.nanosPerMilli) ∧
      ∃ c ∈ r.1.calls .close, c.index = 0 ∧ c.moment.cancelled = true := by
  intro waiting selfish start r
  refine ⟨fun phase later target => ?_, ?_⟩
  · cases phase <;> simp [Component.Cancels, Component.code, waiting, Routine.untilDone]
  · decide +kernel

/-- A clone that was kept outlasts its phase.  The first of two processes fails after 150
milliseconds, and when the second is shut down it cancels the scope of the runs by the clone that it
has kept: its own run, which waits for that, ends while the first is still to be shut down. -/
example :
    let failing : Component Unit :=
      { run := Routine.sleep (150 * Duration.nanosPerMilli) ++ .finish (.failed (.text "crash"))
        close := .sleep (30 * Duration.nanosPerMilli) }
    let keeping : Component Unit := { run := .untilDone, close := [.cancel (some .run)] }
    let r := ({ processes := [failing, keeping] } : Supervisor Unit).run .usual ⟨[0], none⟩
      (begin () ⟨1, []⟩ [])
    r.1.endTime? 1 = some (150 * Duration.nanosPerMilli) ∧
      (r.1.returnTimes .close).getLast? = some (180 * Duration.nanosPerMilli) := by
  decide +kernel

end ServiceHost.Supervisor
