import ServiceHost.Proofs.Lifecycle.Roster
import ServiceHost.Proofs.Lifecycle.Trigger
/-!
Whose doing a cancellation is.

A process that is handed a scope may keep a clone of it: it may cancel that in a later phase, give
it away, or leave it to somebody who goes on in the background.  `Supervisor.Responsible` says what
is on record when a process can have cancelled the scope of a phase, and `Supervisor.Accounted`
lists all that can be cancelled during a run.

Two invariants carry this.  A task is in its place, and the record tells whether it has begun and
whether it has ended (`Supervisor.Manned`); only the scopes of the phases are handed out, and what
is going to come from outside was there before the run or is somebody's doing (`Supervisor.Clones`).
From them every cancellation of a run is accounted for (`Supervisor.Accounts`).  What a process sees
of its scope when it begins to run is on record too (`Supervisor.Handed`).
-/

namespace ServiceHost

variable {W : Type}

/-! ### Tokens that were handed out -/

/-- The token has been handed out: it is not empty, and none of its numbers is still to come. -/
def Tokens.Issued (ts : Tokens) (t : Token) : Prop :=
  t ≠ [] ∧ ∀ n ∈ t, n < ts.next

/-- Cancelling a token that has been handed out does not reach a root that is still to come. -/
theorem Tokens.Issued.not_suffix {ts : Tokens} {t : Token} (h : ts.Issued t) {n : Nat}
    (hn : ts.next ≤ n) : ¬ t <:+ [n] := by
  intro hsuffix
  rcases List.suffix_cons_iff.1 hsuffix with rfl | hnil
  · exact absurd (h.2 n List.mem_cons_self) (Nat.not_lt.2 hn)
  · exact h.1 (List.suffix_nil.1 hnil)

/-- The tokens in use, and that of the outer scope, have been handed out. -/
structure Engine.Issues (outer : Scope) (e : Engine W) : Prop where
  outer : e.tokens.Issued outer.token
  cancelled : ∀ t ∈ e.tokens.cancelled, e.tokens.Issued t
  outside : ∀ o ∈ e.outside, e.tokens.Issued o.2

/-! ### What a record tells of a phase -/

/-- The record tells that a phase of a process was called. -/
def HasCalled (phase : Phase) (index : Nat) (record : List Entry) : Prop :=
  ∃ x ∈ record, ∃ m, x.event = .called phase index m

/-- The record tells that a phase of a process came back. -/
def HasReturned (phase : Phase) (index : Nat) (record : List Entry) : Prop :=
  ∃ x ∈ record, ∃ o, x.event = .returned phase index o

/-- A phase of a process was called and has not come back. -/
def UnderWay (phase : Phase) (index : Nat) (record : List Entry) : Prop :=
  HasCalled phase index record ∧ ¬ HasReturned phase index record

/-- The record tells that a stage was entered. -/
def HasEntered (stage : Stage) (record : List Entry) : Prop :=
  ∃ x ∈ record, x.event = .published stage

/-- Each entry of a record satisfies a condition together with what was on record before it. -/
def Throughout (Q : Entry → List Entry → Prop) (record : List Entry) : Prop :=
  ∀ x earlier, x :: earlier <:+ record → Q x earlier

section Records

variable {phase : Phase} {index : Nat} {record record' : List Entry}

theorem HasCalled.mono (h : HasCalled phase index record) (hsub : record ⊆ record') :
    HasCalled phase index record' := by
  obtain ⟨x, hx, hevent⟩ := h
  exact ⟨x, hsub hx, hevent⟩

theorem HasReturned.mono (h : HasReturned phase index record) (hsub : record ⊆ record') :
    HasReturned phase index record' := by
  obtain ⟨x, hx, hevent⟩ := h
  exact ⟨x, hsub hx, hevent⟩

theorem HasEntered.mono {stage : Stage} (h : HasEntered stage record) (hsub : record ⊆ record') :
    HasEntered stage record' := by
  obtain ⟨x, hx, hevent⟩ := h
  exact ⟨x, hsub hx, hevent⟩

theorem hasCalled_cons {x : Entry} : HasCalled phase index (x :: record) ↔
    (∃ m, x.event = .called phase index m) ∨ HasCalled phase index record := by
  simp [HasCalled]

theorem hasReturned_cons {x : Entry} : HasReturned phase index (x :: record) ↔
    (∃ o, x.event = .returned phase index o) ∨ HasReturned phase index record := by
  simp [HasReturned]

variable {Q : Entry → List Entry → Prop}

theorem Throughout.cons (h : Throughout Q record) {x : Entry} (hx : Q x record) :
    Throughout Q (x :: record) := by
  intro y earlier hsuffix
  rcases List.suffix_cons_iff.1 hsuffix with heq | hsuffix
  · obtain ⟨rfl, rfl⟩ := List.cons.inj heq
    exact hx
  · exact h y earlier hsuffix

theorem Throughout.append (h : Throughout Q record) {new : List Entry}
    (hnew : ∀ x ∈ new, ∀ earlier, Q x earlier) : Throughout Q (new ++ record) := by
  induction new with
  | nil => exact h
  | cons x new ih =>
    obtain ⟨hx, hothers⟩ := List.forall_mem_cons.1 hnew
    exact (ih hothers).cons (hx _)

end Records

namespace Engine

/-- The record of an engine tells that a phase came back if and only if its returns do. -/
theorem hasReturned_history {phase : Phase} {index : Nat} {e : Engine W} :
    HasReturned phase index e.history ↔ index ∈ (e.returns phase).map Prod.fst := by
  unfold HasReturned returns entries
  rw [List.mem_map]
  constructor
  · rintro ⟨x, hx, o, hevent⟩
    refine ⟨(index, o), List.mem_filterMap.2 ⟨x, List.mem_reverse.2 hx, ?_⟩, rfl⟩
    simp [Entry.returned?, hevent]
  · rintro ⟨⟨i, o⟩, hmem, rfl⟩
    obtain ⟨x, hx, hreturned⟩ := List.mem_filterMap.1 hmem
    refine ⟨x, List.mem_reverse.1 hx, o, ?_⟩
    unfold Entry.returned? at hreturned
    split at hreturned
    next p i' o' hevent =>
      split at hreturned
      next hp =>
        cases hreturned
        rw [hevent, hp]
      next => cases hreturned
    next => cases hreturned

/-- What happens while a phase is called tells nothing of the calls of phases other than the run. -/
theorem Course.exists_event_iff {e e' : Engine W} (h : Course e e') {P : Event → Prop}
    (hP : ∀ event, P event → ¬ event.Within .run) :
    (∃ x ∈ e'.history, P x.event) ↔ ∃ x ∈ e.history, P x.event := by
  obtain ⟨new, hnew, -, hall⟩ := h.adds.added
  rw [hnew]
  constructor
  · rintro ⟨x, hx, hevent⟩
    rcases List.mem_append.1 hx with hx | hx
    · exact absurd (hall x hx).1.2 (hP _ hevent)
    · exact ⟨x, hx, hevent⟩
  · rintro ⟨x, hx, hevent⟩
    exact ⟨x, List.mem_append_right _ hx, hevent⟩

theorem Course.hasCalled_iff {e e' : Engine W} (h : Course e e') {phase : Phase}
    (hphase : phase ≠ .run) {index : Nat} :
    HasCalled phase index e'.history ↔ HasCalled phase index e.history := by
  refine h.exists_event_iff (P := fun event => ∃ m, event = .called phase index m) ?_
  rintro _ ⟨m, rfl⟩ hwithin
  exact hwithin.elim hphase hphase

theorem Course.hasReturned_iff {e e' : Engine W} (h : Course e e') {phase : Phase}
    (hphase : phase ≠ .run) {index : Nat} :
    HasReturned phase index e'.history ↔ HasReturned phase index e.history := by
  refine h.exists_event_iff (P := fun event => ∃ o, event = .returned phase index o) ?_
  rintro _ ⟨o, rfl⟩ hwithin
  exact hwithin.elim hphase hphase

/-- What every new entry satisfies, whatever was on record before it. -/
theorem Adds.throughout {P : Entry → Prop} {Q : Entry → List Entry → Prop} {e e' : Engine W}
    (h : Adds P e e') (hQ : ∀ x, P x → ∀ earlier, Q x earlier) (he : Throughout Q e.history) :
    Throughout Q e'.history := by
  obtain ⟨new, hnew, -, hall⟩ := h.added
  rw [hnew]
  exact he.append fun x hx => hQ x (hall x hx).1

theorem Adds.history_subset {P : Entry → Prop} {e e' : Engine W} (h : Adds P e e') :
    e.history ⊆ e'.history := by
  obtain ⟨new, hnew, -, -⟩ := h.added
  rw [hnew]
  exact List.subset_append_right ..

/-- A cancellation on record was recorded at some point. -/
theorem recorded_of_mem_cancellations {e : Engine W} {c : Nat × Token}
    (h : c ∈ e.cancellations) :
    ∃ x earlier, x :: earlier <:+ e.history ∧ x.time = c.1 ∧ x.event = .cancelled c.2 := by
  obtain ⟨⟨time, stage, event⟩, hx, hcancelled⟩ := List.mem_filterMap.1 h
  cases event with
  | cancelled token =>
    cases hcancelled
    obtain ⟨later, earlier, hhistory⟩ := List.append_of_mem (List.mem_reverse.1 hx)
    exact ⟨_, earlier, ⟨later, hhistory.symm⟩, rfl, rfl⟩
  | _ => cases hcancelled

end Engine

namespace Supervisor

open Engine Relation

/-! ### What can be cancelled -/

/-- The scope of the running processes in a run that begins in `e`.  Its token is the first one that
the run makes. -/
def runScope (outer : Scope) (e : Engine W) : Scope :=
  ⟨e.tokens.next :: outer.token, outer.deadline⟩

/-- The token of the scope that is handed out for a phase in a run that begins in `e`: the outer one
to prepare, that of the running processes, and to shut down the second one that the run makes, which
has no ancestor. -/
def phaseToken (outer : Scope) (e : Engine W) : Phase → Token
  | .prepare => outer.token
  | .run => (runScope outer e).token
  | .close => [e.tokens.next + 1]

/-- When `record` has been made, process `k` can be the one that cancels the scope of the phase
`target`.  What it does in `phase`, which was called, says so: without a delay it does that itself,
so that phase has not come back; with one it has left that behind, and may be long over.  The scope
in which processes are shut down is not there before the last stage. -/
structure Responsible (sup : Supervisor W) (target : Phase) (later : Option Nat)
    (record : List Entry) (k : Nat) (phase : Phase) : Prop where
  main : phase ≠ .prepare
  cancels : ∃ p, sup.processes[k]? = some p ∧ p.Cancels phase later target
  called : HasCalled phase k record
  underWay : later = none → ¬ HasReturned phase k record
  entered : target = .close → HasEntered .stopping record

/-- What can be cancelled, or left to be cancelled after a delay, in a run that begins in `start`
when `record` has been made: a token that was handed out before the run, the scope of the running
processes when all have been shut down, and the scope of a phase by a process that does so. -/
inductive Accounted (sup : Supervisor W) (outer : Scope) (start : Engine W) (record : List Entry) :
    Option Nat → Token → Prop
  | issued {later : Option Nat} {token : Token} (before : start.tokens.Issued token) :
      Accounted sup outer start record later token
  | closed (all : ∀ k < sup.processes.length, HasReturned .close k record) :
      Accounted sup outer start record none (runScope outer start).token
  | clone {target : Phase} {later : Option Nat} {k : Nat} {phase : Phase}
      (responsible : sup.Responsible target later record k phase) :
      Accounted sup outer start record later (phaseToken outer start target)

/-- Every cancellation is accounted for by what was on record when it was made. -/
def Accounts (sup : Supervisor W) (outer : Scope) (start e : Engine W) : Prop :=
  Throughout (fun x earlier => ∀ token, x.event = .cancelled token →
    ∃ later, Accounted sup outer start earlier later token) e.history

/-- Each task runs in its place and in the scope of the running processes, and it has begun only if
the record tells so. -/
structure Manned (sup : Supervisor W) (outer : Scope) (start e : Engine W) : Prop where
  roster : Roster sup.processes e
  scope : ∀ t ∈ e.tasks, t.scope = runScope outer start
  begun : ∀ t ∈ e.tasks, t.started = true → HasCalled .run t.index e.history

/-- What has been handed out for a phase is its scope, that of the shutdowns not before the last
stage, and what is going to come from outside was there before the run or was left behind. -/
structure Clones (sup : Supervisor W) (outer : Scope) (start e : Engine W) : Prop where
  kept : ∀ phase token, e.kept phase = some token →
    token = phaseToken outer start phase ∧ (phase = .close → HasEntered .stopping e.history)
  outside : ∀ o ∈ e.outside, ∃ delay, Accounted sup outer start e.history (some delay) o.2

variable {sup : Supervisor W} {outer : Scope} {start e e' : Engine W}
  {mine : Option Nat → Token → Prop}

/-- What was left behind can come whatever is recorded meanwhile. -/
theorem Accounted.mono {record record' : List Entry} {delay : Nat} {token : Token}
    (h : Accounted sup outer start record (some delay) token) (hsub : record ⊆ record') :
    Accounted sup outer start record' (some delay) token := by
  cases h with
  | issued before => exact .issued before
  | clone responsible =>
    obtain ⟨hmain, hcancels, hcalled, -, hentered⟩ := responsible
    exact .clone ⟨hmain, hcancels, hcalled.mono hsub, nofun, fun h => (hentered h).mono hsub⟩

namespace Manned

/-- The tasks stay as they are. -/
theorem of_eq (h : Manned sup outer start e) (hroster : Roster sup.processes e')
    (htasks : e'.tasks = e.tasks) (hhistory : e.history ⊆ e'.history) :
    Manned sup outer start e' := by
  refine ⟨hroster, ?_, ?_⟩
  · rw [htasks]
    exact h.scope
  · rw [htasks]
    exact fun t ht hstarted => (h.begun t ht hstarted).mono hhistory

/-- One task is replaced by one with the same scope that has begun only if the record tells so. -/
theorem of_set (h : Manned sup outer start e) (hroster : Roster sup.processes e') {k : Nat}
    {t t' : Task W} (here : e.tasks[k]? = some t) (htasks : e'.tasks = e.tasks.set k t')
    (hscope : t'.scope = t.scope) (hhistory : e.history ⊆ e'.history)
    (hbegun : t'.started = true → HasCalled .run t'.index e'.history) :
    Manned sup outer start e' := by
  refine ⟨hroster, fun u hu => ?_, fun u hu hstarted => ?_⟩
  · rw [htasks] at hu
    rcases List.mem_or_eq_of_mem_set hu with hu | rfl
    · exact h.scope u hu
    · rw [hscope]
      exact h.scope t (List.mem_of_getElem? here)
  · rw [htasks] at hu
    rcases List.mem_or_eq_of_mem_set hu with hu | rfl
    · exact (h.begun u hu hstarted).mono hhistory
    · exact hbegun hstarted

theorem acts (h : Manned sup outer start e) (hacts : Acts mine e e') :
    Manned sup outer start e' := by
  have hroster := h.roster.acts hacts
  cases hacts with
  | clock | change | leave => exact h.of_eq hroster rfl (List.Subset.refl _)
  | arrive | cancel => exact h.of_eq hroster rfl (List.subset_cons_self ..)
  | start here =>
    exact h.of_set hroster here rfl rfl (List.subset_cons_self ..)
      fun _ => hasCalled_cons.2 (.inl ⟨_, rfl⟩)
  | @goOn k t _ _ here =>
    exact h.of_set hroster here rfl rfl (List.Subset.refl _)
      fun hstarted => h.begun t (List.mem_of_getElem? here) hstarted
  | finish here =>
    rw [endTask_eq] at hroster ⊢
    have hsub := List.subset_cons_self (l := e.history)
    exact h.of_set hroster here rfl rfl (hsub _)
      fun hstarted => (h.begun _ (List.mem_of_getElem? here) hstarted).mono (hsub _)

theorem moves {phase : Phase} {s : Scope} (hphase : phase ≠ .run) (h : Manned sup outer start e)
    (hmove : Moves phase s mine e e') : Manned sup outer start e' := by
  have hroster := h.roster.moves hphase hmove
  cases hmove with
  | acts hacts => exact h.acts hacts
  | newScope => exact h.of_eq hroster rfl (List.Subset.refl _)
  | called | returned | announced | received | published | runCancelled =>
    exact h.of_eq hroster rfl (List.subset_cons_self ..)

end Manned

namespace Clones

/-- What a process refers to that has the scope of its phase is the scope of a phase. -/
theorem clone (h : Clones sup outer start e) {own : Scope} {phase : Phase}
    (hown : own.token = phaseToken outer start phase)
    (hentered : phase = .close → HasEntered .stopping e.history) {kept : Option Phase}
    {token : Token} (hclone : e.clone? own kept = some token) :
    token = phaseToken outer start (kept.getD phase) ∧
      (kept.getD phase = .close → HasEntered .stopping e.history) := by
  cases kept with
  | none =>
    obtain rfl := Option.some.inj hclone
    exact ⟨hown, hentered⟩
  | some other => exact h.kept other token hclone

/-- A task that is about to cancel something is one of the running processes, and its code says
so. -/
theorem accounted (h : Clones sup outer start e) (hmanned : Manned sup outer start e) {k : Nat}
    {later : Option Nat} {token : Token} (hcancelling : e.Cancelling k later token) :
    Accounted sup outer start e.history later token := by
  obtain ⟨t, kept, rest, here, hstarted, hlive, hcode, hclone⟩ := hcancelling
  have ht : t ∈ e.tasks := List.mem_of_getElem? here
  obtain ⟨rfl, p, hp, hsuffix⟩ := hmanned.roster.task k t here
  have hmem : .cancel kept later ∈ p.code .run := by
    apply hsuffix.subset
    rw [hcode]
    exact List.mem_cons_self
  -- it has not ended, so the record tells of no end of it
  have hnot : ¬ HasReturned .run t.index e.history := by
    rw [hasReturned_history, ← hmanned.roster.ended _ t here, hlive]
    simp
  have hown : t.scope.token = phaseToken outer start .run :=
    congrArg Scope.token (hmanned.scope t ht)
  obtain ⟨rfl, hentered⟩ := h.clone hown (by simp) hclone
  exact .clone ⟨by simp, ⟨p, hp, kept, hmem, rfl⟩, hmanned.begun t ht hstarted, fun _ => hnot,
    hentered⟩

/-- No scope is handed out, and what comes to the cancellations to come was left behind. -/
theorem of_eq (h : Clones sup outer start e) (hkept : e'.kept = e.kept)
    (hhistory : e.history ⊆ e'.history) (houtside : ∀ o ∈ e'.outside, o ∈ e.outside ∨
      ∃ delay, Accounted sup outer start e.history (some delay) o.2) :
    Clones sup outer start e' := by
  refine ⟨fun phase token hphase => ?_, fun o ho => ?_⟩
  · obtain ⟨htoken, hentered⟩ := h.kept phase token (hkept ▸ hphase)
    exact ⟨htoken, fun hclose => (hentered hclose).mono hhistory⟩
  · obtain ⟨delay, haccounted⟩ := (houtside o ho).elim (h.outside o) id
    exact ⟨delay, haccounted.mono hhistory⟩

theorem acts (h : Clones sup outer start e) (htasks : ∀ k later token,
      e.Cancelling k later token → Accounted sup outer start e.history later token)
    (hmine : ∀ later token, mine later token → Accounted sup outer start e.history later token)
    (hacts : Acts mine e e') : Clones sup outer start e' := by
  refine h.of_eq hacts.kept_eq hacts.happens.adds.history_subset fun o ho => ?_
  cases hacts with
  | clock | start | goOn | cancel | change => exact .inl ho
  | finish =>
    rw [endTask_eq] at ho
    exact .inl ho
  | arrive => exact .inl (List.mem_of_mem_eraseIdx ho)
  | @leave delay token held =>
    rcases List.mem_append.1 ho with ho | ho
    · exact .inl ho
    · obtain rfl := List.mem_singleton.1 ho
      exact .inr ⟨delay, held.elim (hmine _ _) fun ⟨k, hcancelling⟩ => htasks k _ _ hcancelling⟩

/-- The scopes of the preparations and of the runs are handed out when the tasks are made. -/
theorem started (h : Clones sup outer start e)
    (hscope : (sup.start outer e).2.token = phaseToken outer start .run) :
    Clones sup outer start (sup.start outer e).1 := by
  have hsub : e.history ⊆ (sup.start outer e).1.history := List.subset_cons_self ..
  refine ⟨fun phase token hphase => ?_, fun o ho => ?_⟩
  · cases phase with
    | prepare => exact ⟨(Option.some.inj hphase).symm, nofun⟩
    | run => exact ⟨(Option.some.inj hphase).symm.trans hscope, nofun⟩
    | close =>
      obtain ⟨htoken, hentered⟩ := h.kept .close token hphase
      exact ⟨htoken, fun hclose => (hentered hclose).mono hsub⟩
  · obtain ⟨delay, haccounted⟩ := h.outside o ho
    exact ⟨delay, haccounted.mono hsub⟩

/-- The scope of the shutdowns is handed out when the last stage has been entered. -/
theorem newScope (h : Clones sup outer start e) (hentered : HasEntered .stopping e.history)
    (hnext : e.tokens.next = start.tokens.next + 1) :
    Clones sup outer start (Supervisor.newScope e) := by
  refine ⟨fun phase token hphase => ?_, h.outside⟩
  have hphase : (if phase = .close then some [e.tokens.next] else e.kept phase) = some token :=
    hphase
  split at hphase
  next hclose =>
    obtain rfl := Option.some.inj hphase
    rw [hclose, hnext]
    exact ⟨rfl, fun _ => hentered⟩
  next => exact h.kept phase token hphase

/-- While no process is shut down no scope is made. -/
theorem moves {s : Scope} (h : Clones sup outer start e) (htasks : ∀ k later token,
      e.Cancelling k later token → Accounted sup outer start e.history later token)
    (hmine : ∀ later token, mine later token → Accounted sup outer start e.history later token)
    (hmove : Moves .prepare s mine e e') : Clones sup outer start e' := by
  cases hmove with
  | acts hacts => exact h.acts htasks hmine hacts
  | newScope closing => cases closing
  | called | returned | announced | received | published | runCancelled =>
    exact h.of_eq rfl (List.subset_cons_self ..) fun _ => .inl

end Clones

namespace Accounts

theorem acts (h : Accounts sup outer start e) (hclones : Clones sup outer start e)
    (htasks : ∀ k later token,
      e.Cancelling k later token → Accounted sup outer start e.history later token)
    (hmine : ∀ later token, mine later token → Accounted sup outer start e.history later token)
    (hacts : Acts mine e e') : Accounts sup outer start e' := by
  cases hacts with
  | clock | change | goOn | leave => exact h
  | start => exact h.cons fun _ hevent => by cases hevent
  | finish =>
    rw [endTask_eq]
    exact h.cons fun _ hevent => by cases hevent
  | arrive planned =>
    refine h.cons fun _ hevent => ?_
    cases hevent
    obtain ⟨delay, haccounted⟩ := hclones.outside _ (List.mem_of_getElem? planned)
    exact ⟨some delay, haccounted⟩
  | cancel held =>
    refine h.cons fun _ hevent => ?_
    cases hevent
    exact ⟨none, held.elim (hmine _ _) fun ⟨k, hcancelling⟩ => htasks k _ _ hcancelling⟩

theorem moves {phase : Phase} {s : Scope} (h : Accounts sup outer start e)
    (hclones : Clones sup outer start e) (htasks : ∀ k later token,
      e.Cancelling k later token → Accounted sup outer start e.history later token)
    (hmine : ∀ later token, mine later token → Accounted sup outer start e.history later token)
    (hmove : Moves phase s mine e e') : Accounts sup outer start e' := by
  cases hmove with
  | acts hacts => exact h.acts hclones htasks hmine hacts
  | newScope => exact h
  | called | returned | announced | received | published | runCancelled =>
    exact h.cons fun _ hevent => by cases hevent

end Accounts

/-! ### What reaches a scope -/

namespace Accounted

variable {record : List Entry} {later : Option Nat} {token : Token}

/-- What reaches the scope of the running processes reaches the outer one, or it is that scope's own
token. -/
theorem of_suffix_runScope (h : Accounted sup outer start record later token)
    (houter : start.tokens.Issued outer.token) (hsuffix : token <:+ (runScope outer start).token) :
    token <:+ outer.token ∨ token = (runScope outer start).token ∧
      ((∃ k phase later, sup.Responsible .run later record k phase) ∨
        ∀ k < sup.processes.length, HasReturned .close k record) := by
  cases h with
  | issued before =>
    rcases List.suffix_cons_iff.1 hsuffix with rfl | hsuffix
    · exact absurd (before.2 _ List.mem_cons_self) (Nat.lt_irrefl _)
    · exact .inl hsuffix
  | closed all => exact .inr ⟨rfl, .inr all⟩
  | @clone target _ _ _ responsible =>
    cases target with
    | prepare => exact .inl (List.suffix_refl _)
    | run => exact .inr ⟨rfl, .inl ⟨_, _, _, responsible⟩⟩
    | close =>
      rcases List.suffix_cons_iff.1 hsuffix with heq | hsuffix
      · have : start.tokens.next + 1 = start.tokens.next := (List.cons.inj heq).1
        omega
      · exact absurd (houter.2 _ (hsuffix.subset List.mem_cons_self))
          (Nat.not_lt.2 (Nat.le_succ _))

/-- What reaches the scope of the shutdowns is its own token, and some process cancels it. -/
theorem of_suffix_close (h : Accounted sup outer start record later token)
    (houter : start.tokens.Issued outer.token)
    (hsuffix : token <:+ phaseToken outer start .close) :
    token = phaseToken outer start .close ∧
      ∃ k phase later, sup.Responsible .close later record k phase := by
  -- a token under the outer one has two numbers at least
  have hrunning : ¬ (runScope outer start).token <:+ phaseToken outer start .close := by
    intro hsuffix
    have hle : outer.token.length + 1 ≤ 1 := hsuffix.length_le
    have hpos : 0 < outer.token.length := List.length_pos_iff.2 houter.1
    omega
  cases h with
  | issued before => exact absurd hsuffix (before.not_suffix (Nat.le_succ _))
  | closed => exact absurd hsuffix hrunning
  | @clone target _ _ _ responsible =>
    cases target with
    | prepare => exact absurd hsuffix (houter.not_suffix (Nat.le_succ _))
    | run => exact absurd hsuffix hrunning
    | close => exact ⟨rfl, _, _, _, responsible⟩

end Accounted

/-! ### Before the tasks have been made -/

/-- What holds while the processes are prepared: there is no task, only what was handed out before
is cancelled, and nothing else is left behind. -/
structure Preparing (sup : Supervisor W) (outer : Scope) (start e : Engine W) : Prop where
  tasks : e.tasks = []
  clones : Clones sup outer start e
  accounts : Accounts sup outer start e

theorem preparing_fresh (he : e.Fresh) (hissues : e.Issues outer) : Preparing sup outer e e := by
  refine ⟨he.tasks, ⟨fun phase token hphase => ?_, fun o ho => ?_⟩, ?_⟩
  · rw [he.kept] at hphase
    cases hphase
  · exact ⟨0, .issued (hissues.outside o ho)⟩
  · show Throughout _ _
    rw [he.history]
    refine Throughout.cons (fun x earlier hsuffix => ?_) fun _ hevent => by cases hevent
    cases List.suffix_nil.1 hsuffix

/-- Preparing the processes, which may cancel the outer scope, changes nothing of that. -/
theorem Preparing.path (h : Preparing sup outer start e) (houter : start.tokens.Issued outer.token)
    (hpath : Path .prepare outer (fun _ token => token = outer.token) e e') :
    Preparing sup outer start e' := by
  refine hpath.preserves (fun e₁ e₂ hmove h => ?_) h
  have hnone (k : Nat) (later : Option Nat) (token : Token)
      (hcancelling : e₁.Cancelling k later token) :
      Accounted sup outer start e₁.history later token := by
    obtain ⟨t, -, -, here, -⟩ := hcancelling
    rw [h.tasks] at here
    cases here
  have hmine (later : Option Nat) (token : Token) (htoken : token = outer.token) :
      Accounted sup outer start e₁.history later token := htoken ▸ .issued houter
  refine ⟨?_, h.clones.moves hnone hmine hmove, h.accounts.moves h.clones hnone hmine hmove⟩
  cases hmove with
  | acts hacts =>
    cases hacts with
    | start here | goOn here | finish here =>
      rw [h.tasks] at here
      cases here
    | _ => exact h.tasks
  | _ => exact h.tasks

/-! ### What the processes are handed -/

/-- The record tells of the cancellations of a scope whatever moves are made. -/
theorem tells_moves {phase : Phase} {r s : Scope} (h : Tells start r e)
    (hmove : Moves phase s mine e e') : Tells start r e' := by
  cases hmove with
  | acts hacts => exact h.happens hacts.happens
  | newScope => exact h.of_eq rfl rfl
  | called | returned | announced | received | published | runCancelled =>
    exact h.of_eq rfl (filterMap_entries_of_none _ rfl rfl)

/-- Whether a scope is cancelled is on record, and a process that was run when its scope was done
was run in that of the running processes. -/
structure Handed (outer : Scope) (start e : Engine W) : Prop where
  ordered : e.Ordered
  tells : ∀ s, Tells start s e
  runs : ∀ c ∈ e.calls .run, c.moment.done = true → DoneBy start e (runScope outer start) c.time

namespace Handed

/-- No process begins to run. -/
theorem of_calls {P : Entry → Prop} (h : Handed outer start e) (hadds : Adds P e e')
    (htells : ∀ s, Tells start s e') (hcalls : e'.calls .run = e.calls .run) :
    Handed outer start e' := by
  refine ⟨hadds.ordered h.ordered, htells, ?_⟩
  rw [hcalls]
  exact fun c hc hdone => hadds.doneBy (h.runs c hc hdone)

theorem acts (h : Handed outer start e) (hmanned : Manned sup outer start e)
    (hacts : Acts mine e e') : Handed outer start e' := by
  have hadds := hacts.happens.adds
  have htells (s : Scope) : Tells start s e' := (h.tells s).happens hacts.happens
  cases hacts with
  | clock | change | goOn | leave => exact h.of_calls hadds htells rfl
  | arrive | cancel => exact h.of_calls hadds htells (filterMap_entries_of_none _ rfl rfl)
  | finish =>
    refine h.of_calls hadds htells ?_
    rw [endTask_eq]
    exact filterMap_entries_of_none _ rfl rfl
  | @start k t here =>
    refine ⟨hadds.ordered h.ordered, htells, fun c hc hdone => hadds.doneBy ?_⟩
    have hcalls : (e.startTask k t).calls .run =
        e.calls .run ++ [⟨t.index, e.now, e.stage, e.moment t.scope (t.scope.remaining e.now)⟩] :=
      filterMap_entries_cons (x := ⟨e.now, e.stage, .called .run t.index _⟩) _ rfl
    rw [hcalls] at hc
    rcases List.mem_append.1 hc with hc | hc
    · exact h.runs c hc hdone
    · -- it begins in the scope of the running processes, as it is at this moment
      obtain rfl := List.mem_singleton.1 hc
      have hscope := hmanned.scope t (List.mem_of_getElem? here)
      have hdone : (runScope outer start).isDone e.tokens e.now = true := hscope ▸ hdone
      exact ((h.tells _).isDone_iff h.ordered).1 hdone

theorem moves {phase : Phase} {s : Scope} (hphase : phase ≠ .run) (h : Handed outer start e)
    (hmanned : Manned sup outer start e) (hmove : Moves phase s mine e e') :
    Handed outer start e' := by
  have hadds := hmove.adds
  have htells (s : Scope) : Tells start s e' := tells_moves (h.tells s) hmove
  cases hmove with
  | acts hacts => exact h.acts hmanned hacts
  | newScope => exact h.of_calls hadds htells rfl
  | called => exact h.of_calls hadds htells (filterMap_entries_of_none _ rfl (if_neg hphase))
  | returned | announced | received | published | runCancelled =>
    exact h.of_calls hadds htells (filterMap_entries_of_none _ rfl rfl)

end Handed

end Supervisor

end ServiceHost
