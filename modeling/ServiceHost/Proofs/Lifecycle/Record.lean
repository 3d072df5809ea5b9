import ServiceHost.Lifecycle.History
/-!
The record that an engine keeps, as seen from outside.

Views of the history tell what a supervisor did (`Engine.deeds`), how the phases that were called
came back (`Engine.returns`), which runs failed (`Engine.failures`), which report ended the wait
(`Engine.received`), when a stage was entered (`Engine.enteredAt?`) and whether a scope was done by
some moment (`Engine.DoneBy`).

Entries are only ever added, and never before the latest: `Engine.Adds P e e'` says that `e'` comes
later than `e` and that all its new entries satisfy `P`.  A view that has no eye for such entries is
the same in both states (`Adds.filterMap_entries`).
-/

namespace ServiceHost

/-- What a supervisor does, the order of which matters.  The runs are not among it, since they
begin and end beside it. -/
inductive Deed where
  | entered (stage : Stage)
  | called (phase : Phase) (index : Nat)
  | returned (phase : Phase) (index : Nat)
  | announced
  | runCancelled
  deriving DecidableEq, Repr

/-- The stage that a deed enters, if it enters one. -/
def Deed.stage? : Deed → Option Stage
  | .entered stage => some stage
  | _ => none

namespace Event

/-- The supervisor's deed that an event is, if it is one. -/
def deed? : Event → Option Deed
  | .published stage => some (.entered stage)
  | .called phase index _ => if phase = .run then none else some (.called phase index)
  | .returned phase index _ => if phase = .run then none else some (.returned phase index)
  | .announced => some .announced
  | .runCancelled => some .runCancelled
  | _ => none

/-- Events that happen while a phase is called: it is called and comes back, and beside it runs
begin and end and tokens are cancelled.  With `.run` for the phase, those are left that happen
beside the supervisor's deeds. -/
def Within (phase : Phase) : Event → Prop
  | .called p _ _ => p = phase ∨ p = .run
  | .returned p _ _ => p = phase ∨ p = .run
  | .cancelled _ => True
  | _ => False

theorem Within.of_run {event : Event} (h : event.Within .run) (phase : Phase) :
    event.Within phase := by
  cases event <;> simp_all [Within]

theorem Within.deed?_eq_none {event : Event} (h : event.Within .run) : event.deed? = none := by
  cases event <;> simp_all [Within, deed?]

/-- The events of a drain: those beside the supervisor's deeds, and what becomes of the tasks and
the reports that are left over. -/
def InDrain : Event → Prop
  | .aborted _ => True
  | .discarded _ => True
  | event => event.Within .run

/-- Events of a run that goes on: nothing that is left over is cleared away. -/
def Ongoing : Event → Prop
  | .aborted _ => False
  | .discarded _ => False
  | _ => True

theorem Within.ongoing {event : Event} {phase : Phase} (h : event.Within phase) :
    event.Ongoing := by
  cases event <;> simp_all [Within, Ongoing]

end Event

/-! ### Views of the record -/

namespace Entry

/-- How a call of a phase came back, if the entry tells that. -/
def returned? (phase : Phase) (x : Entry) : Option (Nat × Outcome) :=
  match x.event with
  | .returned p index o => if p = phase then some (index, o) else none
  | _ => none

/-- When a run failed, and the report on it, if the entry tells that. -/
def failure? (x : Entry) : Option (Nat × Report) :=
  match x.event with
  | .returned .run index o => o.fault?.map fun source => (x.time, ⟨index, source⟩)
  | _ => none

/-- The report that ended a wait, if the entry tells that. -/
def received? (x : Entry) : Option Report :=
  match x.event with
  | .received r => some r
  | _ => none

/-- When a token was cancelled, and which, if the entry tells that. -/
def cancelled? (x : Entry) : Option (Nat × Token) :=
  match x.event with
  | .cancelled t => some (x.time, t)
  | _ => none

/-- Does the entry tell that a stage was entered? -/
def enters (stage : Stage) (x : Entry) : Bool :=
  match x.event with
  | .published s => s == stage
  | _ => false

end Entry

namespace Entry

theorem time_of_failure? {x : Entry} {f : Nat × Report} (h : x.failure? = some f) :
    x.time = f.1 := by
  unfold failure? at h
  split at h
  · obtain ⟨source, -, rfl⟩ := Option.map_eq_some_iff.1 h
    rfl
  · cases h

theorem time_of_cancelled? {x : Entry} {c : Nat × Token} (h : x.cancelled? = some c) :
    x.time = c.1 := by
  unfold cancelled? at h
  split at h
  · cases h
    rfl
  · cases h

end Entry

/-! ### What views do not see -/

namespace Event

/-- No event within one phase is a return of another. -/
theorem Within.returned?_eq_none {x : Entry} {phase other : Phase} (h : x.event.Within phase)
    (hne : other ≠ phase) (hrun : other ≠ .run) : Entry.returned? other x = none := by
  unfold Entry.returned?
  split
  next p index o hevent =>
    rw [hevent] at h
    apply if_neg
    intro hp
    rcases h with h | h
    · exact hne (hp.symm.trans h)
    · exact hrun (hp.symm.trans h)
  next => rfl

/-- No event within one phase is a call of another. -/
theorem Within.ofEntry?_eq_none {x : Entry} {phase other : Phase} (h : x.event.Within phase)
    (hne : other ≠ phase) (hrun : other ≠ .run) : Engine.Call.ofEntry? other x = none := by
  unfold Engine.Call.ofEntry?
  split
  next p index m hevent =>
    rw [hevent] at h
    apply if_neg
    intro hp
    rcases h with h | h
    · exact hne (hp.symm.trans h)
    · exact hrun (hp.symm.trans h)
  next => rfl

/-- No event within a phase is the reception of a report. -/
theorem Within.received?_eq_none {x : Entry} {phase : Phase} (h : x.event.Within phase) :
    x.received? = none := by
  unfold Entry.received?
  split
  next r hevent =>
    rw [hevent] at h
    exact h.elim
  next => rfl

theorem InDrain.deed?_eq_none {event : Event} (h : event.InDrain) : event.deed? = none := by
  cases event with
  | aborted | discarded => rfl
  | called | returned | cancelled => exact Within.deed?_eq_none h
  | _ => exact h.elim

theorem Within.inDrain {event : Event} (h : event.Within .run) : event.InDrain := by
  cases event with
  | aborted | discarded => trivial
  | _ => exact h

theorem InDrain.returned?_eq_none {x : Entry} (h : x.event.InDrain) :
    Entry.returned? .close x = none := by
  obtain ⟨time, stage, event⟩ := x
  cases event with
  | aborted | discarded => rfl
  | called | returned | cancelled =>
    exact Within.returned?_eq_none (show Within .run _ from h) (by simp) (by simp)
  | _ => exact h.elim

theorem InDrain.ofEntry?_eq_none {x : Entry} (h : x.event.InDrain) :
    Engine.Call.ofEntry? .close x = none := by
  obtain ⟨time, stage, event⟩ := x
  cases event with
  | aborted | discarded => rfl
  | called | returned | cancelled =>
    exact Within.ofEntry?_eq_none (show Within .run _ from h) (by simp) (by simp)
  | _ => exact h.elim

theorem InDrain.received?_eq_none {x : Entry} (h : x.event.InDrain) : x.received? = none := by
  obtain ⟨time, stage, event⟩ := x
  cases event with
  | aborted | discarded => rfl
  | called | returned | cancelled =>
    exact Within.received?_eq_none (show Within .run _ from h)
  | _ => exact h.elim

end Event

namespace Engine

variable {W : Type}

/-- What the supervisor did, in order. -/
def deeds (e : Engine W) : List Deed :=
  e.entries.filterMap fun x => x.event.deed?

/-- How the calls of a phase came back, in order. -/
def returns (phase : Phase) (e : Engine W) : List (Nat × Outcome) :=
  e.entries.filterMap (Entry.returned? phase)

/-- The runs that failed, in order: when each ended, and the report on it. -/
def failures (e : Engine W) : List (Nat × Report) :=
  e.entries.filterMap Entry.failure?

/-- The reports that ended a wait. -/
def received (e : Engine W) : List Report :=
  e.entries.filterMap Entry.received?

/-- The cancellations: when each was made, and of which token. -/
def cancellations (e : Engine W) : List (Nat × Token) :=
  e.entries.filterMap Entry.cancelled?

/-- The moment at which a stage was entered, if it was. -/
def enteredAt? (e : Engine W) (stage : Stage) : Option Nat :=
  (e.entries.find? (Entry.enters stage)).map Entry.time

/-- Every shutdown that was called has come back, and none of them by a panic. -/
def ClosesReturn (e : Engine W) : Prop :=
  ∀ c ∈ e.calls .close, ∃ x ∈ e.returns .close, x.1 = c.index ∧ x.2 ≠ .panicked

instance (e : Engine W) : Decidable e.ClosesReturn :=
  inferInstanceAs (Decidable (∀ c ∈ e.calls .close, ∃ x ∈ e.returns .close,
    x.1 = c.index ∧ x.2 ≠ .panicked))

/-- By `time` a scope was done, in a run that began in `start`: it was cancelled before, or the
record tells that it or an ancestor was cancelled by then, or its deadline had come. -/
def DoneBy (start e : Engine W) (s : Scope) (time : Nat) : Prop :=
  s.isCancelled start.tokens = true ∨ (∃ c ∈ e.cancellations, c.1 ≤ time ∧ c.2 <:+ s.token) ∨
    ∃ deadline ∈ s.deadline, deadline ≤ time

instance (start e : Engine W) (s : Scope) (time : Nat) : Decidable (DoneBy start e s time) :=
  inferInstanceAs (Decidable (_ ∨ _ ∨ _))

/-- Before a run: idle, with an empty background but for the cancellations that are going to come
from outside, and nothing on record but that. -/
structure Fresh (e : Engine W) : Prop where
  stage : e.stage = .idle
  tasks : e.tasks = []
  history : e.history = [⟨e.now, .idle, .published .idle⟩]
  kept : e.kept = fun _ => none

theorem DoneBy.mono {start e : Engine W} {s : Scope} {t t' : Nat} (h : DoneBy start e s t)
    (hle : t ≤ t') : DoneBy start e s t' := by
  rcases h with h | ⟨c, hc, htime, hsuffix⟩ | ⟨d, hd, hdt⟩
  · exact .inl h
  · exact .inr (.inl ⟨c, hc, Nat.le_trans htime hle, hsuffix⟩)
  · exact .inr (.inr ⟨d, hd, Nat.le_trans hdt hle⟩)

/-! ### What is recorded -/

@[simp] theorem entries_record (e : Engine W) (event : Event) :
    (e.record event).entries = e.entries ++ [⟨e.now, e.stage, event⟩] := by
  simp [entries, record]

@[simp] theorem now_record (e : Engine W) (event : Event) : (e.record event).now = e.now := rfl

@[simp] theorem stage_record (e : Engine W) (event : Event) :
    (e.record event).stage = e.stage := rfl

@[simp] theorem now_publish (e : Engine W) (stage : Stage) : (e.publish stage).now = e.now := rfl

@[simp] theorem stage_publish (e : Engine W) (stage : Stage) :
    (e.publish stage).stage = stage := rfl

@[simp] theorem entries_publish (e : Engine W) (stage : Stage) :
    (e.publish stage).entries = e.entries ++ [⟨e.now, stage, .published stage⟩] :=
  entries_record { e with stage := stage } _

/-- What a view tells after one more entry. -/
theorem filterMap_entries_cons {β : Type} (f : Entry → Option β) {e e' : Engine W} {x : Entry}
    (h : e'.history = x :: e.history) :
    e'.entries.filterMap f = e.entries.filterMap f ++ (f x).toList := by
  rw [entries, h, List.reverse_cons, List.filterMap_append]
  cases hx : f x <;> simp [entries, hx]

/-- What a view tells after one more event. -/
theorem filterMap_entries_record {β : Type} (f : Entry → Option β) (e : Engine W) (event : Event) :
    (e.record event).entries.filterMap f =
      e.entries.filterMap f ++ (f ⟨e.now, e.stage, event⟩).toList :=
  filterMap_entries_cons f rfl

@[simp] theorem deeds_record (e : Engine W) (event : Event) :
    (e.record event).deeds = e.deeds ++ event.deed?.toList :=
  filterMap_entries_record ..

@[simp] theorem deeds_publish (e : Engine W) (stage : Stage) :
    (e.publish stage).deeds = e.deeds ++ [.entered stage] :=
  deeds_record { e with stage := stage } _

@[simp] theorem calls_record (phase : Phase) (e : Engine W) (event : Event) :
    (e.record event).calls phase =
      e.calls phase ++ (Call.ofEntry? phase ⟨e.now, e.stage, event⟩).toList :=
  filterMap_entries_record ..

@[simp] theorem returns_record (phase : Phase) (e : Engine W) (event : Event) :
    (e.record event).returns phase =
      e.returns phase ++ (Entry.returned? phase ⟨e.now, e.stage, event⟩).toList :=
  filterMap_entries_record ..

@[simp] theorem failures_record (e : Engine W) (event : Event) :
    (e.record event).failures =
      e.failures ++ (Entry.failure? ⟨e.now, e.stage, event⟩).toList :=
  filterMap_entries_record ..

@[simp] theorem received_record (e : Engine W) (event : Event) :
    (e.record event).received =
      e.received ++ (Entry.received? ⟨e.now, e.stage, event⟩).toList :=
  filterMap_entries_record ..

@[simp] theorem cancellations_record (e : Engine W) (event : Event) :
    (e.record event).cancellations =
      e.cancellations ++ (Entry.cancelled? ⟨e.now, e.stage, event⟩).toList :=
  filterMap_entries_record ..

/-- What a view tells after an entry that it has no eye for. -/
theorem filterMap_entries_of_none {β : Type} (f : Entry → Option β) {e e' : Engine W} {x : Entry}
    (h : e'.history = x :: e.history) (hx : f x = none) :
    e'.entries.filterMap f = e.entries.filterMap f := by
  rw [filterMap_entries_cons f h, hx]
  exact List.append_nil _

theorem calls_publish (phase : Phase) (e : Engine W) (stage : Stage) :
    (e.publish stage).calls phase = e.calls phase :=
  filterMap_entries_of_none _ rfl rfl

theorem returns_publish (phase : Phase) (e : Engine W) (stage : Stage) :
    (e.publish stage).returns phase = e.returns phase :=
  filterMap_entries_of_none _ rfl rfl

theorem failures_publish (e : Engine W) (stage : Stage) :
    (e.publish stage).failures = e.failures :=
  filterMap_entries_of_none _ rfl rfl

theorem cancellations_publish (e : Engine W) (stage : Stage) :
    (e.publish stage).cancellations = e.cancellations :=
  filterMap_entries_of_none _ rfl rfl

theorem received_publish (e : Engine W) (stage : Stage) :
    (e.publish stage).received = e.received :=
  filterMap_entries_of_none _ rfl rfl

/-! ### Calls and stages are deeds -/

/-- The calls of a phase are the entries that tell of them. -/
theorem mem_calls {e : Engine W} {phase : Phase} {c : Call} :
    c ∈ e.calls phase ↔ ⟨c.time, c.stage, .called phase c.index c.moment⟩ ∈ e.entries := by
  rw [calls, List.mem_filterMap]
  constructor
  · rintro ⟨⟨time, stage, event⟩, hx, hcall⟩
    cases event with
    | called p index m =>
      simp only [Call.ofEntry?] at hcall
      split at hcall
      next hp =>
        cases hcall
        exact hp ▸ hx
      next => cases hcall
    | _ => cases hcall
  · intro hx
    exact ⟨_, hx, by simp [Call.ofEntry?]⟩

/-- Every call that is on record is a deed. -/
theorem called_mem_deeds {e : Engine W} {phase : Phase} {c : Call} (hphase : phase ≠ .run)
    (h : c ∈ e.calls phase) : .called phase c.index ∈ e.deeds :=
  List.mem_filterMap.2 ⟨_, mem_calls.1 h, if_neg hphase⟩

/-- Every deed that is a call is a call on record. -/
theorem exists_call_of_mem_deeds {e : Engine W} {phase : Phase} {index : Nat}
    (h : .called phase index ∈ e.deeds) : ∃ c ∈ e.calls phase, c.index = index := by
  obtain ⟨⟨time, stage, event⟩, hx, hdeed⟩ := List.mem_filterMap.1 h
  cases event with
  | called p i m =>
    simp only [Event.deed?] at hdeed
    split at hdeed
    · cases hdeed
    · cases hdeed
      exact ⟨⟨index, time, stage, m⟩, mem_calls.2 hx, rfl⟩
  | returned p i o =>
    simp only [Event.deed?] at hdeed
    split at hdeed <;> cases hdeed
  | _ => cases hdeed

/-- The stages that were entered are among the deeds. -/
theorem stages_eq (e : Engine W) : e.stages = e.deeds.filterMap Deed.stage? := by
  unfold stages deeds
  rw [List.filterMap_filterMap]
  congr 1
  funext ⟨time, s, event⟩
  cases event with
  | called p | returned p =>
    simp only [Event.deed?]
    split <;> rfl
  | _ => rfl

/-- A stage was entered if and only if entering it is a deed. -/
theorem mem_stages_iff {e : Engine W} {stage : Stage} :
    stage ∈ e.stages ↔ .entered stage ∈ e.deeds := by
  rw [stages_eq, List.mem_filterMap]
  constructor
  · rintro ⟨d, hd, heq⟩
    cases d with
    | entered s => exact Option.some.inj heq ▸ hd
    | _ => cases heq
  · exact fun h => ⟨_, h, rfl⟩

/-- A stage that was entered at some moment is among the deeds. -/
theorem entered_mem_deeds {e : Engine W} {stage : Stage} {t : Nat}
    (h : e.enteredAt? stage = some t) : .entered stage ∈ e.deeds := by
  obtain ⟨x, hx, -⟩ := Option.map_eq_some_iff.1 h
  refine List.mem_filterMap.2 ⟨x, List.mem_of_find?_eq_some hx, ?_⟩
  have henters := List.find?_some hx
  unfold Entry.enters at henters
  split at henters
  next s hevent =>
    rw [hevent, beq_iff_eq.1 henters]
    rfl
  next => cases henters

/-! ### The record only grows -/

/-- `e'` comes after `e`: the clock has not gone back, and the entries added since are in the order
of time and satisfy `P`. -/
structure Adds (P : Entry → Prop) (e e' : Engine W) : Prop where
  now_le : e.now ≤ e'.now
  added : ∃ new, e'.history = new ++ e.history ∧ new.Pairwise (fun x y => y.time ≤ x.time) ∧
    ∀ x ∈ new, P x ∧ e.now ≤ x.time ∧ x.time ≤ e'.now

namespace Adds

variable {P Q : Entry → Prop} {e e' e'' : Engine W}

/-- Nothing was added. -/
theorem of_history_eq (hnow : e.now ≤ e'.now) (h : e'.history = e.history) : Adds P e e' :=
  ⟨hnow, [], by simpa using h, .nil, by simp⟩

theorem refl (P : Entry → Prop) (e : Engine W) : Adds P e e :=
  of_history_eq (Nat.le_refl _) rfl

/-- One entry was added. -/
theorem of_record {stage : Stage} {event : Event} (hnow : e'.now = e.now)
    (h : e'.history = ⟨e.now, stage, event⟩ :: e.history) (hP : P ⟨e.now, stage, event⟩) :
    Adds P e e' := by
  refine ⟨Nat.le_of_eq hnow.symm, [⟨e.now, stage, event⟩], h, List.pairwise_singleton .., ?_⟩
  intro x hx
  obtain rfl := List.mem_singleton.1 hx
  exact ⟨hP, Nat.le_refl _, Nat.le_of_eq hnow.symm⟩

theorem mono (h : Adds P e e') (hPQ : ∀ x, P x → Q x) : Adds Q e e' := by
  obtain ⟨new, hnew, hsorted, hall⟩ := h.added
  exact ⟨h.now_le, new, hnew, hsorted, fun x hx => ⟨hPQ x (hall x hx).1, (hall x hx).2⟩⟩

theorem trans (h₁ : Adds P e e') (h₂ : Adds P e' e'') : Adds P e e'' := by
  obtain ⟨new₁, hnew₁, hsorted₁, hall₁⟩ := h₁.added
  obtain ⟨new₂, hnew₂, hsorted₂, hall₂⟩ := h₂.added
  refine ⟨Nat.le_trans h₁.now_le h₂.now_le, new₂ ++ new₁,
    by rw [hnew₂, hnew₁, List.append_assoc], ?_, ?_⟩
  · refine List.pairwise_append.2 ⟨hsorted₂, hsorted₁, fun x hx y hy => ?_⟩
    exact Nat.le_trans (hall₁ y hy).2.2 (hall₂ x hx).2.1
  · intro x hx
    rcases List.mem_append.1 hx with hx | hx
    · obtain ⟨hP, hge, hle⟩ := hall₂ x hx
      exact ⟨hP, Nat.le_trans h₁.now_le hge, hle⟩
    · obtain ⟨hP, hge, hle⟩ := hall₁ x hx
      exact ⟨hP, hge, Nat.le_trans hle h₂.now_le⟩

/-- The new entries stand behind the old ones. -/
theorem entries (h : Adds P e e') :
    ∃ new, e'.entries = e.entries ++ new ∧ new.Pairwise (fun x y => x.time ≤ y.time) ∧
      ∀ x ∈ new, P x ∧ e.now ≤ x.time ∧ x.time ≤ e'.now := by
  obtain ⟨new, hnew, hsorted, hall⟩ := h.added
  refine ⟨new.reverse, by simp [Engine.entries, hnew], List.pairwise_reverse.2 hsorted, ?_⟩
  intro x hx
  exact hall x (List.mem_reverse.1 hx)

/-- What is on record stays there. -/
theorem subset_entries (h : Adds P e e') : e.entries ⊆ e'.entries := by
  obtain ⟨new, hnew, -, -⟩ := h.entries
  rw [hnew]
  exact List.subset_append_left ..

/-- What a view does not see does not change it. -/
theorem filterMap_entries {β : Type} (h : Adds P e e') (f : Entry → Option β)
    (hf : ∀ x, P x → f x = none) : e'.entries.filterMap f = e.entries.filterMap f := by
  obtain ⟨new, hnew, -, hall⟩ := h.entries
  have hnone : new.filterMap f = [] :=
    List.filterMap_eq_nil_iff.2 fun x hx => hf x (hall x hx).1
  rw [hnew, List.filterMap_append, hnone, List.append_nil]

/-- The moment at which a stage was entered stays the same. -/
theorem enteredAt?_eq {stage : Stage} {t : Nat} (h : Adds P e e')
    (ht : e.enteredAt? stage = some t) : e'.enteredAt? stage = some t := by
  obtain ⟨x, hx, rfl⟩ := Option.map_eq_some_iff.1 ht
  obtain ⟨new, hnew, -, -⟩ := h.entries
  unfold enteredAt?
  rw [hnew, List.find?_append, hx]
  rfl

/-- A run that has failed had failed before, or it did so since. -/
theorem mem_failures (h : Adds P e e') {f : Nat × Report} (hf : f ∈ e'.failures) :
    f ∈ e.failures ∨ e.now ≤ f.1 := by
  obtain ⟨new, hnew, -, hall⟩ := h.entries
  rw [failures, hnew, List.filterMap_append, List.mem_append] at hf
  apply hf.imp_right
  intro hf
  obtain ⟨x, hx, hfailure⟩ := List.mem_filterMap.1 hf
  rw [← Entry.time_of_failure? hfailure]
  exact (hall x hx).2.1

/-- A token that was cancelled had been cancelled before, or it was since. -/
theorem mem_cancellations (h : Adds P e e') {c : Nat × Token} (hc : c ∈ e'.cancellations) :
    c ∈ e.cancellations ∨ e.now ≤ c.1 := by
  obtain ⟨new, hnew, -, hall⟩ := h.entries
  rw [cancellations, hnew, List.filterMap_append, List.mem_append] at hc
  apply hc.imp_right
  intro hc
  obtain ⟨x, hx, hcancelled⟩ := List.mem_filterMap.1 hc
  rw [← Entry.time_of_cancelled? hcancelled]
  exact (hall x hx).2.1

/-- A view of what came later begins with the view of what was before. -/
theorem prefix_filterMap {β : Type} (h : Adds P e e') (f : Entry → Option β) :
    e.entries.filterMap f <+: e'.entries.filterMap f := by
  obtain ⟨new, hnew, -, -⟩ := h.entries
  rw [hnew, List.filterMap_append]
  exact List.prefix_append ..

end Adds

/-- What was done by some moment stays so. -/
theorem Adds.doneBy {P : Entry → Prop} {start e e' : Engine W} {s : Scope} {t : Nat}
    (h : Adds P e e') (hdone : DoneBy start e s t) : DoneBy start e' s t := by
  rcases hdone with hstart | ⟨c, hc, htime⟩ | hdeadline
  · exact .inl hstart
  · exact .inr (.inl ⟨c, (h.prefix_filterMap Entry.cancelled?).subset hc, htime⟩)
  · exact .inr (.inr hdeadline)

/-- What was done by a moment in the past was so all the time since. -/
theorem Adds.doneBy_of_lt {P : Entry → Prop} {start e e' : Engine W} {s : Scope} {t : Nat}
    (h : Adds P e e') (ht : t < e.now) (hdone : DoneBy start e' s t) : DoneBy start e s t := by
  rcases hdone with hstart | ⟨c, hc, htime, hsuffix⟩ | hdeadline
  · exact .inl hstart
  · rcases h.mem_cancellations hc with hc | hlater
    · exact .inr (.inl ⟨c, hc, htime, hsuffix⟩)
    · omega
  · exact .inr (.inr hdeadline)

/-- Several events are recorded at once. -/
theorem adds_foldl_record {α : Type} {Q : Event → Prop} (l : List α) (f : α → Event)
    (hQ : ∀ a, Q (f a)) (e : Engine W) :
    Adds (fun x => x.stage = e.stage ∧ Q x.event) e (l.foldl (fun e a => e.record (f a)) e) := by
  induction l generalizing e with
  | nil => exact .refl ..
  | cons a l ih =>
    have hfirst : Adds (fun x => x.stage = e.stage ∧ Q x.event) e (e.record (f a)) :=
      .of_record rfl rfl ⟨rfl, hQ a⟩
    exact hfirst.trans (ih (e.record (f a)))

/-- Nothing but the record changes when several events are recorded at once. -/
theorem foldl_record_eq {α : Type} (l : List α) (f : α → Event) (e : Engine W) :
    l.foldl (fun e a => e.record (f a)) e =
      { e with history := (l.map fun a => ⟨e.now, e.stage, f a⟩).reverse ++ e.history } := by
  induction l generalizing e with
  | nil => rfl
  | cons a l ih =>
    rw [List.foldl_cons, ih (e.record (f a)), List.map_cons, List.reverse_cons, List.append_assoc]
    rfl

theorem stage_foldl_record {α : Type} (l : List α) (f : α → Event) (e : Engine W) :
    (l.foldl (fun e a => e.record (f a)) e).stage = e.stage := by
  rw [foldl_record_eq]

/-- A stage that was not entered before is entered now. -/
theorem enteredAt?_publish {e : Engine W} {stage : Stage} (h : .entered stage ∉ e.deeds) :
    (e.publish stage).enteredAt? stage = some e.now := by
  have hnone : e.entries.find? (Entry.enters stage) = none := by
    cases hx : e.entries.find? (Entry.enters stage) with
    | none => rfl
    | some x => exact absurd (entered_mem_deeds (t := x.time) (by simp [enteredAt?, hx])) h
  unfold enteredAt?
  rw [entries_publish, List.find?_append, hnone]
  simp [Entry.enters]

/-- A state that a run can be in: its record is in the order of time and not ahead of the clock. -/
structure Ordered (e : Engine W) : Prop where
  sorted : e.entries.Pairwise (fun x y => x.time ≤ y.time)
  le_now : ∀ x ∈ e.entries, x.time ≤ e.now

namespace Ordered

variable {e : Engine W}

/-- No run failed later than now. -/
theorem failures_le (h : e.Ordered) {f : Nat × Report} (hf : f ∈ e.failures) : f.1 ≤ e.now := by
  obtain ⟨x, hx, hfailure⟩ := List.mem_filterMap.1 hf
  rw [← Entry.time_of_failure? hfailure]
  exact h.le_now x hx

/-- Failures are in the order of time. -/
theorem failures_sorted (h : e.Ordered) : e.failures.Pairwise fun f g => f.1 ≤ g.1 := by
  refine List.Pairwise.filterMap _ (fun x y hxy f hf g hg => ?_) h.sorted
  rw [← Entry.time_of_failure? hf, ← Entry.time_of_failure? hg]
  exact hxy

/-- No token was cancelled later than now. -/
theorem cancellations_le (h : e.Ordered) {c : Nat × Token} (hc : c ∈ e.cancellations) :
    c.1 ≤ e.now := by
  obtain ⟨x, hx, hcancelled⟩ := List.mem_filterMap.1 hc
  rw [← Entry.time_of_cancelled? hcancelled]
  exact h.le_now x hx

end Ordered

theorem Adds.ordered {P : Entry → Prop} {e e' : Engine W} (h : Adds P e e') (he : e.Ordered) :
    e'.Ordered := by
  obtain ⟨new, hnew, hsorted, hall⟩ := h.entries
  constructor
  · rw [hnew]
    refine List.pairwise_append.2 ⟨he.sorted, hsorted, fun x hx y hy => ?_⟩
    exact Nat.le_trans (he.le_now x hx) (hall y hy).2.1
  · intro x hx
    rw [hnew] at hx
    rcases List.mem_append.1 hx with hx | hx
    · exact Nat.le_trans (he.le_now x hx) h.now_le
    · exact (hall x hx).2.2

end Engine

end ServiceHost
