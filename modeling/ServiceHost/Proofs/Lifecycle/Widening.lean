import ServiceHost.Proofs.Lifecycle.Choice
import ServiceHost.Proofs.Lifecycle.Reports
/-!
Two engines side by side, one of which has a task more.

The places of the others move up by one where the task is put in (`shift`), and so do the places in
reports, events and errors.  `Engine.Resembles` says of two engines that they differ in nothing else
than the additional task and what is on record of it; `Engine.Beside` adds what may be cancelled,
and `Engine.Abreast` the clock.  A step that both make keeps them abreast (`Abreast.step`), and a
step that the additional task makes on its own keeps them beside each other (`Beside.idle`), if that
task has nothing to do (`Instruction.Idle`).

Cancellations are left out of the comparison of records: which of them have come is part of
`Engine.Beside`.
-/

namespace ServiceHost

variable {W : Type}

/-! ### Places -/

/-- The place of something after one more has been put in at place `k`. -/
def shift (k i : Nat) : Nat :=
  if i < k then i else i + 1

section Places

variable {k i j : Nat}

theorem shift_of_lt (h : i < k) : shift k i = i :=
  if_pos h

theorem shift_of_le (h : k ≤ i) : shift k i = i + 1 :=
  if_neg (Nat.not_lt.2 h)

theorem shift_ne (k i : Nat) : shift k i ≠ k := by
  unfold shift
  split <;> omega

theorem shift_inj : shift k i = shift k j ↔ i = j := by
  unfold shift
  split <;> split <;> omega

/-- Every other place is that of something that has moved. -/
theorem exists_shift_of_ne (h : i ≠ k) : ∃ j, shift k j = i := by
  rcases Nat.lt_or_gt_of_ne h with hlt | hlt
  · exact ⟨i, shift_of_lt hlt⟩
  · exact ⟨i - 1, (shift_of_le (by omega)).trans (by omega)⟩

end Places

/-! ### Rows with more in them -/

/-- The second row is the first one, its members moved by `f`, with more of the kind `P` put in. -/
inductive Widened {α : Type} (f : α → α) (P : α → Prop) : List α → List α → Prop
  | nil : Widened f P [] []
  | both {l l' : List α} (a : α) (rest : Widened f P l l') : Widened f P (a :: l) (f a :: l')
  | more {l l' : List α} {a : α} (kind : P a) (rest : Widened f P l l') : Widened f P l (a :: l')

namespace Widened

variable {α β : Type} {f : α → α} {P : α → Prop} {l l' : List α}

theorem of_map (f : α → α) (P : α → Prop) (l : List α) : Widened f P l (l.map f) := by
  induction l with
  | nil => exact .nil
  | cons a l ih => exact .both a ih

theorem refl (P : α → Prop) (l : List α) : Widened id P l l := by
  have hrow := of_map id P l
  rwa [List.map_id] at hrow

theorem append (h : Widened f P l l') {m m' : List α} (hm : Widened f P m m') :
    Widened f P (l ++ m) (l' ++ m') := by
  induction h with
  | nil => exact hm
  | both a _ ih => exact .both a ih
  | more kind _ ih => exact .more kind ih

/-- One more is put in somewhere. -/
theorem insert (f : α → α) (l₁ l₂ : List α) {a : α} (kind : P a) :
    Widened f P (l₁ ++ l₂) (l₁.map f ++ a :: l₂.map f) :=
  (of_map f P l₁).append (.more kind (of_map f P l₂))

theorem reverse (h : Widened f P l l') : Widened f P l.reverse l'.reverse := by
  induction h with
  | nil => exact .nil
  | both a _ ih =>
    rw [List.reverse_cons, List.reverse_cons]
    exact ih.append (.both a .nil)
  | more kind _ ih =>
    rw [List.reverse_cons, ← List.append_nil (List.reverse _)]
    exact ih.append (.more kind .nil)

/-- Where nothing has moved and nothing was put in, the rows are the same. -/
theorem eq_of_none (h : Widened id (fun _ => False) l l') : l' = l := by
  induction h with
  | nil => rfl
  | both a _ ih => exact congrArg (a :: ·) ih
  | more kind => exact kind.elim

/-- What is made of the members one by one. -/
theorem filterMap (h : Widened f P l l') {f' : β → β} {P' : β → Prop} {g g' : α → Option β}
    (hboth : ∀ a ∈ l, g' (f a) = (g a).map f') (hmore : ∀ a b, P a → g' a = some b → P' b) :
    Widened f' P' (l.filterMap g) (l'.filterMap g') := by
  induction h with
  | nil => exact .nil
  | both a _ ih =>
    have hrest := ih fun b hb => hboth b (List.mem_cons_of_mem _ hb)
    have ha := hboth a List.mem_cons_self
    rw [List.filterMap_cons, List.filterMap_cons, ha]
    cases g a with
    | none => exact hrest
    | some b => exact .both b hrest
  | @more _ _ a kind _ ih =>
    have hrest := ih hboth
    rw [List.filterMap_cons]
    cases hb : g' a with
    | none => exact hrest
    | some b => exact .more (hmore a b kind hb) hrest

theorem map (h : Widened f P l l') {f' : β → β} {P' : β → Prop} {g g' : α → β}
    (hboth : ∀ a ∈ l, g' (f a) = f' (g a)) (hmore : ∀ a, P a → P' (g' a)) :
    Widened f' P' (l.map g) (l'.map g') := by
  induction h with
  | nil => exact .nil
  | both a _ ih =>
    rw [List.map_cons, List.map_cons, hboth a List.mem_cons_self]
    exact .both (g a) (ih fun b hb => hboth b (List.mem_cons_of_mem _ hb))
  | more kind _ ih => exact .more (hmore _ kind) (ih hboth)

/-- What is kept of the members one by one. -/
theorem filter (h : Widened f P l l') {p : α → Bool} (hp : ∀ a ∈ l, p (f a) = p a) :
    Widened f P (l.filter p) (l'.filter p) := by
  rw [← List.filterMap_eq_filter]
  refine h.filterMap (fun a ha => ?_) fun a b hkind hb => ?_
  · have hsame := hp a ha
    by_cases hkept : p a = true <;> simp [Option.guard, hsame, hkept]
  · obtain ⟨rfl, -⟩ := Option.guard_eq_some_iff.1 hb
    exact hkind

theorem mem (h : Widened f P l l') {a : α} (ha : a ∈ l) : f a ∈ l' := by
  induction h with
  | nil => cases ha
  | both b _ ih =>
    rcases List.mem_cons.1 ha with rfl | ha
    · exact List.mem_cons_self
    · exact List.mem_cons_of_mem _ (ih ha)
  | more _ _ ih => exact List.mem_cons_of_mem _ (ih ha)

/-- Nobody else is in the second row. -/
theorem exists_of_mem (h : Widened f P l l') {a : α} (ha : a ∈ l') : P a ∨ ∃ b ∈ l, f b = a := by
  induction h with
  | nil => cases ha
  | both b _ ih =>
    rcases List.mem_cons.1 ha with rfl | ha
    · exact .inr ⟨b, List.mem_cons_self, rfl⟩
    · exact (ih ha).imp_right fun ⟨c, hc, heq⟩ => ⟨c, List.mem_cons_of_mem _ hc, heq⟩
  | more kind _ ih =>
    rcases List.mem_cons.1 ha with rfl | ha
    · exact .inl kind
    · exact ih ha

end Widened

/-- The numbers of a row move as its members do. -/
theorem zipIdx_map_shift {α : Type} (f : α → α) {k n m : Nat} {l : List α}
    (h : ∀ i < l.length, shift k (n + i) = m + i) :
    (l.map f).zipIdx m = (l.zipIdx n).map (Prod.map f (shift k)) := by
  induction l generalizing n m with
  | nil => rfl
  | cons a l ih =>
    have hfirst : shift k n = m := h 0 (Nat.succ_pos _)
    have hrest : ∀ i < l.length, shift k (n + 1 + i) = m + 1 + i := by
      intro i hi
      have hnext := h (i + 1) (Nat.succ_lt_succ hi)
      rwa [Nat.add_right_comm, Nat.add_right_comm m]
    rw [List.map_cons, List.zipIdx_cons, List.zipIdx_cons, List.map_cons, ih hrest]
    show (f a, m) :: _ = (f a, shift k n) :: _
    rw [hfirst]

/-- The numbers of the places in a row with one more at place `k`. -/
theorem zipIdx_insert {α : Type} (f : α → α) {k : Nat} {l₁ : List α} (hk : l₁.length = k) (a : α)
    (l₂ : List α) :
    (l₁.map f ++ a :: l₂.map f).zipIdx =
      l₁.zipIdx.map (Prod.map f (shift k)) ++
        (a, k) :: (l₂.zipIdx k).map (Prod.map f (shift k)) := by
  have hbefore : (l₁.map f).zipIdx 0 = (l₁.zipIdx 0).map (Prod.map f (shift k)) :=
    zipIdx_map_shift f fun i hi => shift_of_lt (by omega)
  have hafter : (l₂.map f).zipIdx (k + 1) = (l₂.zipIdx k).map (Prod.map f (shift k)) :=
    zipIdx_map_shift f fun i _ => (shift_of_le (Nat.le_add_right k i)).trans (by omega)
  rw [List.zipIdx_append, List.zipIdx_cons, List.length_map, Nat.zero_add, hk, hbefore, hafter]

/-! ### What has a place -/

/-- One who may act, with the place moved. -/
def Who.shift (k : Nat) : Who → Who
  | .task i => .task (ServiceHost.shift k i)
  | who => who

/-- A report, with the place moved. -/
def Report.shift (k : Nat) (r : Report) : Report :=
  { r with index := ServiceHost.shift k r.index }

/-- A task, with the place moved. -/
def Task.shift (k : Nat) (t : Task W) : Task W :=
  { t with index := ServiceHost.shift k t.index }

/-- An error, with the place moved. -/
def HostError.shift (k : Nat) : HostError → HostError
  | .process index source => .process (ServiceHost.shift k index) source
  | .shutdown index source => .shutdown (ServiceHost.shift k index) source
  | error => error

/-- An event, with the place moved. -/
def Event.shift (k : Nat) : Event → Event
  | .called phase index m => .called phase (ServiceHost.shift k index) m
  | .returned phase index o => .returned phase (ServiceHost.shift k index) o
  | .received r => .received (r.shift k)
  | .discarded r => .discarded (r.shift k)
  | .aborted index => .aborted (ServiceHost.shift k index)
  | event => event

theorem Who.shift_inj {k : Nat} {a b : Who} : a.shift k = b.shift k ↔ a = b := by
  cases a <;> cases b <;> simp [Who.shift, ServiceHost.shift_inj]

theorem Who.shift_ne (k : Nat) (a : Who) : a.shift k ≠ .task k := by
  cases a with
  | task i => simpa [Who.shift] using ServiceHost.shift_ne k i
  | caller | outside => simp [Who.shift]

theorem Who.shift_eq_caller_iff {k : Nat} {a : Who} : a.shift k = .caller ↔ a = .caller := by
  cases a <;> simp [Who.shift]

/-! ### Views -/

/-- The process that an event is about, if it is about one. -/
def Event.about? : Event → Option Nat
  | .called _ index _ => some index
  | .returned _ index _ => some index
  | .received r => some r.index
  | .discarded r => some r.index
  | .aborted index => some index
  | _ => none

/-- Is the event a cancellation? -/
def Event.cancels : Event → Bool
  | .cancelled _ => true
  | _ => false

/-- The entry with the place moved, unless it is a cancellation. -/
def Entry.moved? (k : Nat) (x : Entry) : Option Entry :=
  if x.event.cancels then none else some { x with event := x.event.shift k }

/-- The entry, unless it is a cancellation or about the process at place `k`. -/
def Entry.beside? (k : Nat) (x : Entry) : Option Entry :=
  if x.event.cancels || x.event.about? == some k then none else some x

/-- What is about a process with a moved place is not about the one at place `k`. -/
theorem Entry.beside?_shift (k time : Nat) (stage : Stage) (event : Event) :
    Entry.beside? k ⟨time, stage, event.shift k⟩ = Entry.moved? k ⟨time, stage, event⟩ := by
  cases event <;>
    simp [Entry.beside?, Entry.moved?, Event.shift, Event.cancels, Event.about?, Report.shift,
      ServiceHost.shift_ne]

/-! ### Having nothing to do -/

/-- An instruction that has nothing to do: it waits for the end of its scope, or it changes nothing
and fails in nothing. -/
inductive Instruction.Idle : Instruction W → Prop
  | pause : Idle (.pause [.done])
  | act {effect : Moment → W → W × Option Outcome}
      (still : ∀ m w, effect m w = (w, none) ∨ effect m w = (w, some .ok)) : Idle (.act effect)

/-- A task at place `k` that has nothing to do. -/
structure Task.Idle (k : Nat) (s : Scope) (t : Task W) : Prop where
  index : t.index = k
  scope : t.scope = s
  code : ∀ i ∈ t.code, i.Idle
  outcome : ∀ o, t.outcome = some o → o = .ok

namespace Engine

/-! ### Rows of tasks -/

/-- There is no task on either side, or the second row has one more, at place `k`, that has nothing
to do. -/
inductive Crew (k : Nat) (s : Scope) : List (Task W) → List (Task W) → Prop
  | empty : Crew k s [] []
  | manned {before after : List (Task W)} {t : Task W} (place : before.length = k)
      (idle : t.Idle k s) :
      Crew k s (before ++ after) (before.map (Task.shift k) ++ t :: after.map (Task.shift k))

namespace Crew

variable {k : Nat} {s : Scope} {l l' : List (Task W)} {i : Nat} {t u : Task W}

/-- The others are in their places. -/
theorem getElem?_shift (h : Crew k s l l') (i : Nat) :
    l'[shift k i]? = l[i]?.map (Task.shift k) := by
  cases h with
  | empty => rfl
  | @manned before after idle place =>
    by_cases hi : i < k
    · -- in front of the additional task
      rw [shift_of_lt hi, List.getElem?_append_left (by simpa [place] using hi),
        List.getElem?_append_left (by omega), List.getElem?_map]
    · -- behind it
      rw [shift_of_le (Nat.le_of_not_lt hi), List.getElem?_append_right (by simp; omega),
        List.getElem?_append_right (by omega), List.length_map, Nat.sub_add_comm (by omega),
        List.getElem?_cons_succ, List.getElem?_map]

theorem get (h : Crew k s l l') (here : l[i]? = some t) :
    l'[shift k i]? = some (t.shift k) := by
  rw [h.getElem?_shift, here]
  rfl

/-- One of the others is replaced on both sides. -/
theorem set (h : Crew k s l l') (here : l[i]? = some t) (u : Task W) :
    Crew k s (l.set i u) (l'.set (shift k i) (u.shift k)) := by
  cases h with
  | empty => cases here
  | @manned before after idle place hidle =>
    by_cases hi : i < k
    · rw [shift_of_lt hi, List.set_append_left _ _ (by omega),
        List.set_append_left _ _ (by simpa [place] using hi), ← List.map_set]
      exact .manned (by simpa using place) hidle
    · rw [shift_of_le (Nat.le_of_not_lt hi), List.set_append_right _ _ (by omega),
        List.set_append_right _ _ (by simp; omega), List.length_map, Nat.sub_add_comm (by omega),
        List.set_cons_succ, ← List.map_set]
      exact .manned place hidle

/-- At place `k` stands the task that has nothing to do. -/
theorem idle (h : Crew k s l l') (here : l'[k]? = some t) : t.Idle k s := by
  cases h with
  | empty => cases here
  | @manned before after idle place hidle =>
    rw [List.getElem?_append_right (by simp; omega), List.length_map, place, Nat.sub_self] at here
    cases here
    exact hidle

/-- The task that has nothing to do is replaced by another one. -/
theorem set_idle (h : Crew k s l l') (here : l'[k]? = some t) (hu : u.Idle k s) :
    Crew k s l (l'.set k u) := by
  cases h with
  | empty => cases here
  | @manned before after idle place =>
    rw [List.set_append_right _ _ (by simp; omega), List.length_map, place, Nat.sub_self,
      List.set_cons_zero]
    exact .manned place hu

/-- The tasks one by one. -/
theorem widened (h : Crew k s l l') : Widened (Task.shift k) (Task.Idle k s) l l' := by
  cases h with
  | empty => exact .nil
  | @manned before after t place idle => exact .insert _ before after idle

/-- The tasks with their places. -/
theorem zipIdx (h : Crew k s l l') :
    Widened (Prod.map (Task.shift k) (shift k)) (·.2 = k) l.zipIdx l'.zipIdx := by
  cases h with
  | empty => exact .nil
  | @manned before after t place idle =>
    rw [List.zipIdx_append, zipIdx_insert _ place, Nat.zero_add, place]
    exact .insert _ before.zipIdx (after.zipIdx k) rfl

end Crew

/-! ### Engines side by side -/

/-- The second engine has one task more, and all else that can be seen of the two is the same. -/
structure Resembles (k : Nat) (s : Scope) (e e' : Engine W) : Prop where
  world : e'.world = e.world
  stage : e'.stage = e.stage
  entries : e'.entries.filterMap (Entry.beside? k) = e.entries.filterMap (Entry.moved? k)
  crew : Crew k s e.tasks e'.tasks
  reports : e'.mailbox.reports = e.mailbox.reports.map (Report.shift k)
  room : e.mailbox.reports.length + e.live ≤ e.mailbox.room
  wider : e.mailbox.room ≤ e'.mailbox.room

/-- The same has been handed out and cancelled in both, and the same is going to be cancelled. -/
structure Beside (k : Nat) (s : Scope) (e e' : Engine W) : Prop extends Resembles k s e e' where
  kept : e'.kept = e.kept
  tokens : e'.tokens = e.tokens
  outside : e'.outside = e.outside

/-- The clocks show the same. -/
structure Abreast (k : Nat) (s : Scope) (e e' : Engine W) : Prop extends Beside k s e e' where
  now : e'.now = e.now
  active : e'.active = e.active.shift k

variable {k : Nat} {s : Scope} {e e' : Engine W} {i time : Nat} {t u : Task W} {who : Who}

namespace Resembles

/-- Both sides record what happens to one of the others. -/
theorem record (h : Resembles k s e e') (hnow : e'.now = e.now) (event : Event) :
    Resembles k s (e.record event) (e'.record (event.shift k)) := by
  have hentries : (e'.record (event.shift k)).entries.filterMap (Entry.beside? k) =
      (e.record event).entries.filterMap (Entry.moved? k) := by
    rw [filterMap_entries_record, filterMap_entries_record, h.entries, hnow, h.stage,
      Entry.beside?_shift]
  exact { h with entries := hentries }

/-- The second side records what happens to the additional task. -/
theorem record_right (h : Resembles k s e e') {event : Event} (hevent : event.about? = some k) :
    Resembles k s e (e'.record event) := by
  have hunseen : Entry.beside? k ⟨e'.now, e'.stage, event⟩ = none := by
    simp [Entry.beside?, hevent]
  exact { h with entries := (filterMap_entries_of_none _ rfl hunseen).trans h.entries }

/-- The additional task is replaced by another one that has nothing to do. -/
theorem set_right (h : Resembles k s e e') (here : e'.tasks[k]? = some t) (hu : u.Idle k s) :
    Resembles k s e { e' with tasks := e'.tasks.set k u } :=
  { h with crew := h.crew.set_idle here hu }

/-- There is room for one more report on both sides. -/
theorem post (h : Resembles k s e e')
    (hroom : e.mailbox.reports.length + e.live < e.mailbox.room) (r : Report) :
    Resembles k s { e with mailbox := e.mailbox.post r }
      { e' with mailbox := e'.mailbox.post (r.shift k) } := by
  have hlength : e'.mailbox.reports.length = e.mailbox.reports.length := by
    rw [h.reports, List.length_map]
  have hwider := h.wider
  have hpost : e.mailbox.post r = { e.mailbox with reports := e.mailbox.reports ++ [r] } :=
    if_pos (by omega)
  have hpost' : e'.mailbox.post (r.shift k) =
      { e'.mailbox with reports := e'.mailbox.reports ++ [r.shift k] } := if_pos (by omega)
  have hreports : e'.mailbox.reports ++ [r.shift k] =
      (e.mailbox.reports ++ [r]).map (Report.shift k) := by
    rw [h.reports, List.map_append]
    rfl
  have hleft : (e.mailbox.reports ++ [r]).length + e.live ≤ e.mailbox.room := by
    rw [List.length_append, List.length_singleton]
    omega
  rw [hpost, hpost']
  exact { h with reports := hreports, room := hleft }

end Resembles

namespace Abreast

theorem record (h : Abreast k s e e') (event : Event) :
    Abreast k s (e.record event) (e'.record (event.shift k)) :=
  { h with toResembles := h.toResembles.record h.now event }

theorem record_right (h : Abreast k s e e') {event : Event} (hevent : event.about? = some k) :
    Abreast k s e (e'.record event) :=
  { h with toResembles := h.toResembles.record_right hevent }

theorem publish (h : Abreast k s e e') (stage : Stage) :
    Abreast k s (e.publish stage) (e'.publish stage) := by
  have hstage : Abreast k s { e with stage := stage } { e' with stage := stage } :=
    { h with stage := rfl }
  exact hstage.record (.published stage)

theorem change (h : Abreast k s e e') (w : W) :
    Abreast k s { e with world := w } { e' with world := w } :=
  { h with world := rfl }

theorem cancel (h : Abreast k s e e') (token : Token) :
    Abreast k s (e.cancel token) (e'.cancel token) := by
  have htokens : Abreast k s { e with tokens := e.tokens.cancel token }
      { e' with tokens := e'.tokens.cancel token } :=
    { h with tokens := congrArg (·.cancel token) h.tokens }
  exact htokens.record (.cancelled token)

/-- The same is handed out on both sides. -/
theorem hand (h : Abreast k s e e') (phase : Phase) (token : Token) :
    Abreast k s (e.hand phase token) (e'.hand phase token) := by
  have hkept : (e'.hand phase token).kept = (e.hand phase token).kept := by
    unfold Engine.hand
    rw [h.kept]
  exact { h with kept := hkept }

/-- The same is cancelled on both sides, or left for later. -/
theorem cancelClone (h : Abreast k s e e') (own : Scope) (kept : Option Phase)
    (later : Option Nat) :
    Abreast k s (e.cancelClone own kept later) (e'.cancelClone own kept later) := by
  have hclone : e'.clone? own kept = e.clone? own kept := by
    cases kept with
    | none => rfl
    | some phase => exact congrFun h.kept phase
  unfold Engine.cancelClone
  rw [hclone]
  cases e.clone? own kept with
  | none => exact h
  | some token =>
    cases later with
    | none => exact h.cancel token
    | some delay =>
      have houtside : e'.outside ++ [(e'.now + delay, token)] =
          e.outside ++ [(e.now + delay, token)] := by rw [h.outside, h.now]
      exact { h with outside := houtside }

/-- What a routine knows is the same on both sides. -/
theorem moment_eq (h : Abreast k s e e') (scope : Scope) (allowance : Option Nat) :
    e'.moment scope allowance = e.moment scope allowance := by
  simp only [moment, h.now, h.tokens]

/-- One of the others is replaced on both sides. -/
theorem set (h : Abreast k s e e') (here : e.tasks[i]? = some t) {u u' : Task W}
    (hu : u' = u.shift k)
    (hlive : ({ e with tasks := e.tasks.set i u } : Engine W).live ≤ e.live) :
    Abreast k s { e with tasks := e.tasks.set i u }
      { e' with tasks := e'.tasks.set (shift k i) u' } := by
  subst hu
  exact { h with
    crew := h.crew.set here u
    room := Nat.le_trans (Nat.add_le_add_left hlive _) h.room }

theorem startTask (h : Abreast k s e e') (here : e.tasks[i]? = some t) (hlive : t.outcome = none) :
    Abreast k s (e.startTask i t) (e'.startTask (shift k i) (t.shift k)) := by
  have hstarted : ({ t.shift k with
      started := true, since := e'.now, allowance := t.scope.remaining e'.now } : Task W) =
      Task.shift k
        { t with started := true, since := e.now, allowance := t.scope.remaining e.now } := by
    rw [h.now]
    rfl
  have hset := h.set here hstarted (live_of_set_none here hlive rfl hlive)
  have hrecord := hset.record (.called .run t.index (e.moment t.scope (t.scope.remaining e.now)))
  have hevent : Event.shift k (.called .run t.index (e.moment t.scope (t.scope.remaining e.now))) =
      .called .run (t.shift k).index (e'.moment t.scope (t.scope.remaining e'.now)) := by
    rw [h.now, h.moment_eq]
    rfl
  rw [hevent] at hrecord
  exact hrecord

theorem goOn (h : Abreast k s e e') (here : e.tasks[i]? = some t) (hlive : t.outcome = none)
    (rest : Routine W) :
    Abreast k s (e.goOn i t rest) (e'.goOn (shift k i) (t.shift k) rest) := by
  have hgone : ({ t.shift k with code := rest, since := e'.now } : Task W) =
      Task.shift k { t with code := rest, since := e.now } := by
    rw [h.now]
    rfl
  exact h.set here hgone (live_of_set_none here hlive rfl hlive)

theorem endTask (h : Abreast k s e e') (here : e.tasks[i]? = some t) (hlive : t.outcome = none)
    (o : Outcome) : Abreast k s (e.endTask i t o) (e'.endTask (shift k i) (t.shift k) o) := by
  let ended : Engine W := { e with tasks := e.tasks.set i { t with outcome := some o } }
  have hcount : ended.live + 1 = e.live + _ := live_of_set here hlive rfl
  rw [if_neg (by simp)] at hcount
  have hset := h.set here (u := { t with outcome := some o }) rfl
    (Nat.le_of_lt (Nat.lt_of_succ_le (Nat.le_of_eq hcount)))
  have hended := hset.record (.returned .run t.index o)
  unfold Engine.endTask
  dsimp only
  cases o.fault? with
  | none => exact hended
  | some source =>
    -- there is room, for the task that ends now was counted among those that have not ended
    have hroom := h.room
    refine ⟨⟨hended.toResembles.post ?_ ⟨t.index, source⟩, hended.kept, hended.tokens,
      hended.outside⟩,
      hended.now, hended.active⟩
    show e.mailbox.reports.length + _ < e.mailbox.room
    exact Nat.lt_of_lt_of_le (Nat.add_lt_add_left (Nat.lt_of_lt_of_eq (Nat.lt_succ_self _) hcount)
      _) hroom

/-- One of the others acts on both sides. -/
theorem stepTask (h : Abreast k s e e') (here : e.tasks[i]? = some t) (hlive : t.outcome = none) :
    Abreast k s (e.stepTask i t) (e'.stepTask (shift k i) (t.shift k)) := by
  have hlive' : ¬ (t.shift k).outcome.isSome = true := by simp [Task.shift, hlive]
  have hstarted : (t.shift k).started = t.started := rfl
  have hcode : (t.shift k).code = t.code := rfl
  unfold Engine.stepTask
  rw [if_neg (show ¬ t.outcome.isSome = true by simp [hlive]), if_neg hlive', hstarted, hcode]
  by_cases hgoes : t.started = true
  · rw [if_pos hgoes, if_pos hgoes]
    cases t.code with
    | nil => exact h.endTask here hlive .ok
    | cons instruction rest =>
      cases instruction with
      | pause => exact h.goOn here hlive rest
      | cancel kept later => exact (h.goOn here hlive rest).cancelClone t.scope kept later
      | act effect =>
        -- what it does depends on the moment and the world, which are the same on both sides
        have heffect : effect (e'.moment (t.shift k).scope (t.shift k).allowance) e'.world =
            effect (e.moment t.scope t.allowance) e.world := by
          rw [h.moment_eq, h.world]
          rfl
        dsimp only
        rw [heffect]
        rcases effect (e.moment t.scope t.allowance) e.world with ⟨w, o⟩
        cases o with
        | none => exact (h.change w).goOn here hlive rest
        | some o => exact (h.change w).endTask here hlive o
  · rw [if_neg hgoes, if_neg hgoes]
    exact h.startTask here hlive

end Abreast

/-! ### Steps -/

/-- The clocks are set to the same moment. -/
theorem Beside.clock (h : Beside k s e e') (time : Nat) (who : Who) :
    Abreast k s { e with now := time, active := who }
      { e' with now := time, active := who.shift k } :=
  { h with now := rfl, active := rfl }

/-- The same step on both sides brings them abreast. -/
theorem Beside.step (h : Beside k s e e') (hwho : who ≠ .caller → (who, time) ∈ e.background) :
    Abreast k s (e.step time who) (e'.step time (who.shift k)) := by
  have hclock := h.clock time who
  cases who with
  | caller => exact hclock
  | outside j =>
    rcases mem_background.1 (hwho (by simp)) with ⟨_, o, ho, heq⟩ | ⟨_, _, _, -, -, heq⟩
    · cases heq
      have ho' : e'.outside[j]? = some o := by rw [h.outside, ho]
      have hleft : Abreast k s
          { e with now := max e.now o.1, active := .outside j, outside := e.outside.eraseIdx j }
          { e' with
            now := max e.now o.1, active := .outside j, outside := e'.outside.eraseIdx j } :=
        { hclock with outside := congrArg (·.eraseIdx j) h.outside }
      simp only [Engine.step, Who.shift, ho, ho']
      exact hleft.cancel o.2
    · cases heq
  | task i =>
    rcases mem_background.1 (hwho (by simp)) with ⟨_, _, -, heq⟩ | ⟨_, t, _, here, hready, heq⟩
    · cases heq
    · cases heq
      simp only [Engine.step, Who.shift, here, h.crew.get here]
      exact hclock.stepTask here (outcome_of_taskReadyAt hready)

/-- The additional task acts: it starts, goes on, or ends without error. -/
theorem Resembles.stepTask_right (h : Resembles k s e e') (here : e'.tasks[k]? = some t)
    (hlive : t.outcome = none) :
    Resembles k s e (e'.stepTask k t) ∧ (e'.stepTask k t).tokens = e'.tokens ∧
      (e'.stepTask k t).outside = e'.outside := by
  have hidle := h.crew.idle here
  have hgone {rest : Routine W} (hrest : ∀ i ∈ rest, i.Idle) :
      Resembles k s e (e'.goOn k t rest) := h.set_right here { hidle with code := hrest }
  have hended : Resembles k s e (e'.endTask k t .ok) := by
    have hset : Resembles k s e
        { e' with tasks := e'.tasks.set k { t with outcome := some .ok } } :=
      h.set_right here { hidle with outcome := fun o ho => (Option.some.inj ho).symm }
    exact hset.record_right (congrArg some hidle.index)
  unfold stepTask
  rw [if_neg (by simp [hlive])]
  split
  · -- the next instruction of a task that has started
    have hcode := hidle.code
    split
    next => exact ⟨hended, rfl, rfl⟩
    next rest heq =>
      rw [heq] at hcode
      exact ⟨hgone fun i hi => hcode i (List.mem_cons_of_mem _ hi), rfl, rfl⟩
    next kept later rest heq =>
      -- what has nothing to do does not cancel its scope
      rw [heq] at hcode
      cases hcode _ List.mem_cons_self
    next effect rest heq =>
      rw [heq] at hcode
      cases hcode _ List.mem_cons_self with
      | act still =>
        rcases still (e'.moment t.scope t.allowance) e'.world with hstill | hstill
        · rw [hstill]
          exact ⟨hgone fun i hi => hcode i (List.mem_cons_of_mem _ hi), rfl, rfl⟩
        · rw [hstill]
          exact ⟨hended, rfl, rfl⟩
  · have hstarted : Resembles k s e { e' with
        tasks := e'.tasks.set k
          { t with started := true, since := e'.now, allowance := t.scope.remaining e'.now } } :=
      h.set_right here { hidle with }
    exact ⟨hstarted.record_right (congrArg some hidle.index), rfl, rfl⟩

/-- A step of the additional task changes nothing that can be seen of the others. -/
theorem Resembles.idle (h : Resembles k s e e') (hable : (.task k, time) ∈ e'.background) :
    Resembles k s e (e'.step time (.task k)) ∧
      (e'.step time (.task k)).tokens = e'.tokens ∧
      (e'.step time (.task k)).outside = e'.outside := by
  rcases mem_background.1 hable with ⟨_, _, -, heq⟩ | ⟨_, t, _, here, hready, heq⟩
  · cases heq
  · cases heq
    have hclock : Resembles k s e { e' with now := time, active := .task k } := { h with }
    simp only [Engine.step, here]
    exact hclock.stepTask_right here (outcome_of_taskReadyAt hready)

theorem Beside.idle (h : Beside k s e e') (hable : (.task k, time) ∈ e'.background) :
    Beside k s e (e'.step time (.task k)) := by
  obtain ⟨hresembles, htokens, houtside⟩ := h.toResembles.idle hable
  have hkept : (e'.step time (.task k)).kept = e'.kept :=
    (acts_course hable).1.preserves (P := fun x => x.kept = e'.kept)
      (fun _ _ hstep hx => hstep.kept_eq.trans hx) rfl
  exact ⟨hresembles, hkept.trans h.kept, htokens.trans h.tokens, houtside.trans h.outside⟩

end Engine

end ServiceHost
