import ServiceHost.Proofs.Listener.Parties
/-!
Scenes around a listener: any number of parties, in any interleaving.

A scene is an engine together with what each of its tasks is to the listener.  At any time a party
may join, someone in the background may act, time may pass, or any token may be cancelled
(`Listener.Scene.Step`).  Nobody binds the listener again.  In every scene that comes about in this
way the order of the protocol holds (`Scene.sound_of_reaches`).
-/

namespace ServiceHost.Listener

open Relation

variable {W : Type}

/-- An engine, and what its tasks are to a listener. -/
structure Scene (W : Type) where
  parties : List (Party W) := []
  engine : Engine W

namespace Scene

/-- What can happen around a listener. -/
inductive Step (slot : Slot W Listener) : Scene W → Scene W → Prop
  /-- A party joins, in any scope. -/
  | joins {s : Scene W} (party : Party W) (fair : party.Fair slot) (index : Nat) (scope : Scope) :
      Step slot s ⟨s.parties ++ [party], (s.engine.spawn index scope (party.code slot)).1⟩
  /-- Someone in the background acts. -/
  | acts {s : Scene W} {e : Engine W} (waits : Engine.Waits (fun _ => none) s.engine e) :
      Step slot s ⟨s.parties, e⟩
  /-- Time passes, until someone in the background can act. -/
  | passes {s : Scene W} {time : Nat} (later : s.engine.now ≤ time)
      (first : ∀ m ∈ s.engine.background, time ≤ m.2) :
      Step slot s ⟨s.parties, s.engine.step time .caller⟩
  /-- A scope is cancelled. -/
  | cancels {s : Scene W} (token : Token) : Step slot s ⟨s.parties, s.engine.cancel token⟩

/-- A scene comes about from another one. -/
abbrev Reaches (slot : Slot W Listener) : Scene W → Scene W → Prop :=
  ReflTransGen (Step slot)

variable {slot : Slot W Listener} {s s' : Scene W}

/-- Whatever a caller waits for comes about. -/
theorem reaches_await (sch : Schedule W) {ready : Engine W → Option Nat}
    (hready : ∀ e t, ready e = some t → e.now ≤ t) (s : Scene W) :
    Reaches slot s ⟨s.parties, (s.engine.await sch ready).1⟩ := by
  obtain ⟨e, hwaits, hend⟩ := Engine.await_waits sch ready s.engine
  have hreaches : Reaches slot s ⟨s.parties, e⟩ := by
    clear hend
    induction hwaits with
    | refl => exact .refl
    | tail _ hlast ih =>
      obtain ⟨hable, hfirst, -⟩ := hlast
      exact ih.tail (.acts (.act hable hfirst (by simp)))
  generalize s.engine.await sch ready = r at hend ⊢
  cases hend with
  | goesOn hable hfirst => exact hreaches.tail (.passes (hready _ _ hable) hfirst)
  | never => exact hreaches

/-! ### The order in a scene -/

/-- The parties are fair and keep the order. -/
structure Sound (slot : Slot W Listener) (s : Scene W) : Prop where
  fair : ∀ party ∈ s.parties, party.Fair slot
  company : Company slot s.parties .away s.engine

/-- Before anyone joins a listener that has just been bound, all is in order. -/
theorem sound_of_bound {address : String} {refusal : Option SystemFault} {e : Engine W}
    (hbind : Listener.bind {} address refusal = .ok (slot.get e.world)) (htasks : e.tasks = []) :
    Sound slot ⟨[], e⟩ where
  fair := by simp
  company := by
    have hlistener : slot.get e.world = { waiting := true, everBound := true } := by
      unfold Listener.bind at hbind
      dsimp only at hbind
      split at hbind
      · cases hbind
      · exact (Except.ok.inj hbind).symm
    refine ⟨[], ⟨by simp [htasks], rfl, by simp⟩, ?_⟩
    rw [hlistener]
    refine ⟨rfl, by simp, ?_⟩
    intro p hp
    obtain rfl := List.mem_singleton.1 hp
    exact .away _

/-- A party that joins has not touched the listener. -/
theorem stands_of_fair {party : Party W} (hfair : party.Fair slot) :
    Stands slot party .away (party.code slot) none := by
  cases party with
  | serve lead name traffic => exact .before List.suffix_rfl (by simp)
  | stop closeTimeout finish => exact .unasked
  | other code => exact .other hfair

/-- The order holds with one more party. -/
theorem Sound.joins (h : Sound slot s) {party : Party W} (hfair : party.Fair slot) (index : Nat)
    (scope : Scope) :
    Sound slot ⟨s.parties ++ [party], (s.engine.spawn index scope (party.code slot)).1⟩ where
  fair := by
    intro q hq
    rcases List.mem_append.1 hq with hq | hq
    · exact h.fair q hq
    · exact List.mem_singleton.1 hq ▸ hfair
  company := by
    obtain ⟨stands, hcast, horder⟩ := h.company
    have hsnoc : Orderly (.away :: (stands ++ [.away])) (slot.get s.engine.world) := horder.snoc
    exact ⟨stands ++ [.away], hcast.snoc (stands_of_fair hfair), hsnoc⟩

/-- The order is kept by whatever happens. -/
theorem Sound.step (h : Sound slot s) (hstep : Step slot s s') :
    Sound slot s' ∧ Later (slot.get s.engine.world) (slot.get s'.engine.world) := by
  cases hstep with
  | joins party fair index scope => exact ⟨h.joins fair index scope, .refl _⟩
  | acts waits =>
    obtain ⟨hkept, hlater⟩ := h.company.stirs h.fair waits.stirs
    exact ⟨⟨h.fair, hkept⟩, hlater⟩
  | passes | cancels => exact ⟨⟨h.fair, h.company⟩, .refl _⟩

theorem Sound.reaches (h : Sound slot s) (hreaches : Reaches slot s s') :
    Sound slot s' ∧ Later (slot.get s.engine.world) (slot.get s'.engine.world) := by
  induction hreaches with
  | refl => exact ⟨h, .refl _⟩
  | tail _ hlast ih =>
    obtain ⟨hsound, hlater⟩ := ih.1.step hlast
    exact ⟨hsound, ih.2.trans hlater⟩

/-! ### Tasks and time -/

/-- The task at a place, with its part. -/
structure Plays (s : Scene W) (k : Nat) (party : Party W) (t : Task W) : Prop where
  party : s.parties[k]? = some party
  task : s.engine.tasks[k]? = some t

variable {k : Nat} {party party' : Party W} {t t' : Task W}

theorem Plays.eq (h : s.Plays k party t) (h' : s.Plays k party' t') : t' = t :=
  Option.some.inj (h'.task.symm.trans h.task)

/-- A task keeps its place and its part.  It stays as it is, or it has not ended and the background
acts. -/
theorem Step.plays (h : Step slot s s') (ht : s.Plays k party t) :
    ∃ t', s'.Plays k party t' ∧ (t' = t ∨
      t.outcome = none ∧ t'.code <:+ t.code ∧ Engine.Stirs s.engine s'.engine) := by
  cases h with
  | joins =>
    have hsnoc {α : Type} {l : List α} {a b : α} (h : l[k]? = some a) : (l ++ [b])[k]? = some a := by
      rw [List.getElem?_append_left (List.getElem?_eq_some_iff.1 h).1, h]
    exact ⟨t, ⟨hsnoc ht.party, hsnoc ht.task⟩, .inl rfl⟩
  | acts waits =>
    obtain ⟨t', ht', rfl | ⟨hlive, hgoes⟩⟩ := waits.stirs.task ht.task
    · exact ⟨t', ⟨ht.party, ht'⟩, .inl rfl⟩
    · refine ⟨t', ⟨ht.party, ht'⟩, .inr ⟨hlive, ?_, waits.stirs⟩⟩
      rcases hgoes with ⟨hcode, -⟩ | ⟨m, hturn⟩
      · exact hcode ▸ List.suffix_rfl
      · exact hturn.suffix
  | passes | cancels => exact ⟨t, ⟨ht.party, ht.task⟩, .inl rfl⟩

/-- What is left of a task gets less, and one that has ended stays as it is. -/
theorem Reaches.plays (h : Reaches slot s s') (ht : s.Plays k party t) :
    ∃ t', s'.Plays k party t' ∧ t'.code <:+ t.code ∧ (t.outcome ≠ none → t' = t) := by
  induction h with
  | refl => exact ⟨t, ht, List.suffix_rfl, fun _ => rfl⟩
  | tail _ hlast ih =>
    obtain ⟨u, hu, hcode, hstays⟩ := ih
    obtain ⟨t', ht', rfl | ⟨hlive, hcode', -⟩⟩ := hlast.plays hu
    · exact ⟨t', ht', hcode, hstays⟩
    · refine ⟨t', ht', hcode'.trans hcode, fun hended => ?_⟩
      obtain rfl := hstays hended
      exact absurd hlive hended

/-- While a task can act at once, no time passes. -/
theorem Step.now_eq (h : Step slot s s') (ht : s.engine.tasks[k]? = some t)
    (hready : s.engine.taskReadyAt t = some s.engine.now) : s'.engine.now = s.engine.now := by
  have hmem : (Who.task k, s.engine.now) ∈ s.engine.background :=
    Engine.mem_background.2 (.inr ⟨k, t, _, ht, hready, rfl⟩)
  cases h with
  | joins | cancels => rfl
  | acts waits =>
    obtain ⟨hable, hfirst, -⟩ := waits
    rw [(Engine.acts_course hable).2]
    exact Nat.le_antisymm (hfirst _ hmem) (Engine.now_le_of_mem_background hable)
  | passes later first => exact Nat.le_antisymm (first _ hmem) later

/-- A task that can act at once until it ends has ended when time has passed. -/
theorem ended_of_ready (hplays : s.Plays k party t)
    (hready : ∀ s' t', Reaches slot s s' → s'.Plays k party t' → t'.outcome = none →
      s'.engine.taskReadyAt t' = some s'.engine.now)
    (hreaches : Reaches slot s s') (hlater : s.engine.now < s'.engine.now)
    (hplays' : s'.Plays k party t') : t'.outcome ≠ none := by
  have hclock : s'.engine.now = s.engine.now ∨ t'.outcome ≠ none := by
    clear hlater
    induction hreaches generalizing t' with
    | refl => exact .inl rfl
    | @tail x y hbefore hlast ih =>
      obtain ⟨u, hu, -⟩ := Reaches.plays hbefore hplays
      obtain ⟨u', hu', hstays⟩ := hlast.plays hu
      obtain rfl := hu'.eq hplays'
      by_cases hlive : u.outcome = none
      · refine .inl ((hlast.now_eq hu.task (hready x u hbefore hu hlive)).trans ?_)
        exact (ih hu).resolve_right (not_not.2 hlive)
      · obtain rfl := hstays.resolve_right fun h => hlive h.1
        exact .inr hlive
  exact hclock.resolve_left (Nat.ne_of_gt hlater)

end Scene

end ServiceHost.Listener
