import Mathlib.Data.List.Pairwise
import ServiceHost.Lifecycle.Slot
import ServiceHost.Proofs.Fallible
/-!
Filling a record place by place.

A record is filled in steps, each of which puts a value into a slot unless the value could not be
read.  It stops at the first fault (`storeAll_eq_error_iff`).  If no two steps fill the same place,
it does not matter in which order they are taken: in the end each slot holds what was read for it
(`get_of_storeAll`), and every slot that no step fills holds what it held at first
(`get_storeAll_of_apart`).
-/

namespace ServiceHost

/-! ### Slots that do not touch each other -/

namespace Slot

variable {W S T : Type}

/-- A slot in what is in another slot. -/
def inner (outer : Slot W S) (slot : Slot S T) : Slot W T where
  get w := slot.get (outer.get w)
  put x w := outer.put (slot.put x (outer.get w)) w
  get_put x w := by rw [outer.get_put, slot.get_put]

/-- Two slots neither of which changes when the other one is filled. -/
structure Apart (s : Slot W S) (t : Slot W T) : Prop where
  left : ∀ x w, s.get (t.put x w) = s.get w := by intros; rfl
  right : ∀ x w, t.get (s.put x w) = t.get w := by intros; rfl

theorem Apart.symm {s : Slot W S} {t : Slot W T} (h : s.Apart t) : t.Apart s :=
  ⟨h.right, h.left⟩

/-- What is apart from a slot is apart from all that is in it. -/
theorem Apart.inner {U : Type} {s : Slot W S} {outer : Slot W U} (h : s.Apart outer)
    (slot : Slot U T) : s.Apart (outer.inner slot) where
  left _ _ := h.left _ _
  right x w := by
    show slot.get (outer.get (s.put x w)) = slot.get (outer.get w)
    rw [h.right]

/-- Slots apart in a place are apart wherever that place is. -/
theorem Apart.within {U : Type} {s : Slot U S} {t : Slot U T} (h : s.Apart t) (outer : Slot W U) :
    (outer.inner s).Apart (outer.inner t) where
  left x w := by
    show s.get (outer.get (outer.put (t.put x (outer.get w)) w)) = s.get (outer.get w)
    rw [outer.get_put, h.left]
  right x w := by
    show t.get (outer.get (outer.put (s.put x (outer.get w)) w)) = t.get (outer.get w)
    rw [outer.get_put, h.right]

end Slot

/-! ### Places -/

/-- A place in a record, and what kind of value is in it. -/
structure Place (α : Type) where
  Value : Type
  slot : Slot α Value

namespace Place

variable {α β : Type}

/-- Two places neither of which changes when the other one is filled. -/
def Apart (p q : Place α) : Prop :=
  p.slot.Apart q.slot

theorem apart_iff {p q : Place α} : p.Apart q ↔
    (∀ x a, p.slot.get (q.slot.put x a) = p.slot.get a) ∧
    ∀ x a, q.slot.get (p.slot.put x a) = q.slot.get a :=
  ⟨fun h => ⟨h.left, h.right⟩, fun h => ⟨h.1, h.2⟩⟩

/-- Places that make up a record: they do not touch each other, and nothing is outside them. -/
structure Partition (places : List (Place α)) : Prop where
  apart : places.Pairwise Apart
  ext : ∀ a b, (∀ p ∈ places, p.slot.get a = p.slot.get b) → a = b

theorem Partition.perm {places places' : List (Place α)} (h : Partition places)
    (hperm : places.Perm places') : Partition places' where
  apart := hperm.pairwise h.apart fun hpq => hpq.symm
  ext a b hab := h.ext a b fun p hp => hab p (hperm.mem_iff.1 hp)

/-- A place in what is in a slot. -/
def inside (outer : Slot β α) (p : Place α) : Place β :=
  ⟨p.Value, outer.inner p.slot⟩

/-- A place may be replaced by the places that what is in it is made of. -/
theorem Partition.refine {before after : List (Place β)} {q : Place β}
    {parts : List (Place q.Value)} (h : Partition (before ++ q :: after)) (hq : Partition parts) :
    Partition (before ++ parts.map (inside q.slot) ++ after) where
  apart := by
    obtain ⟨hbefore, hq', hcross⟩ := List.pairwise_append.1 h.apart
    obtain ⟨hafter, hrest⟩ := List.pairwise_cons.1 hq'
    -- the parts are apart from each other in the place, and from all else as the place is
    have hparts : (parts.map (inside q.slot)).Pairwise Apart :=
      List.pairwise_map.2 (hq.apart.imp fun hpart => hpart.within q.slot)
    refine List.pairwise_append.2 ⟨List.pairwise_append.2 ⟨hbefore, hparts, ?_⟩, hrest, ?_⟩
    · intro p hp r hr
      obtain ⟨part, -, rfl⟩ := List.mem_map.1 hr
      exact (hcross p hp q List.mem_cons_self).inner part.slot
    · intro p hp r hr
      rcases List.mem_append.1 hp with hp | hp
      · exact hcross p hp r (List.mem_cons_of_mem q hr)
      · obtain ⟨part, -, rfl⟩ := List.mem_map.1 hp
        exact ((hafter r hr).symm.inner part.slot).symm
  ext a b hab := by
    apply h.ext
    intro p hp
    rcases List.mem_append.1 hp with hp | hp
    · exact hab p (List.mem_append_left _ (List.mem_append_left _ hp))
    · rcases List.mem_cons.1 hp with rfl | hp
      · apply hq.ext
        intro part hpart
        exact hab _ (List.mem_append_left _ (List.mem_append_right _ (List.mem_map_of_mem hpart)))
      · exact hab p (List.mem_append_right _ hp)

/-- What was read for a place; if nothing was given for it, what the record has there. -/
def given {ε : Type} (p : Place α) (a : α) : Option (Except ε p.Value) → Except ε p.Value
  | some read => read
  | none => .ok (p.slot.get a)

end Place

/-! ### Steps -/

/-- A place, and the value that was read for it or the fault that was found in reading. -/
structure Store (α ε : Type) extends Place α where
  value : Except ε Value

namespace Store

variable {α ε : Type} {a b : α} {e : ε} {s : Store α ε} {steps : List (Store α ε)}

/-- Fills the slot. -/
def apply (a : α) (s : Store α ε) : Except ε α :=
  s.value.map fun v => s.slot.put v a

/-- Takes steps one after the other. -/
def storeAll (steps : List (Store α ε)) (a : α) : Except ε α :=
  steps.foldlM apply a

theorem storeAll_cons : storeAll (s :: steps) a = (s.apply a).bind (storeAll steps) :=
  List.foldlM_cons ..

theorem apply_eq_ok_iff : s.apply a = .ok b ↔ ∃ v, s.value = .ok v ∧ s.slot.put v a = b :=
  Except.map_eq_ok_iff

/-- **The first fault counts.** -/
theorem storeAll_eq_error_iff :
    storeAll steps a = .error e ↔ steps.findSome? (·.value.error?) = some e := by
  induction steps generalizing a with
  | nil => constructor <;> (intro h; cases h)
  | cons s rest ih =>
    rw [storeAll_cons, List.findSome?_cons, apply]
    rcases s.value with e' | v
    · simp [Except.map, Except.bind, Except.error?]
    · exact ih

/-- Without a fault the record is filled. -/
theorem storeAll_of_values (h : ∀ s ∈ steps, ∃ v, s.value = .ok v) :
    ∃ b, storeAll steps a = .ok b := by
  rcases hall : storeAll steps a with e | b
  · obtain ⟨s, hs, hfault⟩ := List.exists_of_findSome?_eq_some (storeAll_eq_error_iff.1 hall)
    obtain ⟨v, hv⟩ := h s hs
    rw [hv] at hfault
    cases hfault
  · exact ⟨b, rfl⟩

/-- A slot that no step fills holds what it held. -/
theorem get_storeAll_of_apart {T : Type} {slot : Slot α T} (hall : storeAll steps a = .ok b)
    (h : ∀ s ∈ steps, slot.Apart s.slot) : slot.get b = slot.get a := by
  induction steps generalizing a with
  | nil =>
    obtain rfl := Except.ok.inj hall
    rfl
  | cons s rest ih =>
    rw [storeAll_cons] at hall
    obtain ⟨c, hc, hrest⟩ := Except.bind_eq_ok_iff.1 hall
    obtain ⟨v, -, rfl⟩ := apply_eq_ok_iff.1 hc
    obtain ⟨hs, hapart⟩ := List.forall_mem_cons.1 h
    rw [ih hrest hapart, hs.left]

/-- Where no two steps fill the same place, each slot holds what was read for it. -/
theorem get_of_storeAll (hall : storeAll steps a = .ok b)
    (h : steps.Pairwise fun s t => s.slot.Apart t.slot) (hs : s ∈ steps) :
    s.value = .ok (s.slot.get b) := by
  induction steps generalizing a with
  | nil => cases hs
  | cons t rest ih =>
    rw [storeAll_cons] at hall
    obtain ⟨c, hc, hrest⟩ := Except.bind_eq_ok_iff.1 hall
    obtain ⟨hapart, hpairwise⟩ := List.pairwise_cons.1 h
    rcases List.mem_cons.1 hs with rfl | hs
    · -- what the first step puts in, no later step touches
      obtain ⟨v, hv, rfl⟩ := apply_eq_ok_iff.1 hc
      rw [get_storeAll_of_apart hrest hapart, s.slot.get_put, hv]
    · exact ih hrest hpairwise hs

/-- A record of which every place is filled holds what was read, if all could be read. -/
theorem storeAll_eq_ok_iff (h : Place.Partition (steps.map Store.toPlace)) :
    storeAll steps a = .ok b ↔ ∀ s ∈ steps, s.value = .ok (s.slot.get b) := by
  have hpairwise : steps.Pairwise fun s t => s.slot.Apart t.slot := List.pairwise_map.1 h.apart
  constructor
  · intro hall s hs
    exact get_of_storeAll hall hpairwise hs
  · intro hvalues
    obtain ⟨b', hall⟩ := storeAll_of_values fun s hs => ⟨_, hvalues s hs⟩
    -- the record that comes out agrees with `b` in every place
    have hsame : b' = b := by
      apply h.ext
      intro p hp
      obtain ⟨s, hs, rfl⟩ := List.mem_map.1 hp
      have hread := get_of_storeAll hall hpairwise hs
      rw [hvalues s hs] at hread
      exact (Except.ok.inj hread).symm
    rw [hall, hsame]

end Store

end ServiceHost
