import Mathlib.Data.List.Forall2
import ServiceHost.Gateway.JsonOptions
/-!
Values without null members.

`Stripped v w` says what is left of a value `v` when null members are not wanted: lists keep all
their items, objects keep the members that are not null, and so on inside of them.  What `w` has at
any path is what is left of the part that `v` has there, and nothing but nulls is missing
(`Stripped.exists_of_at`, `Stripped.exists_at`).  Such a value is written if unpopulated members are
not wanted (`render_stripped`).
-/

namespace List.Forall₂

variable {α β : Type} {R : α → β → Prop} {l : List α} {l' : List β}

theorem exists_getElem? (h : Forall₂ R l l') {i : Nat} {a : α} (ha : l[i]? = some a) :
    ∃ b, l'[i]? = some b ∧ R a b := by
  induction h generalizing i with
  | nil => cases ha
  | @cons a₀ b₀ l l' hab _ ih =>
    cases i with
    | zero =>
      obtain rfl := Option.some.inj ha
      exact ⟨b₀, rfl, hab⟩
    | succ i => exact ih ha

theorem exists_mem (h : Forall₂ R l l') {a : α} (ha : a ∈ l) : ∃ b ∈ l', R a b := by
  obtain ⟨i, hi⟩ := mem_iff_getElem?.1 ha
  obtain ⟨b, hb, hab⟩ := h.exists_getElem? hi
  exact ⟨b, mem_of_getElem? hb, hab⟩

end List.Forall₂

namespace ServiceHost

namespace Json

/-- What holds of the values without parts, and of lists and objects if it holds of their parts,
holds of every value. -/
theorem induction {P : Json → Prop} (null : P .null) (bool : ∀ b, P (.bool b))
    (number : ∀ n, P (.number n)) (text : ∀ s, P (.text s))
    (list : ∀ items, (∀ v ∈ items, P v) → P (.list items))
    (object : ∀ members, (∀ m ∈ members, P m.2) → P (.object members)) (v : Json) : P v :=
  @Json.rec P (fun items => ∀ v ∈ items, P v) (fun members => ∀ m ∈ members, P m.2)
    (fun m => P m.2) null bool number text list object
    (List.forall_mem_nil P) (fun _ _ hv hitems => List.forall_mem_cons.2 ⟨hv, hitems⟩)
    (List.forall_mem_nil _) (fun _ _ hm hmembers => List.forall_mem_cons.2 ⟨hm, hmembers⟩)
    (fun _ _ hv => hv) v

/-! ### Parts of a value -/

/-- A step from a value to one of its parts: to an item of a list by its place, or to a member of an
object by its name. -/
inductive Step where
  | item (i : Nat)
  | member (name : String)

/-- `At v path u`: the path leads from the value `v` to its part `u`. -/
inductive At : Json → List Step → Json → Prop
  | here (v : Json) : At v [] v
  | item {items : List Json} {i : Nat} {v u : Json} {path : List Step}
      (hv : items[i]? = some v) (hu : At v path u) : At (.list items) (.item i :: path) u
  | member {members : List (String × Json)} {name : String} {v u : Json} {path : List Step}
      (hv : (name, v) ∈ members) (hu : At v path u) :
      At (.object members) (.member name :: path) u

variable {v w u u' : Json} {members members' : List (String × Json)} {path : List Step}

theorem isNull_iff : v.isNull = true ↔ v = .null := by
  cases v <;> simp [isNull]

theorem At.eq_null (h : At .null path u) : u = .null := by
  cases h
  rfl

/-! ### What is left -/

/-- The members that are not null. -/
def populated (members : List (String × Json)) : List (String × Json) :=
  members.filter fun m => !m.2.isNull

theorem mem_populated_iff {m : String × Json} :
    m ∈ populated members ↔ m ∈ members ∧ m.2 ≠ .null := by
  rw [populated, List.mem_filter, Bool.not_eq_true', ← Bool.not_eq_true, isNull_iff]

/-- `Stripped v w`: `w` is left of `v` when its null members are not wanted.  Of a list all items
stay in their places, also the null ones; of an object the members that are not null stay, in their
order and by their names. -/
inductive Stripped : Json → Json → Prop
  | null : Stripped .null .null
  | bool (b : Bool) : Stripped (.bool b) (.bool b)
  | number (n : Number) : Stripped (.number n) (.number n)
  | text (s : String) : Stripped (.text s) (.text s)
  | list {items items' : List Json} (hitems : List.Forall₂ Stripped items items') :
      Stripped (.list items) (.list items')
  | object {members members' : List (String × Json)}
      (hnames : (populated members).map Prod.fst = members'.map Prod.fst)
      (hvalues : List.Forall₂ Stripped ((populated members).map Prod.snd) (members'.map Prod.snd)) :
      Stripped (.object members) (.object members')

namespace Stripped

/-- Null is left of null, and of nothing else. -/
theorem eq_null_iff (h : Stripped u u') : u = .null ↔ u' = .null := by
  cases h <;> simp

/-- The members that are left, side by side with those that they are left of. -/
theorem forall₂_members (h : Stripped (.object members) (.object members')) :
    List.Forall₂ (fun m m' => m.1 = m'.1 ∧ Stripped m.2 m'.2) (populated members) members' := by
  cases h with
  | object hnames hvalues =>
    rw [← List.forall₂_eq_eq_eq, List.forall₂_map_left_iff, List.forall₂_map_right_iff] at hnames
    rw [List.forall₂_map_left_iff, List.forall₂_map_right_iff] at hvalues
    exact hnames.mp (fun _ _ hname hvalue => ⟨hname, hvalue⟩) hvalues

/-- **Nothing is added.**  What is at a path afterwards is left of what was there before. -/
theorem exists_of_at (h : Stripped v w) (hat : At w path u') :
    ∃ u, At v path u ∧ Stripped u u' := by
  induction hat generalizing v with
  | here w => exact ⟨v, .here v, h⟩
  | item hw _ ih =>
    cases h with
    | list hitems =>
      obtain ⟨x, hx, hstripped⟩ := hitems.flip.exists_getElem? hw
      obtain ⟨u, hu, hleft⟩ := ih hstripped
      exact ⟨u, .item hx hu, hleft⟩
  | member hw _ ih =>
    cases h with
    | object hnames hvalues =>
      have hpairs := (object hnames hvalues).forall₂_members
      obtain ⟨⟨name, x⟩, hm, rfl, hstripped⟩ := hpairs.flip.exists_mem hw
      obtain ⟨u, hu, hleft⟩ := ih hstripped
      exact ⟨u, .member (mem_populated_iff.1 hm).1 hu, hleft⟩

/-- **Only nulls are missing.**  Of what was at a path before, something is left there unless it
was null. -/
theorem exists_at (h : Stripped v w) (hat : At v path u) (hu : u ≠ .null) :
    ∃ u', At w path u' ∧ Stripped u u' := by
  induction hat generalizing w with
  | here v => exact ⟨w, .here w, h⟩
  | item hv _ ih =>
    cases h with
    | list hitems =>
      obtain ⟨x', hx', hstripped⟩ := hitems.exists_getElem? hv
      obtain ⟨u', hu', hleft⟩ := ih hstripped hu
      exact ⟨u', .item hx' hu', hleft⟩
  | @member _ _ x _ _ hv hrest ih =>
    cases h with
    | object hnames hvalues =>
      -- what leads to more than null is not null itself
      have hne : x ≠ .null := by
        rintro rfl
        exact hu hrest.eq_null
      have hm := mem_populated_iff.2 ⟨hv, hne⟩
      have hpairs := (object hnames hvalues).forall₂_members
      obtain ⟨⟨name, x'⟩, hm', rfl, hstripped⟩ := hpairs.exists_mem hm
      obtain ⟨u', hu', hleft⟩ := ih hstripped hu
      exact ⟨u', .member hm' hu', hleft⟩

/-- **No null members.**  No object that is left has one, at whatever path. -/
theorem ne_null_of_at (h : Stripped v w) (hat : At w path (.object members')) :
    ∀ m ∈ members', m.2 ≠ .null := by
  intro m' hm'
  obtain ⟨u, -, hu⟩ := h.exists_of_at hat
  cases hu with
  | object hnames hvalues =>
    have hpairs := (object hnames hvalues).forall₂_members
    obtain ⟨m, hm, -, hstripped⟩ := hpairs.flip.exists_mem hm'
    exact fun hnull => (mem_populated_iff.1 hm).2 (hstripped.eq_null_iff.2 hnull)

end Stripped

/-! ### Stripping -/

theorem stripItems_eq (items : List Json) : stripItems items = items.map stripNulls := by
  induction items with
  | nil => rfl
  | cons v items ih => rw [stripItems, ih, List.map_cons]

theorem stripMembers_eq (members : List (String × Json)) :
    stripMembers members = (populated members).map fun m => (m.1, stripNulls m.2) := by
  induction members with
  | nil => rfl
  | cons m members ih =>
    obtain ⟨name, v⟩ := m
    rw [stripMembers, ih, populated, populated, List.filter_cons]
    cases v.isNull <;> rfl

theorem stripNulls_list (items : List Json) :
    stripNulls (.list items) = .list (items.map stripNulls) := by
  rw [stripNulls, stripItems_eq]

theorem stripNulls_object (members : List (String × Json)) :
    stripNulls (.object members) =
      .object ((populated members).map fun m => (m.1, stripNulls m.2)) := by
  rw [stripNulls, stripMembers_eq]

theorem isNull_stripNulls (v : Json) : v.stripNulls.isNull = v.isNull := by
  cases v <;> rfl

theorem stripped_stripNulls (v : Json) : Stripped v v.stripNulls := by
  induction v using Json.induction with
  | null => exact .null
  | bool b => exact .bool b
  | number n => exact .number n
  | text s => exact .text s
  | list items ih =>
    rw [stripNulls_list]
    refine .list ?_
    rw [List.forall₂_map_right_iff, List.forall₂_same]
    exact ih
  | object members ih =>
    rw [stripNulls_object]
    refine .object ?_ ?_
    · rw [List.map_map]
      rfl
    · rw [List.map_map, List.forall₂_map_left_iff, List.forall₂_map_right_iff, List.forall₂_same]
      exact fun m hm => ih m (mem_populated_iff.1 hm).1

theorem stripNulls_stripNulls (v : Json) : v.stripNulls.stripNulls = v.stripNulls := by
  induction v using Json.induction with
  | null | bool | number | text => rfl
  | list items ih =>
    rw [stripNulls_list, stripNulls_list, List.map_map]
    exact congrArg Json.list (List.map_congr_left ih)
  | object members ih =>
    have hpopulated : populated ((populated members).map fun m => (m.1, stripNulls m.2)) =
        (populated members).map fun m => (m.1, stripNulls m.2) := by
      refine List.filter_eq_self.2 fun m' hm' => ?_
      obtain ⟨m, hm, rfl⟩ := List.mem_map.1 hm'
      rw [isNull_stripNulls]
      exact (List.mem_filter.1 hm).2
    rw [stripNulls_object, stripNulls_object, hpopulated, List.map_map]
    refine congrArg Json.object (List.map_congr_left fun m hm => ?_)
    exact congrArg (Prod.mk m.1) (ih m (mem_populated_iff.1 hm).1)

end Json

namespace Gateway.JsonOptions

open Json (At Stripped)

/-- **Null members.**  With unpopulated members every value is written as it is.  Without them a
value is written from which null members, and nothing else, have been taken.  At each path it has
what is left of the part that the value has there: a list of as many items in the same order, null
ones included, or an object of exactly the members that are not null.  Only what was null can be
missing, so that an object is kept when no member of it is left; no object has a null member; and
there is nothing more to be taken. -/
theorem render_stripped (o : JsonOptions) (v : Json) :
    { o with emitUnpopulated := true }.render v = v.write o.layout ∧
    ∃ w, { o with emitUnpopulated := false }.render v = w.write o.layout ∧ Stripped v w ∧
      (∀ path u', At w path u' → ∃ u, At v path u ∧ Stripped u u') ∧
      (∀ path u, At v path u → u ≠ .null → ∃ u', At w path u' ∧ Stripped u u') ∧
      (∀ path members, At w path (.object members) → ∀ m ∈ members, m.2 ≠ .null) ∧
      w.stripNulls = w := by
  have hstripped := Json.stripped_stripNulls v
  refine ⟨rfl, v.stripNulls, rfl, hstripped, ?_, ?_, ?_, Json.stripNulls_stripNulls v⟩
  · exact fun path u' hat => hstripped.exists_of_at hat
  · exact fun path u hat hu => hstripped.exists_at hat hu
  · exact fun path members hat => hstripped.ne_null_of_at hat

end Gateway.JsonOptions

end ServiceHost
