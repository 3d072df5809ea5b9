import Mathlib.Data.List.Nodup
import Mathlib.Data.List.Pairwise
import ServiceHost.Document
import ServiceHost.Proofs.Settings.Storing
/-!
Records read from tables.

A table is read entry by entry in the order in which it was written.  If no name is given twice and
the fields of the record make it up, the order does not matter: the record that comes out has what
was read for each field that is given, and its default elsewhere (`readRecord_eq_ok_iff`).  In any
case a field has what was given for it last (`given_of_readRecord`).
-/

namespace ServiceHost

/-! ### Trees -/

namespace Document

/-- What a table has under a name. -/
def child? (d : Document) (name : String) : Option Document :=
  match d with
  | .table entries => entries.lookup name
  | _ => none

/-- What names lead to, one table after the other. -/
def at? (d : Option Document) : List String → Option Document
  | [] => d
  | name :: names => at? (d.bind (·.child? name)) names

/-- A table in which no name is given twice. -/
def IsTable : Document → Prop
  | .table entries => (entries.map Prod.fst).Nodup
  | _ => False

/-- The entries for a record.  The items of a list stand for its fields in their order. -/
def entriesFor {α : Type} (fields : List (Member α)) : Document → List (String × Document)
  | .table entries => entries
  | .list items => (fields.map (·.name)).zip items
  | _ => []

/-- What is given last for a field of a record. -/
def last? {α : Type} (fields : List (Member α)) (d : Document) (name : String) : Option Document :=
  (d.entriesFor fields).reverse.lookup name

end Document

/-! ### Fields -/

/-- A field of a record: its place, its name in tables, and how it is read. -/
structure Cell (α : Type) extends Place α where
  name : String
  read : Document → Except Document.Fault Value

namespace Cell

variable {α : Type}

/-- The field as one of those by which records are read. -/
def member (c : Cell α) : Document.Member α :=
  Document.field c.name c.read c.slot.put

/-- Fields that make up a record, each with a name of its own. -/
structure Layout (cells : List (Cell α)) : Prop where
  names : (cells.map (·.name)).Nodup
  places : Place.Partition (cells.map Cell.toPlace)

namespace Layout

variable {cells : List (Cell α)} {c c' : Cell α}

theorem eq_of_name (h : Layout cells) (hc : c ∈ cells) (hc' : c' ∈ cells) (hname : c.name = c'.name) :
    c = c' :=
  List.inj_on_of_nodup_map h.names hc hc' hname

theorem apart (h : Layout cells) (hc : c ∈ cells) (hc' : c' ∈ cells) (hne : c.name ≠ c'.name) :
    c.slot.Apart c'.slot := by
  have hpairwise := List.pairwise_map.1 h.places.apart
  have : Std.Symm fun a b : Cell α => a.toPlace.Apart b.toPlace := ⟨fun _ _ hab => hab.symm⟩
  exact hpairwise.forall hc hc' fun heq => hne (congrArg Cell.name heq)

/-- A field is found by its name. -/
theorem find?_name (h : Layout cells) (hc : c ∈ cells) :
    cells.find? (·.name == c.name) = some c := by
  cases hfound : cells.find? (·.name == c.name) with
  | none =>
    have hunknown : ∀ c' ∈ cells, c'.name ≠ c.name := by simpa using hfound
    exact absurd rfl (hunknown c hc)
  | some c' =>
    have hname : c'.name = c.name := by simpa using List.find?_some hfound
    rw [h.eq_of_name (List.mem_of_find?_eq_some hfound) hc hname]

end Layout

open Document

variable {cells : List (Cell α)}

/-- What is put elsewhere does not matter for a field. -/
theorem given_put {c c₀ : Cell α} (h : c.slot.Apart c₀.slot) (v : c₀.Value) (a : α)
    (r : Option (Except Fault c.Value)) : c.given (c₀.slot.put v a) r = c.given a r := by
  cases r with
  | none => exact congrArg Except.ok (h.left v a)
  | some r => rfl

/-- An entry does not matter for fields of other names. -/
theorem lookup_cons_of_ne {entries : List (String × Document)} {name name' : String} {d : Document}
    (h : name' ≠ name) : ((name, d) :: entries).lookup name' = entries.lookup name' := by
  rw [List.lookup_cons, beq_eq_false_iff_ne.2 h]

theorem find?_member (cells : List (Cell α)) (name : String) :
    (cells.map member).find? (·.name == name) = (cells.find? (·.name == name)).map member :=
  List.find?_map

/-- **Each field is read from its own entry.** -/
theorem storeEntries_eq_ok_iff (hcells : Layout cells) {entries : List (String × Document)}
    (hentries : (entries.map Prod.fst).Nodup) {a b : α} :
    storeEntries (cells.map member) entries a = .ok b ↔
      ∀ c ∈ cells, c.given a ((entries.lookup c.name).map c.read) = .ok (c.slot.get b) := by
  induction entries generalizing a with
  | nil =>
    show Except.ok a = .ok b ↔ ∀ c ∈ cells, Except.ok (c.slot.get a) = .ok (c.slot.get b)
    constructor
    · intro h c _
      rw [Except.ok.inj h]
    · intro h
      rw [hcells.places.ext a b]
      exact List.forall_mem_map.2 fun c hc => Except.ok.inj (h c hc)
  | cons entry rest ih =>
    obtain ⟨name, d⟩ := entry
    obtain ⟨hname, hrest⟩ := List.nodup_cons.1 hentries
    rw [storeEntries, find?_member]
    cases hfind : cells.find? (·.name == name) with
    | none =>
      -- the entry is ignored, and no field would have been read from it
      have hunknown : ∀ c ∈ cells, c.name ≠ name := by simpa using hfind
      show storeEntries (cells.map member) rest a = .ok b ↔ _
      rw [ih hrest]
      refine forall₂_congr fun c hc => ?_
      rw [lookup_cons_of_ne (hunknown c hc)]
    | some c₀ =>
      -- the entry goes to the field of its name, and none of the later entries has that name
      have hc₀ := List.mem_of_find?_eq_some hfind
      obtain rfl : c₀.name = name := by simpa using List.find?_some hfind
      have hlater : rest.lookup c₀.name = none := by
        rw [List.lookup_eq_none_iff]
        intro entry hentry
        exact bne_iff_ne.2 fun h => hname (List.mem_map.2 ⟨entry, hentry, h.symm⟩)
      have hother : ∀ v, ∀ c ∈ cells, c.name ≠ c₀.name →
          c.given (c₀.slot.put v a) ((rest.lookup c.name).map c.read) =
            c.given a ((((c₀.name, d) :: rest).lookup c.name).map c.read) := by
        intro v c hc hne
        rw [lookup_cons_of_ne hne, given_put (hcells.apart hc hc₀ hne)]
      show ((c₀.read d).map fun v => c₀.slot.put v a).bind
        (storeEntries (cells.map member) rest) = .ok b ↔ _
      simp only [Except.bind_eq_ok_iff, Except.map_eq_ok_iff]
      constructor
      · rintro ⟨_, ⟨v, hv, rfl⟩, hstored⟩ c hc
        have hall := (ih hrest).1 hstored
        by_cases hne : c.name = c₀.name
        · obtain rfl := hcells.eq_of_name hc hc₀ hne
          have hkept := hall c hc
          rw [hlater] at hkept
          have hget : c.slot.get (c.slot.put v a) = c.slot.get b := Except.ok.inj hkept
          rw [c.slot.get_put] at hget
          rw [List.lookup_cons_self, ← hget]
          exact hv
        · rw [← hother v c hc hne]
          exact hall c hc
      · intro h
        have hv : c₀.read d = .ok (c₀.slot.get b) := by
          have h₀ := h c₀ hc₀
          rwa [List.lookup_cons_self] at h₀
        refine ⟨_, ⟨_, hv, rfl⟩, (ih hrest).2 fun c hc => ?_⟩
        by_cases hne : c.name = c₀.name
        · obtain rfl := hcells.eq_of_name hc hc₀ hne
          rw [hlater]
          exact congrArg Except.ok (c.slot.get_put _ _)
        · rw [hother _ c hc hne]
          exact h c hc

theorem readRecord_eq_ok_iff (hcells : Layout cells) (rules : Rules) {d : Document} (hd : d.IsTable)
    {a b : α} :
    readRecord rules (cells.map member) a d = .ok b ↔
      ∀ c ∈ cells, c.given a ((d.child? c.name).map c.read) = .ok (c.slot.get b) := by
  cases d with
  | table entries => exact storeEntries_eq_ok_iff hcells hd
  | null | bool | integer | real | text | moment | list => exact hd.elim

/-- A record that is a field of another one.  If no table is given for it, each of its own fields
has its default. -/
theorem given_record_eq_ok_iff (hcells : Layout cells) (rules : Rules) {β : Type} (slot : Slot β α)
    {d : Option Document} (hd : ∀ t ∈ d, t.IsTable) {w : β} {b : α} :
    Place.given ⟨α, slot⟩ w (d.map (readRecord rules (cells.map member) (slot.get w))) = .ok b ↔
      ∀ c ∈ cells, c.given (slot.get w) ((d.bind (·.child? c.name)).map c.read) =
        .ok (c.slot.get b) := by
  cases d with
  | none =>
    have hempty : (([] : List (String × Document)).map Prod.fst).Nodup := List.nodup_nil
    exact storeEntries_eq_ok_iff hcells hempty
  | some d => exact readRecord_eq_ok_iff hcells rules (hd d rfl)

/-! ### Names given more than once -/

/-- The items of a list are read as the entries of a table with the names of the fields. -/
theorem storeEntries_of_storeItems {fields fields' : List (Member α)} {rules : Rules}
    {items : List Document} {a b : α}
    (hfields : ∀ f ∈ fields', fields.find? (·.name == f.name) = some f)
    (h : storeItems rules fields' items a = .ok b) :
    storeEntries fields ((fields'.map (·.name)).zip items) a = .ok b := by
  induction fields' generalizing items a with
  | nil =>
    cases items with
    | nil => exact h
    | cons d items =>
      rw [storeItems] at h
      split at h
      · exact h
      · cases h
  | cons f fields' ih =>
    cases items with
    | nil => exact h
    | cons d items =>
      obtain ⟨hf, hrest⟩ := List.forall_mem_cons.1 hfields
      obtain ⟨c, hc, h⟩ := Except.bind_eq_ok_iff.1 h
      rw [List.map_cons, List.zip_cons_cons, storeEntries, hf]
      exact Except.bind_eq_ok_iff.2 ⟨c, hc, ih hrest h⟩

/-- **Of several entries for a field the last one counts.** -/
theorem given_of_storeEntries (hcells : Layout cells) {entries : List (String × Document)} {a b : α}
    (h : storeEntries (cells.map member) entries a = .ok b) {c : Cell α} (hc : c ∈ cells) :
    c.given a ((entries.reverse.lookup c.name).map c.read) = .ok (c.slot.get b) := by
  induction entries generalizing a with
  | nil => exact congrArg _ (congrArg c.slot.get (Except.ok.inj h))
  | cons entry rest ih =>
    obtain ⟨name, d⟩ := entry
    rw [storeEntries, find?_member] at h
    rw [List.reverse_cons, List.lookup_append]
    cases hfind : cells.find? (·.name == name) with
    | none =>
      have hunknown : ∀ c ∈ cells, c.name ≠ name := by simpa using hfind
      rw [hfind] at h
      rw [lookup_cons_of_ne (hunknown c hc), List.lookup_nil, Option.or_none]
      exact ih h
    | some c₀ =>
      have hc₀ := List.mem_of_find?_eq_some hfind
      obtain rfl : c₀.name = name := by simpa using List.find?_some hfind
      rw [hfind] at h
      obtain ⟨_, hfirst, h⟩ := Except.bind_eq_ok_iff.1 h
      obtain ⟨v, hv, rfl⟩ := Except.map_eq_ok_iff.1 hfirst
      have hrest := ih h
      -- a later entry of the name decides alone; without one the first entry has been put in
      cases hlast : rest.reverse.lookup c.name with
      | some d' =>
        rw [hlast] at hrest
        exact hrest
      | none =>
        rw [hlast] at hrest
        by_cases hne : c.name = c₀.name
        · obtain rfl := hcells.eq_of_name hc hc₀ hne
          rw [List.lookup_cons_self]
          have hput : c.slot.get (c.slot.put v a) = c.slot.get b := Except.ok.inj hrest
          rw [c.slot.get_put] at hput
          rw [← hput]
          exact hv
        · rw [lookup_cons_of_ne hne]
          rwa [Option.map_none, given_put (hcells.apart hc hc₀ hne)] at hrest

/-- Each field is what is given last for it, whatever the record is read from. -/
theorem given_of_readRecord (hcells : Layout cells) {rules : Rules} {d : Document} {a b : α}
    (h : readRecord rules (cells.map member) a d = .ok b) {c : Cell α} (hc : c ∈ cells) :
    c.given a ((d.last? (cells.map member) c.name).map c.read) = .ok (c.slot.get b) := by
  have hstored : storeEntries (cells.map member) (d.entriesFor (cells.map member)) a = .ok b := by
    cases d with
    | table entries => exact h
    | moment => exact h
    | list items =>
      refine storeEntries_of_storeItems (fun f hf => ?_) h
      obtain ⟨c, hc, rfl⟩ := List.mem_map.1 hf
      rw [find?_member]
      exact congrArg (Option.map member) (hcells.find?_name hc)
    | null | bool | integer | real | text => cases h
  exact given_of_storeEntries hcells hstored hc

end Cell

end ServiceHost
