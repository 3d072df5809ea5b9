import ServiceHost.Fault
import ServiceHost.Json.Value
/-!
Structured settings: trees of tables, lists and plain values, whatever text they were written in.

A record is read from a table, entry by entry in the order of names, or from a list that gives its
fields in their own order.  What is not given keeps its default and what is not known is ignored.
-/

namespace ServiceHost

open Decimal

/-- A tree of settings. -/
inductive Document where
  | null
  | bool (b : Bool)
  | integer (n : Int)
  | real (x : Double)
  | text (s : String)
  | moment
  | list (items : List Document)
  | table (entries : List (String × Document))
  deriving Inhabited

namespace Document

mutual

/-- A JSON value as a tree of settings. -/
def ofJson : Json → Document
  | .null => .null
  | .bool b => .bool b
  | .number (.integer n) => .integer n
  | .number (.real x) => .real x
  | .text s => .text s
  | .list items => .list (ofItems items)
  | .object members => .table (ofMembers members)

/-- `ofJson` on every item. -/
def ofItems : List Json → List Document
  | [] => []
  | v :: rest => ofJson v :: ofItems rest

/-- `ofJson` on every member. -/
def ofMembers : List (String × Json) → List (String × Document)
  | [] => []
  | (name, v) :: rest => (name, ofJson v) :: ofMembers rest

end

/-! ### Faults -/

/-- Why a tree does not hold the wanted settings. -/
inductive Fault where
  | shape
  | unsupported (choice : Unsupported)
  | durationOverflow
  deriving DecidableEq, Repr

/-! ### Plain values -/

/-- The kinds of documents differ in one rule: may a list hold more than a record has fields? -/
structure Rules where
  surplusItems : Bool
  deriving DecidableEq, Repr

/-- A truth value. -/
def readBool : Document → Except Fault Bool
  | .bool b => .ok b
  | _ => .error .shape

/-- A text. -/
def readText : Document → Except Fault String
  | .text s => .ok s
  | _ => .error .shape

/-- A text or nothing. -/
def readOptionalText : Document → Except Fault (Option String)
  | .null => .ok none
  | .text s => .ok (some s)
  | _ => .error .shape

/-- A whole number that fits an unsigned word. -/
def readWord : Document → Except Fault Nat
  | .integer n => if 0 ≤ n ∧ n < twoTo 64 then .ok n.toNat else .error .shape
  | _ => .error .shape

/-- A whole number that fits an unsigned word, or nothing. -/
def readOptionalWord : Document → Except Fault (Option Nat)
  | .null => .ok none
  | d => (readWord d).map some

/-- A number; whole ones that fit a word are accepted. -/
def readReal : Document → Except Fault Double
  | .integer n =>
    if -(twoTo 63 : Int) ≤ n ∧ n < twoTo 64 then .ok (Double.ofInt n) else .error .shape
  | .real x => .ok x
  | _ => .error .shape

/-- A list of texts. -/
def readTexts : Document → Except Fault (List String)
  | .list items => items.mapM readText
  | _ => .error .shape

/-! ### Records -/

/-- A field of a record: its name, and how a tree given for it changes the record. -/
structure Member (α : Type) where
  name : String
  store : Document → α → Except Fault α

/-- Applies the entries of a table in their order; unknown names are ignored. -/
def storeEntries {α : Type} (fields : List (Member α)) :
    List (String × Document) → α → Except Fault α
  | [], record => .ok record
  | (name, d) :: rest, record =>
    match fields.find? (·.name == name) with
    | some field => field.store d record >>= storeEntries fields rest
    | none => storeEntries fields rest record

/-- Applies the items of a list to the fields in their order. -/
def storeItems {α : Type} (rules : Rules) :
    List (Member α) → List Document → α → Except Fault α
  | _, [], record => .ok record
  | [], _ :: _, record => if rules.surplusItems then .ok record else .error .shape
  | field :: fields, d :: rest, record => field.store d record >>= storeItems rules fields rest

/-- Reads a record, starting from its defaults.  A moment in time, which is a record of another
kind, holds none of the fields. -/
def readRecord {α : Type} (rules : Rules) (fields : List (Member α)) (default : α) :
    Document → Except Fault α
  | .table entries => storeEntries fields entries default
  | .list items => storeItems rules fields items default
  | .moment => .ok default
  | _ => .error .shape

/-- A field whose value is read and then put into the record. -/
def field {α β : Type} (name : String) (read : Document → Except Fault β) (put : β → α → α) :
    Member α :=
  ⟨name, fun d record => (read d).map fun v => put v record⟩

/-- JSON documents. -/
def jsonRules : Rules := ⟨false⟩

/-- TOML documents. -/
def tomlRules : Rules := ⟨true⟩

end Document

end ServiceHost
