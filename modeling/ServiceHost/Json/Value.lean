import ServiceHost.Decimal.Double
import ServiceHost.Text.Ascii
/-!
JSON values.

The members of an object stand in the order of their names, each name once; `Members.put` is how
they are built.
-/

namespace ServiceHost

open Decimal

namespace Json

/-- A number: a whole one that fits 64 bits, or a binary floating point number. -/
inductive Number where
  | integer (n : Int)
  | real (x : Double)
  deriving DecidableEq, Repr, Inhabited

end Json

/-- A JSON value. -/
inductive Json where
  | null
  | bool (b : Bool)
  | number (n : Json.Number)
  | text (s : String)
  | list (items : List Json)
  | object (members : List (String × Json))
  deriving Repr, Inhabited

namespace Json

/-! ### Members -/

/-- Adds a member at its place in the order of names; a member of the same name gives way. -/
def putMember (name : String) (v : Json) : List (String × Json) → List (String × Json)
  | [] => [(name, v)]
  | (n, w) :: rest =>
    if n = name then (name, v) :: rest
    else if Text.precedes name n then (name, v) :: (n, w) :: rest
    else (n, w) :: putMember name v rest

/-- An object of the given members; of members of one name the last one counts. -/
def ofMembers (members : List (String × Json)) : Json :=
  .object (members.foldl (fun acc m => putMember m.1 m.2 acc) [])

/-- The member of the given name; `null` when there is none or the value is no object. -/
def get (name : String) : Json → Json
  | .object members => (members.lookup name).getD .null
  | _ => .null

/-! ### Views -/

/-- Is this the null value? -/
def isNull : Json → Bool
  | .null => true
  | _ => false

/-- The text of a text value. -/
def text? : Json → Option String
  | .text s => some s
  | _ => none

/-- The value of a truth value. -/
def bool? : Json → Option Bool
  | .bool b => some b
  | _ => none

/-- The value of a whole number that is not negative. -/
def nat? : Json → Option Nat
  | .number (.integer (.ofNat n)) => some n
  | _ => none

/-- The items of a list. -/
def list? : Json → Option (List Json)
  | .list items => some items
  | _ => none

/-- A natural number as a value. -/
def ofNat (n : Nat) : Json :=
  .number (.integer n)

/-! ### Null members -/

mutual

/-- The value without the null members of its objects, at every depth.  Null items of lists stay. -/
def stripNulls : Json → Json
  | .null => .null
  | .bool b => .bool b
  | .number n => .number n
  | .text s => .text s
  | .list items => .list (stripItems items)
  | .object members => .object (stripMembers members)

/-- `stripNulls` on every item. -/
def stripItems : List Json → List Json
  | [] => []
  | v :: rest => stripNulls v :: stripItems rest

/-- Drops the null members and strips the others. -/
def stripMembers : List (String × Json) → List (String × Json)
  | [] => []
  | (name, v) :: rest =>
    if v.isNull then stripMembers rest else (name, stripNulls v) :: stripMembers rest

end

end Json

end ServiceHost
