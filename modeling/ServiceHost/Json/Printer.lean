import ServiceHost.Decimal.Shortest
import ServiceHost.Json.Value
import ServiceHost.Numeral
/-!
JSON values as text.

One printer serves both layouts: they differ in what stands between tokens and in nothing else.
-/

namespace ServiceHost.Json

open Decimal

/-! ### Layout -/

/-- What stands between the tokens of a text: nothing, or line breaks with so many copies of
`indent` as the place is deep. -/
inductive Layout where
  | compact
  | multiline (indent : List Char)
  deriving DecidableEq, Repr

/-- The break between two lines at the given depth. -/
def Layout.lineBreak : Layout → Nat → List Char
  | .compact, _ => []
  | .multiline indent, depth => '\n' :: (List.replicate depth indent).flatten

/-- What stands between a member's name and its value. -/
def Layout.colon : Layout → List Char
  | .compact => [':']
  | .multiline _ => [':', ' ']

/-! ### Numbers and texts -/

/-- A floating point number in its shortest digits: positional with a point when the exponent is
from -5 to 15, else with an exponent that shows its sign. -/
def writeReal : Double → List Char
  | .nan => "null".toList
  | .infinite _ => "null".toList
  | .finite negative m e =>
    let sign := if negative then ['-'] else []
    if m = 0 then sign ++ "0.0".toList
    else
      let s := shortest .toEven m e
      if -5 ≤ s.exponent ∧ s.exponent < 16 then
        let (whole, part) := s.positional
        sign ++ whole ++ '.' :: (if part.isEmpty then ['0'] else part)
      else
        let (head, tail) := (s.digits.take 1, s.digits.drop 1)
        let exponent := (if s.exponent < 0 then '-' else '+') :: Numeral.write s.exponent.natAbs
        sign ++ head ++ (if tail.isEmpty then [] else '.' :: tail) ++ 'e' :: exponent

/-- A number: whole ones in decimal digits. -/
def Number.write : Number → List Char
  | .integer n => (if n < 0 then ['-'] else []) ++ Numeral.write n.natAbs
  | .real x => writeReal x

/-- A character inside quotes. -/
def escapeChar (c : Char) : List Char :=
  match c with
  | '"' => ['\\', '"']
  | '\\' => ['\\', '\\']
  | '\n' => ['\\', 'n']
  | '\r' => ['\\', 'r']
  | '\t' => ['\\', 't']
  | '\x08' => ['\\', 'b']
  | '\x0c' => ['\\', 'f']
  | c => if c.toNat < 0x20 then '\\' :: 'u' :: Numeral.writeHex 4 c.toNat else [c]

/-- A text in quotes. -/
def quote (s : List Char) : List Char :=
  '"' :: s.flatMap escapeChar ++ ['"']

/-! ### Values -/

mutual

/-- The text of a value at the given depth. -/
def writeAt (layout : Layout) (depth : Nat) : Json → List Char
  | .null => "null".toList
  | .bool true => "true".toList
  | .bool false => "false".toList
  | .number n => n.write
  | .text s => quote s.toList
  | .list [] => ['[', ']']
  | .list (v :: rest) =>
    '[' :: layout.lineBreak (depth + 1) ++ writeAt layout (depth + 1) v ++
      writeItems layout (depth + 1) rest ++ layout.lineBreak depth ++ [']']
  | .object [] => ['\x7b', '\x7d']
  | .object ((name, v) :: rest) =>
    '\x7b' :: layout.lineBreak (depth + 1) ++ quote name.toList ++ layout.colon ++
      writeAt layout (depth + 1) v ++ writeMembers layout (depth + 1) rest ++
      layout.lineBreak depth ++ ['\x7d']

/-- The items after the first one. -/
def writeItems (layout : Layout) (depth : Nat) : List Json → List Char
  | [] => []
  | v :: rest =>
    ',' :: layout.lineBreak depth ++ writeAt layout depth v ++ writeItems layout depth rest

/-- The members after the first one. -/
def writeMembers (layout : Layout) (depth : Nat) : List (String × Json) → List Char
  | [] => []
  | (name, v) :: rest =>
    ',' :: layout.lineBreak depth ++ quote name.toList ++ layout.colon ++
      writeAt layout depth v ++ writeMembers layout depth rest

end

/-- The text of a value. -/
def write (layout : Layout) (v : Json) : List Char :=
  writeAt layout 0 v

end ServiceHost.Json
