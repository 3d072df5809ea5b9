import ServiceHost.Decimal.Shortest
import ServiceHost.Json.Printer
/-!
Notices for the log, and how they are written as a line of text or as an object.
-/

namespace ServiceHost.Logging

open Decimal

/-! ### Levels -/

/-- How much a notice matters, the most first. -/
inductive Level where
  | error
  | warn
  | info
  | debug
  | trace
  deriving DecidableEq, Repr, Inhabited

/-- The number of a level, from one. -/
def Level.number : Level → Nat
  | .error => 1
  | .warn => 2
  | .info => 3
  | .debug => 4
  | .trace => 5

/-- The name of a level. -/
def Level.name : Level → String
  | .error => "ERROR"
  | .warn => "WARN"
  | .info => "INFO"
  | .debug => "DEBUG"
  | .trace => "TRACE"

/-! ### Notices -/

/-- The value of a field.  A text shows itself either as it is or in quotes. -/
inductive Value where
  | shown (s : String)
  | quoted (s : String)
  | integer (n : Int)
  | real (x : Double)
  | bool (b : Bool)
  deriving DecidableEq, Inhabited

/-- A notice: its level, where it comes from, what it says, and its fields. -/
structure Notice where
  level : Level
  target : String
  message : String
  fields : List (String × Value) := []
  deriving Inhabited

/-- The names of all fields, the message among them. -/
def Notice.fieldNames (e : Notice) : List String :=
  "message" :: e.fields.map (·.1)

/-! ### Lines of text -/

/-- A character within quotes. -/
def quoteChar (c : Char) : List Char :=
  match c with
  | '"' => ['\\', '"']
  | '\\' => ['\\', '\\']
  | '\n' => ['\\', 'n']
  | '\r' => ['\\', 'r']
  | '\t' => ['\\', 't']
  | c => [c]

/-- Digits with a point and at least one digit behind it. -/
def withPoint : List Char × List Char → List Char
  | (whole, []) => whole ++ ['.', '0']
  | (whole, part) => whole ++ '.' :: part

/-- A number in its shortest digits: with an exponent from 10 ^ 16 on and below 10 ^ (-4), and with
a point otherwise. -/
def writeReal : Double → List Char
  | .nan => "NaN".toList
  | .infinite negative => if negative then "-inf".toList else "inf".toList
  | .finite negative m e =>
    let sign := if negative then ['-'] else []
    if m = 0 then sign ++ "0.0".toList
    else
      let s := shortest .up m e
      if -4 ≤ s.exponent && s.exponent < 16 then sign ++ withPoint s.positional
      else
        let mantissa := match s.digits with
          | d :: d' :: ds => d :: '.' :: d' :: ds
          | ds => ds
        sign ++ mantissa ++ 'e' :: (toString s.exponent).toList

/-- The value of a field in a line of text. -/
def Value.write : Value → String
  | .shown s => s
  | .quoted s => "\"" ++ String.ofList (s.toList.flatMap quoteChar) ++ "\""
  | .integer n => toString n
  | .real x => String.ofList (writeReal x)
  | .bool b => if b then "true" else "false"

/-- The line of text. -/
def Notice.write (e : Notice) : String :=
  e.level.name ++ " " ++ e.target ++ ": " ++ e.message ++
    String.join (e.fields.map fun (name, v) => " " ++ name ++ "=" ++ v.write)

/-! ### Objects -/

/-- The value of a field in an object. -/
def Value.toJson : Value → Json
  | .shown s => .text s
  | .quoted s => .text s
  | .integer n => .number (.integer n)
  | .real x => match x with
    | .finite .. => .number (.real x)
    | _ => .null
  | .bool b => .bool b

/-- The object. -/
def Notice.toJson (e : Notice) : Json :=
  Json.ofMembers [("level", .text e.level.name),
    ("fields", Json.ofMembers
      (("message", .text e.message) :: e.fields.map fun (name, v) => (name, v.toJson))),
    ("target", .text e.target)]

end ServiceHost.Logging
