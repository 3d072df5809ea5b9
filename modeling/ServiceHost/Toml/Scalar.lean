import ServiceHost.Decimal.Reading
import ServiceHost.Document
/-!
TOML values written without quotes: truth values, numbers and moments in time.
-/

namespace ServiceHost.Toml

open Decimal

/-! ### Digits with underscores -/

/-- The digits of a row in which an underscore may stand between two digits. -/
def digitRow (isDigit : Char → Bool) : List Char → Option (List Char)
  | [] => none
  | [c] => if isDigit c then some [c] else none
  | c :: '_' :: d :: rest =>
    if isDigit c then (digitRow isDigit (d :: rest)).map (c :: ·) else none
  | c :: d :: rest =>
    if isDigit c then (digitRow isDigit (d :: rest)).map (c :: ·) else none

/-- Digits of a decimal number: no zero in front of others. -/
def wholeRow (s : List Char) : Option (List Char) :=
  (digitRow Char.isDigit s).bind fun ds =>
    if ds.head? = some '0' ∧ 1 < ds.length then none else some ds

/-! ### Numbers -/

/-- Integers that the widest signed or unsigned numbers hold. -/
def integerInRange (n : Int) : Bool :=
  -(twoTo 127 : Int) ≤ n && n < twoTo 128

/-- A decimal integer after its sign. -/
def decimalInteger? (negative : Bool) (s : List Char) : Option Document :=
  (wholeRow s).bind fun ds =>
    let n : Int := digitsValue ds
    let n := if negative then -n else n
    if integerInRange n then some (.integer n) else none

/-- An integer in another base after its mark. -/
def basedInteger? (base : Nat) (s : List Char) : Option Document := do
  let isDigit (c : Char) : Bool := (Numeral.hexDigit? c).any (· < base)
  let n ← Numeral.valueFrom Numeral.hexDigit? base 0 (← digitRow isDigit s)
  if integerInRange n then some (.integer n) else none

/-- A floating point number after its sign; one beyond the largest finite number is refused. -/
def real? (negative : Bool) (s : List Char) : Option Document := do
  let isMark (c : Char) : Bool := c == 'e' || c == 'E'
  let (mantissa, exponent) := match s.span (fun c => !isMark c) with
    | (m, _ :: e) => (m, some e)
    | (m, []) => (m, none)
  let (whole, part) := match Text.splitFirst '.' mantissa with
    | some (w, p) => (w, some p)
    | none => (mantissa, none)
  if part.isNone && exponent.isNone then none
  else
    let ws ← wholeRow whole
    let ps ← match part with
      | some p => digitRow Char.isDigit p
      | none => some []
    let e ← match exponent with
      | none => some (0 : Int)
      | some ('+' :: ds) => (digitRow Char.isDigit ds).map fun r => (digitsValue r : Int)
      | some ('-' :: ds) => (digitRow Char.isDigit ds).map fun r => -(digitsValue r : Int)
      | some ds => (digitRow Char.isDigit ds).map fun r => (digitsValue r : Int)
    let x := nearest negative (ws ++ ps) (e - ps.length)
    if x.isFinite then some (.real x) else none

/-- A number after its sign. -/
def signedNumber? (negative : Bool) (s : List Char) : Option Document :=
  if s = "inf".toList then some (.real (.infinite negative))
  else if s = "nan".toList then some (.real .nan)
  else (decimalInteger? negative s).or (real? negative s)

/-! ### Moments in time -/

/-- A number of exactly `width` digits at the beginning. -/
def takeFixed (width : Nat) (s : List Char) : Option (Nat × List Char) :=
  let ds := s.take width
  if ds.length = width ∧ ds.all Char.isDigit then some (digitsValue ds, s.drop width) else none

/-- The days of a month. -/
def daysInMonth (year month : Nat) : Nat :=
  if month = 2 then
    if (year % 4 = 0 ∧ year % 100 ≠ 0) ∨ year % 400 = 0 then 29 else 28
  else if month ∈ [4, 6, 9, 11] then 30 else 31

/-- What follows a date. -/
def afterDate? (s : List Char) : Option (List Char) := do
  let (year, s) ← takeFixed 4 s
  let (month, s) ← takeFixed 2 (← Text.after? ['-'] s)
  let (day, s) ← takeFixed 2 (← Text.after? ['-'] s)
  if 1 ≤ month ∧ month ≤ 12 ∧ 1 ≤ day ∧ day ≤ daysInMonth year month then some s else none

/-- What follows hours and minutes. -/
def afterMinutes? (s : List Char) : Option (List Char) := do
  let (hours, s) ← takeFixed 2 s
  let (minutes, s) ← takeFixed 2 (← Text.after? [':'] s)
  if hours ≤ 23 ∧ minutes ≤ 59 then some s else none

/-- What follows a time of day; its seconds and their fraction may be missing. -/
def afterTime? (s : List Char) : Option (List Char) := do
  match ← afterMinutes? s with
  | ':' :: s =>
    let (seconds, s) ← takeFixed 2 s
    if seconds ≤ 60 then
      match s with
      | '.' :: s =>
        let (part, s) := takeDigits s
        if part.isEmpty then none else some s
      | s => some s
    else none
  | s => some s

/-- Nothing, or a distance from universal time and nothing else. -/
def isOffset : List Char → Bool
  | [] => true
  | ['Z'] => true
  | ['z'] => true
  | '+' :: s => afterMinutes? s == some []
  | '-' :: s => afterMinutes? s == some []
  | _ => false

/-- A date, a time of day, or both, and then perhaps a distance from universal time. -/
def isMoment (s : List Char) : Bool :=
  match afterDate? s with
  | some [] => true
  | some (c :: rest) =>
    if c = 'T' ∨ c = 't' ∨ c = ' ' then (afterTime? rest).any isOffset else false
  | none => afterTime? s == some []

/-! ### Values -/

/-- The value of a word without quotes. -/
def scalar? (s : List Char) : Option Document :=
  match s with
  | '+' :: r => signedNumber? false r
  | '-' :: r => signedNumber? true r
  | '0' :: 'x' :: r => basedInteger? 16 r
  | '0' :: 'o' :: r => basedInteger? 8 r
  | '0' :: 'b' :: r => basedInteger? 2 r
  | s =>
    if s = "true".toList then some (.bool true)
    else if s = "false".toList then some (.bool false)
    else if isMoment s then some .moment
    else signedNumber? false s

end ServiceHost.Toml
