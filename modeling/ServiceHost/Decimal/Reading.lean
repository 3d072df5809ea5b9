import ServiceHost.Decimal.Double
import ServiceHost.Numeral
import ServiceHost.Text.Ascii
import ServiceHost.Text.Split
/-!
Decimal texts read as the nearest binary number.

The grammar is an optional sign and then `inf`, `infinity` or `nan` in any case, or digits with an
optional point (on one side of which digits may be missing) and an optional exponent.
-/

namespace ServiceHost.Decimal

open Text

/-- The row of decimal digits at the beginning and what follows it. -/
def takeDigits (s : List Char) : List Char × List Char :=
  (s.takeWhile Char.isDigit, s.dropWhile Char.isDigit)

/-- The value of a row of digits. -/
def digitsValue (ds : List Char) : Nat :=
  ds.foldl (fun acc c => acc * 10 + (c.toNat - '0'.toNat)) 0

/-- The number nearest to `digits * 10 ^ exponent`, without ever writing out a power of ten that the
result cannot depend on. -/
def nearest (negative : Bool) (digits : List Char) (exponent : Int) : Double :=
  let ds := digits.dropWhile (· == '0')
  if ds.isEmpty then Double.zero negative
  else
    let top : Int := ds.length + exponent
    if 400 < top then .infinite negative
    else if top < -400 then Double.zero negative
    else Double.ofDecimal negative (digitsValue ds) exponent

/-- The exponent part: nothing, or a mark, an optional sign and digits. -/
def exponent? : List Char → Option Int
  | [] => some 0
  | c :: s =>
    if c = 'e' ∨ c = 'E' then
      match s with
      | '+' :: ds => (Numeral.digits? ds).map Int.ofNat
      | '-' :: ds => (Numeral.digits? ds).map fun n => -(n : Int)
      | ds => (Numeral.digits? ds).map Int.ofNat
    else none

/-- Digits with an optional point and an optional exponent; there must be a digit beside the
point. -/
def decimal? (negative : Bool) (s : List Char) : Option Double :=
  let (whole, rest) := takeDigits s
  let (part, rest) := match rest with
    | '.' :: r => takeDigits r
    | r => ([], r)
  if whole.isEmpty && part.isEmpty then none
  else (exponent? rest).map fun e => nearest negative (whole ++ part) (e - part.length)

/-- The text after the sign. -/
def unsigned? (negative : Bool) (s : List Char) : Option Double :=
  let t := lowerAscii s
  if t = "nan".toList then some .nan
  else if t = "inf".toList ∨ t = "infinity".toList then some (.infinite negative)
  else decimal? negative s

/-- Reads a number. -/
def Double.parse? : List Char → Option Double
  | '+' :: s => unsigned? false s
  | '-' :: s => unsigned? true s
  | s => unsigned? false s

end ServiceHost.Decimal
