import ServiceHost.Json.Value
import ServiceHost.Numeral
/-!
Reading JSON text.

Whole numbers of 64 bits are kept; others become floating point numbers by one multiplication or
division of the first digits that fit 64 bits by a power of ten, so that a number with more digits
may differ from the nearest one in its last bit.
-/

namespace ServiceHost.Json

open Decimal

/-! ### Numbers -/

/-- The largest unsigned word. -/
def maxWord : Nat := Numeral.maxUnsigned 64

/-- `significand * 10 ^ exponent` by floating point steps; `none` beyond the largest number. -/
def scale (significand : Nat) (exponent : Int) : Option Double :=
  let x := Double.ofNat significand
  if x.isZero ∨ exponent < -616 then some (Double.zero false)
  else if exponent < -308 then
    some ((x.div (Double.ofDecimal false 1 308)).div
      (Double.ofDecimal false 1 (-(exponent + 308))))
  else if exponent < 0 then some (x.div (Double.ofDecimal false 1 (-exponent)))
  else if exponent ≤ 308 then
    let y := x.mul (Double.ofDecimal false 1 exponent)
    if y.isFinite then some y else none
  else none

/-- Takes digits into the significand while it fits a word: the significand, how many digits were
taken and how many had no room. -/
def takeSignificand (significand : Nat) : List Char → Nat × Nat × Nat
  | [] => (significand, 0, 0)
  | c :: cs =>
    let next := significand * 10 + (c.toNat - '0'.toNat)
    if next ≤ maxWord then
      let (s, taken, left) := takeSignificand next cs
      (s, taken + 1, left)
    else (significand, 0, cs.length + 1)

/-- The exponent part after its mark: an optional sign and digits. -/
def takeExponent (s : List Char) : Option (Int × List Char) :=
  let (negative, ds) := match s with
    | '+' :: r => (false, r)
    | '-' :: r => (true, r)
    | r => (false, r)
  (Numeral.digits? (ds.takeWhile Char.isDigit)).map fun n =>
    (if negative then -(n : Int) else n, ds.dropWhile Char.isDigit)

/-- A number without its sign, and the rest of the text. -/
def takeNumber (negative : Bool) (s : List Char) : Option (Number × List Char) :=
  let whole := s.takeWhile Char.isDigit
  let rest := s.dropWhile Char.isDigit
  if whole.isEmpty || (whole.head? == some '0' && 1 < whole.length) then none
  else
    let (significand, _, left) := takeSignificand 0 whole
    let fraction : Option (List Char × List Char) := match rest with
      | '.' :: r =>
        let ds := r.takeWhile Char.isDigit
        if ds.isEmpty then none else some (ds, r.dropWhile Char.isDigit)
      | r => some ([], r)
    match fraction with
    | none => none
    | some (part, rest') =>
      let (significand', taken, _) := takeSignificand significand part
      let isWhole := part.isEmpty && !(rest'.head? == some 'e' || rest'.head? == some 'E')
      if isWhole && left == 0 then
        if !negative then some (.integer significand, rest')
        else if significand = 0 then some (.real (.zero true), rest')
        else if significand ≤ twoTo 63 then some (.integer (-(significand : Int)), rest')
        else some (.real ((Double.ofNat significand).withSign true), rest')
      else
        let start : Int := left - taken
        let finish (e : Int) (r : List Char) : Option (Number × List Char) :=
          (scale significand' e).map fun x => (.real (x.withSign negative), r)
        match rest' with
        | c :: r =>
          if c = 'e' ∨ c = 'E' then
            match takeExponent r with
            | none => none
            | some (e, r') => finish (start + e) r'
          else finish start rest'
        | [] => finish start []

/-! ### Texts -/

/-- Four hexadecimal digits. -/
def takeHex4 : List Char → Option (Nat × List Char)
  | a :: b :: c :: d :: rest => (Numeral.hexDigits? [a, b, c, d]).map fun n => (n, rest)
  | _ => none

/-- The character that two surrogates stand for. -/
def pairChar (high low : Nat) : Char :=
  Char.ofNat (0x10000 + (high - 0xD800) * 0x400 + (low - 0xDC00))

/-- The characters up to the closing quote.  Surrogates must come in pairs. -/
def takeQuoted : Nat → List Char → List Char → Option (List Char × List Char)
  | 0, _, _ => none
  | _ + 1, _, [] => none
  | _ + 1, acc, '"' :: rest => some (acc.reverse, rest)
  | fuel + 1, acc, '\\' :: 'u' :: rest =>
    match takeHex4 rest with
    | none => none
    | some (n, rest) =>
      if 0xD800 ≤ n ∧ n < 0xDC00 then
        match rest with
        | '\\' :: 'u' :: rest =>
          match takeHex4 rest with
          | some (l, rest) =>
            if 0xDC00 ≤ l ∧ l < 0xE000 then takeQuoted fuel (pairChar n l :: acc) rest else none
          | none => none
        | _ => none
      else if 0xDC00 ≤ n ∧ n < 0xE000 then none
      else takeQuoted fuel (Char.ofNat n :: acc) rest
  | fuel + 1, acc, '\\' :: c :: rest =>
    match c with
    | '"' => takeQuoted fuel ('"' :: acc) rest
    | '\\' => takeQuoted fuel ('\\' :: acc) rest
    | '/' => takeQuoted fuel ('/' :: acc) rest
    | 'b' => takeQuoted fuel ('\x08' :: acc) rest
    | 'f' => takeQuoted fuel ('\x0c' :: acc) rest
    | 'n' => takeQuoted fuel ('\n' :: acc) rest
    | 'r' => takeQuoted fuel ('\r' :: acc) rest
    | 't' => takeQuoted fuel ('\t' :: acc) rest
    | _ => none
  | fuel + 1, acc, c :: rest =>
    if c.toNat < 0x20 || c == '\\' then none else takeQuoted fuel (c :: acc) rest

/-! ### Values -/

/-- White space between tokens. -/
def isSpace (c : Char) : Bool :=
  c == ' ' || c == '\n' || c == '\t' || c == '\r'

/-- Drops white space. -/
def skipSpace (s : List Char) : List Char :=
  s.dropWhile isSpace

/-- What follows a fixed word. -/
def word (w : String) (v : Json) (s : List Char) : Option (Json × List Char) :=
  let w := w.toList
  if s.take w.length == w then some (v, s.drop w.length) else none

mutual

/-- The value at the beginning of a text, which `fuel` bounds in length. -/
def takeValue : Nat → List Char → Option (Json × List Char)
  | 0, _ => none
  | fuel + 1, s =>
    match skipSpace s with
    | [] => none
    | '"' :: rest =>
      (takeQuoted (rest.length + 1) [] rest).map fun (t, r) => (.text (String.ofList t), r)
    | '[' :: rest =>
      match skipSpace rest with
      | ']' :: r => some (.list [], r)
      | r => takeItems fuel [] r
    | '\x7b' :: rest =>
      match skipSpace rest with
      | '\x7d' :: r => some (.object [], r)
      | r => takeMembers fuel [] r
    | '-' :: rest => (takeNumber true rest).map fun (n, r) => (.number n, r)
    | 'n' :: rest => word "null" .null ('n' :: rest)
    | 't' :: rest => word "true" (.bool true) ('t' :: rest)
    | 'f' :: rest => word "false" (.bool false) ('f' :: rest)
    | r => (takeNumber false r).map fun (n, r) => (.number n, r)

/-- The items of a list up to its end. -/
def takeItems : Nat → List Json → List Char → Option (Json × List Char)
  | 0, _, _ => none
  | fuel + 1, acc, s =>
    match takeValue fuel s with
    | none => none
    | some (v, r) =>
      match skipSpace r with
      | ',' :: r => takeItems fuel (v :: acc) r
      | ']' :: r => some (.list (v :: acc).reverse, r)
      | _ => none

/-- The members of an object up to its end. -/
def takeMembers : Nat → List (String × Json) → List Char → Option (Json × List Char)
  | 0, _, _ => none
  | fuel + 1, acc, s =>
    match skipSpace s with
    | '"' :: rest =>
      match takeQuoted (rest.length + 1) [] rest with
      | none => none
      | some (name, r) =>
        match skipSpace r with
        | ':' :: r =>
          match takeValue fuel r with
          | none => none
          | some (v, r) =>
            match skipSpace r with
            | ',' :: r => takeMembers fuel ((String.ofList name, v) :: acc) r
            | '\x7d' :: r => some (ofMembers ((String.ofList name, v) :: acc).reverse, r)
            | _ => none
        | _ => none
    | _ => none

end

/-- Reads a text that holds one value and nothing else. -/
def read? (s : List Char) : Option Json :=
  match takeValue (s.length + 1) s with
  | some (v, r) => if (skipSpace r).isEmpty then some v else none
  | none => none

end ServiceHost.Json
