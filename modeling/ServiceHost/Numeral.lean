import ServiceHost.Power
/-!
Whole numbers as texts.

A numeral is an optional sign and at least one decimal digit.  Reading goes from left to right and
stops at the first thing that is wrong, so a text can be refused for its size before a later
character is looked at.
-/

namespace ServiceHost.Numeral

/-- Why a text is not a numeral of the wanted range. -/
inductive Fault where
  | empty
  | badDigit
  | tooLarge
  | tooSmall
  deriving DecidableEq, Repr

/-- The wording of a refusal. -/
def Fault.message : Fault → String
  | .empty => "cannot parse integer from empty string"
  | .badDigit => "invalid digit found in string"
  | .tooLarge => "number too large to fit in target type"
  | .tooSmall => "number too small to fit in target type"

/-! ### Digits -/

/-- The value of a decimal digit. -/
def digit? (c : Char) : Option Nat :=
  if '0' ≤ c ∧ c ≤ '9' then some (c.toNat - '0'.toNat) else none

/-- The value of a hexadecimal digit of either case. -/
def hexDigit? (c : Char) : Option Nat :=
  if '0' ≤ c ∧ c ≤ '9' then some (c.toNat - '0'.toNat)
  else if 'a' ≤ c ∧ c ≤ 'f' then some (c.toNat - 'a'.toNat + 10)
  else if 'A' ≤ c ∧ c ≤ 'F' then some (c.toNat - 'A'.toNat + 10)
  else none

/-- The value of digits in the given base, continuing from `acc`; `none` at a foreign character. -/
def valueFrom (digit : Char → Option Nat) (base : Nat) : Nat → List Char → Option Nat
  | acc, [] => some acc
  | acc, c :: cs => (digit c).bind fun d => valueFrom digit base (acc * base + d) cs

/-- The value of a non-empty row of decimal digits. -/
def digits? (s : List Char) : Option Nat :=
  if s.isEmpty then none else valueFrom digit? 10 0 s

/-- The value of a non-empty row of hexadecimal digits. -/
def hexDigits? (s : List Char) : Option Nat :=
  if s.isEmpty then none else valueFrom hexDigit? 16 0 s

/-! ### Reading within bounds -/

/-- Reads digits from left to right and refuses as soon as the value passes `bound`. -/
def accumulate (bound : Nat) (excess : Fault) : Nat → List Char → Except Fault Nat
  | acc, [] => .ok acc
  | acc, c :: cs =>
    match digit? c with
    | none => .error .badDigit
    | some d =>
      if acc * 10 + d ≤ bound then accumulate bound excess (acc * 10 + d) cs else .error excess

/-- Digits after a sign or at the start: there must be one. -/
def magnitude (bound : Nat) (excess : Fault) (s : List Char) : Except Fault Nat :=
  if s.isEmpty then .error .badDigit else accumulate bound excess 0 s

/-- A numeral with an optional plus sign and a value of at most `bound`. -/
def unsigned (bound : Nat) : List Char → Except Fault Nat
  | [] => .error .empty
  | '+' :: s => magnitude bound .tooLarge s
  | s => magnitude bound .tooLarge s

/-- A numeral with an optional sign and a value from `-bound - 1` to `bound`. -/
def signed (bound : Nat) : List Char → Except Fault Int
  | [] => .error .empty
  | '+' :: s => (magnitude bound .tooLarge s).map Int.ofNat
  | '-' :: s => (magnitude (bound + 1) .tooSmall s).map fun n => -(n : Int)
  | s => (magnitude bound .tooLarge s).map Int.ofNat

/-- The largest value of an unsigned word of `bits` bits. -/
def maxUnsigned (bits : Nat) : Nat :=
  twoTo bits - 1

/-- The largest value of a signed word of `bits` bits. -/
def maxSigned (bits : Nat) : Nat :=
  twoTo (bits - 1) - 1

/-! ### Writing -/

/-- The decimal digits of a number. -/
def write (n : Nat) : List Char :=
  Nat.toDigits 10 n

/-- The hexadecimal digits of a number, lower case, padded with zeros to `width`. -/
def writeHex (width n : Nat) : List Char :=
  let ds := Nat.toDigits 16 n
  List.replicate (width - ds.length) '0' ++ ds

end ServiceHost.Numeral
