import ServiceHost.Power
/-!
Binary floating point numbers of 64 bits, in exact arithmetic.

A finite number is a significand times a power of two.  Every operation is worked out exactly on
natural numbers and rounded once by `ofRatio`, to the nearest number that has at most 53 bits and
an exponent of at least -1074; of two equally near ones the even significand wins.
-/

namespace ServiceHost.Decimal

/-- A number of the binary64 format.  A finite one is `± significand * 2 ^ exponent`. -/
inductive Double where
  | nan
  | infinite (negative : Bool)
  | finite (negative : Bool) (significand : Nat) (exponent : Int)
  deriving DecidableEq, Repr, Inhabited

namespace Double

/-! ### Rounding -/

/-- The quotient rounded to the nearest whole number, a half to the even neighbour. -/
def roundDivEven (num den : Nat) : Nat :=
  let q := num / den
  let r := num % den
  if den < 2 * r ∨ (2 * r = den ∧ q % 2 = 1) then q + 1 else q

/-- `num / (den * 2 ^ e)` as a fraction of natural numbers. -/
def scaled (num den : Nat) (e : Int) : Nat × Nat :=
  if 0 ≤ e then (num, den * twoTo e.toNat) else (num * twoTo (-e).toNat, den)

/-- The whole part of the binary logarithm of a positive fraction. -/
def floorLog2 (num den : Nat) : Int :=
  let l : Int := (Nat.log2 num : Int) - Nat.log2 den
  let (n, d) := scaled num den l
  if d ≤ n then l else l - 1

/-- The smallest exponent of a finite number. -/
def minExponent : Int := -1074

/-- The largest exponent of a finite number. -/
def maxExponent : Int := 971

/-- Zero of the given sign. -/
def zero (negative : Bool) : Double :=
  .finite negative 0 minExponent

/-- The number nearest to `num / den`; beyond the largest finite one, infinity. -/
def ofRatio (negative : Bool) (num den : Nat) : Double :=
  if num = 0 then zero negative
  else
    let e := max (floorLog2 num den - 52) minExponent
    let (n, d) := scaled num den e
    let m := roundDivEven n d
    let (m, e) := if m = twoTo 53 then (twoTo 52, e + 1) else (m, e)
    if maxExponent < e then .infinite negative else .finite negative m e

/-- The number nearest to a natural number. -/
def ofNat (n : Nat) : Double :=
  ofRatio false n 1

/-- The number nearest to an integer. -/
def ofInt (n : Int) : Double :=
  ofRatio (n < 0) n.natAbs 1

/-- The number nearest to `digits * 10 ^ exponent`. -/
def ofDecimal (negative : Bool) (digits : Nat) (exponent : Int) : Double :=
  if 0 ≤ exponent then ofRatio negative (digits * tenTo exponent.toNat) 1
  else ofRatio negative digits (tenTo (-exponent).toNat)

/-! ### Parts -/

/-- The sign, also of a zero. -/
def isNegative : Double → Bool
  | .nan => false
  | .infinite s => s
  | .finite s _ _ => s

/-- The number with the given sign. -/
def withSign (negative : Bool) : Double → Double
  | .nan => .nan
  | .infinite _ => .infinite negative
  | .finite _ m e => .finite negative m e

/-- Is this one of the two zeros? -/
def isZero : Double → Bool
  | .finite _ 0 _ => true
  | _ => false

/-- Neither infinite nor not a number. -/
def isFinite : Double → Bool
  | .finite .. => true
  | _ => false

/-- The 64 bits of the interchange format: sign, 11 bits of exponent, 52 of fraction. -/
def toBits : Double → Nat
  | .nan => 0x7FF8000000000000
  | .infinite s => (if s then twoTo 63 else 0) + 0x7FF0000000000000
  | .finite s m e =>
    (if s then twoTo 63 else 0) +
      (if m < twoTo 52 then m
       else (e - minExponent + 1).toNat * twoTo 52 + (m - twoTo 52))

/-! ### Arithmetic -/

/-- A finite number as a fraction of natural numbers. -/
def fraction (m : Nat) (e : Int) : Nat × Nat :=
  if 0 ≤ e then (m * twoTo e.toNat, 1) else (m, twoTo (-e).toNat)

/-- The product, rounded once. -/
def mul : Double → Double → Double
  | .finite s m e, .finite t n f =>
    let (a, b) := fraction (m * n) (e + f)
    ofRatio (s != t) a b
  | .nan, _ => .nan
  | _, .nan => .nan
  | .infinite s, y => if y.isZero then .nan else .infinite (s != y.isNegative)
  | x, .infinite t => if x.isZero then .nan else .infinite (x.isNegative != t)

/-- The quotient, rounded once. -/
def div : Double → Double → Double
  | .finite s m e, .finite t n f =>
    if n = 0 then (if m = 0 then .nan else .infinite (s != t))
    else
      let (a, b) := fraction m (e - f)
      ofRatio (s != t) a (b * n)
  | .nan, _ => .nan
  | _, .nan => .nan
  | .infinite s, y => if y.isFinite then .infinite (s != y.isNegative) else .nan
  | x, .infinite t => zero (x.isNegative != t)

/-- The sum, rounded once. -/
def add : Double → Double → Double
  | .finite s m e, .finite t n f =>
    let g := min e f
    let a : Int := m * twoTo (e - g).toNat
    let b : Int := n * twoTo (f - g).toNat
    let c := (if s then -a else a) + (if t then -b else b)
    if c = 0 then zero (s && t)
    else
      let (p, q) := fraction c.natAbs g
      ofRatio (c < 0) p q
  | .nan, _ => .nan
  | _, .nan => .nan
  | .infinite s, .infinite t => if s = t then .infinite s else .nan
  | .infinite s, _ => .infinite s
  | _, .infinite t => .infinite t

/-- Is the first number at most the second?  False when one is not a number. -/
def le : Double → Double → Bool
  | .nan, _ => false
  | _, .nan => false
  | .infinite true, _ => true
  | _, .infinite false => true
  | .infinite false, _ => false
  | _, .infinite true => false
  | .finite s m e, .finite t n f =>
    let g := min e f
    let a : Int := m * twoTo (e - g).toNat
    let b : Int := n * twoTo (f - g).toNat
    (if s then -a else a) ≤ (if t then -b else b)

end Double

end ServiceHost.Decimal
