import ServiceHost.Decimal.Double
/-!
The fewest decimal digits that read back as the same number.

The reals that round to a finite number form an interval, its ends included exactly when the
significand is even.  For one, two, … digits the two neighbours of the number on that decimal grid
are tested against the interval; the first grid with a hit wins, of two hits the nearer one, and
the caller says which way an exact tie goes.
-/

namespace ServiceHost.Decimal

/-- Decimal digits without leading or trailing zeros, and the exponent of the first digit: the
digits `d₁ d₂ d₃ …` stand for `d₁.d₂d₃… * 10 ^ exponent`. -/
structure Scientific where
  digits : List Char
  exponent : Int
  deriving DecidableEq, Repr

/-- Where an exact tie between two shortest decimals goes. -/
inductive Tie where
  | toEven
  | up
  deriving DecidableEq, Repr

namespace Shortest

/-- The reals that round to a positive number, as numerators over one denominator: the lower end,
the number itself and the upper end. -/
structure Interval where
  low : Nat
  mid : Nat
  high : Nat
  den : Nat
  closed : Bool

/-- The interval of `m * 2 ^ e`.  Below a power of two the next number is only half as far. -/
def interval (m : Nat) (e : Int) : Interval :=
  let narrow := m = twoTo 52 ∧ Double.minExponent < e
  let unit := if 0 ≤ e then twoTo e.toNat else 1
  let den := if 0 ≤ e then 4 else 4 * twoTo (-e).toNat
  { low := (4 * m - (if narrow then 1 else 2)) * unit
    mid := 4 * m * unit
    high := (4 * m + 2) * unit
    den := den
    closed := m % 2 == 0 }

/-- Does `n * 10 ^ k` lie in the interval? -/
def Interval.holds (i : Interval) (n : Nat) (k : Int) : Bool :=
  let a := if 0 ≤ k then n * tenTo k.toNat * i.den else n * i.den
  let s := if 0 ≤ k then 1 else tenTo (-k).toNat
  if i.closed then i.low * s ≤ a && a ≤ i.high * s else i.low * s < a && a < i.high * s

/-- The hit on the grid of multiples of `10 ^ k`, if there is one. -/
def Interval.onGrid (i : Interval) (tie : Tie) (k : Int) : Option Nat :=
  let num := if 0 ≤ k then i.mid else i.mid * tenTo (-k).toNat
  let den := if 0 ≤ k then i.den * tenTo k.toNat else i.den
  let below := num / den
  let rest := num % den
  match i.holds below k && below != 0, i.holds (below + 1) k with
  | true, true =>
    if 2 * rest < den then some below
    else if den < 2 * rest then some (below + 1)
    else match tie with
      | .up => some (below + 1)
      | .toEven => if below % 2 = 0 then some below else some (below + 1)
  | true, false => some below
  | false, true => some (below + 1)
  | false, false => none

/-- The whole part of the decimal logarithm of a positive fraction, searched upward from `k`. -/
def floorLog10From : Nat → Int → Nat → Nat → Int
  | 0, k, _, _ => k
  | fuel + 1, k, num, den =>
    let n := k + 1
    if (if 0 ≤ n then den * tenTo n.toNat ≤ num else den ≤ num * tenTo (-n).toNat)
    then floorLog10From fuel n num den
    else k

/-- The whole part of the decimal logarithm of a positive fraction: starts just below the estimate
that the binary logarithm gives. -/
def floorLog10 (num den : Nat) : Int :=
  floorLog10From 5 (Double.floorLog2 num den * 30103 / 100000 - 2) num den

/-- Tries the grids of `count`, `count + 1`, … digits for a number whose first digit has the
exponent `top`. -/
def Interval.search (i : Interval) (tie : Tie) (top : Int) : Nat → Nat → Option (Nat × Int)
  | 0, _ => none
  | fuel + 1, count =>
    let k := top - count + 1
    match i.onGrid tie k with
    | some n => some (n, k)
    | none => i.search tie top fuel (count + 1)

/-- The digits of `n * 10 ^ k` without trailing zeros. -/
def normalise (n : Nat) (k : Int) : Scientific :=
  let ds := Nat.toDigits 10 n
  { digits := (ds.reverse.dropWhile (· == '0')).reverse
    exponent := k + ds.length - 1 }

end Shortest

open Shortest in
/-- The shortest digits of the positive number `m * 2 ^ e`, nearest to it among the shortest. -/
def shortest (tie : Tie) (m : Nat) (e : Int) : Scientific :=
  let i := interval m e
  let top := floorLog10 i.mid i.den
  match i.search tie top 18 1 with
  | some (n, k) => normalise n k
  | none => normalise m 0

/-- A number written out without exponent: whole digits, and a point and further digits only when
there are some. -/
def Scientific.positional (s : Scientific) : List Char × List Char :=
  if 0 ≤ s.exponent then
    let whole := s.exponent.toNat + 1
    (s.digits.take whole ++ List.replicate (whole - s.digits.length) '0', s.digits.drop whole)
  else
    (['0'], List.replicate ((-s.exponent).toNat - 1) '0' ++ s.digits)

end ServiceHost.Decimal
