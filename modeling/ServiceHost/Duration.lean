import ServiceHost.Numeral
import ServiceHost.Text.Blank
import ServiceHost.Text.Split
/-!
Lengths of time and their texts, such as `1h 3s 500ms`.

A length is a whole number of nanoseconds whose seconds fit 64 bits.  Reading adds up items of a
number and a unit; the number may have a fraction as long as the item is a whole number of
nanoseconds (of seconds, from the hour on).  Writing names each unit once, from years down.
-/

namespace ServiceHost

/-- A length of time in nanoseconds. -/
structure Duration where
  nanos : Nat
  deriving DecidableEq, Repr, Inhabited

namespace Duration

/-- Nanoseconds in a second. -/
def nanosPerSecond : Nat := 1000000000

/-- Nanoseconds in a millisecond. -/
def nanosPerMilli : Nat := 1000000

/-- A whole number of seconds. -/
def seconds (n : Nat) : Duration := ⟨n * nanosPerSecond⟩

/-- A whole number of milliseconds. -/
def millis (n : Nat) : Duration := ⟨n * nanosPerMilli⟩

/-- Is this no time at all? -/
def isZero (d : Duration) : Bool := d.nanos == 0

/-- The whole seconds. -/
def wholeSeconds (d : Duration) : Nat := d.nanos / nanosPerSecond

/-- The nanoseconds beyond the whole seconds. -/
def subsecond (d : Duration) : Nat := d.nanos % nanosPerSecond

/-! ### Units -/

/-- The units of a text. -/
inductive Scale where
  | nanosecond
  | microsecond
  | millisecond
  | second
  | minute
  | hour
  | day
  | week
  | month
  | year
  deriving DecidableEq, Repr

/-- The names of each unit.  They are told apart by case: `m` is a minute and `M` a month. -/
def unitNames : List (Scale × List String) := [
  (.nanosecond, ["nanos", "nsec", "ns"]),
  (.microsecond, ["usec", "us", "µs"]),
  (.millisecond, ["millis", "msec", "ms"]),
  (.second, ["seconds", "second", "secs", "sec", "s"]),
  (.minute, ["minutes", "minute", "mins", "min", "m"]),
  (.hour, ["hours", "hour", "hrs", "hr", "h"]),
  (.day, ["days", "day", "d"]),
  (.week, ["weeks", "week", "wks", "wk", "w"]),
  (.month, ["months", "month", "M"]),
  (.year, ["years", "year", "yrs", "yr", "y"])]

/-- The unit of the given name. -/
def unit? (name : List Char) : Option Scale :=
  (unitNames.find? fun (_, names) => names.any (·.toList == name)).map (·.1)

/-- The length of a unit: so many seconds and so many nanoseconds, one of them zero. -/
def Scale.size : Scale → Nat × Nat
  | .nanosecond => (0, 1)
  | .microsecond => (0, 1000)
  | .millisecond => (0, 1000000)
  | .second => (1, 0)
  | .minute => (60, 0)
  | .hour => (3600, 0)
  | .day => (86400, 0)
  | .week => (604800, 0)
  | .month => (2630016, 0)
  | .year => (31557600, 0)

/-- The length that a fraction of the unit is counted in: nanoseconds below the hour. -/
def Scale.fractionSize : Scale → Option (Nat × Nat)
  | .nanosecond => none
  | .microsecond => some (0, 1000)
  | .millisecond => some (0, 1000000)
  | .second => some (0, 1000000000)
  | .minute => some (0, 60000000000)
  | u => some u.size

/-! ### Reading -/

/-- Why a text is no length of time. -/
inductive Fault where
  | malformed
  | overflow
  deriving DecidableEq, Repr

/-- The largest number of seconds. -/
def maxSeconds : Nat := Numeral.maxUnsigned 64

/-- A sum of items so far: seconds and nanoseconds below a second. -/
structure Sum where
  secs : Nat
  nanos : Nat

/-- The number, if it fits a word. -/
def word? (n : Nat) : Except Fault Nat :=
  if n ≤ maxSeconds then .ok n else .error .malformed

/-- Adds seconds and nanoseconds.  A total of exactly one second of nanoseconds is carried last, and
that carry alone is not checked beforehand. -/
def Sum.add (t : Sum) (secs nanos : Nat) : Except Fault Sum := do
  let nanos ← word? (t.nanos + nanos)
  let (secs, nanos) ←
    if nanosPerSecond < nanos then do
      pure (← word? (secs + nanos / nanosPerSecond), nanos % nanosPerSecond)
    else pure (secs, nanos)
  let secs ← word? (t.secs + secs)
  if nanos < nanosPerSecond then pure ⟨secs, nanos⟩
  else if secs + 1 ≤ maxSeconds then pure ⟨secs + 1, 0⟩
  else .error .overflow

/-- Digits after a point, as a fraction. -/
structure Fraction where
  num : Nat
  den : Nat

/-- Adds one item. -/
def Sum.addItem (t : Sum) (n : Nat) (fraction : Option Fraction) (unit : List Char) :
    Except Fault Sum := do
  match unit? unit with
  | none => .error .malformed
  | some u =>
    let (s, f) := u.size
    let t ← t.add (← word? (n * s)) (← word? (n * f))
    match fraction with
    | none => pure t
    | some q =>
      match u.fractionSize with
      | none => .error .malformed
      | some (s, f) =>
        let secs ← word? (q.num * s)
        let nanos ← word? (q.num * f)
        if secs % q.den = 0 ∧ nanos % q.den = 0 then t.add (secs / q.den) (nanos / q.den)
        else .error .malformed

/-- A character of a unit's name. -/
def isUnitChar (c : Char) : Bool :=
  c.isAlpha || c == 'µ'

/-- Takes the digits of a whole number, blanks among them ignored, up to a unit or a point. -/
def takeWhole : Nat → List Char → Except Fault (Nat × List Char)
  | n, [] => .ok (n, [])
  | n, c :: cs =>
    match Numeral.digit? c with
    | some d => if n * 10 + d ≤ maxSeconds then takeWhole (n * 10 + d) cs else .error .malformed
    | none =>
      if Text.isBlank c then takeWhole n cs
      else if isUnitChar c ∨ c = '.' then .ok (n, c :: cs)
      else .error .malformed

/-- Takes the digits after a point, blanks among them ignored, up to a unit. -/
def takeFraction : Fraction → List Char → Except Fault (Fraction × List Char)
  | q, [] => .ok (q, [])
  | q, c :: cs =>
    match Numeral.digit? c with
    | some d =>
      if q.den * 10 ≤ maxSeconds ∧ q.num * 10 + d ≤ maxSeconds then
        takeFraction ⟨q.num * 10 + d, q.den * 10⟩ cs
      else .error .malformed
    | none =>
      if Text.isBlank c then takeFraction q cs
      else if isUnitChar c then .ok (q, c :: cs)
      else .error .malformed

/-- What may follow the name of a unit: the end, a blank or a digit. -/
def endsUnit : List Char → Bool
  | [] => true
  | c :: _ => Text.isBlank c || (Numeral.digit? c).isSome

/-- Reads items until the text is used up; `fuel` bounds their number. -/
def readItems : Nat → Sum → List Char → Except Fault Sum
  | 0, _, _ => .error .malformed
  | fuel + 1, t, s =>
    match Text.trimLeft s with
    | [] => .ok t
    | c :: cs => do
      if (Numeral.digit? c).isNone then .error .malformed
      else
        let (n, rest) ← takeWhole 0 (c :: cs)
        let (fraction, rest) ← match rest with
          | '.' :: r => do
            let (q, r) ← takeFraction ⟨0, 1⟩ r
            if q.den = 1 then .error .malformed else pure (some q, r)
          | r => pure (none, r)
        let rest' := rest.dropWhile isUnitChar
        if endsUnit rest' then
          readItems fuel (← t.addItem n fraction (rest.takeWhile isUnitChar)) rest'
        else .error .malformed

/-- Reads a length of time.  `0` needs no unit; a text without items is refused. -/
def read (s : List Char) : Except Fault Duration :=
  if s = ['0'] then .ok ⟨0⟩
  else if Text.isBlankText s then .error .malformed
  else (readItems (s.length + 1) ⟨0, 0⟩ s).map fun t => ⟨t.secs * nanosPerSecond + t.nanos⟩

/-! ### Writing -/

/-- A count with the name of its unit. -/
def item (name : String) (n : Nat) : List String :=
  if n = 0 then [] else [toString n ++ name]

/-- A count with the name of its unit in the right number. -/
def pluralItem (name : String) (n : Nat) : List String :=
  item (if n = 1 then name else name ++ "s") n

/-- Writes a length of time. -/
def write (d : Duration) : String :=
  let secs := d.wholeSeconds
  let nanos := d.subsecond
  let inYear := secs % 31557600
  let inMonth := inYear % 2630016
  let inDay := inMonth % 86400
  let items :=
    pluralItem "year" (secs / 31557600) ++ pluralItem "month" (inYear / 2630016) ++
    pluralItem "day" (inMonth / 86400) ++ item "h" (inDay / 3600) ++
    item "m" (inDay % 3600 / 60) ++ item "s" (inDay % 60) ++
    item "ms" (nanos / 1000000) ++ item "us" (nanos / 1000 % 1000) ++ item "ns" (nanos % 1000)
  if items.isEmpty then "0s" else String.intercalate " " items

end Duration

end ServiceHost
