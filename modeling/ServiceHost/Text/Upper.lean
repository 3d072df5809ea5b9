import ServiceHost.Text.UpperTable
/-!
Upper case of characters and texts by the full Unicode mapping, in which one character may have an
upper case of two or three.
-/

namespace ServiceHost.Text

/-- Does the run hold the character with number `n`? -/
def UpperRun.holds (r : UpperRun) (n : Nat) : Bool :=
  r.first ≤ n && n ≤ r.last && (n - r.first) % r.stride == 0

/-- The upper case of a character; a character without one stands for itself. -/
def upperChar (c : Char) : List Char :=
  match upperSpecials.lookup c.toNat with
  | some ns => ns.map Char.ofNat
  | none =>
    match upperRuns.find? (·.holds c.toNat) with
    | some r => [Char.ofNat (c.toNat + r.shift).toNat]
    | none => [c]

/-- The upper case of a text. -/
def upper (s : List Char) : List Char :=
  s.flatMap upperChar

end ServiceHost.Text
