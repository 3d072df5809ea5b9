/-!
The ASCII classes and case maps, and the order of texts.

Case maps here change the letters A to Z and a to z only.
-/

namespace ServiceHost.Text

/-- The text with the letters A to Z in lower case. -/
def lowerAscii (s : List Char) : List Char :=
  s.map Char.toLower

/-- The text with the letters a to z in upper case. -/
def upperAscii (s : List Char) : List Char :=
  s.map Char.toUpper

/-- Are the texts equal up to the case of ASCII letters? -/
def sameIgnoringCase (a b : List Char) : Bool :=
  lowerAscii a == lowerAscii b

/-- A printable ASCII character or a tab: what the value of a header may show as text. -/
def isVisible (c : Char) : Bool :=
  c == '\t' || (0x20 ≤ c.toNat && c.toNat ≤ 0x7E)

/-- Texts in the order of their code points, which is also that of their UTF-8 bytes. -/
def before : List Char → List Char → Bool
  | [], [] => false
  | [], _ :: _ => true
  | _ :: _, [] => false
  | a :: as, b :: bs => a.toNat < b.toNat || (a == b && before as bs)

/-- The order `before` on strings. -/
def precedes (a b : String) : Bool :=
  before a.toList b.toList

end ServiceHost.Text
