/-!
Cutting a text at separators.

`splitWhere` cuts at every separator and so yields one piece more than there are separators;
`splitFirst` and `splitLast` cut once.
-/

namespace ServiceHost.Text

/-- The pieces between the characters satisfying `p`, empty ones included. -/
def splitWhere (p : Char → Bool) : List Char → List (List Char)
  | [] => [[]]
  | c :: cs =>
    if p c then [] :: splitWhere p cs
    else match splitWhere p cs with
      | [] => [[c]]
      | w :: ws => (c :: w) :: ws

/-- The pieces between the occurrences of `sep`, empty ones included. -/
def splitOn (sep : Char) (s : List Char) : List (List Char) :=
  splitWhere (· == sep) s

/-- The pieces that `sep` ends: like `splitOn`, but an empty last piece does not count. -/
def splitEnded (sep : Char) (s : List Char) : List (List Char) :=
  let pieces := splitOn sep s
  if pieces.getLast? == some [] then pieces.dropLast else pieces

/-- What stands before and after the first `sep`. -/
def splitFirst (sep : Char) : List Char → Option (List Char × List Char)
  | [] => none
  | c :: cs =>
    if c = sep then some ([], cs)
    else (splitFirst sep cs).map fun (a, b) => (c :: a, b)

/-- What stands before and after the last `sep`. -/
def splitLast (sep : Char) : List Char → Option (List Char × List Char)
  | [] => none
  | c :: cs =>
    match splitLast sep cs with
    | some (a, b) => some (c :: a, b)
    | none => if c = sep then some ([], cs) else none

/-- What follows `start` in a text that begins with it. -/
def after? : List Char → List Char → Option (List Char)
  | [], s => some s
  | _ :: _, [] => none
  | a :: as, c :: cs => if a = c then after? as cs else none

/-- Does the text begin with `start`? -/
def startsWith (start s : List Char) : Bool :=
  (after? start s).isSome

/-- Does the text end with `tail`? -/
def endsWith (tail s : List Char) : Bool :=
  startsWith tail.reverse s.reverse

/-- The pieces written one after the other with `sep` between neighbours. -/
def join (sep : List Char) : List (List Char) → List Char
  | [] => []
  | [w] => w
  | w :: v :: ws => w ++ sep ++ join sep (v :: ws)

end ServiceHost.Text
