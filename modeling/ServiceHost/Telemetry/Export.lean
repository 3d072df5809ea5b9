import ServiceHost.Text.Blank
import ServiceHost.Text.Split
/-!
Where telemetry is exported to, and with which request headers.
-/

namespace ServiceHost.Export

open Text

/-! ### Headers -/

/-- The header that a segment `name=value` stands for, blanks around both dropped.  A segment
without an equals sign or with a blank name stands for none. -/
def headerOf? (segment : List Char) : Option (List Char × List Char) :=
  (splitFirst '=' segment).bind fun (k, v) =>
    let k := trim k
    if k.isEmpty then none else some (k, trim v)

/-- The headers of a list `k1=v1,k2=v2` in their order; equal names may occur. -/
def headerPairs (raw : List Char) : List (List Char × List Char) :=
  (splitOn ',' raw).filterMap headerOf?

/-- Sets the value of a name, which keeps its place if it has one. -/
def setHeader (k v : List Char) : List (List Char × List Char) → List (List Char × List Char)
  | [] => [(k, v)]
  | (k', v') :: rest => if k' = k then (k, v) :: rest else (k', v') :: setHeader k v rest

/-- The headers as a map: of equal names the last value counts. -/
def headers (raw : List Char) : List (List Char × List Char) :=
  (headerPairs raw).foldl (fun acc (k, v) => setHeader k v acc) []

/-! ### Address -/

/-- The endpoint without outer blanks and final slashes, with a scheme: its own, or else the one
that `insecure` asks for. -/
def withScheme (endpoint : List Char) (insecure : Bool) : List Char :=
  let endpoint := dropRightWhile (· == '/') (trim endpoint)
  if startsWith "http://".toList endpoint || startsWith "https://".toList endpoint then endpoint
  else if insecure then "http://".toList ++ endpoint
  else "https://".toList ++ endpoint

/-- What follows the first `://`. -/
def afterScheme : List Char → Option (List Char)
  | [] => none
  | c :: cs => match after? "://".toList (c :: cs) with
    | some rest => some rest
    | none => afterScheme cs

/-- The address that a signal is sent to: an endpoint without a path gets the signal's own. -/
def url (endpoint : List Char) (insecure : Bool) (signalPath : List Char) : List Char :=
  let base := withScheme endpoint insecure
  match afterScheme base with
  | some rest => if rest.contains '/' then base else base ++ signalPath
  | none => base ++ signalPath

end ServiceHost.Export
