import ServiceHost.Http.Uri
import ServiceHost.Rpc.Code
import ServiceHost.Text.Blank
/-!
The span of a remote call and the trace that it continues.

A caller names its trace in the fields `traceparent` and `tracestate`.  A parent that is not well
formed counts as none; a call whose parent is not sampled has no span.
-/

namespace ServiceHost.Rpc

open Text

/-! ### The state of a trace -/

/-- A small letter or a digit. -/
def isStateStart (c : Char) : Bool :=
  c.isLower || c.isDigit

/-- A character of a key in the state of a trace, besides the vendor's mark. -/
def isStateChar (c : Char) : Bool :=
  isStateStart c || c == '_' || c == '-' || c == '*' || c == '/'

/-- A name after the vendor's mark: at most 13 characters, the first a small letter or a digit. -/
def isVendor (s : List Char) : Bool :=
  s.length ≤ 13 && s.all isStateChar && (s.head?.all isStateStart)

/-- A key: small letters, digits and a few marks, with at most one vendor's mark. -/
def isStateKey (s : List Char) : Bool :=
  s.length ≤ 256 && s.head?.all isStateStart &&
    match splitFirst '@' s with
    | none => s.all isStateChar
    | some (tenant, vendor) => tenant.all isStateChar && isVendor vendor

/-- One member of the state of a trace, with surplus equals signs in front of its value dropped. -/
def stateMember? (s : List Char) : Option (List Char × List Char) := do
  let (key, value) ← splitFirst '=' s
  let value := value.dropWhile (· == '=')
  if isStateKey key && value.length ≤ 256 && !value.contains '=' then some (key, value) else none

/-- The state of a trace, written anew; empty when a member is not well formed. -/
def traceState (s : List Char) : List Char :=
  match (splitEnded ',' s).mapM stateMember? with
  | some members => join [','] (members.map fun (k, v) => k ++ '=' :: v)
  | none => []

/-! ### The parent of a span -/

/-- A span in another process. -/
structure Parent where
  traceId : Nat
  spanId : Nat
  sampled : Bool
  state : String
  deriving DecidableEq, Repr, Inhabited

/-- A hexadecimal number below `bound`, perhaps with a plus sign. -/
def hexWord? (bound : Nat) (s : List Char) : Option Nat :=
  let ds := match s with
    | '+' :: r => r
    | r => r
  (Numeral.hexDigits? ds).filter (· < bound)

/-- An identifier: a hexadecimal number in small letters that is not zero. -/
def identifier? (bits : Nat) (s : List Char) : Option Nat :=
  if s.any Char.isUpper then none else (hexWord? (twoTo bits) s).filter (· != 0)

/-- Reads the parent: version, trace, span and flags with dashes between them.  Version 0 has
exactly these four parts and flags of at most 2; version 255 is not allowed. -/
def parent? (traceparent : String) (tracestate : Option String) : Option Parent :=
  match splitEnded '-' (trim traceparent.toList) with
  | version :: trace :: span :: flags :: more => do
    let version ← hexWord? 256 version
    if version = 255 ∨ (version = 0 ∧ more ≠ []) then none
    else
      let traceId ← identifier? 128 trace
      let spanId ← identifier? 64 span
      let flags ← hexWord? 256 flags
      if version = 0 ∧ 2 < flags then none
      else some {
        traceId := traceId, spanId := spanId, sampled := flags % 2 == 1
        state := String.ofList (traceState (tracestate.getD "").toList) }
  | _ => none

/-! ### Spans -/

/-- The span of a call. -/
structure Span where
  name : String := "grpc.request"
  kind : String := "Server"
  attributes : List (String × String)
  parent : Option Parent
  deriving DecidableEq, Repr, Inhabited

/-- The span of a call, unless its parent is not sampled. -/
def spanOf (target : String) (headers : Headers) : Option Span :=
  let parent :=
    parent? ((headers.firstText "traceparent").getD "") (headers.firstText "tracestate")
  if parent.any (!·.sampled) then none
  else some {
    attributes :=
      [("rpc.method", String.ofList (Http.targetPath target.toList)), ("rpc.system", "grpc")]
    parent := parent }

end ServiceHost.Rpc
