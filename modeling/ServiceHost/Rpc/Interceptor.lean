import ServiceHost.Rpc.Code
/-!
Interceptors look at a request before its call and may change or reject it.

A chain asks its interceptors in order, each on the request that the one before it has let through,
and stops at the first that rejects.  Requests may be of any type `R`; those of remote calls are
given by their header fields.
-/

namespace ServiceHost.Rpc

/-- What an interceptor does with a request. -/
inductive Verdict (R : Type) where
  | accept (request : R)
  | reject (status : Status)
  | panic
  deriving DecidableEq, Repr, Inhabited

/-- An interceptor. -/
abbrev Interceptor (R : Type := Headers) := R → Verdict R

namespace Interceptor

/-- Gives a key one value. -/
def set (key value : String) : Interceptor := fun m =>
  .accept (m.set (Headers.fieldName key) value)

/-- Removes a key. -/
def remove (key : String) : Interceptor := fun m =>
  .accept (m.remove (Headers.fieldName key))

/-- Rejects a request without the key. -/
def require (key : String) (status : Status) : Interceptor := fun m =>
  if (m.first (Headers.fieldName key)).isSome then .accept m else .reject status

/-- Rejects every request. -/
def reject (status : Status) : Interceptor := fun _ =>
  .reject status

end Interceptor

/-! ### Logging -/

/-- What identifies a request across services. -/
structure TraceInfo where
  traceId : String
  requestId : String
  deriving DecidableEq, Repr, Inhabited

/-- The identification that a request carries, unless both parts are missing or empty. -/
def traceInfo (m : Headers) : Option TraceInfo :=
  let trace := (m.firstText "x-trace-id").getD ""
  let request := (m.firstText "x-request-id").getD ""
  if trace.isEmpty && request.isEmpty then none else some ⟨trace, request⟩

/-- Lets every request through as it is; what it logs is its `traceInfo`. -/
def Interceptor.logging {R : Type} : Interceptor R := fun r =>
  .accept r

/-! ### Chains -/

namespace Chain

variable {R : Type}

/-- Asks the interceptors in order. -/
def run : List (Interceptor R) → Interceptor R
  | [], r => .accept r
  | i :: rest, r =>
    match i r with
    | .accept r' => run rest r'
    | v => v

/-- The requests that the interceptors see, one for each that is asked. -/
def seen : List (Interceptor R) → R → List R
  | [], _ => []
  | i :: rest, r =>
    match i r with
    | .accept r' => r :: seen rest r'
    | _ => [r]

/-- How a chain shows itself. -/
def describe (chain : List (Interceptor R)) : String :=
  "InterceptorChain \x7b len: " ++ toString chain.length ++ " \x7d"

end Chain

end ServiceHost.Rpc
