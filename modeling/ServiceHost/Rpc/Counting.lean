import ServiceHost.Http.Uri
import ServiceHost.Metrics.Meter
import ServiceHost.Rpc.Code
/-!
Counting remote calls.

The layer hands the inner result through as it is and takes each completed call into the meter once,
by the path that was called and the status of its answer.
-/

namespace ServiceHost.Rpc

/-- How the inner service treated a call: an answer with its header fields, an error, or nothing so
far. -/
inductive CallResult where
  | answered (headers : Headers)
  | failed (error : String)
  | unfinished
  deriving DecidableEq, Repr, Inhabited

/-- The status that is counted for a completed call.  Only an answer that ends at once carries its
status among the header fields; any other answer counts as a success. -/
def CallResult.status? : CallResult → Option String
  | .answered headers =>
    some <| match headers.firstText "grpc-status" with
      | some s => (Code.ofText s.toList).name
      | none => Code.ok.name
  | .failed _ => some Code.unavailable.name
  | .unfinished => none

/-- The method of a call: the path of its target. -/
def methodOf (target : String) : String :=
  String.ofList (Http.targetPath target.toList)

/-- Takes a call into the meter, if there is one. -/
def countCall (meter : Option Metrics.CallMeter) (target : String) (result : CallResult)
    (elapsed : Duration) : Option Metrics.CallMeter × CallResult :=
  match meter, result.status? with
  | some m, some status => (some (m.observe (methodOf target) status elapsed), result)
  | meter, _ => (meter, result)

end ServiceHost.Rpc
