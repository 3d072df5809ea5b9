import ServiceHost.Http.Headers
import ServiceHost.Numeral
/-!
The status codes of remote calls.
-/

namespace ServiceHost.Rpc

/-- A status code. -/
inductive Code where
  | ok
  | cancelled
  | unknown
  | invalidArgument
  | deadlineExceeded
  | notFound
  | alreadyExists
  | permissionDenied
  | resourceExhausted
  | failedPrecondition
  | aborted
  | outOfRange
  | unimplemented
  | internal
  | unavailable
  | dataLoss
  | unauthenticated
  deriving DecidableEq, Repr, Inhabited

namespace Code

/-- The codes in the order of their numbers, from zero. -/
def all : List Code :=
  [.ok, .cancelled, .unknown, .invalidArgument, .deadlineExceeded, .notFound, .alreadyExists,
    .permissionDenied, .resourceExhausted, .failedPrecondition, .aborted, .outOfRange,
    .unimplemented, .internal, .unavailable, .dataLoss, .unauthenticated]

/-- The code of a number; a number without one is unknown. -/
def ofNumber : Int → Code
  | .ofNat n => all.getD n .unknown
  | .negSucc _ => .unknown

/-- The name of a code. -/
def name : Code → String
  | .ok => "OK"
  | .cancelled => "CANCELLED"
  | .unknown => "UNKNOWN"
  | .invalidArgument => "INVALID_ARGUMENT"
  | .deadlineExceeded => "DEADLINE_EXCEEDED"
  | .notFound => "NOT_FOUND"
  | .alreadyExists => "ALREADY_EXISTS"
  | .permissionDenied => "PERMISSION_DENIED"
  | .resourceExhausted => "RESOURCE_EXHAUSTED"
  | .failedPrecondition => "FAILED_PRECONDITION"
  | .aborted => "ABORTED"
  | .outOfRange => "OUT_OF_RANGE"
  | .unimplemented => "UNIMPLEMENTED"
  | .internal => "INTERNAL"
  | .unavailable => "UNAVAILABLE"
  | .dataLoss => "DATA_LOSS"
  | .unauthenticated => "UNAUTHENTICATED"

/-- The code that a text names by its number; any other text is unknown. -/
def ofText (s : List Char) : Code :=
  match Numeral.signed (Numeral.maxSigned 32) s with
  | .ok n => ofNumber n
  | .error _ => .unknown

end Code

/-- A status: a code with a message. -/
structure Status where
  code : Code
  message : String
  deriving DecidableEq, Repr, Inhabited

end ServiceHost.Rpc
