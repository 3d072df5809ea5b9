/-!
What can go wrong, and how it is worded.

Each error is its cause; the wording is in the `message` functions and nowhere else.  A process may
fail with an error of this library or with a text of its own.
-/

namespace ServiceHost

/-! ### Causes -/

/-- A refusal by the operating system, or by the readers of addresses and files. -/
inductive SystemFault where
  | notFound
  | notDirectory
  | isDirectory
  | notUtf8
  | addressUnavailable
  | addressWithoutPort
  | badPort
  | networkUnreachable
  | other (text : String)
  deriving DecidableEq, Repr

/-- The wording of a refusal. -/
def SystemFault.message : SystemFault → String
  | .notFound => "No such file or directory (os error 2)"
  | .notDirectory => "Not a directory (os error 20)"
  | .isDirectory => "Is a directory (os error 21)"
  | .notUtf8 => "stream did not contain valid UTF-8"
  | .addressUnavailable => "Cannot assign requested address (os error 99)"
  | .addressWithoutPort => "invalid socket address"
  | .badPort => "invalid port value"
  | .networkUnreachable => "Network is unreachable (os error 101)"
  | .other text => text

/-- A choice that a setting does not offer: what kind of choice it is, and the name given. -/
structure Unsupported where
  kind : String
  name : String
  deriving DecidableEq, Repr

/-- The wording of a refused choice. -/
def Unsupported.message (u : Unsupported) : String :=
  "unsupported " ++ u.kind ++ " backend: " ++ u.name

/-- Why cross-origin options are refused. -/
inductive CorsFault where
  | credentialsWithWildcard
  | badOrigin (origin : String)
  | badMethod (method : String)
  | badHeader (header : String)
  deriving DecidableEq, Repr

/-- The wording of refused cross-origin options. -/
def CorsFault.message : CorsFault → String
  | .credentialsWithWildcard =>
    "CORS credentials cannot be combined with wildcard origins or headers"
  | .badOrigin origin => "invalid CORS origin " ++ origin ++ ": failed to parse header value"
  | .badMethod method => "invalid CORS method " ++ method ++ ": invalid HTTP method"
  | .badHeader header => "invalid CORS header " ++ header ++ ": invalid HTTP header name"

/-- What is wrong with settings. -/
inductive ConfigFault where
  | badVariable (name : String)
  | unsupported (choice : Unsupported)
  | badDocument
  | zeroCloseTimeout
  | blankAddress (field : String)
  | cors (fault : CorsFault)
  | other (text : String)
  deriving DecidableEq, Repr

/-- The wording of wrong settings. -/
def ConfigFault.message : ConfigFault → String
  | .badVariable name => "Failed to parse environment variable " ++ name
  | .unsupported choice => choice.message
  | .badDocument => "malformed document"
  | .zeroCloseTimeout => "close timeout must be greater than zero"
  | .blankAddress field => field ++ " must not be empty"
  | .cors fault => fault.message
  | .other text => text

/-- Why a metric is refused. -/
inductive MetricFault where
  | badName (name : String)
  | duplicate
  | notRegistered
  | other (text : String)
  deriving DecidableEq, Repr

/-- The wording of a refused metric. -/
def MetricFault.message : MetricFault → String
  | .badName name => "Error: '" ++ name ++ "' is not a valid metric name"
  | .duplicate => "Duplicate metrics collector registration attempted"
  | .notRegistered => "Error: collector <desc> is not registered"
  | .other text => "Error: " ++ text

/-! ### Errors of the host and of processes -/

mutual

/-- An error of the host. -/
inductive HostError where
  | preRun (source : ComponentError)
  | process (index : Nat) (source : ComponentError)
  | shutdown (index : Nat) (source : ComponentError)
  | config (fault : ConfigFault)
  | bind (address : String) (fault : SystemFault)
  | notPrepared (component : String)
  | serve (component : String) (fault : SystemFault)
  | transport (detail : String)
  | shutdownTimeout (component : String)
  | gateway (source : ComponentError)
  | metrics (fault : MetricFault)
  | telemetry (text : String)
  | telemetryShutdown (texts : List String)
  | io (fault : SystemFault)

/-- An error of a process: one of the host's, or a text of the process's own. -/
inductive ComponentError where
  | host (error : HostError)
  | text (s : String)

end

deriving instance DecidableEq for HostError, ComponentError

mutual

/-- The wording of an error of the host. -/
def HostError.message : HostError → String
  | .preRun source => "pre-run error: " ++ source.message
  | .process index source => "process " ++ toString index ++ " error: " ++ source.message
  | .shutdown index source => "process " ++ toString index ++ " shutdown error: " ++ source.message
  | .config fault => "config error: " ++ fault.message
  | .bind address fault => "failed to listen on " ++ address ++ ": " ++ fault.message
  | .notPrepared component => component ++ " is not prepared, pre_run must succeed before run"
  | .serve component fault => component ++ " server error: " ++ fault.message
  | .transport detail => "gRPC server error: " ++ detail
  | .shutdownTimeout component => component ++ " server shutdown error: deadline exceeded"
  | .gateway source => "gateway registration error: " ++ source.message
  | .metrics fault => "metrics error: " ++ fault.message
  | .telemetry text => "telemetry error: " ++ text
  | .telemetryShutdown texts =>
    "telemetry shutdown errors: [" ++ String.intercalate "; " texts ++ "]"
  | .io fault => "io error: " ++ fault.message

/-- The wording of an error of a process. -/
def ComponentError.message : ComponentError → String
  | .host error => error.message
  | .text s => s

end

instance : Inhabited HostError := ⟨.notPrepared ""⟩
instance : Inhabited ComponentError := ⟨.text ""⟩

/-- The place in the list of the process that failed while running or shutting down. -/
def HostError.processIndex? : HostError → Option Nat
  | .process index _ => some index
  | .shutdown index _ => some index
  | _ => none

/-- Did preparation fail, so that nothing ran? -/
def HostError.isPreRun : HostError → Bool
  | .preRun _ => true
  | _ => false

end ServiceHost
