import ServiceHost.Fault
import ServiceHost.Text.Ascii
import ServiceHost.Text.Blank
/-!
The choices among backends and formats, by name.

A name is read without regard to case and outer blanks and written in lower case.
-/

namespace ServiceHost

/-- A setting that is one of a few named choices. -/
class Choice (α : Type) where
  /-- What is chosen, for the wording of a refusal. -/
  kind : String
  /-- Every choice. -/
  all : List α
  /-- The name of a choice. -/
  name : α → String

namespace Choice

/-- The name as given, without outer blanks and in lower case. -/
def normalise (s : List Char) : List Char :=
  Text.lowerAscii (Text.trim s)

/-- The choice of the given name. -/
def read {α : Type} [Choice α] (s : List Char) : Except Unsupported α :=
  match (all : List α).find? fun x => (name x).toList == normalise s with
  | some x => .ok x
  | none => .error ⟨kind α, String.ofList (normalise s)⟩

end Choice

namespace Settings

/-- Where traces go. -/
inductive TracingBackend where
  | otlp
  | jaeger
  deriving DecidableEq, Repr, Inhabited

/-- How metrics are published. -/
inductive MetricsBackend where
  | prometheus
  | otlp
  deriving DecidableEq, Repr, Inhabited

/-- How log lines are written. -/
inductive LogFormat where
  | json
  | text
  deriving DecidableEq, Repr, Inhabited

/-- How profiles are taken. -/
inductive ProfilingBackend where
  | pprof
  | pyroscope
  | otlp
  | none
  deriving DecidableEq, Repr, Inhabited

instance : Choice TracingBackend where
  kind := "tracing"
  all := [.otlp, .jaeger]
  name
    | .otlp => "otlp"
    | .jaeger => "jaeger"

instance : Choice MetricsBackend where
  kind := "metrics"
  all := [.prometheus, .otlp]
  name
    | .prometheus => "prometheus"
    | .otlp => "otlp"

instance : Choice LogFormat where
  kind := "logging"
  all := [.json, .text]
  name
    | .json => "json"
    | .text => "text"

instance : Choice ProfilingBackend where
  kind := "profiling"
  all := [.pprof, .pyroscope, .otlp, .none]
  name
    | .pprof => "pprof"
    | .pyroscope => "pyroscope"
    | .otlp => "otlp"
    | .none => "none"

end Settings

end ServiceHost
