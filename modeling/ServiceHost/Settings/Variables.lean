import ServiceHost.Decimal.Reading
import ServiceHost.Gateway.JsonOptions
import ServiceHost.Settings.Basic
/-!
Settings from variables.

Each setting has one variable with a default text, and the tables below give them in the order in
which they are read; the first one whose text does not parse is named in the refusal.  The choices
among backends are looked at only when all texts parse.
-/

namespace ServiceHost.Settings

open Decimal

/-! ### Variables -/

/-- Names and values in the order given; of equal names the last one counts. -/
abbrev Variables := List (String × String)

/-- What stands before the name of every variable: nothing, or the name of the service in upper case
and an underscore. -/
def variableStart (service : String) : List Char :=
  if service.isEmpty then [] else Text.upperAscii service.toList ++ ['_']

/-- The variables of a service, without what stands before their names. -/
def stripped (service : String) (vars : Variables) : Variables :=
  vars.filterMap fun (name, value) =>
    (Text.after? (variableStart service) name.toList).map fun rest => (String.ofList rest, value)

/-- The last value given to a name. -/
def lastValue (vars : Variables) (name : String) : Option String :=
  (vars.reverse.find? (·.1 == name)).map (·.2)

/-! ### Faults -/

/-- Why the text of a variable is refused. -/
inductive TextFault where
  | malformed
  | durationOverflow
  deriving DecidableEq, Repr

/-- Why variables are refused. -/
inductive VariablesFault where
  | badVariable (name : String)
  | unsupported (choice : Unsupported)
  | durationOverflow
  deriving DecidableEq, Repr

/-! ### Texts of settings -/

/-- The two truth values, written exactly so. -/
def readBool (s : List Char) : Except TextFault Bool :=
  if s = "true".toList then .ok true
  else if s = "false".toList then .ok false
  else .error .malformed

/-- A length of time. -/
def readDuration (s : List Char) : Except TextFault Duration :=
  match Duration.read s with
  | .ok d => .ok d
  | .error .malformed => .error .malformed
  | .error .overflow => .error .durationOverflow

/-- A floating point number. -/
def readReal (s : List Char) : Except TextFault Double :=
  match Double.parse? s with
  | some x => .ok x
  | none => .error .malformed

/-- An unsigned word. -/
def readWord (s : List Char) : Except TextFault Nat :=
  match Numeral.unsigned (Numeral.maxUnsigned 64) s with
  | .ok n => .ok n
  | .error _ => .error .malformed

/-- A path that may be missing: outer blanks go, and a blank text is no path. -/
def readPath (s : List Char) : Option String :=
  let s := Text.trim s
  if s.isEmpty then none else some (String.ofList s)

/-! ### Tables -/

/-- A variable: its name, the text it has when it is not set, and how its text changes the
settings. -/
structure Variable (α : Type) where
  name : String
  default : String
  store : List Char → α → Except TextFault α

namespace Variable

/-- The text that counts for a variable. -/
def value {α : Type} (v : Variable α) (vars : Variables) : List Char :=
  ((lastValue vars v.name).getD v.default).toList

/-- Reads one variable. -/
def load {α : Type} (vars : Variables) (settings : α) (v : Variable α) :
    Except VariablesFault α :=
  match v.store (v.value vars) settings with
  | .ok settings => .ok settings
  | .error .malformed => .error (.badVariable v.name)
  | .error .durationOverflow => .error .durationOverflow

/-- A variable whose text is the setting. -/
def text {α : Type} (name default : String) (put : String → α → α) : Variable α :=
  ⟨name, default, fun s settings => .ok (put (String.ofList s) settings)⟩

/-- A variable whose text is read first. -/
def parsed {α β : Type} (name default : String) (read : List Char → Except TextFault β)
    (put : β → α → α) : Variable α :=
  ⟨name, default, fun s settings => (read s).map fun v => put v settings⟩

/-- A variable that holds a truth value. -/
def bool {α : Type} (name default : String) (put : Bool → α → α) : Variable α :=
  parsed name default readBool put

end Variable

open Variable

/-- Changes the settings of tracing. -/
def onTracing (f : Tracing → Tracing) (s : Settings) : Settings :=
  { s with telemetry := { s.telemetry with tracing := f s.telemetry.tracing } }

/-- Changes the settings of metrics. -/
def onMetrics (f : Metrics → Metrics) (s : Settings) : Settings :=
  { s with telemetry := { s.telemetry with metrics := f s.telemetry.metrics } }

/-- Changes the settings of logging. -/
def onLogging (f : Logging → Logging) (s : Settings) : Settings :=
  { s with telemetry := { s.telemetry with logging := f s.telemetry.logging } }

/-- Changes the settings of profiling. -/
def onProfiling (f : Profiling → Profiling) (s : Settings) : Settings :=
  { s with telemetry := { s.telemetry with profiling := f s.telemetry.profiling } }

/-- The variables of the settings, the choices among backends apart. -/
def settingVariables : List (Variable Settings) := [
  text "LOG_LEVEL" "info" fun v s => { s with logLevel := v },
  parsed "CLOSE_TIMEOUT" "10s" readDuration fun v s => { s with closeTimeout := v },
  text "APP_NAME" "Service" fun v s => { s with appName := v },
  text "APP_VERSION" "dev" fun v s => { s with appVersion := v },
  text "ENVIRONMENT" "development" fun v s => { s with environment := v },
  text "GRPC_ADDRESS" ":9090" fun v s => { s with grpcAddress := v },
  text "HTTP_ADDRESS" ":8080" fun v s => { s with httpAddress := v },
  text "METRICS_ADDRESS" ":9091" fun v s => { s with metricsAddress := v },
  text "PPROF_ADDRESS" ":6060" fun v s => { s with pprofAddress := v },
  bool "REFLECTION_ENABLED" "true" fun v s => { s with reflectionEnabled := v },
  bool "HEALTH_CHECK_ENABLED" "true" fun v s => { s with healthCheckEnabled := v },
  bool "SWAGGER_ENABLED" "true" fun v s => { s with swaggerEnabled := v },
  text "SWAGGER_DIR" "./api" fun v s => { s with swaggerDir := v },
  text "SWAGGER_BASE_PATH" "/" fun v s => { s with swaggerBasePath := v },
  bool "SPLASH_ENABLED" "true" fun v s => { s with splashEnabled := v },
  bool "TRACING_ENABLED" "false" fun v => onTracing ({ · with enabled := v }),
  text "TRACING_ENDPOINT" "localhost:4318" fun v => onTracing ({ · with endpoint := v }),
  bool "TRACING_INSECURE" "true" fun v => onTracing ({ · with insecure := v }),
  parsed "TRACING_SAMPLE_RATE" "1.0" readReal fun v => onTracing ({ · with sampleRate := v }),
  parsed "TRACING_BATCH_SIZE" "512" readWord fun v => onTracing ({ · with batchSize := v }),
  parsed "TRACING_BATCH_TIMEOUT" "5s" readDuration
    fun v => onTracing ({ · with batchTimeout := v }),
  text "TRACING_HEADERS" "" fun v => onTracing ({ · with headers := v }),
  bool "METRICS_ENABLED" "false" fun v => onMetrics ({ · with enabled := v }),
  text "METRICS_ENDPOINT" "localhost:4318" fun v => onMetrics ({ · with endpoint := v }),
  bool "METRICS_INSECURE" "true" fun v => onMetrics ({ · with insecure := v }),
  text "METRICS_PATH" "/metrics" fun v => onMetrics ({ · with path := v }),
  text "METRICS_NAMESPACE" "app" fun v => onMetrics ({ · with namesp := v }),
  bool "LOGGING_ENABLED" "false" fun v => onLogging ({ · with enabled := v }),
  text "LOG_FILE_PATH" "" fun v => onLogging ({ · with filePath := readPath v.toList }),
  bool "PROFILING_ENABLED" "false" fun v => onProfiling ({ · with enabled := v }),
  text "PROFILING_ENDPOINT" "http://localhost:4040" fun v => onProfiling ({ · with endpoint := v }),
  parsed "PROFILING_SAMPLE_RATE" "1.0" readReal fun v => onProfiling ({ · with sampleRate := v })]

/-- A variable that names a choice. -/
structure ChoiceVariable where
  name : String
  default : String
  store : List Char → Settings → Except Unsupported Settings

/-- The choices among backends, in the order in which they are looked at. -/
def choiceVariables : List ChoiceVariable := [
  ⟨"TRACING_BACKEND", "otlp", fun t s =>
    (Choice.read t).map fun v => onTracing ({ · with backend := v }) s⟩,
  ⟨"METRICS_BACKEND", "prometheus", fun t s =>
    (Choice.read t).map fun v => onMetrics ({ · with backend := v }) s⟩,
  ⟨"LOG_FORMAT", "json", fun t s =>
    (Choice.read t).map fun v => onLogging ({ · with format := v }) s⟩,
  ⟨"PROFILING_BACKEND", "pprof", fun t s =>
    (Choice.read t).map fun v => onProfiling ({ · with backend := v }) s⟩]

/-- Reads one choice. -/
def ChoiceVariable.load (vars : Variables) (settings : Settings) (v : ChoiceVariable) :
    Except VariablesFault Settings :=
  match v.store ((lastValue vars v.name).getD v.default).toList settings with
  | .ok settings => .ok settings
  | .error choice => .error (.unsupported choice)

/-! ### Loading -/

/-- The settings that variables without a service's name in front give. -/
def ofVariables (vars : Variables) : Except VariablesFault Settings := do
  let settings ← settingVariables.foldlM (Variable.load vars) {}
  choiceVariables.foldlM (ChoiceVariable.load vars) settings

/-- The settings that the variables of a service give. -/
def fromVariables (service : String) (vars : Variables) : Except VariablesFault Settings :=
  ofVariables (stripped service vars)

/-- The variables of the options of JSON output. -/
def jsonVariables : List (Variable Gateway.JsonOptions) := [
  bool "GATEWAY_USE_PROTO_NAMES" "true" fun v o => { o with useProtoNames := v },
  bool "GATEWAY_EMIT_UNPOPULATED" "true" fun v o => { o with emitUnpopulated := v },
  bool "GATEWAY_USE_ENUM_NUMBERS" "true" fun v o => { o with useEnumNumbers := v },
  bool "GATEWAY_ALLOW_PARTIAL" "true" fun v o => { o with allowPartial := v },
  bool "GATEWAY_MULTILINE" "true" fun v o => { o with multiline := v },
  text "GATEWAY_INDENT" "  " fun v o => { o with indent := v }]

/-- The options of JSON output that the variables of a service give. -/
def jsonFromVariables (service : String) (vars : Variables) :
    Except VariablesFault Gateway.JsonOptions :=
  jsonVariables.foldlM (Variable.load (stripped service vars)) {}

end ServiceHost.Settings
