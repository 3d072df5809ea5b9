import ServiceHost.Document
import ServiceHost.Gateway.JsonOptions
import ServiceHost.Settings.Basic
/-!
Settings from structured documents.
-/

namespace ServiceHost

open Document

namespace Settings

/-- A length of time as a text. -/
def documentDuration (d : Document) : Except Document.Fault Duration :=
  match readText d with
  | .error e => .error e
  | .ok s =>
    match Duration.read s.toList with
    | .ok d => .ok d
    | .error .malformed => .error .shape
    | .error .overflow => .error .durationOverflow

/-- A choice by its name. -/
def documentChoice {α : Type} [Choice α] (d : Document) : Except Document.Fault α :=
  match readText d with
  | .error e => .error e
  | .ok s =>
    match Choice.read s.toList with
    | .ok x => .ok x
    | .error choice => .error (.unsupported choice)

/-- The fields of the settings of tracing. -/
def tracingFields : List (Member Tracing) := [
  field "enabled" Document.readBool fun v t => { t with enabled := v },
  field "backend" documentChoice fun v t => { t with backend := v },
  field "endpoint" readText fun v t => { t with endpoint := v },
  field "insecure" Document.readBool fun v t => { t with insecure := v },
  field "sample_rate" Document.readReal fun v t => { t with sampleRate := v },
  field "batch_size" Document.readWord fun v t => { t with batchSize := v },
  field "batch_timeout" documentDuration fun v t => { t with batchTimeout := v },
  field "headers" readText fun v t => { t with headers := v }]

/-- The fields of the settings of metrics. -/
def metricsFields : List (Member Metrics) := [
  field "enabled" Document.readBool fun v m => { m with enabled := v },
  field "backend" documentChoice fun v m => { m with backend := v },
  field "endpoint" readText fun v m => { m with endpoint := v },
  field "insecure" Document.readBool fun v m => { m with insecure := v },
  field "path" readText fun v m => { m with path := v },
  field "namespace" readText fun v m => { m with namesp := v }]

/-- The fields of the settings of logging. -/
def loggingFields : List (Member Logging) := [
  field "enabled" Document.readBool fun v l => { l with enabled := v },
  field "format" documentChoice fun v l => { l with format := v },
  field "file_path" readOptionalText fun v l => { l with filePath := v }]

/-- The fields of the settings of profiling. -/
def profilingFields : List (Member Profiling) := [
  field "enabled" Document.readBool fun v p => { p with enabled := v },
  field "backend" documentChoice fun v p => { p with backend := v },
  field "endpoint" readText fun v p => { p with endpoint := v },
  field "sample_rate" Document.readReal fun v p => { p with sampleRate := v }]

/-- The fields of the settings of telemetry. -/
def telemetryFields (rules : Rules) : List (Member Telemetry) := [
  field "tracing" (readRecord rules tracingFields {}) fun v t => { t with tracing := v },
  field "metrics" (readRecord rules metricsFields {}) fun v t => { t with metrics := v },
  field "logging" (readRecord rules loggingFields {}) fun v t => { t with logging := v },
  field "profiling" (readRecord rules profilingFields {}) fun v t => { t with profiling := v }]

/-- The fields of the settings. -/
def fields (rules : Rules) : List (Member Settings) := [
  field "log_level" readText fun v s => { s with logLevel := v },
  field "close_timeout" documentDuration fun v s => { s with closeTimeout := v },
  field "app_name" readText fun v s => { s with appName := v },
  field "app_version" readText fun v s => { s with appVersion := v },
  field "environment" readText fun v s => { s with environment := v },
  field "grpc_address" readText fun v s => { s with grpcAddress := v },
  field "http_address" readText fun v s => { s with httpAddress := v },
  field "metrics_address" readText fun v s => { s with metricsAddress := v },
  field "pprof_address" readText fun v s => { s with pprofAddress := v },
  field "reflection_enabled" Document.readBool fun v s => { s with reflectionEnabled := v },
  field "health_check_enabled" Document.readBool fun v s => { s with healthCheckEnabled := v },
  field "swagger_enabled" Document.readBool fun v s => { s with swaggerEnabled := v },
  field "swagger_dir" readText fun v s => { s with swaggerDir := v },
  field "swagger_base_path" readText fun v s => { s with swaggerBasePath := v },
  field "splash_enabled" Document.readBool fun v s => { s with splashEnabled := v },
  field "telemetry" (readRecord rules (telemetryFields rules) {})
    fun v s => { s with telemetry := v }]

/-- Settings from a tree. -/
def ofDocument (rules : Rules) (d : Document) : Except Document.Fault Settings :=
  readRecord rules (fields rules) {} d

/-- Settings from a JSON value. -/
def ofJson (v : Json) : Except Document.Fault Settings :=
  ofDocument jsonRules (Document.ofJson v)

end Settings

/-- The fields of the options of JSON output. -/
def Gateway.JsonOptions.fields : List (Member Gateway.JsonOptions) := [
  field "use_proto_names" readBool fun v o => { o with useProtoNames := v },
  field "emit_unpopulated" readBool fun v o => { o with emitUnpopulated := v },
  field "use_enum_numbers" readBool fun v o => { o with useEnumNumbers := v },
  field "allow_partial" readBool fun v o => { o with allowPartial := v },
  field "multiline" readBool fun v o => { o with multiline := v },
  field "indent" readText fun v o => { o with indent := v }]

/-- The options of JSON output from a JSON value. -/
def Gateway.JsonOptions.ofJson (v : Json) : Except Document.Fault Gateway.JsonOptions :=
  readRecord jsonRules Gateway.JsonOptions.fields {} (Document.ofJson v)

end ServiceHost
