import ServiceHost.Telemetry.Basic
import ServiceHost.Telemetry.Export
/-!
Setting telemetry up: tracing, metrics, logging and profiling in this order, up to the first part
that fails.  What has been set up before a failure stays so until it is shut down.
-/

namespace ServiceHost.Telemetry

open Settings (LogFormat)
open Logging (Recorder Value)

/-- The effect of setting up one part. -/
abbrev Setup (W : Type) := W → W × Option SetupFault

namespace Service

variable {W : Type}

/-- Sets up the export of traces. -/
def setupTracing (s : Service) (p : Places W) : Setup W := fun w =>
  let t := s.settings.telemetry.tracing
  if !t.enabled then (p.inform (targetOf "") "Tracing is disabled" [] w, none)
  else
    let url := Export.url t.endpoint.toList t.insecure "/v1/traces".toList
    let shownUrl := Value.shown (String.ofList url)
    let w := if t.backend = .jaeger then
        p.inform (targetOf "::trace") "Jaeger tracing exports via OTLP" [("endpoint", shownUrl)] w
      else w
    match Http.addressFault? url with
    | some fault => (w, some (.exporter "trace" (String.ofList url) fault))
    | none =>
      let w := p.inform (targetOf "::trace") "OTLP tracing initialized"
        [("backend", .shown (Choice.name t.backend)), ("endpoint", shownUrl),
          ("sample_rate", .real t.sampleRate)] w
      (p.state.modify (fun st => { st with traces := true }) w, none)

/-- Sets up the publication of metrics. -/
def setupMetrics (s : Service) (p : Places W) : Setup W := fun w =>
  let t := s.settings.telemetry.metrics
  if !t.enabled then (p.inform (targetOf "") "Metrics export is disabled" [] w, none)
  else match t.backend, s.meter with
    | .prometheus, some place =>
      let (m, fault) := (p.metrics.get w).register place
      let w := p.metrics.put m w
      match fault with
      | some fault => (w, some (.registration fault))
      | none =>
        let w := p.state.modify (fun st => { st with registered := true }) w
        (p.inform (targetOf "") "Prometheus metrics initialized" [("path", .shown t.path)] w, none)
    | .prometheus, none =>
      (p.inform (targetOf "") "Prometheus metrics initialized" [("path", .shown t.path)] w, none)
    | .otlp, _ =>
      let url := Export.url t.endpoint.toList t.insecure "/v1/metrics".toList
      match Http.addressFault? url with
      | some fault => (w, some (.exporter "metric" (String.ofList url) fault))
      | none =>
        let w := p.inform (targetOf "::meter") "OTLP metrics initialized"
          [("endpoint", .shown (String.ofList url))] w
        (p.state.modify (fun st => { st with meters := true }) w, none)

/-- How log lines are written and where they go. -/
def logFormat (s : Service) : LogFormat :=
  if s.settings.telemetry.logging.enabled then s.settings.telemetry.logging.format else .text

/-- The log file, if there is one. -/
def logFile (s : Service) : Option String :=
  if s.settings.telemetry.logging.enabled then s.settings.telemetry.logging.filePath else none

/-- The recorder that the settings ask for. -/
def recorder (s : Service) (coloured : Bool) : Recorder where
  filter := Logging.filterOf s.settings.logLevel
  format := s.logFormat
  output := (s.logFile.map Logging.Output.file).getD .standard
  coloured := s.logFile.isNone && coloured

/-- Installs the recorder, or keeps the one that is there. -/
def startLogging (s : Service) (p : Places W) (coloured : Bool) (w : W) : W :=
  match (p.journal.get w).install? (s.recorder coloured) with
  | some j =>
    p.inform (targetOf "::logging") "Structured logging initialized"
      [("service", .shown s.settings.appName), ("version", .shown s.settings.appVersion),
        ("environment", .shown s.settings.environment),
        ("format", .shown (Choice.name s.logFormat)),
        ("log_level", .shown s.settings.logLevel)] (p.journal.put j w)
  | none =>
    p.log {
      level := .warn, target := targetOf "::logging"
      message := "Global subscriber already installed, keeping it"
      fields := [("error", .shown "a global default trace dispatcher has already been set")] } w

/-- Sets up logging, which traces need too.  A log file is made if it is missing. -/
def setupLogging (s : Service) (p : Places W) (coloured : Bool) : Setup W := fun w =>
  if !s.settings.telemetry.logging.enabled && !(p.state.get w).traces then
    (p.inform (targetOf "") "Structured logging is disabled" [] w, none)
  else match s.logFile with
    | none => (s.startLogging p coloured w, none)
    | some path =>
      match (p.files.get w).ensure path with
      | .ok fs => (s.startLogging p coloured (p.files.put fs w), none)
      | .error fault => (w, some (.logFile path fault))

/-- Sets up profiling. -/
def setupProfiling (s : Service) (p : Places W) : Setup W := fun w =>
  let t := s.settings.telemetry.profiling
  let inform (message : String) (fields : List (String × Value)) : W × Option SetupFault :=
    (p.inform (targetOf "::profiling") message fields w, none)
  if !t.enabled then (p.inform (targetOf "") "Continuous profiling is disabled" [] w, none)
  else match t.backend with
    | .pprof =>
      inform "Using pprof profiling endpoint" [("address", .shown s.settings.pprofAddress)]
    | .pyroscope => (w, some .noProfiler)
    | .otlp => inform "OTLP profiling is not supported yet" []
    | .none => inform "Profiling backend is none, profiling disabled" []

/-- The instruction that sets up a part. -/
def settingUp (part : Part) (setup : Setup W) : Instruction W :=
  .act fun _ w =>
    let (w, fault) := setup w
    (w, fault.map fun f => .failed (.host (setupError part f)))

/-- The preparation. -/
def prepare (s : Service) (p : Places W) (coloured : Bool) : Routine W := [
  .act fun _ w => (p.inform (targetOf "") "📡 Initializing telemetry services" [] w, none),
  settingUp .tracing (s.setupTracing p), settingUp .metrics (s.setupMetrics p),
  settingUp .logging (s.setupLogging p coloured), settingUp .profiling (s.setupProfiling p)]

end Service

end ServiceHost.Telemetry
