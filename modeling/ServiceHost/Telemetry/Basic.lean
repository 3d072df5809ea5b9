import ServiceHost.Files
import ServiceHost.Http.Uri
import ServiceHost.Lifecycle.Slot
import ServiceHost.Logging.Journal
import ServiceHost.Metrics.Registry
import ServiceHost.Settings.Basic
/-!
The service of telemetry: what it is made from, what it keeps, and what can go wrong with it.
-/

namespace ServiceHost.Telemetry

open Logging (Notice Journal Value)

/-! ### The service -/

/-- Telemetry for an application.  `meter` is the place of the meter of calls, if calls are counted
for a registry. -/
structure Service where
  settings : Settings
  meter : Option Nat := none

/-- Are calls counted for a registry? -/
def countsCalls (s : Settings) : Bool :=
  s.telemetry.metrics.enabled && s.telemetry.metrics.backend == .prometheus

/-- Makes the service, and the meter of calls if one is needed. -/
def Service.create (s : Settings) (m : Metrics.State) :
    Except MetricFault (Service × Metrics.State) :=
  if countsCalls s then
    (Metrics.CallMeter.create s.telemetry.metrics.namesp).map fun meter =>
      let (m, place) := m.add (.calls meter)
      ({ settings := s, meter := some place }, m)
  else .ok ({ settings := s }, m)

/-- What the service offers, as it is shown to users. -/
def Service.features (s : Service) : List String :=
  let t := s.settings.telemetry
  (if t.tracing.enabled then ["Tracing (" ++ Choice.name t.tracing.backend ++ ")"] else []) ++
  (if t.metrics.enabled then ["Metrics (" ++ Choice.name t.metrics.backend ++ ")"] else []) ++
  (if t.profiling.enabled then ["Profiling (" ++ Choice.name t.profiling.backend ++ ")"] else [])

/-! ### Faults -/

/-- Why a part of telemetry cannot be set up. -/
inductive SetupFault where
  | exporter (signal url : String) (fault : Http.AddressFault)
  | registration (fault : MetricFault)
  | logFile (path : String) (fault : SystemFault)
  | noProfiler

/-- The wording of a failed setup. -/
def SetupFault.message : SetupFault → String
  | .exporter signal url fault =>
    "failed to create OTLP HTTP " ++ signal ++ " exporter: invalid URI " ++ url ++ ". Reason " ++
      fault.message
  | .registration fault => "failed to register gRPC metrics: " ++ fault.message
  | .logFile path fault => "failed to open log file " ++ path ++ ": " ++ fault.message
  | .noProfiler => "pyroscope profiling backend requires the `pyroscope` feature"

/-- The parts of telemetry that are set up. -/
inductive Part where
  | tracing
  | metrics
  | logging
  | profiling
  deriving DecidableEq, Repr, Inhabited

/-- The name of a part. -/
def Part.name : Part → String
  | .tracing => "tracing"
  | .metrics => "metrics"
  | .logging => "logging"
  | .profiling => "profiling"

/-- The error of a preparation in which a part cannot be set up. -/
def setupError (part : Part) (fault : SetupFault) : HostError :=
  .telemetry ("failed to set up " ++ part.name ++ ": " ++ fault.message)

/-! ### What has been set up -/

/-- What has been set up and not been shut down since, and the failures of the shutdown that is
going on. -/
structure State where
  traces : Bool := false
  meters : Bool := false
  profiler : Bool := false
  registered : Bool := false
  failures : List String := []
  deriving DecidableEq, Repr, Inhabited

/-- The places in a world that telemetry works on. -/
structure Places (W : Type) where
  state : Slot W State
  metrics : Slot W Metrics.State
  journal : Slot W Journal
  files : Slot W Files

namespace Places

variable {W : Type}

/-- Logs a notice. -/
def log (p : Places W) (e : Notice) (w : W) : W :=
  p.journal.modify (·.log e) w

/-- Logs a piece of information. -/
def inform (p : Places W) (target message : String) (fields : List (String × Value)) (w : W) : W :=
  p.log { level := .info, target := target, message := message, fields := fields } w

end Places

/-- Where the notices of a part of the service come from. -/
def targetOf (part : String) : String :=
  "flare_bootstrap::telemetry" ++ part

end ServiceHost.Telemetry
