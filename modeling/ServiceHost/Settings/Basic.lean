import ServiceHost.Decimal.Double
import ServiceHost.Duration
import ServiceHost.Settings.Backend
/-!
The settings of a service, with their defaults.
-/

namespace ServiceHost

open Decimal

namespace Settings

/-- The number one. -/
def wholeRate : Double := .ofNat 1

/-- Where traces go and how many of them. -/
structure Tracing where
  enabled : Bool := false
  backend : TracingBackend := .otlp
  endpoint : String := "localhost:4318"
  insecure : Bool := true
  sampleRate : Double := wholeRate
  batchSize : Nat := 512
  batchTimeout : Duration := .seconds 5
  headers : String := ""
  deriving DecidableEq, Inhabited

/-- How metrics are published. -/
structure Metrics where
  enabled : Bool := false
  backend : MetricsBackend := .prometheus
  endpoint : String := "localhost:4318"
  insecure : Bool := true
  path : String := "/metrics"
  namesp : String := "app"
  deriving DecidableEq, Inhabited

/-- How log lines are written, and where to: without a path, to the standard output. -/
structure Logging where
  enabled : Bool := false
  format : LogFormat := .json
  filePath : Option String := none
  deriving DecidableEq, Inhabited

/-- How profiles are taken. -/
structure Profiling where
  enabled : Bool := false
  backend : ProfilingBackend := .pprof
  endpoint : String := "http://localhost:4040"
  sampleRate : Double := wholeRate
  deriving DecidableEq, Inhabited

/-- The settings of telemetry. -/
structure Telemetry where
  tracing : Tracing := {}
  metrics : Metrics := {}
  logging : Logging := {}
  profiling : Profiling := {}
  deriving DecidableEq, Inhabited

/-- Is any part of telemetry enabled? -/
def Telemetry.anyEnabled (t : Telemetry) : Bool :=
  t.tracing.enabled || t.metrics.enabled || t.logging.enabled || t.profiling.enabled

end Settings

/-- The settings of a service. -/
structure Settings where
  logLevel : String := "info"
  closeTimeout : Duration := .seconds 10
  appName : String := "Service"
  appVersion : String := "dev"
  environment : String := "development"
  grpcAddress : String := ":9090"
  httpAddress : String := ":8080"
  metricsAddress : String := ":9091"
  pprofAddress : String := ":6060"
  reflectionEnabled : Bool := true
  healthCheckEnabled : Bool := true
  swaggerEnabled : Bool := true
  swaggerDir : String := "./api"
  swaggerBasePath : String := "/"
  splashEnabled : Bool := true
  telemetry : Settings.Telemetry := {}
  deriving DecidableEq, Inhabited

end ServiceHost
