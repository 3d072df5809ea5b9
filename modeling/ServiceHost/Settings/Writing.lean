import ServiceHost.Gateway.JsonOptions
import ServiceHost.Settings.Basic
/-!
Settings as JSON objects, under the names from which they are read.
-/

namespace ServiceHost

/-- Options of JSON output as an object. -/
def Gateway.JsonOptions.toJson (o : Gateway.JsonOptions) : Json :=
  Json.ofMembers [("use_proto_names", .bool o.useProtoNames),
    ("emit_unpopulated", .bool o.emitUnpopulated), ("use_enum_numbers", .bool o.useEnumNumbers),
    ("allow_partial", .bool o.allowPartial), ("multiline", .bool o.multiline),
    ("indent", .text o.indent)]

namespace Settings

/-- A named choice as a text. -/
def choiceToJson {α : Type} [Choice α] (x : α) : Json :=
  .text (Choice.name x)

/-- The settings of traces; `rate` writes their share. -/
def Tracing.toJson (rate : Decimal.Double → Json) (t : Tracing) : Json :=
  Json.ofMembers [("enabled", .bool t.enabled), ("backend", choiceToJson t.backend),
    ("endpoint", .text t.endpoint), ("insecure", .bool t.insecure),
    ("sample_rate", rate t.sampleRate), ("batch_size", Json.ofNat t.batchSize),
    ("batch_timeout", .text t.batchTimeout.write), ("headers", .text t.headers)]

/-- The settings of metrics. -/
def Metrics.toJson (m : Metrics) : Json :=
  Json.ofMembers [("enabled", .bool m.enabled), ("backend", choiceToJson m.backend),
    ("endpoint", .text m.endpoint), ("insecure", .bool m.insecure), ("path", .text m.path),
    ("namespace", .text m.namesp)]

/-- The settings of logging. -/
def Logging.toJson (l : Logging) : Json :=
  Json.ofMembers [("enabled", .bool l.enabled), ("format", choiceToJson l.format),
    ("file_path", (l.filePath.map Json.text).getD .null)]

/-- The settings of profiling; `rate` writes its share. -/
def Profiling.toJson (rate : Decimal.Double → Json) (p : Profiling) : Json :=
  Json.ofMembers [("enabled", .bool p.enabled), ("backend", choiceToJson p.backend),
    ("endpoint", .text p.endpoint), ("sample_rate", rate p.sampleRate)]

/-- The settings of telemetry, and whether any part of it is enabled. -/
def Telemetry.toJson (rate : Decimal.Double → Json) (t : Telemetry) : Json :=
  Json.ofMembers [("any_enabled", .bool t.anyEnabled), ("tracing", t.tracing.toJson rate),
    ("metrics", t.metrics.toJson), ("logging", t.logging.toJson),
    ("profiling", t.profiling.toJson rate)]

/-- The settings; `rate` writes shares. -/
def toJson (rate : Decimal.Double → Json) (s : Settings) : Json :=
  Json.ofMembers [
    ("log_level", .text s.logLevel), ("close_timeout", .text s.closeTimeout.write),
    ("app_name", .text s.appName), ("app_version", .text s.appVersion),
    ("environment", .text s.environment), ("grpc_address", .text s.grpcAddress),
    ("http_address", .text s.httpAddress), ("metrics_address", .text s.metricsAddress),
    ("pprof_address", .text s.pprofAddress), ("reflection_enabled", .bool s.reflectionEnabled),
    ("health_check_enabled", .bool s.healthCheckEnabled),
    ("swagger_enabled", .bool s.swaggerEnabled), ("swagger_dir", .text s.swaggerDir),
    ("swagger_base_path", .text s.swaggerBasePath), ("splash_enabled", .bool s.splashEnabled),
    ("telemetry", s.telemetry.toJson rate)]

end Settings

end ServiceHost
