import ServiceHost.Proofs.Settings.Storing
import ServiceHost.Settings.Reading
import ServiceHost.Settings.Variables
/-!
Every setting, once.

A setting has a place in the settings of a service, a form, a variable with a default text, and a
key in a table of a document.  The tables by which variables and documents are read hold these
settings and no others (`settingVariables_eq`, `choiceVariables_eq`, `fields_eq`); all places
together make up the settings (`items_partition`).
-/

namespace ServiceHost.Settings

open Decimal

/-! ### Forms -/

/-- The forms of settings. -/
inductive Form : Type → Type 1 where
  | text : Form String
  | truth : Form Bool
  | length : Form Duration
  | word : Form Nat
  | rate : Form Double
  | path : Form (Option String)
  | choice {α : Type} [Choice α] : Form α

namespace Form

variable {β : Type}

/-- Is the setting one of the choices that are looked at last? -/
def isChoice : Form β → Bool
  | @choice _ _ => true
  | _ => false

/-- The refusal of the text of a variable. -/
def refusal (name : String) : TextFault → VariablesFault
  | .malformed => .badVariable name
  | .durationOverflow => .durationOverflow

/-- What the text of the named variable stands for.  A path is taken without outer blanks, and a
blank text is no path. -/
def ofText (name : String) : {β : Type} → Form β → String → Except VariablesFault β
  | _, .text, s => .ok s
  | _, .truth, s => (readBool s.toList).mapError (refusal name)
  | _, .length, s => (readDuration s.toList).mapError (refusal name)
  | _, .word, s => (readWord s.toList).mapError (refusal name)
  | _, .rate, s => (readReal s.toList).mapError (refusal name)
  | _, .path, s =>
    .ok (if Text.isBlankText s.toList then none else some (String.ofList (Text.trim s.toList)))
  | _, @choice _ _, s => (Choice.read s.toList).mapError .unsupported

/-- What a tree stands for. -/
def ofDocument : {β : Type} → Form β → Document → Except Document.Fault β
  | _, .text => Document.readText
  | _, .truth => Document.readBool
  | _, .length => documentDuration
  | _, .word => Document.readWord
  | _, .rate => Document.readReal
  | _, .path => Document.readOptionalText
  | _, @choice _ _ => documentChoice

end Form

/-! ### Settings -/

/-- A setting: its place, its form, the name and the default text of its variable, and its key in
the table that the names of the enclosing tables lead to. -/
structure Item (α : Type) extends Place α where
  form : Form Value
  name : String
  default : String
  tables : List String
  key : String

/-- A setting of a record. -/
def item {α β : Type} (name default key : String) (form : Form β) (get : α → β) (put : β → α → α)
    (get_put : ∀ v a, get (put v a) = v := by intros; rfl) : Item α :=
  { Value := β, slot := ⟨get, put, get_put⟩, form, name, default, tables := [], key }

/-- The settings of a service that are in no group. -/
def serviceItems : List (Item Settings) := [
  item "LOG_LEVEL" "info" "log_level" .text (·.logLevel) fun v s => { s with logLevel := v },
  item "CLOSE_TIMEOUT" "10s" "close_timeout" .length
    (·.closeTimeout) fun v s => { s with closeTimeout := v },
  item "APP_NAME" "Service" "app_name" .text (·.appName) fun v s => { s with appName := v },
  item "APP_VERSION" "dev" "app_version" .text
    (·.appVersion) fun v s => { s with appVersion := v },
  item "ENVIRONMENT" "development" "environment" .text
    (·.environment) fun v s => { s with environment := v },
  item "GRPC_ADDRESS" ":9090" "grpc_address" .text
    (·.grpcAddress) fun v s => { s with grpcAddress := v },
  item "HTTP_ADDRESS" ":8080" "http_address" .text
    (·.httpAddress) fun v s => { s with httpAddress := v },
  item "METRICS_ADDRESS" ":9091" "metrics_address" .text
    (·.metricsAddress) fun v s => { s with metricsAddress := v },
  item "PPROF_ADDRESS" ":6060" "pprof_address" .text
    (·.pprofAddress) fun v s => { s with pprofAddress := v },
  item "REFLECTION_ENABLED" "true" "reflection_enabled" .truth
    (·.reflectionEnabled) fun v s => { s with reflectionEnabled := v },
  item "HEALTH_CHECK_ENABLED" "true" "health_check_enabled" .truth
    (·.healthCheckEnabled) fun v s => { s with healthCheckEnabled := v },
  item "SWAGGER_ENABLED" "true" "swagger_enabled" .truth
    (·.swaggerEnabled) fun v s => { s with swaggerEnabled := v },
  item "SWAGGER_DIR" "./api" "swagger_dir" .text
    (·.swaggerDir) fun v s => { s with swaggerDir := v },
  item "SWAGGER_BASE_PATH" "/" "swagger_base_path" .text
    (·.swaggerBasePath) fun v s => { s with swaggerBasePath := v },
  item "SPLASH_ENABLED" "true" "splash_enabled" .truth
    (·.splashEnabled) fun v s => { s with splashEnabled := v }]

/-- The settings of tracing. -/
def tracingItems : List (Item Tracing) := [
  item "TRACING_ENABLED" "false" "enabled" .truth
    (·.enabled) fun v t => { t with enabled := v },
  item "TRACING_BACKEND" "otlp" "backend" .choice
    (·.backend) fun v t => { t with backend := v },
  item "TRACING_ENDPOINT" "localhost:4318" "endpoint" .text
    (·.endpoint) fun v t => { t with endpoint := v },
  item "TRACING_INSECURE" "true" "insecure" .truth
    (·.insecure) fun v t => { t with insecure := v },
  item "TRACING_SAMPLE_RATE" "1.0" "sample_rate" .rate
    (·.sampleRate) fun v t => { t with sampleRate := v },
  item "TRACING_BATCH_SIZE" "512" "batch_size" .word
    (·.batchSize) fun v t => { t with batchSize := v },
  item "TRACING_BATCH_TIMEOUT" "5s" "batch_timeout" .length
    (·.batchTimeout) fun v t => { t with batchTimeout := v },
  item "TRACING_HEADERS" "" "headers" .text (·.headers) fun v t => { t with headers := v }]

/-- The settings of metrics. -/
def metricsItems : List (Item Metrics) := [
  item "METRICS_ENABLED" "false" "enabled" .truth
    (·.enabled) fun v m => { m with enabled := v },
  item "METRICS_BACKEND" "prometheus" "backend" .choice
    (·.backend) fun v m => { m with backend := v },
  item "METRICS_ENDPOINT" "localhost:4318" "endpoint" .text
    (·.endpoint) fun v m => { m with endpoint := v },
  item "METRICS_INSECURE" "true" "insecure" .truth
    (·.insecure) fun v m => { m with insecure := v },
  item "METRICS_PATH" "/metrics" "path" .text (·.path) fun v m => { m with path := v },
  item "METRICS_NAMESPACE" "app" "namespace" .text
    (·.namesp) fun v m => { m with namesp := v }]

/-- The settings of logging. -/
def loggingItems : List (Item Logging) := [
  item "LOGGING_ENABLED" "false" "enabled" .truth
    (·.enabled) fun v l => { l with enabled := v },
  item "LOG_FORMAT" "json" "format" .choice (·.format) fun v l => { l with format := v },
  item "LOG_FILE_PATH" "" "file_path" .path
    (·.filePath) fun v l => { l with filePath := v }]

/-- The settings of profiling. -/
def profilingItems : List (Item Profiling) := [
  item "PROFILING_ENABLED" "false" "enabled" .truth
    (·.enabled) fun v p => { p with enabled := v },
  item "PROFILING_BACKEND" "pprof" "backend" .choice
    (·.backend) fun v p => { p with backend := v },
  item "PROFILING_ENDPOINT" "http://localhost:4040" "endpoint" .text
    (·.endpoint) fun v p => { p with endpoint := v },
  item "PROFILING_SAMPLE_RATE" "1.0" "sample_rate" .rate
    (·.sampleRate) fun v p => { p with sampleRate := v }]

/-! ### Groups -/

/-- The place of all settings of telemetry. -/
def telemetrySlot : Slot Settings Telemetry where
  get := (·.telemetry)
  put := fun v s => { s with telemetry := v }

/-- The place of the settings of tracing among those of telemetry. -/
def tracingSlot : Slot Telemetry Tracing where
  get := (·.tracing)
  put := fun v t => { t with tracing := v }

/-- The place of the settings of metrics among those of telemetry. -/
def metricsSlot : Slot Telemetry Metrics where
  get := (·.metrics)
  put := fun v t => { t with metrics := v }

/-- The place of the settings of logging among those of telemetry. -/
def loggingSlot : Slot Telemetry Logging where
  get := (·.logging)
  put := fun v t => { t with logging := v }

/-- The place of the settings of profiling among those of telemetry. -/
def profilingSlot : Slot Telemetry Profiling where
  get := (·.profiling)
  put := fun v t => { t with profiling := v }

/-- A setting of a record that has a slot of its own, and a table of its own in documents. -/
def Item.within {α β : Type} (table : String) (outer : Slot β α) (i : Item α) : Item β :=
  { Value := i.Value, slot := outer.inner i.slot, form := i.form, name := i.name,
    default := i.default, tables := table :: i.tables, key := i.key }

/-- The settings of telemetry. -/
def telemetryItems : List (Item Telemetry) :=
  tracingItems.map (.within "tracing" tracingSlot) ++
  metricsItems.map (.within "metrics" metricsSlot) ++
  loggingItems.map (.within "logging" loggingSlot) ++
  profilingItems.map (.within "profiling" profilingSlot)

/-- All settings of a service. -/
def items : List (Item Settings) :=
  serviceItems ++ telemetryItems.map (.within "telemetry" telemetrySlot)

/-! ### The places of settings -/

theorem serviceItems_partition :
    Place.Partition (serviceItems.map Item.toPlace ++ [⟨Telemetry, telemetrySlot⟩]) where
  apart := by simp [serviceItems, item, telemetrySlot, Place.apart_iff]
  ext a b h := by
    cases a; cases b
    simp_all [serviceItems, item, telemetrySlot]

theorem telemetry_partition :
    Place.Partition [⟨Tracing, tracingSlot⟩, ⟨Metrics, metricsSlot⟩, ⟨Logging, loggingSlot⟩,
      ⟨Profiling, profilingSlot⟩] where
  apart := by simp [tracingSlot, metricsSlot, loggingSlot, profilingSlot, Place.apart_iff]
  ext a b h := by
    cases a; cases b
    simp_all [tracingSlot, metricsSlot, loggingSlot, profilingSlot]

theorem tracingItems_partition : Place.Partition (tracingItems.map Item.toPlace) where
  apart := by simp [tracingItems, item, Place.apart_iff]
  ext a b h := by
    cases a; cases b
    simp_all [tracingItems, item]

theorem metricsItems_partition : Place.Partition (metricsItems.map Item.toPlace) where
  apart := by simp [metricsItems, item, Place.apart_iff]
  ext a b h := by
    cases a; cases b
    simp_all [metricsItems, item]

theorem loggingItems_partition : Place.Partition (loggingItems.map Item.toPlace) where
  apart := by simp [loggingItems, item, Place.apart_iff]
  ext a b h := by
    cases a; cases b
    simp_all [loggingItems, item]

theorem profilingItems_partition : Place.Partition (profilingItems.map Item.toPlace) where
  apart := by simp [profilingItems, item, Place.apart_iff]
  ext a b h := by
    cases a; cases b
    simp_all [profilingItems, item]

theorem telemetryItems_partition : Place.Partition (telemetryItems.map Item.toPlace) := by
  have h : Place.Partition ([] ++ ⟨Tracing, tracingSlot⟩ :: _) := telemetry_partition
  exact (((h.refine tracingItems_partition).refine metricsItems_partition).refine
    loggingItems_partition).refine profilingItems_partition

/-- **The settings are the places of all items.** -/
theorem items_partition : Place.Partition (items.map Item.toPlace) :=
  serviceItems_partition.refine telemetryItems_partition

end ServiceHost.Settings
