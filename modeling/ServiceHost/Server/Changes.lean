import ServiceHost.Gateway.Routes
import ServiceHost.Lifecycle.Routine
import ServiceHost.Metrics.Registry
import ServiceHost.Rpc.Interceptor
import ServiceHost.Rpc.Server
import ServiceHost.Settings.Basic
import ServiceHost.Text.Blank
/-!
Servers, and how one is put together.

A server is described by a list of changes that are applied in order: the last one to set a field
decides, and services, processes and interceptors add up.  Settings that cannot work are refused at
the end, by the first of the checks that they fail.
-/

namespace ServiceHost

/-- A server: its settings and what it is made of.  The processes in `components` are those of its
owner, and `metrics` holds the registry that it uses. -/
structure Server (W : Type) where
  settings : Settings := {}
  services : List Gateway.Service := []
  components : List (Component W) := []
  interceptors : List Rpc.Interceptor := []
  cors : Option Http.CorsOptions := none
  json : Gateway.JsonOptions := {}
  limits : Rpc.Limits := {}
  telemetry : Bool := false
  metrics : Metrics.State := {}

namespace Server

/-! ### Changes -/

/-- A change to a server. -/
inductive Change (W : Type) where
  | settings (s : Settings)
  | logLevel (s : String)
  | appName (s : String)
  | appVersion (s : String)
  | environment (s : String)
  | grpcAddress (s : String)
  | httpAddress (s : String)
  | metricsAddress (s : String)
  | pprofAddress (s : String)
  | swaggerDir (s : String)
  | swaggerBasePath (s : String)
  | closeTimeout (d : Duration)
  | reflection (enabled : Bool)
  | healthCheck (enabled : Bool)
  | swagger (enabled : Bool)
  | splash (enabled : Bool)
  | services (added : List Gateway.Service)
  | components (added : List (Component W))
  | interceptors (added : List Rpc.Interceptor)
  | limits (l : Rpc.Limits)
  | cors (o : Http.CorsOptions)
  | json (o : Gateway.JsonOptions)
  | telemetry
  | metrics (m : Metrics.State)

variable {W : Type}

/-- The settings after a change.  Saying where the documentation lies also asks for it. -/
def Change.toSettings (s : Settings) : Change W → Settings
  | .settings s' => s'
  | .logLevel v => { s with logLevel := v }
  | .appName v => { s with appName := v }
  | .appVersion v => { s with appVersion := v }
  | .environment v => { s with environment := v }
  | .grpcAddress v => { s with grpcAddress := v }
  | .httpAddress v => { s with httpAddress := v }
  | .metricsAddress v => { s with metricsAddress := v }
  | .pprofAddress v => { s with pprofAddress := v }
  | .swaggerDir v => { s with swaggerDir := v, swaggerEnabled := true }
  | .swaggerBasePath v => { s with swaggerBasePath := v, swaggerEnabled := true }
  | .closeTimeout d => { s with closeTimeout := d }
  | .reflection b => { s with reflectionEnabled := b }
  | .healthCheck b => { s with healthCheckEnabled := b }
  | .swagger b => { s with swaggerEnabled := b }
  | .splash b => { s with splashEnabled := b }
  | _ => s

/-- The server after a change. -/
def change (s : Server W) (c : Change W) : Server W :=
  let s := { s with settings := c.toSettings s.settings }
  match c with
  | .services added => { s with services := s.services ++ added }
  | .components added => { s with components := s.components ++ added }
  | .interceptors added => { s with interceptors := s.interceptors ++ added }
  | .limits l => { s with limits := l }
  | .cors o => { s with cors := some o }
  | .json o => { s with json := o }
  | .telemetry => { s with telemetry := true }
  | .metrics m => { s with metrics := m }
  | _ => s

/-! ### Checks -/

/-- The addresses that must be given, by the names of their fields. -/
def addresses (s : Settings) : List (String × String) :=
  [("grpc_address", s.grpcAddress), ("http_address", s.httpAddress),
    ("metrics_address", s.metricsAddress), ("pprof_address", s.pprofAddress)]

/-- What is wrong with settings, if anything is. -/
def settingsFault? (s : Settings) : Option ConfigFault :=
  if s.closeTimeout.isZero then some .zeroCloseTimeout
  else
    ((addresses s).find? fun (_, address) => Text.isBlankText address.toList).map
      fun (field, _) => .blankAddress field

/-- The server that changes describe. -/
def ofChanges (changes : List (Change W)) : Except HostError (Server W) :=
  let s := changes.foldl change {}
  match settingsFault? s.settings with
  | some fault => .error (.config fault)
  | none => .ok s

end Server

end ServiceHost
