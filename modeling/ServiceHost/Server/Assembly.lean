import ServiceHost.Banner
import ServiceHost.Gateway.Server
import ServiceHost.Lifecycle.Supervisor
import ServiceHost.Metrics.Server
import ServiceHost.Profiling.Server
import ServiceHost.Server.Changes
import ServiceHost.Server.Host
/-!
From a server to the processes that a supervisor runs: the server of remote calls, the gateway, the
metrics pages, the profiles, telemetry if it is enabled, and then the processes of the owner.
-/

namespace ServiceHost.Server

/-- What a server meets where it runs: the name of the machine, the first reading of its clock, its
files, whether its output is coloured, the network, and how the parts of telemetry end. -/
structure Site where
  hostname : String
  clock : Nat := 0
  files : Files := {}
  coloured : Bool := true
  grpc : Traffic := {}
  gateway : Traffic := {}
  pages : Traffic := {}
  profiles : Traffic := {}
  closings : Telemetry.Closings := {}

/-! ### Processes -/

/-- The server of remote calls. -/
def grpcServer (s : Server Host) : Rpc.Server where
  address := s.settings.grpcAddress
  closeTimeout := s.settings.closeTimeout.nanos
  descriptions := s.services.filterMap (·.descriptor)
  reflection := s.settings.reflectionEnabled

/-- The gateway. -/
def gatewayServer (s : Server Host) (files : Files) : Gateway.Server where
  address := s.settings.httpAddress
  closeTimeout := s.settings.closeTimeout.nanos
  gateway := {
    services := s.services
    grpcAddress := s.settings.grpcAddress
    cors := s.cors
    docs := if s.settings.swaggerEnabled then
        some { dir := s.settings.swaggerDir, basePath := s.settings.swaggerBasePath }
      else none
    json := s.json }
  files := files

/-- The paths of the metrics pages: the default one, and that of telemetry if it publishes
metrics. -/
def metricsPaths (s : Server Host) : List String :=
  if s.telemetry && Telemetry.countsCalls s.settings then
    Metrics.addPath [Metrics.defaultPath] s.settings.telemetry.metrics.path
  else [Metrics.defaultPath]

/-- The metrics pages, with the version meter at the given place. -/
def metricsServer (s : Server Host) (version : Nat) : Metrics.Server where
  address := s.settings.metricsAddress
  closeTimeout := s.settings.closeTimeout.nanos
  version := version
  paths := s.metricsPaths

/-- The profiles. -/
def profilingServer (s : Server Host) : Profiling.Server where
  address := s.settings.pprofAddress

/-- Telemetry, if it is enabled, and the meters with its own among them. -/
def telemetryService (s : Server Host) :
    Except MetricFault (Option Telemetry.Service × Metrics.State) :=
  if s.telemetry then (Telemetry.Service.create s.settings s.metrics).map fun (t, m) => (some t, m)
  else .ok (none, s.metrics)

/-! ### The banner -/

/-- What the server offers. -/
def features (s : Server Host) (telemetry : Option Telemetry.Service) : List String :=
  (if s.settings.reflectionEnabled then ["gRPC Reflection"] else []) ++
  (if s.settings.healthCheckEnabled then ["Health Checks"] else []) ++
  (if s.cors.isSome then ["CORS"] else []) ++
  ((telemetry.map (·.features)).getD [])

/-- The banner of the server on a machine. -/
def banner (s : Server Host) (hostname : String) (telemetry : Option Telemetry.Service) :
    Banner where
  appName := s.settings.appName
  appVersion := s.settings.appVersion
  environment := s.settings.environment
  hostname := hostname
  grpcAddress := s.settings.grpcAddress
  httpAddress := s.settings.httpAddress
  metricsAddress := s.settings.metricsAddress
  pprofAddress := s.settings.pprofAddress
  swagger := s.settings.swaggerEnabled
  features := s.features telemetry

/-! ### Assembly -/

/-- The processes that every server has, in order. -/
def systemComponents (s : Server Host) (site : Site) (version : Nat) : List (Component Host) :=
  [s.grpcServer.component Host.grpcSlot site.grpc,
    (s.gatewayServer site.files).component Host.gatewaySlot site.gateway,
    (s.metricsServer version).component Host.pagesSlot Host.metricsSlot site.pages,
    s.profilingServer.component Host.profilesSlot site.profiles]

/-- The supervisor of the server's processes, and the meters that they use. -/
def assemble (s : Server Host) (site : Site) :
    Except HostError (Supervisor Host × Metrics.State) :=
  match s.telemetryService with
  | .error fault => .error (.metrics fault)
  | .ok (telemetry, metrics) =>
    let (metrics, version) := metrics.add (.version { version := s.settings.appVersion })
    let processes := s.systemComponents site version ++
      (telemetry.map fun t =>
        t.component Host.telemetryPlaces site.coloured site.closings).toList ++ s.components
    .ok ({ processes := processes
           closeTimeout := s.settings.closeTimeout.nanos
           announcer := if s.settings.splashEnabled then
               some (Host.print ((s.banner site.hostname telemetry).write ++ "\n"))
             else none }, metrics)

/-- The host of a server before its run. -/
def newHost (site : Site) (metrics : Metrics.State) (journal : Logging.Journal) : Host where
  metrics := metrics
  journal := journal
  files := site.files

/-- Runs the server within a scope. -/
def run (sch : Schedule Host) (s : Server Host) (site : Site) (journal : Logging.Journal)
    (outer : Scope) (tokens : Tokens) (outside : List (Nat × Token)) :
    Engine Host × Supervisor.Ending :=
  match s.assemble site with
  | .error e =>
    (Supervisor.begin (newHost site s.metrics journal) tokens outside site.clock,
      .returned (.error e))
  | .ok (sup, metrics) =>
    sup.run sch outer (Supervisor.begin (newHost site metrics journal) tokens outside site.clock)

end ServiceHost.Server
