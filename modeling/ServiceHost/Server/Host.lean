import ServiceHost.Listener
import ServiceHost.Telemetry.Service
/-!
The world that the processes of a server share.
-/

namespace ServiceHost

/-- Everything that the processes of a server work on. -/
structure Host where
  metrics : Metrics.State := {}
  grpc : Listener := {}
  gateway : Listener := {}
  pages : Listener := {}
  profiles : Listener := {}
  telemetry : Telemetry.State := {}
  journal : Logging.Journal := {}
  files : Files := {}
  /-- What has been written to the standard output. -/
  printed : String := ""
  deriving Inhabited

namespace Host

/-- The meters and the registry. -/
def metricsSlot : Slot Host Metrics.State where
  get h := h.metrics
  put m h := { h with metrics := m }

/-- The listener for remote calls. -/
def grpcSlot : Slot Host Listener where
  get h := h.grpc
  put l h := { h with grpc := l }

/-- The listener of the gateway. -/
def gatewaySlot : Slot Host Listener where
  get h := h.gateway
  put l h := { h with gateway := l }

/-- The listener of the metrics pages. -/
def pagesSlot : Slot Host Listener where
  get h := h.pages
  put l h := { h with pages := l }

/-- The listener for profiles. -/
def profilesSlot : Slot Host Listener where
  get h := h.profiles
  put l h := { h with profiles := l }

/-- The places of telemetry. -/
def telemetryPlaces : Telemetry.Places Host where
  state := { get := fun h => h.telemetry, put := fun s h => { h with telemetry := s } }
  metrics := metricsSlot
  journal := { get := fun h => h.journal, put := fun j h => { h with journal := j } }
  files := { get := fun h => h.files, put := fun fs h => { h with files := fs } }

/-- Writes a text to the standard output. -/
def print (s : String) (h : Host) : Host :=
  { h with printed := h.printed ++ s }

end Host

end ServiceHost
