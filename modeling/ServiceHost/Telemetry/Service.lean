import ServiceHost.Telemetry.Setup
import ServiceHost.Telemetry.Shutdown
/-!
The process of telemetry.  It has nothing to do while it runs.
-/

namespace ServiceHost.Telemetry.Service

variable {W : Type}

/-- The process. -/
def component (s : Service) (p : Places W) (coloured : Bool := true) (c : Closings := {}) :
    Component W where
  name := "telemetry"
  prepare := s.prepare p coloured
  run := Routine.untilDone
  close := s.close p c

end ServiceHost.Telemetry.Service
