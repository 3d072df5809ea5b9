import ServiceHost.Listener
/-!
The process that serves profiles.  It has no close timeout of its own.
-/

namespace ServiceHost.Profiling

/-- A server of profiles. -/
structure Server where
  address : String

namespace Server

variable {W : Type}

/-- The name of the process. -/
def name : String := "pprof"

/-- The process. -/
def component (s : Server) (slot : Slot W Listener) (traffic : Traffic := {}) : Component W where
  name := name
  prepare := [Listener.binding slot s.address traffic]
  run := Listener.serving slot name traffic
  close := Listener.stopping slot none fun inTime w => (w, Listener.inTimeOrFail name inTime)

end Server

end ServiceHost.Profiling
