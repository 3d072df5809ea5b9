import ServiceHost.Listener
import ServiceHost.Metrics.Page
/-!
The process that serves the pages of a registry.

It registers the version of the application when it is prepared, and removes it when it is shut
down, whether its connections have ended in time or not.
-/

namespace ServiceHost.Metrics

/-- A server of a registry's pages.  `version` is the place of the version meter. -/
structure Server where
  address : String
  closeTimeout : Nat
  version : Nat
  paths : List String := [defaultPath]

namespace Server

variable {W : Type}

/-- The name of the process. -/
def name : String := "metrics"

/-- Registers the version. -/
def registering (s : Server) (metrics : Slot W State) : Instruction W :=
  .act fun _ w =>
    match (metrics.get w).register s.version with
    | (m, fault) => (metrics.put m w, fault.map fun f => .failed (.host (.metrics f)))

/-- Removes the version; it may be gone already. -/
def withoutVersion (s : Server) (m : State) : State :=
  (m.unregister s.version).1

/-- Serving without routes is impossible and stops the process. -/
def routing (s : Server) : Instruction W :=
  .act fun _ w => (w, if (pageRouter s.paths).isSome then none else some .panicked)

/-- The process. -/
def component (s : Server) (slot : Slot W Listener) (metrics : Slot W State)
    (traffic : Traffic := {}) : Component W where
  name := name
  prepare := [Listener.binding slot s.address traffic, s.registering metrics]
  run := s.routing :: Listener.serving slot name traffic
  close := Listener.stopping slot (some s.closeTimeout) fun inTime w =>
    (metrics.modify s.withoutVersion w, Listener.inTimeOrFail name inTime)

end Server

end ServiceHost.Metrics
