import ServiceHost.Gateway.Routes
import ServiceHost.Listener
/-!
The process that serves a gateway.
-/

namespace ServiceHost.Gateway

/-- How a gateway without routes ends the preparation of its process. -/
def Fault.outcome : Fault → Outcome
  | .registration source => .failed (.host (.gateway source))
  | .cors fault => .failed (.host (.config (.cors fault)))
  | .panic => .panicked

/-- A server of a gateway. -/
structure Server where
  address : String
  closeTimeout : Nat
  gateway : Plan
  files : Files := {}

namespace Server

variable {W : Type}

/-- The name of the process. -/
def name : String := "gateway"

/-- How the routes end the preparation, if they cannot be made. -/
def routesFault? (s : Server) : Option Outcome :=
  match s.gateway.site s.files with
  | .ok _ => none
  | .error fault => some fault.outcome

/-- The process. -/
def component (s : Server) (slot : Slot W Listener) (traffic : Traffic := {}) : Component W where
  name := name
  prepare := [.act fun _ w => (w, s.routesFault?), Listener.binding slot s.address traffic]
  run := Listener.serving slot name traffic
  close := Listener.stopping slot (some s.closeTimeout) fun inTime w =>
    (w, Listener.inTimeOrFail name inTime)

end Server

end ServiceHost.Gateway
