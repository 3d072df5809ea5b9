import ServiceHost.Listener
import ServiceHost.Rpc.Description
/-!
The process that serves remote calls.

It checks the descriptions of its services before it binds its listener.  Its shutdown always
succeeds: connections that do not end within the budget are cut off.
-/

namespace ServiceHost.Rpc

/-- Limits on connections; without a number there is no limit. -/
structure Limits where
  streams : Option Nat := some 1000
  callsPerConnection : Option Nat := none
  deriving DecidableEq, Repr, Inhabited

/-- A server of remote calls. -/
structure Server where
  address : String
  closeTimeout : Nat
  descriptions : List (List UInt8) := []
  reflection : Bool := false

namespace Server

variable {W : Type}

/-- The name of the process. -/
def name : String := "grpc"

/-- Why the server cannot describe its services, if it is to do so. -/
def descriptionFault? (s : Server) : Option ComponentError :=
  if s.reflection then
    (Description.fault? s.descriptions).map fun fault =>
      .text ("failed to build reflection service: " ++ fault.message)
  else none

/-- The process. -/
def component (s : Server) (slot : Slot W Listener) (traffic : Traffic := {}) : Component W where
  name := name
  prepare :=
    [.act fun _ w => (w, s.descriptionFault?.map .failed), Listener.binding slot s.address traffic]
  run := Listener.serving slot name traffic
  close := Listener.stopping slot (some s.closeTimeout) fun _ w => (w, .ok)

end Server

end ServiceHost.Rpc
