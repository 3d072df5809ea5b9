import ServiceHost.Address
import ServiceHost.Lifecycle.Slot
/-!
Listeners: what the servers of a host have in common.

A listener is bound when its server is prepared, if the system lets it be.  Serving takes it, at
most once for each time it was bound, and goes on until it is asked to stop, or the server's scope
is done, and the connections have come to an end.  Stopping asks for that and waits within a budget;
when the budget is used up, serving is forced to end.
-/

namespace ServiceHost

/-! ### Addresses to listen on -/

/-- Why nothing can listen on an address: it must name a port, and the port must be a number of 16
bits. -/
def Address.listenFault? (a : List Char) : Option SystemFault :=
  match Text.splitLast ':' a with
  | none => some .addressWithoutPort
  | some (_, port) =>
    match Numeral.unsigned (Numeral.maxUnsigned 16) port with
    | .ok _ => none
    | .error _ => some .badPort

/-! ### The state of a listener -/

/-- A listener.  `waiting` says that it is bound and that nothing serves on it yet. -/
structure Listener where
  waiting : Bool := false
  everBound : Bool := false
  stopRequested : Bool := false
  forced : Bool := false
  stopped : Bool := false
  deriving DecidableEq, Repr, Inhabited

namespace Listener

/-- Binds a listener to an address, which the system may refuse though it is well written. -/
def bind (l : Listener) (address : String) (refusal : Option SystemFault := none) :
    Except HostError Listener :=
  let a := Address.bindAddress address
  match (Address.listenFault? a.toList).or refusal with
  | some fault => .error (.bind a fault)
  | none => .ok { l with waiting := true, everBound := true }

/-- Takes a bound listener in order to serve on it. -/
def take? (l : Listener) : Option Listener :=
  if l.waiting then some { l with waiting := false } else none

/-- Is serving asked to come to an end? -/
def isEnding (l : Listener) : Bool :=
  l.stopRequested || l.forced

/-- Serving has ended. -/
def markStopped (l : Listener) : Listener :=
  { l with stopped := true }

/-- Asks for the end. -/
def requestStop (l : Listener) : Listener :=
  { l with stopRequested := true }

/-- Is there nothing to wait for once the end is asked for? -/
def stopsAtOnce (l : Listener) : Bool :=
  l.waiting || l.stopped

/-- Gives the listener up, on which then nothing can serve that does not do so yet. -/
def drop (l : Listener) : Listener :=
  { l with waiting := false }

/-- Forces serving to end. -/
def force (l : Listener) : Listener :=
  { l with forced := true }

end Listener

/-! ### Serving and stopping -/

/-- What a server meets on the network: whether it may listen, and what its connections do. -/
structure Traffic where
  /-- Why the system does not let it listen: a port that is in use, a host that nobody knows.  The
  answer depends on when it is asked. -/
  refusal : Nat → Option SystemFault := fun _ => none
  /-- How long the connections go on after the end was asked for; without a length, until they are
  forced to end. -/
  linger : Option Nat := some 0
  /-- When, counted from the beginning, and with which error serving fails by itself. -/
  failure : Option (Nat × HostError) := none

namespace Listener

variable {W : Type}

/-- Binds the listener of a slot. -/
def binding (slot : Slot W Listener) (address : String) (traffic : Traffic) : Instruction W :=
  .act fun m w =>
    match (slot.get w).bind address (traffic.refusal m.now) with
    | .ok l => (slot.put l w, none)
    | .error e => (w, some (.failed (.host e)))

/-- Serves until the end. -/
def serving (slot : Slot W Listener) (name : String) (traffic : Traffic) : Routine W := [
  .act fun _ w =>
    match (slot.get w).take? with
    | some l => (slot.put l w, none)
    | none => (w, some (.failed (.host (.notPrepared name)))),
  .pause [.holds fun w => (slot.get w).isEnding, .done,
    .elapsed fun _ => traffic.failure.map (·.1)],
  .act fun m w =>
    match (slot.get w).isEnding || m.done, traffic.failure with
    | false, some (_, error) => (slot.modify markStopped w, some (.failed (.host error)))
    | _, _ => (w, none),
  .pause [.elapsed fun _ => traffic.linger, .holds fun w => (slot.get w).forced],
  .act fun _ w => (slot.modify markStopped w, some .ok)]

/-- The budget of a shutdown: the time left in its scope and the close timeout, whichever is less.
One that is missing does not count. -/
def budget (closeTimeout allowance : Option Nat) : Option Nat :=
  match allowance, closeTimeout with
  | some a, some c => some (min a c)
  | some a, none => some a
  | none, c => c

/-- Asks for the end, waits for it within the budget, and forces it afterwards.  `finish` is told
whether the end came in time. -/
def stopping (slot : Slot W Listener) (closeTimeout : Option Nat)
    (finish : Bool → W → W × Outcome) : Routine W :=
  let finished (inTime : Bool) (w : W) : W × Option Outcome :=
    let (w, o) := finish inTime w
    (w, some o)
  [ .act fun _ w => (slot.modify requestStop w, none),
    .act fun _ w =>
      let atOnce := (slot.get w).stopsAtOnce
      let w := slot.modify drop w
      if atOnce then finished true w else (w, none),
    .pause [.holds fun w => (slot.get w).stopped, .elapsed (budget closeTimeout)],
    .act fun _ w =>
      if (slot.get w).stopped then finished true w else finished false (slot.modify force w) ]

/-- A shutdown that fails when the end did not come in time. -/
def inTimeOrFail (name : String) (inTime : Bool) : Outcome :=
  if inTime then .ok else .failed (.host (.shutdownTimeout name))

end Listener

end ServiceHost
