import ServiceHost.Lifecycle.Schedule
/-!
Sessions: the phases of a single process called by hand.

All calls share one scope, except for shutdowns, each of which has a scope of its own.  Of the tasks
that run the process the latest can be joined, once.
-/

namespace ServiceHost

/-- A process, the engine in which it is called, the shared scope, and the place of the task that
can be joined. -/
structure Session (W : Type) where
  engine : Engine W
  component : Component W
  shared : Scope
  task : Option Nat := none

namespace Session

variable {W : Type}

/-- A session without calls so far. -/
def start (component : Component W) (world : W) : Session W :=
  let (shared, tokens) := Scope.background {}
  { engine := { world := world, tokens := tokens }, component := component, shared := shared }

/-- The world of the session. -/
def world (s : Session W) : W :=
  s.engine.world

/-- Changes the world. -/
def modify (s : Session W) (f : W → W) : Session W :=
  { s with engine := { s.engine with world := f s.engine.world } }

/-- How a call ended, and the time that it took. -/
structure Called where
  returned : Engine.Returned
  elapsed : Nat

/-- Calls a phase within a scope.  When it never ends, the caller gives up after `patience`. -/
def call (sch : Schedule W) (patience : Nat) (phase : Phase) (scope : Scope) (code : Routine W)
    (s : Session W) : Session W × Called :=
  let began := s.engine.now
  match s.engine.call sch phase 0 scope code with
  | (e, .never) =>
    ({ s with engine := { e with now := began + patience } }, ⟨.never, patience⟩)
  | (e, r) => ({ s with engine := e }, ⟨r, e.now - began⟩)

/-- A scope of its own, with a timeout if one is given; `none` when the clock cannot show its
deadline. -/
def scope (timeout : Option Nat) (s : Session W) : Option (Session W × Scope) :=
  let made := match timeout with
    | some d => Scope.withTimeout s.engine.tokens s.engine.now d
    | none => some (Scope.background s.engine.tokens)
  made.map fun (scope, tokens) => ({ s with engine := { s.engine with tokens := tokens } }, scope)

/-- Prepares the process. -/
def prepare (sch : Schedule W) (patience : Nat) (s : Session W) : Session W × Called :=
  s.call sch patience .prepare s.shared s.component.prepare

/-- Starts a task that runs the process, lets it act until nobody can act, and tells whether it has
ended. -/
def run (sch : Schedule W) (s : Session W) : Session W × Bool :=
  let (scope, tokens) := Scope.child s.engine.tokens s.shared
  let (e, k) := ({ s.engine with tokens := tokens }).spawn 0 scope s.component.run
  let e := e.settle sch
  ({ s with engine := e, task := some k }, (e.ended? k).isSome)

/-- Cancels the shared scope. -/
def cancel (s : Session W) : Session W :=
  { s with engine := s.engine.cancel s.shared.token }

/-- What joining the latest task gives: nothing to join, a task that still runs, or its end. -/
inductive Joined where
  | none
  | pending
  | ended (outcome : Outcome)
  deriving Inhabited

/-- Waits for the latest task, at most for the given time. -/
def join (sch : Schedule W) (limit : Nat) (s : Session W) : Session W × Joined :=
  match s.task with
  | none => (s, .none)
  | some k =>
    let e := s.engine.join sch k limit
    match e.ended? k with
    | none => ({ s with engine := e }, .pending)
    | some outcome => ({ s with engine := e, task := none }, .ended outcome)

/-- Shuts the process down. -/
def close (sch : Schedule W) (patience : Nat) (timeout : Option Nat) (s : Session W) :
    Option (Session W × Called) :=
  (s.scope timeout).map fun (s, scope) => s.call sch patience .close scope s.component.close

end Session

end ServiceHost
