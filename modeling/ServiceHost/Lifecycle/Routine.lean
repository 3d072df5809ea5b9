import ServiceHost.Fault
import ServiceHost.Scope
/-!
Routines: what a process does in one of its phases.

A routine is a row of instructions on a shared world `W`.  Between instructions others may act; a
pause lasts until one of its signals is given.  A routine that comes to its end has succeeded.
-/

namespace ServiceHost

/-- The phases of a process. -/
inductive Phase where
  | prepare
  | run
  | close
  deriving DecidableEq, Repr, Inhabited

/-- How a routine ended. -/
inductive Outcome where
  | ok
  | failed (error : ComponentError)
  | panicked
  deriving DecidableEq, Inhabited

/-- The error that an end of a run is reported with, if it is not a success. -/
def Outcome.fault? : Outcome → Option ComponentError
  | .ok => none
  | .failed source => some source
  | .panicked => some (.text "process panicked")

/-- What an acting routine knows about time and its scope. -/
structure Moment where
  now : Nat
  cancelled : Bool
  done : Bool
  remaining : Option Nat
  /-- The time that the scope had left when the routine began. -/
  allowance : Option Nat
  deriving DecidableEq, Repr, Inhabited

/-- What a pause waits for. -/
inductive Signal (W : Type) where
  /-- So much time has passed since the pause began.  The length may depend on the time that the
  scope had left when the routine began; without a length the signal is never given. -/
  | elapsed (delay : Option Nat → Option Nat)
  /-- The scope is done. -/
  | done
  /-- The world satisfies a condition. -/
  | holds (condition : W → Bool)

/-- One instruction. -/
inductive Instruction (W : Type) where
  /-- Waits for the first of some signals. -/
  | pause (signals : List (Signal W))
  /-- Changes the world, and may end the routine. -/
  | act (effect : Moment → W → W × Option Outcome)
  /-- Cancels a scope: the routine's own one, or the one that was handed out for the given phase, of
  which anyone may have kept a clone.  Without a delay that is done at once; with one it is left to
  somebody who goes on in the background when the routine has ended. -/
  | cancel (kept : Option Phase := none) (later : Option Nat := none)

/-- A row of instructions. -/
abbrev Routine (W : Type) := List (Instruction W)

namespace Routine

variable {W : Type}

/-- Waits for a fixed time. -/
def sleep (nanos : Nat) : Routine W :=
  [.pause [.elapsed fun _ => some nanos]]

/-- Waits until the scope is done. -/
def untilDone : Routine W :=
  [.pause [.done]]

/-- Waits for ever. -/
def forever : Routine W :=
  [.pause []]

/-- Ends in the given way. -/
def finish (o : Outcome) : Routine W :=
  [.act fun _ w => (w, some o)]

/-- Changes the world and goes on. -/
def change (f : W → W) : Routine W :=
  [.act fun _ w => (f w, none)]

/-- Fails with the error, if there is one. -/
def failWith (error : Option ComponentError) : Routine W :=
  match error with
  | some e => finish (.failed e)
  | none => []

end Routine

/-- A process: what it does to prepare, to run and to shut down. -/
structure Component (W : Type) where
  name : String := "process"
  prepare : Routine W := []
  run : Routine W := []
  close : Routine W := []

namespace Component

variable {W : Type}

/-- What a process does in a phase. -/
def code (p : Component W) : Phase → Routine W
  | .prepare => p.prepare
  | .run => p.run
  | .close => p.close

/-- In one phase the process cancels the scope of a phase, which may be another one: at once, or
later when there is a delay. -/
def Cancels (p : Component W) (phase : Phase) (later : Option Nat) (target : Phase) : Prop :=
  ∃ kept : Option Phase, .cancel kept later ∈ p.code phase ∧ kept.getD phase = target

end Component

end ServiceHost
