import ServiceHost.Lifecycle.Engine
/-!
What the history of an engine tells: which phases were called, when tasks ended, and which stages
were entered.
-/

namespace ServiceHost.Engine

variable {W : Type}

/-- A call of a phase of a process. -/
structure Call where
  index : Nat
  time : Nat
  stage : Stage
  moment : Moment
  deriving DecidableEq, Repr, Inhabited

/-- The call that an entry records, if it is one of the given phase. -/
def Call.ofEntry? (phase : Phase) (e : Entry) : Option Call :=
  match e.event with
  | .called p index moment =>
    if p = phase then some { index := index, time := e.time, stage := e.stage, moment := moment }
    else none
  | _ => none

/-- The calls of a phase, in order. -/
def calls (phase : Phase) (e : Engine W) : List Call :=
  e.entries.filterMap (Call.ofEntry? phase)

/-- When the run of a process began, if it did. -/
def started? (e : Engine W) (index : Nat) : Option Call :=
  (e.calls .run).find? (·.index == index)

/-- Is this the end of the run of a process? -/
def endsRun (index : Nat) (entry : Entry) : Bool :=
  match entry.event with
  | .returned .run i _ => i == index
  | _ => false

/-- When the run of a process ended by itself, if it did. -/
def endTime? (e : Engine W) (index : Nat) : Option Nat :=
  (e.entries.find? (endsRun index)).map Entry.time

/-- The announcements, in order: when each was made, and in which stage. -/
def announcements (e : Engine W) : List (Nat × Stage) :=
  e.entries.filterMap fun x => match x.event with
    | .announced => some (x.time, x.stage)
    | _ => none

/-- The stages that were entered, in order. -/
def stages (e : Engine W) : List Stage :=
  e.entries.filterMap fun x => match x.event with
    | .published s => some s
    | _ => none

end ServiceHost.Engine
