import ServiceHost.Telemetry.Basic
/-!
Shutting telemetry down: every part that has been set up is ended once, whatever becomes of the
others, and all failures are reported together.
-/

namespace ServiceHost.Telemetry

/-! ### How parts end -/

/-- How the end of a part goes, once it is asked for. -/
inductive Ending where
  | ok
  | failed (text : String)
  | panicked (text : String)
  deriving DecidableEq, Repr, Inhabited

/-- How long the end of a part takes, if it ever comes, and how it goes. -/
structure Closing where
  duration : Option Nat := some 0
  ending : Ending := .ok
  deriving DecidableEq, Repr, Inhabited

/-- The ends of the parts that have one. -/
structure Closings where
  traces : Closing := {}
  meters : Closing := {}
  profiler : Closing := {}
  deriving DecidableEq, Repr, Inhabited

/-- The budget of a shutdown whose scope has no deadline. -/
def defaultBudget : Nat := 5 * Duration.nanosPerSecond

/-- Why the end of a part fails within a budget, if it does. -/
def Closing.failure? (c : Closing) (budget : Nat) : Option String :=
  if c.duration.any (· ≤ budget) then
    match c.ending with
    | .ok => none
    | .failed text => some text
    | .panicked text => some ("task failed: " ++ text)
  else some "deadline exceeded"

/-! ### The shutdown -/

namespace Service

variable {W : Type}

/-- Ends a part if it has been set up: waits within the budget and notes a failure. -/
def ending (p : Places W) (label : String) (isSetUp : State → Bool) (clear : State → State)
    (c : Closing) : Routine W := [
  .pause [.holds fun w => !isSetUp (p.state.get w), .elapsed fun _ => c.duration,
    .elapsed fun allowance => some (allowance.getD defaultBudget)],
  .act fun m w =>
    let st := p.state.get w
    if isSetUp st then
      let failures := (c.failure? (m.allowance.getD defaultBudget)).map fun text =>
        label ++ ": " ++ text
      (p.state.put { clear st with failures := st.failures ++ failures.toList } w, none)
    else (w, none)]

/-- Removes the meter of calls if it has been registered, and notes a failure. -/
def unregistering (s : Service) (p : Places W) : Instruction W :=
  .act fun _ w =>
    let st := p.state.get w
    match st.registered, s.meter with
    | true, some place =>
      let (m, fault) := (p.metrics.get w).unregister place
      let failures := fault.map fun f => "metrics unregister: " ++ f.message
      (p.state.put { st with registered := false, failures := st.failures ++ failures.toList }
        (p.metrics.put m w), none)
    | _, _ => (w, none)

/-- Reports the failures of a shutdown. -/
def reporting (p : Places W) : Instruction W :=
  .act fun _ w =>
    let st := p.state.get w
    let w := p.state.put { st with failures := [] } w
    if st.failures.isEmpty then (w, some .ok)
    else (w, some (.failed (.host (.telemetryShutdown st.failures))))

/-- The shutdown. -/
def close (s : Service) (p : Places W) (c : Closings) : Routine W :=
  ending p "trace provider shutdown" (·.traces) (fun st => { st with traces := false }) c.traces ++
  ending p "meter provider shutdown" (·.meters) (fun st => { st with meters := false }) c.meters ++
  ending p "profiler shutdown" (·.profiler) (fun st => { st with profiler := false }) c.profiler ++
  [s.unregistering p, reporting p]

end Service

end ServiceHost.Telemetry
