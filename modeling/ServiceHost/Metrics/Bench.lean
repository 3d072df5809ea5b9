import ServiceHost.Metrics.Exposition
/-!
Meters at work with several registries: a log of registrations, removals, observations and counts.
-/

namespace ServiceHost.Metrics

/-- The meters there are, and some registries. -/
structure Bench where
  meters : Meters := []
  registries : List Registry := []
  deriving DecidableEq, Repr, Inhabited

namespace Bench

/-- A step.  Meters and registries are named by their places. -/
inductive Step where
  | add (meter : Meter)
  | register (meter registry : Nat)
  | unregister (meter registry : Nat)
  | observe (meter : Nat) (method status : String) (elapsed : Duration)
  | count (meter : Nat) (method status : String)
  | expose (registry : Nat)
  deriving DecidableEq, Repr

/-- What a step gives. -/
inductive Result where
  | done
  | refused (fault : MetricFault)
  | counted (n : Nat)
  | text (s : String)
  deriving DecidableEq, Repr, Inhabited

/-- The result of an operation that may be refused. -/
def Result.ofFault : Option MetricFault → Result
  | some fault => .refused fault
  | none => .done

/-- The registry at a place. -/
def registry (b : Bench) (place : Nat) : Registry :=
  b.registries.getD place []

/-- Uses the meter of calls at a place, if there is one. -/
def onCalls (b : Bench) (place : Nat) (f : CallMeter → CallMeter × Result) : Bench × Result :=
  match b.meters[place]? with
  | some (.calls m) =>
    let (m, r) := f m
    ({ b with meters := b.meters.set place (.calls m) }, r)
  | _ => (b, .done)

/-- Does a step. -/
def step (b : Bench) : Step → Bench × Result
  | .add meter => ({ b with meters := b.meters ++ [meter] }, .done)
  | .register meter r =>
    let (meters, registry, fault) := Metrics.register b.meters (b.registry r) meter
    ({ meters := meters, registries := b.registries.set r registry }, .ofFault fault)
  | .unregister meter r =>
    let (registry, fault) := Metrics.unregister b.meters (b.registry r) meter
    ({ b with registries := b.registries.set r registry }, .ofFault fault)
  | .observe meter method status elapsed =>
    b.onCalls meter fun m => (m.observe method status elapsed, .done)
  | .count meter method status =>
    b.onCalls meter fun m =>
      let (m, n) := m.count method status
      (m, .counted n)
  | .expose r => (b, .text (Metrics.expose b.meters (b.registry r)))

/-- Does steps one after the other. -/
def run (b : Bench) : List Step → Bench × List Result
  | [] => (b, [])
  | s :: rest =>
    let (b, r) := b.step s
    let (b, rs) := run b rest
    (b, r :: rs)

end Bench

end ServiceHost.Metrics
