import ServiceHost.Metrics.Meter
/-!
Registries of metrics.

A registry is a list of collectors, each the name of a family of metrics and the part of a meter
that holds its values.  The name alone decides: a second collector of one name is refused, and the
one registered under a name is removed whoever asks.  Meters keep their values apart from
registries, so that the same meter can be in several.
-/

namespace ServiceHost.Metrics

/-- The part of a meter that one collector shows. -/
inductive Part where
  | version
  | requests
  | durations
  deriving DecidableEq, Repr, Inhabited

/-- A collector: its name, the place of its meter, and the part it shows. -/
structure Collector where
  name : String
  meter : Nat
  part : Part
  deriving DecidableEq, Repr, Inhabited

/-- The collectors of a registry. -/
abbrev Registry := List Collector

namespace Registry

/-- Is a collector of this name registered? -/
def has (r : Registry) (name : String) : Bool :=
  r.any (·.name == name)

/-- Adds a collector unless its name is taken. -/
def add (r : Registry) (c : Collector) : Except MetricFault Registry :=
  if r.has c.name then .error .duplicate else .ok (r ++ [c])

/-- Removes the collector of a name. -/
def remove (r : Registry) (name : String) : Except MetricFault Registry :=
  if r.has name then .ok (r.filter (·.name != name)) else .error .notRegistered

/-- A registry has a name after an addition if it had it before or the name was added. -/
theorem has_of_add {r s : Registry} {c : Collector} (h : r.add c = .ok s) (name : String) :
    s.has name = (r.has name || c.name == name) := by
  unfold add at h
  split at h
  · cases h
  · injection h with h
    subst h
    simp [has]

/-- Adds collectors one after the other; those before a refused one stay. -/
def addAll : List Collector → Registry → Registry × Option MetricFault
  | [], r => (r, none)
  | c :: cs, r =>
    match r.add c with
    | .ok r => addAll cs r
    | .error fault => (r, some fault)

/-- Removes collectors one after the other; those before a missing one are gone. -/
def removeAll : List String → Registry → Registry × Option MetricFault
  | [], r => (r, none)
  | name :: names, r =>
    match r.remove name with
    | .ok r => removeAll names r
    | .error fault => (r, some fault)

end Registry

/-- The collectors of a meter at a place. -/
def Meter.collectors (place : Nat) : Meter → List Collector
  | .version _ => [⟨versionName, place, .version⟩]
  | .calls m =>
    [⟨CallMeter.requestsName m.namesp, place, .requests⟩,
      ⟨CallMeter.durationsName m.namesp, place, .durations⟩]

/-- The meter after its registration, which a version meter shows. -/
def Meter.registered : Meter → Meter
  | .version m => .version { m with shown := true }
  | .calls m => .calls m

/-- The meters there are, each at its place. -/
abbrev Meters := List Meter

/-- Registers the meter at a place. -/
def register (meters : Meters) (r : Registry) (place : Nat) :
    Meters × Registry × Option MetricFault :=
  match meters[place]? with
  | none => (meters, r, none)
  | some m =>
    match Registry.addAll (m.collectors place) r with
    | (r, none) => (meters.set place m.registered, r, none)
    | (r, some fault) => (meters, r, some fault)

/-- Registers the meters at some places, up to the first that is refused. -/
def registerAll : List Nat → Meters → Registry → Except MetricFault (Meters × Registry)
  | [], meters, r => .ok (meters, r)
  | place :: places, meters, r =>
    match register meters r place with
    | (meters, r, none) => registerAll places meters r
    | (_, _, some fault) => .error fault

/-- Removes the collectors of the meter at a place. -/
def unregister (meters : Meters) (r : Registry) (place : Nat) : Registry × Option MetricFault :=
  match meters[place]? with
  | none => (r, none)
  | some m => Registry.removeAll ((m.collectors place).map (·.name)) r

/-! ### Meters with a registry -/

/-- The meters there are, and a registry of some of them. -/
structure State where
  meters : Meters := []
  registry : Registry := []
  deriving DecidableEq, Repr, Inhabited

namespace State

/-- Adds a meter, and tells its place. -/
def add (s : State) (m : Meter) : State × Nat :=
  ({ s with meters := s.meters ++ [m] }, s.meters.length)

/-- Registers the meter at a place. -/
def register (s : State) (place : Nat) : State × Option MetricFault :=
  match Metrics.register s.meters s.registry place with
  | (meters, registry, fault) => ({ meters := meters, registry := registry }, fault)

/-- Removes the collectors of the meter at a place. -/
def unregister (s : State) (place : Nat) : State × Option MetricFault :=
  match Metrics.unregister s.meters s.registry place with
  | (registry, fault) => ({ s with registry := registry }, fault)

end State

end ServiceHost.Metrics
