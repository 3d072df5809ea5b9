import ServiceHost.Decimal.Double
import ServiceHost.Duration
import ServiceHost.Fault
import ServiceHost.Text.Ascii
/-!
Meters: what counts and measures, registered or not.

A version meter shows one labelled gauge once it has been registered.  A call meter counts calls by
method and status and sorts their durations into buckets by method.  Samples stand in the order of
their labels.
-/

namespace ServiceHost.Metrics

open Decimal

/-! ### Histograms -/

/-- The upper bounds of the buckets, each with its text. -/
def bucketBounds : List (String × Double) :=
  [("0.005", .ofDecimal false 5 (-3)), ("0.01", .ofDecimal false 1 (-2)),
    ("0.025", .ofDecimal false 25 (-3)), ("0.05", .ofDecimal false 5 (-2)),
    ("0.1", .ofDecimal false 1 (-1)), ("0.25", .ofDecimal false 25 (-2)),
    ("0.5", .ofDecimal false 5 (-1)), ("1", .ofNat 1), ("2.5", .ofDecimal false 25 (-1)),
    ("5", .ofNat 5), ("10", .ofNat 10)]

/-- How many values fell into each bucket, how many there were, and their sum. -/
structure Histogram where
  buckets : List Nat := bucketBounds.map fun _ => 0
  count : Nat := 0
  sum : Double := .zero false
  deriving DecidableEq, Repr, Inhabited

namespace Histogram

/-- Counts a value in the first bucket whose bound it does not exceed. -/
def bump (x : Double) : List (String × Double) → List Nat → List Nat
  | (_, bound) :: bounds, n :: ns => if x.le bound then (n + 1) :: ns else n :: bump x bounds ns
  | _, ns => ns

/-- Takes in one value. -/
def observe (h : Histogram) (x : Double) : Histogram :=
  { buckets := bump x bucketBounds h.buckets, count := h.count + 1, sum := h.sum.add x }

/-- How many values do not exceed each bound, starting from `acc`. -/
def cumulative (acc : Nat) : List Nat → List Nat
  | [] => []
  | n :: ns => (acc + n) :: cumulative (acc + n) ns

end Histogram

/-- A length of time in seconds: the whole ones and the rest are converted apart. -/
def inSeconds (d : Duration) : Double :=
  (Double.ofNat d.wholeSeconds).add
    ((Double.ofNat d.subsecond).div (Double.ofNat Duration.nanosPerSecond))

/-! ### Labelled samples -/

/-- Labels in their order: by the first, then by the next. -/
def labelsBefore : List String → List String → Bool
  | [], [] => false
  | [], _ :: _ => true
  | _ :: _, [] => false
  | a :: as, b :: bs => Text.precedes a b || (a == b && labelsBefore as bs)

/-- Samples by the values of their labels, in order. -/
abbrev Samples (α : Type) := List (List String × α)

namespace Samples

/-- The sample of some labels. -/
def get {α : Type} (default : α) (labels : List String) (samples : Samples α) : α :=
  (samples.lookup labels).getD default

/-- Changes the sample of some labels, which comes into being with `default` if it is new. -/
def alter {α : Type} (default : α) (labels : List String) (f : α → α) : Samples α → Samples α
  | [] => [(labels, f default)]
  | (l, x) :: rest =>
    if l = labels then (l, f x) :: rest
    else if labelsBefore labels l then (labels, f default) :: (l, x) :: rest
    else (l, x) :: alter default labels f rest

end Samples

/-! ### Meters -/

/-- The version of an application, shown from its first registration on. -/
structure VersionMeter where
  version : String
  shown : Bool := false
  deriving DecidableEq, Repr, Inhabited

/-- Calls by method and status, and their durations by method, under a common name. -/
structure CallMeter where
  namesp : String
  requests : Samples Nat := []
  durations : Samples Histogram := []
  deriving DecidableEq, Repr, Inhabited

namespace CallMeter

/-- A name with the common name in front, unless that is empty. -/
def qualified (namesp name : String) : String :=
  if namesp.isEmpty then name else namesp ++ "_" ++ name

/-- The name of the counter of calls. -/
def requestsName (namesp : String) : String :=
  qualified namesp "grpc_requests_total"

/-- The name of the histogram of durations. -/
def durationsName (namesp : String) : String :=
  qualified namesp "grpc_request_duration_seconds"

/-- May a character stand in the name of a metric, at its beginning or later? -/
def isNameChar (first : Bool) (c : Char) : Bool :=
  c.isAlpha || c == '_' || c == ':' || (!first && c.isDigit)

/-- Is this the name of a metric? -/
def isName : List Char → Bool
  | [] => false
  | c :: cs => isNameChar true c && cs.all (isNameChar false)

/-- A new meter under a common name that can be part of the names of metrics. -/
def create (namesp : String) : Except MetricFault CallMeter :=
  if !isName (requestsName namesp).toList then .error (.badName (requestsName namesp))
  else if !isName (durationsName namesp).toList then .error (.badName (durationsName namesp))
  else .ok { namesp := namesp }

/-- Takes in one call. -/
def observe (m : CallMeter) (method status : String) (elapsed : Duration) : CallMeter :=
  { m with
    requests := m.requests.alter 0 [method, status] (· + 1)
    durations := m.durations.alter {} [method] (·.observe (inSeconds elapsed)) }

/-- The number of calls with the given labels, whose sample comes into being if it is new. -/
def count (m : CallMeter) (method status : String) : CallMeter × Nat :=
  ({ m with requests := m.requests.alter 0 [method, status] id },
    m.requests.get 0 [method, status])

end CallMeter

/-- A meter of either kind. -/
inductive Meter where
  | version (m : VersionMeter)
  | calls (m : CallMeter)
  deriving DecidableEq, Repr, Inhabited

/-- The name of the gauge of versions. -/
def versionName : String := "app_version"

end ServiceHost.Metrics
