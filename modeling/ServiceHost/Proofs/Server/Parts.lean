import ServiceHost.Server.Changes
/-!
What a list of changes makes of a server, value by value.

A server is made of settings and other single values, which a change may set, and of lists, to which
a change may add.  So after any number of changes each value is the last one given for it
(`get_made`), each list holds what was given for it in order (`roll_made`), and two neighbouring
changes that have nothing in common may be swapped (`Change.Apart.made_swap`).
-/

namespace ServiceHost

/-! ### Values -/

/-- The settings of a service, one by one. -/
inductive Settings.Key where
  | logLevel
  | closeTimeout
  | appName
  | appVersion
  | environment
  | grpcAddress
  | httpAddress
  | metricsAddress
  | pprofAddress
  | reflection
  | healthCheck
  | swagger
  | swaggerDir
  | swaggerBasePath
  | splash
  | telemetry
  deriving DecidableEq

namespace Settings.Key

/-- The type of a setting. -/
def Value : Key → Type
  | closeTimeout => Duration
  | reflection | healthCheck | swagger | splash => Bool
  | telemetry => Settings.Telemetry
  | _ => String

/-- A setting. -/
def get (s : Settings) : (k : Key) → k.Value
  | logLevel => s.logLevel
  | closeTimeout => s.closeTimeout
  | appName => s.appName
  | appVersion => s.appVersion
  | environment => s.environment
  | grpcAddress => s.grpcAddress
  | httpAddress => s.httpAddress
  | metricsAddress => s.metricsAddress
  | pprofAddress => s.pprofAddress
  | reflection => s.reflectionEnabled
  | healthCheck => s.healthCheckEnabled
  | swagger => s.swaggerEnabled
  | swaggerDir => s.swaggerDir
  | swaggerBasePath => s.swaggerBasePath
  | splash => s.splashEnabled
  | telemetry => s.telemetry

/-- There are no other settings. -/
theorem ext {s t : Settings} (h : ∀ k, get s k = get t k) : s = t := by
  cases s
  cases t
  simp only [Settings.mk.injEq]
  exact ⟨h logLevel, h closeTimeout, h appName, h appVersion, h environment, h grpcAddress,
    h httpAddress, h metricsAddress, h pprofAddress, h reflection, h healthCheck, h swagger,
    h swaggerDir, h swaggerBasePath, h splash, h telemetry⟩

end Settings.Key

namespace Server

variable {W : Type}

/-- The single values that a server holds. -/
inductive Scalar where
  | setting (k : Settings.Key)
  | cors
  | json
  | limits
  | telemetry
  | metrics
  deriving DecidableEq

namespace Scalar

/-- The type of a single value. -/
def Value : Scalar → Type
  | setting k => k.Value
  | cors => Option Http.CorsOptions
  | json => Gateway.JsonOptions
  | limits => Rpc.Limits
  | telemetry => Bool
  | metrics => Metrics.State

/-- The value in a server. -/
def get (s : Server W) : (x : Scalar) → x.Value
  | setting k => k.get s.settings
  | cors => s.cors
  | json => s.json
  | limits => s.limits
  | telemetry => s.telemetry
  | metrics => s.metrics

/-- What is given for each single value when one of them is given. -/
def only (x : Scalar) (v : x.Value) (y : Scalar) : Option y.Value :=
  if h : x = y then some (h ▸ v) else none

theorem only_of_ne {x y : Scalar} (h : x ≠ y) (v : x.Value) : x.only v y = none :=
  dif_neg h

end Scalar

/-- The single values that a change gives.  New settings give a value for each of them, and saying
where the documentation lies also asks for it. -/
def Change.gives : Change W → (x : Scalar) → Option x.Value
  | .settings s, .setting k => some (k.get s)
  | .settings _, _ => none
  | .logLevel v, x => Scalar.only (.setting .logLevel) v x
  | .appName v, x => Scalar.only (.setting .appName) v x
  | .appVersion v, x => Scalar.only (.setting .appVersion) v x
  | .environment v, x => Scalar.only (.setting .environment) v x
  | .grpcAddress v, x => Scalar.only (.setting .grpcAddress) v x
  | .httpAddress v, x => Scalar.only (.setting .httpAddress) v x
  | .metricsAddress v, x => Scalar.only (.setting .metricsAddress) v x
  | .pprofAddress v, x => Scalar.only (.setting .pprofAddress) v x
  | .swaggerDir v, x =>
    (Scalar.only (.setting .swaggerDir) v x).or (Scalar.only (.setting .swagger) true x)
  | .swaggerBasePath v, x =>
    (Scalar.only (.setting .swaggerBasePath) v x).or (Scalar.only (.setting .swagger) true x)
  | .closeTimeout d, x => Scalar.only (.setting .closeTimeout) d x
  | .reflection b, x => Scalar.only (.setting .reflection) b x
  | .healthCheck b, x => Scalar.only (.setting .healthCheck) b x
  | .swagger b, x => Scalar.only (.setting .swagger) b x
  | .splash b, x => Scalar.only (.setting .splash) b x
  | .limits l, x => Scalar.only .limits l x
  | .cors o, x => Scalar.only .cors (some o) x
  | .json o, x => Scalar.only .json o x
  | .telemetry, x => Scalar.only .telemetry true x
  | .metrics m, x => Scalar.only .metrics m x
  | .services _, _ | .components _, _ | .interceptors _, _ => none

/-- The value that was given last, or the one that there is from the beginning. -/
def Scalar.last (x : Scalar) (changes : List (Change W)) : x.Value :=
  (changes.reverse.findSome? (·.gives x)).getD (x.get ({} : Server W))

/-! ### Lists -/

/-- The lists of a server. -/
inductive Roll where
  | services
  | components
  | interceptors

namespace Roll

/-- What is in a list. -/
def Entry (W : Type) : Roll → Type
  | services => Gateway.Service
  | components => Component W
  | interceptors => Rpc.Interceptor

/-- The list of a server. -/
def get (s : Server W) : (r : Roll) → List (r.Entry W)
  | services => s.services
  | components => s.components
  | interceptors => s.interceptors

end Roll

/-- What a change adds to a list. -/
def Change.adds : Change W → (r : Roll) → List (r.Entry W)
  | .services added, .services => added
  | .components added, .components => added
  | .interceptors added, .interceptors => added
  | _, _ => []

/-- A server is its single values and its lists. -/
theorem ext_scalars {s t : Server W} (hscalars : ∀ x : Scalar, x.get s = x.get t)
    (hrolls : ∀ r : Roll, r.get s = r.get t) : s = t := by
  have hsettings : s.settings = t.settings := Settings.Key.ext fun k => hscalars (.setting k)
  cases s
  cases t
  simp only [Server.mk.injEq]
  exact ⟨hsettings, hrolls .services, hrolls .components, hrolls .interceptors, hscalars .cors,
    hscalars .json, hscalars .limits, hscalars .telemetry, hscalars .metrics⟩

/-! ### One change -/

theorem get_change (s : Server W) (c : Change W) (x : Scalar) :
    x.get (s.change c) = (c.gives x).getD (x.get s) := by
  cases x with
  | setting k => cases k <;> cases c <;> rfl
  | _ => cases c <;> rfl

theorem roll_change (s : Server W) (c : Change W) (r : Roll) :
    r.get (s.change c) = r.get s ++ c.adds r := by
  cases r with
  | services =>
    cases c with
    | services added => rfl
    | _ => exact (List.append_nil _).symm
  | components =>
    cases c with
    | components added => rfl
    | _ => exact (List.append_nil _).symm
  | interceptors =>
    cases c with
    | interceptors added => rfl
    | _ => exact (List.append_nil _).symm

/-! ### Many changes -/

/-- The last value given counts. -/
theorem get_foldl_change (s : Server W) (changes : List (Change W)) (x : Scalar) :
    x.get (changes.foldl change s) =
      (changes.reverse.findSome? (·.gives x)).getD (x.get s) := by
  induction changes generalizing s with
  | nil => rfl
  | cons c changes ih =>
    rw [List.foldl_cons, ih, get_change, List.reverse_cons, List.findSome?_append,
      List.findSome?_singleton]
    cases changes.reverse.findSome? (·.gives x) <;> rfl

/-- Lists add up, in order. -/
theorem roll_foldl_change (s : Server W) (changes : List (Change W)) (r : Roll) :
    r.get (changes.foldl change s) = r.get s ++ changes.flatMap (·.adds r) := by
  induction changes generalizing s with
  | nil => exact (List.append_nil _).symm
  | cons c changes ih =>
    rw [List.foldl_cons, ih, roll_change, List.flatMap_cons, List.append_assoc]

/-- What changes make of a new server. -/
def made (changes : List (Change W)) : Server W :=
  changes.foldl change {}

theorem get_made (changes : List (Change W)) (x : Scalar) : x.get (made changes) = x.last changes :=
  get_foldl_change {} changes x

theorem roll_made (changes : List (Change W)) (r : Roll) :
    r.get (made changes) = changes.flatMap (·.adds r) := by
  rw [made, roll_foldl_change]
  cases r <;> exact List.nil_append _

/-- What changes make is known by the last values and by all that was added. -/
theorem eq_made_iff {s : Server W} {changes : List (Change W)} :
    s = made changes ↔
      (∀ x : Scalar, x.get s = x.last changes) ∧
      ∀ r : Roll, r.get s = changes.flatMap (·.adds r) := by
  constructor
  · rintro rfl
    exact ⟨get_made changes, roll_made changes⟩
  · rintro ⟨hscalars, hrolls⟩
    exact ext_scalars (fun x => (hscalars x).trans (get_made changes x).symm)
      fun r => (hrolls r).trans (roll_made changes r).symm

/-! ### Neighbouring changes -/

/-- Two changes that do not give the same value, and do not add to the same list. -/
structure Change.Apart (c d : Change W) : Prop where
  scalars : ∀ x, c.gives x = none ∨ d.gives x = none
  rolls : ∀ r, c.adds r = [] ∨ d.adds r = []

variable {c d : Change W}

theorem Change.Apart.last_swap (h : c.Apart d) (before after : List (Change W)) (x : Scalar) :
    x.last (before ++ c :: d :: after) = x.last (before ++ d :: c :: after) := by
  simp only [Scalar.last, List.reverse_append, List.reverse_cons, List.findSome?_append,
    List.findSome?_singleton, List.append_assoc]
  rcases h.scalars x with hx | hx <;> simp [hx]

theorem Change.Apart.flatMap_swap (h : c.Apart d) (before after : List (Change W)) (r : Roll) :
    (before ++ c :: d :: after).flatMap (·.adds r) =
      (before ++ d :: c :: after).flatMap (·.adds r) := by
  simp only [List.flatMap_append, List.flatMap_cons]
  rcases h.rolls r with hr | hr <;> simp [hr]

/-- Neighbouring changes that have nothing in common may be swapped. -/
theorem Change.Apart.made_swap (h : c.Apart d) (before after : List (Change W)) :
    made (before ++ c :: d :: after) = made (before ++ d :: c :: after) := by
  refine eq_made_iff.2 ⟨fun x => ?_, fun r => ?_⟩
  · rw [get_made, h.last_swap]
  · rw [roll_made, h.flatMap_swap]

end Server

end ServiceHost
