import ServiceHost.Proofs.Fallible
import ServiceHost.Proofs.Server.Parts
import ServiceHost.Proofs.Server.Restoration
import ServiceHost.Proofs.Text
/-!
From changes to a server and its processes.

A list of changes is refused for the first check that its last values fail, and otherwise describes
one server: each single value is the last one given, and each list holds all that was added to it.
The processes of that server are the four that every server has, telemetry if it was asked for, and
those of the owner in the order in which they were given (`changes_determine`).
-/

namespace ServiceHost.Server

variable {W : Type}

/-! ### Checks -/

/-- What is checked of the last values, in order, each with what is said where it is wrong. -/
def checks (changes : List (Change W)) : List (Bool × ConfigFault) :=
  let timeout : Duration := Scalar.last (.setting .closeTimeout) changes
  let addresses : List (String × String) := [
    ("grpc_address", Scalar.last (.setting .grpcAddress) changes),
    ("http_address", Scalar.last (.setting .httpAddress) changes),
    ("metrics_address", Scalar.last (.setting .metricsAddress) changes),
    ("pprof_address", Scalar.last (.setting .pprofAddress) changes)]
  (timeout.isZero, .zeroCloseTimeout) ::
    addresses.map fun (field, a) => ((Text.trim a.toList).isEmpty, .blankAddress field)

/-- The fault of the settings that changes describe is that of the first check that fails. -/
theorem settingsFault?_made (changes : List (Change W)) :
    settingsFault? (made changes).settings = ((checks changes).find? (·.1)).map (·.2) := by
  have hchecks : checks changes =
      ((made changes).settings.closeTimeout.isZero, .zeroCloseTimeout) ::
        (addresses (made changes).settings).map fun (field, a) =>
          (Text.isBlankText a.toList, .blankAddress field) := by
    simp only [checks, ← get_made, ← Text.isEmpty_trim]
    rfl
  rw [hchecks, settingsFault?, List.find?_cons]
  cases (made changes).settings.closeTimeout.isZero with
  | true => rfl
  | false =>
    rw [List.find?_map, Option.map_map]
    rfl

theorem ofChanges_eq (changes : List (Change W)) :
    ofChanges changes =
      match ((checks changes).find? (·.1)).map (·.2) with
      | some fault => .error (.config fault)
      | none => .ok (made changes) := by
  rw [← settingsFault?_made]
  rfl

/-- Changes are refused for the first check that fails. -/
theorem ofChanges_eq_error_iff {changes : List (Change W)} {e : HostError} :
    ofChanges changes = .error e ↔
      ∃ check, (checks changes).find? (·.1) = some check ∧ e = .config check.2 := by
  rw [ofChanges_eq]
  cases (checks changes).find? (·.1) with
  | none => simp
  | some check => simp [eq_comm]

/-- Changes that pass all checks describe the server that they make. -/
theorem ofChanges_eq_ok_iff {changes : List (Change W)} {s : Server W} :
    ofChanges changes = .ok s ↔ (∀ check ∈ checks changes, check.1 = false) ∧ s = made changes := by
  rw [ofChanges_eq]
  cases h : (checks changes).find? (·.1) with
  | none =>
    have hpass : ∀ check ∈ checks changes, check.1 = false := fun check hcheck =>
      Bool.eq_false_iff.2 (List.find?_eq_none.1 h check hcheck)
    constructor
    · intro hs
      exact ⟨hpass, (Except.ok.inj hs).symm⟩
    · rintro ⟨-, rfl⟩
      rfl
  | some check =>
    constructor
    · intro hs
      cases hs
    · rintro ⟨hpass, -⟩
      have hfails := List.find?_some h
      rw [hpass check (List.mem_of_find?_eq_some h)] at hfails
      cases hfails

/-- Neighbouring changes that have nothing in common may be swapped. -/
theorem Change.Apart.ofChanges_swap {c d : Change W} (h : c.Apart d)
    (before after : List (Change W)) :
    ofChanges (before ++ d :: c :: after) = ofChanges (before ++ c :: d :: after) := by
  have hchecks : checks (before ++ d :: c :: after) = checks (before ++ c :: d :: after) := by
    simp only [checks, h.last_swap before after]
  rw [ofChanges_eq, ofChanges_eq, hchecks, h.made_swap]

/-! ### Processes -/

variable {s : Server Host} {site : Site} {sup : Supervisor Host} {metrics : Metrics.State}

theorem isSome_of_telemetryService {telemetry : Option Telemetry.Service} {st : Metrics.State}
    (h : s.telemetryService = .ok (telemetry, st)) : telemetry.isSome = s.telemetry := by
  unfold telemetryService at h
  split at h
  next hasked =>
    obtain ⟨created, -, hcreated⟩ := Except.map_eq_ok_iff.1 h
    obtain ⟨rfl, -⟩ := Prod.mk.inj hcreated
    exact hasked.symm
  next hasked =>
    obtain ⟨rfl, -⟩ := Prod.mk.inj (Except.ok.inj h)
    exact (Bool.eq_false_iff.2 hasked).symm

/-- The four processes that every server has, telemetry if it was asked for, and the owner's. -/
theorem processes_of_assemble (h : s.assemble site = .ok (sup, metrics)) :
    ∃ (telemetry : Option Telemetry.Service) (version : Nat), telemetry.isSome = s.telemetry ∧
      sup.processes = s.systemComponents site version ++
        (telemetry.map fun t =>
          t.component Host.telemetryPlaces site.coloured site.closings).toList ++ s.components := by
  obtain ⟨telemetry, st, hservice, -, hprocesses, -⟩ := assemble_cases h
  exact ⟨telemetry, _, isSome_of_telemetryService hservice, hprocesses⟩

/-! ### Building -/

/-- **Changes determine the server.**  A list of changes is refused just in case some check fails,
for the first that does.  Otherwise it describes the one server in which every single value is the
last one given and every list is all that was added to it, in order.  Neighbouring changes that do
not give the same value or add to the same list may be swapped.  And if the server can be assembled,
its processes are those of remote calls, the gateway, the metrics pages and the profiles, then
telemetry if it was asked for, then those that were added, in order. -/
theorem changes_determine (changes : List (Change Host)) :
    (∀ e, ofChanges changes = .error e ↔
      ∃ check, (checks changes).find? (·.1) = some check ∧ e = .config check.2) ∧
    (∀ s, ofChanges changes = .ok s ↔ (∀ check ∈ checks changes, check.1 = false) ∧
      (∀ x : Scalar, x.get s = x.last changes) ∧
      ∀ r : Roll, r.get s = changes.flatMap (·.adds r)) ∧
    (∀ c d : Change Host, c.Apart d → ∀ before after, changes = before ++ c :: d :: after →
      ofChanges (before ++ d :: c :: after) = ofChanges changes) ∧
    ∀ s site sup metrics, ofChanges changes = .ok s → s.assemble site = .ok (sup, metrics) →
      ∃ (telemetry : Option Telemetry.Service) (version : Nat) (owned : List (Component Host)),
        telemetry.isSome = Scalar.last .telemetry changes ∧
        owned = changes.flatMap (·.adds .components) ∧
        sup.processes = s.systemComponents site version ++
          (telemetry.map fun t =>
            t.component Host.telemetryPlaces site.coloured site.closings).toList ++ owned ∧
        sup.processes.map (·.name) = ["grpc", "gateway", "metrics", "pprof"] ++
          (if telemetry.isSome then ["telemetry"] else []) ++ owned.map (·.name) := by
  refine ⟨fun e => ofChanges_eq_error_iff, fun s => ?_, ?_, ?_⟩
  · rw [ofChanges_eq_ok_iff, eq_made_iff]
  · rintro c d hapart before after rfl
    exact hapart.ofChanges_swap before after
  · intro s site sup metrics hs hassemble
    obtain ⟨-, rfl⟩ := ofChanges_eq_ok_iff.1 hs
    obtain ⟨telemetry, version, htelemetry, hprocesses⟩ := processes_of_assemble hassemble
    have howned : (made changes).components = changes.flatMap (·.adds .components) :=
      roll_made changes .components
    refine ⟨telemetry, version, _, ?_, howned, hprocesses, ?_⟩
    · exact htelemetry.trans (get_made changes .telemetry)
    · rw [hprocesses, List.map_append, List.map_append]
      cases telemetry <;> rfl

theorem apart_grpcAddress_swaggerDir (address dir : String) :
    (Change.grpcAddress address : Change W).Apart (.swaggerDir dir) where
  scalars x := by
    by_cases h : x = .setting .grpcAddress
    · subst h
      exact .inr rfl
    · exact .inl (Scalar.only_of_ne (Ne.symm h) address)
  rolls r := by cases r <;> exact .inl rfl

/-- Changes with two processes of the owner, and telemetry asked for in between. -/
def mixedChanges : List (Change Host) :=
  [.components [{ name := "first" }], .grpcAddress ":1", .swaggerDir "docs", .telemetry,
    .components [{ name := "second" }]]

/-- The changed settings are accepted in either order, and telemetry runs before what its owner has
added before it. -/
theorem changes_determine_mixed :
    (Change.grpcAddress ":1" : Change Host).Apart (.swaggerDir "docs") ∧
    ∃ s sup metrics, ofChanges mixedChanges = .ok s ∧
      s.assemble { hostname := "host" } = .ok (sup, metrics) ∧
      ofChanges [.components [{ name := "first" }], .swaggerDir "docs", .grpcAddress ":1",
        .telemetry, .components [{ name := "second" }]] = .ok s ∧
      sup.processes.map (·.name) =
        ["grpc", "gateway", "metrics", "pprof", "telemetry", "first", "second"] := by
  have hapart := apart_grpcAddress_swaggerDir (W := Host) ":1" "docs"
  obtain ⟨-, -, hswap, hprocesses⟩ := changes_determine mixedChanges
  obtain ⟨s, hs⟩ : ∃ s, ofChanges mixedChanges = .ok s := ⟨_, rfl⟩
  obtain ⟨y, hassemble⟩ : ∃ y, s.assemble { hostname := "host" } = .ok y := by
    obtain rfl := Except.ok.inj hs
    exact ⟨_, rfl⟩
  have hswapped := hswap _ _ hapart [.components [{ name := "first" }]]
    [.telemetry, .components [{ name := "second" }]] rfl
  obtain ⟨telemetry, version, owned, htelemetry, rfl, -, hnames⟩ :=
    hprocesses s _ y.1 y.2 hs hassemble
  refine ⟨hapart, s, y.1, y.2, hs, hassemble, hswapped.trans hs, ?_⟩
  rw [hnames, htelemetry]
  rfl

end ServiceHost.Server
