import ServiceHost.Proofs.Settings.Items
import ServiceHost.Proofs.Settings.Records
/-!
Settings from documents, one by one.

Settings are read from tables in tables.  Whatever tables are missing, each setting is what its own
key says, or its default if there is no such key (`ofDocument_eq_ok_iff`).
-/

namespace ServiceHost.Settings

open Document (Rules readRecord at?)
open Cell (Layout member)

/-! ### Fields -/

/-- A setting as a field of its record. -/
def Item.cell {α : Type} (i : Item α) : Cell α :=
  { i.toPlace with name := i.key, read := i.form.ofDocument }

/-- The groups as fields of the settings of telemetry. -/
def telemetryCells (rules : Rules) : List (Cell Telemetry) := [
  ⟨⟨Tracing, tracingSlot⟩, "tracing",
    readRecord rules ((tracingItems.map Item.cell).map member) {}⟩,
  ⟨⟨Metrics, metricsSlot⟩, "metrics",
    readRecord rules ((metricsItems.map Item.cell).map member) {}⟩,
  ⟨⟨Logging, loggingSlot⟩, "logging",
    readRecord rules ((loggingItems.map Item.cell).map member) {}⟩,
  ⟨⟨Profiling, profilingSlot⟩, "profiling",
    readRecord rules ((profilingItems.map Item.cell).map member) {}⟩]

/-- The fields of the settings of a service: those in no group, and telemetry. -/
def serviceCells (rules : Rules) : List (Cell Settings) :=
  serviceItems.map Item.cell ++
    [⟨⟨Telemetry, telemetrySlot⟩, "telemetry",
      readRecord rules ((telemetryCells rules).map member) {}⟩]

theorem fields_eq (rules : Rules) : fields rules = (serviceCells rules).map member :=
  rfl

theorem tracingItems_layout : Layout (tracingItems.map Item.cell) :=
  ⟨by decide, tracingItems_partition⟩

theorem metricsItems_layout : Layout (metricsItems.map Item.cell) :=
  ⟨by decide, metricsItems_partition⟩

theorem loggingItems_layout : Layout (loggingItems.map Item.cell) :=
  ⟨by decide, loggingItems_partition⟩

theorem profilingItems_layout : Layout (profilingItems.map Item.cell) :=
  ⟨by decide, profilingItems_partition⟩

theorem telemetryCells_layout (rules : Rules) : Layout (telemetryCells rules) :=
  ⟨by simp [telemetryCells], telemetry_partition⟩

theorem serviceCells_layout (rules : Rules) : Layout (serviceCells rules) :=
  ⟨by simp [serviceCells, serviceItems, item, Item.cell], serviceItems_partition⟩

/-! ### Groups -/

/-- The keys that lead to a setting in a document. -/
def Item.path {α : Type} (i : Item α) : List String :=
  i.tables ++ [i.key]

/-- What a document makes of a setting; where it has no key it has its default. -/
def Item.loadDocument (i : Item Settings) (d : Document) : Except Document.Fault i.Value :=
  i.given {} ((at? (some d) i.path).map i.form.ofDocument)

/-- The tables of a document with settings. -/
def groups : List (List String) :=
  [[], ["telemetry"], ["telemetry", "tracing"], ["telemetry", "metrics"], ["telemetry", "logging"],
    ["telemetry", "profiling"]]

/-- A document in which everything that may be a table of settings is a table. -/
def IsNested (d : Document) : Prop :=
  ∀ names ∈ groups, ∀ t ∈ at? (some d) names, t.IsTable

theorem given_within {α β ε : Type} (table : String) (slot : Slot β α) (i : Item α) (w : β)
    (r : Option (Except ε i.Value)) : (i.within table slot).given w r = i.given (slot.get w) r := by
  cases r <;> rfl

/-- The settings of a group, read from the table of the group. -/
theorem given_group_eq_ok_iff {α β : Type} {l : List (Item α)} (hlayout : Layout (l.map Item.cell))
    (hleaf : ∀ i ∈ l, i.tables = []) (rules : Rules) (table : String) (slot : Slot β α)
    {d : Option Document} (hd : ∀ t ∈ at? d [table], t.IsTable) {w b : β} :
    Place.given ⟨α, slot⟩ w ((at? d [table]).map
        (readRecord rules ((l.map Item.cell).map member) (slot.get w))) = .ok (slot.get b) ↔
      ∀ i ∈ l.map (Item.within table slot),
        i.given w ((at? d i.path).map i.form.ofDocument) = .ok (i.slot.get b) := by
  rw [Cell.given_record_eq_ok_iff hlayout rules slot hd, List.forall_mem_map, List.forall_mem_map]
  refine forall₂_congr fun i hi => ?_
  have hpath : (i.within table slot).path = [table, i.key] := by
    show table :: i.tables ++ [i.key] = _
    rw [hleaf i hi]
    rfl
  rw [hpath]
  exact iff_of_eq (congrArg (· = Except.ok _) (given_within table slot i w _).symm)

/-- The settings of telemetry, read from the table of all groups. -/
theorem given_telemetry_eq_ok_iff (rules : Rules) {d : Option Document} (hd : ∀ t ∈ d, t.IsTable)
    (hgroups : ∀ name ∈ ["tracing", "metrics", "logging", "profiling"], ∀ t ∈ at? d [name], t.IsTable)
    {s : Settings} :
    Place.given ⟨Telemetry, telemetrySlot⟩ {}
        (d.map (readRecord rules ((telemetryCells rules).map member) {})) =
          .ok (telemetrySlot.get s) ↔
      ∀ i ∈ telemetryItems,
        i.given {} ((at? d i.path).map i.form.ofDocument) =
          .ok (i.slot.get (telemetrySlot.get s)) := by
  simp only [List.forall_mem_cons] at hgroups
  obtain ⟨htracing, hmetrics, hlogging, hprofiling, -⟩ := hgroups
  refine (Cell.given_record_eq_ok_iff (telemetryCells_layout rules) rules telemetrySlot hd).trans ?_
  simp only [telemetryCells, telemetryItems, List.forall_mem_cons, List.forall_mem_append,
    List.not_mem_nil, false_imp_iff, implies_true, and_true, and_assoc]
  refine and_congr ?_ (and_congr ?_ (and_congr ?_ ?_))
  · exact given_group_eq_ok_iff tracingItems_layout (by decide) rules "tracing" tracingSlot htracing
  · exact given_group_eq_ok_iff metricsItems_layout (by decide) rules "metrics" metricsSlot hmetrics
  · exact given_group_eq_ok_iff loggingItems_layout (by decide) rules "logging" loggingSlot hlogging
  · exact given_group_eq_ok_iff profilingItems_layout (by decide) rules "profiling" profilingSlot
      hprofiling

/-- **Settings are read from documents one by one.** -/
theorem ofDocument_eq_ok_iff (rules : Rules) {d : Document} (hd : IsNested d) {s : Settings} :
    ofDocument rules d = .ok s ↔ ∀ i ∈ items, i.loadDocument d = .ok (i.slot.get s) := by
  rw [ofDocument, fields_eq,
    Cell.readRecord_eq_ok_iff (serviceCells_layout rules) rules (hd [] (by decide) d rfl)]
  rw [serviceCells, items, List.forall_mem_append, List.forall_mem_append, List.forall_mem_map,
    List.forall_mem_singleton, List.forall_mem_map]
  refine and_congr (forall₂_congr fun i hi => ?_) ?_
  · -- a setting in no group has its key in the document itself
    have htables : ∀ i ∈ serviceItems, i.tables = [] := by decide
    rw [Item.loadDocument, Item.path, htables i hi]
    rfl
  · have hgroup : ∀ name ∈ ["tracing", "metrics", "logging", "profiling"],
        ["telemetry", name] ∈ groups := by decide
    refine (given_telemetry_eq_ok_iff rules (hd ["telemetry"] (by decide)) fun name hname =>
      hd ["telemetry", name] (hgroup name hname)).trans (forall₂_congr fun i _ => ?_)
    exact iff_of_eq (congrArg (· = Except.ok _) (given_within _ telemetrySlot i {} _).symm)

end ServiceHost.Settings
