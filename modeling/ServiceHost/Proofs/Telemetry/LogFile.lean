import ServiceHost.Proofs.Settings.Documents
import ServiceHost.Proofs.Settings.Loading
import ServiceHost.Settings.File
import ServiceHost.Telemetry.Setup
/-!
Where the log lines go, from the text that was given for the log file to the set-up of logging.

A variable loses the blanks around its text, and if nothing is left there is no log file.  A
document is taken at its word: even an empty text is the path of a log file, and one that cannot be
opened.  So the two agree on a text if it is not blank and has no blanks around it, and on no other
(`log_file_by_source`).
-/

namespace ServiceHost

/-! ### Variables -/

namespace Settings

theorem filePath_put (v : Option String) (l : Logging) : { l with filePath := v }.filePath = v :=
  rfl

/-- The path of the log file, among the settings of logging. -/
def filePathItem : Item Logging :=
  item "LOG_FILE_PATH" "" "file_path" .path (·.filePath) (fun v l => { l with filePath := v })
    filePath_put

/-- The path of the log file, among all settings. -/
def logFileItem : Item Settings :=
  (filePathItem.within "logging" loggingSlot).within "telemetry" telemetrySlot

theorem filePathItem_mem : filePathItem ∈ loggingItems :=
  .tail _ (.tail _ (.head _))

theorem logFileItem_mem : logFileItem ∈ items := by
  have hmem : logFileItem ∈ (loggingItems.map (.within "logging" loggingSlot)).map
      (.within "telemetry" telemetrySlot) :=
    List.mem_map_of_mem (List.mem_map_of_mem filePathItem_mem)
  simp only [items, telemetryItems, List.map_append, List.mem_append]
  exact .inr (.inl (.inr hmem))

/-- The text of the variable decides about the path alone, and cannot be refused. -/
theorem fromVariables_logFile {service : String} {vars : Variables} {t : String}
    (h : lastValue vars (variableName service "LOG_FILE_PATH") = some t) :
    fromVariables service vars =
      (fromVariables service (vars.filter (·.1 != variableName service "LOG_FILE_PATH"))).map
        (onLogging ({ · with filePath := readPath t.toList })) := by
  refine fromVariables_of_load (i := logFileItem) logFileItem_mem ?_
  show logFileItem.load (lastValue vars (variableName service "LOG_FILE_PATH")) = _
  rw [h, readPath_eq]
  rfl

theorem filePath_of_variables {service : String} {vars : Variables} {t : String} {s : Settings}
    (h : lastValue vars (variableName service "LOG_FILE_PATH") = some t)
    (hs : fromVariables service vars = .ok s) :
    s.telemetry.logging.filePath = readPath t.toList := by
  rw [fromVariables_logFile h] at hs
  obtain ⟨s, -, rfl⟩ := Except.map_eq_ok_iff.1 hs
  rfl

end Settings

/-! ### Documents -/

/-- What a document gives for the log file. -/
def Document.logFile? (rules : Rules) (d : Document) : Option Document := do
  let telemetry ← d.last? (Settings.fields rules) "telemetry"
  let logging ← telemetry.last? (Settings.telemetryFields rules) "logging"
  logging.last? Settings.loggingFields "file_path"

namespace Settings

open Document (Rules last? logFile? readRecord)

theorem filePath_of_document {rules : Rules} {d : Document} {t : String} {s : Settings}
    (h : d.logFile? rules = some (.text t)) (hs : ofDocument rules d = .ok s) :
    s.telemetry.logging.filePath = some t := by
  obtain ⟨telemetry, htelemetry, h⟩ := Option.bind_eq_some_iff.1 h
  obtain ⟨logging, hlogging, hpath⟩ := Option.bind_eq_some_iff.1 h
  -- each of the three tables is read from what is given last for it
  have htelemetry' : Place.given ⟨Telemetry, telemetrySlot⟩ {}
      ((d.last? (fields rules) "telemetry").map (readRecord rules (telemetryFields rules) {})) =
        .ok s.telemetry :=
    Cell.given_of_readRecord (serviceCells_layout rules) hs (List.mem_append_right _ (.head _))
  rw [htelemetry] at htelemetry'
  have hlogging' : Place.given ⟨Logging, loggingSlot⟩ {}
      ((telemetry.last? (telemetryFields rules) "logging").map
        (readRecord rules loggingFields {})) = .ok s.telemetry.logging :=
    Cell.given_of_readRecord (telemetryCells_layout rules) htelemetry' (.tail _ (.tail _ (.head _)))
  rw [hlogging] at hlogging'
  have hpath' : filePathItem.given {}
      ((logging.last? loggingFields "file_path").map Document.readOptionalText) =
        .ok s.telemetry.logging.filePath :=
    Cell.given_of_readRecord loggingItems_layout hlogging' (List.mem_map_of_mem filePathItem_mem)
  rw [hpath] at hpath'
  exact (Except.ok.inj hpath').symm

/-- A TOML text gives the settings of the document that it is. -/
theorem ofToml_eq_ok_iff {text : List Char} {s : Settings} :
    ofToml text = .ok s ↔
      ∃ d, Toml.read? text = some d ∧ ofDocument Document.tomlRules d = .ok s := by
  unfold ofToml
  cases Toml.read? text with
  | none => simp
  | some d => cases hd : ofDocument Document.tomlRules d <;> simp [hd]

end Settings

namespace Telemetry

open Settings
open Document (jsonRules tomlRules)

/-! ### Set-up -/

namespace Service

/-- There is no log file: the lines go to the standard output, and logging is set up without a look
at the files. -/
structure LogsToStandard (s : Service) : Prop where
  path : s.settings.telemetry.logging.filePath = none
  output : ∀ coloured, (s.recorder coloured).output = .standard
  untouched : ∀ {W : Type} (p : Places W) (files : Slot W Files) coloured,
    s.setupLogging { p with files := files } coloured = s.setupLogging p coloured
  ready : ∀ {W : Type} (p : Places W) coloured w, (s.setupLogging p coloured w).2 = none

/-- There is a log file: when logging is on, the lines go there, and logging cannot be set up if the
file cannot be opened. -/
structure LogsToFile (s : Service) (file : String) : Prop where
  path : s.settings.telemetry.logging.filePath = some file
  output : s.settings.telemetry.logging.enabled = true →
    ∀ coloured, (s.recorder coloured).output = .file file
  opened : s.settings.telemetry.logging.enabled = true →
    ∀ {W : Type} (p : Places W) coloured w, (s.setupLogging p coloured w).2 =
      ((p.files.get w).ensure file).error?.map (.logFile file)

variable {s : Service}

theorem logsToStandard_iff :
    s.LogsToStandard ↔ s.settings.telemetry.logging.filePath = none := by
  refine ⟨LogsToStandard.path, fun h => ?_⟩
  have hfile : s.logFile = none := by
    rw [logFile, h, ite_self]
  refine ⟨h, fun coloured => ?_, fun p files coloured => ?_, fun p coloured w => ?_⟩
  · rw [recorder, hfile]
    rfl
  · funext w
    simp only [setupLogging, hfile]
    rfl
  · simp only [setupLogging, hfile]
    split <;> rfl

theorem logsToFile_iff {file : String} :
    s.LogsToFile file ↔ s.settings.telemetry.logging.filePath = some file := by
  refine ⟨LogsToFile.path, fun h => ?_⟩
  have hfile (henabled : s.settings.telemetry.logging.enabled = true) : s.logFile = some file := by
    rw [logFile, if_pos henabled, h]
  refine ⟨h, fun henabled coloured => ?_, fun henabled W p coloured w => ?_⟩
  · rw [recorder, hfile henabled]
    rfl
  · simp only [setupLogging, hfile henabled, henabled]
    cases (p.files.get w).ensure file <;> rfl

/-! ### Sources -/

/-- **What becomes of the text for the log file.**  Take a service of telemetry whose settings come
from a source that gives a text for the log file.  From variables a blank text gives no log file,
and every other text the path without the blanks around it.  From a JSON value and from a TOML text
every text gives itself as the path, blank or not.  So variables and documents agree on a text just
in case it is not blank and has no blanks around it.  And no text for the log file is refused: the
other variables give settings or do not, and a document that gives nothing else gives settings. -/
theorem log_file_by_source (t : String) (name : String) (s : Service) :
    (∀ vars, lastValue vars (variableName name "LOG_FILE_PATH") = some t →
      fromVariables name vars = .ok s.settings →
      if Text.isBlankText t.toList then s.LogsToStandard
      else s.LogsToFile (.ofList (Text.trim t.toList))) ∧
    (∀ v, (Document.ofJson v).logFile? jsonRules = some (.text t) →
      Settings.ofJson v = .ok s.settings → s.LogsToFile t) ∧
    (∀ text, (Toml.read? text).bind (Document.logFile? tomlRules) = some (.text t) →
      ofToml text = .ok s.settings → s.LogsToFile t) ∧
    (readPath t.toList = some t ↔
      Text.isBlankText t.toList = false ∧ Text.trim t.toList = t.toList) ∧
    (∀ vars, lastValue vars (variableName name "LOG_FILE_PATH") = some t →
      fromVariables name vars =
        (fromVariables name (vars.filter (·.1 != variableName name "LOG_FILE_PATH"))).map
          (onLogging ({ · with filePath := readPath t.toList }))) ∧
    ∀ rules, ofDocument rules (.table [("telemetry", .table [("logging",
        .table [("file_path", .text t)])])]) =
      .ok (onLogging ({ · with filePath := some t }) {}) := by
  refine ⟨?vars, ?json, ?toml, ?agree, fun vars => fromVariables_logFile, fun _ => rfl⟩
  case vars =>
    intro vars ht hs
    have hpath := filePath_of_variables ht hs
    rw [readPath_eq] at hpath
    split at hpath
    next hblank =>
      rw [if_pos hblank]
      exact logsToStandard_iff.2 hpath
    next hblank =>
      rw [if_neg hblank]
      exact logsToFile_iff.2 hpath
  case json =>
    intro v ht hs
    exact logsToFile_iff.2 (filePath_of_document ht hs)
  case toml =>
    intro text ht hs
    obtain ⟨d, hd, hs⟩ := ofToml_eq_ok_iff.1 hs
    rw [hd, Option.bind_some] at ht
    exact logsToFile_iff.2 (filePath_of_document ht hs)
  case agree =>
    rw [readPath_eq]
    cases Text.isBlankText t.toList with
    | true => simp
    | false => simp [← String.toList_inj]

/-- A TOML text with a blank path. -/
def blankPath : List Char :=
  "[telemetry.logging]\nenabled = true\nfile_path = ' '".toList

theorem logFile?_blankPath :
    (Toml.read? blankPath).bind (Document.logFile? tomlRules) = some (.text " ") := by
  have hread : ((Toml.read? blankPath).bind (Document.logFile? tomlRules)).bind
      (fun d => (Document.readText d).toOption) = some " " := by
    decide +kernel
  obtain ⟨d, hd, htext⟩ := Option.bind_eq_some_iff.1 hread
  cases d with
  | text t => rw [hd, Option.some.inj htext]
  | null | bool | integer | real | moment | list | table => cases htext

/-- A blank text stands for no file in a variable, and for a file in a document. -/
theorem log_file_by_source_blank : ∃ s s' : Service,
    fromVariables "shop" [("SHOP_LOG_FILE_PATH", " ")] = .ok s.settings ∧ s.LogsToStandard ∧
    ofToml blankPath = .ok s'.settings ∧ s'.settings.telemetry.logging.enabled = true ∧
    s'.LogsToFile " " := by
  have hvars : fromVariables "shop" [("SHOP_LOG_FILE_PATH", " ")] = .ok {} := by
    rw [fromVariables_logFile (t := " ") (by decide)]
    exact congrArg (Except.map _) fromVariables_nil
  have hloaded : (ofToml blankPath).toOption.map (·.telemetry.logging.enabled) = some true := by
    decide +kernel
  obtain ⟨settings, hsettings, henabled⟩ := Option.map_eq_some_iff.1 hloaded
  have htoml := Except.toOption_eq_some_iff.1 hsettings
  exact ⟨⟨{}, none⟩, ⟨settings, none⟩, hvars,
    (log_file_by_source " " "shop" ⟨{}, none⟩).1 _ (by decide) hvars, htoml, henabled,
    (log_file_by_source " " "shop" ⟨settings, none⟩).2.2.1 _ logFile?_blankPath htoml⟩

/-- The settings of a JSON value with an empty text for the log file. -/
def emptyPath : Json :=
  .object [("telemetry", .object [("logging", .object
    [("enabled", .bool true), ("file_path", .text "")])])]

/-- With an empty text in a document the settings are loaded, and logging cannot be set up. -/
theorem empty_path_not_opened : ∃ s : Service,
    (Document.ofJson emptyPath).logFile? jsonRules = some (.text "") ∧
    Settings.ofJson emptyPath = .ok s.settings ∧ ¬ s.LogsToStandard ∧
    ∀ {W : Type} (p : Places W) coloured w,
      (s.setupLogging p coloured w).2 = some (.logFile "" .notFound) := by
  obtain ⟨settings, hjson⟩ : ∃ settings, Settings.ofJson emptyPath = .ok settings := ⟨_, rfl⟩
  obtain rfl := Except.ok.inj hjson
  refine ⟨⟨_, none⟩, rfl, rfl, ?_, ?_⟩
  · rw [logsToStandard_iff]
    exact Option.some_ne_none _
  · intro W p coloured w
    rfl

end Service

end Telemetry

end ServiceHost
