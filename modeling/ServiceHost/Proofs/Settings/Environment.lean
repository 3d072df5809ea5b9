import ServiceHost.Proofs.Settings.Loading
import ServiceHost.Settings.Environment
/-!
What the environment does to settings that are read from it.

All of the environment is decoded before any variable is looked up.  While all of it is text, the
variables that belong to no setting do not matter (`Environment.load_restrict`); a single one of
them that is not text stops the program, though the settings never use it (`undisturbed_iff`).
-/

namespace ServiceHost.Settings

/-! ### Texts as bytes -/

/-- The bytes of a text. -/
def bytesOf (s : String) : List UInt8 :=
  s.toByteArray.data.toList

theorem bytesOf_inj {s t : String} : bytesOf s = bytesOf t ↔ s = t := by
  rw [bytesOf, bytesOf, Array.toList_inj, ← String.toByteArray_inj, ByteArray.ext_iff]

/-- Exactly the bytes of a text are decoded as it. -/
theorem decodeName_eq_some_iff {bytes : List UInt8} {s : String} :
    decodeName bytes = some s ↔ bytes = bytesOf s := by
  have hdecode : decodeName bytes = String.fromUTF8? ⟨bytes.toArray⟩ := by
    rw [decodeName, Text.decodeUtf8, Option.map_map]
    exact (congrArg (Option.map · _) (funext fun _ => String.ofList_toList)).trans Option.map_id'
  rw [hdecode, String.fromUTF8?]
  constructor
  · intro h
    split at h
    · obtain rfl := Option.some.inj h
      rfl
    · cases h
  · rintro rfl
    exact dif_pos s.isValidUTF8

/-- Variables as bytes. -/
def encoded (vars : Variables) : Environment :=
  vars.map fun v => (bytesOf v.1, bytesOf v.2)

theorem texts?_cons (name value : List UInt8) (env : Environment) :
    Environment.texts? ((name, value) :: env) =
      (decodeName name).bind fun n => (decodeName value).bind fun v =>
        (Environment.texts? env).map ((n, v) :: ·) := by
  simp only [Environment.texts?, List.mapM_cons, Option.bind_eq_bind, Option.pure_def,
    Option.bind_assoc, Option.bind_some, Option.map_eq_bind]
  rfl

/-- Exactly the bytes of variables are decoded as them. -/
theorem texts?_eq_some_iff {env : Environment} {vars : Variables} :
    env.texts? = some vars ↔ env = encoded vars := by
  induction env generalizing vars with
  | nil =>
    show some [] = some vars ↔ [] = encoded vars
    cases vars <;> simp [encoded]
  | cons v env ih =>
    obtain ⟨name, value⟩ := v
    simp only [texts?_cons, Option.bind_eq_some_iff, Option.map_eq_some_iff, decodeName_eq_some_iff,
      ih]
    constructor
    · rintro ⟨n, rfl, v, rfl, rest, rfl, rfl⟩
      rfl
    · intro h
      cases vars with
      | nil => cases h
      | cons v vars =>
        obtain ⟨hv, rfl⟩ := List.cons.inj h
        obtain ⟨rfl, rfl⟩ := Prod.mk.inj hv
        exact ⟨v.1, rfl, v.2, rfl, vars, rfl, rfl⟩

/-! ### Environments -/

namespace Environment

/-- All of the environment is text. -/
def IsText (env : Environment) : Prop :=
  ∃ vars, env = encoded vars

/-- The environment with the named variables of a service alone. -/
def restrict (service : String) (names : List String) (env : Environment) : Environment :=
  env.filter fun v => names.any fun name => bytesOf (variableName service name) == v.1

variable {service : String} {names : List String} {env : Environment} {vars : Variables}

theorem restrict_encoded : restrict service names (encoded vars) =
    encoded (vars.filter fun v => names.any fun name => variableName service name == v.1) := by
  rw [restrict, encoded, List.filter_map, encoded]
  congr 2
  funext v
  show names.any _ = names.any _
  congr 1
  funext name
  rw [Bool.eq_iff_iff, beq_iff_eq, beq_iff_eq, bytesOf_inj]

theorem IsText.restrict (h : env.IsText) (service : String) (names : List String) :
    (env.restrict service names).IsText := by
  obtain ⟨vars, rfl⟩ := h
  exact ⟨_, restrict_encoded⟩

/-! ### Reading -/

section

variable {α : Type} {read : Variables → Except VariablesFault α}

theorem load_encoded : (encoded vars).load read = (read vars).mapError .refused := by
  simp only [Environment.load, texts?_eq_some_iff.2 rfl]
  cases read vars <;> rfl

theorem load_of_not_isText (h : ¬ env.IsText) : env.load read = .error .notText := by
  cases htexts : env.texts? with
  | none => rw [Environment.load, htexts]
  | some vars => exact absurd ⟨vars, texts?_eq_some_iff.1 htexts⟩ h

theorem load_eq_notText_iff : env.load read = .error .notText ↔ ¬ env.IsText := by
  refine ⟨?_, load_of_not_isText⟩
  rintro h ⟨vars, rfl⟩
  rw [load_encoded] at h
  cases hread : read vars <;> simp [hread, Except.mapError] at h

/-- What is read depends on the last values of the named variables alone. -/
def DependsOn (service : String) (names : List String) (read : Variables → Except VariablesFault α) :
    Prop :=
  ∀ vars vars' : Variables, (∀ name ∈ names, lastValue vars' (variableName service name) =
    lastValue vars (variableName service name)) → read vars' = read vars

/-- **While all of the environment is text, its other variables do not matter.** -/
theorem load_restrict (hread : DependsOn service names read) (henv : env.IsText) :
    (env.restrict service names).load read = env.load read := by
  obtain ⟨vars, rfl⟩ := henv
  rw [restrict_encoded, load_encoded, load_encoded]
  congr 1
  apply hread
  intro name hname
  apply lastValue_filter
  intro v hv
  exact List.any_eq_true.2 ⟨name, hname, beq_iff_eq.2 hv.symm⟩

theorem load_restrict_iff (hread : DependsOn service names read) :
    (env.restrict service names).load read = env.load read ↔
      env.IsText ∨ ¬ (env.restrict service names).IsText := by
  constructor
  · intro h
    by_cases henv : env.IsText
    · exact .inl henv
    · rw [load_of_not_isText henv, load_eq_notText_iff] at h
      exact .inr h
  · rintro (henv | hrestrict)
    · exact load_restrict hread henv
    · rw [load_of_not_isText hrestrict,
        load_of_not_isText fun henv => hrestrict (henv.restrict service names)]

end

end Environment

/-! ### Faults of variables -/

namespace Form

/-- Is the setting a length of time? -/
def isLength {β : Type} : Form β → Bool
  | .length => true
  | _ => false

/-- Only the text of a length of time overflows. -/
theorem ofText_eq_overflow {β : Type} {form : Form β} {name t : String}
    (h : form.ofText name t = .error .durationOverflow) :
    form.isLength = true ∧ Duration.read t.toList = .error .overflow := by
  cases form with
  | text | path => cases h
  | choice =>
    simp only [ofText] at h
    cases hread : (Choice.read t.toList : Except Unsupported β) <;> simp [hread, Except.mapError] at h
  | truth =>
    simp only [ofText, readBool] at h
    split_ifs at h <;> simp [Except.mapError, refusal] at h
  | word =>
    simp only [ofText, readWord] at h
    split at h <;> simp [Except.mapError, refusal] at h
  | rate =>
    simp only [ofText, readReal] at h
    split at h <;> simp [Except.mapError, refusal] at h
  | length =>
    refine ⟨rfl, ?_⟩
    simp only [ofText, readDuration] at h
    split at h <;> simp_all [Except.mapError, refusal]

end Form

/-- The variables that hold lengths of time. -/
def durationNames : List String :=
  ["CLOSE_TIMEOUT", "TRACING_BATCH_TIMEOUT"]

theorem name_mem_durationNames :
    ∀ i ∈ items, i.form.isLength = true → i.name ∈ durationNames := by
  decide

/-- An overflow comes from the variable of a length of time. -/
theorem overflow_of_fromVariables {service : String} {vars : Variables}
    (h : fromVariables service vars = .error .durationOverflow) :
    ∃ name ∈ durationNames, ∃ t, lastValue vars (variableName service name) = some t ∧
      Duration.read t.toList = .error .overflow := by
  obtain ⟨i, hi, hfault⟩ := List.exists_of_findSome?_eq_some (ofVariables_eq_error_iff.1 h)
  have hmem := readingOrder_perm.mem_iff.1 hi
  rw [lastValue_stripped] at hfault
  cases hlast : lastValue vars (variableName service i.name) with
  | none =>
    rw [hlast] at hfault
    cases hfault
  | some t =>
    rw [hlast] at hfault
    have hload : i.form.ofText i.name t = .error .durationOverflow := by
      cases htext : i.form.ofText i.name t <;> simp_all [Item.load, Place.given, Except.error?]
    obtain ⟨hlength, hread⟩ := Form.ofText_eq_overflow hload
    exact ⟨i.name, name_mem_durationNames i hmem hlength, t, hlast, hread⟩

namespace Variable

variable {α : Type} {l : List (Variable α)} {vars vars' : Variables} {a : α}

theorem foldlM_load_congr
    (h : ∀ v ∈ l, lastValue vars' v.name = lastValue vars v.name) :
    l.foldlM (load vars') a = l.foldlM (load vars) a := by
  induction l generalizing a with
  | nil => rfl
  | cons v l ih =>
    obtain ⟨hv, hl⟩ := List.forall_mem_cons.1 h
    have hload : v.load vars' a = v.load vars a := by
      rw [load, load, value, value, hv]
    rw [List.foldlM_cons, List.foldlM_cons, hload]
    exact congrArg _ (funext fun b => ih hl)

theorem load_of_foldlM {fault : VariablesFault} (h : l.foldlM (load vars) a = .error fault) :
    ∃ v ∈ l, ∃ b, v.load vars b = .error fault := by
  induction l generalizing a with
  | nil => cases h
  | cons v l ih =>
    rw [List.foldlM_cons] at h
    cases hload : v.load vars a with
    | error e =>
      rw [hload] at h
      exact ⟨v, List.mem_cons_self, a, hload.trans h⟩
    | ok b =>
      rw [hload] at h
      obtain ⟨v', hv', hrest⟩ := ih h
      exact ⟨v', List.mem_cons_of_mem v hv', hrest⟩

theorem load_bool_ne_overflow (name default : String) (put : Bool → α → α) (vars : Variables)
    (a : α) : (bool name default put).load vars a ≠ .error .durationOverflow := by
  intro h
  rw [bool, load_parsed, Except.map_eq_error_iff] at h
  have htext : Form.truth.ofText name ((lastValue vars name).getD default) =
      .error .durationOverflow := h
  exact Bool.false_ne_true (Form.ofText_eq_overflow htext).1

end Variable

theorem jsonFromVariables_ne_overflow (service : String) (vars : Variables) :
    jsonFromVariables service vars ≠ .error .durationOverflow := by
  intro h
  obtain ⟨v, hv, b, hload⟩ := Variable.load_of_foldlM h
  have hnone : ∀ v ∈ jsonVariables, v.load (stripped service vars) b ≠ .error .durationOverflow := by
    simp only [jsonVariables, List.forall_mem_cons, Variable.load_bool_ne_overflow, ne_eq,
      not_false_eq_true, true_and]
    exact ⟨nofun, List.forall_mem_nil _⟩
  exact hnone v hv hload

/-! ### Settings from the environment -/

/-- The variables of settings. -/
def settingNames : List String :=
  items.map (·.name)

/-- The variables of the options of JSON output. -/
def jsonNames : List String :=
  jsonVariables.map (·.name)

open Environment (DependsOn)

theorem dependsOn_fromVariables (service : String) :
    DependsOn service settingNames (fromVariables service) := fun _ _ h =>
  fromVariables_congr fun _ hi => h _ (List.mem_map_of_mem hi)

theorem dependsOn_jsonFromVariables (service : String) :
    DependsOn service jsonNames (jsonFromVariables service) := fun _ _ h =>
  Variable.foldlM_load_congr fun v hv => by
    rw [lastValue_stripped, lastValue_stripped]
    exact h v.name (List.mem_map_of_mem hv)

/-- The faults with which the program stops; all others are reported. -/
def EnvironmentFault.IsFatal : EnvironmentFault → Prop
  | .notText => True
  | .refused fault => fault = .durationOverflow

/-- Does the program stop? -/
def Stops {α : Type} (r : Except EnvironmentFault α) : Prop :=
  ∃ fault, r = .error fault ∧ fault.IsFatal

theorem stops_load_iff {α : Type} {read : Variables → Except VariablesFault α} {env : Environment} :
    Stops (env.load read) ↔
      ¬ env.IsText ∨ ∃ vars, env = encoded vars ∧ read vars = .error .durationOverflow := by
  constructor
  · rintro ⟨fault, hload, hfatal⟩
    by_cases henv : env.IsText
    · obtain ⟨vars, rfl⟩ := henv
      rw [Environment.load_encoded] at hload
      cases hread : read vars with
      | ok a =>
        rw [hread] at hload
        cases hload
      | error refusal =>
        rw [hread] at hload
        obtain rfl := Except.error.inj hload
        obtain rfl : refusal = .durationOverflow := hfatal
        exact .inr ⟨vars, rfl, hread⟩
    · exact .inl henv
  · rintro (henv | ⟨vars, rfl, hread⟩)
    · exact ⟨_, Environment.load_of_not_isText henv, trivial⟩
    · refine ⟨.refused .durationOverflow, ?_, rfl⟩
      rw [Environment.load_encoded, hread]
      rfl

/-- **What disturbs settings in the environment.**  The settings and the options of JSON output that
a service reads from an environment are those that it would read from its own variables alone, just
in case all of the environment is text, or its own variables are no text either.  The program stops
without settings if any part of the environment is no text, and else only if a length of time among
the service's own variables overflows; without the options, it stops in the first case alone. -/
theorem undisturbed_iff (service : String) (env : Environment) :
    (fromEnvironment service (env.restrict service settingNames) = fromEnvironment service env ↔
      env.IsText ∨ ¬ (env.restrict service settingNames).IsText) ∧
    (jsonFromEnvironment service (env.restrict service jsonNames) = jsonFromEnvironment service env ↔
      env.IsText ∨ ¬ (env.restrict service jsonNames).IsText) ∧
    (Stops (fromEnvironment service env) ↔
      ¬ env.IsText ∨ ∃ vars, env = encoded vars ∧
        fromVariables service vars = .error .durationOverflow) ∧
    (Stops (jsonFromEnvironment service env) ↔ ¬ env.IsText) ∧
    ∀ vars, fromVariables service vars = .error .durationOverflow →
      ∃ name ∈ durationNames, ∃ t, lastValue vars (variableName service name) = some t ∧
        Duration.read t.toList = .error .overflow := by
  refine ⟨Environment.load_restrict_iff (dependsOn_fromVariables service),
    Environment.load_restrict_iff (dependsOn_jsonFromVariables service), stops_load_iff, ?_,
    fun _ => overflow_of_fromVariables⟩
  rw [jsonFromEnvironment, stops_load_iff]
  simp only [jsonFromVariables_ne_overflow, and_false, exists_false, or_false]

/-- A variable whose length of time has more seconds than can be counted. -/
def overflowing : Variables :=
  [("SHOP_CLOSE_TIMEOUT", "18446744073709551615s 1000000000ns")]

theorem fromVariables_overflowing :
    fromVariables "shop" overflowing = .error .durationOverflow :=
  ofVariables_eq_error_iff.2 (by rfl)

/-- Such a variable stops the program, and so it does beside others. -/
theorem undisturbed_iff_overflowing : Stops (fromEnvironment "shop" (encoded overflowing)) ∧
    ∃ name ∈ durationNames, ∃ t, lastValue overflowing (variableName "shop" name) = some t ∧
      Duration.read t.toList = .error .overflow := 
  ⟨(undisturbed_iff "shop" (encoded overflowing)).2.2.1.2
      (.inr ⟨overflowing, rfl, fromVariables_overflowing⟩),
    (undisturbed_iff "shop" (encoded overflowing)).2.2.2.2 overflowing fromVariables_overflowing⟩

/-- An environment with a variable that is no text, and none of the service's own. -/
def strayByte : Environment :=
  [(bytesOf "OTHER", [0xFF])]

/-- A variable that no setting uses stops the program, which has its settings without it. -/
theorem stray_byte_stops :
    strayByte.restrict "shop" settingNames = [] ∧ strayByte.restrict "shop" jsonNames = [] ∧
    fromEnvironment "shop" [] = .ok {} ∧ jsonFromEnvironment "shop" [] = .ok {} ∧
    fromEnvironment "shop" strayByte = .error .notText ∧
    jsonFromEnvironment "shop" strayByte = .error .notText := by
  refine ⟨by decide, by decide, ?_, rfl, rfl, rfl⟩
  rw [fromEnvironment]
  exact Environment.load_encoded.trans (congrArg (Except.mapError _) fromVariables_nil)

end ServiceHost.Settings
