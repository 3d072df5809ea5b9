import Mathlib.Data.List.Basic
import Mathlib.Data.List.Nodup
import ServiceHost.Proofs.Settings.Items
import ServiceHost.Proofs.Text
/-!
Settings from variables, one by one.

`fromVariables` strips what stands before the names of a service's variables, reads the stripped
variables in the order of its two tables, and stops at the first fault.  Seen from outside, each
setting depends on the last value of its own variable and on nothing else
(`fromVariables_variablewise`).
-/

namespace ServiceHost.Settings

/-! ### Names -/

/-- The name of a variable of a service. -/
def variableName (service name : String) : String :=
  String.ofList (variableStart service ++ name.toList)

theorem variableName_inj {service name name' : String} :
    variableName service name = variableName service name' ↔ name = name' := by
  simp [variableName]

theorem variableName_empty (name : String) : variableName "" name = name := by
  simp [variableName, variableStart]

theorem after_variableStart_iff {service full : String} {rest : List Char} :
    Text.after? (variableStart service) full.toList = some rest ↔
      full = variableName service (String.ofList rest) := by
  rw [Text.after?_eq_some_iff, variableName, String.toList_ofList, ← String.ofList_inj,
    String.ofList_toList]

/-- A stripped variable has the last value of the variable that it was. -/
theorem lastValue_stripped (service : String) (vars : Variables) (name : String) :
    lastValue (stripped service vars) name = lastValue vars (variableName service name) := by
  have hstrip : ∀ v : String × String,
      ((Text.after? (variableStart service) v.1.toList).map fun rest =>
        (String.ofList rest, v.2)).any (·.1 == name) = (v.1 == variableName service name) := by
    intro v
    rw [Bool.eq_iff_iff]
    simp only [Option.any_map, Option.any_eq_true, after_variableStart_iff, beq_iff_eq]
    constructor
    · rintro ⟨rest, h, rfl⟩
      exact h
    · intro h
      exact ⟨name.toList, by rwa [String.ofList_toList], String.ofList_toList⟩
  -- so the last stripped variable of the name is the last variable of the full name, stripped
  rw [lastValue, lastValue, stripped, ← List.filterMap_reverse, List.find?_filterMap]
  simp only [hstrip]
  generalize hfound : vars.reverse.find? (fun v => v.1 == variableName service name) = found
  cases found with
  | none => rfl
  | some v =>
    have hname := List.find?_some hfound
    simp only [beq_iff_eq] at hname
    rw [← String.ofList_toList (s := name), ← after_variableStart_iff] at hname
    show (Option.map _ (Text.after? _ v.1.toList)).map _ = some v.2
    rw [hname]
    rfl

/-- Variables of other names do not matter for the last value of a name. -/
theorem lastValue_filter {p : String × String → Bool} {name : String}
    (h : ∀ v : String × String, v.1 = name → p v = true) (vars : Variables) :
    lastValue (vars.filter p) name = lastValue vars name := by
  rw [lastValue, lastValue, ← List.filter_reverse, List.find?_filter]
  congr 2
  funext v
  by_cases hv : v.1 = name
  · simp [hv, h v hv]
  · simp [hv]

theorem lastValue_filter_ne (vars : Variables) (name : String) :
    lastValue (vars.filter (·.1 != name)) name = none := by
  rw [lastValue, Option.map_eq_none_iff, List.find?_eq_none]
  intro v hv
  simpa using List.of_mem_filter (List.mem_reverse.1 hv)

/-- Without a variable of a service its other variables have the values that they had. -/
theorem lastValue_without {service name name' : String} (h : name' ≠ name) (vars : Variables) :
    lastValue (vars.filter (·.1 != variableName service name)) (variableName service name') =
      lastValue vars (variableName service name') := by
  refine lastValue_filter (fun v hv => ?_) vars
  rw [hv, bne_iff_ne]
  exact fun heq => h (variableName_inj.1 heq)

/-! ### One variable -/

theorem readPath_eq (s : List Char) :
    readPath s = if Text.isBlankText s then none else some (String.ofList (Text.trim s)) := by
  rw [readPath, Text.isEmpty_trim]

/-- A variable whose text is read first. -/
theorem load_parsed {α β : Type} (name default : String) (read : List Char → Except TextFault β)
    (put : β → α → α) (vars : Variables) (a : α) :
    (Variable.parsed name default read put).load vars a =
      ((read ((lastValue vars name).getD default).toList).mapError (Form.refusal name)).map
        fun x => put x a := by
  simp only [Variable.load, Variable.value, Variable.parsed]
  rcases read ((lastValue vars name).getD default).toList with (_ | _) | x <;> rfl

namespace Form

variable {α β : Type} {form : Form β}

/-- The variable of a setting that is no choice. -/
def plainVariable? (name default : String) :
    {β : Type} → Form β → (β → α → α) → Option (Variable α)
  | _, .text, put => some (.text name default put)
  | _, .truth, put => some (.bool name default put)
  | _, .length, put => some (.parsed name default readDuration put)
  | _, .word, put => some (.parsed name default readWord put)
  | _, .rate, put => some (.parsed name default readReal put)
  | _, .path, put => some (.text name default fun v => put (readPath v.toList))
  | _, @choice _ _, _ => none

/-- The variable of a choice. -/
def choiceVariable? (name default : String) :
    {β : Type} → Form β → (β → Settings → Settings) → Option ChoiceVariable
  | _, @choice _ _, put =>
    some ⟨name, default, fun s settings => (Choice.read s).map fun v => put v settings⟩
  | _, _, _ => none

theorem load_plainVariable? (h : form.isChoice = false) (name default : String) (put : β → α → α)
    (vars : Variables) :
    ∃ v, form.plainVariable? name default put = some v ∧ ∀ a, v.load vars a =
      (form.ofText name ((lastValue vars name).getD default)).map fun x => put x a := by
  cases form with
  | choice => cases h
  | text =>
    refine ⟨_, rfl, fun a => ?_⟩
    simp [Variable.load, Variable.text, Variable.value, ofText, Except.map]
  | path =>
    refine ⟨_, rfl, fun a => ?_⟩
    simp [Variable.load, Variable.text, Variable.value, ofText, Except.map, readPath_eq]
  | truth | length | word | rate => exact ⟨_, rfl, load_parsed _ _ _ _ vars⟩

theorem load_choiceVariable? (h : form.isChoice = true) (name default : String)
    (put : β → Settings → Settings) (vars : Variables) :
    ∃ v, form.choiceVariable? name default put = some v ∧ ∀ s, v.load vars s =
      (form.ofText name ((lastValue vars name).getD default)).map fun x => put x s := by
  cases form with
  | text | truth | length | word | rate | path => cases h
  | choice =>
    refine ⟨_, rfl, fun s => ?_⟩
    simp only [ChoiceVariable.load, ofText]
    rcases Choice.read ((lastValue vars name).getD default).toList with fault | x <;> rfl

theorem plainVariable?_eq_none (h : form.isChoice = true) (name default : String)
    (put : β → α → α) : form.plainVariable? name default put = none := by
  cases form <;> first | rfl | cases h

theorem choiceVariable?_eq_none (h : form.isChoice = false) (name default : String)
    (put : β → Settings → Settings) : form.choiceVariable? name default put = none := by
  cases form <;> first | rfl | cases h

end Form

/-- **Each default text stands for the default.** -/
theorem ofText_default : ∀ i ∈ items, i.form.ofText i.name i.default = .ok (i.slot.get {}) := by
  rw [← List.forall_iff_forall_mem]
  repeat' apply And.intro
  all_goals rfl

namespace Item

/-- What the text of its variable makes of a setting; without a text it has its default. -/
def load (i : Item Settings) (text : Option String) : Except VariablesFault i.Value :=
  i.given {} (text.map (i.form.ofText i.name))

theorem load_eq {i : Item Settings} (hi : i ∈ items) (text : Option String) :
    i.load text = i.form.ofText i.name (text.getD i.default) := by
  cases text with
  | none => exact (ofText_default i hi).symm
  | some s => rfl

/-- The step that fills the place of a setting. -/
def store (vars : Variables) (i : Item Settings) : Store Settings VariablesFault :=
  ⟨i.toPlace, i.load (lastValue vars i.name)⟩

end Item

/-! ### All variables -/

theorem settingVariables_eq :
    settingVariables = items.filterMap fun i => i.form.plainVariable? i.name i.default i.slot.put :=
  rfl

theorem choiceVariables_eq :
    choiceVariables =
      items.filterMap fun i => i.form.choiceVariable? i.name i.default i.slot.put :=
  rfl

/-- The settings in the order in which their variables are read: the choices come last. -/
def readingOrder : List (Item Settings) :=
  items.filter (!·.form.isChoice) ++ items.filter (·.form.isChoice)

theorem readingOrder_perm : readingOrder.Perm items :=
  List.perm_append_comm.trans (List.filter_append_perm _ items)

open Store in
/-- Reading the variables is to fill the places of the settings. -/
theorem ofVariables_eq (vars : Variables) :
    ofVariables vars = storeAll (readingOrder.map (Item.store vars)) {} := by
  have hstores : readingOrder.map (Item.store vars) = readingOrder.map fun i =>
      Store.mk i.toPlace (i.form.ofText i.name ((lastValue vars i.name).getD i.default)) := by
    apply List.map_congr_left
    intro i hi
    rw [Item.store, Item.load_eq (readingOrder_perm.mem_iff.1 hi)]
  -- one table holds the settings that are no choices, the other one the choices
  rw [hstores, storeAll, List.foldlM_map, readingOrder, List.foldlM_append, ofVariables,
    settingVariables_eq, choiceVariables_eq]
  congr
  · apply Except.foldlM_filterMap_eq
    · intro i hi
      exact i.form.load_plainVariable? (by simpa using hi) i.name i.default i.slot.put vars
    · intro i hi
      exact i.form.plainVariable?_eq_none (by simpa using hi) i.name i.default i.slot.put
  · funext s
    apply Except.foldlM_filterMap_eq
    · intro i hi
      exact i.form.load_choiceVariable? hi i.name i.default i.slot.put vars
    · intro i hi
      exact i.form.choiceVariable?_eq_none hi i.name i.default i.slot.put

theorem ofVariables_eq_ok_iff {vars : Variables} {s : Settings} :
    ofVariables vars = .ok s ↔ ∀ i ∈ items, i.load (lastValue vars i.name) = .ok (i.slot.get s) := by
  have hplaces : Place.Partition ((readingOrder.map (Item.store vars)).map Store.toPlace) := by
    rw [List.map_map]
    exact items_partition.perm (readingOrder_perm.symm.map Item.toPlace)
  rw [ofVariables_eq, Store.storeAll_eq_ok_iff hplaces, List.forall_mem_map]
  simp only [readingOrder_perm.mem_iff]
  rfl

theorem ofVariables_eq_error_iff {vars : Variables} {fault : VariablesFault} :
    ofVariables vars = .error fault ↔
      readingOrder.findSome? (fun i => (i.load (lastValue vars i.name)).error?) = some fault := by
  rw [ofVariables_eq, Store.storeAll_eq_error_iff, List.findSome?_map]
  rfl

/-- No two settings have a variable in common. -/
theorem names_nodup : (items.map (·.name)).Nodup := by
  decide

theorem eq_of_name {i j : Item Settings} (hi : i ∈ items) (hj : j ∈ items) (hname : i.name = j.name) :
    i = j :=
  List.inj_on_of_nodup_map names_nodup hi hj hname

theorem apart_of_name {i j : Item Settings} (hi : i ∈ items) (hj : j ∈ items)
    (hne : i.name ≠ j.name) : i.slot.Apart j.slot := by
  have : Std.Symm fun a b : Item Settings => a.toPlace.Apart b.toPlace := ⟨fun _ _ h => h.symm⟩
  exact (List.pairwise_map.1 items_partition.apart).forall hi hj fun heq =>
    hne (congrArg Item.name heq)

theorem fromVariables_eq_ok_iff {service : String} {vars : Variables} {s : Settings} :
    fromVariables service vars = .ok s ↔
      ∀ i ∈ items, i.load (lastValue vars (variableName service i.name)) = .ok (i.slot.get s) := by
  rw [fromVariables, ofVariables_eq_ok_iff]
  simp only [lastValue_stripped]

/-- Without variables all settings have their defaults. -/
theorem fromVariables_nil {service : String} : fromVariables service [] = .ok {} :=
  fromVariables_eq_ok_iff.2 fun _ _ => rfl

/-- The settings depend on the last values of the variables alone. -/
theorem fromVariables_congr {service service' : String} {vars vars' : Variables}
    (h : ∀ i ∈ items, lastValue vars' (variableName service' i.name) =
      lastValue vars (variableName service i.name)) :
    fromVariables service' vars' = fromVariables service vars := by
  have hstores : readingOrder.map (Item.store (stripped service' vars')) =
      readingOrder.map (Item.store (stripped service vars)) := by
    apply List.map_congr_left
    intro i hi
    rw [Item.store, Item.store, lastValue_stripped, lastValue_stripped,
      h i (readingOrder_perm.mem_iff.1 hi)]
  rw [fromVariables, fromVariables, ofVariables_eq, ofVariables_eq, hstores]

/-- A variable that can be read changes its own setting in what the other variables give, and
nothing about whether they give settings at all. -/
theorem fromVariables_of_load {service : String} {vars : Variables} {i : Item Settings}
    (hi : i ∈ items) {v : i.Value}
    (hv : i.load (lastValue vars (variableName service i.name)) = .ok v) :
    fromVariables service vars =
      (fromVariables service (vars.filter (·.1 != variableName service i.name))).map
        (i.slot.put v) := by
  have hwithout : i.load (lastValue (vars.filter (·.1 != variableName service i.name))
      (variableName service i.name)) = .ok (i.slot.get {}) := by
    rw [lastValue_filter_ne]
    rfl
  cases hrest : fromVariables service (vars.filter (·.1 != variableName service i.name)) with
  | error fault =>
    -- the variable is not the one at fault
    have hfaults : readingOrder.map (fun j =>
        (j.load (lastValue (stripped service vars) j.name)).error?) = readingOrder.map fun j =>
        (j.load (lastValue (stripped service
          (vars.filter (·.1 != variableName service i.name))) j.name)).error? := by
      refine List.map_congr_left fun j hj => ?_
      rw [lastValue_stripped, lastValue_stripped]
      by_cases hne : j.name = i.name
      · obtain rfl := eq_of_name (readingOrder_perm.mem_iff.1 hj) hi hne
        rw [hv, hwithout]
        rfl
      · rw [lastValue_without hne]
    have hfirst := congrArg (List.findSome? id) hfaults
    rw [List.findSome?_map, List.findSome?_map] at hfirst
    exact ofVariables_eq_error_iff.2 (hfirst.trans (ofVariables_eq_error_iff.1 hrest))
  | ok s =>
    show _ = Except.ok (i.slot.put v s)
    rw [fromVariables_eq_ok_iff] at hrest ⊢
    intro j hj
    by_cases hne : j.name = i.name
    · obtain rfl := eq_of_name hj hi hne
      rw [hv, j.slot.get_put]
    · rw [(apart_of_name hj hi hne).left, ← hrest j hj, lastValue_without hne]

/-- **Variables are read one by one.**  No two settings share a variable.  Only the last values of
the variables of settings count, with the name of the service in front or stripped of it.  The
settings that variables give are those in which each setting has what its own variable says, or its
default if there is no such variable; there are none exactly if some variable cannot be read, and
the first fault is the one reported, that of a choice after all others.  So a change of one variable
changes at most the setting of that variable. -/
theorem fromVariables_variablewise (service : String) (vars : Variables) :
    (items.map fun i => variableName service i.name).Nodup ∧
    (∀ vars', (∀ i ∈ items, lastValue vars' (variableName service i.name) =
        lastValue vars (variableName service i.name)) →
      fromVariables service vars' = fromVariables service vars) ∧
    fromVariables service vars = fromVariables "" (stripped service vars) ∧
    (∀ s, fromVariables service vars = .ok s ↔
      ∀ i ∈ items, i.load (lastValue vars (variableName service i.name)) = .ok (i.slot.get s)) ∧
    (∀ fault, fromVariables service vars = .error fault ↔
      (items.filter (!·.form.isChoice) ++ items.filter (·.form.isChoice)).findSome? (fun i =>
        (i.load (lastValue vars (variableName service i.name))).error?) = some fault) ∧
    ∀ i ∈ items, ∀ vars', (∀ j ∈ items, j.name ≠ i.name →
        lastValue vars' (variableName service j.name) =
          lastValue vars (variableName service j.name)) →
      ∀ s s', fromVariables service vars = .ok s → fromVariables service vars' = .ok s' →
        ∀ j ∈ items, j.name ≠ i.name → j.slot.get s' = j.slot.get s := by
  refine ⟨?names, fun vars' => fromVariables_congr, ?stripped, fun s => fromVariables_eq_ok_iff,
    ?fault, ?change⟩
  case names =>
    have h := List.pairwise_map.1 names_nodup
    exact List.pairwise_map.2 (h.imp fun hne heq => hne (variableName_inj.1 heq))
  case stripped =>
    apply fromVariables_congr
    intro i _
    rw [variableName_empty, lastValue_stripped]
  case fault =>
    intro fault
    rw [fromVariables, ofVariables_eq_error_iff]
    simp only [lastValue_stripped]
    rfl
  case change =>
    intro i _ vars' hsame s s' hs hs' j hj hji
    have h := fromVariables_eq_ok_iff.1 hs j hj
    have h' := fromVariables_eq_ok_iff.1 hs' j hj
    rw [hsame j hj hji, h] at h'
    exact (Except.ok.inj h').symm

end ServiceHost.Settings
