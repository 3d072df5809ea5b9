import ServiceHost.Proofs.Numeral
import ServiceHost.Proofs.Settings.Documents
import ServiceHost.Proofs.Settings.Loading
/-!
Variables and documents agree.

The tables by which variables and documents are read are written twice.  A value that can be given
for a setting in both ways is read as the same, and where nothing is given both tables have the same
default.  So variables and a document that give the same settings the same values give the same
settings altogether, or both are refused (`sources_agree`).
-/

namespace ServiceHost

open Decimal
open Document (Rules at?)

namespace Settings

/-! ### Values -/

/-- A value to be given for a setting.  A length of time and a choice are given as texts. -/
inductive Given where
  | truth (b : Bool)
  | text (s : String)
  | count (n : Nat)
  | rate (x : Double)

namespace Given

/-- The texts that spell a value. -/
def IsText : Given → String → Prop
  | .truth b, t => t = if b then "true" else "false"
  | .text s, t => t = s
  | .count n, t => Numeral.digits? t.toList = some n
  | .rate x, t => Double.parse? t.toList = some x

/-- The trees that hold a value; a rate may be written as a whole number that fits a word. -/
def IsDocument : Given → Document → Prop
  | .truth b, d => d = .bool b
  | .text s, d => d = .text s
  | .count n, d => d = .integer n
  | .rate x, d => d = .real x ∨
      ∃ n : Int, d = .integer n ∧ (-(twoTo 63 : Int) ≤ n ∧ n < twoTo 64) ∧ Double.ofInt n = x

end Given

namespace Form

/-- The values that can be given for a setting, in a variable or in a document.  A path is none of
them: in a variable it may be blank. -/
def Accepts {β : Type} : Form β → Given → Prop
  | .truth, .truth _ => True
  | .text, .text _ => True
  | .length, .text _ => True
  | @choice _ _, .text _ => True
  | .word, .count _ => True
  | .rate, .rate x => x.isFinite = true
  | _, _ => False

/-- **A value is read as the same in both ways.** -/
theorem ofText_eq_ok_iff {β : Type} {form : Form β} {g : Given} (hform : form.Accepts g)
    {t : String} (ht : g.IsText t) {d : Document} (hd : g.IsDocument d) (name : String) {v : β} :
    form.ofText name t = .ok v ↔ form.ofDocument d = .ok v := by
  cases form <;> cases g <;> try exact hform.elim
  case text.text s =>
    subst ht hd
    simp only [ofText, ofDocument, Document.readText, Except.ok.injEq]
  case truth.truth b =>
    subst ht hd
    simp only [ofText, ofDocument, Except.mapError_eq_ok_iff]
    cases b <;> simp [Document.readBool, readBool]
  case length.text s =>
    subst ht hd
    simp only [ofText, ofDocument, Except.mapError_eq_ok_iff, documentDuration, readDuration,
      Document.readText]
    rcases Duration.read t.toList with (_ | _) | x <;> simp
  case choice.text s =>
    subst ht hd
    simp only [ofText, ofDocument, Except.mapError_eq_ok_iff, documentChoice, Document.readText]
    rcases Choice.read t.toList with fault | x <;> simp
  case word.count n =>
    subst hd
    have hword : n ≤ Numeral.maxUnsigned 64 ↔ 0 ≤ (n : Int) ∧ (n : Int) < twoTo 64 := by
      rw [Numeral.maxUnsigned]
      have hpos : 0 < twoTo 64 := by decide
      omega
    simp only [ofText, ofDocument, Except.mapError_eq_ok_iff, readWord, Document.readWord,
      Numeral.unsigned_eq ht, ← hword, Int.toNat_natCast]
    by_cases hn : n ≤ Numeral.maxUnsigned 64 <;> simp [hn]
  case rate.rate x =>
    have hparse : Double.parse? t.toList = some x := ht
    have hreal : Document.readReal d = .ok x := by
      rcases hd with rfl | ⟨n, rfl, hn, rfl⟩
      · rfl
      · rw [Document.readReal, if_pos hn]
    simp only [ofText, ofDocument, Except.mapError_eq_ok_iff, readReal, hparse, hreal,
      Except.ok.injEq]

end Form

/-! ### Assignments -/

/-- Values given for some of the settings, by the names of their variables. -/
abbrev Assignment := String → Option Given

namespace Assignment

/-- Is each value of the kind that its setting wants? -/
def IsValid (a : Assignment) : Prop :=
  ∀ i ∈ items, ∀ g ∈ a i.name, i.form.Accepts g

/-- Do variables of a service give these values and no others?  Variables that belong to no setting
may have any values. -/
def InVariables (a : Assignment) (service : String) (vars : Variables) : Prop :=
  ∀ i ∈ items, Option.Rel Given.IsText (a i.name) (lastValue vars (variableName service i.name))

/-- Does a document give these values and no others?  A group of which nothing is given may be
missing or be an empty table. -/
def InDocument (a : Assignment) (d : Document) : Prop :=
  IsNested d ∧ ∀ i ∈ items, Option.Rel Given.IsDocument (a i.name) (at? (some d) i.path)

end Assignment

theorem Item.load_eq_ok_iff {i : Item Settings} {g : Option Given}
    (hvalid : ∀ g' ∈ g, i.form.Accepts g') {t : Option String} (ht : Option.Rel Given.IsText g t)
    {d : Document} (hd : Option.Rel Given.IsDocument g (at? (some d) i.path)) {v : i.Value} :
    i.load t = .ok v ↔ i.loadDocument d = .ok v := by
  rw [Item.load, Item.loadDocument]
  generalize at? (some d) i.path = found at hd ⊢
  cases ht with
  | none =>
    cases hd
    simp only [Option.map_none, Place.given, Except.ok.injEq]
  | some ht =>
    cases hd with
    | some hd => exact Form.ofText_eq_ok_iff (hvalid _ rfl) ht hd i.name

/-- **Variables and documents agree.**  Whatever values are given for whatever settings: the
variables of a service and a document that give these values give the same settings, or neither
gives any.  A setting that neither gives has the same default in both. -/
theorem sources_agree (a : Assignment) (hvalid : a.IsValid) (service : String) (vars : Variables)
    (hvars : a.InVariables service vars) (rules : Rules) (d : Document) (hd : a.InDocument d) :
    (fromVariables service vars).toOption = (ofDocument rules d).toOption ∧
      ∀ i ∈ items, i.form.ofText i.name i.default = .ok (i.slot.get {}) := by
  refine ⟨?_, ofText_default⟩
  -- both sides say of each setting what it is, and each is read as the same on both
  apply Option.ext
  intro s
  calc (fromVariables service vars).toOption = some s
    _ ↔ ∀ i ∈ items, i.load (lastValue vars (variableName service i.name)) = .ok (i.slot.get s) :=
      Except.toOption_eq_some_iff.trans fromVariables_eq_ok_iff
    _ ↔ ∀ i ∈ items, i.loadDocument d = .ok (i.slot.get s) :=
      forall₂_congr fun i hi => Item.load_eq_ok_iff (hvalid i hi) (hvars i hi) (hd.2 i hi)
    _ ↔ ofDocument rules d = .ok s := (ofDocument_eq_ok_iff rules hd.1).symm
    _ ↔ (ofDocument rules d).toOption = some s := Except.toOption_eq_some_iff.symm

/-! ### An assignment -/

/-- Four values, one of each kind but the truth values. -/
def sampleValues : Assignment :=
  (List.lookup · [("LOG_LEVEL", .text "debug"), ("TRACING_BACKEND", .text " Jaeger "),
    ("TRACING_BATCH_SIZE", .count 64),
    ("PROFILING_SAMPLE_RATE", .rate (.finite false (twoTo 52) (-53)))])

/-- The values in variables, one of which is given twice. -/
def sampleVariables : Variables :=
  [("SHOP_TRACING_BATCH_SIZE", "512"), ("SHOP_LOG_LEVEL", "debug"), ("PATH", "/bin"),
    ("SHOP_TRACING_BACKEND", " Jaeger "), ("SHOP_TRACING_BATCH_SIZE", "064"),
    ("SHOP_PROFILING_SAMPLE_RATE", "0.5")]

/-- The values in a document with an empty group and a missing one. -/
def sampleDocument : Document :=
  .table [
    ("telemetry", .table [
      ("profiling", .table [("sample_rate", .real (.finite false (twoTo 52) (-53)))]),
      ("logging", .table []),
      ("tracing", .table [("batch_size", .integer 64), ("backend", .text " Jaeger ")])]),
    ("log_level", .text "debug")]

theorem sampleValues_isValid : sampleValues.IsValid := by
  rw [Assignment.IsValid, ← List.forall_iff_forall_mem]
  repeat' apply And.intro
  all_goals intro g hg
  all_goals first
    | (obtain rfl := Option.some.inj hg; first | exact trivial | exact rfl)
    | cases hg

theorem sampleValues_inVariables : sampleValues.InVariables "shop" sampleVariables := by
  rw [Assignment.InVariables, ← List.forall_iff_forall_mem]
  repeat' apply And.intro
  all_goals first | exact .none | exact .some rfl

theorem sampleDocument_isNested : IsNested sampleDocument := by
  rw [IsNested, ← List.forall_iff_forall_mem]
  repeat' apply And.intro
  all_goals intro g hg
  all_goals first
    | (obtain rfl := Option.some.inj hg; show List.Nodup _; decide)
    | cases hg

theorem sampleValues_inDocument : sampleValues.InDocument sampleDocument := by
  refine ⟨sampleDocument_isNested, ?_⟩
  rw [← List.forall_iff_forall_mem]
  repeat' apply And.intro
  all_goals first | exact .none | exact .some rfl | exact .some (.inl rfl)

/-- The sample assignment, spelled out as variables and as a document, is read as one and the same
configuration. -/
theorem sources_agree_sample :
    sampleValues.IsValid ∧ sampleValues.InVariables "shop" sampleVariables ∧
      sampleValues.InDocument sampleDocument ∧
      (fromVariables "shop" sampleVariables).toOption =
        (ofDocument Document.tomlRules sampleDocument).toOption :=
  ⟨sampleValues_isValid, sampleValues_inVariables, sampleValues_inDocument,
    (sources_agree sampleValues sampleValues_isValid "shop" sampleVariables
      sampleValues_inVariables Document.tomlRules sampleDocument sampleValues_inDocument).1⟩

end Settings

end ServiceHost
