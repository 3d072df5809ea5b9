import ServiceHost.Proofs.Numeral
import ServiceHost.Proofs.Rpc.Counting
/-!
The status under which a call is counted.

An answer that ends at once says how the call went in a header field, whose value may be any bytes.
`Layer.status_counted_by_field` tells which status is counted for every value: that of the code
whose number the value spells, if the value can be shown as text.  A value that cannot be shown
counts as if it were missing, that is as a success (`Layer.unreadable_status_counted_ok`).
-/

namespace ServiceHost

/-! ### Values as bytes -/

namespace Headers

/-- The value that consists of the given bytes, each of them a character. -/
def ofBytes (bytes : List UInt8) : String :=
  String.ofList (bytes.map Char.ofUInt8)

/-- A byte that a text of a header may hold: a printable ASCII character or a tab. -/
def IsShown (b : UInt8) : Prop :=
  b = 9 ∨ 32 ≤ b ∧ b ≤ 126

instance : DecidablePred IsShown := fun b => inferInstanceAs (Decidable (b = 9 ∨ 32 ≤ b ∧ b ≤ 126))

theorem isVisible_ofUInt8 (b : UInt8) : Text.isVisible (Char.ofUInt8 b) = true ↔ IsShown b := by
  have hnat : (Char.ofUInt8 b).toNat = b.toNat := UInt8.toNat_toUInt32 b
  have htab : Char.ofUInt8 b = '\t' ↔ b = 9 := by
    rw [← Char.toNat_inj, hnat, ← UInt8.toNat_inj]
    rfl
  unfold Text.isVisible IsShown
  rw [Bool.or_eq_true, Bool.and_eq_true, beq_iff_eq, decide_eq_true_eq, decide_eq_true_eq, hnat, htab,
    UInt8.le_iff_toNat_le, UInt8.le_iff_toNat_le]
  rfl

theorem isText_ofBytes {bytes : List UInt8} :
    isText (ofBytes bytes) = true ↔ ∀ b ∈ bytes, IsShown b := by
  unfold isText ofBytes
  rw [String.toList_ofList, List.all_map, List.all_eq_true]
  exact forall₂_congr fun b _ => isVisible_ofUInt8 b

end Headers

namespace Rpc

open Metrics (CallMeter)
open Numeral (SpellsInt)

/-! ### Codes by their numbers -/

namespace Code

/-- The names of the codes, each at the place of its number. -/
def names : List String :=
  ["OK", "CANCELLED", "UNKNOWN", "INVALID_ARGUMENT", "DEADLINE_EXCEEDED", "NOT_FOUND",
    "ALREADY_EXISTS", "PERMISSION_DENIED", "RESOURCE_EXHAUSTED", "FAILED_PRECONDITION", "ABORTED",
    "OUT_OF_RANGE", "UNIMPLEMENTED", "INTERNAL", "UNAVAILABLE", "DATA_LOSS", "UNAUTHENTICATED"]

/-- The status that a text stands for: a success if it spells zero and not otherwise, the name of
the code whose number it spells, and unknown if it spells no number of a code. -/
structure Stands (text : List Char) (status : String) : Prop where
  ok : status = "OK" ↔ SpellsInt 0 text
  listed : ∀ n : Nat, n ≤ 16 → SpellsInt n text → names[n]? = some status
  other : (∀ n : Nat, n ≤ 16 → ¬ SpellsInt n text) → status = "UNKNOWN"

theorem name_ofNumber {n : Nat} (hn : n ≤ 16) : names[n]? = some (ofNumber n).name := by
  have hall : ∀ i : Fin 17, names[i.val]? = some (ofNumber i.val).name := by decide
  exact hall ⟨n, Nat.lt_succ_of_le hn⟩

theorem ofText_of_spells {s : List Char} {n : Nat} (hn : n ≤ 16) (h : SpellsInt n s) :
    ofText s = ofNumber n := by
  have hbound : 16 ≤ Numeral.maxSigned 32 := by decide
  have hread : Numeral.signed (Numeral.maxSigned 32) s = .ok (n : Int) :=
    Numeral.signed_eq_ok_iff.2 ⟨h, by omega, by omega⟩
  rw [ofText, hread]

theorem ofText_eq_unknown {s : List Char} (h : ∀ n : Nat, n ≤ 16 → ¬ SpellsInt n s) :
    ofText s = .unknown := by
  unfold ofText
  split
  next z hz =>
    obtain ⟨hspells, -, -⟩ := Numeral.signed_eq_ok_iff.1 hz
    cases z with
    | ofNat n =>
      -- a number without a code
      have hn : all.length ≤ n := Nat.lt_of_not_le fun hn => h n hn hspells
      rw [ofNumber, List.getD_eq_getElem?_getD, List.getElem?_eq_none hn, Option.getD_none]
    | negSucc n => rfl
  next => rfl

/-- **Every text stands for the status that is read from it.** -/
theorem stands_ofText (s : List Char) : Stands s (ofText s).name := by
  have hlisted : ∀ n : Nat, n ≤ 16 → SpellsInt n s → names[n]? = some (ofText s).name := by
    intro n hn hspells
    rw [ofText_of_spells hn hspells]
    exact name_ofNumber hn
  have hother : (∀ n : Nat, n ≤ 16 → ¬ SpellsInt n s) → (ofText s).name = "UNKNOWN" :=
    fun h => congrArg name (ofText_eq_unknown h)
  refine ⟨⟨fun hok => ?_, fun hzero => ?_⟩, hlisted, hother⟩
  · by_contra hzero
    -- no other number has this name
    have hnone : ∀ n : Nat, n ≤ 16 → ¬ SpellsInt n s := by
      intro n hn hspells
      have hname := hlisted n hn hspells
      rw [hok] at hname
      have hfirst : ∀ i : Fin 17, names[i.val]? = some "OK" → i.val = 0 := by decide
      obtain rfl : n = 0 := hfirst ⟨n, Nat.lt_succ_of_le hn⟩ hname
      exact hzero hspells
    have hne : "UNKNOWN" ≠ "OK" := by decide
    exact hne ((hother hnone).symm.trans hok)
  · have hname := hlisted 0 (Nat.zero_le _) hzero
    exact (Option.some.inj hname).symm

end Code

/-! ### The status of an answer -/

theorem status?_of_missing {headers : Headers} (h : headers.first "grpc-status" = none) :
    (CallResult.answered headers).status? = some "OK" := by
  rw [CallResult.status?, Headers.firstText, h]
  rfl

theorem status?_of_isText {headers : Headers} {value : String}
    (h : headers.first "grpc-status" = some value) (htext : Headers.isText value = true) :
    (CallResult.answered headers).status? = some (Code.ofText value.toList).name := by
  rw [CallResult.status?, Headers.firstText, h, Option.filter_some, if_pos htext]

theorem status?_of_not_isText {headers : Headers} {value : String}
    (h : headers.first "grpc-status" = some value) (htext : ¬ Headers.isText value = true) :
    (CallResult.answered headers).status? = some "OK" := by
  rw [CallResult.status?, Headers.firstText, h, Option.filter_some, if_neg htext]
  rfl

/-! ### What is counted -/

namespace Layer

/-- **The status of an answer is counted by its field.**  Calls through a layer with a new meter
have begun and ended in any order, and one that is under way is answered.  It is counted under one
status.  Without the field this is a success.  With the field, and a value of whatever bytes, it is
the status that the value stands for as a numeral if all of its bytes can be shown as text; it is a
success, too, if one of them cannot be shown, whatever the value says. -/
theorem status_counted_by_field {namesp : String} {m : CallMeter}
    (hm : CallMeter.create namesp = .ok m) (steps : List Step) {place : Nat} {call : Call}
    (hcall : ((start (some m)).run steps).1.underWay place = some call) (headers : Headers) :
    ∃ l n n' status, ((start (some m)).run steps).1 = l ∧ l.meter = some n ∧
      (l.step (.proceed place (.answered headers))).1.meter = some n' ∧
      n.Grown n' (some (methodOf call.target, status)) ∧
      (headers.first "grpc-status" = none → status = "OK") ∧
      ∀ value : List UInt8, headers.first "grpc-status" = some (Headers.ofBytes value) →
        ((∀ b ∈ value, Headers.IsShown b) →
          Code.Stands (Headers.ofBytes value).toList status) ∧
        (¬ (∀ b ∈ value, Headers.IsShown b) → status = "OK") := by
  obtain ⟨n, hmeter, hn, -⟩ :=
    run_counts (l := start (some m)) rfl (CallMeter.sound_of_create hm) steps
  obtain ⟨n', hmeter', -, hcounts⟩ := step_counts hmeter hn (.proceed place (.answered headers))
  obtain ⟨status, hstatus⟩ : ∃ status, (CallResult.answered headers).status? = some status :=
    ⟨_, rfl⟩
  have hgrown := hcounts.grown
  rw [completed, hcall, Option.bind_some, hstatus, Option.map_some] at hgrown
  refine ⟨_, n, n', status, rfl, hmeter, hmeter', hgrown, fun hmissing => ?_,
    fun value hvalue => ⟨fun hshown => ?_, fun hhidden => ?_⟩⟩
  · exact Option.some.inj (hstatus.symm.trans (status?_of_missing hmissing))
  · have htext := status?_of_isText hvalue (Headers.isText_ofBytes.2 hshown)
    obtain rfl := Option.some.inj (hstatus.symm.trans htext)
    exact Code.stands_ofText _
  · have htext := status?_of_not_isText hvalue (mt Headers.isText_ofBytes.1 hhidden)
    exact Option.some.inj (hstatus.symm.trans htext)

/-- A value with a sign and zeros in front is counted as the last code. -/
theorem status_counted_by_field_padded :
    CallMeter.create "shop" = .ok { namesp := "shop" } ∧
      ((start (some { namesp := "shop" })).run [.begin "/shop.Cart/Add"]).1.underWay 0 =
        some ⟨"/shop.Cart/Add", 0⟩ ∧
      ∃ n', (((start (some { namesp := "shop" })).run [.begin "/shop.Cart/Add"]).1.step
          (.proceed 0 (.answered [("grpc-status", "+0016")]))).1.meter = some n' ∧
        n'.requestCount "/shop.Cart/Add" "UNAUTHENTICATED" = 1 := by
  have hcreate : CallMeter.create "shop" = .ok { namesp := "shop" } := by decide
  have hcall : ((start (some { namesp := "shop" })).run [.begin "/shop.Cart/Add"]).1.underWay 0 =
      some ⟨"/shop.Cart/Add", 0⟩ := by decide
  refine ⟨hcreate, hcall, ?_⟩
  obtain ⟨l, n, n', status, hl, hmeter, hmeter', hgrown, -, hvalue⟩ :=
    status_counted_by_field hcreate [.begin "/shop.Cart/Add"] hcall [("grpc-status", "+0016")]
  subst hl
  have hshown : ∀ b ∈ ([43, 48, 48, 49, 54] : List UInt8), Headers.IsShown b := by
    simp [Headers.IsShown, UInt8.le_iff_toNat_le]
  have hstands := (hvalue [43, 48, 48, 49, 54] rfl).1 hshown
  have hspells : SpellsInt (16 : Nat) (Headers.ofBytes [43, 48, 48, 49, 54]).toList :=
    .plus ⟨2, rfl⟩
  obtain rfl : status = "UNAUTHENTICATED" :=
    (Option.some.inj (hstands.listed 16 (Nat.le_refl 16) hspells)).symm
  refine ⟨n', hmeter', ?_⟩
  have hnew : ((start (some { namesp := "shop" })).run [.begin "/shop.Cart/Add"]).1.meter =
      some { namesp := "shop" } := rfl
  obtain rfl := Option.some.inj (hmeter.symm.trans hnew)
  rw [hgrown.requests]
  decide

/-- A value that is no numeral, and that cannot be shown as text, is counted as a success. -/
theorem unreadable_status_counted_ok :
    (∀ z, ¬ SpellsInt z (Headers.ofBytes [0xC3, 0xA9]).toList) ∧
      ∃ n, ((start (some { namesp := "shop" })).run [.begin "/shop.Cart/Add",
          .proceed 0 (.answered [("grpc-status", Headers.ofBytes [0xC3, 0xA9])])]).1.meter = some n ∧
        n.requestCount "/shop.Cart/Add" "OK" = 1 ∧
        n.requestCount "/shop.Cart/Add" "UNKNOWN" = 0 := by
  have hvalue : (Headers.ofBytes [0xC3, 0xA9]).toList = ['\xc3', '\xa9'] := rfl
  refine ⟨fun z h => ?_, _, rfl, by decide, by decide⟩
  rw [hvalue] at h
  cases h with
  | plain h => cases Numeral.digits?_eq_some_iff.2 h

end Layer

end Rpc

end ServiceHost
