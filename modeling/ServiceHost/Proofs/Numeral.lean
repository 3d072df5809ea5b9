import Mathlib.Data.Nat.Digits.Defs
import ServiceHost.Numeral
import ServiceHost.Proofs.Fallible
/-!
Numerals and the numbers that they spell.

A number is spelled by its digits, with any number of zeros in front, and a whole number by a sign
before them.  A text is read as a number exactly if it spells it and the number is within the bounds
(`digits?_eq_some_iff`, `signed_eq_ok_iff`).
-/

namespace ServiceHost.Numeral

variable {bound acc n : Nat} {excess : Fault} {s : List Char}

/-- The texts of a number: its digits, with zeros in front. -/
def Spells (n : Nat) (s : List Char) : Prop :=
  ∃ zeros, s = List.replicate zeros '0' ++ write n

/-- The texts of a whole number: there may be a sign in front, and a negative number needs one. -/
inductive SpellsInt : Int → List Char → Prop
  | plain {n : Nat} {s : List Char} : Spells n s → SpellsInt n s
  | plus {n : Nat} {s : List Char} : Spells n s → SpellsInt n ('+' :: s)
  | minus {n : Nat} {s : List Char} : Spells n s → SpellsInt (-n) ('-' :: s)

/-! ### Digits -/

theorem digit?_eq_some_iff {c : Char} {d : Nat} :
    digit? c = some d ↔ d < 10 ∧ c = d.digitChar := by
  unfold digit?
  constructor
  · intro h
    split at h
    next hc =>
      change 48 ≤ c.toNat ∧ c.toNat ≤ 57 at hc
      obtain rfl := Option.some.inj h
      have hlt : c.toNat - '0'.toNat < 10 := by
        show c.toNat - 48 < 10
        omega
      refine ⟨hlt, Char.toNat_inj.1 ?_⟩
      rw [Nat.toNat_digitChar_of_lt_ten hlt]
      show c.toNat = 48 + (c.toNat - 48)
      omega
    next => cases h
  · rintro ⟨hd, rfl⟩
    have hnat := Nat.toNat_digitChar_of_lt_ten hd
    have hrange : '0' ≤ d.digitChar ∧ d.digitChar ≤ '9' := by
      show 48 ≤ d.digitChar.toNat ∧ d.digitChar.toNat ≤ 57
      omega
    rw [if_pos hrange, hnat]
    show some (48 + d - 48) = some d
    rw [Nat.add_sub_cancel_left]

theorem write_of_lt_ten (h : n < 10) : write n = [n.digitChar] :=
  Nat.toDigits_of_lt_base h

theorem valueFrom_append (digit : Char → Option Nat) (base acc : Nat) (s t : List Char) :
    valueFrom digit base acc (s ++ t) =
      (valueFrom digit base acc s).bind fun acc => valueFrom digit base acc t := by
  induction s generalizing acc with
  | nil => rfl
  | cons c s ih =>
    rw [List.cons_append, valueFrom, valueFrom, Option.bind_assoc]
    simp only [ih]

/-- Zeros in front do not change the value. -/
theorem valueFrom_zeros (zeros : Nat) :
    valueFrom digit? 10 0 (List.replicate zeros '0') = some 0 := by
  induction zeros with
  | zero => rfl
  | succ zeros ih => exact ih

theorem valueFrom_write (n : Nat) : valueFrom digit? 10 0 (write n) = some n := by
  induction n using Nat.strong_induction_on with
  | h n ih =>
    have hlast : ∀ acc d : Nat, d < 10 →
        valueFrom digit? 10 acc [d.digitChar] = some (acc * 10 + d) := by
      intro acc d hd
      rw [valueFrom, digit?_eq_some_iff.2 ⟨hd, rfl⟩]
      rfl
    by_cases hn : n < 10
    · rw [write_of_lt_ten hn, hlast 0 n hn, Nat.zero_mul, Nat.zero_add]
    · have hwrite : write n = write (n / 10) ++ [(n % 10).digitChar] := by
        unfold write
        rw [Nat.toDigits_eq_if (by decide), if_neg hn]
      rw [hwrite, valueFrom_append, ih (n / 10) (by omega), Option.bind_some,
        hlast _ _ (Nat.mod_lt n (by decide)), Nat.div_add_mod']

/-- Digits that follow a number which is not zero are the last ones of the number that is read. -/
theorem write_append_of_valueFrom (hacc : 0 < acc) (h : valueFrom digit? 10 acc s = some n) :
    write acc ++ s = write n := by
  induction s generalizing acc with
  | nil =>
    obtain rfl := Option.some.inj h
    exact List.append_nil _
  | cons c s ih =>
    obtain ⟨d, hd, hrest⟩ := Option.bind_eq_some_iff.1 h
    obtain ⟨hlt, rfl⟩ := digit?_eq_some_iff.1 hd
    have hnext : write acc ++ [d.digitChar] = write (acc * 10 + d) := by
      rw [← write_of_lt_ten hlt, Nat.mul_comm]
      exact Nat.toDigits_append_toDigits (by decide) hacc hlt
    rw [← ih (by omega) hrest, ← hnext, List.append_assoc, List.singleton_append]

theorem spells_of_valueFrom (hs : s ≠ []) (h : valueFrom digit? 10 0 s = some n) : Spells n s := by
  induction s with
  | nil => exact absurd rfl hs
  | cons c s ih =>
    obtain ⟨d, hd, hrest⟩ := Option.bind_eq_some_iff.1 h
    obtain ⟨hlt, rfl⟩ := digit?_eq_some_iff.1 hd
    rw [Nat.zero_mul, Nat.zero_add] at hrest
    rcases Nat.eq_zero_or_pos d with rfl | hpos
    · cases s with
      | nil =>
        obtain rfl := Option.some.inj hrest
        exact ⟨0, rfl⟩
      | cons c' s =>
        -- one more zero in front
        obtain ⟨zeros, hzeros⟩ := ih (List.cons_ne_nil _ _) hrest
        exact ⟨zeros + 1, congrArg _ hzeros⟩
    · refine ⟨0, ?_⟩
      rw [← write_append_of_valueFrom hpos hrest, write_of_lt_ten hlt]
      rfl

/-- **Rows of digits.**  A row of digits is read as the number that it spells. -/
theorem digits?_eq_some_iff : digits? s = some n ↔ Spells n s := by
  unfold digits?
  constructor
  · intro h
    split at h
    · cases h
    next hs => exact spells_of_valueFrom (fun hnil => hs (by rw [hnil]; rfl)) h
  · rintro ⟨zeros, rfl⟩
    have hne : List.replicate zeros '0' ++ write n ≠ [] :=
      List.append_ne_nil_of_right_ne_nil _ Nat.toDigits_ne_nil
    rw [List.isEmpty_eq_false_iff.2 hne, if_neg Bool.false_ne_true, valueFrom_append,
      valueFrom_zeros]
    exact valueFrom_write n

/-! ### Bounds -/

theorem le_of_valueFrom {base : Nat} {digit : Char → Option Nat} (hbase : 0 < base)
    (h : valueFrom digit base acc s = some n) : acc ≤ n := by
  induction s generalizing acc with
  | nil => exact Nat.le_of_eq (Option.some.inj h)
  | cons c s ih =>
    obtain ⟨d, -, hrest⟩ := Option.bind_eq_some_iff.1 h
    calc acc ≤ acc * base := Nat.le_mul_of_pos_right acc hbase
      _ ≤ acc * base + d := Nat.le_add_right ..
      _ ≤ n := ih hrest

/-- Digits are read to their value, if it is within the bound. -/
theorem accumulate_eq (h : valueFrom digit? 10 acc s = some n) (hacc : acc ≤ bound) :
    accumulate bound excess acc s = if n ≤ bound then .ok n else .error excess := by
  induction s generalizing acc with
  | nil =>
    obtain rfl := Option.some.inj h
    rw [if_pos hacc]
    rfl
  | cons c s ih =>
    obtain ⟨d, hd, hrest⟩ := Option.bind_eq_some_iff.1 h
    rw [accumulate, hd]
    by_cases hnext : acc * 10 + d ≤ bound
    · show (if acc * 10 + d ≤ bound then _ else _) = _
      rw [if_pos hnext, ih hrest hnext]
    · -- the value only grows with further digits
      have hn : ¬n ≤ bound := fun hn => hnext ((le_of_valueFrom (by decide) hrest).trans hn)
      show (if acc * 10 + d ≤ bound then _ else _) = _
      rw [if_neg hnext, if_neg hn]

theorem valueFrom_of_accumulate (h : accumulate bound excess acc s = .ok n) :
    valueFrom digit? 10 acc s = some n := by
  induction s generalizing acc with
  | nil => exact congrArg some (Except.ok.inj h)
  | cons c s ih =>
    rw [accumulate] at h
    rw [valueFrom]
    split at h
    · cases h
    next d hd =>
      split at h
      · rw [hd]
        exact ih h
      · cases h

theorem magnitude_eq_ok_iff : magnitude bound excess s = .ok n ↔ Spells n s ∧ n ≤ bound := by
  rw [← digits?_eq_some_iff]
  unfold magnitude digits?
  cases s with
  | nil => simp
  | cons c s =>
    rw [List.isEmpty_cons, if_neg Bool.false_ne_true, if_neg Bool.false_ne_true]
    constructor
    · intro h
      have hvalue := valueFrom_of_accumulate h
      rw [accumulate_eq hvalue (Nat.zero_le bound)] at h
      split at h
      next hn => exact ⟨hvalue, hn⟩
      next => cases h
    · rintro ⟨hvalue, hn⟩
      rw [accumulate_eq hvalue (Nat.zero_le bound), if_pos hn]

/-- A number is spelled by digits alone. -/
theorem not_spells_of_digit?_eq_none {c : Char} (hc : digit? c = none) : ¬ Spells n (c :: s) := by
  intro h
  obtain ⟨d, hd, -⟩ := Option.bind_eq_some_iff.1 (digits?_eq_some_iff.2 h)
  rw [hc] at hd
  cases hd

theorem unsigned_eq (h : digits? s = some n) :
    unsigned bound s = if n ≤ bound then .ok n else .error .tooLarge := by
  cases s with
  | nil => cases h
  | cons c s =>
    have hplus : c ≠ '+' := by
      rintro rfl
      cases h
    have hread : unsigned bound (c :: s) = accumulate bound .tooLarge 0 (c :: s) := by
      rw [unsigned]
      · rfl
      · exact List.cons_ne_nil c s
      · exact fun _ hs => hplus (List.cons.inj hs).1
    rw [hread, accumulate_eq h (Nat.zero_le bound)]

/-! ### Signs -/

/-- A text without a sign is read as its digits. -/
theorem signed_of_ne {c : Char} (hplus : c ≠ '+') (hminus : c ≠ '-') :
    signed bound (c :: s) = (magnitude bound .tooLarge (c :: s)).map Int.ofNat := by
  rw [signed]
  · exact List.cons_ne_nil c s
  · exact fun _ hs => hplus (List.cons.inj hs).1
  · exact fun _ hs => hminus (List.cons.inj hs).1

theorem signed_of_spells (h : Spells n s) :
    signed bound s = (magnitude bound .tooLarge s).map Int.ofNat := by
  cases s with
  | nil => cases digits?_eq_some_iff.2 h
  | cons c s =>
    apply signed_of_ne
    · rintro rfl
      exact not_spells_of_digit?_eq_none rfl h
    · rintro rfl
      exact not_spells_of_digit?_eq_none rfl h

/-- A text with a minus sign is read as the digits after it. -/
theorem signed_minus (bound : Nat) (s : List Char) : signed bound ('-' :: s) =
    (magnitude (bound + 1) .tooSmall s).map fun n => -Int.ofNat n := by
  rw [signed]
  cases magnitude (bound + 1) .tooSmall s <;> rfl

/-- **Numerals.**  A text is read as a whole number if it spells the number, and the number is
within the bounds. -/
theorem signed_eq_ok_iff {z : Int} :
    signed bound s = .ok z ↔ SpellsInt z s ∧ -(bound + 1 : Int) ≤ z ∧ z ≤ bound := by
  have hread : ∀ {t : List Char} {f : Nat → Int} {b : Nat} {e : Fault},
      (magnitude b e t).map f = .ok z ↔ ∃ n, (Spells n t ∧ n ≤ b) ∧ f n = z := by
    intro t f b e
    rw [Except.map_eq_ok_iff]
    simp only [magnitude_eq_ok_iff]
  constructor
  · intro h
    rcases s with - | ⟨c, s⟩
    · cases h
    · by_cases hplus : c = '+'
      · subst hplus
        obtain ⟨n, ⟨hn, hle⟩, rfl⟩ := hread.1 h
        exact ⟨.plus hn, by simp only [Int.ofNat_eq_natCast]; omega⟩
      · by_cases hminus : c = '-'
        · subst hminus
          rw [signed_minus] at h
          obtain ⟨n, ⟨hn, hle⟩, rfl⟩ := hread.1 h
          exact ⟨.minus hn, by simp only [Int.ofNat_eq_natCast]; omega⟩
        · rw [signed_of_ne hplus hminus] at h
          obtain ⟨n, ⟨hn, hle⟩, rfl⟩ := hread.1 h
          exact ⟨.plain hn, by simp only [Int.ofNat_eq_natCast]; omega⟩
  · rintro ⟨hz, hlow, hhigh⟩
    cases hz with
    | plain h =>
      rw [signed_of_spells h]
      exact hread.2 ⟨_, ⟨h, by omega⟩, rfl⟩
    | plus h => exact hread.2 ⟨_, ⟨h, by omega⟩, rfl⟩
    | minus h =>
      rw [signed_minus]
      exact hread.2 ⟨_, ⟨h, by omega⟩, rfl⟩

end ServiceHost.Numeral
