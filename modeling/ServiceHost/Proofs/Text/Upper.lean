import Mathlib.Data.List.Basic
import ServiceHost.Text.Upper
/-!
Upper case is reached in one step.

The table of upper cases names the letters that have another upper case (`lowerLetters`) and the
characters that upper cases consist of (`upperLetters`).  No character is both, so what upper case
brings in is its own upper case (`upperChar_of_mem`).  All that is brought in are characters from
`A` on, the underscore not among them (`eq_or_of_mem_upperChar`).
-/

namespace ServiceHost.Text

/-! ### The letters of the table -/

/-- The letters of a run. -/
def UpperRun.letters (r : UpperRun) : List Nat :=
  (List.range ((r.last - r.first) / r.stride + 1)).map fun i => r.first + i * r.stride

/-- The letters that have another upper case. -/
def lowerLetters : List Nat :=
  upperRuns.flatMap UpperRun.letters ++ upperSpecials.map Prod.fst

/-- The characters of upper cases. -/
def upperLetters : List Nat :=
  upperRuns.flatMap (fun r => r.letters.map fun n : Nat => (n + r.shift).toNat) ++
    upperSpecials.flatMap Prod.snd

theorem UpperRun.mem_letters {r : UpperRun} {n : Nat} (h : r.holds n = true) : n ∈ r.letters := by
  simp only [holds, Bool.and_eq_true, decide_eq_true_eq, beq_iff_eq] at h
  obtain ⟨⟨hfirst, hlast⟩, hstride⟩ := h
  refine List.mem_map.2 ⟨(n - r.first) / r.stride, List.mem_range.2 ?_, ?_⟩
  · exact Nat.lt_succ_of_le (Nat.div_le_div_right (Nat.sub_le_sub_right hlast _))
  · rw [Nat.div_mul_cancel (Nat.dvd_of_mod_eq_zero hstride), Nat.add_sub_cancel' hfirst]

/-- A character either is its own upper case, or has one made of upper letters. -/
theorem upperChar_cases (c : Char) : upperChar c = [c] ∨
    ∃ ns : List Nat, ns ≠ [] ∧ (∀ n ∈ ns, n ∈ upperLetters) ∧ upperChar c = ns.map Char.ofNat := by
  have hspecials : ∀ e ∈ upperSpecials, e.2 ≠ [] := by decide
  unfold upperChar
  split
  next ns hlookup =>
    obtain ⟨before, after, hsplit, -⟩ := List.lookup_eq_some_iff.1 hlookup
    have hmem : (c.toNat, ns) ∈ upperSpecials := by simp [hsplit]
    refine .inr ⟨ns, hspecials _ hmem, fun n hn => ?_, rfl⟩
    exact List.mem_append_right _ (List.mem_flatMap.2 ⟨_, hmem, hn⟩)
  next =>
    split
    next r hfind =>
      have hholds := List.find?_some hfind
      refine .inr ⟨[_], List.cons_ne_nil _ _, fun n hn => ?_, rfl⟩
      obtain rfl := List.mem_singleton.1 hn
      refine List.mem_append_left _ (List.mem_flatMap.2 ⟨r, List.mem_of_find?_eq_some hfind, ?_⟩)
      exact List.mem_map_of_mem (UpperRun.mem_letters hholds)
    next => exact .inl rfl

/-- A character that is not in the table is its own upper case. -/
theorem upperChar_of_notMem {c : Char} (h : c.toNat ∉ lowerLetters) : upperChar c = [c] := by
  rw [lowerLetters, List.mem_append, not_or] at h
  have hspecial : upperSpecials.lookup c.toNat = none := by
    refine List.lookup_eq_none_iff.2 fun e he => bne_iff_ne.2 fun heq => h.2 ?_
    exact heq ▸ List.mem_map_of_mem he
  have hrun : upperRuns.find? (·.holds c.toNat) = none := by
    refine List.find?_eq_none.2 fun r hr hholds => h.1 ?_
    exact List.mem_flatMap.2 ⟨r, hr, UpperRun.mem_letters hholds⟩
  rw [upperChar, hspecial, hrun]

/-! ### No letter is both -/

/-- Numbers as the bits of one number, so that long rows of them can be compared at once. -/
def bits (ns : List Nat) : Nat :=
  ns.foldr (fun n acc => acc ||| 1 <<< n) 0

theorem testBit_bits {ns : List Nat} {n : Nat} : (bits ns).testBit n = true ↔ n ∈ ns := by
  induction ns with
  | nil => simp [bits]
  | cons m ns ih =>
    show (bits ns ||| 1 <<< m).testBit n = true ↔ _
    rw [Nat.testBit_or, Bool.or_eq_true, ih, Nat.one_shiftLeft, Nat.testBit_two_pow,
      decide_eq_true_eq, List.mem_cons, or_comm, eq_comm]

theorem upperLetters_apart : bits upperLetters &&& bits lowerLetters = 0 := by
  decide +kernel

theorem notMem_lowerLetters {n : Nat} (h : n ∈ upperLetters) : n ∉ lowerLetters := by
  intro hlower
  have hboth : (bits upperLetters &&& bits lowerLetters).testBit n = true := by
    rw [Nat.testBit_and, testBit_bits.2 h, testBit_bits.2 hlower]
    rfl
  rw [upperLetters_apart, Nat.zero_testBit] at hboth
  cases hboth

/-- Upper letters are characters from `A` on, and not the underscore. -/
theorem upperLetters_range :
    (upperLetters.all fun n => n.isValidChar && 0x41 ≤ n && n != 0x5F) = true := by
  decide +kernel

theorem toNat_ofNat_of_mem {n : Nat} (h : n ∈ upperLetters) : (Char.ofNat n).toNat = n := by
  have hrange := List.all_eq_true.1 upperLetters_range n h
  simp only [Bool.and_eq_true, decide_eq_true_eq] at hrange
  rw [Char.ofNat, dif_pos hrange.1.1]
  rfl

/-! ### Upper cases -/

variable {c d : Char}

theorem upperChar_ne_nil (c : Char) : upperChar c ≠ [] := by
  rcases upperChar_cases c with h | ⟨ns, hne, -, h⟩
  · rw [h]
    exact List.cons_ne_nil _ _
  · rw [h]
    exact fun hnil => hne (List.map_eq_nil_iff.1 hnil)

/-- **What upper case brings in is its own upper case.** -/
theorem upperChar_of_mem (h : d ∈ upperChar c) : upperChar d = [d] := by
  rcases upperChar_cases c with hself | ⟨ns, -, hletters, hmap⟩
  · rw [hself, List.mem_singleton] at h
    rw [h, hself]
  · rw [hmap] at h
    obtain ⟨n, hn, rfl⟩ := List.mem_map.1 h
    apply upperChar_of_notMem
    rw [toNat_ofNat_of_mem (hletters n hn)]
    exact notMem_lowerLetters (hletters n hn)

/-- What upper case brings in, if it is new, comes from `A` on and is not the underscore. -/
theorem eq_or_of_mem_upperChar (h : d ∈ upperChar c) :
    d = c ∨ 'A'.toNat ≤ d.toNat ∧ d ≠ '_' := by
  rcases upperChar_cases c with hself | ⟨ns, -, hletters, hmap⟩
  · rw [hself] at h
    exact .inl (List.mem_singleton.1 h)
  · rw [hmap] at h
    obtain ⟨n, hn, rfl⟩ := List.mem_map.1 h
    have hrange := List.all_eq_true.1 upperLetters_range n (hletters n hn)
    simp only [Bool.and_eq_true, decide_eq_true_eq, bne_iff_ne] at hrange
    refine .inr ⟨?_, fun heq => hrange.2 ?_⟩
    · rw [toNat_ofNat_of_mem (hletters n hn)]
      exact hrange.1.2
    · rw [← toNat_ofNat_of_mem (hletters n hn), heq]
      rfl

end ServiceHost.Text
