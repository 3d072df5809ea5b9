import ServiceHost.Proofs.Http.Finding
import ServiceHost.Proofs.Text
/-!
Paths without braces as patterns.

A path without braces has no names, so it is read letter by letter unless it has a mark that older
patterns used (`Pattern.parse?_of_unbraced`), which is a colon or a star behind a slash
(`hasOldMark_iff`).  What is read so conflicts with nothing but itself
(`Pattern.conflicts_literal_iff`).
-/

namespace ServiceHost.Http

open Text

variable {s path : List Char}

/-- A text without braces. -/
structure Unbraced (s : List Char) : Prop where
  opening : '\x7b' ∉ s
  closing : '\x7d' ∉ s

instance (s : List Char) : Decidable (Unbraced s) :=
  decidable_of_iff ('\x7b' ∉ s ∧ '\x7d' ∉ s) ⟨fun h => ⟨h.1, h.2⟩, fun h => ⟨h.opening, h.closing⟩⟩

namespace Unbraced

theorem of_subset {t : List Char} (h : Unbraced s) (hsub : t ⊆ s) : Unbraced t where
  opening hmem := h.opening (hsub hmem)
  closing hmem := h.closing (hsub hmem)

theorem of_cons {c : Char} (h : Unbraced (c :: s)) : Unbraced s :=
  h.of_subset (List.subset_cons_self c s)

theorem cons_slash (h : Unbraced s) : Unbraced ('/' :: s) where
  opening := List.not_mem_cons_of_ne_of_not_mem (by decide) h.opening
  closing := List.not_mem_cons_of_ne_of_not_mem (by decide) h.closing

end Unbraced

/-! ### Letters and marks -/

/-- Without braces all is plain. -/
theorem marks_of_unbraced (h : Unbraced s) : marks s = s.map .plain := by
  fun_induction marks s with
  | case1 => exact absurd List.mem_cons_self h.opening
  | case2 => exact absurd List.mem_cons_self h.closing
  | case3 => exact absurd List.mem_cons_self h.opening
  | case4 => exact absurd List.mem_cons_self h.closing
  | case5 c cs _ _ _ _ ih => rw [ih h.of_cons, List.map_cons]
  | case6 => rfl

/-- A plain text without braces is written as it is read. -/
theorem eq_of_marks (h : Unbraced s) (hmarks : marks path = s.map .plain) : path = s := by
  fun_induction marks path generalizing s with
  | case1 cs ih =>
    obtain ⟨c, s, rfl, hc, -⟩ := List.map_eq_cons_iff.1 hmarks.symm
    obtain rfl := Mark.plain.inj hc
    exact absurd List.mem_cons_self h.opening
  | case2 cs ih =>
    obtain ⟨c, s, rfl, hc, -⟩ := List.map_eq_cons_iff.1 hmarks.symm
    obtain rfl := Mark.plain.inj hc
    exact absurd List.mem_cons_self h.closing
  | case3 cs _ ih =>
    obtain ⟨c, s, -, hc, -⟩ := List.map_eq_cons_iff.1 hmarks.symm
    cases hc
  | case4 cs _ ih =>
    obtain ⟨c, s, -, hc, -⟩ := List.map_eq_cons_iff.1 hmarks.symm
    cases hc
  | case5 d cs _ _ _ _ ih =>
    obtain ⟨c, s, rfl, hc, hrest⟩ := List.map_eq_cons_iff.1 hmarks.symm
    obtain rfl := Mark.plain.inj hc
    rw [ih h.of_cons hrest.symm]
  | case6 => exact (List.map_eq_nil_iff.1 hmarks.symm).symm

theorem partsOf_plain (s : List Char) {fuel : Nat} (h : s.length ≤ fuel) :
    partsOf fuel (s.map .plain) = some (Pattern.literal s) := by
  induction s generalizing fuel with
  | nil => cases fuel <;> rfl
  | cons c s ih =>
    obtain ⟨fuel, rfl⟩ := Nat.exists_eq_succ_of_ne_zero (Nat.ne_of_gt (Nat.zero_lt_of_lt h))
    rw [List.map_cons, partsOf, ih (Nat.le_of_succ_le_succ h)]
    rfl

/-- Only plain marks are read as letters. -/
theorem eq_of_partsOf {fuel : Nat} {ms : List Mark}
    (h : partsOf fuel ms = some (Pattern.literal s)) : ms = s.map .plain := by
  fun_induction partsOf fuel ms generalizing s with
  | case1 => exact (List.map_eq_nil_iff.1 (Option.some.inj h).symm) ▸ rfl
  | case3 fuel c ms ih =>
    obtain ⟨p, hp, hcons⟩ := Option.map_eq_some_iff.1 h
    obtain ⟨d, s, rfl, hd, rfl⟩ := List.map_eq_cons_iff.1 hcons.symm
    obtain rfl := Part.char.inj hd
    rw [ih hp, List.map_cons]
  | case8 fuel ms _ _ =>
    -- what is read begins with the rest of the path, and not with a letter
    obtain ⟨d, s, -, hd, -⟩ := List.map_eq_cons_iff.1 (Option.some.inj h).symm
    cases hd
  | case10 fuel _ ms _ _ _ =>
    -- what is read begins with the rest of a segment
    obtain ⟨ms', -, hname⟩ := Option.bind_eq_some_iff.1 h
    split at hname
    · obtain ⟨p, -, hcons⟩ := Option.map_eq_some_iff.1 hname
      obtain ⟨d, s, -, hd, -⟩ := List.map_eq_cons_iff.1 hcons.symm
      cases hd
    · cases hname
  | _ => cases h

/-! ### Old marks -/

/-- A path has an old mark if a colon or a star stands behind a slash. -/
theorem hasOldMark_iff (h : s.head? = some '/') :
    hasOldMark s = true ↔ "/:".toList <:+: s ∨ "/*".toList <:+: s := by
  obtain ⟨t, rfl⟩ := List.head?_eq_some_iff.1 h
  have hmarked : ∀ a : Char, (a == '/') = false →
      ((∃ w ∈ splitOn '/' ('/' :: t), w.head? = some a) ↔ ['/', a] <:+: '/' :: t) := by
    intro a ha
    have hbehind := exists_head_splitWhere (p := (· == '/')) ha ('/' :: t)
    simp only [beq_iff_eq, exists_eq_left] at hbehind
    rw [← hbehind, splitOn, splitWhere, if_pos (beq_self_eq_true _), List.tail_cons]
    simp
  have hcolon := hmarked ':' rfl
  have hstar := hmarked '*' rfl
  rw [hasOldMark, List.any_eq_true]
  simp only [Bool.or_eq_true, beq_iff_eq, and_or_left, exists_or, hcolon, hstar]
  rfl

/-! ### Reading paths -/

/-- **Without braces a path is read letter by letter**, unless it has an old mark. -/
theorem Pattern.parse?_of_unbraced (h : Unbraced s) (hslash : s.head? = some '/') :
    Pattern.parse? s = if hasOldMark s then none else some (Pattern.literal s) := by
  have hnames : (Pattern.literal s).count .segment = 0 := by
    rw [List.count_eq_zero, Pattern.literal]
    simp
  have hparts : partsOf (marks s).length (marks s) = some (Pattern.literal s) := by
    rw [marks_of_unbraced h]
    exact partsOf_plain s (by simp)
  rw [Pattern.parse?]
  by_cases hold : hasOldMark s = true
  · rw [if_pos (.inr hold), if_pos hold]
  · rw [if_neg (by simp [hslash, hold]), if_neg hold]
    simp only [hparts, Option.filter_some, hnames]
    rfl

/-- Without braces there is one spelling. -/
theorem Pattern.eq_of_parse? (h : Unbraced s) (hparse : Pattern.parse? path = some (literal s)) :
    path = s := by
  rw [Pattern.parse?] at hparse
  split at hparse
  · cases hparse
  · exact eq_of_marks h (eq_of_partsOf (Option.filter_eq_some_iff.1 hparse).1)

/-- Letters conflict with the same letters alone. -/
theorem Pattern.conflicts_literal_iff {p : Pattern} :
    p.conflicts (literal s) = true ↔ p = literal s := by
  induction s generalizing p with
  | nil => rcases p with - | ⟨_ | _ | _, p⟩ <;> simp [literal, conflicts]
  | cons c s ih =>
    rcases p with - | ⟨d | _ | _, p⟩
    · simp [literal, conflicts]
    · show (d == c && conflicts p (literal s)) = true ↔ Part.char d :: p = .char c :: literal s
      rw [Bool.and_eq_true, beq_iff_eq, ih, List.cons.injEq, Part.char.injEq]
    · simp [literal, conflicts]
    · simp [literal, conflicts]

end ServiceHost.Http
