import Mathlib.Data.List.DropRight
import Mathlib.Data.List.TakeWhile
import ServiceHost.Text.Blank
import ServiceHost.Text.Split
/-!
Trimmed texts, and texts cut at a separator.

Trimming leaves a text as it is just in case no blank stands at its ends (`trim_eq_self_iff`), and
takes away whatever blanks are put there (`trim_padded`).  The pieces that a cut at the last
separator gives are those of which the second one has no separator (`splitLast_eq_some_iff`), so
each text has at most one such pair; a cut at the first separator is found again where the first
piece has none (`splitFirst_append`).  Cutting at every separator is that of lists (`splitOn_eq`),
and gives back pieces that have been joined (`splitOnP_join`).
-/

namespace ServiceHost.Text

variable {s : List Char}

/-! ### Trimming -/

theorem dropWhile_eq_self_iff_head? {p : Char → Bool} :
    s.dropWhile p = s ↔ ∀ c ∈ s.head?, p c = false := by
  cases s with
  | nil => simp
  | cons c s => simp [List.dropWhile_eq_self_iff]

theorem dropRightWhile_eq_self_iff {p : Char → Bool} :
    dropRightWhile p s = s ↔ ∀ c ∈ s.getLast?, p c = false := by
  rw [dropRightWhile, List.reverse_eq_iff, dropWhile_eq_self_iff_head?, List.head?_reverse]

/-- **Trimmed texts.**  Trimming leaves exactly those texts as they are that have no blank at an
end. -/
theorem trim_eq_self_iff :
    trim s = s ↔ (∀ c ∈ s.head?, isBlank c = false) ∧ ∀ c ∈ s.getLast?, isBlank c = false := by
  rw [← dropWhile_eq_self_iff_head?, ← dropRightWhile_eq_self_iff]
  constructor
  · intro h
    -- nothing can have gone at the front, where trimming begins
    have hleft : s.dropWhile isBlank = s := by
      apply (List.dropWhile_suffix isBlank).eq_of_length_le
      calc s.length = (trim s).length := by rw [h]
        _ ≤ (s.dropWhile isBlank).length := (List.rdropWhile_prefix isBlank _).length_le
    refine ⟨hleft, ?_⟩
    rw [trim, hleft] at h
    exact h
  · rintro ⟨hleft, hright⟩
    rw [trim, hleft, hright]

theorem trim_subset (s : List Char) : trim s ⊆ s :=
  List.Subset.trans (List.rdropWhile_prefix isBlank _).subset (List.dropWhile_suffix isBlank).subset

/-- What is dropped at the end is found behind any text. -/
theorem dropRightWhile_append_of_forall {p : Char → Bool} {r : List Char}
    (h : ∀ c ∈ r, p c = true) (s : List Char) :
    dropRightWhile p (s ++ r) = dropRightWhile p s := by
  rw [dropRightWhile, List.reverse_append, List.dropWhile_append_of_pos fun c hc =>
    h c (List.mem_reverse.1 hc), dropRightWhile]

/-- A stretch of blanks. -/
structure Blanks where
  text : List Char
  blank : ∀ c ∈ text, isBlank c = true

/-- No blanks at all. -/
def Blanks.none : Blanks where
  text := []
  blank _ hc := by cases hc

theorem Blanks.notMem {c : Char} (b : Blanks) (hc : isBlank c = false) : c ∉ b.text := by
  intro hmem
  have hblank := b.blank c hmem
  rw [hc] at hblank
  cases hblank

/-- Blanks around a text are not seen once it is trimmed. -/
theorem trim_padded (before after : Blanks) (s : List Char) :
    trim (before.text ++ s ++ after.text) = trim s := by
  rw [trim, List.append_assoc, List.dropWhile_append_of_pos before.blank, List.dropWhile_append,
    trim]
  split
  next hs =>
    -- of a text of blanks nothing is left, with or without more of them
    rw [List.isEmpty_iff.1 hs, List.dropWhile_eq_nil_iff.2 after.blank]
  next => exact dropRightWhile_append_of_forall after.blank _

/-- A text without blanks is trimmed. -/
theorem trim_of_forall (h : ∀ c ∈ s, isBlank c = false) : trim s = s :=
  trim_eq_self_iff.2
    ⟨fun c hc => h c (List.mem_of_mem_head? hc), fun c hc => h c (List.mem_of_getLast? hc)⟩

/-- Nothing is left of a text of blanks, and of no other. -/
theorem isEmpty_trim (s : List Char) : (trim s).isEmpty = isBlankText s := by
  have h : (trim s).isEmpty = (s.dropWhile isBlank).all isBlank := by
    rw [Bool.eq_iff_iff, List.isEmpty_iff, trim, dropRightWhile, List.reverse_eq_nil_iff,
      List.dropWhile_eq_nil_iff, List.all_eq_true]
    simp only [List.mem_reverse]
  rw [h, isBlankText, List.all_eq_not_any_not, List.any_dropWhile, Bool.not_not]

theorem Blanks.trim_eq_nil (b : Blanks) : trim b.text = [] := by
  rw [← List.isEmpty_iff, isEmpty_trim]
  exact List.all_eq_true.2 b.blank

/-! ### Beginnings -/

theorem after?_eq_some_iff {start s rest : List Char} :
    after? start s = some rest ↔ s = start ++ rest := by
  induction start generalizing s with
  | nil => simp [after?]
  | cons a start ih =>
    cases s with
    | nil => simp [after?]
    | cons c s =>
      by_cases h : a = c
      · simp [after?, h, ih]
      · simp [after?, h, Ne.symm h]

theorem startsWith_iff {start : List Char} : startsWith start s = true ↔ start <+: s := by
  rw [startsWith, Option.isSome_iff_exists]
  simp only [after?_eq_some_iff]
  exact ⟨fun ⟨rest, h⟩ => ⟨rest, h.symm⟩, fun ⟨rest, h⟩ => ⟨rest, h.symm⟩⟩

/-! ### Every separator -/

theorem splitWhere_eq (p : Char → Bool) (s : List Char) : splitWhere p s = s.splitOnP p := by
  induction s with
  | nil => rfl
  | cons c s ih =>
    rw [splitWhere, ih, List.splitOnP_cons_eq_if_modifyHead]
    split
    · rfl
    · cases hs : s.splitOnP p with
      | nil => exact absurd hs (List.splitOnP_ne_nil p s)
      | cons w ws => rfl

theorem splitOn_eq (sep : Char) (s : List Char) : splitOn sep s = s.splitOn sep := by
  rw [splitOn, splitWhere_eq, List.splitOn_eq_splitOnP]

/-- The pieces have no separators. -/
theorem forall_of_mem_splitWhere {p : Char → Bool} {w : List Char} (h : w ∈ splitWhere p s) :
    ∀ c ∈ w, p c = false := by
  induction s generalizing w with
  | nil =>
    obtain rfl := List.mem_singleton.1 h
    exact fun c hc => by cases hc
  | cons c s ih =>
    rw [splitWhere] at h
    split at h
    next =>
      rcases List.mem_cons.1 h with rfl | h
      · exact fun c hc => by cases hc
      · exact ih h
    next hc =>
      split at h
      next =>
        obtain rfl := List.mem_singleton.1 h
        exact List.forall_mem_singleton.2 (Bool.not_eq_true _ ▸ hc)
      next v ws hs =>
        rcases List.mem_cons.1 h with rfl | h
        · refine List.forall_mem_cons.2 ⟨Bool.not_eq_true _ ▸ hc, ih ?_⟩
          rw [hs]
          exact List.mem_cons_self
        · exact ih (hs ▸ List.mem_cons_of_mem _ h)

theorem splitWhere_ne_nil (p : Char → Bool) (s : List Char) : splitWhere p s ≠ [] := by
  rw [splitWhere_eq]
  exact List.splitOnP_ne_nil p s

/-- The first piece begins as the text does, unless a separator stands there. -/
theorem head?_splitWhere {p : Char → Bool} {a : Char} (ha : p a = false) {w : List Char}
    {ws : List (List Char)} (h : splitWhere p s = w :: ws) :
    w.head? = some a ↔ s.head? = some a := by
  cases s with
  | nil =>
    obtain ⟨rfl, -⟩ := List.cons.inj h
    rfl
  | cons c s =>
    rw [splitWhere] at h
    split at h
    next hc =>
      obtain ⟨rfl, -⟩ := List.cons.inj h
      have hne : c ≠ a := by
        rintro rfl
        rw [ha] at hc
        cases hc
      simp [hne]
    next =>
      split at h
      all_goals
        obtain ⟨rfl, -⟩ := List.cons.inj h
        rfl

/-- One of the pieces behind a separator begins with a character just in case the two stand side by
side. -/
theorem exists_head_splitWhere {p : Char → Bool} {a : Char} (ha : p a = false) (s : List Char) :
    (∃ w ∈ (splitWhere p s).tail, w.head? = some a) ↔
      ∃ sep, p sep = true ∧ [sep, a] <:+: s := by
  induction s with
  | nil => simp [splitWhere]
  | cons c s ih =>
    have hadjacent : ∀ sep, [sep, a] <:+: c :: s ↔
        sep = c ∧ s.head? = some a ∨ [sep, a] <:+: s := by
      intro sep
      rw [List.infix_cons_iff, List.cons_prefix_cons]
      refine or_congr_left (and_congr_right fun _ => ?_)
      cases s with
      | nil => simp
      | cons d s => simp [eq_comm]
    obtain ⟨w, ws, hs⟩ := List.exists_cons_of_ne_nil (splitWhere_ne_nil p s)
    rw [hs, List.tail_cons] at ih
    rw [splitWhere, hs]
    simp only [hadjacent, and_or_left, exists_or, ← ih]
    by_cases hc : p c = true
    · rw [if_pos hc, List.tail_cons, List.exists_mem_cons_iff, head?_splitWhere ha hs]
      refine or_congr_left ⟨fun h => ⟨c, hc, rfl, h⟩, ?_⟩
      rintro ⟨_, -, -, h⟩
      exact h
    · rw [if_neg hc]
      refine (or_iff_right ?_).symm
      rintro ⟨_, hsep, rfl, -⟩
      exact hc hsep

/-! ### Pieces written one after the other -/

theorem mem_join {sep : List Char} {ws : List (List Char)} {c : Char} (h : c ∈ join sep ws) :
    c ∈ sep ∨ ∃ w ∈ ws, c ∈ w := by
  fun_induction join sep ws with
  | case1 => cases h
  | case2 w => exact .inr ⟨w, List.mem_cons_self, h⟩
  | case3 w v ws ih =>
    rcases List.mem_append.1 h with h | h
    · rcases List.mem_append.1 h with h | h
      · exact .inr ⟨w, List.mem_cons_self, h⟩
      · exact .inl h
    · refine (ih h).imp_right ?_
      rintro ⟨u, hu, hc⟩
      exact ⟨u, List.mem_cons_of_mem _ hu, hc⟩

/-- Pieces without separators are found again where a separator stands between neighbours. -/
theorem splitOnP_join {p : Char → Bool} {sep : Char} (hsep : p sep = true) {ws : List (List Char)}
    (hws : ∀ w ∈ ws, ∀ c ∈ w, p c = false) (hne : ws ≠ []) : (join [sep] ws).splitOnP p = ws := by
  fun_induction join [sep] ws with
  | case1 => exact absurd rfl hne
  | case2 w => exact List.splitOnP_eq_singleton (hws w List.mem_cons_self)
  | case3 w v ws ih =>
    obtain ⟨hw, hrest⟩ := List.forall_mem_cons.1 hws
    rw [List.append_assoc, List.singleton_append, List.splitOnP_append_cons _ _ hsep,
      List.splitOnP_eq_singleton hw, ih hrest (List.cons_ne_nil _ _), List.singleton_append]

/-! ### The first separator -/

variable {sep : Char} {a b : List Char}

theorem splitFirst_eq_none_iff : splitFirst sep s = none ↔ sep ∉ s := by
  induction s with
  | nil => simp [splitFirst]
  | cons c s ih =>
    rw [splitFirst]
    by_cases hc : c = sep
    · simp [hc]
    · simp [hc, ih, Ne.symm hc]

theorem splitFirst_append (ha : sep ∉ a) (b : List Char) :
    splitFirst sep (a ++ sep :: b) = some (a, b) := by
  induction a with
  | nil => rw [List.nil_append, splitFirst, if_pos rfl]
  | cons c a ih =>
    have hc : c ≠ sep := fun hc => ha (hc ▸ List.mem_cons_self)
    rw [List.cons_append, splitFirst, if_neg hc, ih (mt (List.mem_cons_of_mem c) ha)]
    rfl

/-! ### The last separator -/

theorem splitLast_eq_none_iff : splitLast sep s = none ↔ sep ∉ s := by
  induction s with
  | nil => simp [splitLast]
  | cons c s ih =>
    rw [splitLast]
    cases h : splitLast sep s with
    | none =>
      have hs := ih.1 h
      by_cases hc : c = sep
      · simp [hc]
      · simp [hc, hs, Ne.symm hc]
    | some pieces =>
      have hs : sep ∈ s := by
        rw [← not_not (a := sep ∈ s), ← ih, h]
        exact Option.some_ne_none _
      simp [hs]

theorem splitLast_append (hb : sep ∉ b) (a : List Char) :
    splitLast sep (a ++ sep :: b) = some (a, b) := by
  induction a with
  | nil => rw [List.nil_append, splitLast, splitLast_eq_none_iff.2 hb, if_pos rfl]
  | cons c a ih => rw [List.cons_append, splitLast, ih]

theorem of_splitLast (h : splitLast sep s = some (a, b)) : s = a ++ sep :: b ∧ sep ∉ b := by
  induction s generalizing a with
  | nil => cases h
  | cons c s ih =>
    rw [splitLast] at h
    split at h
    next a' b' hs =>
      obtain ⟨rfl, rfl⟩ := Prod.mk.inj (Option.some.inj h)
      obtain ⟨rfl, hb⟩ := ih hs
      exact ⟨rfl, hb⟩
    next hs =>
      split at h
      next hc =>
        obtain ⟨rfl, rfl⟩ := Prod.mk.inj (Option.some.inj h)
        exact ⟨congrArg (· :: s) hc, splitLast_eq_none_iff.1 hs⟩
      next => cases h

/-- **Cutting at the last separator.**  The pieces make up the text with the separator between them,
and the second one has no separator. -/
theorem splitLast_eq_some_iff : splitLast sep s = some (a, b) ↔ s = a ++ sep :: b ∧ sep ∉ b := by
  constructor
  · exact of_splitLast
  · rintro ⟨rfl, hb⟩
    exact splitLast_append hb a

end ServiceHost.Text
