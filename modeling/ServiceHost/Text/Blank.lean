/-!
White space and trimming.

A character is blank when it has the Unicode property `White_Space`.  Trimming removes blanks at
both ends and nothing else: `trim_trim` says that once is enough.
-/

namespace ServiceHost.Text

/-! ### The class of blanks -/

/-- The characters with the Unicode property `White_Space`. -/
def isBlank (c : Char) : Bool :=
  let n := c.toNat
  (9 ≤ n && n ≤ 13) || n == 0x20 || n == 0x85 || n == 0xA0 || n == 0x1680 ||
    (0x2000 ≤ n && n ≤ 0x200A) || n == 0x2028 || n == 0x2029 || n == 0x202F || n == 0x205F ||
    n == 0x3000

/-! ### Trimming -/

/-- Drops the longest final stretch of characters satisfying `p`. -/
def dropRightWhile (p : Char → Bool) (s : List Char) : List Char :=
  (s.reverse.dropWhile p).reverse

/-- Drops the blanks at both ends. -/
def trim (s : List Char) : List Char :=
  dropRightWhile isBlank (s.dropWhile isBlank)

/-- Drops the blanks at the beginning. -/
def trimLeft (s : List Char) : List Char :=
  s.dropWhile isBlank

/-- A text of blanks only, or of nothing. -/
def isBlankText (s : List Char) : Bool :=
  s.all isBlank

/-! ### Trimming twice -/

theorem dropWhile_dropWhile (p : Char → Bool) (s : List Char) :
    (s.dropWhile p).dropWhile p = s.dropWhile p := by
  induction s with
  | nil => rfl
  | cons c s ih => by_cases h : p c <;> simp [List.dropWhile, h, ih]

theorem dropRightWhile_dropRightWhile (p : Char → Bool) (s : List Char) :
    dropRightWhile p (dropRightWhile p s) = dropRightWhile p s := by
  simp only [dropRightWhile, List.reverse_reverse, dropWhile_dropWhile]

/-- What does not begin with a blank does not do so after its final blanks are gone either. -/
theorem dropWhile_dropRightWhile (p : Char → Bool) {s : List Char} (h : s.dropWhile p = s) :
    (dropRightWhile p s).dropWhile p = dropRightWhile p s := by
  cases s with
  | nil => rfl
  | cons c s =>
    have hc : p c = false := by
      by_cases hc : p c
      · have hlength := congrArg List.length h
        have hle := (List.dropWhile_suffix (l := s) p).length_le
        simp only [List.dropWhile, hc, List.length_cons] at hlength
        omega
      · simpa using hc
    unfold dropRightWhile
    rw [List.reverse_cons, List.dropWhile_append]
    split <;> simp [List.dropWhile, hc]

theorem trim_trim (s : List Char) : trim (trim s) = trim s := by
  unfold trim
  rw [dropWhile_dropRightWhile _ (dropWhile_dropWhile _ _), dropRightWhile_dropRightWhile]

end ServiceHost.Text
