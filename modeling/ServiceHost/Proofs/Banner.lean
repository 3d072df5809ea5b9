import ServiceHost.Banner
import ServiceHost.Proofs.Text
import ServiceHost.Proofs.Text.Upper
/-!
The title of an application.

The words of a title are the pieces of a name, capitalised.  They have no separators, and a word
that begins with an upper case stays as it is, so the title of a title is that title.  A text whose
words between blanks are all there has single blanks, and only between them
(`singleSpaced_of_splitOn`).  The main result is `title_canonical`.
-/

namespace ServiceHost.Banner

open Text

variable {name w : List Char}

/-! ### Words -/

/-- The non-empty pieces of a name between hyphens, underscores and blanks. -/
def pieces (name : List Char) : List (List Char) :=
  (name.splitOnP fun c => c == '-' || c == '_' || c == ' ').filter (!·.isEmpty)

/-- The words of a title: the pieces of the name, capitalised, or a word for a name without any. -/
def titleWords (name : List Char) : List (List Char) :=
  if pieces name = [] then ["Service".toList] else (pieces name).map capitalise

theorem nameWords_eq (name : List Char) : nameWords name = pieces name := by
  rw [nameWords, splitWhere_eq]
  rfl

theorem title_eq (name : List Char) : title name = join [' '] (titleWords name) := by
  rw [title, titleWords, nameWords_eq]
  split
  next h =>
    rw [if_pos h]
    rfl
  next h => rw [if_neg h]

/-- A word as it stands in a title: there is something in it, but no separator, and it begins with
what is its own upper case. -/
structure IsTitleWord (w : List Char) : Prop where
  ne_nil : w ≠ []
  solid : ∀ c ∈ w, isNameSeparator c = false
  capitalised : capitalise w = w

theorem capitalise_eq : capitalise = fun
    | [] => []
    | c :: cs => upperChar c ++ cs := by
  funext w
  cases w <;> rfl

/-- Upper case brings in no separator. -/
theorem not_separator_of_mem_upperChar {c d : Char} (h : d ∈ upperChar c)
    (hc : isNameSeparator c = false) : isNameSeparator d = false := by
  rcases eq_or_of_mem_upperChar h with rfl | ⟨hfrom, hne⟩
  · exact hc
  · have hhyphen : d ≠ '-' := by
      rintro rfl
      exact absurd hfrom (by decide)
    have hblank : d ≠ ' ' := by
      rintro rfl
      exact absurd hfrom (by decide)
    simp [isNameSeparator, hhyphen, hne, hblank]

theorem capitalise_capitalise (w : List Char) : capitalise (capitalise w) = capitalise w := by
  cases w with
  | nil => rfl
  | cons c cs =>
    obtain ⟨d, ds, hupper⟩ := List.exists_cons_of_ne_nil (upperChar_ne_nil c)
    have hd : upperChar d = [d] := upperChar_of_mem (hupper ▸ List.mem_cons_self)
    show capitalise (upperChar c ++ cs) = upperChar c ++ cs
    rw [hupper, List.cons_append, capitalise, hd, List.singleton_append]

theorem isTitleWord_of_piece (h : w ∈ pieces name) : IsTitleWord (capitalise w) := by
  obtain ⟨hpiece, hne⟩ := List.mem_filter.1 h
  have hsolid : ∀ c ∈ w, isNameSeparator c = false := by
    refine forall_of_mem_splitWhere (s := name) ?_
    rw [splitWhere_eq]
    exact hpiece
  cases w with
  | nil => cases hne
  | cons c cs =>
    obtain ⟨hc, hcs⟩ := List.forall_mem_cons.1 hsolid
    refine ⟨?_, ?_, capitalise_capitalise _⟩
    · exact List.append_ne_nil_of_left_ne_nil (upperChar_ne_nil c) cs
    · refine List.forall_mem_append.2 ⟨fun d hd => ?_, hcs⟩
      exact not_separator_of_mem_upperChar hd hc

theorem isTitleWord_of_mem (h : w ∈ titleWords name) : IsTitleWord w := by
  rw [titleWords] at h
  split at h
  next =>
    obtain rfl := List.mem_singleton.1 h
    exact ⟨by decide, by simp [isNameSeparator], by decide⟩
  next =>
    obtain ⟨v, hv, rfl⟩ := List.mem_map.1 h
    exact isTitleWord_of_piece hv

theorem titleWords_ne_nil (name : List Char) : titleWords name ≠ [] := by
  rw [titleWords]
  split
  next => exact List.cons_ne_nil _ _
  next h => exact fun hnil => h (List.map_eq_nil_iff.1 hnil)

/-! ### Titles -/

/-- A text of words with single blanks between them. -/
structure SingleSpaced (s : List Char) : Prop where
  ne_nil : s ≠ []
  front : s.head? ≠ some ' '
  back : s.getLast? ≠ some ' '
  inside : ¬ [' ', ' '] <:+: s

/-- A blank at an end, or beside another one, leaves an empty word. -/
theorem singleSpaced_of_splitOn {s : List Char} (h : ∀ w ∈ s.splitOn ' ', w ≠ []) :
    SingleSpaced s := by
  have hcut : ∀ a b : List Char, s = a ++ ' ' :: b →
      (∀ w ∈ a.splitOn ' ', w ≠ []) ∧ ∀ w ∈ b.splitOn ' ', w ≠ [] := by
    intro a b hs
    rw [hs, List.splitOn_append_cons_self] at h
    exact List.forall_mem_append.1 h
  have hnil : ¬ ∀ w ∈ ([] : List Char).splitOn ' ', w ≠ [] :=
    fun hall => hall [] (by simp) rfl
  constructor
  · rintro rfl
    exact hnil h
  · intro hfront
    obtain ⟨b, hs⟩ := List.head?_eq_some_iff.1 hfront
    exact hnil (hcut [] b hs).1
  · intro hback
    obtain ⟨a, hs⟩ := List.getLast?_eq_some_iff.1 hback
    exact hnil (hcut a [] hs).2
  · rintro ⟨a, b, hs⟩
    -- what stands between the two blanks is empty
    have hs : s = (a ++ [' ']) ++ ' ' :: b := by simp [← hs]
    have hfirst := (hcut _ _ hs).1
    rw [List.splitOn_append_cons_self] at hfirst
    exact hnil (List.forall_mem_append.1 hfirst).2

/-- The words of a title are found between its blanks, or between all separators. -/
theorem splitOnP_title {p : Char → Bool} (hblank : p ' ' = true)
    (hp : ∀ c, isNameSeparator c = false → p c = false) :
    (title name).splitOnP p = titleWords name := by
  rw [title_eq]
  refine splitOnP_join hblank (fun w hw c hc => ?_) (titleWords_ne_nil name)
  exact hp c ((isTitleWord_of_mem hw).solid c hc)

theorem pieces_title (name : List Char) : pieces (title name) = titleWords name := by
  show ((title name).splitOnP isNameSeparator).filter (!·.isEmpty) = titleWords name
  rw [splitOnP_title rfl fun c hc => hc, List.filter_eq_self]
  intro w hw
  simpa using (isTitleWord_of_mem hw).ne_nil

/-- Words that stand in a title are the words of the title's title. -/
theorem titleWords_title (name : List Char) : titleWords (title name) = titleWords name := by
  rw [titleWords, pieces_title, if_neg (titleWords_ne_nil name)]
  calc (titleWords name).map capitalise = (titleWords name).map id :=
        List.map_congr_left fun w hw => (isTitleWord_of_mem hw).capitalised
    _ = titleWords name := List.map_id _

/-- **Titles are canonical.**  A title is not empty, has no hyphen and no underscore, and single
blanks between its words only.  The words are the non-empty pieces of the name in their order, each
with its first character in upper case, or the word `Service` when there is none.  So names with the
same pieces have the same title, and a title is its own title. -/
theorem title_canonical (name : List Char) :
    SingleSpaced (title name) ∧ '-' ∉ title name ∧ '_' ∉ title name ∧
    (title name).splitOn ' ' =
      (if pieces name = [] then ["Service".toList]
       else (pieces name).map fun
         | [] => []
         | c :: cs => upperChar c ++ cs) ∧
    (∀ other, pieces other = pieces name → title other = title name) ∧
    title (title name) = title name := by
  have hwords : (title name).splitOn ' ' = titleWords name := by
    rw [List.splitOn_eq_splitOnP]
    refine splitOnP_title rfl fun c hc => ?_
    rw [isNameSeparator, Bool.or_eq_false_iff] at hc
    exact hc.2
  have hsolid : ∀ c ∈ title name, c = ' ' ∨ isNameSeparator c = false := by
    intro c hc
    rw [title_eq] at hc
    refine (mem_join hc).imp List.mem_singleton.1 ?_
    rintro ⟨w, hw, hcw⟩
    exact (isTitleWord_of_mem hw).solid c hcw
  refine ⟨?spaced, ?hyphen, ?underscore, ?words, ?pieces, ?again⟩
  case spaced =>
    apply singleSpaced_of_splitOn
    rw [hwords]
    exact fun w hw => (isTitleWord_of_mem hw).ne_nil
  case hyphen => exact fun h => absurd (hsolid _ h) (by decide)
  case underscore => exact fun h => absurd (hsolid _ h) (by decide)
  case words => rw [hwords, titleWords, capitalise_eq]
  case pieces =>
    intro other hpieces
    rw [title_eq, title_eq, titleWords, titleWords, hpieces]
  case again => rw [title_eq (title name), titleWords_title, ← title_eq]

/-- A ligature becomes two capitals, and separators of all kinds become one blank. -/
example : title "--ﬁne_ cat-".toList = "FIne Cat".toList := by
  decide +kernel

end ServiceHost.Banner
