import ServiceHost.Proofs.Text
import ServiceHost.Telemetry.Export
/-!
Lists of request headers.

A list is read segment by segment: a segment is a header, with any blanks around its name and its
value, or it stands for none.  What is read is the map of the headers, in which the last value of a
name counts; so reading two lists in a row is reading both and letting the second one override the
first (`headers_last_wins`).
-/

namespace ServiceHost.Export

open Text

/-! ### Lists and how they are written -/

/-- A header that can be written in a list. -/
structure Header where
  name : List Char
  value : List Char
  name_ne_nil : name ≠ []
  trim_name : trim name = name
  trim_value : trim value = value
  comma_notMem_name : ',' ∉ name
  equals_notMem : '=' ∉ name
  comma_notMem_value : ',' ∉ value

/-- A segment that stands for no header: it has no equals sign, or only blanks before the first. -/
structure Stray where
  text : List Char
  comma_notMem : ',' ∉ text
  nameless :
    '=' ∉ text ∨ ∃ (before : Blanks) (after : List Char), text = before.text ++ '=' :: after

/-- A segment of a list. -/
inductive Segment where
  | header (h : Header) (beforeName afterName beforeValue afterValue : Blanks)
  | stray (s : Stray)

namespace Segment

/-- The text of a segment. -/
def write : Segment → List Char
  | header h b₁ b₂ b₃ b₄ =>
    b₁.text ++ h.name ++ b₂.text ++ '=' :: (b₃.text ++ h.value ++ b₄.text)
  | stray s => s.text

/-- The name and the value that a segment stands for. -/
def pair? : Segment → Option (List Char × List Char)
  | header h _ _ _ _ => some (h.name, h.value)
  | stray _ => none

end Segment

/-- The text of a list. -/
def writeList (segments : List Segment) : List Char :=
  [','].intercalate (segments.map Segment.write)

/-! ### Segments -/

theorem headerOf?_append {k v : List Char} (hk : '=' ∉ k) :
    headerOf? (k ++ '=' :: v) = if (trim k).isEmpty then none else some (trim k, trim v) := by
  rw [headerOf?, splitFirst_append hk]
  rfl

/-- A segment is read as what it stands for. -/
theorem headerOf?_write (s : Segment) : headerOf? s.write = s.pair? := by
  cases s with
  | header h b₁ b₂ b₃ b₄ =>
    have hname : '=' ∉ b₁.text ++ h.name ++ b₂.text := by
      simp only [List.mem_append, not_or]
      exact ⟨⟨b₁.notMem rfl, h.equals_notMem⟩, b₂.notMem rfl⟩
    rw [Segment.write, headerOf?_append hname, trim_padded, trim_padded, h.trim_name,
      h.trim_value, if_neg (mt List.isEmpty_iff.1 h.name_ne_nil)]
    rfl
  | stray s =>
    rw [Segment.write, Segment.pair?]
    rcases s.nameless with hnone | ⟨before, after, htext⟩
    · rw [headerOf?, splitFirst_eq_none_iff.2 hnone]
      rfl
    · rw [htext, headerOf?_append (before.notMem rfl), before.trim_eq_nil]
      rfl

theorem comma_notMem_write (s : Segment) : ',' ∉ s.write := by
  cases s with
  | header h b₁ b₂ b₃ b₄ =>
    simp only [Segment.write, List.mem_append, List.mem_cons, not_or]
    exact ⟨⟨⟨b₁.notMem rfl, h.comma_notMem_name⟩, b₂.notMem rfl⟩, by decide,
      ⟨b₃.notMem rfl, h.comma_notMem_value⟩, b₄.notMem rfl⟩
  | stray s => exact s.comma_notMem

/-! ### Lists -/

theorem headerPairs_append (a b : List Char) :
    headerPairs (a ++ ',' :: b) = headerPairs a ++ headerPairs b := by
  simp only [headerPairs, splitOn_eq, List.splitOn_append_cons_self, List.filterMap_append]

/-- A list is read as what its segments stand for, in their order. -/
theorem headerPairs_writeList (segments : List Segment) :
    headerPairs (writeList segments) = segments.filterMap Segment.pair? := by
  cases segments with
  | nil => rfl
  | cons s rest =>
    have hcommas : ∀ w ∈ (s :: rest).map Segment.write, ',' ∉ w := by
      intro w hw
      obtain ⟨s', -, rfl⟩ := List.mem_map.1 hw
      exact comma_notMem_write s'
    rw [headerPairs, splitOn_eq, writeList,
      List.splitOn_intercalate ',' hcommas (List.cons_ne_nil _ _),
      List.filterMap_map]
    congr 1
    funext s'
    exact headerOf?_write s'

/-! ### Maps -/

variable {k v name : List Char} {hs : List (List Char × List Char)}

theorem lookup_cons_eq_ite :
    ((k, v) :: hs).lookup name = if name = k then some v else hs.lookup name := by
  rw [List.lookup_cons]
  by_cases h : name = k
  · rw [beq_iff_eq.2 h, if_pos h]
  · rw [beq_eq_false_iff_ne.2 h, if_neg h]

theorem lookup_setHeader :
    (setHeader k v hs).lookup name = if name = k then some v else hs.lookup name := by
  induction hs with
  | nil => exact lookup_cons_eq_ite
  | cons p hs ih =>
    obtain ⟨k', v'⟩ := p
    rw [setHeader]
    split
    next hk =>
      rw [lookup_cons_eq_ite, lookup_cons_eq_ite, hk]
      split <;> rfl
    next hk =>
      rw [lookup_cons_eq_ite, lookup_cons_eq_ite, ih]
      -- the two names differ, so at most one of them is asked for
      by_cases h : name = k'
      · rw [if_pos h, if_pos h, if_neg (h ▸ hk)]
      · rw [if_neg h, if_neg h]

theorem mem_map_fst_setHeader :
    name ∈ (setHeader k v hs).map Prod.fst ↔ name = k ∨ name ∈ hs.map Prod.fst := by
  induction hs with
  | nil => simp [setHeader]
  | cons p hs ih =>
    rw [setHeader]
    split
    next hk => simp [hk]
    next hk =>
      rw [List.map_cons, List.mem_cons, ih, List.map_cons, List.mem_cons]
      exact or_left_comm

theorem nodup_setHeader (h : (hs.map Prod.fst).Nodup) :
    ((setHeader k v hs).map Prod.fst).Nodup := by
  induction hs with
  | nil => exact List.pairwise_singleton _ k
  | cons p hs ih =>
    obtain ⟨hp, hrest⟩ := List.nodup_cons.1 h
    rw [setHeader]
    split
    next hk => exact hk ▸ h
    next hk =>
      refine List.nodup_cons.2 ⟨fun hmem => ?_, ih hrest⟩
      exact (mem_map_fst_setHeader.1 hmem).elim hk hp

/-- Setting headers one after the other, the last value of a name counts, and it overrides what was
there before. -/
theorem lookup_foldl_setHeader (ps : List (List Char × List Char)) :
    (ps.foldl (fun acc p => setHeader p.1 p.2 acc) hs).lookup name =
      (ps.reverse.lookup name).or (hs.lookup name) := by
  induction ps generalizing hs with
  | nil => rfl
  | cons p ps ih =>
    obtain ⟨k, v⟩ := p
    rw [List.foldl_cons, ih, lookup_setHeader, List.reverse_cons, List.lookup_append,
      Option.or_assoc, lookup_cons_eq_ite]
    congr 1
    split <;> rfl

theorem lookup_headers (raw name : List Char) :
    (headers raw).lookup name = (headerPairs raw).reverse.lookup name :=
  (lookup_foldl_setHeader _).trans (Option.or_none ..)

/-- Each name has one value. -/
theorem nodup_headers (raw : List Char) : ((headers raw).map Prod.fst).Nodup := by
  have hfold (ps : List (List Char × List Char)) :
      ∀ hs : List (List Char × List Char), (hs.map Prod.fst).Nodup →
        ((ps.foldl (fun acc p => setHeader p.1 p.2 acc) hs).map Prod.fst).Nodup := by
    induction ps with
    | nil => exact fun _ h => h
    | cons p ps ih => exact fun _ h => ih _ (nodup_setHeader h)
  exact hfold _ [] List.nodup_nil

/-- **Lists of headers.**  Each name has one value.  A written list is read as the map of its
headers: of several values of one name the last one counts, and stray segments do not matter.  Two
lists in a row are read as the first one overridden by the second. -/
theorem headers_last_wins (segments : List Segment) (raw a b name : List Char) :
    ((headers raw).map Prod.fst).Nodup ∧
    (headers (writeList segments)).lookup name =
      (segments.filterMap Segment.pair?).reverse.lookup name ∧
    (headers (a ++ ',' :: b)).lookup name =
      ((headers b).lookup name).or ((headers a).lookup name) := by
  refine ⟨nodup_headers raw, ?_, ?_⟩
  · rw [lookup_headers, headerPairs_writeList]
  · rw [lookup_headers, headerPairs_append, List.reverse_append, List.lookup_append, lookup_headers,
      lookup_headers]

end ServiceHost.Export
