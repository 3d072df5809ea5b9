import Mathlib.Data.List.Nodup
import ServiceHost.Proofs.Http.Plain
import ServiceHost.Server.Assembly
/-!
The paths under which a registry can be read.

Texts that are configured one after the other give the default path and then every other one at its
first mention (`pathsOf_eq`), each with a slash in front and none twice.  To be routed they must
also be patterns that can stand beside each other, which completing and comparing texts does not
see to: `pages_built_iff` says which texts make a router.
-/

namespace ServiceHost.Metrics

open Http Text

variable {text p : String} {texts : List String}

/-! ### One text -/

/-- Only blank texts count for nothing. -/
theorem normalisePath_eq_none_iff : normalisePath text = none ↔ isBlankText text.toList = true := by
  rw [← isEmpty_trim, List.isEmpty_iff]
  unfold normalisePath
  split
  next h => exact iff_of_true rfl h
  next h => exact iff_of_false (Option.some_ne_none _) (by simp [h])
  next h _ => exact iff_of_false (Option.some_ne_none _) h

/-- A path is the trimmed text, with a slash in front if it has none. -/
theorem toList_of_normalisePath (h : normalisePath text = some p) :
    p.toList.head? = some '/' ∧
      (p.toList = trim text.toList ∨ p.toList = '/' :: trim text.toList) := by
  unfold normalisePath at h
  split at h
  next => cases h
  next rest htrim =>
    obtain rfl := Option.some.inj h
    rw [String.toList_ofList, htrim]
    exact ⟨rfl, .inl rfl⟩
  next =>
    obtain rfl := Option.some.inj h
    rw [String.toList_ofList]
    exact ⟨rfl, .inr rfl⟩

/-- The slash is no brace. -/
theorem unbraced_of_normalisePath (h : normalisePath text = some p) (hu : Unbraced text.toList) :
    Unbraced p.toList := by
  have htrim : Unbraced (trim text.toList) := hu.of_subset (trim_subset _)
  rcases (toList_of_normalisePath h).2 with hp | hp
  · rwa [hp]
  · rw [hp]
    exact htrim.cons_slash

/-! ### First mentions -/

/-- A mention at the end counts if it is the first one. -/
theorem eraseDups_concat (l : List String) (a : String) :
    (l ++ [a]).eraseDups = if a ∈ l then l.eraseDups else l.eraseDups ++ [a] := by
  rw [List.eraseDups_append, List.removeAll]
  split
  next h => simp [h]
  next h => simp [h, List.eraseDups_cons]

theorem nodup_eraseDups (l : List String) : l.eraseDups.Nodup := by
  induction l using List.reverseRecOn with
  | nil => exact List.nodup_nil
  | append_singleton l a ih =>
    rw [eraseDups_concat]
    split
    next => exact ih
    next h =>
      refine List.nodup_append'.2 ⟨ih, List.nodup_singleton a, ?_⟩
      rwa [List.disjoint_singleton, List.mem_eraseDups]

/-! ### Texts one after the other -/

/-- The paths of a server of pages after some texts have been configured. -/
def pathsOf (texts : List String) : List String :=
  texts.foldl addPath [defaultPath]

/-- **What texts add.**  The first mention of a path counts. -/
theorem pathsOf_eq (texts : List String) :
    pathsOf texts = (defaultPath :: texts.filterMap normalisePath).eraseDups := by
  induction texts using List.reverseRecOn with
  | nil => rfl
  | append_singleton texts text ih =>
    have hlast : pathsOf (texts ++ [text]) = addPath (pathsOf texts) text := by
      rw [pathsOf, List.foldl_append]
      rfl
    rw [hlast, addPath, ih, List.filterMap_append]
    cases hpath : normalisePath text with
    | none => rw [List.filterMap_cons_none hpath, List.filterMap_nil, List.append_nil]
    | some p =>
      rw [List.filterMap_cons_some hpath, List.filterMap_nil, ← List.cons_append,
        eraseDups_concat]
      simp only [List.contains_iff_mem, List.mem_eraseDups]

theorem mem_pathsOf_iff : p ∈ pathsOf texts ↔
    p = defaultPath ∨ ∃ text ∈ texts, normalisePath text = some p := by
  rw [pathsOf_eq, List.mem_eraseDups, List.mem_cons, List.mem_filterMap]

theorem head?_pathsOf (texts : List String) : (pathsOf texts).head? = some defaultPath := by
  rw [pathsOf_eq, List.eraseDups_cons]
  rfl

theorem nodup_pathsOf (texts : List String) : (pathsOf texts).Nodup := by
  rw [pathsOf_eq]
  exact nodup_eraseDups _

/-- Every path begins with a slash. -/
theorem head?_of_mem_pathsOf (h : p ∈ pathsOf texts) : p.toList.head? = some '/' := by
  rcases mem_pathsOf_iff.1 h with rfl | ⟨text, -, hpath⟩
  · rfl
  · exact (toList_of_normalisePath hpath).1

/-- Blank texts add nothing, wherever they stand. -/
theorem pathsOf_filter (texts : List String) :
    pathsOf (texts.filter fun text => !isBlankText text.toList) = pathsOf texts := by
  rw [pathsOf_eq, pathsOf_eq, List.filterMap_filter]
  congr 2
  refine List.filterMap_congr fun text _ => ?_
  cases hblank : isBlankText text.toList with
  | true => exact (normalisePath_eq_none_iff.2 hblank).symm
  | false => rfl

/-! ### Routing -/

/-- The patterns of two paths can stand beside each other. -/
def Apart (first second : String) : Prop :=
  ∀ a ∈ Pattern.parse? first.toList, ∀ b ∈ Pattern.parse? second.toList, b.conflicts a = false

/-- Paths make a router if they are patterns and stay apart. -/
theorem isSome_pageRouter_iff {paths : List String} : (pageRouter paths).isSome ↔
    (∀ p ∈ paths, (Pattern.parse? p.toList).isSome) ∧ paths.Pairwise Apart := by
  rw [pageRouter, Router.addAll?_isSome_iff, Router.compatible_iff, List.map_map]
  have hfst : Prod.fst ∘ (fun p : String => (p, ())) = id := rfl
  rw [hfst, List.map_id]
  rfl

/-- A path without braces stays apart from every other path. -/
theorem apart_of_unbraced {q : String} (hp : Unbraced p.toList) (hslash : p.toList.head? = some '/')
    (hne : p ≠ q) : Apart p q ∧ Apart q p := by
  have hfree : ∀ a ∈ Pattern.parse? p.toList, ∀ b ∈ Pattern.parse? q.toList,
      b.conflicts a = false := by
    intro a ha b hb
    rw [Pattern.parse?_of_unbraced hp hslash] at ha
    split at ha
    next => cases ha
    next =>
      obtain rfl := Option.some.inj ha
      rw [Bool.eq_false_iff, Ne, Pattern.conflicts_literal_iff]
      rintro rfl
      exact hne (String.toList_inj.1 (Pattern.eq_of_parse? hp hb)).symm
  exact ⟨hfree, fun b hb a ha => (Pattern.conflicts_comm a b).trans (hfree a ha b hb)⟩

/-- It takes two paths with braces to conflict. -/
theorem isSome_pageRouter_of_unbraced {paths : List String} (hnodup : paths.Nodup)
    (hslash : ∀ p ∈ paths, p.toList.head? = some '/')
    (hone : ∀ p ∈ paths, ∀ q ∈ paths, p ≠ q → Unbraced p.toList ∨ Unbraced q.toList) :
    (pageRouter paths).isSome ↔ ∀ p ∈ paths, (Pattern.parse? p.toList).isSome := by
  rw [isSome_pageRouter_iff, and_iff_left]
  refine hnodup.imp_of_mem fun {p q} hp hq hne => ?_
  rcases hone p hp q hq hne with hu | hu
  · exact (apart_of_unbraced hu (hslash p hp) hne).1
  · exact (apart_of_unbraced hu (hslash q hq) hne.symm).2

theorem unbraced_defaultPath : Unbraced defaultPath.toList := by
  decide

/-- Texts without braces need only be without the marks of older patterns. -/
theorem isSome_pageRouter_plain (h : ∀ text ∈ texts, Unbraced text.toList) :
    (pageRouter (pathsOf texts)).isSome ↔
      ∀ p ∈ pathsOf texts, ¬ "/:".toList <:+: p.toList ∧ ¬ "/*".toList <:+: p.toList := by
  have hpaths : ∀ p ∈ pathsOf texts, Unbraced p.toList := by
    intro p hp
    rcases mem_pathsOf_iff.1 hp with rfl | ⟨text, htext, hpath⟩
    · exact unbraced_defaultPath
    · exact unbraced_of_normalisePath hpath (h text htext)
  rw [isSome_pageRouter_of_unbraced (nodup_pathsOf texts) (fun _ => head?_of_mem_pathsOf)
    fun p hp _ _ _ => .inl (hpaths p hp)]
  refine forall₂_congr fun p hp => ?_
  have hslash := head?_of_mem_pathsOf hp
  rw [Pattern.parse?_of_unbraced (hpaths p hp) hslash, ← not_or, ← hasOldMark_iff hslash]
  cases hasOldMark p.toList <;> simp

/-- With one text beside the default path only its own path is in question. -/
theorem isSome_pageRouter_single (text : String) : (pageRouter (pathsOf [text])).isSome ↔
    ∀ p ∈ normalisePath text, (Pattern.parse? p.toList).isSome := by
  have hone : ∀ p ∈ pathsOf [text], ∀ q ∈ pathsOf [text], p ≠ q →
      Unbraced p.toList ∨ Unbraced q.toList := by
    simp only [mem_pathsOf_iff, List.mem_singleton, exists_eq_left]
    rintro p (rfl | hp) q (rfl | hq) hne
    · exact .inl unbraced_defaultPath
    · exact .inl unbraced_defaultPath
    · exact .inr unbraced_defaultPath
    · exact absurd (Option.some.inj (hp.symm.trans hq)) hne
  rw [isSome_pageRouter_of_unbraced (nodup_pathsOf _) (fun _ => head?_of_mem_pathsOf) hone]
  simp only [mem_pathsOf_iff, List.mem_singleton, exists_eq_left, or_imp, forall_and, forall_eq]
  exact and_iff_right rfl

/-- A server has the default path, and another one if telemetry counts calls. -/
theorem isSome_pageRouter_metricsPaths (s : ServiceHost.Server Host) :
    (pageRouter s.metricsPaths).isSome ↔
      ((s.telemetry && Telemetry.countsCalls s.settings) = true →
        ∀ p ∈ normalisePath s.settings.telemetry.metrics.path,
          (Pattern.parse? p.toList).isSome) := by
  unfold ServiceHost.Server.metricsPaths
  split
  next hcounts =>
    rw [forall_prop_of_true hcounts]
    exact isSome_pageRouter_single _
  next hcounts => exact iff_of_true rfl fun h => absurd h hcounts

/-- **Configured paths.**  Texts configured one after the other give the default path, and then each
other path at its first mention, none of them twice and each behind a slash; blank texts add
nothing.  Whether they make a router is another matter: they do just in case all of them are
patterns and no two of these conflict.  Paths without braces do just in case no colon and no star
stands behind a slash, and the paths of a server do just in case that of its telemetry, if it counts
calls, is a pattern. -/
theorem pages_built_iff (texts : List String) :
    pathsOf texts = (defaultPath :: texts.filterMap normalisePath).eraseDups ∧
    (pathsOf texts).Nodup ∧
    (pathsOf texts).head? = some defaultPath ∧
    (∀ p ∈ pathsOf texts, p.toList.head? = some '/') ∧
    pathsOf (texts.filter fun text => !isBlankText text.toList) = pathsOf texts ∧
    ((pageRouter (pathsOf texts)).isSome ↔
      (∀ p ∈ pathsOf texts, (Pattern.parse? p.toList).isSome) ∧
        (pathsOf texts).Pairwise Apart) ∧
    ((∀ text ∈ texts, Unbraced text.toList) →
      ((pageRouter (pathsOf texts)).isSome ↔
        ∀ p ∈ pathsOf texts, ¬ "/:".toList <:+: p.toList ∧ ¬ "/*".toList <:+: p.toList)) ∧
    ∀ s : ServiceHost.Server Host, (pageRouter s.metricsPaths).isSome ↔
      ((s.telemetry && Telemetry.countsCalls s.settings) = true →
        ∀ p ∈ normalisePath s.settings.telemetry.metrics.path,
          (Pattern.parse? p.toList).isSome) :=
  ⟨pathsOf_eq texts, nodup_pathsOf texts, head?_pathsOf texts, fun _ => head?_of_mem_pathsOf,
    pathsOf_filter texts, isSome_pageRouter_iff, isSome_pageRouter_plain,
    isSome_pageRouter_metricsPaths⟩

/-- Two paths, one of them spelled in two ways and next to a blank text. -/
theorem pages_built_iff_spellings :
    pathsOf ["status", " ", " /status ", "health"] = ["/metrics", "/status", "/health"] ∧
    (pageRouter (pathsOf ["status", " ", " /status ", "health"])).isSome := by
  have hpaths : pathsOf ["status", " ", " /status ", "health"] =
      ["/metrics", "/status", "/health"] := by decide +kernel
  obtain ⟨-, -, -, -, -, -, hplain, -⟩ := pages_built_iff ["status", " ", " /status ", "health"]
  refine ⟨hpaths, (hplain (by decide +kernel)).2 ?_⟩
  rw [hpaths]
  decide +kernel

/-- Not every text can be configured: a colon behind the slash, a brace that is not closed, and two
names in one place break the router.  A server with such a path is accepted, and fails once it
runs. -/
theorem configured_path_unroutable :
    pageRouter (pathsOf [":id"]) = none ∧ pageRouter (pathsOf ["\x7b"]) = none ∧
    pageRouter (pathsOf ["\x7ba\x7d", "\x7bb\x7d"]) = none ∧
    ∃ s : ServiceHost.Server Host,
      Server.ofChanges
        [.settings { telemetry := { metrics := { enabled := true, path := ":id" } } },
          .telemetry] = .ok s ∧
      pageRouter s.metricsPaths = none ∧
      (s.run .usual { hostname := "host" } {} ⟨[0], none⟩ ⟨1, []⟩
        [(200 * Duration.nanosPerMilli, [0])]).2 =
          .returned (.error (.process 2 (.text "process panicked"))) := by
  refine ⟨by decide +kernel, by decide +kernel, by decide +kernel, _, rfl, ?_, ?_⟩
  · decide +kernel
  · decide +kernel

end ServiceHost.Metrics
