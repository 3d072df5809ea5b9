import Mathlib.Data.List.Pairwise
import ServiceHost.Proofs.Http.Routing
/-!
What is found at a path.

Routes that do not fit a path make no difference to what is found at it (`Router.find?_append`), and
a route whose pattern is the path itself is found whatever other routes fit
(`Router.find?_literal`).
-/

namespace ServiceHost.Http

/-! ### Patterns without names -/

namespace Pattern

/-- The pattern that is a path, letter by letter. -/
def literal (path : List Char) : Pattern :=
  path.map .char

/-- Such a pattern fits its path and no other one. -/
theorem fits_literal {s path : List Char} : (literal s).fits path = true ↔ path = s := by
  induction s generalizing path with
  | nil => cases path <;> simp [literal, fits]
  | cons c s ih =>
    cases path with
    | nil => simp [literal, fits]
    | cons d path =>
      show (c == d && (literal s).fits path) = true ↔ _
      rw [Bool.and_eq_true, beq_iff_eq, ih, List.cons.injEq, eq_comm]

theorem conflicts_comm (p q : Pattern) : p.conflicts q = q.conflicts p := by
  induction p generalizing q with
  | nil => rcases q with - | ⟨_ | _ | _, q⟩ <;> rfl
  | cons part p ih =>
    rcases q with - | ⟨part', q⟩
    · cases part <;> rfl
    · cases part <;> cases part' <;> simp only [conflicts, ih q]
      rw [Bool.beq_comm]

/-- The path itself says more than any other pattern that fits it. -/
theorem closer_literal {p : Pattern} {s : List Char} (hfits : p.fits s = true)
    (hapart : p.conflicts (literal s) = false) :
    (literal s).closer p = true ∧ p.closer (literal s) = false := by
  induction s generalizing p with
  | nil =>
    -- only the empty pattern and its like fit nothing, and they conflict
    rcases p with - | ⟨_ | _ | _, rest⟩
    · cases hapart
    · cases hfits
    · cases hfits
    · cases hfits
  | cons c s ih =>
    rcases p with - | ⟨d | _ | _, rest⟩
    · cases hfits
    · -- a letter must be the first one of the path
      obtain ⟨hd, hrest⟩ := Bool.and_eq_true_iff.1 hfits
      obtain rfl := beq_iff_eq.1 hd
      have hsame : conflicts rest (literal s) = false := by
        simpa [literal, conflicts] using hapart
      obtain ⟨hcloser, hnot⟩ := ih hrest hsame
      constructor
      · show (d == d && (literal s).closer rest) = true
        rw [beq_self_eq_true, Bool.true_and, hcloser]
      · show (d == d && closer rest (literal s)) = false
        rw [beq_self_eq_true, Bool.true_and, hnot]
    · exact ⟨rfl, rfl⟩
    · exact ⟨rfl, rfl⟩

end Pattern

namespace Router

variable {α : Type} {routes : List (String × α)} {router router' : Router α} {path : List Char}
  {entry : Pattern × α}

/-! ### Routers that are made of routes -/

/-- The well-formed routes of a row, by their patterns. -/
def entries (routes : List (String × α)) : Router α :=
  routes.filterMap fun route => (pattern? route).map fun p => (p, route.2)

theorem entries_append (routes more : List (String × α)) :
    entries (routes ++ more) = entries routes ++ entries more :=
  List.filterMap_append

/-- A router holds what has been added to it. -/
theorem eq_append_of_addAll? (h : router.addAll? routes = some router') :
    router' = router ++ entries routes := by
  induction routes using List.reverseRecOn generalizing router' with
  | nil =>
    obtain rfl := Option.some.inj h
    exact (List.append_nil _).symm
  | append_singleton routes route ih =>
    rw [addAll?_snoc] at h
    obtain ⟨before, hbefore, hadd⟩ := Option.bind_eq_some_iff.1 h
    obtain ⟨p, hp, -, rfl⟩ := add?_eq_some_iff.1 hadd
    rw [ih hbefore, entries_append, List.append_assoc]
    congr 1
    simp [entries, hp]

/-- No two routes of a compatible row conflict. -/
theorem Compatible.entries_apart (h : Compatible routes) :
    (entries routes).Pairwise fun e e' => e'.1.conflicts e.1 = false := by
  refine List.pairwise_filterMap.2 (h.apart.imp ?_)
  intro first second hbeside e he e' he'
  obtain ⟨p, hp, rfl⟩ := Option.map_eq_some_iff.1 he
  obtain ⟨q, hq, rfl⟩ := Option.map_eq_some_iff.1 he'
  exact hbeside p hp q hq

/-! ### The route that is found -/

/-- **Routes that do not fit make no difference.** -/
theorem find?_append (h : ∀ e ∈ router', e.1.fits path = false) :
    (router ++ router').find? path = router.find? path := by
  have hnone : router'.filter (fun e => e.1.fits path) = [] :=
    List.filter_eq_nil_iff.2 fun e he => by simp [h e he]
  unfold find?
  rw [List.filter_append, hnone, List.append_nil]

/-- The closest of some routes is the one that they are narrowed down to. -/
theorem foldl_closest (l : List (Pattern × α)) {first : Pattern × α} (hmem : entry ∈ first :: l)
    (hclosest : ∀ e ∈ first :: l, e = entry ∨
      entry.1.closer e.1 = true ∧ e.1.closer entry.1 = false) :
    l.foldl (fun a b => if b.1.closer a.1 then b else a) first = entry := by
  induction l generalizing first with
  | nil => exact (List.mem_singleton.1 hmem).symm
  | cons next rest ih =>
    obtain ⟨hfirst, hnext, hrest⟩ := List.forall_mem_cons.1 hclosest |>.imp_right
      List.forall_mem_cons.1
    rw [List.foldl_cons]
    have hkeep : ∀ e, e = entry ∨ entry.1.closer e.1 = true ∧ e.1.closer entry.1 = false →
        entry ∈ e :: rest →
          rest.foldl (fun a b => if b.1.closer a.1 then b else a) e = entry :=
      fun e he hin => ih hin (List.forall_mem_cons.2 ⟨he, hrest⟩)
    split
    next hcloser =>
      refine hkeep next hnext ?_
      rcases List.mem_cons.1 hmem with rfl | hin
      · -- what comes next is closer than the closest, so it is the same
        rcases hnext with rfl | ⟨-, hnot⟩
        · exact List.mem_cons_self
        · rw [hnot] at hcloser
          cases hcloser
      · exact hin
    next hcloser =>
      refine hkeep first hfirst ?_
      rcases List.mem_cons.1 hmem with rfl | hin
      · exact List.mem_cons_self
      · rcases List.mem_cons.1 hin with rfl | hin
        · rcases hfirst with rfl | ⟨hyes, -⟩
          · exact List.mem_cons_self
          · exact absurd hyes hcloser
        · exact List.mem_cons_of_mem _ hin

/-- **A path that has a route of its own leads to it**, whatever names could stand for it, too. -/
theorem find?_literal (hapart : router.Pairwise fun e e' => e'.1.conflicts e.1 = false) {page : α}
    (hmem : (Pattern.literal path, page) ∈ router) : router.find? path = some page := by
  have hfits : (Pattern.literal path).fits path = true := Pattern.fits_literal.2 rfl
  have hclosest : ∀ e ∈ router, e.1.fits path = true → e = (Pattern.literal path, page) ∨
      (Pattern.literal path).closer e.1 = true ∧ e.1.closer (Pattern.literal path) = false := by
    intro e he hefits
    by_cases heq : e = (Pattern.literal path, page)
    · exact .inl heq
    · have : Std.Symm fun e e' : Pattern × α => e'.1.conflicts e.1 = false :=
        ⟨fun e e' h => (Pattern.conflicts_comm ..).trans h⟩
      have hne := hapart.forall hmem he (Ne.symm heq)
      exact .inr (Pattern.closer_literal hefits hne)
  unfold find?
  have hin : (Pattern.literal path, page) ∈ router.filter fun e => e.1.fits path :=
    List.mem_filter.2 ⟨hmem, hfits⟩
  split
  next hnil =>
    rw [hnil] at hin
    cases hin
  next first rest hfilter =>
    rw [hfilter] at hin
    rw [foldl_closest rest hin]
    intro e he
    rw [← hfilter] at he
    exact hclosest e (List.mem_filter.1 he).1 (List.mem_filter.1 he).2

end Router

end ServiceHost.Http
