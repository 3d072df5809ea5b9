import Mathlib.Data.List.Induction
import ServiceHost.Http.Route
/-!
Routes that can stand beside each other.

A router takes routes one after the other and refuses a pattern that is malformed or conflicts with
an earlier one.  `Router.addAll?_isSome_iff` says that it takes a whole row exactly when all of its
patterns are well formed and no two of them conflict.
-/

namespace ServiceHost.Http.Router

variable {α : Type} {routes : List (String × α)} {router router' : Router α} {route : String × α}

/-- The pattern of a route, if it is well formed. -/
def pattern? (route : String × α) : Option Pattern :=
  Pattern.parse? route.1.toList

/-- Two routes do not conflict, the second one being added to the first. -/
def Beside (first second : String × α) : Prop :=
  ∀ p ∈ pattern? first, ∀ q ∈ pattern? second, q.conflicts p = false

/-- Routes that can all be served: the patterns are well formed, and no two conflict. -/
structure Compatible (routes : List (String × α)) : Prop where
  wellFormed : ∀ route ∈ routes, (pattern? route).isSome
  apart : routes.Pairwise Beside

/-- Whether routes are compatible is a matter of their paths. -/
theorem compatible_iff : Compatible routes ↔
    (∀ path ∈ routes.map Prod.fst, (Pattern.parse? path.toList).isSome) ∧
      (routes.map Prod.fst).Pairwise fun first second =>
        ∀ p ∈ Pattern.parse? first.toList, ∀ q ∈ Pattern.parse? second.toList,
          q.conflicts p = false := by
  rw [List.forall_mem_map, List.pairwise_map]
  exact ⟨fun h => ⟨h.wellFormed, h.apart⟩, fun h => ⟨h.1, h.2⟩⟩

/-- Routes stay compatible without some of them, whatever they serve. -/
theorem compatible_of_sublist {β : Type} {routes' : List (String × β)} (h : Compatible routes)
    (hpaths : (routes'.map Prod.fst).Sublist (routes.map Prod.fst)) : Compatible routes' := by
  obtain ⟨hwell, hapart⟩ := compatible_iff.1 h
  exact compatible_iff.2 ⟨fun path hpath => hwell path (hpaths.mem hpath), hapart.sublist hpaths⟩

/-! ### One more route -/

theorem compatible_snoc : Compatible (routes ++ [route]) ↔
    Compatible routes ∧ (pattern? route).isSome ∧ ∀ r ∈ routes, Beside r route := by
  constructor
  · rintro ⟨hwell, hapart⟩
    rw [List.forall_mem_append, List.forall_mem_singleton] at hwell
    obtain ⟨hroutes, -, hroute⟩ := List.pairwise_append.1 hapart
    exact ⟨⟨hwell.1, hroutes⟩, hwell.2, fun r hr => hroute r hr route (List.mem_singleton_self _)⟩
  · rintro ⟨⟨hwell, hapart⟩, hsome, hroute⟩
    refine ⟨?_, List.pairwise_append.2 ⟨hapart, List.pairwise_singleton _ _, ?_⟩⟩
    · rw [List.forall_mem_append, List.forall_mem_singleton]
      exact ⟨hwell, hsome⟩
    · intro r hr s hs
      obtain rfl := List.mem_singleton.1 hs
      exact hroute r hr

theorem addAll?_append (router : Router α) (routes more : List (String × α)) :
    router.addAll? (routes ++ more) = (router.addAll? routes).bind (·.addAll? more) :=
  List.foldlM_append ..

theorem addAll?_snoc (router : Router α) (routes : List (String × α)) (route : String × α) :
    router.addAll? (routes ++ [route]) =
      (router.addAll? routes).bind fun r => r.add? route.1 route.2 := by
  rw [addAll?_append]
  congr 1
  funext r
  show (r.add? route.1 route.2).bind some = r.add? route.1 route.2
  exact Option.bind_fun_some _

/-- What the routes serve makes no difference to whether they can be added. -/
theorem addAll?_map {β : Type} (f : α → β) (routes : List (String × α)) :
    addAll? [] (routes.map fun route => (route.1, f route.2)) =
      (addAll? [] routes).map (List.map fun entry => (entry.1, f entry.2)) := by
  induction routes using List.reverseRecOn with
  | nil => rfl
  | append_singleton routes route ih =>
    rw [List.map_append, List.map_singleton, addAll?_snoc, addAll?_snoc, ih]
    cases addAll? [] routes with
    | none => rfl
    | some router =>
      have hany : ∀ p : Pattern, (router.map fun entry => (entry.1, f entry.2)).any
          (fun entry => p.conflicts entry.1) = router.any fun entry => p.conflicts entry.1 :=
        fun p => List.any_map
      show add? _ _ _ = (router.add? route.1 route.2).map _
      unfold add?
      cases Pattern.parse? route.1.toList with
      | none => rfl
      | some p =>
        simp only [Option.bind_some, hany]
        split
        · rfl
        · simp

/-- A route is added at the end, under a pattern that conflicts with none. -/
theorem add?_eq_some_iff : router.add? route.1 route.2 = some router' ↔
    ∃ p, pattern? route = some p ∧ (∀ entry ∈ router, p.conflicts entry.1 = false) ∧
      router' = router ++ [(p, route.2)] := by
  have hfree : ∀ p : Pattern, (router.any fun entry => p.conflicts entry.1) = false ↔
      ∀ entry ∈ router, p.conflicts entry.1 = false := by
    intro p
    rw [List.any_eq_false]
    simp only [Bool.not_eq_true]
  unfold add? pattern?
  cases Pattern.parse? route.1.toList with
  | none => simp
  | some p =>
    show (if router.any (fun entry => p.conflicts entry.1) then _ else _) = _ ↔ _
    split
    next htaken =>
      constructor
      · intro h
        cases h
      · rintro ⟨p', hp, hnone, -⟩
        obtain rfl := Option.some.inj hp
        rw [(hfree p).2 hnone] at htaken
        cases htaken
    next htaken =>
      rw [Bool.not_eq_true, hfree] at htaken
      constructor
      · intro h
        exact ⟨p, rfl, htaken, (Option.some.inj h).symm⟩
      · rintro ⟨p', hp, -, rfl⟩
        obtain rfl := Option.some.inj hp
        rfl

/-! ### A row of routes -/

/-- A router holds the patterns of the routes that it has taken. -/
theorem mem_addAll? (h : addAll? [] routes = some router) (p : Pattern) :
    (∃ page, (p, page) ∈ router) ↔ ∃ route ∈ routes, pattern? route = some p := by
  induction routes using List.reverseRecOn generalizing router with
  | nil =>
    obtain rfl := Option.some.inj h
    simp
  | append_singleton routes route ih =>
    rw [addAll?_snoc] at h
    obtain ⟨before, hbefore, hadd⟩ := Option.bind_eq_some_iff.1 h
    obtain ⟨q, hq, -, rfl⟩ := add?_eq_some_iff.1 hadd
    simp only [List.mem_append, List.mem_singleton, Prod.mk.injEq, exists_or, ih hbefore, or_and_right,
      exists_eq_left, hq, Option.some.injEq]
    refine or_congr_right ⟨?_, ?_⟩
    · rintro ⟨_, rfl, -⟩
      rfl
    · rintro rfl
      exact ⟨_, rfl, rfl⟩

/-- **A row of routes can be added exactly when its routes are compatible.** -/
theorem addAll?_isSome_iff : (addAll? ([] : Router α) routes).isSome ↔ Compatible routes := by
  induction routes using List.reverseRecOn with
  | nil => exact ⟨fun _ => ⟨by simp, .nil⟩, fun _ => rfl⟩
  | append_singleton routes route ih =>
    rw [addAll?_snoc, compatible_snoc, ← ih]
    cases hrouter : addAll? [] routes with
    | none => simp
    | some router =>
      have hpatterns := mem_addAll? hrouter
      rw [Option.bind_some, Option.isSome_iff_exists]
      constructor
      · rintro ⟨router', hadd⟩
        obtain ⟨p, hp, hfree, -⟩ := add?_eq_some_iff.1 hadd
        refine ⟨rfl, Option.isSome_of_eq_some hp, ?_⟩
        intro r hr q hq p' hp'
        obtain rfl := Option.some.inj (hp.symm.trans hp')
        obtain ⟨page, hpage⟩ := (hpatterns q).2 ⟨r, hr, hq⟩
        exact hfree _ hpage
      · rintro ⟨-, hsome, hbeside⟩
        obtain ⟨p, hp⟩ := Option.isSome_iff_exists.1 hsome
        refine ⟨_, add?_eq_some_iff.2 ⟨p, hp, ?_, rfl⟩⟩
        rintro ⟨q, page⟩ hentry
        obtain ⟨r, hr, hq⟩ := (hpatterns q).1 ⟨page, hentry⟩
        exact hbeside r hr q hq p hp

end ServiceHost.Http.Router
