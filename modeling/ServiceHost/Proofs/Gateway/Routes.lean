import ServiceHost.Gateway.Routes
import ServiceHost.Proofs.Fallible
import ServiceHost.Proofs.Http.Routing
/-!
From services to the routes of a gateway.

Services add routes, wrap those that are there, and say what answers where there is none.  What
their additions come to (`lay`) can be told without a router, which takes it exactly if it takes the
paths of the routes (`Routing.addAll?_eq`).  So it is the routes laid in the end that decide whether
a gateway has a site (`site_cases`).
-/

namespace ServiceHost.Gateway

open Http

/-! ### What additions come to -/

/-- Routes by their paths, and what answers where there is none. -/
structure Laid where
  routes : List (String × Content) := []
  fallback : Handler := fun _ => some notFound

/-- Makes an addition.  A layer wraps what was there before. -/
def Laid.add (l : Laid) : Addition → Laid
  | .route path content => { l with routes := l.routes ++ [(path, content)] }
  | .fallback handle => { l with fallback := handle }
  | .layer layer =>
    { routes := l.routes.map fun route => (route.1, route.2.wrapped layer)
      fallback := layer l.fallback }

/-- What some additions come to. -/
def lay (additions : List Addition) : Laid :=
  additions.foldl Laid.add {}

theorem lay_snoc (additions : List Addition) (a : Addition) :
    lay (additions ++ [a]) = (lay additions).add a :=
  List.foldl_append ..

theorem Routing.addAll?_append (t : Routing) (additions more : List Addition) :
    t.addAll? (additions ++ more) = (t.addAll? additions).bind (·.addAll? more) :=
  List.foldlM_append ..

theorem Routing.addAll?_snoc (t : Routing) (additions : List Addition) (a : Addition) :
    t.addAll? (additions ++ [a]) = (t.addAll? additions).bind (·.add? a) := by
  rw [addAll?_append]
  congr 1
  funext t
  exact Option.bind_fun_some _

/-- **Additions can be made exactly if the routes can be added that they come to.** -/
theorem Routing.addAll?_eq (additions : List Addition) : addAll? {} additions =
    (Router.addAll? [] (lay additions).routes).map fun router =>
      { router := router, fallback := (lay additions).fallback } := by
  induction additions using List.reverseRecOn with
  | nil => rfl
  | append_singleton additions a ih =>
    rw [addAll?_snoc, lay_snoc, ih]
    cases a with
    | route path content =>
      show _ = (Router.addAll? [] ((lay additions).routes ++ [(path, content)])).map _
      rw [Router.addAll?_snoc]
      cases Router.addAll? [] (lay additions).routes with
      | none => rfl
      | some router =>
        show (router.add? path content).map _ = (router.add? path content).map _
        rfl
    | fallback handle =>
      show _ = (Router.addAll? [] (lay additions).routes).map _
      cases Router.addAll? [] (lay additions).routes <;> rfl
    | layer layer =>
      show _ = (Router.addAll? [] ((lay additions).routes.map _)).map _
      rw [Router.addAll?_map (Content.wrapped layer)]
      cases Router.addAll? [] (lay additions).routes <;> rfl

/-! ### The routes of a gateway -/

/-- What services add, up to the first service that refuses, and its refusal. -/
def registered (s : Surroundings) : List Service → List Addition × Option ComponentError
  | [] => ([], none)
  | service :: rest =>
    match service.register s with
    | .error source => ([], some source)
    | .ok additions => (additions ++ (registered s rest).1, (registered s rest).2)

/-- What the services of a gateway add. -/
def Plan.laid (g : Plan) : Laid :=
  lay (registered g.surroundings g.services).1

/-- The routes of a gateway: those of its services, and its own unless a service refuses. -/
def Plan.routes (g : Plan) (fs : Files) : List (String × Content) :=
  match (registered g.surroundings g.services).2 with
  | some _ => g.laid.routes
  | none => g.laid.routes ++ healthRoute :: docsRoutes fs g.docs

/-- Every service makes its additions. -/
def Plan.Registers (g : Plan) : Prop :=
  ∀ service ∈ g.services, ∃ additions, service.register g.surroundings = .ok additions

theorem registered_snd_eq_none_iff {s : Surroundings} {services : List Service} :
    (registered s services).2 = none ↔
      ∀ service ∈ services, ∃ additions, service.register s = .ok additions := by
  induction services with
  | nil => simp [registered]
  | cons service rest ih =>
    rw [registered, List.forall_mem_cons]
    cases service.register s with
    | error source => simp
    | ok additions => simp [ih]

theorem addServices_eq (s : Surroundings) (services : List Service) (t : Routing) :
    addServices s services t =
      match t.addAll? (registered s services).1, (registered s services).2 with
      | none, _ => .error .panic
      | some _, some source => .error (.registration source)
      | some t, none => .ok t := by
  induction services generalizing t with
  | nil => rfl
  | cons service rest ih =>
    rw [addServices, registered]
    cases service.register s with
    | error source => rfl
    | ok additions =>
      simp only [Routing.addAll?_append]
      cases t.addAll? additions with
      | none => rfl
      | some t => exact ih t

variable {g : Plan} {fs : Files} {site : Site}

theorem routes_of_registers (h : g.Registers) :
    g.routes fs = g.laid.routes ++ healthRoute :: docsRoutes fs g.docs := by
  rw [Plan.routes, registered_snd_eq_none_iff.2 h]

/-- Where the routes are compatible, it is the first refusal of a service that keeps a gateway from
having routes, or else its options. -/
theorem site_cases (h : Router.Compatible (g.routes fs)) :
    (∃ source, (registered g.surroundings g.services).2 = some source ∧
      g.site fs = .error (.registration source)) ∨
    g.Registers ∧ ∃ router, Router.addAll? [] (g.routes fs) = some router ∧
      g.site fs = (policyOf g.cors).map fun p =>
        { router := router, fallback := g.laid.fallback, policy := p } := by
  obtain ⟨router, hrouter⟩ := Option.isSome_iff_exists.1 (Router.addAll?_isSome_iff.2 h)
  have hlaid : Routing.addAll? {} (registered g.surroundings g.services).1 =
      (Router.addAll? [] g.laid.routes).map fun router =>
        { router := router, fallback := g.laid.fallback } := Routing.addAll?_eq _
  unfold Plan.site
  rw [addServices_eq, hlaid]
  cases hrefusal : (registered g.surroundings g.services).2 with
  | some source =>
    rw [Plan.routes, hrefusal] at hrouter
    refine .inl ⟨source, rfl, ?_⟩
    simp only [hrouter]
    rfl
  | none =>
    have hregisters : g.Registers := registered_snd_eq_none_iff.1 hrefusal
    refine .inr ⟨hregisters, router, hrouter, ?_⟩
    rw [routes_of_registers hregisters, Router.addAll?_append] at hrouter
    obtain ⟨before, hbefore, hrest⟩ := Option.bind_eq_some_iff.1 hrouter
    simp only [hbefore, Option.map_some, bind, Except.bind, hrest]
    cases policyOf g.cors <;> rfl

/-- A site is under the policy that the options give. -/
theorem policyOf_of_site (h : g.site fs = .ok site) : policyOf g.cors = .ok site.policy := by
  unfold Plan.site at h
  obtain ⟨before, -, h⟩ := Except.bind_eq_ok_iff.1 h
  split at h
  · cases h
  · obtain ⟨policy, hpolicy, hsite⟩ := Except.bind_eq_ok_iff.1 h
    rw [hpolicy, ← Except.ok.inj hsite]

theorem policyOf_some {o : CorsOptions} {policy : Option CorsPolicy}
    (h : policyOf (some o) = .ok policy) : ∃ p, policy = some p ∧ o.policy = .ok p := by
  rw [policyOf] at h
  split at h
  · cases h
  next p hp =>
    split at h
    · exact ⟨p, (Except.ok.inj h).symm, hp⟩
    · cases h

end ServiceHost.Gateway
