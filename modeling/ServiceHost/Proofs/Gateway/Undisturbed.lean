import ServiceHost.Proofs.Gateway.CrossOrigin
import ServiceHost.Proofs.Http.Finding
/-!
What documentation and a policy do to the other routes of a gateway.

Documentation adds three routes under paths of their own, and a policy puts header fields into the
responses.  So with both, with one of them or without, every request that does not ask for
the documentation, and is no OPTIONS request, finds the same route and gets the same status and body
(`answers_unchanged`).
-/

namespace ServiceHost.Gateway

open Http

/-! ### The routes of the documentation -/

/-- The paths of the documentation. -/
def docsPaths : List String :=
  ["/swagger/doc.json", "/swagger", "/swagger/"]

theorem map_fst_docsRoutes (fs : Files) (docs : Option ApiDocs) :
    (docsRoutes fs docs).map Prod.fst = [] ∨ (docsRoutes fs docs).map Prod.fst = docsPaths := by
  unfold docsRoutes
  split
  · exact .inr rfl
  · exact .inl rfl

/-- The documentation is served under its paths and no others. -/
theorem docsRoutes_not_fits {fs : Files} {docs : Option ApiDocs} {path : List Char}
    (hpath : path ∉ docsPaths.map String.toList) :
    ∀ e ∈ Router.entries (docsRoutes fs docs), e.1.fits path = false := by
  have hliteral : ∀ s ∈ docsPaths, Pattern.parse? s.toList = some (Pattern.literal s.toList) := by
    decide
  intro e he
  obtain ⟨route, hroute, hentry⟩ := List.mem_filterMap.1 he
  have hfst : route.1 ∈ docsPaths := by
    have hmem := List.mem_map_of_mem hroute (f := Prod.fst)
    rcases map_fst_docsRoutes fs docs with hnone | hall
    · rw [hnone] at hmem
      cases hmem
    · rwa [hall] at hmem
  rw [Router.pattern?, hliteral _ hfst, Option.map_some] at hentry
  obtain rfl := Option.some.inj hentry
  rw [Bool.eq_false_iff]
  intro hfits
  obtain rfl := Pattern.fits_literal.1 hfits
  exact hpath (List.mem_map_of_mem hfst)

/-! ### Sites -/

/-- The services of a gateway make their additions, and their routes do not conflict with each
other, with the health check or with documentation. -/
structure Plan.Undisputed (g : Plan) : Prop where
  registers : g.Registers
  compatible : Router.Compatible (g.laid.routes ++
    healthRoute :: docsPaths.map fun path => (path, .text ""))

/-- The routes of the services and the health check. -/
def Plan.ownRoutes (g : Plan) : List (String × Content) :=
  g.laid.routes ++ [healthRoute]

/-- The gateway with other documentation and under other options. -/
def Plan.beside (g : Plan) (docs : Option ApiDocs) (cors : Option CorsOptions) : Plan :=
  { g with docs := docs, cors := cors }

/-- The site with the routes of the services, the health check and some documentation, under some
policy. -/
def Plan.served (g : Plan) (docs : Option ApiDocs) (fs : Files) (policy : Option CorsPolicy) :
    Site where
  router := Router.entries (g.ownRoutes ++ docsRoutes fs docs)
  fallback := g.laid.fallback
  policy := policy

theorem routes_beside {g : Plan} (h : g.Registers) (docs : Option ApiDocs)
    (cors : Option CorsOptions) (fs : Files) :
    (g.beside docs cors).routes fs = g.ownRoutes ++ docsRoutes fs docs := by
  have hbeside : (g.beside docs cors).Registers := h
  rw [routes_of_registers hbeside, Plan.ownRoutes, List.append_assoc]
  rfl

namespace Plan.Undisputed

variable {g : Plan} (h : g.Undisputed) (docs : Option ApiDocs) (cors : Option CorsOptions)
  (fs : Files)

include h

theorem compatible_routes : Router.Compatible ((g.beside docs cors).routes fs) := by
  refine Router.compatible_of_sublist h.compatible ?_
  rw [routes_beside h.registers, Plan.ownRoutes, List.append_assoc]
  simp only [List.map_append, List.map_cons, List.map_map, List.singleton_append]
  refine (List.Sublist.refl _).append ((List.Sublist.refl [healthRoute.1]).append ?_)
  rcases map_fst_docsRoutes fs docs with hnone | hall
  · rw [hnone]
    exact List.nil_sublist _
  · rw [hall]
    exact List.Sublist.refl _

/-- The gateway has its routes, whatever documentation it is given, and if its options give a policy
that can be applied it has a site. -/
theorem site_eq {policy : Option CorsPolicy} (hpolicy : policyOf cors = .ok policy) :
    (g.beside docs cors).site fs = .ok (g.served docs fs policy) := by
  have hregisters : (g.beside docs cors).Registers := h.registers
  rcases site_cases (h.compatible_routes docs cors fs) with
    ⟨source, hsource, -⟩ | ⟨-, router, hrouter, hsite⟩
  · cases hsource.symm.trans (registered_snd_eq_none_iff.2 hregisters)
  · rw [routes_beside h.registers] at hrouter
    rw [Router.eq_append_of_addAll? hrouter, List.nil_append] at hsite
    rw [hsite]
    show (policyOf cors).map _ = _
    rw [hpolicy]
    rfl

/-- The health check is found at its path. -/
theorem find?_health (policy : Option CorsPolicy) :
    (g.served docs fs policy).router.find? "/health".toList = some (.text "OK") := by
  have hcompatible := h.compatible_routes docs none fs
  rw [routes_beside h.registers] at hcompatible
  refine Router.find?_literal hcompatible.entries_apart
    (List.mem_filterMap.2 ⟨healthRoute, ?_, rfl⟩)
  exact List.mem_append_left _ (List.mem_append_right _ List.mem_cons_self)

end Plan.Undisputed

/-! ### Responses -/

variable {site site' : Site} {fs : Files} {r : Request}

/-- A policy changes neither the status nor the body of a response, unless it answers the request
itself. -/
theorem Site.status_body_bare (hmethod : r.method ≠ "OPTIONS") :
    (site.respond fs r).map (fun x => (x.status, x.body)) =
      (site.bare.respond fs r).map fun x => (x.status, x.body) := by
  cases hpolicy : site.policy with
  | none =>
    obtain ⟨routing, policy⟩ := site
    obtain rfl : policy = none := hpolicy
    rfl
  | some p =>
    have hamends := Site.amends hpolicy hmethod fs
    generalize site.bare.respond fs r = own, site.respond fs r = resp at hamends
    cases hamends with
    | none => rfl
    | some h => simp only [Option.map_some, h.status, h.body]

/-- Without policies, the answers are the same where the same is found and the same answers in its
place. -/
theorem Site.respond_bare_congr (hfind : site'.router.find? r.path = site.router.find? r.path)
    (hfallback : site'.fallback = site.fallback) :
    site'.bare.respond fs r = site.bare.respond fs r := by
  rw [Site.respond_bare, Site.respond_bare, hfind, hfallback]

/-- **Documentation and a policy leave the other routes alone.**  Of a gateway whose services add
routes that conflict with nothing, take the one without documentation and options, and the one with
any documentation, over any files, and under any options that give a policy which can be applied.
Both have a site.  A request that is no OPTIONS request and does not ask for the documentation finds
the same route in both, and both answer with the same status and the same body, or neither does.
And both answer a GET request for the health check with 200 and OK. -/
theorem answers_unchanged {g : Plan} (h : g.Undisputed) (docs : Option ApiDocs)
    (cors : Option CorsOptions) (fs : Files) {policy : Option CorsPolicy}
    (hpolicy : policyOf cors = .ok policy) :
    ∃ bare site, (g.beside none none).site {} = .ok bare ∧ (g.beside docs cors).site fs = .ok site ∧
      ∀ (later : Files) (r : Request),
        (r.method ≠ "OPTIONS" → r.path ∉ docsPaths.map String.toList →
          site.router.find? r.path = bare.router.find? r.path ∧
          (site.respond later r).map (fun x => (x.status, x.body)) =
            (bare.respond later r).map fun x => (x.status, x.body)) ∧
        (r.method = "GET" → r.path = "/health".toList →
          ∀ s, s = bare ∨ s = site → ∃ resp, s.respond later r = some resp ∧ resp.status = 200 ∧
            resp.body = .text "OK") := by
  refine ⟨_, _, h.site_eq none none {} rfl, h.site_eq docs cors fs hpolicy, fun later r => ⟨?_, ?_⟩⟩
  · intro hmethod hpath
    have hfind : (g.served docs fs policy).router.find? r.path =
        (g.served none {} none).router.find? r.path := by
      simp only [Plan.served, Router.entries_append,
        Router.find?_append (docsRoutes_not_fits hpath)]
    refine ⟨hfind, ?_⟩
    rw [Site.status_body_bare hmethod, Site.respond_bare_congr hfind rfl,
      ← Site.status_body_bare hmethod]
  · intro hget hpath s hs
    have hmethod : r.method ≠ "OPTIONS" := by
      rw [hget]
      decide
    have hfind : s.router.find? r.path = some (.text "OK") := by
      rw [hpath]
      rcases hs with rfl | rfl
      · exact h.find?_health none {} none
      · exact h.find?_health docs fs policy
    have hbare : (s.bare.respond later r).map (fun x => (x.status, x.body)) =
        some (200, .text "OK") := by
      rw [Site.respond_bare, hfind]
      simp only [Content.over, Endpoint.respond, pages, hget]
      rfl
    rw [← Site.status_body_bare hmethod] at hbare
    obtain ⟨resp, hresp, hsame⟩ := Option.map_eq_some_iff.1 hbare
    exact ⟨resp, hresp, congrArg Prod.fst hsame, congrArg Prod.snd hsame⟩

/-- The routes of a service that takes the paths beneath those of the documentation, and all others,
under a layer that teaches everything to be a teapot. -/
def greedyRoutes : List Addition :=
  [.route "/swagger/\x7bpage\x7d" (.text "page"), .route "/\x7b*rest\x7d" (.text "rest"),
    .layer fun handle r => (handle r).map fun x => { x with status := 418 }]

/-- A gateway with this service. -/
def greedyGateway : Plan where
  services := [{ register := fun _ => .ok greedyRoutes }]

/-- Beside a document the service still answers for the paths beneath. -/
theorem answers_unchanged_beneath : greedyGateway.Undisputed ∧ ∃ policy site,
    policyOf (some {}) = .ok policy ∧
      (greedyGateway.beside (some ⟨"api", "/"⟩) (some {})).site
        { files := [("api/a.swagger.json", "")] } = .ok site ∧
      site.router.find? "/swagger/doc.json".toList = some (.file "api/a.swagger.json") ∧
      (site.respond {} { target := "/swagger/doc" }).map (fun x => (x.status, x.body)) =
        some (418, .text "page") := by
  have hundisputed : greedyGateway.Undisputed := by
    refine ⟨fun service hservice => ?_, Router.addAll?_isSome_iff.1 (by decide)⟩
    obtain rfl := List.mem_singleton.1 hservice
    exact ⟨_, rfl⟩
  obtain ⟨policy, hpolicy⟩ : ∃ policy, policyOf (some {}) = .ok policy := ⟨_, rfl⟩
  obtain ⟨bare, site, hbare, hsite, hall⟩ := answers_unchanged hundisputed (some ⟨"api", "/"⟩)
    (some {}) { files := [("api/a.swagger.json", "")] } hpolicy
  refine ⟨hundisputed, policy, site, hpolicy, hsite, ?_, ?_⟩
  · obtain rfl := Except.ok.inj (hsite.symm.trans (hundisputed.site_eq _ _ _ hpolicy))
    rfl
  · rw [((hall {} { target := "/swagger/doc" }).1 (by decide) (by decide)).2]
    obtain rfl := Except.ok.inj (hbare.symm.trans (hundisputed.site_eq none none {} rfl))
    decide

end ServiceHost.Gateway
