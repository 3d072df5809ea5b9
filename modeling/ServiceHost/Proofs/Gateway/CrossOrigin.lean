import ServiceHost.Proofs.Gateway.Routes
import ServiceHost.Proofs.Http.CrossOrigin
/-!
Gateways under cross-origin options.

The routes of a gateway are added one after the other, and a policy is made of its options only
then.  `panics_iff_only_star_method` says which options stop a gateway whose routes are compatible:
those that ask for credentials while the star is their one method.  Under all others the gateway
either serves or says what is wrong.  `grants_listed_or_own` says to whom a gateway that serves
grants access: to those whom its options list, and, since a policy takes nothing out of a response,
to those whom a service's own handlers do.
-/

namespace ServiceHost.Gateway

open Http

/-! ### Options that stop a gateway -/

theorem policyOf_eq_panic_iff {cors : Option CorsOptions} : policyOf cors = .error .panic ↔
    ∃ o p, cors = some o ∧ o.policy = .ok p ∧ p.isUsable = false := by
  cases cors with
  | none => simp [policyOf]
  | some o =>
    rw [policyOf]
    rcases hpolicy : o.policy with fault | p
    · simp [hpolicy]
    · by_cases husable : p.isUsable = true <;> simp [hpolicy, husable]

/-- Options that ask for credentials while the star is the one method, and that nothing else is
wrong with. -/
structure OnlyStarMethod (o : CorsOptions) : Prop where
  credentials : o.allowCredentials = true
  methods : o.allowedMethods = ["*"]
  origins : ∀ s ∈ o.allowedOrigins, s ≠ "*" ∧ Headers.isValue s = true
  headers : ∀ s ∈ o.allowedHeaders, s ≠ "*" ∧ isFieldName s = true

theorem onlyStarMethod_iff {o : CorsOptions} :
    OnlyStarMethod o ↔ ∃ p, o.policy = .ok p ∧ p.isUsable = false := by
  constructor
  · intro ho
    have horigins : "*" ∉ o.allowedOrigins := fun h => (ho.origins _ h).1 rfl
    have hheaders : "*" ∉ o.allowedHeaders := fun h => (ho.headers _ h).1 rfl
    have hwell : o.WellFormed := by
      refine ⟨.inr fun s hs => (ho.origins s hs).2, ?_, .inr fun s hs => (ho.headers s hs).2⟩
      rw [ho.methods]
      decide
    have hpolicy := CorsOptions.policy_eq_ok_iff.2 ⟨fun h => h.2.elim horigins hheaders, hwell, rfl⟩
    exact ⟨_, hpolicy, (CorsOptions.isUsable_iff hpolicy).2 ⟨ho.credentials, ho.methods⟩⟩
  · rintro ⟨p, hpolicy, husable⟩
    obtain ⟨hcredentials, hmethods⟩ := (CorsOptions.isUsable_iff hpolicy).1 husable
    obtain ⟨hstar, hwell, -⟩ := CorsOptions.policy_eq_ok_iff.1 hpolicy
    rw [not_and, not_or] at hstar
    obtain ⟨horigins, hheaders⟩ := hstar hcredentials
    refine ⟨hcredentials, hmethods, fun s hs => ⟨?_, ?_⟩, fun s hs => ⟨?_, ?_⟩⟩
    · exact fun h => horigins (h ▸ hs)
    · exact hwell.origins.resolve_left horigins s hs
    · exact fun h => hheaders (h ▸ hs)
    · exact hwell.headers.resolve_left hheaders s hs

/-- **Which options stop a gateway.**  Options with credentials and a star among the origins or the
header fields are refused, whatever else they say.  A gateway whose routes are compatible is stopped
exactly by options that ask for credentials while the star is their one method, and that nothing
else is wrong with, once all services have added their routes.  So as long as credentials and a star
among the methods do not meet, it has a site, or a refusal that says what is wrong. -/
theorem panics_iff_only_star_method {g : Plan} {fs : Files} (h : Router.Compatible (g.routes fs)) :
    (∀ o : CorsOptions, o.allowCredentials = true →
      "*" ∈ o.allowedOrigins ∨ "*" ∈ o.allowedHeaders →
        o.policy = .error .credentialsWithWildcard) ∧
      (g.site fs = .error .panic ↔ g.Registers ∧ ∃ o, g.cors = some o ∧ OnlyStarMethod o) ∧
      ((∀ o, g.cors = some o → o.allowCredentials = true → "*" ∉ o.allowedMethods) →
        (∃ site, g.site fs = .ok site) ∨ (∃ source, g.site fs = .error (.registration source)) ∨
          ∃ fault, g.site fs = .error (.cors fault)) := by
  have hpanic : g.site fs = .error .panic ↔
      g.Registers ∧ ∃ o, g.cors = some o ∧ OnlyStarMethod o := by
    have hpolicy : policyOf g.cors = .error .panic ↔ ∃ o, g.cors = some o ∧ OnlyStarMethod o := by
      rw [policyOf_eq_panic_iff]
      simp only [onlyStarMethod_iff, exists_and_left]
    rcases site_cases h with ⟨source, hsource, hsite⟩ | ⟨hregisters, router, -, hsite⟩
    · rw [hsite]
      constructor
      · intro heq
        cases heq
      · rintro ⟨hregisters, -⟩
        cases hsource.symm.trans (registered_snd_eq_none_iff.2 hregisters)
    · rw [hsite, Except.map_eq_error_iff, hpolicy, and_iff_right hregisters]
  refine ⟨fun o => CorsOptions.policy_of_wildcard, hpanic, ?_⟩
  intro hnever
  rcases hsite : g.site fs with (source | fault) | site
  · exact .inr (.inl ⟨source, rfl⟩)
  · exact .inr (.inr ⟨fault, rfl⟩)
  · obtain ⟨-, o, hcors, ho⟩ := hpanic.1 hsite
    have hstar : "*" ∈ o.allowedMethods := by
      rw [ho.methods]
      exact List.mem_singleton_self _
    exact absurd hstar (hnever o hcors ho.credentials)
  · exact .inl ⟨site, rfl⟩

/-- Options with credentials, and with the star as their one method. -/
def starredMethod : CorsOptions where
  allowedOrigins := ["https://app.example.com"]
  allowedMethods := ["*"]
  allowedHeaders := ["x-a"]
  allowCredentials := true

/-- A gateway with one service, under some options. -/
def namesGateway (cors : CorsOptions) : Plan where
  services := [{ register := fun _ => .ok [.route "/v1/names/\x7bname\x7d" (.text "known")] }]
  cors := some cors

/-- A bad header field keeps the options with the star as their one method from stopping the
gateway. -/
theorem panics_iff_only_star_method_bad_header :
    Router.Compatible ((namesGateway { starredMethod with allowedHeaders := ["x a"] }).routes {}) ∧
      (namesGateway starredMethod).site {} = .error .panic ∧
      (namesGateway { starredMethod with allowedHeaders := ["x a"] }).site {} ≠ .error .panic := by
  have hcompatible : ∀ cors, Router.Compatible ((namesGateway cors).routes {}) :=
    fun _ => Router.addAll?_isSome_iff.1 rfl
  have hregisters : ∀ cors, (namesGateway cors).Registers := by
    intro cors service hservice
    obtain rfl := List.mem_singleton.1 hservice
    exact ⟨_, rfl⟩
  refine ⟨hcompatible _, ?_, ?_⟩
  · refine (panics_iff_only_star_method (hcompatible _)).2.1.2
      ⟨hregisters _, _, rfl, rfl, rfl, ?_, ?_⟩
    · decide
    · decide
  · intro hpanic
    obtain ⟨-, o, hcors, ho⟩ := (panics_iff_only_star_method (hcompatible _)).2.1.1 hpanic
    obtain rfl := Option.some.inj hcors
    exact absurd (ho.headers "x a" (.head _)).2 (by decide)

/-- A star among the methods that credentials do not go with is not refused: if it is the one
method, it stops the gateway, and beside another one it gives a policy. -/
theorem starred_method_not_refused :
    Router.Compatible (Plan.routes { cors := some starredMethod } {}) ∧
      Plan.site { cors := some starredMethod } {} = .error .panic ∧
      ∃ p, CorsOptions.policy { starredMethod with allowedMethods := ["*", "GET"] } = .ok p :=
  ⟨Router.addAll?_isSome_iff.1 rfl, rfl, _, rfl⟩

/-! ### Who is granted access -/

/-- The site without its policy. -/
def Site.bare (site : Site) : Site :=
  { site with policy := none }

theorem Site.respond_bare (site : Site) (fs : Files) (r : Request) : site.bare.respond fs r =
    match site.router.find? r.path with
    | some content => (content.over fs).respond r
    | none => site.fallback r :=
  rfl

/-- A response with the fields of a policy, and the one that it was made of. -/
structure Amends (p : CorsPolicy) (r : Request) (own resp : Response) : Prop where
  status : resp.status = own.status
  body : resp.body = own.body
  granted : p.Granted r own.headers resp.headers

section Policies

variable {site : Site} {p : CorsPolicy} {r : Request}

theorem amends_handler (hmethod : r.method ≠ "OPTIONS") (handle : Handler) :
    Option.Rel (Amends p r) (handle r) (p.layer handle r) := by
  rw [CorsPolicy.layer_eq hmethod]
  cases handle r with
  | none => exact .none
  | some own => exact .some ⟨rfl, rfl, p.granted_amend r own.headers⟩

theorem amends_endpoint (hmethod : r.method ≠ "OPTIONS") (e : Endpoint) :
    Option.Rel (Amends p r) (e.respond r) ((e.wrap p.layer).respond r) := by
  have hhandler := amends_handler (p := p) hmethod e.handle
  unfold Endpoint.respond Endpoint.wrap
  dsimp only
  generalize e.handle r = own, p.layer e.handle r = resp at hhandler
  cases hhandler with
  | none => exact .none
  | @some own resp hamends =>
    -- what is added where the response is sent has other names
    have hvalues {name : String} (hallow : name ≠ "allow") (hlength : name ≠ "content-length")
        (e : Endpoint) (x : Response) :=
      Endpoint.values_complete hallow hlength e r.method x
    refine .some ⟨hamends.status, ?_, ?_, ?_⟩
    · dsimp only
      rw [hamends.body]
    · rw [hvalues (by decide) (by decide), hvalues (by decide) (by decide), hamends.granted.origin]
    · rw [hvalues (by decide) (by decide), hvalues (by decide) (by decide),
        hamends.granted.credentials]

/-- **A policy amends what a site answers without it**, but for requests that it answers itself. -/
theorem Site.amends (hpolicy : site.policy = some p) (hmethod : r.method ≠ "OPTIONS") (fs : Files) :
    Option.Rel (Amends p r) (site.bare.respond fs r) (site.respond fs r) := by
  have hlayer : site.layer = p.layer := by
    rw [Site.layer, hpolicy]
  rw [Site.respond_bare, Site.respond, hlayer]
  cases site.router.find? r.path with
  | none => exact amends_handler hmethod site.fallback
  | some content => exact amends_endpoint hmethod (content.over fs)

/-- The answer of a policy. -/
theorem Site.granted_options (hpolicy : site.policy = some p) (hmethod : r.method = "OPTIONS")
    (fs : Files) : ∃ resp, site.respond fs r = some resp ∧ p.Granted r [] resp.headers := by
  have hlayer : site.layer = p.layer := by
    rw [Site.layer, hpolicy]
  have hanswers (handle : Handler) : ∃ x, p.layer handle r = some x := by
    rw [CorsPolicy.layer, if_pos hmethod]
    exact ⟨_, rfl⟩
  unfold Site.respond
  rw [hlayer]
  cases site.router.find? r.path with
  | none =>
    obtain ⟨x, hx⟩ := hanswers site.fallback
    exact ⟨x, hx, CorsPolicy.granted_options hmethod hx⟩
  | some content =>
    obtain ⟨x, hx⟩ := hanswers (content.over fs).handle
    have hgranted := CorsPolicy.granted_options hmethod hx
    refine ⟨_, congrArg (Option.map _) hx, ?_, ?_⟩
    · rw [← hgranted.origin]
      exact Endpoint.values_complete (by decide) (by decide) ..
    · rw [← hgranted.credentials]
      exact Endpoint.values_complete (by decide) (by decide) ..

/-- Where the site would grant nothing without its policy, the policy alone grants what it does. -/
theorem Site.granted_of_grantless (hpolicy : site.policy = some p) {fs : Files} {resp : Response}
    (hresp : site.respond fs r = some resp)
    (hless : r.method ≠ "OPTIONS" → ∀ own, site.bare.respond fs r = some own →
      Grantless own.headers) : p.Granted r [] resp.headers := by
  by_cases hmethod : r.method = "OPTIONS"
  · obtain ⟨resp', hresp', hgranted⟩ := Site.granted_options hpolicy hmethod fs
    obtain rfl := Option.some.inj (hresp.symm.trans hresp')
    exact hgranted
  · have hamends := Site.amends hpolicy hmethod fs
    rw [hresp] at hamends
    generalize hbare : site.bare.respond fs r = bare at hamends
    cases hamends with
    | some hamends => exact hamends.granted.of_grantless (hless hmethod _ hbare)

end Policies

/-- Content that no service answers for with a handler of its own. -/
def Content.IsPage : Content → Prop
  | .endpoint _ => False
  | .wrapped _ _ => False
  | _ => True

/-- A request is answered with a page, or there is neither a route for it nor anything in its
place. -/
def Site.AnswersPlainly (site : Site) (r : Request) : Prop :=
  match site.router.find? r.path with
  | some content => content.IsPage
  | none => site.fallback r = some notFound

/-- Pages grant nothing. -/
theorem grantless_pages {read : Request → Option Page} {r : Request} {x : Response}
    (h : (pages read).respond r = some x) : Grantless x.headers := by
  obtain ⟨y, hy, rfl⟩ := Option.map_eq_some_iff.1 h
  have hown : Grantless y.headers := by
    simp only [pages] at hy
    split at hy
    · obtain ⟨page, -, rfl⟩ := Option.map_eq_some_iff.1 hy
      exact ⟨rfl, rfl⟩
    · obtain rfl := Option.some.inj hy
      exact ⟨rfl, rfl⟩
  constructor
  · rw [Endpoint.values_complete (by decide) (by decide), hown.1]
  · rw [Endpoint.values_complete (by decide) (by decide), hown.2]

theorem Site.AnswersPlainly.grantless {site : Site} {r : Request} (h : site.AnswersPlainly r)
    {fs : Files} {own : Response} (hown : site.bare.respond fs r = some own) :
    Grantless own.headers := by
  unfold Site.AnswersPlainly at h
  rw [Site.respond_bare] at hown
  cases hfind : site.router.find? r.path with
  | none =>
    rw [hfind] at h hown
    obtain rfl := Option.some.inj (h.symm.trans hown)
    exact ⟨rfl, rfl⟩
  | some content =>
    rw [hfind] at h hown
    cases content with
    | endpoint | wrapped => exact h.elim
    | text | html | file | never => exact grantless_pages hown

/-- **Access is granted to listed origins, and beyond that only by handlers of services.**  Under
some options, every OPTIONS request is answered; the response names the origin that the options
grant, and tells that credentials may be used exactly if the options say so.  Every other request is
answered exactly if it would be without options.  The response then names the origin that the
options grant, or else those that it would name without them; and it tells that credentials may be
used if the options say so, or else what it would tell without them.  So where that is nothing, the
response is like one to OPTIONS, and never grants access to every origin together with credentials.
It is nothing where no handler of a service answers. -/
theorem grants_listed_or_own {g : Plan} {fs later : Files} {o : CorsOptions} {site : Site}
    (hcors : g.cors = some o) (hsite : g.site fs = .ok site) (r : Request) :
    (r.method = "OPTIONS" → ∃ resp, site.respond later r = some resp ∧
      resp.headers.values "access-control-allow-origin" = (o.grants r).toList ∧
      resp.headers.values "access-control-allow-credentials" =
        if o.allowCredentials then ["true"] else []) ∧
    (r.method ≠ "OPTIONS" → Option.Rel (fun own resp =>
      resp.headers.values "access-control-allow-origin" =
        (o.grants r).elim (own.headers.values "access-control-allow-origin") ([·]) ∧
      resp.headers.values "access-control-allow-credentials" =
        if o.allowCredentials then ["true"]
        else own.headers.values "access-control-allow-credentials")
      (site.bare.respond later r) (site.respond later r)) ∧
    (∀ resp, site.respond later r = some resp →
      (r.method ≠ "OPTIONS" → ∀ own, site.bare.respond later r = some own →
        Grantless own.headers) →
      resp.headers.values "access-control-allow-origin" = (o.grants r).toList ∧
      resp.headers.values "access-control-allow-credentials" =
        (if o.allowCredentials then ["true"] else []) ∧
      ¬ ("*" ∈ resp.headers.values "access-control-allow-origin" ∧
        "true" ∈ resp.headers.values "access-control-allow-credentials")) ∧
    (site.AnswersPlainly r → ∀ own, site.bare.respond later r = some own →
      Grantless own.headers) := by
  have hpolicyOf := policyOf_of_site hsite
  rw [hcors] at hpolicyOf
  obtain ⟨p, hp, hpolicy⟩ := policyOf_some hpolicyOf
  refine ⟨fun h => ?_, fun h => ?_, fun resp hresp hless => ?_, fun h own => h.grantless⟩
  · obtain ⟨resp, hresp, hgranted⟩ := Site.granted_options hp h later
    exact ⟨resp, hresp, hgranted.values_eq hpolicy⟩
  · have hamends := Site.amends hp h later
    generalize site.bare.respond later r = own, site.respond later r = resp at hamends ⊢
    cases hamends with
    | none => exact .none
    | some hamends =>
      rw [← CorsOptions.grantedOrigin_eq hpolicy, ← CorsOptions.credentials_eq hpolicy]
      exact .some ⟨hamends.granted.origin, hamends.granted.credentials⟩
  · obtain ⟨horigin, hcredentials⟩ :=
      (Site.granted_of_grantless hp hresp hless).values_eq hpolicy
    refine ⟨horigin, hcredentials, ?_⟩
    rintro ⟨hany, hyes⟩
    have hstar : o.grants r = some "*" := Option.mem_toList.1 (horigin ▸ hany)
    refine CorsOptions.grants_ne_star hpolicy ?_ r hstar
    by_contra hno
    change "true" ∈ resp.headers.values Http.allowCredentials at hyes
    rw [hcredentials, if_neg hno] at hyes
    cases hyes

/-- Options with two origins and credentials. -/
def twoOrigins : CorsOptions where
  allowedOrigins := ["https://app.example.com", "https://admin.example.com"]
  allowedHeaders := ["x-a"]
  allowCredentials := true

/-- A gateway with these options, and a service that grants access to every origin by itself. -/
def openGateway : Plan where
  services := [{ register := fun _ => .ok [.route "/open" (.endpoint
    { handle := fun _ => some { status := 200, headers := [(allowOrigin, "*")] } })] }]
  cors := some twoOrigins

/-- A request from the second of these origins. -/
def fromListed : Request where
  target := "/open"
  method := "PUT"
  headers := [("origin", "https://admin.example.com")]

/-- A request from an origin that differs from it in case, although it is named, too. -/
def fromUnlisted : Request where
  target := "/open"
  method := "OPTIONS"
  headers := [("origin", "https://Admin.example.com"), ("origin", "https://admin.example.com")]

/-- The listed origin is named in place of the star that the service has put there.  What is to be
said to the other one, the service is not asked. -/
theorem grants_listed_or_own_second :
    ∃ site resp resp', openGateway.site {} = .ok site ∧
      site.respond {} fromListed = some resp ∧
      resp.headers.values "access-control-allow-origin" = ["https://admin.example.com"] ∧
      site.respond {} fromUnlisted = some resp' ∧
      resp'.headers.values "access-control-allow-origin" = [] := by
  obtain ⟨site, hsite⟩ : ∃ site, openGateway.site {} = .ok site := ⟨_, rfl⟩
  have hown : ∃ own, site.bare.respond {} fromListed = some own := by
    obtain rfl := Except.ok.inj hsite
    exact ⟨_, rfl⟩
  obtain ⟨own, hown⟩ := hown
  have hgrants (r : Request) := @grants_listed_or_own openGateway {} {} twoOrigins site rfl hsite r
  obtain ⟨resp', hresp', hnone, -⟩ := (hgrants fromUnlisted).1 rfl
  have hrel := (hgrants fromListed).2.1 (by decide)
  rw [hown] at hrel
  generalize hresp : site.respond {} fromListed = resp at hrel
  cases hrel with
  | @some _ resp hgrants => exact ⟨site, resp, resp', hsite, hresp, hgrants.1, hresp', hnone⟩

/-- A service that grants access to every origin does so under options that do not, to an origin
that is not listed, and together with the credentials that the options allow. -/
theorem service_grants_unlisted :
    ∃ site resp, openGateway.site {} = .ok site ∧
      "https://other.example.com" ∉ twoOrigins.allowedOrigins ∧ "*" ∉ twoOrigins.allowedOrigins ∧
      site.respond {} { target := "/open", headers := [("origin", "https://other.example.com")] } =
        some resp ∧
      resp.headers.values "access-control-allow-origin" = ["*"] ∧
      resp.headers.values "access-control-allow-credentials" = ["true"] :=
  ⟨_, _, rfl, by decide, by decide, rfl, rfl, rfl⟩

end ServiceHost.Gateway
