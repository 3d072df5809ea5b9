import ServiceHost.Address
import ServiceHost.Gateway.ApiDocs
import ServiceHost.Gateway.JsonOptions
import ServiceHost.Http.Cors
/-!
The routes of a gateway: those of the services that register with it, a health check, and the
documentation if there is some.

A service adds routes of its own, with any handlers, and may wrap what answers so far or say what
answers where there is no route.  A policy wraps all of it.
-/

namespace ServiceHost.Gateway

open Http

/-! ### What services add -/

/-- What a route of a gateway serves. -/
inductive Content where
  | text (s : String)
  | html (s : String)
  | file (path : String)
  | never
  | endpoint (e : Endpoint)
  | wrapped (layer : Handler → Handler) (content : Content)
  deriving Inhabited

/-- What the gateway tells a service that registers with it. -/
structure Surroundings where
  grpcEndpoint : String
  json : JsonOptions
  deriving DecidableEq, Repr, Inhabited

/-- What a service does to the routes of a gateway.  A layer wraps all that answers so far. -/
inductive Addition where
  | route (path : String) (content : Content)
  | fallback (handle : Handler)
  | layer (layer : Handler → Handler)

/-- Routes are added one after the other. -/
instance : Coe (List (String × Content)) (List Addition) where
  coe routes := routes.map fun (path, content) => .route path content

/-- A service as the gateway and the RPC server see it: what it adds to the routes, or the text with
which its registration fails, and its encoded description if it has one. -/
structure Service where
  register : Surroundings → Except ComponentError (List Addition) := fun _ => .ok []
  descriptor : Option (List UInt8) := none

/-- Why a gateway has no routes.  A route that cannot be added, or a policy that cannot be applied,
stops the process. -/
inductive Fault where
  | registration (source : ComponentError)
  | cors (fault : CorsFault)
  | panic

/-- What a gateway is made of. -/
structure Plan where
  services : List Service := []
  grpcAddress : String := ":9090"
  cors : Option CorsOptions := none
  docs : Option ApiDocs := none
  json : JsonOptions := {}

/-- Routes, and what answers where there is none. -/
structure Routing where
  router : Router Content := []
  fallback : Handler := fun _ => some notFound
  deriving Inhabited

/-- Routes under a policy. -/
structure Site extends Routing where
  policy : Option CorsPolicy := none
  deriving Inhabited

namespace Routing

/-- Wraps all that answers. -/
def wrap (t : Routing) (layer : Handler → Handler) : Routing where
  router := t.router.map fun (p, content) => (p, content.wrapped layer)
  fallback := layer t.fallback

/-- Makes an addition; `none` for a route that cannot be added. -/
def add? (t : Routing) : Addition → Option Routing
  | .route path content =>
    (t.router.add? path content).map fun router => { t with router := router }
  | .fallback handle => some { t with fallback := handle }
  | .layer layer => some (t.wrap layer)

/-- Makes additions one after the other. -/
def addAll? (t : Routing) (additions : List Addition) : Option Routing :=
  additions.foldlM add? t

end Routing

/-! ### From services to routes -/

/-- What the gateway tells services. -/
def Plan.surroundings (g : Plan) : Surroundings :=
  { grpcEndpoint := Address.dialTarget g.grpcAddress, json := g.json }

/-- Makes the additions of services in order. -/
def addServices (s : Surroundings) : List Service → Routing → Except Fault Routing
  | [], t => .ok t
  | service :: rest, t =>
    match service.register s with
    | .error source => .error (.registration source)
    | .ok additions =>
      match t.addAll? additions with
      | some t => addServices s rest t
      | none => .error .panic

/-- The routes of the documentation. -/
def docsRoutes (fs : Files) (docs : Option ApiDocs) : List (String × Content) :=
  match docs.bind fun d => (d.document fs).map fun file => (d, file) with
  | some (d, file) =>
    let page := Content.html (ApiDocs.page d.basePath)
    [("/swagger/doc.json", .file file), ("/swagger", page), ("/swagger/", page)]
  | none => []

/-- The health check. -/
def healthRoute : String × Content :=
  ("/health", .text "OK")

/-- The policy of some options. -/
def policyOf : Option CorsOptions → Except Fault (Option CorsPolicy)
  | none => .ok none
  | some o =>
    match o.policy with
    | .error fault => .error (.cors fault)
    | .ok p => if p.isUsable then .ok (some p) else .error .panic

/-- The routes of a gateway over the given files. -/
def Plan.site (g : Plan) (fs : Files) : Except Fault Site := do
  let t ← addServices g.surroundings g.services {}
  match t.router.addAll? (healthRoute :: docsRoutes fs g.docs) with
  | none => .error .panic
  | some router => pure { router := router, fallback := t.fallback, policy := ← policyOf g.cors }

/-! ### Answers -/

/-- The page of a file, which is read when it is asked for. -/
def filePage (fs : Files) (path : String) : Page :=
  match fs.read path with
  | .ok s => { contentType := "application/json", body := .text s }
  | .error fault => { status := 500, body := .text fault.message }

/-- What serves some content over the given files. -/
def Content.over (fs : Files) : Content → Endpoint
  | .text s => pages fun _ => some (.text s)
  | .html s => pages fun _ => some { contentType := "text/html; charset=utf-8", body := .text s }
  | .file path => pages fun _ => some (filePage fs path)
  | .never => pages fun _ => none
  | .endpoint e => e
  | .wrapped layer content => (content.over fs).wrap layer

/-- A policy around all that answers, if there is one. -/
def Site.layer (site : Site) : Handler → Handler :=
  match site.policy with
  | some p => p.layer
  | none => id

/-- The response of a gateway. -/
def Site.respond (site : Site) (fs : Files) (r : Request) : Option Response :=
  match site.router.find? r.path with
  | some content => ((content.over fs).wrap site.layer).respond r
  | none => site.layer site.fallback r

end ServiceHost.Gateway
