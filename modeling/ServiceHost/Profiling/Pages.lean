import ServiceHost.Http.Message
import ServiceHost.Profiling.Query
/-!
The pages from which profiles of the process can be taken.
-/

namespace ServiceHost.Profiling

open Http

/-- What a route serves. -/
inductive Content where
  | index
  | profile
  | drawing
  deriving DecidableEq, Repr, Inhabited

/-- The routes. -/
def routes : List (String × Content) :=
  [("/debug/pprof", .index), ("/debug/pprof/", .index), ("/debug/pprof/profile", .profile),
    ("/debug/pprof/flamegraph", .drawing)]

/-- The text of the index. -/
def indexText : String :=
  "Available profiles:\n\n" ++
  "/debug/pprof/profile?seconds=30&frequency=100    CPU profile (gzipped pprof protobuf)\n" ++
  "/debug/pprof/flamegraph?seconds=30&frequency=100 CPU flamegraph (SVG)\n"

/-- A page that needs a query that can be read. -/
def withQuery (r : Request) (page : Page) : Page :=
  match readQuery ((query? r.target.toList).getD []) with
  | .ok _ => page
  | .error fault => { status := 400, body := .text fault.message }

/-- The page of a route. -/
def Content.page (c : Content) (r : Request) : Page :=
  match c with
  | .index => .text indexText
  | .profile => withQuery r { contentType := "application/octet-stream", body := .profile }
  | .drawing => withQuery r { contentType := "image/svg+xml", body := .drawing }

/-- The response to a request. -/
def respond (r : Request) : Option Response :=
  (Router.addAll? [] routes).bind fun router =>
    Http.respond router (fun content r => some (content.page r)) r

end ServiceHost.Profiling
