import ServiceHost.Http.Headers
import ServiceHost.Http.Route
import ServiceHost.Http.Uri
/-!
Requests, responses, and how a router answers.

An endpoint answers the requests for a route.  What its handler leaves out of a response is added
where it is sent: the methods that there are, and the length.  The endpoint of a page answers GET,
and HEAD with the same header fields and no body; it refuses other methods.
-/

namespace ServiceHost.Http

/-- A request: its target, method and header fields. -/
structure Request where
  target : String
  method : String := "GET"
  headers : Headers := []
  deriving DecidableEq, Repr, Inhabited

/-- The body of a response: a text, a compressed profile, or a drawing of one. -/
inductive Body where
  | text (s : String)
  | profile
  | drawing
  deriving DecidableEq, Repr, Inhabited

/-- A response. -/
structure Response where
  status : Nat
  headers : Headers := []
  body : Body := .text ""
  deriving DecidableEq, Repr, Inhabited

/-- What a route answers to GET. -/
structure Page where
  status : Nat := 200
  contentType : String := "text/plain; charset=utf-8"
  body : Body
  deriving DecidableEq, Repr, Inhabited

/-- A page of plain text. -/
def Page.text (s : String) : Page :=
  { body := .text s }

/-- The length of a body in bytes, where it is fixed by what is served. -/
def Body.size? : Body → Option Nat
  | .text s => some s.utf8ByteSize
  | _ => none

/-- The response where there is no route. -/
def notFound : Response :=
  { status := 404 }

/-- The path that a request asks for. -/
def Request.path (r : Request) : List Char :=
  targetPath r.target.toList

/-! ### Handlers and endpoints -/

/-- What answers requests; without a response it never comes. -/
abbrev Handler := Request → Option Response

/-- What serves a route: a handler, the methods for which it is one, and how these are named to
those who ask with another method.  An endpoint for all methods names none. -/
structure Endpoint where
  takes : String → Bool := fun _ => true
  allow : Option String := none
  handle : Handler

namespace Endpoint

/-- Wraps the handler. -/
def wrap (layer : Handler → Handler) (e : Endpoint) : Endpoint :=
  { e with handle := layer e.handle }

/-- The header fields that a response is sent with: it names the methods if it is one to another
method, and tells its length if that is known, unless the handler has done so. -/
def complete (e : Endpoint) (method : String) (x : Response) : Headers :=
  let allow := if e.takes method then none else e.allow
  let length := x.body.size?.map toString
  (x.headers.addNew "allow" allow).addNew "content-length" length

/-- The response to a request.  The one to HEAD has no body. -/
def respond (e : Endpoint) : Handler := fun r =>
  (e.handle r).map fun x =>
    { status := x.status
      headers := e.complete r.method x
      body := if r.method = "HEAD" then .text "" else x.body }

end Endpoint

/-! ### Pages -/

/-- Does a route look at its page for this method? -/
def readsPage (method : String) : Bool :=
  method = "GET" || method = "HEAD"

/-- The endpoint of a page that is read for each request; without a page the response never
comes. -/
def pages (read : Request → Option Page) : Endpoint where
  takes := readsPage
  allow := some "GET,HEAD"
  handle r :=
    if readsPage r.method then
      (read r).map fun p =>
        { status := p.status, headers := [("content-type", p.contentType)], body := p.body }
    else some { status := 405 }

/-- The response of a router whose routes are pages that `read` looks up; `none` when a page never
comes. -/
def respond {α : Type} (router : Router α) (read : α → Request → Option Page) (r : Request) :
    Option Response :=
  match router.find? r.path with
  | none => some notFound
  | some page => (pages (read page)).respond r

end ServiceHost.Http
