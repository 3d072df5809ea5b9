import ServiceHost.Document
import ServiceHost.Http.Message
/-!
Cross-origin access.

Options as they are configured are checked and turned into a policy.  A policy answers every OPTIONS
request itself and puts header fields into all other responses.
-/

namespace ServiceHost.Http

open Document

/-! ### Options -/

/-- Cross-origin options. -/
structure CorsOptions where
  allowedOrigins : List String := ["*"]
  allowedMethods : List String := ["GET", "POST", "PUT", "PATCH", "DELETE", "OPTIONS"]
  allowedHeaders : List String := ["*"]
  allowCredentials : Bool := false
  maxAgeSecs : Option Nat := none
  deriving DecidableEq, Repr, Inhabited

/-- The fields of cross-origin options. -/
def CorsOptions.fields : List (Member CorsOptions) := [
  field "allowed_origins" readTexts fun v o => { o with allowedOrigins := v },
  field "allowed_methods" readTexts fun v o => { o with allowedMethods := v },
  field "allowed_headers" readTexts fun v o => { o with allowedHeaders := v },
  field "allow_credentials" readBool fun v o => { o with allowCredentials := v },
  field "max_age_secs" readOptionalWord fun v o => { o with maxAgeSecs := v }]

/-- Cross-origin options from a JSON value. -/
def CorsOptions.ofJson (v : Json) : Except Document.Fault CorsOptions :=
  readRecord jsonRules CorsOptions.fields {} (Document.ofJson v)

/-! ### Policies -/

/-- A list of names, or all of them. -/
inductive Allowed where
  | any
  | only (names : List String)
  deriving DecidableEq, Repr, Inhabited

/-- Checked options. -/
structure CorsPolicy where
  origins : Allowed
  methods : List String
  headers : Allowed
  credentials : Bool
  maxAge : Option Nat
  deriving DecidableEq, Repr, Inhabited

/-- A character of a token, such as a method or the name of a header field. -/
def isTokenChar (c : Char) : Bool :=
  c.isAlphanum || c ∈ "!#$%&'*+-.^_`|~".toList

/-- A token. -/
def isToken (s : String) : Bool :=
  !s.isEmpty && s.toList.all isTokenChar

/-- The largest length of the name of a header field. -/
def maxFieldName : Nat := 65535

/-- The name of a header field: a token that is not too long. -/
def isFieldName (s : String) : Bool :=
  isToken s && s.length ≤ maxFieldName

/-- All of the names, each checked and normalised. -/
def checkAll (check : String → Bool) (normalise : List Char → List Char)
    (fault : String → CorsFault) : List String → Except CorsFault (List String)
  | [] => .ok []
  | s :: rest =>
    if check s then
      (checkAll check normalise fault rest).map (String.ofList (normalise s.toList) :: ·)
    else .error (fault s)

namespace CorsOptions

/-- Do the options hold a star where credentials do not allow one? -/
def hasWildcard (o : CorsOptions) : Bool :=
  o.allowedOrigins.contains "*" || o.allowedHeaders.contains "*"

/-- The policy of the options.  Credentials are looked at first, then origins, methods and header
fields in turn. -/
def policy (o : CorsOptions) : Except CorsFault CorsPolicy :=
  if o.allowCredentials && o.hasWildcard then .error .credentialsWithWildcard
  else do
    let origins ←
      if o.allowedOrigins.contains "*" then pure Allowed.any
      else Allowed.only <$> checkAll Headers.isValue id .badOrigin o.allowedOrigins
    let methods ← checkAll isToken Text.upperAscii .badMethod o.allowedMethods
    let headers ←
      if o.allowedHeaders.contains "*" then pure Allowed.any
      else Allowed.only <$> checkAll isFieldName Text.lowerAscii .badHeader o.allowedHeaders
    pure { origins := origins, methods := methods, headers := headers
           credentials := o.allowCredentials, maxAge := o.maxAgeSecs }

end CorsOptions

namespace CorsPolicy

/-- The methods as one value of a header field. -/
def methodList (p : CorsPolicy) : String :=
  String.intercalate "," p.methods

/-- Can the policy be applied?  Credentials do not go with a star for the methods. -/
def isUsable (p : CorsPolicy) : Bool :=
  !(p.credentials && p.methodList == "*")

/-- The origin that a response grants access to. -/
def grantedOrigin (p : CorsPolicy) (r : Request) : Option String :=
  match p.origins with
  | .any => some "*"
  | .only names => (r.headers.first "origin").filter (names.contains ·)

/-- The header fields of every response. -/
def commonHeaders (p : CorsPolicy) (r : Request) : Headers :=
  ("vary", "origin, access-control-request-method, access-control-request-headers") ::
    ((p.grantedOrigin r).map fun o => [("access-control-allow-origin", o)]).getD [] ++
    (if p.credentials then [("access-control-allow-credentials", "true")] else [])

/-- The value of the field that lists header fields, unless the list is empty. -/
def headerList (p : CorsPolicy) : Option String :=
  match p.headers with
  | .any => some "*"
  | .only [] => none
  | .only names => some (String.intercalate "," names)

/-- The header fields of an answer to OPTIONS besides the common ones. -/
def preflightHeaders (p : CorsPolicy) : Headers :=
  (if p.methods.isEmpty then [] else [("access-control-allow-methods", p.methodList)]) ++
    (p.headerList.map fun v => [("access-control-allow-headers", v)]).getD [] ++
    (p.maxAge.map fun n => [("access-control-max-age", toString n)]).getD []

/-- Puts the fields of a policy into a response, where they take the place of those of their names;
what a response varies with is kept, though. -/
def amend (h fields : Headers) : Headers :=
  fields.foldl (fun h (name, value) =>
    if name = "vary" then h ++ [(name, value)] else h.set name value) h

/-- The handler under the policy. -/
def layer (p : CorsPolicy) (handle : Handler) : Handler := fun r =>
  if r.method = "OPTIONS" then
    some { status := 200, headers := p.commonHeaders r ++ p.preflightHeaders }
  else (handle r).map fun x => { x with headers := amend x.headers (p.commonHeaders r) }

end CorsPolicy

end ServiceHost.Http
