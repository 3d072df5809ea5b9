import ServiceHost.Address
import ServiceHost.Text.Upper
/-!
The banner shown when a service has started.

`title` turns the name of an application into words in title case; `Banner.write` lays out the
lines.  A text left empty is not shown, except for the host name.
-/

namespace ServiceHost

/-- What a banner shows. -/
structure Banner where
  appName : String := ""
  appVersion : String := ""
  environment : String := ""
  hostname : String := ""
  grpcAddress : String := ""
  httpAddress : String := ""
  metricsAddress : String := ""
  pprofAddress : String := ""
  swagger : Bool := false
  features : List String := []

namespace Banner

open Text

/-! ### The name of the application -/

/-- The characters between the words of a name. -/
def isNameSeparator (c : Char) : Bool :=
  c == '-' || c == '_' || c == ' '

/-- The words of a name: its non-empty pieces between separators. -/
def nameWords (name : List Char) : List (List Char) :=
  (splitWhere isNameSeparator name).filter (!·.isEmpty)

/-- The word with its first character in upper case. -/
def capitalise : List Char → List Char
  | [] => []
  | c :: cs => upperChar c ++ cs

/-- The title of an application: its words capitalised, with one blank between neighbours. -/
def title (name : List Char) : List Char :=
  match nameWords name with
  | [] => "Service".toList
  | words => join [' '] (words.map capitalise)

/-! ### Lines -/

/-- The name and version of this toolkit. -/
def toolkit : String := "flare-bootstrap v0.2.0"

/-- The version with one `v` in front; an empty version is not shown. -/
def versionSuffix (version : String) : String :=
  if version.isEmpty then ""
  else " v" ++ String.ofList (version.toList.dropWhile (· == 'v'))

/-- A terminal hyperlink whose text is its own target. -/
def hyperlink (url : String) : String :=
  "\x1b]8;;" ++ url ++ "\x07" ++ url ++ "\x1b]8;;\x07"

/-- One entry of a list. -/
def entry (text : String) : String :=
  "   • " ++ text

/-- The labelled addresses that are not empty. -/
def endpoints (b : Banner) : List (String × String) :=
  [("gRPC API", b.grpcAddress), ("HTTP API", b.httpAddress), ("Metrics", b.metricsAddress),
    ("Profiling", b.pprofAddress)].filter fun (_, address) => !address.isEmpty

/-- The line of the API documentation, for an HTTP address with a port. -/
def swaggerLines (b : Banner) : List String :=
  match b.swagger, Address.portOf b.httpAddress with
  | true, some port =>
    [entry ("Swagger UI: " ++ hyperlink ("http://localhost:" ++ toString port ++ "/swagger/"))]
  | _, _ => []

/-- The lines of the banner. -/
def lines (b : Banner) : List String :=
  ["", "🚀 " ++ String.ofList (title b.appName.toList) ++ versionSuffix b.appVersion] ++
  (if b.environment.isEmpty then []
    else ["🌍 Environment: " ++ String.ofList (upper b.environment.toList)]) ++
  ["💻 Hostname: " ++ b.hostname, "🦀 Toolkit: " ++ toolkit, ""] ++
  (if b.endpoints.isEmpty then []
    else "📡 Endpoints:" ::
      b.endpoints.map (fun (label, address) => entry (label ++ ": " ++ address)) ++
      b.swaggerLines ++ [""]) ++
  (if b.features.isEmpty then [] else "✨ Features:" :: b.features.map entry)

/-- The text of the banner: every line ends with a line feed. -/
def write (b : Banner) : String :=
  String.join (b.lines.map (· ++ "\n"))

end Banner

end ServiceHost
