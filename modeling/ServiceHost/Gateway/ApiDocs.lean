import ServiceHost.Files
import ServiceHost.Http.Message
/-!
The documentation of the interface that a gateway serves: a document found in a directory, and a
page that shows it.
-/

namespace ServiceHost.Gateway

open Text

/-- Where the documentation lies, and under which path its page looks for the document. -/
structure ApiDocs where
  dir : String
  basePath : String
  deriving DecidableEq, Repr, Inhabited

namespace ApiDocs

/-- How the name of a document ends. -/
def suffix : List Char := ".swagger.json".toList

/-- The first of some names in their order. -/
def firstName : List (List Char) → Option (List Char)
  | [] => none
  | name :: rest =>
    match firstName rest with
    | some other => if before other name then some other else some name
    | none => some name

/-- The path of a file in a directory, with one slash between neighbours. -/
def joinPath (dir : String) (name : List Char) : String :=
  String.ofList (join ['/'] (Files.segments dir ++ [name]))

/-- The document of a directory: of the files with the right ending the first by name. -/
def find (fs : Files) (dir : String) : Except SystemFault (Option String) :=
  (fs.list dir).map fun names => (firstName (names.filter (endsWith suffix))).map (joinPath dir)

/-- The document, where a directory that cannot be listed has none. -/
def document (fs : Files) (docs : ApiDocs) : Option String :=
  match find fs docs.dir with
  | .ok file => file
  | .error _ => none

/-- The page that shows the document. -/
def page (basePath : String) : String :=
  let base := if basePath.endsWith "/" then basePath else basePath ++ "/"
  "<!DOCTYPE html>\n<html lang=\"en\">\n<head>\n  <meta charset=\"utf-8\" />\n" ++
  "  <title>Swagger UI</title>\n  <link rel=\"stylesheet\" " ++
  "href=\"https://unpkg.com/swagger-ui-dist@5/swagger-ui.css\" />\n</head>\n<body>\n" ++
  "  <div id=\"swagger-ui\"></div>\n" ++
  "  <script src=\"https://unpkg.com/swagger-ui-dist@5/swagger-ui-bundle.js\"></script>\n" ++
  "  <script>\n    window.onload = function () \x7b\n      window.ui = SwaggerUIBundle(\x7b\n" ++
  "        url: \"" ++ base ++ "swagger/doc.json\",\n        dom_id: \"#swagger-ui\",\n" ++
  "      \x7d);\n    \x7d;\n  </script>\n</body>\n</html>\n"

end ApiDocs

end ServiceHost.Gateway
