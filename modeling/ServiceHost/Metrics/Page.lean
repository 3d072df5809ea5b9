import ServiceHost.Http.Message
import ServiceHost.Metrics.Exposition
import ServiceHost.Text.Blank
/-!
The paths under which a registry can be read.
-/

namespace ServiceHost.Metrics

open Http

/-- The path that is always there. -/
def defaultPath : String := "/metrics"

/-- A configured path with a slash in front; blank ones count for nothing. -/
def normalisePath (path : String) : Option String :=
  match Text.trim path.toList with
  | [] => none
  | '/' :: rest => some (String.ofList ('/' :: rest))
  | s => some (String.ofList ('/' :: s))

/-- Adds a path unless it is there. -/
def addPath (paths : List String) (path : String) : List String :=
  match normalisePath path with
  | none => paths
  | some p => if paths.contains p then paths else paths ++ [p]

/-- The routes of some paths, unless one cannot be added. -/
def pageRouter (paths : List String) : Option (Router Unit) :=
  Router.addAll? [] (paths.map fun p => (p, ()))

/-- The page of a registry. -/
def page (meters : Meters) (r : Registry) : Page :=
  { contentType := "text/plain; version=0.0.4", body := .text (expose meters r) }

end ServiceHost.Metrics
