import ServiceHost.Settings.Variables
import ServiceHost.Text.Utf8
/-!
Settings from the environment of the running program.

The environment holds bytes.  All of it has to be text, whether a setting reads it or not.
-/

namespace ServiceHost.Settings

/-- Names and values as bytes. -/
abbrev Environment := List (List UInt8 × List UInt8)

/-- A name or value as text. -/
def decodeName (bytes : List UInt8) : Option String :=
  (Text.decodeUtf8 bytes).map String.ofList

/-- The environment as text, if all of it is. -/
def Environment.texts? (env : Environment) : Option Variables :=
  env.mapM fun (name, value) => do
    let name ← decodeName name
    let value ← decodeName value
    pure (name, value)

/-- Why an environment gives no settings. -/
inductive EnvironmentFault where
  | notText
  | refused (fault : VariablesFault)
  deriving DecidableEq, Repr

/-- What variables give, read from an environment. -/
def Environment.load {α : Type} (env : Environment) (read : Variables → Except VariablesFault α) :
    Except EnvironmentFault α :=
  match env.texts? with
  | none => .error .notText
  | some vars =>
    match read vars with
    | .ok x => .ok x
    | .error fault => .error (.refused fault)

/-- The settings of a service in an environment. -/
def fromEnvironment (service : String) (env : Environment) : Except EnvironmentFault Settings :=
  env.load (fromVariables service)

/-- The options of JSON output of a service in an environment. -/
def jsonFromEnvironment (service : String) (env : Environment) :
    Except EnvironmentFault Gateway.JsonOptions :=
  env.load (jsonFromVariables service)

end ServiceHost.Settings
