import ServiceHost.Settings.Reading
import ServiceHost.Text.Utf8
import ServiceHost.Toml.Reader
/-!
Settings from a TOML file.
-/

namespace ServiceHost.Settings

/-- What reading a file gives. -/
inductive FileContent where
  | missing
  | directory
  | bytes (bs : List UInt8)

/-- Why a file gives no settings. -/
inductive FileFault where
  | system (fault : SystemFault)
  | malformed
  | document (fault : Document.Fault)

/-- The text of a file. -/
def FileContent.text : FileContent → Except SystemFault (List Char)
  | .missing => .error .notFound
  | .directory => .error .isDirectory
  | .bytes bs =>
    match Text.decodeUtf8 bs with
    | some s => .ok s
    | none => .error .notUtf8

/-- The settings that a TOML text gives. -/
def ofToml (s : List Char) : Except FileFault Settings :=
  match Toml.read? s with
  | none => .error .malformed
  | some d =>
    match ofDocument Document.tomlRules d with
    | .ok settings => .ok settings
    | .error fault => .error (.document fault)

/-- The settings that a file gives. -/
def ofFile (content : FileContent) : Except FileFault Settings :=
  match content.text with
  | .error fault => .error (.system fault)
  | .ok s => ofToml s

end ServiceHost.Settings
