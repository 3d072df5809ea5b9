import ServiceHost.Fault
import ServiceHost.Text.Ascii
import ServiceHost.Text.Split
/-!
A tree of directories and files, by the paths below its root.
-/

namespace ServiceHost

/-- Directories by path, and files by path with their texts. -/
structure Files where
  dirs : List String := []
  files : List (String × String) := []
  deriving Inhabited

namespace Files

open Text

/-- The names along a path. -/
def segments (path : String) : List (List Char) :=
  (splitOn '/' path.toList).filter fun s => !s.isEmpty && s != ['.']

/-- Is there a file at this place? -/
def isFile (fs : Files) (place : List (List Char)) : Bool :=
  fs.files.any fun (path, _) => segments path == place

/-- Is there a directory at this place?  Whatever holds something is one. -/
def isDirectory (fs : Files) (place : List (List Char)) : Bool :=
  place.isEmpty || fs.dirs.any (fun path => place.isPrefixOf (segments path)) ||
    fs.files.any fun (path, _) => place.isPrefixOf (segments path) && segments path != place

/-- Does the path lead through a file? -/
def leadsThroughFile (fs : Files) (place : List (List Char)) : Bool :=
  (List.range place.length).any fun n => fs.isFile (place.take n)

/-- The names of the files directly in a directory. -/
def filesIn (fs : Files) (place : List (List Char)) : List (List Char) :=
  fs.files.filterMap fun (path, _) =>
    match (segments path).reverse with
    | name :: parent => if parent.reverse = place then some name else none
    | [] => none

/-- The names of the files directly in a directory, or why it cannot be listed. -/
def list (fs : Files) (path : String) : Except SystemFault (List (List Char)) :=
  let place := segments path
  if fs.leadsThroughFile place || fs.isFile place then .error .notDirectory
  else if fs.isDirectory place then .ok (fs.filesIn place)
  else .error .notFound

/-- The text of a file. -/
def read (fs : Files) (path : String) : Except SystemFault String :=
  match fs.files.find? fun (p, _) => segments p == segments path with
  | some (_, text) => .ok text
  | none => if fs.isDirectory (segments path) then .error .isDirectory else .error .notFound

/-- The tree with a file at a path, which is made empty if it is not there yet. -/
def ensure (fs : Files) (path : String) : Except SystemFault Files :=
  let place := segments path
  if path.isEmpty then .error .notFound
  else if fs.leadsThroughFile place then .error .notDirectory
  else if fs.isDirectory place then .error .isDirectory
  else if !fs.isDirectory place.dropLast then .error .notFound
  else if path.endsWith "/" then .error .isDirectory
  else if fs.isFile place then .ok fs
  else .ok { fs with files := fs.files ++ [(path, "")] }

/-- The tree without a file. -/
def delete (fs : Files) (path : String) : Files :=
  { fs with files := fs.files.filter fun (p, _) => segments p != segments path }

end Files

end ServiceHost
