import ServiceHost.Text.Ascii
/-!
Header fields: names in lower case with values, in the order in which they came.
-/

namespace ServiceHost

/-- Names and values; a name may occur more than once. -/
abbrev Headers := List (String × String)

namespace Headers

/-- The name of a field in the form in which it is compared. -/
def fieldName (name : String) : String :=
  String.ofList (Text.lowerAscii name.toList)

/-- Header fields with their names in lower case. -/
def ofList (fields : List (String × String)) : Headers :=
  fields.map fun (name, value) => (fieldName name, value)

/-- The first value of a name. -/
def first (h : Headers) (name : String) : Option String :=
  h.lookup name

/-- Can the value be shown as text? -/
def isText (value : String) : Bool :=
  value.toList.all Text.isVisible

/-- Can the text be the value of a field?  Of the control characters only the tab can be in one. -/
def isValue (value : String) : Bool :=
  value.toList.all fun c => c == '\t' || (0x20 ≤ c.toNat && c.toNat != 0x7F)

/-- The first value of a name, if it can be shown as text. -/
def firstText (h : Headers) (name : String) : Option String :=
  (h.first name).filter isText

/-- Drops every value of a name. -/
def remove (h : Headers) (name : String) : Headers :=
  h.filter (·.1 != name)

/-- Gives a name one value in place of those it has. -/
def set (h : Headers) (name value : String) : Headers :=
  h.remove name ++ [(name, value)]

/-- Adds a field that has a value, unless there is one of its name. -/
def addNew (h : Headers) (name : String) (value : Option String) : Headers :=
  match value with
  | some value => if (h.first name).isSome then h else h ++ [(name, value)]
  | none => h

/-- Puts a field behind those of smaller or equal names. -/
def insertByName (field : String × String) : Headers → Headers
  | [] => [field]
  | f :: rest =>
    if Text.precedes field.1 f.1 then field :: f :: rest else f :: insertByName field rest

/-- The fields in the order of names, those of one name in their own order. -/
def sortByName (h : Headers) : Headers :=
  h.foldl (fun acc f => insertByName f acc) []

end Headers

end ServiceHost
