import ServiceHost.Document
/-!
The tree that the lines of a TOML text build.

Every table remembers how it came to be, because that decides who may add to it: a header may open a
table once, dotted keys may add only to tables that dotted keys made, and inline tables are closed.
-/

namespace ServiceHost.Toml

/-- How a table came to be: by a header of its own, on the way of a longer header, on the way of a
dotted key, or written inline. -/
inductive Origin where
  | header
  | implied
  | dotted
  | inline
  deriving DecidableEq, Repr

/-- A tree under construction: a value, a table, or the tables of one repeated header. -/
inductive Node where
  | value (d : Document)
  | table (origin : Origin) (entries : List (String × Node))
  | tables (items : List Node)
  deriving Inhabited

/-- The names and contents of a table. -/
abbrev Entries := List (String × Node)

namespace Node

/-- Changes the entry of a name by `f`, which is given what is there and may refuse. -/
def alterEntry (name : String) (f : Option Node → Option Node) : Entries → Option Entries
  | [] => (f none).map fun n => [(name, n)]
  | (k, n) :: rest =>
    if k = name then (f (some n)).map fun n => (k, n) :: rest
    else (alterEntry name f rest).map ((k, n) :: ·)

/-- Changes the last item by `f`, which may refuse. -/
def alterLast (f : Node → Option Node) : List Node → Option (List Node)
  | [] => none
  | [n] => (f n).map ([·])
  | n :: rest => (alterLast f rest).map (n :: ·)

/-- Changes by `f` the table that `path` leads to, making tables on the way.  A path of a dotted key
does not pass through a table with a header, and none passes through an inline table or a value. -/
def alter (byDots : Bool) : List String → (Node → Option Node) → Node → Option Node
  | [], f, node => f node
  | k :: ks, f, .table origin entries =>
    (alterEntry k (fun
      | none => alter byDots ks f (.table (if byDots then .dotted else .implied) [])
      | some (.tables items) => (alterLast (alter byDots ks f) items).map .tables
      | some (.table o es) =>
        if o = .inline ∨ (byDots ∧ o = .header) then none else alter byDots ks f (.table o es)
      | some (.value _) => none) entries).map (.table origin)
  | _ :: _, _, _ => none

/-- Adds a new entry. -/
def addEntry (name : String) (n : Node) (entries : Entries) : Option Entries :=
  alterEntry name (fun | none => some n | some _ => none) entries

/-- Adds the value of a key.  A key with dots adds to a table made by dots, one without to any
other. -/
def putValue (path : List String) (name : String) (v : Node) : Node → Option Node :=
  alter true path fun
    | .table origin entries =>
      if (origin = .dotted) = (path = []) then none
      else (addEntry name v entries).map (.table origin)
    | _ => none

/-- Opens the table of a header. -/
def openTable (path : List String) (name : String) : Node → Option Node :=
  alter false path fun
    | .table origin entries =>
      (alterEntry name (fun
        | none => some (.table .header [])
        | some (.table .implied es) => some (.table .header es)
        | some _ => none) entries).map (.table origin)
    | _ => none

/-- Opens the next table of a repeated header. -/
def openItem (path : List String) (name : String) : Node → Option Node :=
  alter false path fun
    | .table origin entries =>
      (alterEntry name (fun
        | none => some (.tables [.table .header []])
        | some (.tables items) => some (.tables (items ++ [.table .header []]))
        | some _ => none) entries).map (.table origin)
    | _ => none

/-- Puts an entry at its place in the order of names. -/
def insertByName (name : String) (d : Document) :
    List (String × Document) → List (String × Document)
  | [] => [(name, d)]
  | (k, e) :: rest =>
    if Text.precedes name k then (name, d) :: (k, e) :: rest else (k, e) :: insertByName name d rest

mutual

/-- The finished tree, with the entries of tables in the order of names. -/
def toDocument : Node → Document
  | .value d => d
  | .table _ entries => .table (toEntries entries)
  | .tables items => .list (toItems items)

/-- `toDocument` on every entry. -/
def toEntries : Entries → List (String × Document)
  | [] => []
  | (name, n) :: rest => insertByName name (toDocument n) (toEntries rest)

/-- `toDocument` on every item. -/
def toItems : List Node → List Document
  | [] => []
  | n :: rest => toDocument n :: toItems rest

end

end Node

end ServiceHost.Toml
