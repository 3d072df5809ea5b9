import ServiceHost.Logging.Filter
import ServiceHost.Settings.Backend
/-!
The journal takes in notices and keeps the lines that are written.

One recorder at most is ever installed; notices before that are lost.
-/

namespace ServiceHost.Logging

open Settings (LogFormat)

/-! ### Recorders -/

/-- Where lines go. -/
inductive Output where
  | standard
  | file (path : String)
  deriving DecidableEq, Repr, Inhabited

/-- What becomes of notices: which of them pass, and how and where to they are written. -/
structure Recorder where
  filter : Filter
  format : LogFormat := .text
  output : Output := .standard
  coloured : Bool := false
  deriving Inhabited

/-- A written line. -/
inductive Line where
  | text (coloured : Bool) (s : String)
  | object (value : Json)
  deriving Inhabited

/-- The line of a notice. -/
def Recorder.line (r : Recorder) (e : Notice) : Line :=
  match r.format with
  | .json => .object e.toJson
  | .text => .text r.coloured e.write

/-! ### The journal -/

/-- The recorder, if there is one yet, the lines written so far, and whether the default recorder
has been asked for. -/
structure Journal where
  recorder : Option Recorder := none
  lines : List (Output × Line) := []
  defaulted : Bool := false
  deriving Inhabited

namespace Journal

/-- Takes in a notice. -/
def log (j : Journal) (e : Notice) : Journal :=
  match j.recorder with
  | some r => if r.filter.passes e then { j with lines := j.lines ++ [(r.output, r.line e)] } else j
  | none => j

/-- Installs a recorder if there is none. -/
def install? (j : Journal) (r : Recorder) : Option Journal :=
  match j.recorder with
  | some _ => none
  | none => some { j with recorder := some r }

/-- The lines that went to an output. -/
def linesOf (j : Journal) (o : Output) : List Line :=
  (j.lines.filter (·.1 == o)).map (·.2)

end Journal

/-! ### The default recorder -/

/-- What the surroundings of the program say about logging: a filter, a format, and whether colours
are unwanted. -/
structure Wishes where
  filter : Option String := none
  format : Option String := none
  noColour : Option String := none
  deriving DecidableEq, Repr, Inhabited

/-- Are lines on the standard output coloured? -/
def Wishes.coloured (w : Wishes) : Bool :=
  w.noColour.all (·.isEmpty)

/-- The filter of a text; one that cannot be read stands for the level of information. -/
def filterOf (s : String) : Filter :=
  (Filter.read? s.toList).getD (.upTo .info)

/-- The default recorder: the filter that is wished for, or else the given one. -/
def Wishes.recorder (w : Wishes) (level : String) : Recorder where
  filter := ((w.filter.bind fun s => Filter.read? s.toList).getD (filterOf level))
  format := if w.format.any fun s => Text.sameIgnoringCase s.toList "json".toList then .json
    else .text
  coloured := w.coloured

/-- Installs the default recorder, the first time that it is asked for and if there is no other. -/
def Journal.startDefault (j : Journal) (w : Wishes) (level : String) : Journal :=
  if j.defaulted then j
  else
    let j := { j with defaulted := true }
    (j.install? (w.recorder level)).getD j

end ServiceHost.Logging
