import ServiceHost.Logging.Notice
import ServiceHost.Numeral
import ServiceHost.Text.Ascii
import ServiceHost.Text.Blank
import ServiceHost.Text.Split
/-!
Filters decide which notices are logged.

A filter is a list of directives.  A directive that names neither a span nor the value of a field
applies to the notices whose target begins with its own and which have its fields; of those that
apply the most specific one decides, by its threshold.
-/

namespace ServiceHost.Logging

open Text

/-! ### Thresholds -/

/-- The names of the thresholds, the number of each being its place. -/
def thresholdNames : List (List Char) :=
  ["off", "error", "warn", "info", "debug", "trace"].map String.toList

/-- The threshold that a text stands for: the number of the last level that passes. -/
def threshold? (s : List Char) : Option Nat :=
  match Numeral.unsigned (Numeral.maxUnsigned 64) s with
  | .ok n => if n ≤ Level.trace.number then some n else none
  | .error _ => thresholdNames.findIdx? (· == lowerAscii s)

/-- What a level says that stands alone. -/
def levelPart? (s : List Char) : Option Nat :=
  if s.isEmpty then some Level.trace.number else threshold? s

/-! ### Directives -/

/-- A field that a directive asks for: its name, and whether it asks for a value. -/
structure FieldMatch where
  name : List Char
  withValue : Bool
  deriving DecidableEq, Repr, Inhabited

/-- The field of a text `name` or `name=value`. -/
def FieldMatch.ofText (s : List Char) : FieldMatch :=
  match splitFirst '=' s with
  | some (name, _) => ⟨name, true⟩
  | none => ⟨s, false⟩

/-- A directive. -/
structure Directive where
  threshold : Nat := Level.trace.number
  target : Option (List Char) := none
  inSpan : Bool := false
  fields : List FieldMatch := []
  deriving DecidableEq, Repr, Inhabited

/-- Which part of a directive is being read, and from which place on. -/
inductive Reading where
  | start
  | name (first : Nat)
  | span (first : Nat)
  | field (first : Nat)
  | fields
  | afterSpan
  | level (first : Nat)
  deriving DecidableEq, Repr, Inhabited

/-- May a directive begin with the character?  Of the characters outside ASCII all that are not
blank may. -/
def startsDirective (c : Char) : Bool :=
  c == '-' || c == ':' || c == '_' || c.isAlphanum || (127 < c.toNat && !isBlank c)

/-- Reads one more character, at place `i`.  Parts are cut out of `whole`. -/
def Reading.step (whole : List Char) (i : Nat) (c : Char) :
    Directive × Reading → Option (Directive × Reading)
  | (d, state) =>
    let part (first : Nat) : List Char := (whole.drop first).take (i - first)
    match state, c with
    | .start, '[' => some (d, .span (i + 1))
    | .start, c => if startsDirective c then some (d, .name i) else none
    | .name first, '=' => some ({ d with target := some (part first) }, .level (i + 1))
    | .name first, '[' => some ({ d with target := some (part first) }, .span (i + 1))
    | .span _, ']' => some ({ d with inSpan := true }, .afterSpan)
    | .span first, '\x7b' => some ({ d with inSpan := !(part first).isEmpty }, .field (i + 1))
    | .field first, ']' =>
      some ({ d with fields := d.fields ++ [.ofText (part first)] }, .afterSpan)
    | .field first, '\x7d' =>
      some ({ d with fields := d.fields ++ [.ofText (part first)] }, .fields)
    | .fields, ']' => some (d, .afterSpan)
    | .afterSpan, '=' => some (d, .level (i + 1))
    | .fields, _ => none
    | .afterSpan, _ => none
    | state, _ => some (d, state)

/-- Ends a directive. -/
def Reading.finish (whole : List Char) : Directive × Reading → Option Directive
  | (d, .name first) =>
    let rest := whole.drop first
    match threshold? rest with
    | some n => some { d with threshold := n, target := none }
    | none => some { d with threshold := Level.trace.number, target := some rest }
  | (d, .level first) => (levelPart? (whole.drop first)).map fun n => { d with threshold := n }
  | (d, .afterSpan) => some d
  | _ => none

/-- Reads a directive.  Blanks at its ends do not count for the places of its parts, but are there
when the parts are cut out. -/
def Directive.read? (whole : List Char) : Option Directive :=
  ((trim whole).zipIdx.foldlM (fun s (c, i) => Reading.step whole i c s)
    (({}, .start) : Directive × Reading)).bind (Reading.finish whole)

/-- Can the directive apply outside of spans? -/
def Directive.isStatic (d : Directive) : Bool :=
  !d.inSpan && !d.fields.any (·.withValue)

/-- Does the directive apply to the notice? -/
def Directive.applies (d : Directive) (e : Notice) : Bool :=
  d.isStatic && d.target.all (fun t => startsWith t e.target.toList) &&
    d.fields.all fun f => e.fieldNames.contains (String.ofList f.name)

/-- The length of a target; a missing one is shorter than any other. -/
def Directive.targetLength (d : Directive) : Nat :=
  (d.target.map fun t => (String.ofList t).utf8ByteSize + 1).getD 0

/-- The names of the fields, in the order in which lists of names are compared. -/
def namesBefore : List FieldMatch → List FieldMatch → Bool
  | [], [] => false
  | [], _ :: _ => true
  | _ :: _, [] => false
  | f :: fs, g :: gs => before f.name g.name || (f.name == g.name && namesBefore fs gs)

/-- Is the second directive at least as specific as the first? -/
def Directive.yieldsTo (d d' : Directive) : Bool :=
  if d.targetLength ≠ d'.targetLength then d.targetLength < d'.targetLength
  else if d.fields.length ≠ d'.fields.length then d.fields.length < d'.fields.length
  else !namesBefore d'.fields d.fields

/-! ### Filters -/

/-- A filter. -/
abbrev Filter := List Directive

namespace Filter

/-- The filter that lets notices up to a level pass. -/
def upTo (level : Level) : Filter :=
  [{ threshold := level.number }]

/-- Reads a filter: directives with commas between them, of which empty ones do not count. -/
def read? (s : List Char) : Option Filter :=
  ((splitOn ',' s).filter (!·.isEmpty)).mapM Directive.read?

/-- The directive that decides about a notice: the most specific one, and of equally specific ones
the last. -/
def deciding (f : Filter) (e : Notice) : Option Directive :=
  match f.filter (·.applies e) with
  | [] => none
  | d :: ds => some (ds.foldl (fun a b => if a.yieldsTo b then b else a) d)

/-- Does the notice pass? -/
def passes (f : Filter) (e : Notice) : Bool :=
  (f.deciding e).any fun d => e.level.number ≤ d.threshold

end Filter

end ServiceHost.Logging
