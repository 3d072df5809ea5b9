import ServiceHost.Power
import ServiceHost.Text.Utf8
/-!
Encoded descriptions of services.

A description is a set of files in a binary format: a row of numbered fields, some of which are
parts with fields of their own.  A description can be served when it is well formed and every part
that is served has a name.
-/

namespace ServiceHost.Rpc.Description

/-! ### Fields -/

/-- The value of a field as it is encoded. -/
inductive Wire where
  | number (n : Nat)
  | word (bytes : Nat)
  | bytes (bs : List UInt8)
  | group
  deriving DecidableEq, Repr, Inhabited

/-- Reads a number in groups of seven bits, the lowest first, of which `left` more are allowed; the
last one allowed holds a single bit. -/
def readNumber : Nat → List UInt8 → Option (Nat × List UInt8)
  | 0, _ => none
  | _, [] => none
  | left + 1, b :: bs =>
    if b < 128 then if left = 0 ∧ 1 < b then none else some (b.toNat, bs)
    else (readNumber left bs).map fun (n, rest) => (b.toNat - 128 + 128 * n, rest)

/-- The number of groups in a number of 64 bits. -/
def numberLimit : Nat := 10

/-- Cuts off `n` bytes. -/
def cut (n : Nat) (bs : List UInt8) : Option (List UInt8 × List UInt8) :=
  if n ≤ bs.length then some (bs.take n, bs.drop n) else none

/-- Reads the number of a field and how its value is encoded. -/
def readKey (bs : List UInt8) : Option (Nat × Nat × List UInt8) :=
  match readNumber numberLimit bs with
  | some (key, rest) =>
    if key < twoTo 32 ∧ 0 < key / 8 then some (key / 8, key % 8, rest) else none
  | none => none

/-- Reads fields up to the end, or up to the end of the group `inside`; `fuel` bounds their
number. -/
def readFields : Nat → Option Nat → List UInt8 → Option (List (Nat × Wire) × List UInt8)
  | 0, _, _ => none
  | _ + 1, none, [] => some ([], [])
  | fuel + 1, inside, bs => do
    let (tag, encoding, bs) ← readKey bs
    let more (w : Wire) (bs : List UInt8) : Option (List (Nat × Wire) × List UInt8) :=
      (readFields fuel inside bs).map fun (fs, rest) => ((tag, w) :: fs, rest)
    match encoding with
    | 0 => let (n, bs) ← readNumber numberLimit bs; more (.number n) bs
    | 1 => let (_, bs) ← cut 8 bs; more (.word 8) bs
    | 2 =>
      let (n, bs) ← readNumber numberLimit bs
      let (value, bs) ← cut n bs
      more (.bytes value) bs
    | 3 => let (_, bs) ← readFields fuel (some tag) bs; more .group bs
    | 4 => if inside = some tag then some ([], bs) else none
    | 5 => let (_, bs) ← cut 4 bs; more (.word 4) bs
    | _ => none

/-- The fields of a part. -/
def fieldsOf (bs : List UInt8) : Option (List (Nat × Wire)) :=
  (readFields (bs.length + 1) none bs).map (·.1)

/-! ### Parts -/

/-- The parts of a description. -/
inductive Kind where
  | set
  | file
  | message
  | field
  | choice
  | enumeration
  | enumValue
  | service
  | method
  deriving DecidableEq, Repr, Inhabited

/-- What a field holds. -/
inductive Form where
  | text
  | number
  | numbers
  | part (kind : Kind)
  | options
  deriving DecidableEq, Repr, Inhabited

/-- The fields of each kind of part; others are ignored. -/
def Kind.fields : Kind → List (Nat × Form)
  | .set => [(1, .part .file)]
  | .file => [(1, .text), (2, .text), (3, .text), (4, .part .message), (5, .part .enumeration),
      (6, .part .service), (7, .part .field), (8, .options), (9, .options), (10, .numbers),
      (11, .numbers), (12, .text)]
  | .message => [(1, .text), (2, .part .field), (3, .part .message), (4, .part .enumeration),
      (5, .options), (6, .part .field), (7, .options), (8, .part .choice), (9, .options),
      (10, .text)]
  | .field => [(1, .text), (2, .text), (3, .number), (4, .number), (5, .number), (6, .text),
      (7, .text), (8, .options), (9, .number), (10, .text), (17, .number)]
  | .choice => [(1, .text), (2, .options)]
  | .enumeration => [(1, .text), (2, .part .enumValue), (3, .options), (4, .options), (5, .text)]
  | .enumValue => [(1, .text), (2, .number), (3, .options)]
  | .service => [(1, .text), (2, .part .method), (3, .options)]
  | .method => [(1, .text), (2, .text), (3, .text), (4, .options), (5, .number), (6, .number)]

/-- A row of numbers without anything between them; `fuel` bounds their count. -/
def isPacked : Nat → List UInt8 → Bool
  | _, [] => true
  | 0, _ :: _ => false
  | fuel + 1, bs =>
    match readNumber numberLimit bs with
    | some (_, rest) => isPacked fuel rest
    | none => false

/-- Can the bytes be read as a part of this kind, or of any kind?  `fuel` bounds the depth. -/
def isWellFormed : Nat → Option Kind → List UInt8 → Bool
  | 0, _, _ => false
  | fuel + 1, kind, bs =>
    match fieldsOf bs with
    | none => false
    | some fs => fs.all fun (tag, w) =>
      match kind.bind fun k => k.fields.lookup tag, w with
      | none, _ => true
      | some .text, .bytes v => (Text.decodeUtf8 v).isSome
      | some .number, .number _ => true
      | some .numbers, .number _ => true
      | some .numbers, .bytes v => isPacked v.length v
      | some (.part k), .bytes v => isWellFormed fuel (some k) v
      | some .options, .bytes v => isWellFormed fuel none v
      | _, _ => false

/-! ### Names -/

/-- The parts that are served with a part, in the order in which they are looked at. -/
def Kind.served : Kind → List (Nat × Kind)
  | .set => [(1, .file)]
  | .file => [(4, .message), (5, .enumeration), (6, .service)]
  | .message => [(3, .message), (4, .enumeration), (2, .field), (8, .choice)]
  | .enumeration => [(2, .enumValue)]
  | .service => [(2, .method)]
  | _ => []

/-- What a missing name is called. -/
def Kind.nameText : Kind → String
  | .set | .file => "name"
  | .message => "message name"
  | .field => "field name"
  | .choice => "oneof name"
  | .enumeration => "enum name"
  | .enumValue => "enum value name"
  | .service => "service name"
  | .method => "method name"

/-- The values of the fields of one number. -/
def valuesAt (tag : Nat) (fs : List (Nat × Wire)) : List (List UInt8) :=
  fs.filterMap fun
    | (t, .bytes v) => if t = tag then some v else none
    | _ => none

/-- The name of a part. -/
def nameOf (bs : List UInt8) : Option (List UInt8) :=
  (valuesAt 1 ((fieldsOf bs).getD [])).getLast?

/-- The first part without a name, in the order in which parts are looked at. -/
def firstNameless : Nat → Kind → List UInt8 → Option Kind
  | 0, _, _ => none
  | fuel + 1, kind, bs =>
    if (nameOf bs).isNone then some kind
    else kind.served.findSome? fun (tag, k) =>
      (valuesAt tag ((fieldsOf bs).getD [])).findSome? (firstNameless fuel k)

/-- The first part without a name among some files.  Of files with equal names only the first is
looked at. -/
def firstNamelessOf (seen : List (List UInt8)) : List (List UInt8) → Option Kind
  | [] => none
  | file :: rest =>
    if (nameOf file).any (seen.contains ·) then firstNamelessOf seen rest
    else match firstNameless file.length.succ .file file with
      | some kind => some kind
      | none => firstNamelessOf ((nameOf file).toList ++ seen) rest

/-! ### Descriptions that can be served -/

/-- Why descriptions cannot be served. -/
inductive Fault where
  | malformed
  | nameless (kind : Kind)
  deriving DecidableEq, Repr

/-- The wording of a refusal. -/
def Fault.message : Fault → String
  | .malformed => "error decoding FileDescriptorSet from buffer"
  | .nameless kind => "invalid FileDescriptorSet - missing " ++ kind.nameText

/-- Why the descriptions of some services cannot be served, if so. -/
def fault? (sets : List (List UInt8)) : Option Fault :=
  if sets.all fun bs => isWellFormed bs.length.succ (some .set) bs then
    (firstNamelessOf [] (sets.flatMap fun bs => valuesAt 1 ((fieldsOf bs).getD []))).map .nameless
  else some .malformed

end ServiceHost.Rpc.Description
