import ServiceHost.Numeral
import ServiceHost.Text.Split
import ServiceHost.Text.Utf8
/-!
The query of a request for a profile.

The query is a list of pairs `name=value`; what it does not give has a default, and what it gives is
kept within limits.
-/

namespace ServiceHost.Profiling

open Text

/-! ### Parameters -/

/-- The parameters as they were given. -/
structure Params where
  seconds : Option Nat := none
  frequency : Option Int := none
  imageWidth : Option Nat := none
  deriving DecidableEq, Repr, Inhabited

namespace Params

/-- The length of a profile: 30 seconds unless given, and from 1 to 300. -/
def length (p : Params) : Nat :=
  min (max (p.seconds.getD 30) 1) 300

/-- Samples per second: 100 unless a positive number is given. -/
def rate (p : Params) : Int :=
  (p.frequency.filter (0 < ·)).getD 100

end Params

/-! ### Pairs -/

/-- The bytes of a text in which a percent sign with two digits stands for a byte and a plus sign
for a blank. -/
def decodeBytes : List Char → List UInt8
  | [] => []
  | '+' :: cs => 32 :: decodeBytes cs
  | '%' :: a :: b :: cs =>
    match Numeral.hexDigit? a, Numeral.hexDigit? b with
    | some x, some y => UInt8.ofNat (x * 16 + y) :: decodeBytes cs
    | _, _ => 37 :: decodeBytes (a :: b :: cs)
  | c :: cs => (String.singleton c).toUTF8.toList ++ decodeBytes cs

/-- A name or value of a query. -/
def decodeText (s : List Char) : List Char :=
  let bytes := ByteArray.mk (decodeBytes s).toArray
  match String.fromUTF8? bytes with
  | some t => t.toList
  | none => decodeLossy (decodeBytes s).length (decodeBytes s)
where
  /-- Bytes that are no text, each stretch of them replaced by one mark. -/
  decodeLossy : Nat → List UInt8 → List Char
    | 0, _ => []
    | _, [] => []
    | fuel + 1, b :: bs =>
      match decodeUtf8 [b], decodeUtf8 ((b :: bs).take 2), decodeUtf8 ((b :: bs).take 3),
          decodeUtf8 ((b :: bs).take 4) with
      | some t, _, _, _ => t ++ decodeLossy fuel bs
      | _, some t, _, _ => t ++ decodeLossy fuel (bs.drop 1)
      | _, _, some t, _ => t ++ decodeLossy fuel (bs.drop 2)
      | _, _, _, some t => t ++ decodeLossy fuel (bs.drop 3)
      | _, _, _, _ => '\ufffd' :: decodeLossy fuel bs

/-- The pairs of a query; empty ones do not count, and one without an equals sign has no value. -/
def pairsOf (query : List Char) : List (List Char × List Char) :=
  ((splitOn '&' query).filter (!·.isEmpty)).map fun piece =>
    match splitFirst '=' piece with
    | some (name, value) => (decodeText name, decodeText value)
    | none => (decodeText piece, [])

/-! ### Reading -/

/-- Why a query is refused. -/
inductive QueryFault where
  | badValue (name : String) (fault : Numeral.Fault)
  | duplicate (name : String)
  deriving DecidableEq, Repr

/-- The wording of a refusal. -/
def QueryFault.message : QueryFault → String
  | .badValue name fault => "Failed to deserialize query string: " ++ name ++ ": " ++ fault.message
  | .duplicate name => "Failed to deserialize query string: duplicate field " ++ "`" ++ name ++ "`"

/-- Sets a parameter that is not set yet. -/
def setOnce {α : Type} (name : String) (old : Option α) (value : Except Numeral.Fault α)
    (put : α → Params) : Except QueryFault Params :=
  if old.isSome then .error (.duplicate name)
  else match value with
    | .ok x => .ok (put x)
    | .error fault => .error (.badValue name fault)

/-- Takes in one pair; unknown names are ignored. -/
def readPair (p : Params) (pair : List Char × List Char) : Except QueryFault Params :=
  match String.ofList pair.1 with
  | "seconds" =>
    setOnce "seconds" p.seconds (Numeral.unsigned (Numeral.maxUnsigned 64) pair.2)
      fun x => { p with seconds := some x }
  | "frequency" =>
    setOnce "frequency" p.frequency (Numeral.signed (Numeral.maxSigned 32) pair.2)
      fun x => { p with frequency := some x }
  | "image_width" =>
    setOnce "image_width" p.imageWidth (Numeral.unsigned (Numeral.maxUnsigned 64) pair.2)
      fun x => { p with imageWidth := some x }
  | _ => .ok p

/-- Reads a query. -/
def readQuery (query : List Char) : Except QueryFault Params :=
  (pairsOf query).foldlM readPair {}

end ServiceHost.Profiling
