import ServiceHost.Decimal.Shortest
import ServiceHost.Metrics.Registry
import ServiceHost.Numeral
/-!
The text exposition of a registry.

Families stand in the order of their names, samples in the order of their labels, and a family
without samples is left out.
-/

namespace ServiceHost.Metrics

open Decimal

/-! ### Numbers and labels -/

/-- A number in its shortest digits, written out without exponent. -/
def writeValue : Double → String
  | .nan => "NaN"
  | .infinite negative => if negative then "-inf" else "inf"
  | .finite negative m e =>
    let sign := if negative then "-" else ""
    if m = 0 then sign ++ "0"
    else
      let (whole, part) := (shortest .up m e).positional
      sign ++ String.ofList whole ++ (if part.isEmpty then "" else "." ++ String.ofList part)

/-- A character of the value of a label. -/
def escapeLabelChar (c : Char) : List Char :=
  match c with
  | '\\' => ['\\', '\\']
  | '\n' => ['\\', 'n']
  | '"' => ['\\', '"']
  | c => [c]

/-- A label with its value. -/
def writeLabel (name value : String) : String :=
  name ++ "=\"" ++ String.ofList (value.toList.flatMap escapeLabelChar) ++ "\""

/-- The line of a sample. -/
def writeSample (name : String) (labels : List (String × String)) (value : String) : String :=
  name ++ "\x7b" ++ String.intercalate "," (labels.map fun (n, v) => writeLabel n v) ++ "\x7d " ++
    value ++ "\n"

/-! ### Families -/

/-- A family: its name, its description, its kind, and the lines of its samples. -/
structure Family where
  name : String
  help : String
  kind : String
  samples : List String

/-- The text of a family. -/
def Family.write (f : Family) : String :=
  "# HELP " ++ f.name ++ " " ++ f.help ++ "\n# TYPE " ++ f.name ++ " " ++ f.kind ++ "\n" ++
    String.join f.samples

/-- The lines of a histogram with the given labels. -/
def histogramLines (name : String) (labels : List (String × String)) (h : Histogram) :
    List String :=
  let bucket (bound : String) (n : Nat) : String :=
    writeSample (name ++ "_bucket") (labels ++ [("le", bound)]) (toString n)
  (bucketBounds.zip (Histogram.cumulative 0 h.buckets)).map
      (fun ((bound, _), n) => bucket bound n) ++
    [bucket "+Inf" h.count, writeSample (name ++ "_sum") labels (writeValue h.sum),
      writeSample (name ++ "_count") labels (toString h.count)]

/-- The family that a collector shows. -/
def family (meters : Meters) (c : Collector) : Family :=
  match c.part, meters[c.meter]? with
  | .version, some (.version m) =>
    { name := c.name, help := "Application version", kind := "gauge"
      samples := if m.shown then [writeSample c.name [("version", m.version)] "1"] else [] }
  | .requests, some (.calls m) =>
    { name := c.name, help := "Total number of gRPC requests", kind := "counter"
      samples := m.requests.map fun (labels, n) =>
        writeSample c.name (["method", "status"].zip labels) (toString n) }
  | .durations, some (.calls m) =>
    { name := c.name, help := "gRPC request duration in seconds", kind := "histogram"
      samples := m.durations.flatMap fun (labels, h) =>
        histogramLines c.name (["method"].zip labels) h }
  | _, _ => { name := c.name, help := "", kind := "", samples := [] }

/-- Puts a family at its place in the order of names. -/
def insertFamily (f : Family) : List Family → List Family
  | [] => [f]
  | g :: rest => if Text.precedes f.name g.name then f :: g :: rest else g :: insertFamily f rest

/-- The families of a registry that have samples, in order. -/
def gather (meters : Meters) (r : Registry) : List Family :=
  (r.map (family meters)).foldr
    (fun f acc => if f.samples.isEmpty then acc else insertFamily f acc) []

/-- The text of a registry. -/
def expose (meters : Meters) (r : Registry) : String :=
  String.join ((gather meters r).map Family.write)

end ServiceHost.Metrics
