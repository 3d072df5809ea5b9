import ServiceHost.Json.Printer
/-!
How a gateway writes JSON.

`render` follows `multiline`, `indent` and `emitUnpopulated`; the other options are passed on to the
services that register with the gateway.
-/

namespace ServiceHost.Gateway

/-- The options of JSON output. -/
structure JsonOptions where
  useProtoNames : Bool := true
  emitUnpopulated : Bool := true
  useEnumNumbers : Bool := true
  allowPartial : Bool := true
  multiline : Bool := true
  indent : String := "  "
  deriving DecidableEq, Repr, Inhabited

namespace JsonOptions

/-- The layout that the options ask for. -/
def layout (o : JsonOptions) : Json.Layout :=
  if o.multiline then .multiline o.indent.toList else .compact

/-- The value that is written: null members go unless unpopulated ones are wanted. -/
def written (o : JsonOptions) (v : Json) : Json :=
  if o.emitUnpopulated then v else v.stripNulls

/-- The text of a value. -/
def render (o : JsonOptions) (v : Json) : List Char :=
  (o.written v).write o.layout

end JsonOptions

end ServiceHost.Gateway
