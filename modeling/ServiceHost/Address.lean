import ServiceHost.Numeral
import ServiceHost.Text.Blank
import ServiceHost.Text.Split
/-!
Network addresses as texts: `host:port`, `:port`, `host`, `[v6]:port` or a bare IPv6 host.

The same text is read in three ways: where to listen (`bindAddress`), where to call from this
machine (`dialTarget`), and which port it names (`portOf`).
-/

namespace ServiceHost.Address

open Text

/-! ### Parts of an address -/

/-- A host and, if the text names one, the text of a port. -/
structure Parts where
  host : List Char
  port : Option (List Char)
  deriving DecidableEq, Repr

/-- Cuts at the last colon.  A host that still holds a colon and does not end with a bracket is a
bare IPv6 address, which has no port. -/
def split (a : List Char) : Parts :=
  match splitLast ':' a with
  | some (host, port) =>
    if host.contains ':' && host.getLast? != some ']' then ⟨a, none⟩ else ⟨host, some port⟩
  | none => ⟨a, none⟩

/-- Hosts that stand for every interface of the machine. -/
def wildcardHosts : List (List Char) :=
  [[], "0.0.0.0".toList, "[::]".toList, "::".toList]

/-! ### Three readings -/

/-- The address to listen on: blanks at the ends go, and a text that begins with a colon gets the
host of all interfaces. -/
def bindChars (a : List Char) : List Char :=
  let a := trim a
  if a.head? = some ':' then "0.0.0.0".toList ++ a else a

/-- The address at which this machine reaches what listens on `a`. -/
def dialChars (a : List Char) : List Char :=
  let parts := split (bindChars a)
  let host := if parts.host ∈ wildcardHosts then "127.0.0.1".toList else parts.host
  match parts.port with
  | some port => "http://".toList ++ host ++ ':' :: port
  | none => "http://".toList ++ host

/-- The number of the port, when there is one between 0 and 65535. -/
def portOfChars (a : List Char) : Option Nat :=
  (split (trim a)).port.bind fun port => (Numeral.unsigned (Numeral.maxUnsigned 16) port).toOption

@[inherit_doc bindChars]
def bindAddress (a : String) : String :=
  String.ofList (bindChars a.toList)

@[inherit_doc dialChars]
def dialTarget (a : String) : String :=
  String.ofList (dialChars a.toList)

@[inherit_doc portOfChars]
def portOf (a : String) : Option Nat :=
  portOfChars a.toList

end ServiceHost.Address
