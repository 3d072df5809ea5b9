import ServiceHost.Text.Split
/-!
The target of a request: `*`, a path, or an absolute address.
-/

namespace ServiceHost.Http

/-- Does the character end the part before the path? -/
def endsAuthority (c : Char) : Bool :=
  c == '/' || c == '?' || c == '#'

/-- The path, before a query and a fragment. -/
def barePath (s : List Char) : List Char :=
  s.takeWhile fun c => c != '?' && c != '#'

/-- The query, between the question mark and a fragment. -/
def query? (s : List Char) : Option (List Char) :=
  (Text.splitFirst '?' (s.takeWhile (· != '#'))).map (·.2)

/-- What follows the first `://`. -/
def afterScheme? : List Char → Option (List Char)
  | [] => none
  | c :: cs =>
    match Text.after? "://".toList (c :: cs) with
    | some rest => some rest
    | none => if endsAuthority c then none else afterScheme? cs

/-- The path of a target.  An absolute address without a path has the path `/`, and a target that is
only a host has none. -/
def targetPath (target : List Char) : List Char :=
  match target with
  | ['*'] => ['*']
  | '/' :: _ => barePath target
  | _ =>
    match afterScheme? target with
    | some rest =>
      let path := barePath (rest.dropWhile fun c => !endsAuthority c)
      if path.isEmpty then ['/'] else path
    | none => []

/-! ### Absolute addresses -/

/-- Why an absolute address is refused. -/
inductive AddressFault where
  | tooLong
  | badCharacter
  | badAuthority
  | badFormat
  deriving DecidableEq, Repr, Inhabited

/-- The wording of a refusal. -/
def AddressFault.message : AddressFault → String
  | .tooLong => "uri too long"
  | .badCharacter => "invalid uri character"
  | .badAuthority => "invalid authority"
  | .badFormat => "invalid format"

/-- A character that can stand in an authority as it is. -/
def isAuthorityChar (c : Char) : Bool :=
  c.isAlphanum || c ∈ "!$&'()*+,-.:;=@[]_~".toList

/-- What has been seen of an authority: the colons of its port, its brackets, a percent sign outside
of them, and whether it ends with an at sign so far. -/
structure AuthorityScan where
  colons : Nat := 0
  opened : Bool := false
  closed : Bool := false
  percent : Bool := false
  endsWithAt : Bool := false
  deriving DecidableEq, Repr, Inhabited

/-- Takes in one more character of an authority.  What stands before an at sign or a closing bracket
is not part of the port. -/
def AuthorityScan.step (s : AuthorityScan) (c : Char) : Except AddressFault AuthorityScan :=
  let s := { s with endsWithAt := c == '@' }
  match c with
  | ':' => if 8 ≤ s.colons then .error .badAuthority else .ok { s with colons := s.colons + 1 }
  | '[' => if s.percent || s.opened then .error .badAuthority else .ok { s with opened := true }
  | ']' =>
    if !s.opened || s.closed then .error .badAuthority
    else .ok { s with closed := true, colons := 0, percent := false }
  | '@' => .ok { s with colons := 0, percent := false }
  | '%' => .ok { s with percent := true }
  | c => if isAuthorityChar c then .ok s else .error .badCharacter

/-- Why an authority is refused, if it is. -/
def authorityFault? (s : List Char) : Option AddressFault :=
  match s.foldlM AuthorityScan.step {} with
  | .error fault => some fault
  | .ok a =>
    if a.opened != a.closed || 1 < a.colons || a.endsWithAt || a.percent then some .badAuthority
    else none

/-- A character that can stand in a path. -/
def isPathChar (c : Char) : Bool :=
  32 < c.toNat && c ∉ "#<>?".toList && c != Char.ofNat 96

/-- A character that can stand in a query. -/
def isQueryChar (c : Char) : Bool :=
  32 < c.toNat && c ∉ "\"#<>".toList

/-- Why an address that begins with the scheme `http` or `https` is refused, if it is. -/
def addressFault? (address : List Char) : Option AddressFault :=
  if 65534 < (String.ofList address).utf8ByteSize then some .tooLong
  else
    match afterScheme? address with
    | none => some .badFormat
    | some rest =>
      let authority := rest.takeWhile fun c => !endsAuthority c
      let path := barePath (rest.dropWhile fun c => !endsAuthority c)
      match authorityFault? authority with
      | some fault => some fault
      | none =>
        if authority.isEmpty then some .badFormat
        else if path.all isPathChar && ((query? rest).getD []).all isQueryChar then none
        else some .badCharacter

end ServiceHost.Http
