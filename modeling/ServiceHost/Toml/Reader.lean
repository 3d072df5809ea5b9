import ServiceHost.Toml.Scalar
import ServiceHost.Toml.Tree
/-!
Reading TOML text.

A text is a row of lines: keys with values, headers of tables, comments.  `Toml.read?` gives the
tree they build, or nothing when the text or one of its definitions is not well formed.
-/

namespace ServiceHost.Toml

/-! ### Blanks, line ends and comments -/

/-- A blank within a line. -/
def isSpace (c : Char) : Bool :=
  c == ' ' || c == '\t'

/-- Drops blanks within a line. -/
def skipSpace (s : List Char) : List Char :=
  s.dropWhile isSpace

/-- A character that texts and comments may hold as it is. -/
def isPlain (c : Char) : Bool :=
  c == '\t' || (0x20 ≤ c.toNat && c.toNat != 0x7F)

/-- What follows a line end. -/
def afterLineEnd? : List Char → Option (List Char)
  | '\n' :: rest => some rest
  | '\r' :: '\n' :: rest => some rest
  | _ => none

/-- Drops a comment, if there is one, up to the line end. -/
def skipComment : List Char → List Char
  | '#' :: rest => rest.dropWhile isPlain
  | s => s

/-- Goes to the next line: blanks, perhaps a comment, and a line end or the end of the text. -/
def endLine? (s : List Char) : Option (List Char) :=
  match skipComment (skipSpace s) with
  | [] => some []
  | r => afterLineEnd? r

/-- Drops blanks, comments and line ends; `fuel` bounds their number. -/
def skipLines : Nat → List Char → List Char
  | 0, s => s
  | fuel + 1, s =>
    match afterLineEnd? (skipComment (skipSpace s)) with
    | some rest => skipLines fuel rest
    | none => skipComment (skipSpace s)

/-- Drops everything that may stand between the items of a list. -/
def skipBetween (s : List Char) : List Char :=
  skipLines (s.length + 1) s

/-! ### Texts -/

/-- A character given by its hexadecimal number of exactly `width` digits. -/
def takeNumbered (width : Nat) (s : List Char) : Option (Char × List Char) :=
  let ds := s.take width
  if ds.length = width then
    (Numeral.hexDigits? ds).bind fun n =>
      if n < 0xD800 ∨ (0xDFFF < n ∧ n < 0x110000) then some (Char.ofNat n, s.drop width) else none
  else none

/-- The character that a backslash stands for together with what follows it. -/
def takeEscape : List Char → Option (Char × List Char)
  | 'b' :: s => some ('\x08', s)
  | 't' :: s => some ('\t', s)
  | 'n' :: s => some ('\n', s)
  | 'f' :: s => some ('\x0c', s)
  | 'r' :: s => some ('\r', s)
  | 'e' :: s => some ('\x1b', s)
  | '"' :: s => some ('"', s)
  | '\\' :: s => some ('\\', s)
  | 'x' :: s => takeNumbered 2 s
  | 'u' :: s => takeNumbered 4 s
  | 'U' :: s => takeNumbered 8 s
  | _ => none

/-- The rest of a text on one line, up to the closing quote. -/
def takeBasic : Nat → List Char → List Char → Option (List Char × List Char)
  | 0, _, _ => none
  | _ + 1, _, [] => none
  | _ + 1, acc, '"' :: s => some (acc.reverse, s)
  | fuel + 1, acc, '\\' :: s => (takeEscape s).bind fun (c, s) => takeBasic fuel (c :: acc) s
  | fuel + 1, acc, c :: s => if isPlain c then takeBasic fuel (c :: acc) s else none

/-- The rest of a text on one line without escapes, up to the closing quote. -/
def takeLiteral : List Char → List Char → Option (List Char × List Char)
  | _, [] => none
  | acc, '\'' :: s => some (acc.reverse, s)
  | acc, c :: s => if isPlain c then takeLiteral (c :: acc) s else none

/-- Drops blanks and line ends. -/
def skipBlankLines : Nat → List Char → List Char
  | 0, s => s
  | fuel + 1, s =>
    match afterLineEnd? (skipSpace s) with
    | some rest => skipBlankLines fuel rest
    | none => skipSpace s

/-- At a quote inside a text of several lines: the end of the text when three or more follow one
another, at most two of which belong to the text. -/
def closing? (quote : Char) (s : List Char) : Option (List Char × List Char) :=
  let row := (s.takeWhile (· == quote)).length
  if row < 3 then none
  else
    let kept := min (row - 3) 2
    some (List.replicate kept quote, s.drop (kept + 3))

/-- The rest of a text of several lines, up to the closing quotes. -/
def takeBasicLines : Nat → List Char → List Char → Option (List Char × List Char)
  | 0, _, _ => none
  | _ + 1, _, [] => none
  | fuel + 1, acc, '"' :: s =>
    match closing? '"' ('"' :: s) with
    | some (kept, rest) => some (acc.reverse ++ kept, rest)
    | none => takeBasicLines fuel ('"' :: acc) s
  | fuel + 1, acc, '\\' :: s =>
    match afterLineEnd? (skipSpace s) with
    | some rest => takeBasicLines fuel acc (skipBlankLines (rest.length + 1) rest)
    | none => (takeEscape s).bind fun (c, s) => takeBasicLines fuel (c :: acc) s
  | fuel + 1, acc, c :: s =>
    match afterLineEnd? (c :: s) with
    | some rest => takeBasicLines fuel ('\n' :: acc) rest
    | none => if isPlain c then takeBasicLines fuel (c :: acc) s else none

/-- The rest of a text of several lines without escapes, up to the closing quotes. -/
def takeLiteralLines : Nat → List Char → List Char → Option (List Char × List Char)
  | 0, _, _ => none
  | _ + 1, _, [] => none
  | fuel + 1, acc, '\'' :: s =>
    match closing? '\'' ('\'' :: s) with
    | some (kept, rest) => some (acc.reverse ++ kept, rest)
    | none => takeLiteralLines fuel ('\'' :: acc) s
  | fuel + 1, acc, c :: s =>
    match afterLineEnd? (c :: s) with
    | some rest => takeLiteralLines fuel ('\n' :: acc) rest
    | none => if isPlain c then takeLiteralLines fuel (c :: acc) s else none

/-- Drops one line end. -/
def dropLineEnd (s : List Char) : List Char :=
  (afterLineEnd? s).getD s

/-- A text in quotes, on one line or on several. -/
def takeText (s : List Char) : Option (List Char × List Char) :=
  match s with
  | '"' :: '"' :: '"' :: r => takeBasicLines (r.length + 1) [] (dropLineEnd r)
  | '\'' :: '\'' :: '\'' :: r => takeLiteralLines (r.length + 1) [] (dropLineEnd r)
  | '"' :: r => takeBasic (r.length + 1) [] r
  | '\'' :: r => takeLiteral [] r
  | _ => none

/-! ### Keys -/

/-- A character of a key without quotes. -/
def isBareKey (c : Char) : Bool :=
  c.isAlphanum || c == '_' || c == '-'

/-- One part of a key. -/
def takeKeyPart (s : List Char) : Option (String × List Char) :=
  match s with
  | '"' :: r => (takeBasic (r.length + 1) [] r).map fun (k, r) => (String.ofList k, r)
  | '\'' :: r => (takeLiteral [] r).map fun (k, r) => (String.ofList k, r)
  | s =>
    let k := s.takeWhile isBareKey
    if k.isEmpty then none else some (String.ofList k, s.dropWhile isBareKey)

/-- The parts of a key, which dots separate, and what follows it and blanks. -/
def takeKey : Nat → List String → List Char → Option ((List String × String) × List Char)
  | 0, _, _ => none
  | fuel + 1, path, s =>
    (takeKeyPart (skipSpace s)).bind fun (k, r) =>
      match skipSpace r with
      | '.' :: r => takeKey fuel (k :: path) r
      | r => some ((path.reverse, k), r)

/-! ### Values -/

/-- Does the character end a word without quotes? -/
def endsWord (c : Char) : Bool :=
  isSpace c || c ∈ ['\r', '\n', ',', ']', '\x7d', '#', '=', '[', '\x7b', '"', '\'']

/-- A word without quotes; a date and a time of day may have a blank between them. -/
def takeWord (s : List Char) : List Char × List Char :=
  let w := s.takeWhile fun c => !endsWord c
  let rest := s.dropWhile fun c => !endsWord c
  match rest with
  | ' ' :: d :: r =>
    if afterDate? w = some [] ∧ d.isDigit then
      let t := (d :: r).takeWhile fun c => !endsWord c
      (w ++ ' ' :: t, (d :: r).drop t.length)
    else (w, rest)
  | rest => (w, rest)

mutual

/-- The value at the beginning of a text. -/
def takeValue : Nat → List Char → Option (Node × List Char)
  | 0, _ => none
  | fuel + 1, s =>
    match s with
    | '[' :: r => takeItems fuel [] (skipBetween r)
    | '\x7b' :: r => takeInline fuel (.table .inline []) (skipBetween r)
    | '"' :: _ => (takeText s).map fun (t, r) => (.value (.text (String.ofList t)), r)
    | '\'' :: _ => (takeText s).map fun (t, r) => (.value (.text (String.ofList t)), r)
    | s =>
      let (w, r) := takeWord s
      (scalar? w).map fun d => (.value d, r)

/-- The items of a list up to its end. -/
def takeItems : Nat → List Document → List Char → Option (Node × List Char)
  | 0, _, _ => none
  | _ + 1, acc, ']' :: r => some (.value (.list acc.reverse), r)
  | fuel + 1, acc, s =>
    match takeValue fuel s with
    | none => none
    | some (v, r) =>
      match skipBetween r with
      | ',' :: r => takeItems fuel (v.toDocument :: acc) (skipBetween r)
      | ']' :: r => some (.value (.list (v.toDocument :: acc).reverse), r)
      | _ => none

/-- The entries of an inline table up to its end. -/
def takeInline : Nat → Node → List Char → Option (Node × List Char)
  | 0, _, _ => none
  | _ + 1, acc, '\x7d' :: r => some (acc, r)
  | fuel + 1, acc, s =>
    match takeKey (s.length + 1) [] s with
    | some ((path, name), '=' :: r) =>
      match takeValue fuel (skipSpace r) with
      | none => none
      | some (v, r) =>
        match Node.putValue path name v acc with
        | none => none
        | some acc =>
          match skipBetween r with
          | ',' :: r => takeInline fuel acc (skipBetween r)
          | '\x7d' :: r => some (acc, r)
          | _ => none
    | _ => none

end

/-! ### Lines -/

/-- The tree so far and the path of the table that keys are added to. -/
structure State where
  root : Node := .table .header []
  current : List String := []

/-- A key with its value. -/
def keyLine (st : State) (s : List Char) : Option (State × List Char) := do
  match ← takeKey (s.length + 1) [] s with
  | ((path, name), '=' :: r) =>
    let (v, r) ← takeValue (r.length + 1) (skipSpace r)
    let root ← Node.alter false st.current (Node.putValue path name v) st.root
    some ({ st with root := root }, r)
  | _ => none

/-- The header of a table. -/
def tableLine (st : State) (s : List Char) : Option (State × List Char) := do
  match ← takeKey (s.length + 1) [] s with
  | ((path, name), ']' :: r) =>
    let root ← Node.openTable path name st.root
    some (⟨root, path ++ [name]⟩, r)
  | _ => none

/-- A repeated header. -/
def itemLine (st : State) (s : List Char) : Option (State × List Char) := do
  match ← takeKey (s.length + 1) [] s with
  | ((path, name), ']' :: ']' :: r) =>
    let root ← Node.openItem path name st.root
    some (⟨root, path ++ [name]⟩, r)
  | _ => none

/-- Reads line after line; `fuel` bounds their number. -/
def readLines : Nat → State → List Char → Option Node
  | 0, _, _ => none
  | fuel + 1, st, s =>
    match skipBetween s with
    | [] => some st.root
    | s =>
      let line := match s with
        | '[' :: '[' :: r => itemLine st r
        | '[' :: r => tableLine st r
        | s => keyLine st s
      match line with
      | none => none
      | some (st, r) =>
        match endLine? r with
        | none => none
        | some r => readLines fuel st r

/-- Reads a text.  A byte order mark in front does not count. -/
def read? (s : List Char) : Option Document :=
  let s := match s with
    | '\ufeff' :: r => r
    | s => s
  (readLines (s.length + 1) {} s).map Node.toDocument

end ServiceHost.Toml
