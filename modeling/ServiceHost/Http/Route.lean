import ServiceHost.Text.Split
/-!
Route patterns and the routes that a path takes.

A pattern is a path in which `{name}` stands for the rest of a segment and `{*name}`, at the end,
for the rest of the path; neither stands for nothing.  Two patterns conflict when they differ in
names alone, or when one of them has the rest of the path where the other has the rest of a
segment.  Of the patterns that fit a path the one counts that says more at the first difference.
-/

namespace ServiceHost.Http

open Text

/-! ### Patterns -/

/-- A part of a pattern: a character, the rest of a segment, or the rest of the path. -/
inductive Part where
  | char (c : Char)
  | segment
  | rest
  deriving DecidableEq, Repr

/-- A pattern as the row of its parts. -/
abbrev Pattern := List Part

/-- A character of a pattern's text.  A doubled brace is the brace itself, a single one is a
mark. -/
inductive Mark where
  | plain (c : Char)
  | opening
  | closing
  deriving DecidableEq, Repr

/-- The text of a pattern with its braces told apart. -/
def marks : List Char → List Mark
  | '\x7b' :: '\x7b' :: cs => .plain '\x7b' :: marks cs
  | '\x7d' :: '\x7d' :: cs => .plain '\x7d' :: marks cs
  | '\x7b' :: cs => .opening :: marks cs
  | '\x7d' :: cs => .closing :: marks cs
  | c :: cs => .plain c :: marks cs
  | [] => []

/-- Drops the rest of a name up to the closing brace; a name goes on with neither a star nor a
slash. -/
def closeName : List Mark → Option (List Mark)
  | [] => none
  | .closing :: ms => some ms
  | .plain c :: ms => if c = '*' ∨ c = '/' then none else closeName ms
  | .opening :: ms => closeName ms

/-- After the name of a segment comes a slash or the end. -/
def endsSegment : List Mark → Bool
  | [] => true
  | .plain '/' :: _ => true
  | _ => false

/-- The parts of a pattern; `fuel` bounds the number of marks. -/
def partsOf : Nat → List Mark → Option Pattern
  | _, [] => some []
  | 0, _ :: _ => none
  | fuel + 1, .plain c :: ms => (partsOf fuel ms).map (.char c :: ·)
  | _ + 1, .closing :: _ => none
  | _ + 1, [.opening] => none
  | _ + 1, .opening :: .closing :: _ => none
  | _ + 1, .opening :: .plain '*' :: ms =>
    match ms with
    | .closing :: _ => none
    | ms => if closeName ms = some [] then some [.rest] else none
  | fuel + 1, .opening :: _ :: ms =>
    (closeName ms).bind fun ms =>
      if endsSegment ms then (partsOf fuel ms).map (.segment :: ·) else none

/-- Does a segment begin with a mark that older patterns used for names? -/
def hasOldMark (path : List Char) : Bool :=
  (splitOn '/' path).any fun s => s.head? == some ':' || s.head? == some '*'

/-- How many segments of a pattern can have names. -/
def maxNames : Nat := 25

/-- Reads a pattern, which begins with a slash. -/
def Pattern.parse? (path : List Char) : Option Pattern :=
  if path.head? ≠ some '/' ∨ hasOldMark path then none
  else
    let ms := marks path
    (partsOf ms.length ms).filter fun p => p.count .segment ≤ maxNames

/-! ### Fitting and conflicts -/

/-- Does the path fit the pattern? -/
def Pattern.fits : Pattern → List Char → Bool
  | [], s => s.isEmpty
  | .char _ :: _, [] => false
  | .char c :: ps, d :: s => c == d && fits ps s
  | .segment :: ps, s =>
    !(s.takeWhile (· != '/')).isEmpty && fits ps (s.dropWhile (· != '/'))
  | .rest :: _, s => !s.isEmpty

/-- Can the two patterns not stand beside each other? -/
def Pattern.conflicts : Pattern → Pattern → Bool
  | [], [] => true
  | .char c :: ps, .char d :: qs => c == d && conflicts ps qs
  | .segment :: ps, .segment :: qs => conflicts ps qs
  | .segment :: _, .rest :: _ => true
  | .rest :: _, .segment :: _ => true
  | .rest :: _, .rest :: _ => true
  | _, _ => false

/-- Does the first pattern say more at the first difference? -/
def Pattern.closer : Pattern → Pattern → Bool
  | .char c :: ps, .char d :: qs => c == d && closer ps qs
  | .segment :: ps, .segment :: qs => closer ps qs
  | .char _ :: _, _ :: _ => true
  | .segment :: _, .rest :: _ => true
  | _, _ => false

/-! ### Routers -/

/-- The routes of a server, each with what it serves. -/
abbrev Router (α : Type) := List (Pattern × α)

namespace Router

variable {α : Type}

/-- Adds a route, unless its pattern is malformed or conflicts with another one. -/
def add? (router : Router α) (path : String) (page : α) : Option (Router α) :=
  (Pattern.parse? path.toList).bind fun p =>
    if router.any fun (q, _) => p.conflicts q then none else some (router ++ [(p, page)])

/-- Adds routes one after the other. -/
def addAll? (router : Router α) (routes : List (String × α)) : Option (Router α) :=
  routes.foldlM (fun router (path, page) => router.add? path page) router

/-- What is served at a path. -/
def find? (router : Router α) (path : List Char) : Option α :=
  match router.filter fun (p, _) => p.fits path with
  | [] => none
  | first :: rest => some (rest.foldl (fun a b => if b.1.closer a.1 then b else a) first).2

end Router

end ServiceHost.Http
