import ServiceHost.Duration
/-!
Scopes: what tells a piece of work to stop.

A scope is a token that can be cancelled, together with a deadline that may be missing.  A token is
the row of numbers from itself to its root, so that its ancestors are the ends of that row; it is
cancelled when it or an ancestor is.  The deadline is fixed when the scope is made.
-/

namespace ServiceHost

/-! ### Tokens -/

/-- A token: its own number first, its root's number last. -/
abbrev Token := List Nat

/-- The tokens handed out so far and those on which `cancel` was called. -/
structure Tokens where
  next : Nat := 0
  cancelled : List Token := []
  deriving DecidableEq, Repr, Inhabited

namespace Tokens

/-- A new token without an ancestor. -/
def root (ts : Tokens) : Token × Tokens :=
  ([ts.next], { ts with next := ts.next + 1 })

/-- A new token under `t`. -/
def child (ts : Tokens) (t : Token) : Token × Tokens :=
  (ts.next :: t, { ts with next := ts.next + 1 })

/-- Cancels a token, and with it every token under it. -/
def cancel (ts : Tokens) (t : Token) : Tokens :=
  { ts with cancelled := t :: ts.cancelled }

/-- Was the token or an ancestor of it cancelled? -/
def isCancelled (ts : Tokens) (t : Token) : Bool :=
  ts.cancelled.any fun c => c.isSuffixOf t

/-- A cancellation reaches the tokens that end with the cancelled one, and no others. -/
theorem isCancelled_cancel (ts : Tokens) (c t : Token) :
    (ts.cancel c).isCancelled t = (c.isSuffixOf t || ts.isCancelled t) := rfl

/-- What an ancestor has lost, its descendants have lost too. -/
theorem isCancelled_cons {ts : Tokens} {t : Token} (h : ts.isCancelled t) (n : Nat) :
    ts.isCancelled (n :: t) := by
  obtain ⟨c, hc, hct⟩ := List.any_eq_true.1 h
  have hsuffix : c <:+ t := by simpa using hct
  exact List.any_eq_true.2 ⟨c, hc, by simpa using hsuffix.trans (List.suffix_cons n t)⟩

end Tokens

/-! ### Scopes -/

/-- A token and a deadline, in nanoseconds on the clock. -/
structure Scope where
  token : Token
  deadline : Option Nat := none
  deriving DecidableEq, Repr, Inhabited

/-- The first reading, in nanoseconds, that the clock cannot show: its seconds fill a signed word of
64 bits. -/
def clockLimit : Nat :=
  twoTo 63 * Duration.nanosPerSecond

namespace Scope

/-- A scope of its own that nothing but a call of `cancel` ends. -/
def background (ts : Tokens) : Scope × Tokens :=
  let (t, ts) := ts.root
  (⟨t, none⟩, ts)

/-- A scope of its own that ends when `timeout` has passed, unless the clock cannot show that
moment. -/
def withTimeout (ts : Tokens) (now timeout : Nat) : Option (Scope × Tokens) :=
  if now + timeout < clockLimit then
    let (t, ts) := ts.root
    some (⟨t, some (now + timeout)⟩, ts)
  else none

/-- A scope under another one: it ends with it, and inherits the deadline. -/
def child (ts : Tokens) (s : Scope) : Scope × Tokens :=
  let (t, ts) := ts.child s.token
  (⟨t, s.deadline⟩, ts)

/-- Is the token cancelled? -/
def isCancelled (s : Scope) (ts : Tokens) : Bool :=
  ts.isCancelled s.token

/-- Has the scope ended, by cancellation or by its deadline? -/
def isDone (s : Scope) (ts : Tokens) (now : Nat) : Bool :=
  s.isCancelled ts || s.deadline.any (· ≤ now)

/-- The time left until the deadline, when there is one. -/
def remaining (s : Scope) (now : Nat) : Option Nat :=
  s.deadline.map (· - now)

/-- The moment from which on the scope is done if no token is cancelled any more. -/
def doneAt (s : Scope) (ts : Tokens) (now : Nat) : Option Nat :=
  if s.isCancelled ts then some now else s.deadline.map (max now)

end Scope

end ServiceHost
