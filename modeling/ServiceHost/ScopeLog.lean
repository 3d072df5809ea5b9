import ServiceHost.Scope
/-!
A log of operations on scopes, for following what each of them does to all the others.
-/

namespace ServiceHost

/-- Scopes made so far, the clock, and the tokens that a signal to the process cancels. -/
structure ScopeLog where
  now : Nat := 0
  tokens : Tokens := {}
  scopes : List Scope := []
  listening : List Token := []
  deriving Inhabited

namespace ScopeLog

/-- An operation.  Scopes are named by their place. -/
inductive Step where
  | background
  | timeout (nanos : Nat)
  | child (i : Nat)
  | clone (i : Nat)
  | fromToken (i : Nat)
  | signals
  | cancel (i : Nat)
  | advance (nanos : Nat)
  | signal
  | wait (i limit : Nat)
  deriving DecidableEq, Repr

/-- What a wait saw: did the scope end in time, and how long it took. -/
structure Waited where
  done : Bool
  elapsed : Nat
  deriving DecidableEq, Repr

/-- Adds a scope. -/
def add (log : ScopeLog) (s : Scope × Tokens) : ScopeLog :=
  { log with scopes := log.scopes ++ [s.1], tokens := s.2 }

/-- The scope at a place. -/
def scope (log : ScopeLog) (i : Nat) : Scope :=
  log.scopes.getD i ⟨[], none⟩

/-- Waits for a scope to end, at most `limit`; at a tie it has ended. -/
def wait (log : ScopeLog) (s : Scope) (limit : Nat) : ScopeLog × Waited :=
  match s.doneAt log.tokens log.now with
  | some t =>
    if t ≤ log.now + limit then ({ log with now := t }, ⟨true, t - log.now⟩)
    else ({ log with now := log.now + limit }, ⟨false, limit⟩)
  | none => ({ log with now := log.now + limit }, ⟨false, limit⟩)

/-- Does one operation; `none` when a deadline is beyond the clock. -/
def step (log : ScopeLog) : Step → Option (ScopeLog × Option Waited)
  | .background => some (log.add (Scope.background log.tokens), none)
  | .timeout d => (Scope.withTimeout log.tokens log.now d).map fun s => (log.add s, none)
  | .child i => some (log.add (Scope.child log.tokens (log.scope i)), none)
  | .clone i => some (log.add (log.scope i, log.tokens), none)
  | .fromToken i => some (log.add (⟨(log.scope i).token, none⟩, log.tokens), none)
  | .signals =>
    let (s, ts) := Scope.background log.tokens
    some ({ log.add (s, ts) with listening := s.token :: log.listening }, none)
  | .cancel i => some ({ log with tokens := log.tokens.cancel (log.scope i).token }, none)
  | .advance d => some ({ log with now := log.now + d }, none)
  | .signal =>
    some ({ log with tokens := log.listening.foldl Tokens.cancel log.tokens, listening := [] },
      none)
  | .wait i limit =>
    let (log, w) := log.wait (log.scope i) limit
    some (log, some w)

end ScopeLog

end ServiceHost
