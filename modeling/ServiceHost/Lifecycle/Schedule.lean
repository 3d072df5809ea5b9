import ServiceHost.Lifecycle.Engine
/-!
Schedules, and how a caller waits in front of the background.

When several of those in the background, or the caller, can act at the same moment a schedule picks
one, so that a statement about every schedule covers every order in which simultaneous things may
happen.  Each step of the background uses up one unit of `Engine.work`, which is why waiting ends.
-/

namespace ServiceHost

/-! ### Schedules -/

/-- A choice for every case in which several things are possible at once. -/
structure Schedule (W : Type) where
  /-- Who acts next, of those who can act at the given moment. -/
  pick : Engine W → Nat → List Who → Who
  /-- When a scope is done and a report has come in at the same moment, does the scope count? -/
  scopeFirst : Engine W → Bool

namespace Schedule

variable {W : Type}

/-- The task at a place has waited since when? -/
def waitingSince (e : Engine W) : Who → Nat
  | .task k => (e.tasks[k]?.map Task.since).getD 0
  | _ => 0

/-- Of two, the one who has waited longer; the first if both have waited as long. -/
def longerWaiting (e : Engine W) (a b : Who) : Who :=
  if waitingSince e b < waitingSince e a then b else a

/-- The usual order: who is acting goes on; at a jump of the clock the caller comes first, if the
jump is for it; else those outside and then the tasks, the longest waiting first; the caller comes
last. -/
def usual : Schedule W where
  pick e time able :=
    if e.active ∈ able ∧ time = e.now then e.active
    else if .caller ∈ able ∧ e.now < time then .caller
    else match able.filter (· != .caller) with
      | [] => .caller
      | first :: rest => rest.foldl (longerWaiting e) first
  scopeFirst _ := true

end Schedule

namespace Engine

variable {W : Type}

/-- Those of a list who can act at the earliest moment, and that moment. -/
def earliest (able : List (Who × Nat)) : Option (Nat × List Who) :=
  (able.map (·.2)).min?.map fun t => (t, (able.filter (·.2 == t)).map (·.1))

/-- The schedule's pick, or the first when it picks someone who cannot act. -/
def choose (sch : Schedule W) (e : Engine W) (time : Nat) (able : List Who) : Who :=
  let who := sch.pick e time able
  if who ∈ able then who else able.headD .caller

/-- Lets the background act until the caller goes on, which it can from the moment `ready` gives;
false when that never comes.  `fuel` bounds the steps. -/
def waitFor (sch : Schedule W) (ready : Engine W → Option Nat) : Nat → Engine W → Engine W × Bool
  | 0, e => (e, false)
  | fuel + 1, e =>
    let caller := ((ready e).map fun t => [(Who.caller, t)]).getD []
    match earliest (e.background ++ caller) with
    | none => (e, false)
    | some (time, able) =>
      match e.choose sch time able with
      | .caller => (e.step time .caller, true)
      | who => waitFor sch ready fuel (e.step time who)

/-- Lets the background act until the caller goes on. -/
def await (sch : Schedule W) (ready : Engine W → Option Nat) (e : Engine W) : Engine W × Bool :=
  waitFor sch ready (e.work + 1) e

/-! ### Calls -/

/-- How a call ended. -/
inductive Returned where
  | outcome (o : Outcome)
  | never
  deriving Inhabited

/-- Runs a routine for the caller. -/
def perform (sch : Schedule W) (s : Scope) (allowance : Option Nat) :
    Routine W → Engine W → Engine W × Returned
  | [], e => (e, .outcome .ok)
  | i :: rest, e =>
    let since := e.now
    let (e, able) := e.await sch fun e => e.readyAt s since allowance (i :: rest)
    if !able then (e, .never)
    else match i with
      | .pause _ => perform sch s allowance rest e
      | .cancel kept later => perform sch s allowance rest (e.cancelClone s kept later)
      | .act effect =>
        match effect (e.moment s allowance) e.world with
        | (w, none) => perform sch s allowance rest { e with world := w }
        | (w, some o) => ({ e with world := w }, .outcome o)

/-- Calls a phase of a process and records when it began and ended. -/
def call (sch : Schedule W) (phase : Phase) (index : Nat) (s : Scope) (code : Routine W)
    (e : Engine W) : Engine W × Returned :=
  let allowance := s.remaining e.now
  let e := e.record (.called phase index (e.moment s allowance))
  match e.perform sch s allowance code with
  | (e, .never) => (e, .never)
  | (e, .outcome o) => (e.record (.returned phase index o), .outcome o)

/-! ### Tasks by hand -/

/-- Starts a task, and tells its place. -/
def spawn (index : Nat) (s : Scope) (code : Routine W) (e : Engine W) : Engine W × Nat :=
  ({ e with tasks := e.tasks ++ [{ index := index, scope := s, code := code, since := e.now }] },
    e.tasks.length)

/-- How a task has ended, if it has. -/
def ended? (e : Engine W) (k : Nat) : Option Outcome :=
  e.tasks[k]?.bind Task.outcome

/-- Can anyone in the background act now? -/
def isBusy (e : Engine W) : Bool :=
  e.background.any (·.2 == e.now)

/-- Lets the background act until nobody can act at this moment. -/
def settle (sch : Schedule W) (e : Engine W) : Engine W :=
  (e.await sch fun e => if e.isBusy then none else some e.now).1

/-- Waits for a task to end, at most for the given time. -/
def join (sch : Schedule W) (k limit : Nat) (e : Engine W) : Engine W :=
  let deadline := e.now + limit
  (e.await sch fun e =>
    if (e.ended? k).isSome then some e.now else some (max e.now deadline)).1

end Engine

end ServiceHost
