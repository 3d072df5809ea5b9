import ServiceHost.Lifecycle.Routine
/-!
The engine that runs routines side by side on one clock.

In the background stand tasks, each with a routine of its own, and cancellations that are going to
come from outside.  In front of them one caller at a time waits or runs a routine.  Each step lets
one of those act that can act soonest; the clock jumps to the moment of that step.
-/

namespace ServiceHost

/-! ### Stages, reports and history -/

/-- The stages in the life of a set of processes. -/
inductive Stage where
  | idle
  | preRunning
  | running
  | stopping
  | stopped
  deriving DecidableEq, Repr, Inhabited

/-- The name of a stage. -/
def Stage.name : Stage → String
  | .idle => "idle"
  | .preRunning => "pre-running"
  | .running => "running"
  | .stopping => "stopping"
  | .stopped => "stopped"

/-- The failure of a running process: its place in the list, and the cause. -/
structure Report where
  index : Nat
  source : ComponentError
  deriving DecidableEq, Inhabited

/-- What can be seen to happen. -/
inductive Event where
  | published (stage : Stage)
  | called (phase : Phase) (index : Nat) (moment : Moment)
  | returned (phase : Phase) (index : Nat) (outcome : Outcome)
  | announced
  | cancelled (token : Token)
  | runCancelled
  | received (report : Report)
  | discarded (report : Report)
  | aborted (index : Nat)
  deriving Inhabited

/-- An event with the moment and the stage at which it happened. -/
structure Entry where
  time : Nat
  stage : Stage
  event : Event
  deriving Inhabited

/-! ### Tasks -/

/-- A routine in the background.  `since` is when its next instruction was reached. -/
structure Task (W : Type) where
  index : Nat
  scope : Scope
  code : Routine W
  since : Nat
  allowance : Option Nat := none
  started : Bool := false
  outcome : Option Outcome := none

/-- The steps that a task can still be the cause of: two for each instruction to come, which may
leave something behind, and its start and its end. -/
def Task.work {W : Type} (t : Task W) : Nat :=
  if t.outcome.isSome then 0 else 2 * t.code.length + (if t.started then 1 else 2)

/-- Those that may act. -/
inductive Who where
  | caller
  | outside (k : Nat)
  | task (k : Nat)
  deriving DecidableEq, Repr, Inhabited

/-- The reports of failures that nobody has received yet, in their order, and how many there is
room for. -/
structure Mailbox where
  room : Nat := 0
  reports : List Report := []
  deriving Inhabited

/-- Adds a report if there is room for it. -/
def Mailbox.post (m : Mailbox) (r : Report) : Mailbox :=
  if m.reports.length < m.room then { m with reports := m.reports ++ [r] } else m

/-- The state of everything: clock, tokens, world, tasks, cancellations to come, reports, stage and
history, which has its latest entry first.  `kept` has the token of the scope that was handed out
for a phase: anyone may hold on to a clone of it, and give it away. -/
structure Engine (W : Type) where
  now : Nat := 0
  tokens : Tokens := {}
  kept : Phase → Option Token := fun _ => none
  world : W
  tasks : List (Task W) := []
  outside : List (Nat × Token) := []
  mailbox : Mailbox := {}
  stage : Stage := .idle
  active : Who := .caller
  history : List Entry := []

namespace Engine

variable {W : Type}

/-! ### Records -/

/-- Adds an event to the history. -/
def record (e : Engine W) (event : Event) : Engine W :=
  { e with history := ⟨e.now, e.stage, event⟩ :: e.history }

/-- Enters a stage. -/
def publish (e : Engine W) (stage : Stage) : Engine W :=
  { e with stage := stage }.record (.published stage)

/-- Cancels a token, and with it every token under it. -/
def cancel (e : Engine W) (t : Token) : Engine W :=
  { e with tokens := e.tokens.cancel t }.record (.cancelled t)

/-- Hands out the scope of a phase. -/
def hand (e : Engine W) (phase : Phase) (t : Token) : Engine W :=
  { e with kept := fun p => if p = phase then some t else e.kept p }

/-- The token that a routine with a scope of its own can cancel, or that of a phase if that has been
handed out. -/
def clone? (e : Engine W) (own : Scope) : Option Phase → Option Token
  | none => some own.token
  | some phase => e.kept phase

/-- Cancels a token at once, or leaves that behind for later. -/
def cancelClone (e : Engine W) (own : Scope) (kept : Option Phase) (later : Option Nat) :
    Engine W :=
  match e.clone? own kept, later with
  | none, _ => e
  | some t, none => e.cancel t
  | some t, some delay => { e with outside := e.outside ++ [(e.now + delay, t)] }

/-- The entries in the order in which they happened. -/
def entries (e : Engine W) : List Entry :=
  e.history.reverse

/-- What a routine knows that has the given scope and allowance. -/
def moment (e : Engine W) (s : Scope) (allowance : Option Nat) : Moment :=
  { now := e.now
    cancelled := s.isCancelled e.tokens
    done := s.isDone e.tokens e.now
    remaining := s.remaining e.now
    allowance := allowance }

/-! ### When something can go on -/

/-- The moment at which a signal is given if nothing else happens before. -/
def signalAt (e : Engine W) (s : Scope) (since : Nat) (allowance : Option Nat) :
    Signal W → Option Nat
  | .elapsed delay => (delay allowance).map fun d => max e.now (since + d)
  | .done => s.doneAt e.tokens e.now
  | .holds condition => if condition e.world then some e.now else none

/-- The moment at which the next instruction can be done if nothing else happens before. -/
def readyAt (e : Engine W) (s : Scope) (since : Nat) (allowance : Option Nat) :
    Routine W → Option Nat
  | .pause signals :: _ => (signals.filterMap (e.signalAt s since allowance)).min?
  | _ => some e.now

/-- The moment at which a task can act. -/
def taskReadyAt (e : Engine W) (t : Task W) : Option Nat :=
  if t.outcome.isSome then none
  else if t.started then e.readyAt t.scope t.since t.allowance t.code
  else some e.now

/-- Everyone in the background, with the moment at which they can act. -/
def background (e : Engine W) : List (Who × Nat) :=
  (e.outside.zipIdx.map fun (o, k) => (Who.outside k, max e.now o.1)) ++
    e.tasks.zipIdx.filterMap fun (t, k) => (e.taskReadyAt t).map fun m => (Who.task k, m)

/-! ### Steps of the background -/

/-- Starts a task, which then knows how much time its scope has left. -/
def startTask (e : Engine W) (k : Nat) (t : Task W) : Engine W :=
  let allowance := t.scope.remaining e.now
  { e with
    tasks := e.tasks.set k { t with started := true, since := e.now, allowance := allowance }
  }.record (.called .run t.index (e.moment t.scope allowance))

/-- Lets a task go on with the given instructions. -/
def goOn (e : Engine W) (k : Nat) (t : Task W) (rest : Routine W) : Engine W :=
  { e with tasks := e.tasks.set k { t with code := rest, since := e.now } }

/-- Ends a task; a failure is reported. -/
def endTask (e : Engine W) (k : Nat) (t : Task W) (o : Outcome) : Engine W :=
  let e := { e with tasks := e.tasks.set k { t with outcome := some o } }.record
    (.returned .run t.index o)
  match o.fault? with
  | none => e
  | some source => { e with mailbox := e.mailbox.post ⟨t.index, source⟩ }

/-- Lets a task act once: it starts, does its next instruction, or ends. -/
def stepTask (e : Engine W) (k : Nat) (t : Task W) : Engine W :=
  if t.outcome.isSome then e
  else if t.started then
    match t.code with
    | [] => e.endTask k t .ok
    | .pause _ :: rest => e.goOn k t rest
    | .cancel kept later :: rest => (e.goOn k t rest).cancelClone t.scope kept later
    | .act effect :: rest =>
      match effect (e.moment t.scope t.allowance) e.world with
      | (w, none) => { e with world := w }.goOn k t rest
      | (w, some o) => { e with world := w }.endTask k t o
  else e.startTask k t

/-- Lets someone act once at the given moment. -/
def step (e : Engine W) (time : Nat) (who : Who) : Engine W :=
  let e := { e with now := time, active := who }
  match who with
  | .caller => e
  | .outside k =>
    match e.outside[k]? with
    | some (_, token) => { e with outside := e.outside.eraseIdx k }.cancel token
    | none => e
  | .task k =>
    match e.tasks[k]? with
    | some t => e.stepTask k t
    | none => e

/-- The steps that the background can still make. -/
def work (e : Engine W) : Nat :=
  e.outside.length + e.tasks.foldr (fun t n => t.work + n) 0

end Engine

end ServiceHost
