import ServiceHost.Lifecycle.Schedule
/-!
The supervisor of a list of processes.

It prepares them one after the other in order, runs them side by side, waits until the outer scope
is done or the first of them fails, shuts all of them down one after the other in reverse order
within one fresh time limit, and then drains what still runs.  The failure of a running process
decides the result before any failure to shut down.
-/

namespace ServiceHost

/-- What a supervisor is given: processes, times, and what to do when all have started. -/
structure Supervisor (W : Type) where
  processes : List (Component W) := []
  closeTimeout : Nat := 10 * Duration.nanosPerSecond
  startupDelay : Nat := 100 * Duration.nanosPerMilli
  announcer : Option (W → W) := none

namespace Supervisor

variable {W : Type}

deriving instance DecidableEq for Except

/-- How a run ended.  After a panic there is no supervisor any more, and the tasks that it had go
with it; the history ends with what it did itself. -/
inductive Ending where
  | returned (result : Except HostError Unit)
  | panicked
  | never
  deriving DecidableEq, Inhabited

/-- The names of the processes. -/
def names (sup : Supervisor W) : List String :=
  sup.processes.map Component.name

/-! ### Preparing -/

/-- Prepares the processes in order.  The first failure ends the run. -/
def prepareAll (sch : Schedule W) (outer : Scope) :
    List (Nat × Component W) → Engine W → Engine W × Option Ending
  | [], e => (e, none)
  | (index, p) :: rest, e =>
    match e.call sch .prepare index outer p.prepare with
    | (e, .never) => (e, some .never)
    | (e, .outcome .panicked) => (e, some .panicked)
    | (e, .outcome (.failed source)) =>
      (e.publish .stopped, some (.returned (.error (.preRun source))))
    | (e, .outcome .ok) => prepareAll sch outer rest e

/-! ### Running -/

/-- The tasks that run the processes, all in one scope. -/
def tasks (sup : Supervisor W) (scope : Scope) (now : Nat) : List (Task W) :=
  sup.processes.zipIdx.map fun (p, index) =>
    { index := index, scope := scope, code := p.run, since := now }

/-- Makes the scope of the running processes, under the outer one, and starts a task for each; the
mailbox has room for one report of each. -/
def start (sup : Supervisor W) (outer : Scope) (e : Engine W) : Engine W × Scope :=
  let (scope, tokens) := Scope.child e.tokens outer
  ({ (e.hand .prepare outer.token).hand .run scope.token with
      tokens := tokens
      tasks := sup.tasks scope e.now
      mailbox := { room := max sup.processes.length 1 } }.publish .running, scope)

/-- Waits for the startup delay and announces that everything has started. -/
def announce (sch : Schedule W) (sup : Supervisor W) (e : Engine W) : Engine W :=
  let wakeAt := e.now + sup.startupDelay
  let (e, _) := e.await sch fun e => some (max e.now wakeAt)
  match sup.announcer with
  | some f => { e with world := f e.world }.record .announced
  | none => e

/-- The moment at which the outer scope is done or a report is there. -/
def causeAt (outer : Scope) (e : Engine W) : Option Nat :=
  if e.mailbox.reports.isEmpty then outer.doneAt e.tokens e.now else some e.now

/-- Takes the first report, unless the outer scope is done and counts first. -/
def takeCause (sch : Schedule W) (outer : Scope) (e : Engine W) : Engine W × Option Report :=
  match e.mailbox.reports with
  | [] => (e, none)
  | r :: rest =>
    if outer.isDone e.tokens e.now && sch.scopeFirst e then (e, none)
    else ({ e with mailbox := { e.mailbox with reports := rest } }.record (.received r), some r)

/-! ### Shutting down -/

/-- The result after one more process has been shut down: an error already there stays. -/
def withClosed (result : Except HostError Unit) (index : Nat) : Outcome → Except HostError Unit
  | .failed source =>
    match result with
    | .ok _ => .error (.shutdown index source)
    | .error error => .error error
  | _ => result

/-- Shuts the processes down one after the other, whatever the others return.  A panic is not
contained. -/
def closeAll (sch : Schedule W) (scope : Scope) :
    List (Nat × Component W) → Except HostError Unit → Engine W → Engine W × Ending
  | [], result, e => (e, .returned result)
  | (index, p) :: rest, result, e =>
    match e.call sch .close index scope p.close with
    | (e, .never) => (e, .never)
    | (e, .outcome .panicked) => (e, .panicked)
    | (e, .outcome o) => closeAll sch scope rest (withClosed result index o) e

/-- The moment at which all tasks have ended, or else the deadline. -/
def drainedAt (deadline : Nat) (e : Engine W) : Option Nat :=
  if e.tasks.all (·.outcome.isSome) then some e.now else some (max e.now deadline)

/-- Ends the tasks that have not ended themselves. -/
def abortAll (e : Engine W) : Engine W :=
  let e := (e.tasks.filter (·.outcome.isNone)).foldl (fun e t => e.record (.aborted t.index)) e
  { e with tasks := e.tasks.filter (·.outcome.isSome) }

/-- Takes out the reports that nobody has received. -/
def discardReports (e : Engine W) : Engine W :=
  let e' := e.mailbox.reports.foldl (fun e r => e.record (.discarded r)) e
  { e' with mailbox := { e'.mailbox with reports := [] } }

/-- Waits for the tasks to end, but no longer than until the deadline, and aborts the others. -/
def drain (sch : Schedule W) (deadline : Nat) (e : Engine W) : Engine W :=
  let (e, _) := e.await sch (drainedAt deadline)
  discardReports (abortAll e)

/-- The processes with their places, in order. -/
def numbered (sup : Supervisor W) : List (Nat × Component W) :=
  sup.processes.zipIdx.map fun (p, index) => (index, p)

/-- The last stage of a run, with the failure that ended the wait, if one did. -/
def stop (sch : Schedule W) (sup : Supervisor W) (running : Scope) (cause : Option Report)
    (e : Engine W) : Engine W × Ending :=
  let e := e.publish .stopping
  match Scope.withTimeout e.tokens e.now sup.closeTimeout with
  | none => (e, .panicked)
  | some (scope, tokens) =>
    let result := match cause with
      | some r => .error (.process r.index r.source)
      | none => .ok ()
    let deadline := e.now + sup.closeTimeout
    match closeAll sch scope sup.numbered.reverse result
        { e.hand .close scope.token with tokens := tokens } with
    | (e, .returned result) =>
      let e := (e.cancel running.token).record .runCancelled
      ((drain sch deadline e).publish .stopped, .returned result)
    | (e, ending) => (e, ending)

/-! ### The whole run -/

/-- Runs the processes in the outer scope. -/
def run (sch : Schedule W) (sup : Supervisor W) (outer : Scope) (e : Engine W) :
    Engine W × Ending :=
  match prepareAll sch outer sup.numbered (e.publish .preRunning) with
  | (e, some ending) => (e, ending)
  | (e, none) =>
    let (e, running) := sup.start outer e
    let e := announce sch sup e
    match e.await sch (causeAt outer) with
    | (e, false) => (e, .never)
    | (e, true) =>
      let (e, cause) := takeCause sch outer e
      stop sch sup running cause e

/-- The state before a run: idle, with the cancellations that are going to come from outside, and
the first reading of the clock. -/
def begin (world : W) (tokens : Tokens) (outside : List (Nat × Token)) (now : Nat := 0) :
    Engine W :=
  { now := now, world := world, tokens := tokens, outside := outside
    history := [⟨now, .idle, .published .idle⟩] }

end Supervisor

end ServiceHost
