import ServiceHost.Lifecycle.Routine
/-!
Slots: the places in a shared world that a process works on.

A process is written for any world that has a slot for its state, so that several processes, and
several of one kind, can share one world.
-/

namespace ServiceHost

/-- A place in a world: how to look at it and how to fill it.  What was put in is found again. -/
structure Slot (W S : Type) where
  get : W → S
  put : S → W → W
  get_put : ∀ s w, get (put s w) = s := by intros; rfl

namespace Slot

variable {W S : Type}

/-- Changes what is in a slot. -/
def modify (slot : Slot W S) (f : S → S) (w : W) : W :=
  slot.put (f (slot.get w)) w

theorem get_modify (slot : Slot W S) (f : S → S) (w : W) :
    slot.get (slot.modify f w) = f (slot.get w) :=
  slot.get_put _ _

end Slot

/-! ### Processes that run once -/

/-- The text with which a process refuses a second run. -/
def alreadyRun (name : String) : ComponentError :=
  .text ("process " ++ name ++ " has already been run")

/-- A process with nothing to prepare or to shut down, whose body can be run once.  The slot tells
whether it was. -/
def Component.once {W : Type} (slot : Slot W Bool) (name : String) (body : Routine W) :
    Component W :=
  { name := name
    run := .act (fun _ w =>
      if slot.get w then (w, some (.failed (alreadyRun name))) else (slot.put true w, none)) ::
        body }

end ServiceHost
