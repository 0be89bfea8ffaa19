import SmartCard.Task
/-!
# Scripted workers

A task for trials, whose worker waits in one of three ways and then ends in
one of several. After each thing that is done to the task, the worker goes
on as far as it can.
-/

namespace SmartCard

namespace Bench

/-- What a scripted worker does first. -/
inductive Wait where
  /-- It does not wait. -/
  | none
  /-- It sleeps until it is interrupted. -/
  | interrupt
  /-- It waits for its gate to be opened, and heeds no interrupt. -/
  | gate

/-- What a scripted worker does when its wait is over. -/
inductive Finish (α : Type) where
  | value (a : α)
  /-- It fails if it was interrupted, and returns a value otherwise. -/
  | check (a : α)
  | fail (error : TaskError)
  | panic (message : Option String)

/-- The ending that a worker comes to. -/
def Finish.ending {α : Type} (interrupted : Bool) : Finish α → Task.Ending α
  | .value a => .returned (.ok a)
  | .check a => .returned (if interrupted then .error .cancelled else .ok a)
  | .fail error => .returned (.error error)
  | .panic message => .panicked message

/-- A task with a scripted worker. -/
structure Assignment (α : Type) where
  task : Task α
  wait : Wait
  finish : Finish α
  /-- The gate is open. -/
  released : Bool := false
  /-- The interrupt when the worker's wait was over, if it is. -/
  seen : Option Bool := .none

namespace Assignment

variable {α : Type}

/-- The worker's wait is over. -/
def isReady (a : Assignment α) : Bool :=
  match a.wait with
  | .none => true
  | .interrupt => a.task.interrupted
  | .gate => a.released

/-- The worker goes on as far as it can. -/
def settle (a : Assignment α) : Assignment α :=
  if a.seen.isNone ∧ a.isReady then
    let interrupted := a.task.interrupted
    let finished := a.task.finish (a.finish.ending interrupted)
    { a with task := finished.unwind.unwind.unwind, seen := some interrupted }
  else a

/-- Opens the gate. -/
def release (a : Assignment α) : Assignment α :=
  settle { a with released := true }

/-- Cancels the task. -/
def cancel (a : Assignment α) (mayInterrupt : Bool) : Except TaskError Bool × Assignment α :=
  ((a.task.cancel mayInterrupt).1, settle { a with task := (a.task.cancel mayInterrupt).2 })

/-- Several callers cancel the task; the number of those that won. -/
def race : Nat → Assignment α → Nat × Assignment α
  | 0, a => (0, a)
  | callers + 1, a =>
    let first := a.cancel true
    let rest := race callers first.2
    ((match first.1 with | .ok true => 1 | _ => 0) + rest.1, rest.2)

end Assignment

end Bench

end SmartCard
