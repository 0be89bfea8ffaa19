import SmartCard.TaskError
import SmartCard.Text.Quoted
/-!
# Cancellable tasks

A task is work on a thread of its own. It can be cancelled while it runs:
the call that wins moves the task into the cancelled state and raises the
worker's interrupt, and the worker is expected to stop. When the worker's
work is over, however it ended, the task is completed unless it was
cancelled before. Its result is that of the worker, or the cancellation.
-/

namespace SmartCard

namespace Task

/-- What has become of a task. -/
inductive Status where
  | running
  | cancelled
  | completed
deriving DecidableEq

/-- A cancellation wins if the task is still running. -/
def Status.cancel : Status → Bool × Status
  | .running => (true, .cancelled)
  | status => (false, status)

/-- The work is over. -/
def Status.complete : Status → Status
  | .running => .completed
  | status => status

/-- How a worker's work ended. -/
inductive Ending (α : Type) where
  | returned (result : Except TaskError α)
  /-- It panicked, with a text or with something else. -/
  | panicked (message : Option String)

/-- The result that an ending amounts to. -/
def Ending.result {α : Type} : Ending α → Except TaskError α
  | .returned result => result
  | .panicked none => .error (.failed ⟨"worker panicked", []⟩)
  | .panicked (some message) => .error (.failed ⟨"worker panicked: " ++ message, []⟩)

/-- Where a worker stands. -/
inductive Worker (α : Type) where
  /-- It works. -/
  | working
  /-- Its work is over, and the task does not know yet. -/
  | ended (ending : Ending α)
  /-- The task knows, and those who wait do not know yet. -/
  | marked (ending : Ending α)
  /-- Those who wait know. -/
  | signalled (ending : Ending α)
  /-- The thread is gone. -/
  | exited (ending : Ending α)

/-- A problem with the arguments of a cancellation. -/
def interruptNotPermitted : TaskError :=
  .invalidArgument "cancellation requires permission to interrupt the worker"

end Task

/-- A piece of work with its thread. -/
structure Task (α : Type) where
  name : String
  status : Task.Status := .running
  /-- The worker's interrupt is raised. -/
  interrupted : Bool := false
  /-- Calls that have won and not raised the interrupt yet. -/
  raising : Nat := 0
  worker : Task.Worker α := .working

namespace Task

variable {α : Type}

/-- A call cancels the task. It must allow the worker to be interrupted. The
result tells whether this call won; a call that did goes on to raise the
interrupt. -/
def seize (t : Task α) (mayInterrupt : Bool) : Except TaskError Bool × Task α :=
  if mayInterrupt then
    match t.status.cancel with
    | (true, status) => (.ok true, { t with status, raising := t.raising + 1 })
    | (false, status) => (.ok false, { t with status })
  else (.error interruptNotPermitted, t)

/-- A call that won raises the interrupt. -/
def raise (t : Task α) : Task α :=
  if t.raising = 0 then t else { t with interrupted := true, raising := t.raising - 1 }

/-- A whole call to cancel the task. -/
def cancel (t : Task α) (mayInterrupt : Bool) : Except TaskError Bool × Task α :=
  match t.seize mayInterrupt with
  | (.ok true, t) => (.ok true, t.raise)
  | refused => refused

/-- The work is over. -/
def finish (t : Task α) (ending : Ending α) : Task α :=
  match t.worker with
  | .working => { t with worker := .ended ending }
  | _ => t

/-- The worker's thread takes its next step after the work. -/
def unwind (t : Task α) : Task α :=
  match t.worker with
  | .working => t
  | .ended ending => { t with worker := .marked ending, status := t.status.complete }
  | .marked ending => { t with worker := .signalled ending }
  | .signalled ending => { t with worker := .exited ending }
  | .exited _ => t

/-- The task was cancelled before it completed. -/
def isCancelled (t : Task α) : Bool :=
  t.status = .cancelled

/-- The worker's thread is gone. -/
def isDone (t : Task α) : Bool :=
  match t.worker with
  | .exited _ => true
  | _ => false

/-- A wait for the worker ends before its time. -/
def hasSignalled (t : Task α) : Bool :=
  match t.worker with
  | .signalled _ | .exited _ => true
  | _ => false

/-- The result of the task, once the thread is gone. -/
def get? (t : Task α) : Option (Except TaskError α) :=
  match t.worker with
  | .exited ending => some (if t.isCancelled then .error .cancelled else ending.result)
  | _ => none

/-- The task as a record in one line. -/
def text (t : Task α) : String :=
  "CancellableTask \x7b name: " ++ Text.quoted t.name ++
    ", cancelled: " ++ toString t.isCancelled ++
    ", done: " ++ toString t.isDone ++ " \x7d"

/-- One atomic step of a caller or of the worker. -/
inductive Move (α : Type) where
  | seize (mayInterrupt : Bool)
  | raise
  | finish (ending : Ending α)
  | unwind

/-- The task after a step. -/
def apply (t : Task α) : Move α → Task α
  | .seize mayInterrupt => (t.seize mayInterrupt).2
  | .raise => t.raise
  | .finish ending => t.finish ending
  | .unwind => t.unwind

/-- Steps in order. -/
def run (t : Task α) (moves : List (Move α)) : Task α :=
  moves.foldl apply t

/-- What the cancellations among the steps return, in order. -/
def cancellations (t : Task α) : List (Move α) → List (Except TaskError Bool)
  | [] => []
  | .seize mayInterrupt :: moves =>
    (t.seize mayInterrupt).1 :: (t.seize mayInterrupt).2.cancellations moves
  | move :: moves => (t.apply move).cancellations moves

end Task

end SmartCard
