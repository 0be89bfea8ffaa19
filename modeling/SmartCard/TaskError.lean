/-!
# Errors of a task

A task has no value because it was cancelled, because its worker failed, or
because it was used in a way it does not allow. The cause of a failure may
be any error, of which only the texts are kept.
-/

namespace SmartCard

/-- Any error, by its text and the texts of the errors behind it. -/
structure Cause where
  text : String
  sources : List String := []
deriving DecidableEq

/-- Why a task has no value. -/
inductive TaskError where
  /-- The task was cancelled, or its worker gave up. -/
  | cancelled
  /-- The worker failed. -/
  | failed (cause : Cause)
  /-- A caller asked for something that the task does not do. -/
  | invalidArgument (problem : String)
deriving DecidableEq

namespace TaskError

/-- The text of an error. -/
def text : TaskError → String
  | .cancelled => "Task was cancelled"
  | .failed cause => "Task failed: " ++ cause.text
  | .invalidArgument problem => "Invalid argument: " ++ problem

/-- The texts of the errors behind this one, nearest first. -/
def sources : TaskError → List String
  | .failed cause => cause.text :: cause.sources
  | _ => []

/-- The task ended through cancellation. -/
def isCancelled (e : TaskError) : Bool :=
  e = .cancelled

end TaskError

end SmartCard
