import SmartCard.SessionError
/-!
# The states of a runner and its exits

What a runner shows of itself: the state it is in, and how it finished.
-/

namespace SmartCard

namespace Runner

/-- Where a runner is in its life. -/
inductive State where
  /-- Waiting for the application to answer the start request. -/
  | starting
  /-- Waiting for the reader to be empty. -/
  | waitAbsent
  /-- Waiting for a card. -/
  | waitPresent
  /-- Connecting to the card. -/
  | connecting
  /-- Serving a session. -/
  | active
  /-- The card of the last session left. -/
  | removed
  /-- A session or the runner failed. -/
  | fault
  /-- The application did not submit a command in time. -/
  | idleTimeout
  /-- Stopped for good. -/
  | terminated
deriving DecidableEq

/-- The name of a state. -/
def State.name : State → String
  | .starting => "Starting"
  | .waitAbsent => "WaitAbsent"
  | .waitPresent => "WaitPresent"
  | .connecting => "Connecting"
  | .active => "Active"
  | .removed => "Removed"
  | .fault => "Fault"
  | .idleTimeout => "IdleTimeout"
  | .terminated => "Terminated"

/-- All states, in the order of a life. -/
def State.all : List State :=
  [.starting, .waitAbsent, .waitPresent, .connecting, .active, .removed, .fault, .idleTimeout,
    .terminated]

/-- The state with a name. -/
def State.ofName? (name : String) : Option State :=
  State.all.find? fun s => s.name = name

/-- How a runner finished. -/
inductive Exit where
  /-- The card of the last session left, after so many sessions. -/
  | removed (sessions : Nat)
  /-- A session or the runner failed. -/
  | fault (error : SessionError)
  /-- The runner was stopped. -/
  | cancelled
deriving DecidableEq

end Runner

end SmartCard
