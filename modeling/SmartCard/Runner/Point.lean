import SmartCard.Session
import SmartCard.Interrupt
import SmartCard.Task
import SmartCard.StartRequest
import SmartCard.Exchange
import SmartCard.Runner.State
/-!
# The points of a runner

A runner's thread asks for its start parameters, waits for a card, connects,
serves a session, and starts again or stops. A `Point` is where it stands
between two atomic steps.
-/

namespace SmartCard

namespace Runner

/-- Why a runner stops outside of a session. -/
inductive Stop where
  | cancelled
  | fault (error : SessionError)
deriving DecidableEq

/-- Where a runner stands that tries to get a card. -/
inductive Attempt where
  /-- A new attempt begins. -/
  | arriving
  /-- It is about to look at the interrupt, before a wait for a card or for its absence. -/
  | polling (present : Bool)
  /-- It waits for the reader. -/
  | waiting (present : Bool)
  /-- The reader was seen empty. -/
  | cleared
  /-- A card was seen. -/
  | found
  /-- It connects. -/
  | connecting
  /-- The card left before the connection: a pause up to a deadline. -/
  | resting (deadline : Nat) (sleep : Interrupt.Sleep)

/-- Where a runner stands inside a session. -/
inductive Stage where
  /-- The connection is there. -/
  | opened
  /-- The session is about to be handed to the application. -/
  | announcing
  /-- The watch is about to be started. -/
  | hiring
  /-- It is about to look at the interrupt. -/
  | looping
  /-- It is about to read the clock. -/
  | timing
  /-- It is about to look for a command, and to wait for one no longer than this. -/
  | listening (slice : Nat)
  /-- It waits for a command up to a deadline. -/
  | asleep (deadline : Nat)
  /-- The slot is closed, and it is about to ask for the outcome. -/
  | inquiring
  /-- It carries out a command; this much of the exchange is left. -/
  | exchanging (rest : Exchange Reply)
  /-- The exchange is over with this answer. -/
  | answering (answer : Answer)
  /-- The slot is free again, and the ticket is about to be resolved. -/
  | resolving (ticket : Ticket) (answer : Answer)
  /-- It concludes the session. -/
  | concluding (call : Conclusion)
  /-- The session is over, and the watch is about to be cancelled. -/
  | dismissing (outcome : Outcome)
  /-- The watch is cancelled, and its interrupt is about to be raised. -/
  | interrupting (outcome : Outcome)
  /-- It waits for the watch to be gone. -/
  | joining (outcome : Outcome)
  /-- The session is over and the watch is gone. -/
  | served (outcome : Outcome)

/-- A session that is being served. -/
structure Service where
  /-- The number of the session. -/
  session : Nat
  /-- The clock when the session began to wait for a command. -/
  idleSince : Nat := 0
  stage : Stage := .opened

/-- Where a runner's thread stands. -/
inductive Point where
  /-- It is about to ask the application for permission to start. -/
  | opening
  /-- It is about to look at the interrupt, before it waits for the parameters. -/
  | negotiating
  /-- It waits for the parameters up to a deadline. -/
  | receiving (deadline : Nat)
  /-- It tries to get a card. -/
  | attempting (parameters : Parameters) (attempt : Attempt)
  /-- It serves a session. -/
  | serving (parameters : Parameters) (service : Service)
  /-- It stops outside of a session. -/
  | stopping (why : Stop)
  /-- The failure is shown in the state, and the application is about to be told. -/
  | failing (error : SessionError)
  /-- It is about to terminate with this result. -/
  | terminating (result : Except TaskError Exit)
  /-- The work is over, and the thread is about to go. -/
  | ending (ending : Task.Ending Exit)
  /-- The thread is gone. -/
  | gone (ending : Task.Ending Exit)

end Runner

end SmartCard
