import SmartCard.SessionError
/-!
# The rendezvous of an application and a session

An application hands a session one command at a time through a single slot.
A command that is accepted gets a ticket; the session takes the command,
completes it with an answer, and the slot is free again. Closing the slot
ends the session for good and answers a command that is still outstanding.

Each operation is atomic. `complete` and `close` are made of a change of the
slot and the resolution of a ticket (`release` or `shut`, then `resolve`),
because other operations can run between the two; `Rendezvous.Split` has
them apart. Only the first answer to a ticket counts (`poll_resolve`).
-/

namespace SmartCard

/-- The number of an accepted command, counted from zero. -/
abbrev Ticket := Nat

/-- The place where commands are handed over. -/
inductive Slot where
  /-- No session takes commands any more. -/
  | closed
  /-- Free for a command. -/
  | idle
  /-- A command waits to be taken. -/
  | requested (command : Bytes) (ticket : Ticket)
  /-- A command was taken and is not answered yet. -/
  | inFlight (ticket : Ticket)
deriving DecidableEq

namespace Slot

/-- The name of the slot's condition. -/
def name : Slot → String
  | .closed => "closed"
  | .idle => "idle"
  | .requested _ _ => "requested"
  | .inFlight _ => "in-flight"

/-- The ticket of the command that is in the slot or was taken from it. -/
def ticket? : Slot → Option Ticket
  | .requested _ t | .inFlight t => some t
  | .closed | .idle => none

end Slot

/-- What a session finds when it looks for a command. -/
inductive Next where
  /-- A command to exchange. -/
  | command (command : Bytes)
  /-- The slot is closed. -/
  | closed
  /-- There is no command. -/
  | nothing
deriving DecidableEq

/-- The slot, with the tickets given out and the answers they got. -/
structure Rendezvous where
  slot : Slot := .idle
  /-- The number of tickets given out. -/
  issued : Nat := 0
  /-- The resolved tickets with their answers, in the order of resolution. -/
  resolved : List (Ticket × Answer) := []

namespace Rendezvous

/-- The slot takes no commands any more. -/
def isClosed (r : Rendezvous) : Bool :=
  r.slot = .closed

/-- The application offers a command. It is accepted if the slot is free, and
then has a ticket for its answer. -/
def publish (r : Rendezvous) (command : Bytes) : Except SessionError Ticket × Rendezvous :=
  match r.slot with
  | .closed => (.error .noSession, r)
  | .requested _ _ | .inFlight _ => (.error .exchangePending, r)
  | .idle => (.ok r.issued, { r with slot := .requested command r.issued, issued := r.issued + 1 })

/-- The session looks for a command, and takes it if there is one. -/
def next (r : Rendezvous) : Next × Rendezvous :=
  match r.slot with
  | .requested command ticket => (.command command, { r with slot := .inFlight ticket })
  | .closed => (.closed, r)
  | .idle | .inFlight _ => (.nothing, r)

/-- The answer becomes known to the holder of the ticket. -/
def resolve (r : Rendezvous) (ticket : Ticket) (answer : Answer) : Rendezvous :=
  { r with resolved := r.resolved ++ [(ticket, answer)] }

/-- Frees the slot of a command that was taken, and returns its ticket. -/
def release (r : Rendezvous) : Option Ticket × Rendezvous :=
  match r.slot with
  | .inFlight ticket => (some ticket, { r with slot := .idle })
  | _ => (none, r)

/-- The session answers the command that it took. Without such a command,
nothing happens. -/
def complete (r : Rendezvous) (answer : Answer) : Rendezvous :=
  match r.release with
  | (some ticket, r) => r.resolve ticket answer
  | (none, r) => r

/-- Closes the slot, and returns what was in it. -/
def shut (r : Rendezvous) : Slot × Rendezvous :=
  (r.slot, { r with slot := .closed })

/-- Closes the slot and answers an outstanding command with the reason. The
result tells whether the slot was open. -/
def close (r : Rendezvous) (reason : SessionError) : Bool × Rendezvous :=
  let previous := r.shut
  match previous.1.ticket? with
  | some ticket => (true, previous.2.resolve ticket (.error reason))
  | none => (previous.1 ≠ .closed, previous.2)

/-- The answer to a ticket, if there is one yet. -/
def poll (r : Rendezvous) (ticket : Ticket) : Option Answer :=
  (r.resolved.find? fun entry => entry.1 = ticket).map (·.2)

/-- The answer to a ticket after the rendezvous itself is gone: without one,
the exchange counts as cancelled. -/
def pollAfterDrop (r : Rendezvous) (ticket : Ticket) : Answer :=
  (r.poll ticket).getD (.error .cancelled)

/-! ## What the operations do to the slot and to the answers -/

/-- An answer leaves the slot as it is. -/
theorem slot_resolve (r : Rendezvous) (ticket : Ticket) (answer : Answer) :
    (r.resolve ticket answer).slot = r.slot := rfl

/-- The first answer to a ticket is the one that counts. -/
theorem poll_resolve (r : Rendezvous) (ticket other : Ticket) (answer : Answer) :
    (r.resolve ticket answer).poll other =
      (r.poll other).or (if ticket = other then some answer else none) := by
  unfold poll resolve
  rw [List.find?_append]
  cases r.resolved.find? fun entry => entry.1 = other with
  | some entry => rfl
  | none => by_cases h : ticket = other <;> simp [h]

/-- A slot is closed after it was closed, whatever was in it. -/
theorem slot_close (r : Rendezvous) (reason : SessionError) :
    (r.close reason).2.slot = .closed := by
  unfold close
  cases h : r.slot <;> simp [shut, Slot.ticket?, resolve, h]

/-- Closing tells whether the slot was open. -/
theorem close_fst (r : Rendezvous) (reason : SessionError) :
    (r.close reason).1 = !r.isClosed := by
  unfold close isClosed
  cases h : r.slot <;> simp [shut, Slot.ticket?, h]

/-! ## Runs of operations -/

/-- An operation of the application or of the session. -/
inductive Op where
  | publish (command : Bytes)
  | next
  | complete (answer : Answer)
  | close (reason : SessionError)
  | poll (ticket : Ticket)
  /-- The holder of a ticket lets go of it. Its command stays where it is. -/
  | forget (ticket : Ticket)

/-- What an operation returns. -/
inductive Result where
  | published (outcome : Except SessionError Ticket)
  | next (found : Next)
  | completed
  | closed (wasOpen : Bool)
  | polled (answer : Option Answer)
  | forgotten

/-- One operation. -/
def apply (r : Rendezvous) : Op → Result × Rendezvous
  | .publish command => (.published (r.publish command).1, (r.publish command).2)
  | .next => (.next r.next.1, r.next.2)
  | .complete answer => (.completed, r.complete answer)
  | .close reason => (.closed (r.close reason).1, (r.close reason).2)
  | .poll ticket => (.polled (r.poll ticket), r)
  | .forget _ => (.forgotten, r)

/-- Operations in order, with the result of each and the rendezvous after it. -/
def run (r : Rendezvous) : List Op → List (Result × Rendezvous)
  | [] => []
  | op :: ops => r.apply op :: (r.apply op).2.run ops

end Rendezvous

end SmartCard
