import SmartCard.Rendezvous
import SmartCard.Layer
/-!
# Handles

An application talks to a session through a handle. To the layers over it a
handle is a card, whose errors are those of the session. An exchange over a
handle need not block: a `Pending` exchange moves on only when it is polled,
and each poll takes it as far as the answers that are there.
-/

namespace SmartCard

/-- The reply that a layer over a handle sees. -/
def Answer.toReply (answer : Answer) : Reply :=
  answer.mapError SessionError.toExchange

/-- An exchange over a handle that has not finished. -/
inductive Pending where
  /-- What comes next has not been tried yet. -/
  | ready (exchange : Exchange Reply)
  /-- The command with this ticket is not answered yet. -/
  | awaiting (ticket : Ticket) (resume : Reply → Exchange Reply)

namespace Pending

/-- An exchange whose first command is published at once. A refusal shows when
it is polled. -/
def submit (command : Bytes) (r : Rendezvous) : Pending × Rendezvous :=
  match r.publish command with
  | (.ok ticket, r) => (.awaiting ticket .done, r)
  | (.error e, r) => (.ready (.done (.error e.toExchange)), r)

/-- An exchange under a chain layer, which does nothing until it is polled. -/
def submitMoreData (limit : Nat) (command : Bytes) : Pending :=
  .ready ((Layer.moreData limit).exchange command)

/-- Goes on until a command is accepted or the exchange is done. A command
that is refused counts as a failed exchange. -/
def advance : Exchange Reply → Rendezvous → (Reply ⊕ Pending) × Rendezvous
  | .done reply, r => (.inl reply, r)
  | .transmit command resume, r =>
    match r.publish command with
    | (.ok ticket, r) => (.inr (.awaiting ticket resume), r)
    | (.error e, r) => advance (resume (.error e.toExchange)) r

/-- One poll. -/
def poll : Pending → Rendezvous → (Reply ⊕ Pending) × Rendezvous
  | .ready exchange, r => advance exchange r
  | .awaiting ticket resume, r =>
    match r.poll ticket with
    | none => (.inr (.awaiting ticket resume), r)
    | some answer => advance (resume answer.toReply) r

end Pending

end SmartCard
