import SmartCard.Rendezvous.Handle
/-!
# A pending exchange among other clients

The clients of a session share its rendezvous. `Sharing` has one pending
exchange and the commands that were accepted for it, while others publish,
and the session takes and answers commands. A run is an interleaving of its
polls with what the others do.
-/

namespace SmartCard

/-- A rendezvous and one of the exchanges over its handles. -/
structure Sharing where
  rendezvous : Rendezvous := {}
  /-- The reply of the exchange, or where it stands. -/
  progress : Reply ⊕ Pending
  /-- The commands accepted for the exchange with their tickets, oldest first. -/
  own : List (Ticket × Bytes) := []

namespace Sharing

/-- One step of somebody. -/
inductive Move where
  /-- The exchange is polled. -/
  | poll
  /-- Somebody else uses the rendezvous. -/
  | other (op : Rendezvous.Op)

/-- The command that was accepted between two states of a rendezvous, and has
not been taken since. -/
def accepted (before after : Rendezvous) : List (Ticket × Bytes) :=
  match after.slot with
  | .requested command ticket => if before.issued = after.issued then [] else [(ticket, command)]
  | .closed | .idle | .inFlight _ => []

/-- The state after a step. An exchange that has its reply is not polled again. -/
def apply (s : Sharing) : Move → Sharing
  | .poll =>
    match s.progress with
    | .inl _ => s
    | .inr pending =>
      let polled := pending.poll s.rendezvous
      { rendezvous := polled.2, progress := polled.1,
        own := s.own ++ accepted s.rendezvous polled.2 }
  | .other op => { s with rendezvous := (s.rendezvous.apply op).2 }

/-- Steps in order. -/
def run (s : Sharing) (moves : List Move) : Sharing :=
  moves.foldl apply s

end Sharing

end SmartCard
