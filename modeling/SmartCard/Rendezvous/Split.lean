import SmartCard.Rendezvous
/-!
# Completion and closure in two steps

Completing and closing change the slot first and resolve the ticket
afterwards, and anything can happen in between. `Split` keeps the
resolutions that are still to be made beside the rendezvous, and has each
operation begin and finish on its own. One that finishes as soon as it has
begun is the atomic operation (`run_complete`, `run_close`).
-/

namespace SmartCard

namespace Rendezvous

/-- A rendezvous with the resolutions that are under way. -/
structure Split where
  rendezvous : Rendezvous := {}
  /-- Tickets whose slot was changed, with the answers they are about to get. -/
  under : List (Ticket × Answer) := []

namespace Split

/-- One atomic step. -/
inductive Step where
  | publish (command : Bytes)
  | next
  /-- The slot of a taken command becomes free. -/
  | beginComplete (answer : Answer)
  /-- The slot becomes closed. -/
  | beginClose (reason : SessionError)
  /-- The resolution at this place among those under way is made. -/
  | finish (index : Nat)

/-- The rendezvous after one step. -/
def apply (s : Split) : Step → Split
  | .publish command => { s with rendezvous := (s.rendezvous.publish command).2 }
  | .next => { s with rendezvous := s.rendezvous.next.2 }
  | .beginComplete answer =>
    match s.rendezvous.release with
    | (some ticket, r) => { rendezvous := r, under := s.under ++ [(ticket, answer)] }
    | (none, r) => { s with rendezvous := r }
  | .beginClose reason =>
    match s.rendezvous.shut with
    | (previous, r) =>
      match previous.ticket? with
      | some ticket => { rendezvous := r, under := s.under ++ [(ticket, .error reason)] }
      | none => { s with rendezvous := r }
  | .finish index =>
    match s.under[index]? with
    | some (ticket, answer) =>
      { rendezvous := s.rendezvous.resolve ticket answer, under := s.under.eraseIdx index }
    | none => s

/-- Steps in order. -/
def run (s : Split) (steps : List Step) : Split :=
  steps.foldl apply s

/-- Completing without interruption is the atomic operation. -/
theorem run_complete (r : Rendezvous) (answer : Answer) :
    run { rendezvous := r } [.beginComplete answer, .finish 0] =
      { rendezvous := r.complete answer } := by
  cases h : r.slot <;> simp [run, apply, release, complete, h]

/-- Closing without interruption is the atomic operation. -/
theorem run_close (r : Rendezvous) (reason : SessionError) :
    run { rendezvous := r } [.beginClose reason, .finish 0] =
      { rendezvous := (r.close reason).2 } := by
  cases h : r.slot <;> simp [run, apply, shut, close, Slot.ticket?, h]

end Split

end Rendezvous

end SmartCard
