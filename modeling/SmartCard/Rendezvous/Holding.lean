import SmartCard.Rendezvous
/-!
# Placeholders

The client of an accepted command holds a placeholder for its answer. The placeholder
shows the answer once and is used up by that, or it is dropped before; an answer that
comes to a placeholder which nobody holds any more is seen by nobody. `Holding` has a
rendezvous with the placeholders that are gone. The rendezvous does not look at them.
-/

namespace SmartCard

/-- A rendezvous with the placeholders that its clients have no longer. -/
structure Holding where
  rendezvous : Rendezvous := {}
  /-- The tickets whose placeholders were dropped or used up. -/
  gone : List Ticket := []

namespace Holding

open Rendezvous (Op Result)

/-- What the placeholder of a ticket shows. One that is gone shows nothing. -/
def poll (h : Holding) (ticket : Ticket) : Option Answer :=
  if ticket ∈ h.gone then none else h.rendezvous.poll ticket

/-- The placeholder of a ticket is given up. -/
def give (h : Holding) (ticket : Ticket) : Holding :=
  { h with gone := ticket :: h.gone }

/-- One operation. The answer that a poll shows uses up the placeholder. -/
def apply (h : Holding) : Op → Result × Holding
  | .poll ticket => (.polled (h.poll ticket), if (h.poll ticket).isSome then h.give ticket else h)
  | .forget ticket => (.forgotten, h.give ticket)
  | op => ((h.rendezvous.apply op).1, { h with rendezvous := (h.rendezvous.apply op).2 })

/-- Operations in order. -/
def run (h : Holding) (ops : List Op) : Holding :=
  ops.foldl (fun h op => (h.apply op).2) h

/-- Operations in order, of which some are marked: what each of the marked ones returns,
and the slot after it. -/
def noted (h : Holding) : List (Op × Bool) → List (Result × Slot)
  | [] => []
  | (op, marked) :: script =>
    let rest := (h.apply op).2.noted script
    if marked then ((h.apply op).1, (h.apply op).2.rendezvous.slot) :: rest else rest

/-- The rendezvous after an operation is what it is without placeholders. -/
theorem rendezvous_apply (h : Holding) (op : Op) :
    (h.apply op).2.rendezvous = (h.rendezvous.apply op).2 := by
  cases op with
  | poll ticket =>
    rw [apply]
    split <;> rfl
  | _ => rfl

end Holding

end SmartCard
