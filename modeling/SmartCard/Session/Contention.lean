import SmartCard.Session
/-!
# Many calls at one latch

Any number of calls can try to conclude a session while commands go on being
published, taken and completed. `Contention` has the session, the events
queued, and the calls with the steps they have reached; a run of `Move`s is
an interleaving of their steps. A call that nobody disturbs does what
`Session.conclude` does at once (`run_alone`).
-/

namespace SmartCard

/-- A session with the calls that try to conclude it. -/
structure Contention where
  session : Session
  /-- The events queued so far. -/
  events : List Event := []
  /-- The calls made so far. -/
  calls : List Conclusion := []

namespace Contention

/-- One atomic step of somebody. -/
inductive Move where
  /-- A new call gives the session an outcome. -/
  | call (outcome : Outcome)
  /-- The call with this number takes its next step. -/
  | advance (number : Nat)
  | publish (command : Bytes)
  | next
  | complete (answer : Answer)

/-- The rendezvous of the session is changed. -/
def onRendezvous (c : Contention) (change : Rendezvous → Rendezvous) : Contention :=
  { c with session := { c.session with rendezvous := change c.session.rendezvous } }

/-- The state after a step. A call that waits for the latch stays where it is. -/
def apply (c : Contention) : Move → Contention
  | .call outcome => { c with calls := c.calls ++ [.seeking outcome] }
  | .advance number =>
    match c.calls[number]? with
    | none => c
    | some call =>
      match c.session.advance call with
      | none => c
      | some (session, call, queued) =>
        { session, events := c.events ++ queued, calls := c.calls.set number call }
  | .publish command => c.onRendezvous fun r => (r.publish command).2
  | .next => c.onRendezvous fun r => r.next.2
  | .complete answer => c.onRendezvous fun r => r.complete answer

/-- Steps in order. -/
def run (c : Contention) (moves : List Move) : Contention :=
  moves.foldl apply c

/-- **A call alone at the latch** takes six steps at most, and has then done
what the whole call does. -/
theorem run_alone (s : Session) (outcome : Outcome) (h : s.latched = false) :
    run { session := s, calls := [.seeking outcome] } (List.replicate 6 (.advance 0)) =
      { session := (s.conclude outcome).2.2, events := (s.conclude outcome).2.1,
        calls := [.returned (s.conclude outcome).1] } := by
  obtain ⟨card, ⟨slot, issued, resolved⟩, recorded, latched⟩ := s
  subst h
  cases recorded with
  | some o => rfl
  | none => cases slot <;> rfl

end Contention

end SmartCard
