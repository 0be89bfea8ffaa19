import SmartCard.Rendezvous
/-!
# Waiting for a command

A session waits for a command under the lock of the slot. It takes the value
out of the slot, looks at it, and puts the right value back before it lets
go of the lock; then it sleeps until it is woken, by a change or by the
deadline, and looks again. `Listening` has each of these steps apart, so
that what others do can fall between any two of them. They act only while
the lock is free. Until it sleeps or returns, an undisturbed session does
what `Rendezvous.next` does in one step (`proceed_arriving`).
-/

namespace SmartCard

/-- Where a session stands in its wait. -/
inductive Listening.Stage where
  /-- It is about to take the lock. -/
  | arriving
  /-- It holds the lock and the value of the slot, which shows idle meanwhile. -/
  | holding (found : Slot)
  /-- It holds the lock, has put the value back, and is about to sleep. -/
  | settled
  /-- It sleeps, without the lock. -/
  | asleep
  /-- It was woken, and waits for the lock. -/
  | woken (timedOut : Bool)
  /-- It has the lock again. -/
  | reacquired (timedOut : Bool)
  /-- It is done. -/
  | returned (found : Next)
deriving DecidableEq

/-- A slot and the session that waits at it. -/
structure Listening where
  rendezvous : Rendezvous
  stage : Listening.Stage := .arriving

namespace Listening

/-- The session holds the lock. -/
def Stage.isLocked : Stage → Bool
  | .holding _ | .settled | .reacquired _ => true
  | .arriving | .asleep | .woken _ | .returned _ => false

/-- A step of the session itself. -/
def step (l : Listening) : Listening :=
  match l.stage with
  | .arriving =>
    { rendezvous := { l.rendezvous with slot := .idle }, stage := .holding l.rendezvous.slot }
  | .holding (.requested command ticket) =>
    { rendezvous := { l.rendezvous with slot := .inFlight ticket },
      stage := .returned (.command command) }
  | .holding .closed =>
    { rendezvous := { l.rendezvous with slot := .closed }, stage := .returned .closed }
  | .holding other => { rendezvous := { l.rendezvous with slot := other }, stage := .settled }
  | .settled => { l with stage := .asleep }
  | .asleep => l
  | .woken timedOut => { l with stage := .reacquired timedOut }
  | .reacquired timedOut =>
    match timedOut, l.rendezvous.slot with
    | true, .idle | true, .inFlight _ => { l with stage := .returned .nothing }
    | _, found =>
      { rendezvous := { l.rendezvous with slot := .idle }, stage := .holding found }
  | .returned _ => l

/-- A sleeping session is woken. -/
def wake (l : Listening) (timedOut : Bool) : Listening :=
  match l.stage with
  | .asleep => { l with stage := .woken timedOut }
  | _ => l

/-- Someone else changes the rendezvous while the lock is free. -/
def meanwhile (l : Listening) (change : Rendezvous → Rendezvous) : Listening :=
  if l.stage.isLocked then l else { l with rendezvous := change l.rendezvous }

/-- As many steps of the session as it can take until it sleeps or returns. -/
def proceed (l : Listening) : Listening :=
  l.step.step.step.step

/-- A session that arrives and finds nothing falls asleep and leaves the slot
as it was; otherwise it returns what it found. -/
theorem proceed_arriving (r : Rendezvous) :
    ({ rendezvous := r } : Listening).proceed =
      { rendezvous := r.next.2,
        stage := if r.next.1 = .nothing then .asleep else .returned r.next.1 } := by
  obtain ⟨slot, issued, resolved⟩ := r
  cases slot <;> rfl

/-- The wait has returned this. -/
def result? (l : Listening) : Option Next :=
  match l.stage with
  | .returned found => some found
  | _ => none

/-- A wait during which someone changes the rendezvous and wakes the session,
and which then runs out: what the change returned, what the wait returned,
and the rendezvous afterwards. -/
def around {α : Type} (r : Rendezvous) (change : Rendezvous → α × Rendezvous) :
    α × Next × Rendezvous :=
  let waiting := ({ rendezvous := r } : Listening).proceed
  let changed := change waiting.rendezvous
  let woken := ((waiting.meanwhile fun _ => changed.2).wake false).proceed
  let timed := (woken.wake true).proceed
  (changed.1, timed.result?.getD .nothing, timed.rendezvous)

/-- One atomic step of somebody. -/
inductive Move where
  /-- The session. -/
  | step
  /-- A change or the deadline wakes the session, or nothing at all does. -/
  | wake (timedOut : Bool)
  /-- Somebody else uses the rendezvous. -/
  | other (op : Rendezvous.Op)

/-- The state after a step. While the session holds the lock, others wait. -/
def apply (l : Listening) : Move → Listening
  | .step => l.step
  | .wake timedOut => l.wake timedOut
  | .other op => l.meanwhile fun r => (r.apply op).2

/-- Steps in order. -/
def run (l : Listening) (moves : List Move) : Listening :=
  moves.foldl apply l

end Listening

end SmartCard
