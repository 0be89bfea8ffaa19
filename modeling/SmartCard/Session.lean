import SmartCard.Rendezvous
import SmartCard.Event
/-!
# Sessions and their end

A session is one card with the rendezvous of its commands. It ends once:
the first outcome that anyone gives it is the one it keeps. Whoever
concludes a session holds its latch meanwhile, closes the rendezvous with
the reason, queues one event for the application, and only then records the
outcome. `Conclusion` is where such a call stands, and `Session.advance` is
its next step, which waits while another call holds the latch.
-/

namespace SmartCard

/-- How a session ended. -/
inductive Outcome where
  /-- The card left the reader. -/
  | removed
  /-- An exchange or the reader failed. -/
  | fault (error : SessionError)
  /-- The application did not submit a command in time. -/
  | idleTimeout (limit : Duration)
  /-- The runner was stopped. -/
  | cancelled
deriving DecidableEq

namespace Outcome

/-- The error that answers a command which is outstanding at the end. -/
def reason : Outcome → SessionError
  | .removed => .cardRemoved
  | .fault error => error
  | .idleTimeout limit => .idleTimeout limit
  | .cancelled => .cancelled

/-- The event that tells the application of the end. -/
def event : Outcome → Event
  | .removed => .cardRemoved
  | outcome => .failed outcome.reason

end Outcome

/-- One card session. -/
structure Session where
  /-- The card that it was opened for. -/
  card : CardData
  /-- Where commands are handed over. -/
  rendezvous : Rendezvous := {}
  /-- How it ended, if it has. -/
  outcome : Option Outcome := none
  /-- A call that concludes the session holds the latch. -/
  latched : Bool := false

/-- Where a call stands that gives a session an outcome. -/
inductive Conclusion where
  /-- It waits for the latch. -/
  | seeking (outcome : Outcome)
  /-- It holds the latch and is about to see whether the session has ended. -/
  | deciding (outcome : Outcome)
  /-- The slot is closed, and the ticket that was outstanding is about to be resolved. -/
  | closing (outcome : Outcome) (outstanding : Option Ticket)
  /-- The event is about to be queued. -/
  | telling (outcome : Outcome)
  /-- The outcome is about to be recorded. -/
  | recording (outcome : Outcome)
  /-- The latch is about to be let go. -/
  | releasing (outcome : Outcome)
  /-- The call has returned the outcome that the session keeps. -/
  | returned (outcome : Outcome)
deriving DecidableEq

namespace Session

/-- The session has an outcome. -/
def isConcluded (s : Session) : Bool :=
  s.outcome.isSome

/-- The event that hands the session with this number to the application. -/
def announcement (s : Session) (number : Nat) : Event :=
  .cardPresent number s.card

/-- The next step of a call that concludes the session: the session after it,
where the call then stands, and what is queued for the application. There is
none while the call waits for the latch. -/
def advance (s : Session) : Conclusion → Option (Session × Conclusion × List Event)
  | .seeking outcome =>
    if s.latched then none else some ({ s with latched := true }, .deciding outcome, [])
  | .deciding outcome =>
    match s.outcome with
    | some recorded => some ({ s with latched := false }, .returned recorded, [])
    | none =>
      let previous := s.rendezvous.shut
      some ({ s with rendezvous := previous.2 }, .closing outcome previous.1.ticket?, [])
  | .closing outcome (some ticket) =>
    some ({ s with rendezvous := s.rendezvous.resolve ticket (.error outcome.reason) },
      .telling outcome, [])
  | .closing outcome none => some (s, .telling outcome, [])
  | .telling outcome => some (s, .recording outcome, [outcome.event])
  | .recording outcome => some ({ s with outcome := some outcome }, .releasing outcome, [])
  | .releasing outcome => some ({ s with latched := false }, .returned outcome, [])
  | .returned outcome => some (s, .returned outcome, [])

/-- The whole call, when nobody else acts: the outcome that the session keeps,
what is queued for the application, and the session afterwards. -/
def conclude (s : Session) (outcome : Outcome) : Outcome × List Event × Session :=
  match s.outcome with
  | some recorded => (recorded, [], s)
  | none =>
    (outcome, [outcome.event],
      { s with rendezvous := (s.rendezvous.close outcome.reason).2, outcome := some outcome })

end Session

end SmartCard
