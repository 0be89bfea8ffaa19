import SmartCard.CardData
import SmartCard.SessionError
/-!
# Events of an application

A runner tells its application what happens through a queue of events. They
are delivered one after the other in the order in which they were queued,
and a callback that fails does not hold up the others.
-/

namespace SmartCard

/-- Something that an application is told. -/
inductive Event where
  /-- The runner asks for permission to start. -/
  | start
  /-- A session with this number was opened for a card. -/
  | cardPresent (session : Nat) (card : CardData)
  /-- The card of the session left the reader. -/
  | cardRemoved
  /-- The session, or the runner itself, failed. -/
  | failed (error : SessionError)
deriving DecidableEq

namespace Event

/-- The text of an event. -/
def text : Event → String
  | .start => "Start"
  | .cardPresent _ card => "CardPresent(" ++ card.text ++ ")"
  | .cardRemoved => "CardRemoved"
  | .failed error => "Error(" ++ error.text ++ ")"

end Event

end SmartCard
