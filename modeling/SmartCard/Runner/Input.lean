import SmartCard.CardData
import SmartCard.Interrupt
import SmartCard.Response
/-!
# What the threads of a runner get from outside

A thread takes most steps by itself. For the others it needs an answer of
the reader, of the card or of the system, or the end of a wait.
-/

namespace SmartCard

namespace Runner

/-- What a thread gets from outside when it takes a step. -/
inductive Input where
  /-- Nothing: the step is the thread's own. -/
  | go
  /-- A wait of the thread ends. -/
  | wake (wake : Wake)
  /-- The reader answers a wait for a card, or for its absence. -/
  | presence (answer : Except ExchangeError Bool)
  /-- The reader answers a request to connect. -/
  | connection (answer : Except ExchangeError CardData)
  /-- A thread was started, or could not be. -/
  | spawned (failure : Option String)
  /-- The card answers a command. -/
  | reply (reply : Reply)
  /-- The card's driver panics. -/
  | panic (message : String)

end Runner

end SmartCard
