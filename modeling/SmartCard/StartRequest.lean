import SmartCard.Protocol
/-!
# The start request

A runner starts with a question to its application, which answers it once,
at once or later, or gives it up. The request is a channel for at most one
set of parameters; what was sent before the request was given up is still
received.
-/

namespace SmartCard

/-- What an application chooses when its runner starts. -/
structure Parameters where
  /-- Serve further cards after a removal. -/
  multiSession : Bool := false
  /-- Require an empty reader before the card of each session. -/
  touchRequired : Bool := false
  /-- The protocol to connect with. -/
  protocol : Protocol := .standard
deriving DecidableEq

/-- The request with both ends of its channel. -/
structure StartRequest where
  /-- The name of the reader that the runner serves. -/
  reader : String
  /-- The application still holds the request. -/
  held : Bool := true
  /-- The parameters sent and not received yet. -/
  sent : Option Parameters := none
  /-- The runner still listens. -/
  listening : Bool := true
deriving DecidableEq

namespace StartRequest

/-- What the runner finds in the channel. -/
inductive Receipt where
  | parameters (p : Parameters)
  /-- Nothing yet. -/
  | waiting
  /-- Nothing, and nothing will come. -/
  | disconnected
deriving DecidableEq

/-- The application answers and lets go of the request. Nobody hears it when
the runner listens no more. -/
def resolve (r : StartRequest) (p : Parameters) : StartRequest :=
  { r with held := false, sent := if r.listening then some p else none }

/-- The application lets go of the request without an answer. -/
def abandon (r : StartRequest) : StartRequest :=
  { r with held := false }

/-- The runner looks into the channel. -/
def receive (r : StartRequest) : Receipt × StartRequest :=
  match r.sent with
  | some p => (.parameters p, { r with sent := none })
  | none => (if r.held then .waiting else .disconnected, r)

/-- The runner listens no more, and what was not received is lost. -/
def stopListening (r : StartRequest) : StartRequest :=
  { r with listening := false, sent := none }

end StartRequest

end SmartCard
