/-!
# Errors of an exchange

Whatever goes wrong between a command and its response is one
`ExchangeError`. Each layer on the way may add a context, which adds text
and nothing else: every decision reads the `root`, the error under all
contexts.
-/

namespace SmartCard

/-- The reader or the card failed during one physical exchange. -/
inductive TransportFault where
  | connection
  | transmission
  | cardRemoved
  | exclusiveAccess
  | device
  | driver (message : String)
  | timeout
  | cancelled
  | other (message : String)
deriving DecidableEq

/-- The text of a transport fault. -/
def TransportFault.text : TransportFault → String
  | .connection => "Failed to connect to device"
  | .transmission => "Failed to transmit data"
  | .cardRemoved => "Card was removed"
  | .exclusiveAccess => "Card is in exclusive use by another connection"
  | .device => "Device error"
  | .driver message => "Driver error: " ++ message
  | .timeout => "Operation timed out"
  | .cancelled => "Operation cancelled"
  | .other message => message

/-- Why an exchange has no response. -/
inductive ExchangeError where
  /-- The physical exchange failed. -/
  | transport (fault : TransportFault)
  /-- The response is too short to hold a status word. -/
  | incomplete (length : Nat)
  /-- The command has no valid length. -/
  | commandLength (length : Nat)
  /-- The command has an invalid field. -/
  | commandData (message : String)
  /-- The card answered in a way that its continuation protocol does not allow. -/
  | protocolViolation (message : String)
  /-- A chain of continuation statuses reached its bound. -/
  | chainLimit (limit : Nat)
  /-- Another error, and what was being done when it came. -/
  | context (doing : String) (cause : ExchangeError)
  /-- A failure known by its text only. -/
  | plain (text : String)
deriving DecidableEq

namespace ExchangeError

/-- The text of an error: its contexts from the outermost inwards, then its root. -/
def text : ExchangeError → String
  | .transport fault => fault.text
  | .incomplete length =>
    "Incomplete response: " ++ toString length ++ " bytes, status word requires 2"
  | .commandLength length => "Invalid command length: " ++ toString length
  | .commandData message => "Invalid command data: " ++ message
  | .protocolViolation message => "Protocol violation: " ++ message
  | .chainLimit limit =>
    "Chain limit of " ++ toString limit ++ " continuation responses exceeded"
  | .context doing cause => doing ++ ": " ++ cause.text
  | .plain text => text

/-- Adds one context on the outside. -/
def withContext (e : ExchangeError) (doing : String) : ExchangeError :=
  .context doing e

/-- Adds contexts in order, so that the last one is outermost. -/
def withContexts (e : ExchangeError) (doings : List String) : ExchangeError :=
  doings.foldl withContext e

/-- The error under all contexts. -/
def root : ExchangeError → ExchangeError
  | .context _ cause => cause.root
  | e => e

/-- The texts of the errors behind this one, nearest first. Only a context
has an error behind it. -/
def sources : ExchangeError → List String
  | .context _ cause => cause.text :: cause.sources
  | _ => []

/-- The transport fault at the root, if that is what the root is. -/
def transportFault? (e : ExchangeError) : Option TransportFault :=
  match e.root with
  | .transport fault => some fault
  | _ => none

/-- The card left the reader during the operation. -/
def isCardRemoved (e : ExchangeError) : Bool :=
  e.transportFault? = some .cardRemoved

/-- The card answered outside the rules: a malformed response, a chain
without end, or a violation that a layer found. -/
def isProtocolViolation (e : ExchangeError) : Bool :=
  match e.root with
  | .protocolViolation _ | .chainLimit _ | .incomplete _ => true
  | _ => false

end ExchangeError

end SmartCard
