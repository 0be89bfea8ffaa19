import SmartCard.Hex
import SmartCard.ExchangeError
import SmartCard.Duration
/-!
# Errors of a session

An application hears of a failed exchange or a failed session through a
`SessionError`. The two kinds of error pass into each other as commands and
replies pass between a session and the layers over it: `ofExchange` lifts
the removal of a card, under whatever contexts, out of the transport
errors, and `toExchange` puts it back.
-/

namespace SmartCard

/-- Why an exchange or a session failed. -/
inductive SessionError where
  /-- The reader or the card failed during an exchange. -/
  | transport (error : ExchangeError)
  /-- The card left the reader. -/
  | cardRemoved
  /-- The application did not submit a command in time. -/
  | idleTimeout (limit : Duration)
  /-- The session was used in a way it does not allow. -/
  | configuration (problem : String)
  /-- The runner was stopped. -/
  | cancelled
  /-- The application dropped its start request. -/
  | startAborted
deriving DecidableEq

namespace SessionError

/-- No session is open behind the handle. -/
def noSession : SessionError := .configuration "no session is accepting commands"

/-- Another exchange has not been answered yet. -/
def exchangePending : SessionError := .configuration "an exchange is already pending"

/-- The text of an error. -/
def text : SessionError → String
  | .transport error => "Transport fault: " ++ error.text
  | .cardRemoved => "Card was removed"
  | .idleTimeout limit => "No command was submitted within " ++ limit.text
  | .configuration problem => "Configuration error: " ++ problem
  | .cancelled => "Session runner was cancelled"
  | .startAborted => "Start request was abandoned by the application"

/-- The texts of the errors behind this one, nearest first. -/
def sources : SessionError → List String
  | .transport error => error.text :: error.sources
  | _ => []

/-- The failure only ends the current session. -/
def isCardRemoved (e : SessionError) : Bool :=
  e = .cardRemoved

/-- The failure comes from misuse of the session. -/
def isConfiguration : SessionError → Bool
  | .configuration _ => true
  | _ => false

/-- What an exchange's error is to a session. -/
def ofExchange (e : ExchangeError) : SessionError :=
  if e.isCardRemoved then .cardRemoved else .transport e

/-- What a session's error is to a layer over its handle. -/
def toExchange : SessionError → ExchangeError
  | .transport error => error
  | .cardRemoved => .transport .cardRemoved
  | .idleTimeout _ => .transport .timeout
  | .cancelled => .transport .cancelled
  | e => .plain e.text

end SessionError

/-- The answer to a command that a session accepted. -/
abbrev Answer := Except SessionError Bytes

end SmartCard
