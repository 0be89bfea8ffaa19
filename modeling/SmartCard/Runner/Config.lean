import SmartCard.Duration
import SmartCard.Layer
/-!
# The configuration of a runner

How often a runner polls, how long it lets a session wait for a command,
and which layers it puts over the card.
-/

namespace SmartCard

namespace Runner

/-- The settings of a runner. -/
structure Config where
  /-- How long one wait for a card or for the start parameters may take. -/
  pollInterval : Duration := .ofSecs 1
  /-- How long one wait of the removal watch may take. -/
  watchInterval : Duration := .ofSecs 1
  /-- How long a session may be without a command, if that is limited. -/
  idleTimeout : Option Duration := some (.ofSecs 60)
  /-- The bound on a chain of continuation statuses. -/
  chainLimit : Nat := defaultChainLimit
  /-- Repeat a command with the expected length that the card names. -/
  wrongLengthRetry : Bool := true
  /-- Fetch the rest of a response. -/
  getResponse : Bool := true
deriving DecidableEq

namespace Config

/-- The layers that a runner puts over a card. The retry is innermost, so
that it repeats the one command of a chain that was of a wrong length. -/
def stack (c : Config) : Stack :=
  (if c.wrongLengthRetry then [.wrongLength] else []) ++
    (if c.getResponse then [.getResponse c.chainLimit] else [])

/-- The settings as a record in one line. -/
def text (c : Config) : String :=
  "RunnerConfig \x7b poll_interval: " ++ c.pollInterval.text ++
    ", watch_interval: " ++ c.watchInterval.text ++
    ", idle_timeout: " ++
      (match c.idleTimeout with
        | none => "None"
        | some limit => "Some(" ++ limit.text ++ ")") ++
    ", chain_limit: " ++ toString c.chainLimit ++
    ", wrong_length_retry: " ++ toString c.wrongLengthRetry ++
    ", get_response: " ++ toString c.getResponse ++ " \x7d"

/-- A runner over a terminal with the given text, as a record in one line. -/
def runnerText (terminal : String) (c : Config) : String :=
  "SessionRunner \x7b terminal: " ++ terminal ++ ", config: " ++ c.text ++ ", .. \x7d"

end Config

end Runner

end SmartCard
