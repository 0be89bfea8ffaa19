import SmartCard.Session
import SmartCard.Task
import SmartCard.Runner.Input
/-!
# The removal watch

While a session is open, a watch polls the reader on a thread of its own
until the card has left, and then concludes the session. It stops when the
session is concluded by somebody else, or when its interrupt is raised.
-/

namespace SmartCard

namespace Runner

/-- Where a watch stands. -/
inductive Watch.Point where
  /-- It is about to see whether the session is concluded. -/
  | checking
  /-- It is about to look at its interrupt. -/
  | heeding
  /-- It waits for the reader. -/
  | polling
  /-- It concludes the session. -/
  | concluding (call : Conclusion)
  /-- It is done, and its thread is about to go. -/
  | leaving
  /-- Its thread is gone. -/
  | gone
deriving DecidableEq

/-- A watch with its thread. -/
structure Watch where
  status : Task.Status := .running
  interrupted : Bool := false
  point : Watch.Point := .checking
deriving DecidableEq

/-- The outcome that a watch gives its session for an answer of the reader;
none while the card is there. -/
def Watch.outcome? : Except ExchangeError Bool → Option Outcome
  | .ok false => none
  | .ok true => some .removed
  | .error e => some (if e.isCardRemoved then .removed else .fault (.transport e))

/-- The next step of a watch of a session: both afterwards, and the events
queued. There is none while the watch waits. -/
def Watch.advance (w : Watch) (s : Session) (input : Input) :
    Option (Watch × Session × List Event) :=
  match w.point, input with
  | .checking, .go =>
    if s.latched then none
    else some ({ w with point := if s.isConcluded then .leaving else .heeding }, s, [])
  | .heeding, .go =>
    some ({ w with point := if w.interrupted then .leaving else .polling }, s, [])
  | .polling, .presence answer =>
    match Watch.outcome? answer with
    | none => some ({ w with point := .checking }, s, [])
    | some outcome => some ({ w with point := .concluding (.seeking outcome) }, s, [])
  | .concluding call, .go =>
    match s.advance call with
    | none => none
    | some (s, .returned _, queued) => some ({ w with point := .checking }, s, queued)
    | some (s, call, queued) => some ({ w with point := .concluding call }, s, queued)
  | .leaving, .go => some ({ w with point := .gone, status := w.status.complete }, s, [])
  | _, _ => none

end Runner

end SmartCard
