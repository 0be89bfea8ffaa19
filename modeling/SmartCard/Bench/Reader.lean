import SmartCard.Runner.Input
/-!
# Scripted readers

A reader for trials, into which cards are put and from which they are taken.
Its waits and connections can be made to fail, and the cards in it follow a
common script of replies.
-/

namespace SmartCard

namespace Bench

/-- What a card in a scripted reader does with a command. -/
inductive Reaction where
  | reply (reply : Reply)
  /-- Its driver panics. -/
  | panic (message : String)

/-- A reader with its script. -/
structure Reader where
  name : String
  atr : Bytes
  /-- The card in it, by its number. -/
  card : Option Nat := none
  /-- The number of cards put in so far. -/
  inserted : Nat := 0
  /-- Errors of the next waits, one for each. -/
  pollErrors : List ExchangeError := []
  /-- Errors of the next connections, one for each. -/
  connectErrors : List ExchangeError := []
  /-- What the cards do with the next commands. -/
  replies : List Reaction := []
  /-- The cards hold their answers back. -/
  held : Bool := false

namespace Reader

/-- Puts a new card in. -/
def insert (r : Reader) : Reader :=
  { r with card := some r.inserted, inserted := r.inserted + 1 }

/-- Takes the card out. -/
def remove (r : Reader) : Reader :=
  { r with card := none }

/-- Answers a wait for a card or for its absence, unless the wait goes on. -/
def presence (r : Reader) (present : Bool) : Option (Runner.Input × Reader) :=
  match r.pollErrors with
  | e :: rest => some (.presence (.error e), { r with pollErrors := rest })
  | [] => if r.card.isSome = present then some (.presence (.ok true), r) else none

/-- The protocol agreed on when one is asked for. -/
def agreed : Protocol → Protocol
  | .any => .t1
  | protocol => protocol

/-- Answers a request to connect. -/
def connect (r : Reader) (protocol : Protocol) : Runner.Input × Reader :=
  match r.connectErrors with
  | e :: rest => (.connection (.error e), { r with connectErrors := rest })
  | [] =>
    if r.card.isSome then
      (.connection (.ok { reader := r.name, atr := r.atr, protocol := agreed protocol }), r)
    else (.connection (.error (.transport .cardRemoved)), r)

/-- The card with a number answers a command, unless it holds the answer back. -/
def answer (r : Reader) (card : Nat) : Option (Runner.Input × Reader) :=
  if r.card = some card then
    if r.held then none
    else match r.replies with
      | [] => some (.reply (.ok [0x90, 0x00]), r)
      | .reply reply :: rest => some (.reply reply, { r with replies := rest })
      | .panic message :: rest => some (.panic message, { r with replies := rest })
  else some (.reply (.error (.transport .cardRemoved)), r)

end Reader

end Bench

end SmartCard
