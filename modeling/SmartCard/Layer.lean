import SmartCard.Chain
/-!
# Layers over a card

A layer hides one continuation protocol, so that a logical exchange looks
like a physical one. Layers keep nothing between exchanges, and `Stack.exchange`
is the exchange that a whole stack makes of one command, if its call returns.
A stack in which one layer waits inside another has no such call: that is said
where layers are called, of `Transport`.
-/

namespace SmartCard

/-- Transmits a command and, if the answer asks for another expected length,
once more with that length. The second answer counts as it is. -/
def retryWrongLength (command : Bytes) : Exchange Reply :=
  .transmit command fun
    | .error e => .done (.error e)
    | .ok raw =>
      match Response.decode raw with
      | .error e => .done (.error e)
      | .ok first =>
        if first.status.sw1 ≠ StatusWord.wrongLeSw1 then .done (.ok raw)
        else match Command.decode command with
          | .error e =>
            .done (.error (e.withContext "Failed to rebuild command for wrong length retry"))
          | .ok c =>
            .transmit (c.withLe first.status.announced).encode fun
              | .error e => .done (.error (e.withContext "Wrong length retry failed"))
              | .ok second =>
                match Response.decode second with
                | .error e => .done (.error e)
                | .ok _ => .done (.ok second)

/-- A layer of a stack. -/
inductive Layer where
  /-- Repeats a command once with the expected length that the card names. -/
  | wrongLength
  /-- Fetches the rest of a response in the standard way. -/
  | getResponse (limit : Nat)
  /-- Fetches the rest of a response in the proprietary way. -/
  | moreData (limit : Nat)
  /-- Waits for an exchange that runs at once. -/
  | bridge
  /-- Passes on to a card that is owned. -/
  | boxed
  /-- Passes on to a card that is borrowed. -/
  | borrowed
deriving DecidableEq

namespace Layer

/-- What a layer makes of one command. -/
def exchange : Layer → Bytes → Exchange Reply
  | .wrongLength => retryWrongLength
  | .getResponse limit =>
    Chain.exchange "Failed to transmit GET RESPONSE command" StatusWord.moreDataSw1 limit
  | .moreData limit =>
    Chain.exchange "Failed to submit continuation command" StatusWord.proprietarySw1 limit
  | .bridge | .boxed | .borrowed => Exchange.once

/-- The bound of a standard chain layer. -/
def getResponseLimit? : Layer → Option Nat
  | .getResponse limit => some limit
  | _ => none

end Layer

/-- Layers over a card, the innermost first. -/
abbrev Stack := List Layer

namespace Stack

/-- What a stack over an inner exchange makes of one command: each layer has
its transmissions carried out by the layers below it. -/
def via (inner : Bytes → Exchange Reply) (stack : Stack) : Bytes → Exchange Reply :=
  stack.foldl (fun below layer command => (layer.exchange command).via below) inner

/-- What a stack makes of one command. -/
def exchange (stack : Stack) : Bytes → Exchange Reply :=
  stack.via Exchange.once

/-- The layers above stand on what the layers below make of a command. -/
theorem via_append (inner : Bytes → Exchange Reply) (below above : Stack) :
    Stack.via inner (below ++ above) = Stack.via (Stack.via inner below) above :=
  List.foldl_append

/-- The outermost layer has its transmissions carried out by all the others. -/
theorem exchange_concat (below : Stack) (outermost : Layer) (command : Bytes) :
    Stack.exchange (below ++ [outermost]) command =
      (outermost.exchange command).via below.exchange := by
  rw [exchange, via_append]
  rfl

end Stack

end SmartCard
