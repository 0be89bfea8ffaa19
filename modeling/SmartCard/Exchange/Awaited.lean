import SmartCard.Exchange
/-!
# Exchanges that are waited for

An asynchronous card takes a command at once and answers it later: every poll
shows whether the answer is there. An exchange over such a card is a `Future`.
It does nothing until it is polled, and then goes as far as the answers that
are there take it.

A card that answers at once is made into one by `AsyncCard.inline`, which runs
the card when the answer is looked for. A future over it is done at its first
poll, and has done what the exchange does on the card itself (`poll_inline`).
-/

namespace SmartCard

variable {α σ : Type}

/-- A card whose answers are waited for. -/
structure AsyncCard (σ : Type) where
  /-- Takes a command. -/
  submit : Bytes → σ → σ
  /-- Shows the answer to the command taken last, if it is there. -/
  poll : σ → Option Reply × σ

/-- A card that is run when its answer is looked for. -/
def AsyncCard.inline (card : Card σ) : AsyncCard (Option Bytes × σ) where
  submit command s := (some command, s.2)
  poll
    | (none, s) => (none, (none, s))
    | (some command, s) => (some (card command s).1, (none, (card command s).2))

/-- An exchange over an asynchronous card that has not finished. -/
inductive Future (α : Type) where
  /-- What comes next has not been tried yet. -/
  | ready (exchange : Exchange α)
  /-- The command submitted last is not answered yet. -/
  | awaiting (resume : Reply → Exchange α)

namespace Future

/-- Goes on until an answer is not there yet or the exchange is done. -/
def advance (card : AsyncCard σ) : Exchange α → σ → (α ⊕ Future α) × σ
  | .done result, s => (.inl result, s)
  | .transmit command resume, s =>
    match card.poll (card.submit command s) with
    | (none, s) => (.inr (.awaiting resume), s)
    | (some reply, s) => advance card (resume reply) s

/-- One poll. -/
def poll (card : AsyncCard σ) : Future α → σ → (α ⊕ Future α) × σ
  | .ready exchange, s => advance card exchange s
  | .awaiting resume, s =>
    match card.poll s with
    | (none, s) => (.inr (.awaiting resume), s)
    | (some reply, s) => advance card (resume reply) s

/-- **A future over an inline card is done at its first poll**, with the result of
the exchange on the card, which it leaves as the exchange does. -/
theorem poll_inline (card : Card σ) (x : Exchange α) (s : σ) :
    (ready x).poll (.inline card) (none, s) =
      (.inl (x.perform card s).result, (none, (x.perform card s).card)) := by
  change advance (.inline card) x (none, s) = _
  induction x generalizing s with
  | done result => rfl
  | transmit command resume ih => exact ih (card command s).1 (card command s).2

end Future

end SmartCard
