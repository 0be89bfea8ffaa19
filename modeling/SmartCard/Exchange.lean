import SmartCard.Response
/-!
# Logical exchanges

One logical exchange may take several physical ones, each decided by the
answer to the one before. `Exchange` is such an exchange as data: it is
finished, or it transmits a command and goes on with the reply. It says
nothing about who answers. `perform` carries it out on a card, and `via`
carries out each of its transmissions by another logical exchange, which is
how layers are put on top of each other.

Layering a tree is the same as performing it on a layered card
(`perform_via_result`, `perform_via_card`), and the physical exchanges of
a sequence are those of its parts in order (`perform_bind`).
-/

namespace SmartCard

/-- A logical exchange with a result of type `α`. -/
inductive Exchange (α : Type) where
  /-- Nothing more is transmitted. -/
  | done (result : α)
  /-- The command is transmitted, and the reply decides how to go on. -/
  | transmit (command : Bytes) (resume : Reply → Exchange α)

/-- A card, or anything else that answers commands: it may change its state
with each of them and may answer whatever it likes. -/
abbrev Card (σ : Type) := Bytes → σ → Reply × σ

namespace Exchange

variable {α β σ : Type}

/-- The exchange of one command, whose reply is the result. -/
def once (command : Bytes) : Exchange Reply :=
  .transmit command .done

/-- Goes on with another exchange. -/
def bind : Exchange α → (α → Exchange β) → Exchange β
  | .done result, next => next result
  | .transmit command resume, next => .transmit command fun reply => (resume reply).bind next

/-- Every transmission is carried out by `inner`. -/
def via (inner : Bytes → Exchange Reply) : Exchange α → Exchange α
  | .done result => .done result
  | .transmit command resume => (inner command).bind fun reply => (resume reply).via inner

/-- A physical exchange as it took place. -/
structure Physical where
  command : Bytes
  reply : Reply

/-- A logical exchange as it took place on a card. -/
structure Performance (α σ : Type) where
  /-- The result of the logical exchange. -/
  result : α
  /-- The physical exchanges, in order. -/
  physical : List Physical
  /-- The card afterwards. -/
  card : σ

/-- The exchange with one physical exchange in front. -/
def Performance.after (p : Performance α σ) (first : Physical) : Performance α σ :=
  { p with physical := first :: p.physical }

/-- Carries an exchange out on a card. -/
def perform (card : Card σ) : Exchange α → σ → Performance α σ
  | .done result, s => ⟨result, [], s⟩
  | .transmit command resume, s =>
    let answer := card command s
    ((resume answer.1).perform card answer.2).after ⟨command, answer.1⟩

/-- A card under a logical exchange for each command is a card again. -/
def asCard (exchange : Bytes → Exchange Reply) (card : Card σ) : Card σ := fun command s =>
  let p := (exchange command).perform card s
  (p.result, p.card)

/-! ## Replies so far -/

/-- What is left of an exchange after these replies. -/
def feed : Exchange α → List Reply → Exchange α
  | x, [] => x
  | .done result, _ :: _ => .done result
  | .transmit _ resume, reply :: replies => (resume reply).feed replies

@[simp] theorem feed_nil (x : Exchange α) : x.feed [] = x := by
  cases x <;> rfl

/-- One more reply decides how to go on. -/
theorem feed_concat {x : Exchange α} {replies : List Reply} {command : Bytes}
    {resume : Reply → Exchange α} (h : x.feed replies = .transmit command resume) (reply : Reply) :
    x.feed (replies ++ [reply]) = resume reply := by
  induction replies generalizing x with
  | nil =>
    rw [feed_nil] at h
    rw [h, List.nil_append, feed, feed_nil]
  | cons first replies ih =>
    cases x with
    | done result => cases h
    | transmit command' resume' => exact ih h

/-! ## Laws of going on and of layering -/

/-- Going on with nothing changes nothing. -/
theorem bind_done (x : Exchange α) : x.bind .done = x := by
  induction x with
  | done result => rfl
  | transmit command resume ih => simp only [bind, ih]

/-- A layer that passes every command on changes nothing. -/
theorem via_once (x : Exchange α) : x.via once = x := by
  induction x with
  | done result => rfl
  | transmit command resume ih => simp only [via, once, bind, ih]

/-! ## Laws of performing -/

/-- **A sequence is performed part by part**: the second part starts on the
card that the first one left, and the physical exchanges stand in order. -/
theorem perform_bind (card : Card σ) (x : Exchange α) (f : α → Exchange β) (s : σ) :
    (x.bind f).perform card s =
      let p := x.perform card s
      let q := (f p.result).perform card p.card
      ⟨q.result, p.physical ++ q.physical, q.card⟩ := by
  induction x generalizing s with
  | done result => rfl
  | transmit command resume ih =>
    simp only [bind, perform, ih, Performance.after, List.cons_append]

/-- Layering an exchange has the result of performing it on the layered card. -/
theorem perform_via_result (card : Card σ) (inner : Bytes → Exchange Reply) (x : Exchange α)
    (s : σ) :
    ((x.via inner).perform card s).result = (x.perform (asCard inner card) s).result := by
  induction x generalizing s with
  | done result => rfl
  | transmit command resume ih =>
    simp only [via, perform_bind, perform, Performance.after, asCard, ih]

/-- Layering an exchange leaves the card as performing it on the layered card does. -/
theorem perform_via_card (card : Card σ) (inner : Bytes → Exchange Reply) (x : Exchange α)
    (s : σ) :
    ((x.via inner).perform card s).card = (x.perform (asCard inner card) s).card := by
  induction x generalizing s with
  | done result => rfl
  | transmit command resume ih =>
    simp only [via, perform_bind, perform, Performance.after, asCard, ih]

end Exchange

end SmartCard
