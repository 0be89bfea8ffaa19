import SmartCard.Layer
/-!
# Transports on a thread

A transport is a card under wrappers. Some wrappers are called and return the
answer, others return a future of it, and two of them lead from the one kind to
the other: `inline` runs a transport when its future is polled, and `waiting`
runs an executor on the calling thread until a future is done. A thread runs one
executor at a time, and one that is started inside another panics.

`Transport.call` is what comes of a call on a thread that runs an executor
already, or does not. What is inline never lets a future wait, so that the
executor polls it once. The wrappers can be listed as the layers of a stack
(`Transport.layers`), and as long as no executor is started inside another, a
call is the exchange of that stack.
-/

namespace SmartCard

/-- How the answer to a command is had. -/
inductive Style where
  /-- The call returns it. -/
  | blocking
  /-- The call returns a future of it. -/
  | awaited

/-- A card under wrappers. -/
inductive Transport : Style → Type where
  | card : Transport .blocking
  /-- Repeats a command once with the expected length that the card names. -/
  | wrongLength (inner : Transport .blocking) : Transport .blocking
  /-- Fetches the rest of a response in the standard way. -/
  | getResponse (limit : Nat) (inner : Transport .blocking) : Transport .blocking
  /-- Fetches the rest of a response in the proprietary way. -/
  | moreData (limit : Nat) (inner : Transport .awaited) : Transport .awaited
  /-- Runs a transport when the future is polled. -/
  | inline (inner : Transport .blocking) : Transport .awaited
  /-- Runs an executor until the future is done. -/
  | waiting (inner : Transport .awaited) : Transport .blocking
  /-- Passes on to a transport that is owned. -/
  | boxed (inner : Transport .blocking) : Transport .blocking
  /-- Passes on to a transport that is borrowed. -/
  | borrowed (inner : Transport .blocking) : Transport .blocking

namespace Exchange

variable {α σ : Type}

/-- The performance, with physical exchanges in front. -/
def Performance.following (p : Performance α σ) (earlier : List Physical) : Performance α σ :=
  { p with physical := earlier ++ p.physical }

/-- The performance of something that returned. -/
def Performance.returned (p : Performance α σ) : Performance (Option α) σ :=
  { p with result := some p.result }

/-- Carries an exchange out by calls that may panic. A panic breaks it off. -/
def carry (below : Bytes → σ → Performance (Option Reply) σ) :
    Exchange α → σ → Performance (Option α) σ
  | .done result, s => ⟨some result, [], s⟩
  | .transmit command resume, s =>
    let p := below command s
    match p.result with
    | none => ⟨none, p.physical, p.card⟩
    | some reply => ((resume reply).carry below p.card).following p.physical

end Exchange

namespace Transport

variable {σ : Type} {style : Style}

/-- **What comes of a call** of a transport over this card, on a thread that runs
an executor already, or does not. Without a result it panicked. A future counts
as called when it is polled. -/
def call (card : Card σ) {style : Style} :
    Transport style → Bool → Bytes → σ → Exchange.Performance (Option Reply) σ
  | .card, _, command, s => ((Exchange.once command).perform card s).returned
  | .wrongLength inner, executing, command, s =>
    (retryWrongLength command).carry (inner.call card executing) s
  | .getResponse limit inner, executing, command, s =>
    ((Layer.getResponse limit).exchange command).carry (inner.call card executing) s
  | .moreData limit inner, executing, command, s =>
    ((Layer.moreData limit).exchange command).carry (inner.call card executing) s
  | .waiting inner, executing, command, s =>
    if executing then ⟨none, [], s⟩ else inner.call card true command s
  | .inline inner, executing, command, s | .boxed inner, executing, command, s
  | .borrowed inner, executing, command, s => inner.call card executing command s

/-- The executors that a call starts one inside the other. -/
def waits {style : Style} : Transport style → Nat
  | .card => 0
  | .waiting inner => inner.waits + 1
  | .wrongLength inner | .getResponse _ inner | .moreData _ inner | .inline inner | .boxed inner
  | .borrowed inner => inner.waits

/-- A call starts an executor inside another. -/
def Nests (t : Transport style) (executing : Bool) : Prop :=
  1 < t.waits + executing.toNat

instance (t : Transport style) (executing : Bool) : Decidable (t.Nests executing) :=
  inferInstanceAs (Decidable (1 < t.waits + executing.toNat))

/-- The wrappers as the layers of a stack. -/
def layers {style : Style} : Transport style → Stack
  | .card => []
  | .wrongLength inner => inner.layers ++ [.wrongLength]
  | .getResponse limit inner => inner.layers ++ [.getResponse limit]
  | .moreData limit inner => inner.layers ++ [.moreData limit]
  | .inline inner => inner.layers
  | .waiting inner => inner.layers ++ [.bridge]
  | .boxed inner => inner.layers ++ [.boxed]
  | .borrowed inner => inner.layers ++ [.borrowed]

/-- What waits for a transport run inline. -/
def bridged (t : Transport .blocking) : Transport .blocking :=
  t.inline.waiting

end Transport

end SmartCard
