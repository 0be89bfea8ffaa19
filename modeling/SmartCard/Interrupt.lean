import SmartCard.TaskError
/-!
# Interrupts

A worker looks at its interrupt to learn that it should stop, and can sleep
until it is raised. A raised interrupt stays raised. Tokens that were cloned
from each other share one interrupt, so raising any of them raises all.

A sleep looks at the interrupt under its lock, waits, and looks again each
time it is woken, whether by a change, by its deadline, or by nothing at
all. `Sleep` is where it stands. Raising an interrupt wakes all who wait for
it, under the same lock.
-/

namespace SmartCard

/-- Why a waiting thread wakes up. -/
inductive Wake where
  /-- Something may have changed. -/
  | notified
  /-- The deadline has passed. -/
  | timedOut
deriving DecidableEq

namespace Interrupt

/-- Looks at an interrupt once: a raised one means to stop. -/
def check (raised : Bool) : Except TaskError Unit :=
  if raised then .error .cancelled else .ok ()

/-- Where a thread stands that sleeps until it is interrupted. -/
inductive Sleep where
  /-- It is about to look for the first time. -/
  | entering
  /-- It waits. -/
  | asleep
  /-- It was woken, and is about to look again. -/
  | woken (wake : Wake)
  /-- It is over. -/
  | ended (result : Except TaskError Unit)

namespace Sleep

/-- A waiting thread is woken. -/
def wake (s : Sleep) (w : Wake) : Sleep :=
  match s with
  | .asleep => .woken w
  | s => s

/-- The thread's own next step, for an interrupt that is raised or not. -/
def step (raised : Bool) : Sleep → Sleep
  | .entering => if raised then .ended (check raised) else .asleep
  | .asleep => .asleep
  | .woken .notified => if raised then .ended (check raised) else .asleep
  | .woken .timedOut => .ended (check raised)
  | .ended result => .ended result

end Sleep

end Interrupt

/-- A family of tokens, some of which share an interrupt, and the threads that
sleep on them. -/
structure Interrupts where
  /-- For each interrupt, whether it is raised. -/
  raised : List Bool := []
  /-- For each token, the number of its interrupt. -/
  tokens : List Nat := []
  /-- The sleeping threads, each with its token. -/
  sleepers : List (Nat × Interrupt.Sleep) := []

namespace Interrupts

/-- A new token with an interrupt of its own. -/
def fresh (i : Interrupts) : Interrupts :=
  { i with raised := i.raised ++ [false], tokens := i.tokens ++ [i.raised.length] }

/-- A new token with the interrupt of another one. -/
def clone (i : Interrupts) (token : Nat) : Interrupts :=
  match i.tokens[token]? with
  | some interrupt => { i with tokens := i.tokens ++ [interrupt] }
  | none => i

/-- The interrupt of the token is raised. -/
def isRaised (i : Interrupts) (token : Nat) : Bool :=
  ((i.tokens[token]?).bind fun interrupt => i.raised[interrupt]?).getD false

/-- A thread that sleeps on a token of this interrupt is woken. -/
def notified (i : Interrupts) (interrupt : Nat) :
    Nat × Interrupt.Sleep → Nat × Interrupt.Sleep
  | (token, s) => (token, if i.tokens[token]? = some interrupt then s.wake .notified else s)

/-- Raises the interrupt of a token, and wakes all who sleep on it. -/
def raise (i : Interrupts) (token : Nat) : Interrupts :=
  match i.tokens[token]? with
  | some interrupt =>
    { i with
      raised := i.raised.set interrupt true
      sleepers := i.sleepers.map (i.notified interrupt) }
  | none => i

/-- Looks at the interrupt of a token. -/
def check (i : Interrupts) (token : Nat) : Except TaskError Unit :=
  Interrupt.check (i.isRaised token)

/-- A thread starts to sleep on a token. -/
def sleep (i : Interrupts) (token : Nat) : Interrupts :=
  match i.tokens[token]? with
  | some _ => { i with sleepers := i.sleepers ++ [(token, .entering)] }
  | none => i

/-- Changes the thread with this number. -/
def onSleeper (i : Interrupts) (number : Nat)
    (change : Nat → Interrupt.Sleep → Interrupt.Sleep) : Interrupts :=
  match i.sleepers[number]? with
  | some (token, s) => { i with sleepers := i.sleepers.set number (token, change token s) }
  | none => i

/-- The thread with this number takes its next step. -/
def step (i : Interrupts) (number : Nat) : Interrupts :=
  i.onSleeper number fun token s => s.step (i.isRaised token)

/-- The thread with this number is woken. -/
def wake (i : Interrupts) (number : Nat) (w : Wake) : Interrupts :=
  i.onSleeper number fun _ s => s.wake w

/-- What the sleep of the thread with this number came to, if it is over. -/
def slept? (i : Interrupts) (number : Nat) : Option (Except TaskError Unit) :=
  match i.sleepers[number]? with
  | some (_, .ended result) => some result
  | _ => none

/-- A sleep on a token during which others may act, and which then runs out. -/
def sleepThrough (i : Interrupts) (token : Nat) (meanwhile : Interrupts → Interrupts) :
    Except TaskError Unit × Interrupts :=
  let number := i.sleepers.length
  let asleep := (i.sleep token).step number
  let woken := ((meanwhile asleep).wake number .notified).step number
  let timed := (woken.wake number .timedOut).step number
  ((timed.slept? number).getD (.ok ()), timed)

/-- An action on the family. -/
inductive Action where
  | fresh
  | clone (token : Nat)
  | raise (token : Nat)
  | sleep (token : Nat)
  | step (sleeper : Nat)
  | wake (sleeper : Nat) (wake : Wake)

/-- The family after an action. Looking at an interrupt changes nothing. -/
def apply (i : Interrupts) : Action → Interrupts
  | .fresh => i.fresh
  | .clone token => i.clone token
  | .raise token => i.raise token
  | .sleep token => i.sleep token
  | .step sleeper => i.step sleeper
  | .wake sleeper w => i.wake sleeper w

/-- Actions in order. -/
def run (i : Interrupts) (actions : List Action) : Interrupts :=
  actions.foldl apply i

end Interrupts

end SmartCard
