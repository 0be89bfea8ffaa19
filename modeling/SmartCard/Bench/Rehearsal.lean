import SmartCard.Runner.Machine
import SmartCard.Rendezvous.Handle
import SmartCard.Bench.Reader
/-!
# Rehearsals of a runner

A runner over a scripted reader, with a scripted application. After each
thing that is done to it, every thread goes on as far as it can without
waiting (`Rehearsal.settle`): waits end when something has changed or when
they were interrupted, and time passes only for those who ask to wait
longer. All that happens is moves of the machine.
-/

namespace SmartCard

namespace Bench

open Runner (Machine Input)

/-- What the application does with its start request. -/
inductive StartAnswer where
  | resolve (parameters : Parameters)
  | abandon
  /-- It keeps the request. -/
  | defer

/-- A kind of callback. -/
inductive Callback where
  | start
  | present
  | removed
  | failed
deriving DecidableEq

/-- The callback of an event. -/
def Callback.of : Event → Callback
  | .start => .start
  | .cardPresent _ _ => .present
  | .cardRemoved => .removed
  | .failed _ => .failed

/-- A scripted application. -/
structure Application where
  start : StartAnswer
  /-- The callbacks that it leaves as they are, without keeping what it was told. -/
  plain : List Callback := []
  /-- The callbacks of its own that panic. -/
  panics : List Callback := []

/-- A callback panics: it is one of the application's own, and is meant to. -/
def Application.panicsAt (a : Application) (callback : Callback) : Bool :=
  a.panics.contains callback && !a.plain.contains callback

/-- A runner on the bench. -/
structure Rehearsal where
  machine : Machine
  reader : Reader
  application : Application
  /-- For each session, the number of its card. -/
  cards : List Nat := []
  /-- The number of callbacks taken note of. -/
  noted : Nat := 0

namespace Rehearsal

/-- Makes moves, if all of them are possible. -/
def play (r : Rehearsal) (moves : List Machine.Move) : Option Rehearsal :=
  (r.machine.run moves).map fun machine => { r with machine }

/-! ## What moves next -/

/-- The delivery of an event, and what the application does about it. -/
def delivery (r : Rehearsal) : Option Rehearsal :=
  match r.machine.events[r.machine.delivered]? with
  | none => none
  | some event =>
    let panics := r.application.panicsAt (.of event)
    let reaction : List Machine.Move :=
      if event = .start ∧ ¬ panics then
        match r.application.start with
        | .resolve p => [.resolve p]
        | .abandon => [.abandon]
        | .defer => []
      else []
    r.play (.deliver panics :: reaction)

/-- The end of a wait that has a deadline. -/
def expiry (r : Rehearsal) (deadline : Nat) : List Machine.Move :=
  [.tick (deadline - r.machine.clock), .runner (.wake .timedOut)]

/-- What the runner's thread does next, with the reader afterwards. -/
def runnerMoves (r : Rehearsal) : Option (List Machine.Move × Reader) :=
  let go (answer : Option (Input × Reader)) : Option (List Machine.Move × Reader) :=
    answer.map fun (input, reader) => ([.runner input], reader)
  let m := r.machine
  match m.point with
  | .receiving deadline =>
    if m.start.receive.1 = .waiting then
      if m.interrupted then some (r.expiry deadline, r.reader) else none
    else go (some (.go, r.reader))
  | .attempting _ (.waiting present) =>
    if m.interrupted then go (some (.presence (.ok false), r.reader))
    else go (r.reader.presence present)
  | .attempting p .connecting => go (some (r.reader.connect p.protocol))
  | .attempting _ (.resting deadline .asleep) => some (r.expiry deadline, r.reader)
  | .serving _ { session, stage, .. } =>
    match stage with
    | .hiring => go (some (.spawned none, r.reader))
    | .asleep deadline =>
      match (m.handle? session).map Rendezvous.slot with
      | some (.requested _ _) | some .closed => go (some (.wake .notified, r.reader))
      | _ => if m.interrupted then some (r.expiry deadline, r.reader) else none
    | .exchanging (.transmit _ _) => go ((r.cards[session]?).bind r.reader.answer)
    | _ => go (some (.go, r.reader))
  | _ => go (some (.go, r.reader))

/-- The next step of the runner's thread. A new session is one of the card
that is in the reader. -/
def runnerStep (r : Rehearsal) : Option Rehearsal :=
  match r.runnerMoves with
  | none => none
  | some (moves, reader) =>
    ({ r with reader }.play moves).map fun (next : Rehearsal) =>
      if next.machine.sessions.length = r.machine.sessions.length then next
      else { next with cards := next.cards ++ r.reader.card.toList }

/-- The next step of the watch of a session. -/
def watchStep (r : Rehearsal) (session : Nat) : Option Rehearsal :=
  match r.machine.sessions[session]? with
  | none => none
  | some sitting =>
    match sitting.watch with
    | none => none
    | some watch =>
      if watch.point = .polling then
        if watch.interrupted ∨ sitting.session.isConcluded then
          r.play [.watch session (.presence (.ok false))]
        else match r.reader.presence false with
          | none => none
          | some (input, reader) => { r with reader }.play [.watch session input]
      else r.play [.watch session .go]

/-- The next step of somebody. -/
def next (r : Rehearsal) : Option Rehearsal :=
  r.delivery.or <| r.runnerStep.or <|
    (List.range r.machine.sessions.length).findSome? r.watchStep

/-- So many steps, or as many as there are. -/
def steps : Nat → Rehearsal → Rehearsal
  | 0, r => r
  | n + 1, r =>
    match r.next with
    | none => r
    | some r => steps n r

/-- Everybody goes on as far as possible. A rehearsal gets through its script
in far fewer steps than it is given here. -/
def settle (r : Rehearsal) : Rehearsal :=
  r.steps 1000000

/-- A rehearsal at its start. -/
def begin (config : Runner.Config) (reader : Reader) (application : Application) : Rehearsal :=
  settle { machine := .initial config reader.name, reader, application }

/-! ## Passing time -/

/-- Lets time pass until a session has been idle for too long, if that is
within so many nanoseconds. -/
def pass (r : Rehearsal) (nanos : Nat) : Option Rehearsal :=
  match r.machine.point, r.machine.config.idleTimeout with
  | .serving _ { stage := .asleep _, idleSince, .. }, some limit =>
    let wait := idleSince + limit.nanos - r.machine.clock
    if wait ≤ nanos then
      (r.play [.tick wait, .runner (.wake .timedOut)]).map settle
    else none
  | _, _ => none

/-- Lets so many nanoseconds pass in which nothing happens. -/
def elapse (r : Rehearsal) (nanos : Nat) : Rehearsal :=
  (r.play [.tick nanos]).getD r

/-- Waits for something for so many nanoseconds. A wait in vain takes all of
them. -/
def await {α : Type} (r : Rehearsal) (nanos : Nat) (seen : Rehearsal → Option α) :
    Option α × Rehearsal :=
  match seen r with
  | some a => (some a, r)
  | none =>
    match r.pass nanos with
    | none => (none, r.elapse nanos)
    | some r => (seen r, r)

/-- How long a wait lasts whose length nobody chose. -/
def patience : Nat := 5000000000

/-! ## What a trial does -/

/-- Changes the reader. -/
def onReader (r : Rehearsal) (change : Reader → Reader) : Rehearsal :=
  settle { r with reader := change r.reader }

/-- The callbacks so far that the application kept. -/
def callbacks (r : Rehearsal) : List Event :=
  (r.machine.events.take r.machine.delivered).filter fun event =>
    !r.application.plain.contains (.of event)

/-- The next callback. -/
def awaitCallback (r : Rehearsal) : Option Event × Rehearsal :=
  match r.await patience fun r => r.callbacks[r.noted]? with
  | (some event, r) => (some event, { r with noted := r.noted + 1 })
  | (none, r) => (none, r)

/-- The callbacks that nobody took note of. -/
def unnoted (r : Rehearsal) : List Event :=
  r.callbacks.drop r.noted

/-- Waits for a state. -/
def awaitState (r : Rehearsal) (nanos : Nat) (state : Runner.State) : Bool × Rehearsal :=
  let seen := r.await nanos fun r => if r.machine.state = state then some () else none
  (seen.1.isSome, seen.2)

/-- Waits until so many commands have reached the cards. -/
def awaitCommands (r : Rehearsal) (count : Nat) : Bool × Rehearsal :=
  let seen := r.await patience fun r =>
    if count ≤ r.machine.commands.length then some () else none
  (seen.1.isSome, seen.2)

/-- Waits until the runner's thread is gone. -/
def awaitFinish (r : Rehearsal) : Bool × Rehearsal :=
  let seen := r.await patience fun r => if r.machine.isFinished then some () else none
  (seen.1.isSome, seen.2)

/-- The session behind a handle still takes commands. -/
def isActive (r : Rehearsal) (session : Nat) : Bool :=
  (r.machine.handle? session).any fun rendezvous => !rendezvous.isClosed

/-- Publishes a command through a handle. -/
def publish (r : Rehearsal) (session : Nat) (command : Bytes) :
    Except SessionError Ticket × Rehearsal :=
  match r.machine.handle? session, r.play [.publish session command] with
  | some rendezvous, some next => ((rendezvous.publish command).1, next.settle)
  | _, _ => (.error .noSession, r)

/-- The answer to a ticket, if there is one. -/
def answer? (r : Rehearsal) (session : Nat) (ticket : Ticket) : Option Answer :=
  (r.machine.handle? session).bind fun rendezvous => rendezvous.poll ticket

/-- Waits for the answer to a ticket. -/
def awaitAnswer (r : Rehearsal) (session : Nat) (ticket : Ticket) : Option Answer × Rehearsal :=
  r.await patience fun r => r.answer? session ticket

/-- Publishes a command and waits for its answer. An answer that does not
come counts as cancelled. -/
def exchange (r : Rehearsal) (session : Nat) (command : Bytes) : Answer × Rehearsal :=
  match r.publish session command with
  | (.error e, r) => (.error e, r)
  | (.ok ticket, r) =>
    let answer := r.awaitAnswer session ticket
    (answer.1.getD (.error .cancelled), answer.2)

/-- A handle is a card to the layers over it. -/
def handleCard (session : Nat) : Card Rehearsal := fun command r =>
  let answer := r.exchange session command
  (answer.1.toReply, answer.2)

/-- A command through layers over a handle. -/
def transport (r : Rehearsal) (session : Nat) (stack : Stack) (command : Bytes) :
    Reply × Rehearsal :=
  Exchange.asCard stack.exchange (handleCard session) command r

/-- The application answers the start request that it kept, if it has one. -/
def resolve (r : Rehearsal) (p : Parameters) : Option Rehearsal :=
  (r.play [.resolve p]).map settle

/-- The application drops the start request that it kept, if it has one. -/
def abandon (r : Rehearsal) : Option Rehearsal :=
  (r.play [.abandon]).map settle

/-- Waits for the runner and asks how it finished. -/
def join (r : Rehearsal) : Option (Except TaskError Runner.Exit) × Rehearsal :=
  r.await patience fun r => r.machine.exit?

/-- Stops the runner and asks how it finished. -/
def stop (r : Rehearsal) : Option (Except TaskError Runner.Exit) × Rehearsal :=
  match r.play [.stop] with
  | none => r.join
  | some r => ((r.play [.raise]).getD r).settle.join

end Rehearsal

end Bench

end SmartCard
