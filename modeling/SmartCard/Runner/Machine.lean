import SmartCard.Runner.Config
import SmartCard.Runner.Point
import SmartCard.Runner.Watch
/-!
# The runner as a machine

`Machine` is everything that a runner, its watches, its application and
whoever stops it can see of each other, with the point at which each thread
stands. A `Move` is one atomic step of one of them, together with what it
gets from outside: the answers of the reader and of the card, the passing of
time, the decisions of the application. `Machine.step` says what a move
does, and has no result where the move is not possible. So a list of moves
is an interleaving, and what holds after every possible list holds of every
run.

The logs of a machine only grow: the states entered, the events queued, the
calls made to the reader, and for each session the commands accepted, taken
and sent.
-/

namespace SmartCard

namespace Runner

/-- What the runner's own thread did with the reader. -/
inductive Call where
  /-- It waited for a card, or for its absence. -/
  | presence (present : Bool) (answer : Except ExchangeError Bool)
  /-- It connected with a protocol. -/
  | connect (protocol : Protocol) (answer : Except ExchangeError CardData)
  /-- It paused. -/
  | rest

/-- A command that was taken from the application and given to the layers. -/
structure Transmission where
  ticket : Ticket
  command : Bytes
  /-- What the card replied so far, oldest first. -/
  replies : List Reply := []
  /-- What the layers returned, once they have. -/
  result : Option Reply := none

/-- A session with its watch and its logs. -/
structure Sitting where
  session : Session
  watch : Option Watch := none
  /-- The commands accepted from clients. -/
  accepted : List Bytes := []
  /-- The commands taken from the application. -/
  transmissions : List Transmission := []
  /-- The commands sent to the card. -/
  sent : List Bytes := []

namespace Sitting

/-- Changes the rendezvous. -/
def onRendezvous (x : Sitting) (change : Rendezvous → Rendezvous) : Sitting :=
  { x with session := { x.session with rendezvous := change x.session.rendezvous } }

/-- A client publishes a command. -/
def publish (x : Sitting) (command : Bytes) : Sitting :=
  match x.session.rendezvous.publish command with
  | (.ok _, r) =>
    { x.onRendezvous fun _ => r with accepted := x.accepted ++ [command] }
  | (.error _, r) => x.onRendezvous fun _ => r

/-- A command was taken, which left the rendezvous so. -/
def take (x : Sitting) (command : Bytes) (r : Rendezvous) : Sitting :=
  { x.onRendezvous fun _ => r with
    transmissions := x.transmissions ++
      r.slot.ticket?.toList.map fun ticket => { ticket, command } }

/-- The command that an exchange asks for next is sent. -/
def send (x : Sitting) : Exchange Reply → Sitting
  | .done _ => x
  | .transmit command _ => { x with sent := x.sent ++ [command] }

/-- Changes the log of the command that was taken last. -/
def onLast (x : Sitting) (change : Transmission → Transmission) : Sitting :=
  { x with
    transmissions := x.transmissions.dropLast ++ (x.transmissions.getLast?.map change).toList }

/-- The card replied. -/
def hear (x : Sitting) (reply : Reply) : Sitting :=
  x.onLast fun t => { t with replies := t.replies ++ [reply] }

/-- The layers returned. -/
def settle (x : Sitting) (result : Reply) : Sitting :=
  x.onLast fun t => { t with result := some result }

end Sitting

/-- A runner with all that surrounds it. -/
structure Machine where
  config : Config
  /-- The start request and its channel. -/
  start : StartRequest
  /-- The time, in nanoseconds. -/
  clock : Nat := 0
  /-- What has become of the runner's task. -/
  task : Task.Status := .running
  /-- Stops that have won and not raised the interrupt yet. -/
  raising : Nat := 0
  /-- The runner's interrupt is raised. -/
  interrupted : Bool := false
  /-- The state that the runner shows. -/
  state : State := .starting
  point : Point := .opening
  sessions : List Sitting := []
  /-- The states entered, oldest first. -/
  states : List State := []
  /-- The events queued, oldest first. -/
  events : List Event := []
  /-- The number of events delivered. -/
  delivered : Nat := 0
  /-- The calls of the runner's thread to the reader, oldest first. -/
  calls : List Call := []

namespace Machine

/-- A runner that is about to start. -/
def initial (config : Config) (reader : String) : Machine :=
  { config, start := { reader } }

/-- Shows a state. Showing the present one again is no change. -/
def enter (m : Machine) (state : State) : Machine :=
  if m.state = state then m else { m with state, states := m.states ++ [state] }

/-- Queues events. -/
def queue (m : Machine) (events : List Event) : Machine :=
  { m with events := m.events ++ events }

/-- Logs a call to the reader. -/
def log (m : Machine) (call : Call) : Machine :=
  { m with calls := m.calls ++ [call] }

/-- The runner's thread goes to a point. -/
def goto (m : Machine) (point : Point) : Machine :=
  { m with point }

/-- Changes one session. -/
def onSitting (m : Machine) (number : Nat) (change : Sitting → Sitting) : Machine :=
  { m with sessions := m.sessions.modify number change }

/-! ## Getting a card -/

/-- The next step of a runner that tries to get a card. -/
def attempt (m : Machine) (p : Parameters) : Attempt → Input → Option Machine
  | .arriving, .go =>
    if p.touchRequired then
      some ((m.enter .waitAbsent).goto (.attempting p (.polling false)))
    else some ((m.enter .waitPresent).goto (.attempting p (.polling true)))
  | .cleared, .go => some ((m.enter .waitPresent).goto (.attempting p (.polling true)))
  | .polling present, .go =>
    if m.interrupted then some (m.goto (.stopping .cancelled))
    else some (m.goto (.attempting p (.waiting present)))
  | .waiting present, .presence answer =>
    let m := m.log (.presence present answer)
    match answer with
    | .ok true => some (m.goto (.attempting p (if present then .found else .cleared)))
    | .ok false => some (m.goto (.attempting p (.polling present)))
    | .error e => some (m.goto (.stopping (.fault (.transport e))))
  | .found, .go => some ((m.enter .connecting).goto (.attempting p .connecting))
  | .connecting, .connection answer =>
    let m := m.log (.connect p.protocol answer)
    match answer with
    | .ok card =>
      some { m with
        sessions := m.sessions ++ [{ session := { card } }]
        point := .serving p { session := m.sessions.length } }
    | .error e =>
      if e.isCardRemoved then
        match Instant.after? m.clock m.config.pollInterval.nanos with
        | some deadline => some (m.goto (.attempting p (.resting deadline .entering)))
        | none => some (m.goto (.ending (.panicked (some Instant.overflow))))
      else some (m.goto (.stopping (.fault (.ofExchange e))))
  | .resting deadline .asleep, .wake wake =>
    if wake = .timedOut ∧ m.clock < deadline then none
    else some (m.goto (.attempting p (.resting deadline (.woken wake))))
  | .resting _ .asleep, .go => none
  | .resting deadline sleep, .go =>
    match sleep.step m.interrupted with
    | .ended (.ok _) => some ((m.log .rest).goto (.attempting p .arriving))
    | .ended (.error _) => some (m.goto (.stopping .cancelled))
    | sleep => some (m.goto (.attempting p (.resting deadline sleep)))
  | _, _ => none

/-! ## Serving a session -/

/-- How long a session that has been idle for so long may wait for a command;
none when it has been idle for too long. -/
def slice (c : Config) (idle : Nat) : Option Nat :=
  match c.idleTimeout with
  | none => some c.pollInterval.nanos
  | some limit =>
    if limit.nanos ≤ idle then none else some (min (limit.nanos - idle) c.pollInterval.nanos)

/-- The runner's thread goes on with an exchange, after a change of its
session. A command that the exchange asks for is sent. -/
def exchanging (m : Machine) (p : Parameters) (s : Service) (rest : Exchange Reply)
    (change : Sitting → Sitting) : Machine :=
  (m.onSitting s.session fun sitting => (change sitting).send rest).goto
    (.serving p { s with stage := .exchanging rest })

/-- The runner's thread looks for a command. Without one it waits, unless its
time is over. -/
def look (m : Machine) (p : Parameters) (s : Service) (deadline : Nat) (timedOut : Bool)
    (sitting : Sitting) : Machine :=
  match sitting.session.rendezvous.next with
  | (.command command, r) =>
    m.exchanging p s (m.config.stack.exchange command) fun sitting => sitting.take command r
  | (.closed, _) => m.goto (.serving p { s with stage := .inquiring })
  | (.nothing, _) =>
    m.goto (.serving p { s with stage := if timedOut then .looping else .asleep deadline })

/-- The answer that an exchange comes to: a response must hold a status word. -/
def answerOf (reply : Reply) : Answer :=
  match reply with
  | .error e => .error (.ofExchange e)
  | .ok raw =>
    match Response.decode raw with
    | .error e => .error (.ofExchange e)
    | .ok _ => .ok raw

/-- The outcome of a session whose exchange failed. -/
def outcomeOf : SessionError → Outcome
  | .cardRemoved => .removed
  | e => .fault e

/-- The next step of a runner inside a session. -/
def serve (m : Machine) (p : Parameters) (s : Service) (sitting : Sitting) :
    Stage → Input → Option Machine
  | .opened, .go => some ((m.enter .active).goto (.serving p { s with stage := .announcing }))
  | .announcing, .go =>
    some ((m.queue [sitting.session.announcement s.session]).goto
      (.serving p { s with stage := .hiring }))
  | .hiring, .spawned none =>
    some ((m.onSitting s.session fun sitting => { sitting with watch := some {} }).goto
      (.serving p { s with stage := .looping, idleSince := m.clock }))
  | .hiring, .spawned (some problem) =>
    some (m.goto (.serving p { s with
      stage := .concluding (.seeking (.fault (.transport
        (.plain ("failed to start removal watch: " ++ problem))))) }))
  | .looping, .go =>
    if m.interrupted then
      some (m.goto (.serving p { s with stage := .concluding (.seeking .cancelled) }))
    else some (m.goto (.serving p { s with stage := .timing }))
  | .timing, .go =>
    match m.config.idleTimeout, slice m.config (m.clock - s.idleSince) with
    | some limit, none =>
      some (m.goto (.serving p { s with stage := .concluding (.seeking (.idleTimeout limit)) }))
    | _, some slice =>
      some (m.goto (.serving p { s with stage := .listening slice }))
    | none, none => none
  | .listening slice, .go =>
    match Instant.after? m.clock slice with
    | some deadline => some (m.look p s deadline false sitting)
    | none => some (m.goto (.ending (.panicked (some Instant.overflow))))
  | .asleep deadline, .wake wake =>
    if wake = .timedOut ∧ m.clock < deadline then none
    else some (m.look p s deadline (wake = .timedOut) sitting)
  | .inquiring, .go =>
    if sitting.session.latched then none
    else some (m.goto (.serving p { s with
      stage := .dismissing (sitting.session.outcome.getD .cancelled) }))
  | .exchanging (.transmit _ resume), .reply reply =>
    some (m.exchanging p s (resume reply) fun sitting => sitting.hear reply)
  | .exchanging (.transmit _ _), .panic message =>
    some (m.goto (.ending (.panicked (some message))))
  | .exchanging (.done reply), .go =>
    some ((m.onSitting s.session fun sitting => sitting.settle reply).goto
      (.serving p { s with stage := .answering (answerOf reply), idleSince := m.clock }))
  | .answering (.ok raw), .go =>
    match sitting.session.rendezvous.release with
    | (some ticket, r) =>
      some ((m.onSitting s.session fun sitting => sitting.onRendezvous fun _ => r).goto
        (.serving p { s with stage := .resolving ticket (.ok raw) }))
    | (none, _) => some (m.goto (.serving p { s with stage := .looping }))
  | .answering (.error e), .go =>
    some (m.goto (.serving p { s with stage := .concluding (.seeking (outcomeOf e)) }))
  | .resolving ticket answer, .go =>
    some ((m.onSitting s.session fun sitting =>
      sitting.onRendezvous fun r => r.resolve ticket answer).goto
        (.serving p { s with stage := .looping }))
  | .concluding call, .go =>
    match sitting.session.advance call with
    | none => none
    | some (session, call, queued) =>
      let m := (m.queue queued).onSitting s.session fun sitting => { sitting with session }
      some (m.goto (.serving p { s with
        stage := match call with
          | .returned outcome => .dismissing outcome
          | call => .concluding call }))
  | .dismissing outcome, .go =>
    match sitting.watch with
    | none => some (m.goto (.serving p { s with stage := .served outcome }))
    | some watch =>
      let m := m.onSitting s.session fun sitting =>
        { sitting with watch := some { watch with status := watch.status.cancel.2 } }
      some (m.goto (.serving p { s with
        stage := if watch.status.cancel.1 then .interrupting outcome else .joining outcome }))
  | .interrupting outcome, .go =>
    let raise (watch : Watch) : Watch := { watch with interrupted := true }
    let m := m.onSitting s.session fun sitting =>
      { sitting with watch := sitting.watch.map raise }
    some (m.goto (.serving p { s with stage := .joining outcome }))
  | .joining outcome, .go =>
    if sitting.watch.all fun watch => watch.point = .gone then
      some (m.goto (.serving p { s with stage := .served outcome }))
    else none
  | .served .removed, .go =>
    let m := m.enter .removed
    if p.multiSession then some (m.goto (.attempting p .arriving))
    else some (m.goto (.terminating (.ok (.removed m.sessions.length))))
  | .served (.idleTimeout limit), .go =>
    some ((m.enter .idleTimeout).goto (.terminating (.ok (.fault (.idleTimeout limit)))))
  | .served (.fault e), .go => some ((m.enter .fault).goto (.terminating (.ok (.fault e))))
  | .served .cancelled, .go => some (m.goto (.stopping .cancelled))
  | _, _ => none

/-! ## The threads -/

/-- The next step of the runner's thread. -/
def runner (m : Machine) (input : Input) : Option Machine :=
  match m.point, input with
  | .opening, .go => some ((m.queue [.start]).goto .negotiating)
  | .negotiating, .go =>
    if m.interrupted then
      some { m with start := m.start.stopListening, point := .stopping .cancelled }
    else some (m.goto (.receiving (m.clock + m.config.pollInterval.nanos)))
  | .receiving _, .go =>
    match m.start.receive with
    | (.parameters p, start) =>
      some { m with start := start.stopListening, point := .attempting p .arriving }
    | (.disconnected, start) =>
      some { m with start := start.stopListening, point := .stopping (.fault .startAborted) }
    | (.waiting, _) => none
  | .receiving deadline, .wake .timedOut =>
    if m.clock < deadline then none else some (m.goto .negotiating)
  | .attempting p a, input => m.attempt p a input
  | .serving p s, input =>
    match m.sessions[s.session]? with
    | none => none
    | some sitting => m.serve p s sitting s.stage input
  | .stopping .cancelled, .go => some (m.goto (.terminating (.error .cancelled)))
  | .stopping (.fault e), .go => some ((m.enter .fault).goto (.failing e))
  | .failing e, .go => some ((m.queue [.failed e]).goto (.terminating (.ok (.fault e))))
  | .terminating result, .go => some ((m.enter .terminated).goto (.ending (.returned result)))
  | .ending ending, .go => some { m with point := .gone ending, task := m.task.complete }
  | _, _ => none

/-- The next step of the watch of a session. -/
def watch (m : Machine) (number : Nat) (input : Input) : Option Machine :=
  match m.sessions[number]? with
  | none => none
  | some sitting =>
    match sitting.watch with
    | none => none
    | some watch =>
      match watch.advance sitting.session input with
      | none => none
      | some (watch, session, queued) =>
        some ((m.queue queued).onSitting number fun sitting =>
          { sitting with session, watch := some watch })

/-- The next event is delivered. A callback that panics leaves the others as
they are; one that was about to answer the start request drops it. -/
def deliver (m : Machine) (panics : Bool) : Option Machine :=
  match m.events[m.delivered]? with
  | none => none
  | some event =>
    let m := { m with delivered := m.delivered + 1 }
    if panics ∧ event = .start then some { m with start := m.start.abandon } else some m

/-- One atomic step of somebody. -/
inductive Move where
  /-- Time passes. -/
  | tick (nanos : Nat)
  /-- The runner's thread. -/
  | runner (input : Input)
  /-- The watch of a session. -/
  | watch (session : Nat) (input : Input)
  /-- The delivery of an event. -/
  | deliver (panics : Bool)
  /-- The application answers the start request that it was given. -/
  | resolve (parameters : Parameters)
  /-- The application drops the start request that it was given. -/
  | abandon
  /-- A client publishes a command through a handle of a session. -/
  | publish (session : Nat) (command : Bytes)
  /-- Somebody stops the runner. -/
  | stop
  /-- Somebody whose stop has won raises the interrupt. -/
  | raise

/-- The application has been given the start request and holds it. -/
def holdsRequest (m : Machine) : Bool :=
  0 < m.delivered && m.start.held

/-- The machine after a move, if the move is possible. -/
def step (m : Machine) : Move → Option Machine
  | .tick nanos => some { m with clock := m.clock + nanos }
  | .runner input => m.runner input
  | .watch session input => m.watch session input
  | .deliver panics => m.deliver panics
  | .resolve p => if m.holdsRequest then some { m with start := m.start.resolve p } else none
  | .abandon => if m.holdsRequest then some { m with start := m.start.abandon } else none
  | .publish session command =>
    if session < m.sessions.length then
      some (m.onSitting session fun sitting => sitting.publish command)
    else none
  | .stop =>
    match m.task.cancel with
    | (true, task) => some { m with task, raising := m.raising + 1 }
    | (false, task) => some { m with task }
  | .raise =>
    if m.raising = 0 then none
    else some { m with interrupted := true, raising := m.raising - 1 }

/-- Moves in order, as long as each is possible. -/
def run (m : Machine) : List Move → Option Machine
  | [] => some m
  | move :: moves => (m.step move).bind fun m => m.run moves

/-! ## What can be asked of a runner -/

/-- The runner's thread is gone. -/
def isFinished (m : Machine) : Bool :=
  match m.point with
  | .gone _ => true
  | _ => false

/-- The result of the runner's task, once its thread is gone. -/
def result? (m : Machine) : Option (Except TaskError Exit) :=
  match m.point with
  | .gone ending => some (if m.task = .cancelled then .error .cancelled else ending.result)
  | _ => none

/-- How the runner finished, for one who waited for it: a cancelled task is
a cancelled runner. -/
def exit? (m : Machine) : Option (Except TaskError Exit) :=
  m.result?.map fun result =>
    match result with
    | .error .cancelled => .ok .cancelled
    | result => result

/-- The rendezvous behind the handle of a session. -/
def handle? (m : Machine) (session : Nat) : Option Rendezvous :=
  m.sessions[session]?.map fun sitting => sitting.session.rendezvous

/-- The protocols of the connections asked for, in order. -/
def connects (m : Machine) : List Protocol :=
  m.calls.filterMap fun call =>
    match call with
    | .connect protocol _ => some protocol
    | _ => none

/-- The commands that reached a card, in order. -/
def commands (m : Machine) : List Bytes :=
  m.sessions.flatMap fun sitting => sitting.sent

end Machine

end Runner

end SmartCard
