import SmartCard.Rendezvous.Handle
import SmartCard.Proofs.Runner.Runs
/-!
# A dialogue over a handle

A client gives its commands to a session through a handle, each after the
reply to the one before. `Dialogue` is that client with the whole machine
and the card, and `Dialogue.step` is one move of any of them. It leaves out
the moves by which somebody ends the session for a reason other than a
failed exchange, and those of another client (`Machine.disturbs`). What is
left is every interleaving of a session that is not ended by its watch, by
its idle time or by a stop, and not broken off.

The other side of the comparison has no threads: `Stack.direct` gives the
same commands to the layers over the card, up to the first that fails, and
`Transcript.overHandle` says how that looks through a handle.
-/

namespace SmartCard

variable {σ : Type}

/-! ## The layers over the card, directly -/

/-- What commands come to: the replies to them, and the commands that reach
the card. -/
structure Transcript where
  replies : List Reply := []
  sent : List Bytes := []

/-- The commands that reach the card in an exchange. -/
def Exchange.Performance.sent {α : Type} (p : Exchange.Performance α σ) : List Bytes :=
  p.physical.map Exchange.Physical.command

/-- A response has to hold a status word. -/
def checked (reply : Reply) : Reply :=
  reply.bind fun raw => (Response.decode raw).map fun _ => raw

/-- **Talking to the layers over a card directly**: the commands are exchanged
one after the other, and each response is checked, up to the first command
that fails. -/
def Stack.direct (stack : Stack) (card : Card σ) : List Bytes → σ → Transcript
  | [], _ => {}
  | command :: commands, s =>
    let p := (stack.exchange command).perform card s
    match checked p.result with
    | .error e => { replies := [.error e], sent := p.sent }
    | .ok raw =>
      let rest := stack.direct card commands p.card
      { replies := .ok raw :: rest.replies, sent := p.sent ++ rest.sent }

/-! ## How that looks through a handle -/

/-- A reply through a handle. A session keeps of a removal only that it was one. -/
def overHandle : Reply → Reply
  | .ok raw => .ok raw
  | .error e => .error (if e.isCardRemoved then .transport .cardRemoved else e)

/-- What a handle says when its session is over. -/
def refusal : Reply :=
  .error (.plain "Configuration error: no session is accepting commands")

/-- **A transcript through a handle**, when so many commands are given in all:
those after the first that fails are refused, and nothing of them reaches the
card. -/
def Transcript.overHandle (t : Transcript) (commands : Nat) : Transcript :=
  { replies := t.replies.map SmartCard.overHandle ++
      List.replicate (commands - t.replies.length) refusal
    sent := t.sent }

namespace Runner

/-! ## What would disturb a dialogue -/

/-- The runner's thread goes on to conclude a session, and not because an
exchange has failed, or it panics where it would wait for a command. -/
def Stage.givesUp : Option Stage → Option Stage → Bool
  | some (.answering _), _ => false
  | some (.listening _), none => true
  | _, some (.concluding (.seeking _)) => true
  | _, _ => false

/-- The watch of a session seeks the latch, which nobody has taken before. -/
def Sitting.isClaimed (x : Sitting) : Bool :=
  x.session.outcome.isNone && x.watch.any fun w =>
    match w.point with
    | .concluding (.seeking _) => true
    | _ => false

namespace Machine

/-- The command that the runner's thread has given to the card of a session. -/
def asked? (m : Machine) (number : Nat) : Option Bytes :=
  match m.stage? number with
  | some (.exchanging (.transmit command _)) => some command
  | _ => none

/-- **A move disturbs the dialogue with a session** if another client
publishes a command, if the watch is the first to conclude the session, if
the runner's thread concludes it for the sake of the idle time, of a stop or
of a watch that could not be started, if it panics for want of an instant, or
if something other than the card answers a command. -/
def disturbs (m m' : Machine) (number : Nat) : Move → Bool
  | .publish k _ => k == number
  | .watch k _ => k == number && m.sessions[number]?.any Sitting.isClaimed
  | .runner _ => (m.asked? number).isSome || Stage.givesUp (m.stage? number) (m'.stage? number)
  | _ => false

end Machine

/-! ## The dialogue -/

/-- A client of a session, with the machine and the card. -/
structure Dialogue (σ : Type) where
  machine : Machine
  card : σ
  /-- The commands that the client has not given to the handle yet. -/
  commands : List Bytes
  /-- The exchange that the client waits for. -/
  pending : Option Pending := none
  /-- The replies that the client got, oldest first. -/
  replies : List Reply := []

namespace Dialogue

/-- One atomic step of somebody. -/
inductive Move where
  /-- The client gives its next command to the handle. -/
  | submit
  /-- The client polls the exchange that it waits for. -/
  | poll
  /-- The card answers the command that it was given. -/
  | exchange
  /-- A step of anybody else. -/
  | other (move : Machine.Move)

/-- A runner that is about to start, and a client with its commands. -/
def start (config : Config) (reader : String) (s : σ) (commands : List Bytes) : Dialogue σ :=
  { machine := .initial config reader, card := s, commands }

/-- The dialogue over the handle of a session after a move, if the move is
possible and does not disturb it. -/
def step (card : Card σ) (number : Nat) (d : Dialogue σ) : Move → Option (Dialogue σ)
  | .submit =>
    match d.pending, d.commands, d.machine.handle? number with
    | none, command :: commands, some r =>
      (d.machine.step (.publish number command)).map fun machine =>
        { d with machine, commands, pending := some (Pending.submit command r).1 }
    | _, _, _ => none
  | .poll =>
    match d.pending, d.machine.handle? number with
    | some pending, some r =>
      match (pending.poll r).1 with
      | .inl reply => some { d with pending := none, replies := d.replies ++ [reply] }
      | .inr pending => some { d with pending := some pending }
    | _, _ => none
  | .exchange =>
    match d.machine.asked? number with
    | some command =>
      let answer := card command d.card
      (d.machine.step (.runner (.reply answer.1))).map fun machine =>
        { d with machine, card := answer.2 }
    | none => none
  | .other move =>
    match d.machine.step move with
    | some machine =>
      if d.machine.disturbs machine number move then none else some { d with machine }
    | none => none

/-- Moves in order, as long as each is possible. -/
def run (card : Card σ) (number : Nat) (d : Dialogue σ) : List Move → Option (Dialogue σ)
  | [] => some d
  | move :: moves => (d.step card number move).bind fun d => d.run card number moves

/-- The client has got all its replies. -/
def IsFinished (d : Dialogue σ) : Prop :=
  d.commands = [] ∧ d.pending = none

/-- What the client gives away and gets, if all is as it would be without the
session between. -/
def expected (config : Config) (card : Card σ) (s : σ) (commands : List Bytes) : Transcript :=
  (config.stack.direct card commands s).overHandle commands.length

variable {card : Card σ} {number : Nat} {d d' : Dialogue σ}

/-- A run takes its first move, and goes on from there. -/
theorem run_cons_eq_some {move : Move} {moves : List Move} :
    d.run card number (move :: moves) = some d' ↔
      ∃ d₁, d.step card number move = some d₁ ∧ d₁.run card number moves = some d' :=
  Option.bind_eq_some_iff

end Dialogue

end Runner

end SmartCard
