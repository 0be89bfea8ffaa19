import SmartCard.Bench.Script
import SmartCard.Proofs.Runner.InStep
/-!
# A handle is as good as the card

`agreement` compares a client that talks to a session through a handle with
one that talks to the layers over the card directly. In every interleaving
that does not disturb the session, the client gets the replies and causes the
physical commands that it would directly (`InStep.agrees`), and it is never
stuck: as long as the runner is not stopped, the session has not been idle
for too long and the clock can show the end of a wait, some moves lead to the
end of the dialogue. The measure for
that is `toGo`, the number of steps by which the runner's thread and the card
can bring the answer that the client waits for (`exists_turn`).
-/

namespace SmartCard

namespace Runner

variable {σ : Type} {card : Card σ} {number : Nat} {config : Config} {t : Transcript}

/-! ## Time -/

/-- A session that may wait for a command may do so if it has waited for less. -/
theorem isSome_slice_of_le {c : Config} {idle idle' : Nat} (h : idle' ≤ idle)
    (hslice : (Machine.slice c idle).isSome = true) : (Machine.slice c idle').isSome = true := by
  unfold Machine.slice at hslice ⊢
  split
  · rfl
  · next limit hlimit =>
    rw [hlimit] at hslice
    have hlt : idle < limit.nanos := by
      by_contra hle
      simp [Nat.not_lt.1 hle] at hslice
    rw [if_neg (by omega)]
    rfl

/-- The clock of a session that waits for a command runs in this stage. It
starts with the watch, and again after each exchange. -/
def Stage.isTimed : Stage → Bool
  | .opened | .announcing | .hiring | .exchanging _ => false
  | _ => true

/-- How long the session that is served has been without a command, the next
time that the runner's thread looks at the clock for it. -/
def Machine.waited (m : Machine) : Nat :=
  match m.point with
  | .serving _ s => if s.stage.isTimed then m.clock - s.idleSince else 0
  | _ => 0

/-- No time passes by a step that leaves the clock and its start as they are. -/
theorem Machine.waited_le_waited {m m' : Machine} {params : Parameters} {s s' : Service}
    (hpoint : m.point = .serving params s) (hpoint' : m'.point = .serving params s')
    (hclock : m'.clock = m.clock) (hidle : s'.idleSince = s.idleSince)
    (htimed : s.stage.isTimed = true) : m'.waited ≤ m.waited := by
  simp only [waited, hpoint, hpoint', hclock, hidle, if_pos htimed]
  split
  · exact Nat.le_refl _
  · exact Nat.zero_le _

/-! ## What is left to do -/

/-- The steps of the runner's thread before it takes a command that waits. -/
def Stage.toListen : Stage → Nat
  | .opened => 6
  | .announcing => 5
  | .hiring => 4
  | .looping => 3
  | .timing => 2
  | .listening _ | .asleep _ => 1
  | _ => 0

/-- **The steps before the answer to an outstanding command is there**, or some
more. -/
def Stage.toGo (stack : Stack) (card : Card σ) (s : σ) (slot : Slot) : Stage → Nat
  | .exchanging rest => (rest.perform card s).physical.length + 5
  | .answering _ => 4
  | .resolving _ _ | .concluding (.seeking _) => 3
  | .concluding (.deciding _) => 2
  | .concluding (.closing _ _) => 1
  | stage =>
    match slot with
    | .requested command _ =>
      ((stack.exchange command).perform card s).physical.length + 5 + stage.toListen
    | _ => 0

/-- A runner's thread that listens takes the command next. -/
theorem Stage.toGo_of_isListening {stage : Stage} (h : stage.isListening = true) (stack : Stack)
    (card : Card σ) (s : σ) (command : Bytes) (ticket : Ticket) :
    stage.toGo stack card s (.requested command ticket) =
      ((stack.exchange command).perform card s).physical.length + 5 + 1 := by
  cases stage <;> first | rfl | cases h

namespace Dialogue

variable {d d' : Dialogue σ} {x : Sitting} {p : Phase} {stage : Stage}

/-- **Nothing keeps the client from its answers**: the session is open to it,
the runner is not stopped, the time to wait for a command is not over, and the
clock can show the end of a wait. -/
structure Unhindered (number : Nat) (d : Dialogue σ) : Prop where
  opened : number < d.machine.sessions.length
  unstopped : d.machine.interrupted = false
  inTime : (Machine.slice d.machine.config d.machine.waited).isSome = true
  inClock : d.machine.horizon ≤ Instant.last

/-- A step of the runner's thread, or a reply of the card, by which the client
comes nearer to its answer. -/
def Nearer (card : Card σ) (number : Nat) (d : Dialogue σ) (x : Sitting) (stage : Stage) : Prop :=
  ∃ move m s' x' stage', d.step card number move = some { d with machine := m, card := s' } ∧
    Unhindered number { d with machine := m, card := s' } ∧ m.sessions[number]? = some x' ∧
    m.stage? number = some stage' ∧
    stage'.toGo d.machine.config.stack card s' x'.session.rendezvous.slot <
      stage.toGo d.machine.config.stack card d.card x.session.rendezvous.slot

/-- The runner's thread takes a step by itself. -/
theorem nearer_of_serve {params : Parameters} {s s' : Service} (input : Input) {m : Machine}
    {x' : Sitting} (h : d.Unhindered number) (hx : d.machine.sessions[s.session]? = some x)
    (hpoint : d.machine.point = .serving params s) (hnumber : s.session = number)
    (hserve : d.machine.serve params s x s.stage input = some m)
    (hpoint' : m.point = .serving params s') (hnumber' : s'.session = s.session)
    (hx' : m.sessions[s.session]? = some x')
    (hasked : ∀ command resume, s.stage ≠ .exchanging (.transmit command resume))
    (hgives : Stage.givesUp (some s.stage) (some s'.stage) = false)
    (hunstopped : m.interrupted = d.machine.interrupted) (hclock : m.clock = d.machine.clock)
    (hconfig : m.config = d.machine.config) (hwaited : m.waited ≤ d.machine.waited)
    (hless : s'.stage.toGo d.machine.config.stack card d.card x'.session.rendezvous.slot <
      s.stage.toGo d.machine.config.stack card d.card x.session.rendezvous.slot) :
    d.Nearer card number x s.stage := by
  subst hnumber
  have hstage : d.machine.stage? s.session = some s.stage :=
    (Machine.stage?_of_serving hpoint _).trans (if_pos rfl)
  have hstage' : m.stage? s.session = some s'.stage :=
    (Machine.stage?_of_serving hpoint' _).trans (if_pos hnumber')
  have hstep : d.machine.step (.runner input) = some m := by
    simp only [Machine.step, Machine.runner, hpoint, hx, hserve]
  refine ⟨.other (.runner input), m, d.card, x', s'.stage, ?_, ⟨?_, ?_, ?_, ?_⟩, hx', hstage',
    hless⟩
  · have hnothing : d.machine.asked? s.session = none := by
      unfold Machine.asked?
      rw [hstage]
      split
      · next command resume heq => exact absurd (Option.some.inj heq) (hasked command resume)
      · rfl
    simp [Dialogue.step, hstep, Machine.disturbs, hnothing, hstage, hstage', hgives]
  · exact (List.getElem?_eq_some_iff.1 hx').1
  · exact hunstopped.trans h.unstopped
  · rw [hconfig]
    exact isSome_slice_of_le hwaited h.inTime
  · rw [Machine.horizon, hclock, hconfig]
    exact h.inClock

/-- A command that waits is taken. -/
theorem nearer_of_look {params : Parameters} {s : Service} {command : Bytes} {ticket : Ticket}
    (input : Input) (deadline : Nat) (h : d.Unhindered number)
    (hx : d.machine.sessions[s.session]? = some x)
    (hpoint : d.machine.point = .serving params s) (hnumber : s.session = number)
    (hlisten : s.stage.isListening = true)
    (hslot : x.session.rendezvous.slot = .requested command ticket)
    (hserve : d.machine.serve params s x s.stage input =
      some (d.machine.look params s deadline false x)) :
    d.Nearer card number x s.stage := by
  have hlook : d.machine.look params s deadline false x =
      d.machine.exchanging params s (d.machine.config.stack.exchange command) fun y =>
        y.take command { x.session.rendezvous with slot := .inFlight ticket } := by
    simp only [Machine.look, Rendezvous.next, hslot]
  rw [hlook] at hserve
  have hless : ((d.machine.config.stack.exchange command).perform card d.card).physical.length + 5 <
      s.stage.toGo d.machine.config.stack card d.card x.session.rendezvous.slot := by
    rw [hslot, Stage.toGo_of_isListening hlisten]
    exact Nat.lt_succ_self _
  refine nearer_of_serve input h hx hpoint hnumber hserve rfl rfl
    (Machine.getElem?_onSitting hx _) ?_ ?_ rfl rfl rfl (Nat.zero_le _) hless
  · rintro command resume heq
    rw [heq] at hlisten
    cases hlisten
  · cases s.stage <;> rfl

/-- The runner's thread comes nearer to taking a command that waits. -/
theorem nearer_of_requested {params : Parameters} {s : Service} {command : Bytes} {ticket : Ticket}
    (h : d.Unhindered number) (hinterval : d.machine.KeepsInterval)
    (hx : d.machine.sessions[s.session]? = some x)
    (hpoint : d.machine.point = .serving params s) (hnumber : s.session = number)
    (hcalm : s.stage.isCalm = true)
    (hslot : x.session.rendezvous.slot = .requested command ticket) :
    d.Nearer card number x s.stage := by
  have htime := h.inTime
  obtain ⟨session, idleSince, stage⟩ := s
  cases stage with
  | opened =>
    obtain ⟨states, heq⟩ := d.machine.enter_eq .active
    have hserve : d.machine.serve params ⟨session, idleSince, .opened⟩ x .opened .go =
        some (Machine.goto { d.machine with state := .active, states }
          (.serving params ⟨session, idleSince, .announcing⟩)) := by
      rw [← heq]
      rfl
    exact nearer_of_serve .go h hx hpoint hnumber hserve rfl rfl hx (by simp) rfl rfl rfl rfl
      (Nat.zero_le _) (by simp [Stage.toGo, Stage.toListen, hslot])
  | announcing =>
    exact nearer_of_serve .go h hx hpoint hnumber rfl rfl rfl hx (by simp) rfl rfl rfl rfl
      (Nat.zero_le _) (by simp [Stage.toGo, Stage.toListen, hslot])
  | hiring =>
    -- the time to wait begins now
    refine nearer_of_serve (.spawned none) h hx hpoint hnumber rfl rfl rfl
      (Machine.getElem?_onSitting hx _) (by simp) rfl rfl rfl rfl ?_
      (by simp [Stage.toGo, Stage.toListen, hslot])
    simp [Machine.waited, Machine.goto, Machine.onSitting]
  | looping =>
    have hserve : d.machine.serve params ⟨session, idleSince, .looping⟩ x .looping .go =
        some (d.machine.goto (.serving params ⟨session, idleSince, .timing⟩)) := by
      simp [Machine.serve, h.unstopped]
    exact nearer_of_serve .go h hx hpoint hnumber hserve rfl rfl hx (by simp) rfl rfl rfl rfl
      (Machine.waited_le_waited hpoint rfl rfl rfl rfl)
      (by simp [Stage.toGo, Stage.toListen, hslot])
  | timing =>
    have hwaited : d.machine.waited = d.machine.clock - idleSince := by
      simp [Machine.waited, Stage.isTimed, hpoint]
    rw [hwaited] at htime
    obtain ⟨slice, hslice⟩ := Option.isSome_iff_exists.1 htime
    have hserve : d.machine.serve params ⟨session, idleSince, .timing⟩ x .timing .go =
        some (d.machine.goto (.serving params ⟨session, idleSince, .listening slice⟩)) := by
      simp [Machine.serve, hslice]
    exact nearer_of_serve .go h hx hpoint hnumber hserve rfl rfl hx (by simp) rfl rfl rfl rfl
      (Machine.waited_le_waited hpoint rfl rfl rfl rfl)
      (by simp [Stage.toGo, Stage.toListen, hslot])
  | listening slice =>
    -- the clock can show the end of the wait
    have hafter : Instant.after? d.machine.clock slice = some (d.machine.clock + slice) :=
      if_pos (Nat.le_trans (Nat.add_le_add_left (hinterval _ _ slice hpoint rfl) _) h.inClock)
    refine nearer_of_look .go (d.machine.clock + slice) h hx hpoint hnumber rfl hslot ?_
    simp only [Machine.serve, hafter]
  | asleep deadline =>
    exact nearer_of_look (.wake .notified) deadline h hx hpoint hnumber rfl hslot rfl
  | _ => cases hcalm

/-- The exchange comes nearer to its end. -/
theorem nearer_of_carried {params : Parameters} {s : Service} {rest : Exchange Reply}
    (h : d.Unhindered number) (hx : d.machine.sessions[s.session]? = some x)
    (hpoint : d.machine.point = .serving params s) (hnumber : s.session = number)
    (hrest : s.stage = .exchanging rest) : d.Nearer card number x s.stage := by
  obtain ⟨session, idleSince, stage⟩ := s
  subst hrest
  cases rest with
  | done reply =>
    refine nearer_of_serve .go h hx hpoint hnumber rfl rfl rfl (Machine.getElem?_onSitting hx _)
      (by simp) rfl rfl rfl rfl ?_ (by simp [Stage.toGo, Exchange.perform])
    simp [Machine.waited, Machine.goto, Machine.onSitting]
  | transmit command resume =>
    subst hnumber
    have hstage : d.machine.stage? session = some (.exchanging (.transmit command resume)) :=
      (Machine.stage?_of_serving hpoint _).trans (if_pos rfl)
    have hasked : d.machine.asked? session = some command := by
      unfold Machine.asked?
      rw [hstage]
    have hstep : d.machine.step (.runner (.reply (card command d.card).1)) =
        some (d.machine.exchanging params
          ⟨session, idleSince, .exchanging (.transmit command resume)⟩
          (resume (card command d.card).1) fun y => y.hear (card command d.card).1) := by
      simp only [Machine.step, Machine.runner, hpoint, hx, Machine.serve]
    have hx' := Machine.getElem?_onSitting hx fun y =>
      (y.hear (card command d.card).1).send (resume (card command d.card).1)
    refine ⟨.exchange, d.machine.exchanging params _ _ _, (card command d.card).2, _,
      .exchanging (resume (card command d.card).1), ?_, ⟨?_, h.unstopped, ?_, h.inClock⟩, hx', ?_,
      ?_⟩
    · simp only [Dialogue.step, hasked, hstep, Option.map_some]
    · exact (List.getElem?_eq_some_iff.1 hx').1
    · exact isSome_slice_of_le (Nat.zero_le _) h.inTime
    · exact (Machine.stage?_of_serving rfl session).trans (if_pos rfl)
    · simp [Stage.toGo, Exchange.perform, Exchange.Performance.after]

/-- A call of the runner's thread to conclude the session goes on. -/
theorem nearer_of_advance {params : Parameters} {s : Service} {call call' : Conclusion}
    {session : Session} {queued : List Event} (h : d.Unhindered number)
    (hx : d.machine.sessions[s.session]? = some x)
    (hpoint : d.machine.point = .serving params s) (hnumber : s.session = number)
    (hcall : s.stage = .concluding call)
    (hadvance : x.session.advance call = some (session, call', queued))
    (hcall' : call'.holds = true)
    (hless : (Stage.concluding call').toGo d.machine.config.stack card d.card
        session.rendezvous.slot <
      (Stage.concluding call).toGo d.machine.config.stack card d.card x.session.rendezvous.slot) :
    d.Nearer card number x s.stage := by
  obtain ⟨place, idleSince, stage⟩ := s
  subst hcall
  have hserve : d.machine.serve params ⟨place, idleSince, .concluding call⟩ x
      (.concluding call) .go = some (((d.machine.queue queued).onSitting place fun y =>
        { y with session }).goto (.serving params ⟨place, idleSince, .concluding call'⟩)) := by
    simp only [Machine.serve, hadvance]
    cases call' <;> first | rfl | cases hcall'
  refine nearer_of_serve .go h hx hpoint hnumber hserve rfl rfl
    (Machine.getElem?_onSitting (m := d.machine.queue queued) hx _) (by simp) ?_ rfl rfl rfl
    (Machine.waited_le_waited hpoint rfl rfl rfl rfl) hless
  cases call' <;> first | rfl | cases hcall'

/-- An answer comes nearer to the client. -/
theorem nearer_of_settled {preempted : Prop} {params : Parameters} {s : Service}
    {ticket : Ticket} {answer : Answer} (h : d.Unhindered number)
    (hx : d.machine.sessions[s.session]? = some x)
    (hpoint : d.machine.point = .serving params s) (hnumber : s.session = number)
    (hs : x.Sound config preempted (some s.stage)) (hp : ¬ preempted)
    (hstands : Stands x (some s.stage) (.settled ticket answer)) :
    d.Nearer card number x s.stage := by
  obtain ⟨session, idleSince, stage⟩ := s
  simp only at hs hstands
  cases hstands with
  | answering hslot =>
    cases answer with
    | ok raw =>
      have hserve : d.machine.serve params ⟨session, idleSince, .answering (.ok raw)⟩ x
          (.answering (.ok raw)) .go = some ((d.machine.onSitting session fun y =>
            y.onRendezvous fun _ => { x.session.rendezvous with slot := .idle }).goto
              (.serving params ⟨session, idleSince, .resolving ticket (.ok raw)⟩)) := by
        simp only [Machine.serve, Rendezvous.release, hslot]
      exact nearer_of_serve .go h hx hpoint hnumber hserve rfl rfl
        (Machine.getElem?_onSitting hx _) (by simp) rfl rfl rfl rfl
        (Machine.waited_le_waited hpoint rfl rfl rfl rfl) (by simp [Stage.toGo])
    | error e =>
      exact nearer_of_serve .go h hx hpoint hnumber rfl rfl rfl hx (by simp) rfl rfl rfl rfl
        (Machine.waited_le_waited hpoint rfl rfl rfl rfl) (by simp [Stage.toGo])
  | @resolving _ raw hslot =>
    have hidle : (x.onRendezvous fun r => r.resolve ticket (.ok raw)).session.rendezvous.slot =
        .idle := hslot
    exact nearer_of_serve .go h hx hpoint hnumber rfl rfl rfl
      (Machine.getElem?_onSitting hx _) (by simp) rfl rfl rfl rfl
      (Machine.waited_le_waited hpoint rfl rfl rfl rfl) (by simp [Stage.toGo, hidle])
  | @seeking _ o hslot =>
    -- nobody else has the latch
    have hfree := hs.orderly.lawful.free_of_verdict_none (hs.quiet hp ⟨o, rfl⟩)
    have hadvance : x.session.advance (.seeking o) =
        some ({ x.session with latched := true }, .deciding o, []) := by
      simp [Session.advance, hfree]
    exact nearer_of_advance h hx hpoint hnumber rfl hadvance rfl (by simp [Stage.toGo])
  | @deciding _ o hslot =>
    have hopen := hs.orderly.lawful.outcome_of_open (by simp [hslot])
    have hadvance : x.session.advance (.deciding o) =
        some ({ x.session with rendezvous := x.session.rendezvous.shut.2 },
          .closing o x.session.rendezvous.shut.1.ticket?, []) := by
      simp [Session.advance, hopen]
    exact nearer_of_advance h hx hpoint hnumber rfl hadvance rfl (by simp [Stage.toGo])
  | closing hslot =>
    refine nearer_of_advance h hx hpoint hnumber rfl rfl rfl ?_
    simp [Stage.toGo, Rendezvous.slot_resolve, hslot]

/-- **The client comes nearer to its answer**, as long as it is not there. -/
theorem exists_turn {preempted : Prop} (h : d.Unhindered number)
    (hinterval : d.machine.KeepsInterval)
    (hx : d.machine.sessions[number]? = some x) (hstage : d.machine.stage? number = some stage)
    (hs : x.Sound config preempted (some stage)) (hp : ¬ preempted)
    (hstands : Stands x (some stage) p) {ticket : Ticket} (hticket : p.ticket? = some ticket) :
    d.Nearer card number x stage := by
  obtain ⟨params, s, hpoint, rfl, rfl⟩ := Machine.serving_of_stage? hstage
  cases p with
  | requested command t =>
    obtain ⟨hcalm, hslot⟩ : s.stage.isCalm = true ∧
        x.session.rendezvous.slot = .requested command t := by
      generalize s.stage = stage at hstands
      cases hstands with
      | requested hcalm hslot => exact ⟨hcalm, hslot⟩
    exact nearer_of_requested h hinterval hx hpoint rfl hcalm hslot
  | carried t rest =>
    have hrest : s.stage = .exchanging rest := by
      generalize s.stage = stage at hstands
      cases hstands
      rfl
    exact nearer_of_carried h hx hpoint rfl hrest
  | settled t answer => exact nearer_of_settled h hx hpoint rfl hs hp hstands
  | free => cases hticket
  | ended => cases hticket

/-! ## To the end -/

/-- The steps before the client can poll its answer, or some more. -/
def toGo (config : Config) (card : Card σ) (number : Nat) (d : Dialogue σ) : Nat :=
  match d.machine.sessions[number]?, d.machine.stage? number with
  | some x, some stage => stage.toGo config.stack card d.card x.session.rendezvous.slot
  | _, _ => 0

/-- A run can be followed by another. -/
theorem run_append (d : Dialogue σ) (moves more : List Move) :
    d.run card number (moves ++ more) =
      (d.run card number moves).bind fun d => d.run card number more := by
  induction moves generalizing d with
  | nil => rfl
  | cons move moves ih => simp only [List.cons_append, run, ih, Option.bind_assoc]

/-- A client whose answer is there polls it. -/
theorem exists_poll {early : List Reply} (h : d.Unhindered number)
    (hx : d.machine.sessions[number]? = some x)
    (hawaits : Awaits x.session.rendezvous p d.pending early) (hticket : p.ticket? = none)
    (hpending : d.pending ≠ none) :
    ∃ d', d.step card number .poll = some d' ∧ d'.Unhindered number ∧
      d'.commands = d.commands ∧ d'.pending = none := by
  have hr : d.machine.handle? number = some x.session.rendezvous := by
    rw [Machine.handle?, hx]
    rfl
  obtain ⟨pending, hsome⟩ := Option.ne_none_iff_exists'.1 hpending
  obtain ⟨reply, hreply⟩ : ∃ reply, (pending.poll x.session.rendezvous).1 = .inl reply := by
    rw [hsome] at hawaits
    cases hawaits with
    | answer hp =>
      rw [hticket] at hp
      cases hp
    | @answered _ a hp ha =>
      exact ⟨a.toReply, by simp only [Pending.poll, ha, Pending.advance]⟩
    | refused hp => exact ⟨_, rfl⟩
  refine ⟨{ d with pending := none, replies := d.replies ++ [reply] }, ?_,
    ⟨h.opened, h.unstopped, h.inTime, h.inClock⟩, rfl, rfl⟩
  simp only [Dialogue.step, hsome, hr, hreply]

/-- **A client that waits gets its reply.** -/
theorem exists_reply (h : d.InStep config card number t) (hunhindered : d.Unhindered number)
    (hpending : d.pending ≠ none) :
    ∃ moves d', d.run card number moves = some d' ∧ d'.Unhindered number ∧
      d'.commands = d.commands ∧ d'.pending = none := by
  generalize hn : d.toGo config card number = n
  induction n using Nat.strongRecOn generalizing d with
  | ind n ih =>
    obtain ⟨preempted, hkept, hp⟩ := h.kept
    rcases h.standing with hunopened | ⟨x, p, early, hx, hstands, hawaits, -, -⟩
    · exact absurd hunopened.pending hpending
    · cases hticket : p.ticket? with
      | none =>
        obtain ⟨d', hstep, hd'⟩ := exists_poll hunhindered hx hawaits hticket hpending
        exact ⟨[.poll], d', run_cons_eq_some.2 ⟨d', hstep, rfl⟩, hd'⟩
      | some ticket =>
        cases hstage : d.machine.stage? number with
        | none =>
          rw [hstage] at hstands
          cases hstands
          cases hticket
        | some stage =>
          rw [hstage] at hstands
          have hs := hkept.sound number x hx
          rw [hstage] at hs
          have hnearer : d.Nearer card number x stage :=
            exists_turn hunhindered h.interval hx hstage hs hp hstands hticket
          obtain ⟨move, m, s', x', stage', hstep, hunhindered', hx', hstage', hless⟩ := hnearer
          have hless' : toGo config card number { d with machine := m, card := s' } < n := by
            rw [← hn, toGo, toGo, hx, hstage]
            simp only [hx', hstage']
            rwa [h.setting] at hless
          obtain ⟨moves, d', hrun, hd'⟩ := ih _ hless' (h.step hstep) hunhindered' hpending rfl
          exact ⟨move :: moves, d', run_cons_eq_some.2 ⟨_, hstep, hrun⟩, hd'⟩

/-- A client that does not wait submits its next command. -/
theorem exists_submit (card : Card σ) {command : Bytes} {commands : List Bytes}
    (h : d.Unhindered number) (hpending : d.pending = none)
    (hcommands : d.commands = command :: commands) :
    ∃ d', d.step card number .submit = some d' ∧ d'.Unhindered number ∧
      d'.commands = commands ∧ d'.pending ≠ none := by
  obtain ⟨x, hx⟩ : ∃ x, d.machine.sessions[number]? = some x :=
    ⟨_, List.getElem?_eq_getElem h.opened⟩
  have hr : d.machine.handle? number = some x.session.rendezvous := by
    rw [Machine.handle?, hx]
    rfl
  refine ⟨{ d with
    machine := d.machine.onSitting number fun y => y.publish command
    commands
    pending := some (Pending.submit command x.session.rendezvous).1 }, ?_, ⟨?_, h.unstopped,
      h.inTime, h.inClock⟩, rfl, by simp⟩
  · simp only [Dialogue.step, hpending, hcommands, hr, Machine.step, if_pos h.opened,
      Option.map_some]
  · exact (List.getElem?_eq_some_iff.1 (Machine.getElem?_onSitting hx _)).1

/-- **A client gets all its replies.** -/
theorem exists_finish (h : d.InStep config card number t) (hunhindered : d.Unhindered number) :
    ∃ moves d', d.run card number moves = some d' ∧ d'.IsFinished := by
  -- a client that does not wait has one command less after each reply
  have hready : ∀ commands (d : Dialogue σ), d.InStep config card number t →
      d.Unhindered number → d.pending = none → d.commands = commands →
      ∃ moves d', d.run card number moves = some d' ∧ d'.IsFinished := by
    intro commands
    induction commands with
    | nil => exact fun d _ _ hpending hcommands => ⟨[], d, rfl, hcommands, hpending⟩
    | cons command commands ih =>
      intro d h hunhindered hpending hcommands
      obtain ⟨d₁, hstep, hunhindered₁, hcommands₁, hpending₁⟩ :=
        exists_submit card hunhindered hpending hcommands
      obtain ⟨moves, d₂, hrun, hunhindered₂, hcommands₂, hpending₂⟩ :=
        exists_reply (h.step hstep) hunhindered₁ hpending₁
      obtain ⟨more, d₃, hmore, hfinished⟩ := ih d₂ ((h.step hstep).run hrun) hunhindered₂
        hpending₂ (hcommands₂.trans hcommands₁)
      refine ⟨.submit :: (moves ++ more), d₃, run_cons_eq_some.2 ⟨d₁, hstep, ?_⟩, hfinished⟩
      rw [run_append, hrun]
      exact hmore
  by_cases hpending : d.pending = none
  · exact hready d.commands d h hunhindered hpending rfl
  · obtain ⟨moves, d₁, hrun, hunhindered₁, -, hpending₁⟩ := exists_reply h hunhindered hpending
    obtain ⟨more, d₂, hmore, hfinished⟩ :=
      hready d₁.commands d₁ (h.run hrun) hunhindered₁ hpending₁ rfl
    refine ⟨moves ++ more, d₂, ?_, hfinished⟩
    rw [run_append, hrun]
    exact hmore

/-! ## The agreement -/

/-- A card that wants each command once more, and is gone the second time. -/
def leaving : Bench.Script :=
  [.ok [0x6C, 0x02], .ok [0xAA, 0xBB, 0x90, 0x00], .ok [0x6C, 0x01],
    .error (.transport .cardRemoved)]

/-- The commands of a client. -/
def three : List Bytes :=
  [[0x00, 0xB0, 0x00, 0x00], [0x00, 0xB1, 0x00, 0x00], [0x00, 0xB2, 0x00, 0x00]]

/-- A runner that repeats commands of a wrong length, and nothing else. -/
def repeating : Config := { getResponse := false }

/-- The client gives its commands to a session with that card. -/
def departure : List Move :=
  let go : Move := .other (.runner .go)
  [go, .other (.deliver false), .other (.resolve {}), go, go, go, go,
    .other (.runner (.presence (.ok true))), go,
    .other (.runner (.connection (.ok ⟨"Reader 0", [], .t1⟩))), go, go,
    .other (.runner (.spawned none)), .submit, go, go, go, .exchange, .exchange, go, go, go, .poll,
    .submit, go, go, go, .exchange, .exchange, go, go, go, go, go, .poll, .submit, .poll]

end Dialogue

end Runner

end SmartCard
