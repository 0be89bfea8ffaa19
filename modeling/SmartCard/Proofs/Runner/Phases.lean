import SmartCard.Proofs.Error.Conversions
import SmartCard.Proofs.Runner.Dialogue
/-!
# The phases of a session

Seen from the one client that it has, a session is free for a command, holds
one that was not taken yet, exchanges it, has an answer that is on its way,
or is over. `Phase` is where it is, and `Phase.outlook` what the client has
still to expect then: the replies, and the commands that reach the card.

`Machine.sees_of_step` cuts a move of the machine down to what it does to one
session. A step of the runner's thread inside the session (`Stands.turn`), a
reply of the card (`Stands.hear`) and a step of the watch (`Stands.watch`)
lead from phase to phase in such a way that nothing is lost of the outlook
(`Proceeds`): what leaves it was sent, or is there for the client to poll.
-/

namespace SmartCard

namespace Runner

variable {σ : Type}

/-! ## One session among others -/

namespace Machine

variable {m m' : Machine} {number : Nat}

/-- **What a move is to one session**: the session afterwards, and the stage
at which the runner's thread then stands in it. -/
inductive Sees (m : Machine) (number : Nat) : Move → Option Sitting → Option Stage → Prop
  | apart (move : Move) : Sees m number move m.sessions[number]? (m.stage? number)
  | connect (input : Input) (card : CardData) (hx : m.sessions[number]? = none) :
    Sees m number (.runner input) (some { session := { card } }) (some .opened)
  | publish (command : Bytes) {x : Sitting} (hx : m.sessions[number]? = some x) :
    Sees m number (.publish number command) (some (x.publish command)) (m.stage? number)
  | watch (input : Input) {x : Sitting} {w w' : Watch} {s' : Session} {queued : List Event}
    (hx : m.sessions[number]? = some x) (hwatch : x.watch = some w)
    (hturn : Watch.Turn x.session w.point w'.point s' queued) :
    Sees m number (.watch number input) (some { x with session := s', watch := some w' })
      (m.stage? number)
  | turn (input : Input) {x x' : Sitting} {stage stage' : Stage} {queued : List Event}
    (hx : m.sessions[number]? = some x) (hstage : m.stage? number = some stage)
    (hturn : Turn m.config number x stage stage' x' queued) :
    Sees m number (.runner input) (some x') (some stage')
  | leave (input : Input) {o : Outcome} (hstage : m.stage? number = some (.served o)) :
    Sees m number (.runner input) m.sessions[number]? none
  | panic (input : Input) {stage : Stage} (hstage : m.stage? number = some stage)
    (hpanic : stage.canPanic = true) : Sees m number (.runner input) m.sessions[number]? none

/-- A thread that serves a session stands at its stage there, and at none of
another session. -/
theorem stage?_of_serving {p : Parameters} {s : Service} (hpoint : m.point = .serving p s)
    (number : Nat) : m.stage? number = if s.session = number then some s.stage else none := by
  unfold stage?
  rw [hpoint]

/-- A move that neither changes the session nor the stage. -/
theorem Sees.of_same {move : Move} (hx : m'.sessions[number]? = m.sessions[number]?)
    (hstage : m'.stage? number = m.stage? number) :
    m.Sees number move m'.sessions[number]? (m'.stage? number) := by
  rw [hx, hstage]
  exact .apart move

/-- A step of the runner's thread is to one session what `Sees` lists. -/
theorem sees_of_leads {input : Input} (h : m.Leads m') (number : Nat) :
    m.Sees number (.runner input) m'.sessions[number]? (m'.stage? number) := by
  obtain ⟨queued, hgoes, -, -⟩ := h
  generalize hpoint : m.point = point at hgoes
  generalize hpoint' : m'.point = point' at hgoes
  generalize hsessions : m'.sessions = sessions at hgoes
  -- from outside of all sessions to outside of all sessions
  have houtside : isServing point = false → isServing point' = false → sessions = m.sessions →
      m.Sees number (.runner input) sessions[number]? (m'.stage? number) := by
    intro hbefore hafter hsame
    rw [← hsessions]
    refine .of_same (by rw [hsessions, hsame]) ?_
    rw [stage?_eq_none (hpoint' ▸ hafter), stage?_eq_none (hpoint ▸ hbefore)]
  cases hgoes with
  | connect p a card =>
    have hbefore : m.stage? number = none := stage?_eq_none (by rw [hpoint]; rfl) number
    rw [stage?_of_serving hpoint']
    by_cases hnumber : m.sessions.length = number
    · have hnone : m.sessions[number]? = none := List.getElem?_eq_none (by omega)
      have hnew : (m.sessions ++ [({ session := { card } } : Sitting)])[number]? =
          some { session := { card } } := by
        rw [← hnumber]
        exact List.getElem?_concat_length
      rw [hnew, if_pos hnumber]
      exact .connect input card hnone
    · have hsame : (m.sessions ++ [({ session := { card } } : Sitting)])[number]? =
          m.sessions[number]? := by
        rcases Nat.lt_or_ge number m.sessions.length with hlt | hge
        · exact List.getElem?_append_left hlt
        · rw [List.getElem?_eq_none hge, List.getElem?_eq_none]
          rw [List.length_append, List.length_singleton]
          omega
      rw [hsame, if_neg hnumber, ← hbefore]
      exact .apart _
  | @turn p s s' x x' _ hs' hx hturn =>
    have hbefore := stage?_of_serving hpoint number
    rw [stage?_of_serving hpoint', hs']
    by_cases hnumber : s.session = number
    · subst hnumber
      obtain ⟨hlt, -⟩ := List.getElem?_eq_some_iff.1 hx
      rw [List.getElem?_set_self hlt, if_pos rfl]
      rw [if_pos rfl] at hbefore
      exact .turn input hx hbefore hturn
    · rw [List.getElem?_set_ne hnumber, if_neg hnumber, ← (if_neg hnumber ▸ hbefore :)]
      exact .apart _
  | @finish p s o hstage =>
    have hbefore := stage?_of_serving hpoint number
    have hafter : m'.stage? number = none :=
      stage?_eq_none (hpoint' ▸ isServing_onward p m.sessions.length o) number
    rw [hafter]
    by_cases hnumber : s.session = number
    · rw [if_pos hnumber, hstage] at hbefore
      exact .leave input hbefore
    · rw [if_neg hnumber] at hbefore
      rw [← hbefore]
      exact .apart _
  | @panic p s message hstage =>
    have hbefore := stage?_of_serving hpoint number
    have hafter : m'.stage? number = none := stage?_eq_none (by rw [hpoint']; rfl) number
    rw [hafter]
    by_cases hnumber : s.session = number
    · rw [if_pos hnumber] at hbefore
      exact .panic input hbefore hstage
    · rw [if_neg hnumber] at hbefore
      rw [← hbefore]
      exact .apart _
  | _ => exact houtside rfl rfl rfl

/-- **A possible move** is to one session what `Sees` lists. -/
theorem sees_of_step {move : Move} (h : m.step move = some m') (number : Nat) :
    m.Sees number move m'.sessions[number]? (m'.stage? number) := by
  cases happens_of_step h with
  | aside haside =>
    obtain ⟨hpoint, hsessions, -, -, -⟩ := haside.same
    refine .of_same (by rw [hsessions]) ?_
    unfold stage?
    rw [hpoint]
  | publish k command hx =>
    by_cases hk : k = number
    · subst hk
      obtain ⟨hlt, -⟩ := List.getElem?_eq_some_iff.1 hx
      have hafter := Sees.publish command hx
      rwa [← List.getElem?_set_self hlt] at hafter
    · exact .of_same (List.getElem?_set_ne hk) rfl
  | watch k input hx hwatch hturn =>
    by_cases hk : k = number
    · subst hk
      obtain ⟨hlt, -⟩ := List.getElem?_eq_some_iff.1 hx
      have hafter := Sees.watch input hx hwatch hturn
      rwa [← List.getElem?_set_self hlt] at hafter
    · exact .of_same (List.getElem?_set_ne hk) rfl
  | runner input hleads => exact sees_of_leads hleads number

/-- The settings of a machine stay what they are. -/
theorem config_of_step {move : Move} (h : m.step move = some m') : m'.config = m.config := by
  cases happens_of_step h with
  | aside haside => exact haside.same.2.2.2.1
  | publish | watch => rfl
  | runner input hleads =>
    obtain ⟨-, -, -, hkeeps⟩ := hleads
    exact hkeeps.config

/-- A command that the card was given is what the exchange asks for. -/
theorem stage?_of_asked? {command : Bytes} (h : m.asked? number = some command) :
    ∃ resume, m.stage? number = some (.exchanging (.transmit command resume)) := by
  unfold asked? at h
  split at h
  · next resume hstage =>
    cases h
    exact ⟨resume, hstage⟩
  · cases h

/-- The stage of a session is where the runner's thread stands. -/
theorem serving_of_stage? {stage : Stage} (h : m.stage? number = some stage) :
    ∃ p s, m.point = .serving p s ∧ s.session = number ∧ s.stage = stage := by
  unfold stage? at h
  split at h
  · next p s hpoint =>
    split at h
    · next hnumber =>
      cases h
      exact ⟨p, s, hpoint, hnumber, rfl⟩
    · cases h
  · cases h

/-- A session after its change. -/
theorem getElem?_onSitting {x : Sitting} (hx : m.sessions[number]? = some x)
    (change : Sitting → Sitting) :
    (m.onSitting number change).sessions[number]? = some (change x) := by
  obtain ⟨hlt, -⟩ := List.getElem?_eq_some_iff.1 hx
  rw [sessions_onSitting hx]
  exact List.getElem?_set_self hlt

/-- **The card replies**: the exchange goes on, and sends what it asks for next. -/
theorem step_reply {x : Sitting} {command : Bytes} {resume : Reply → Exchange Reply}
    (hx : m.sessions[number]? = some x)
    (hstage : m.stage? number = some (.exchanging (.transmit command resume))) (reply : Reply) :
    ∃ m', m.step (.runner (.reply reply)) = some m' ∧
      m'.sessions[number]? = some ((x.hear reply).send (resume reply)) ∧
      m'.stage? number = some (.exchanging (resume reply)) := by
  obtain ⟨p, s, hpoint, rfl, hs⟩ := serving_of_stage? hstage
  refine ⟨m.exchanging p s (resume reply) fun sitting => sitting.hear reply, ?_, ?_, ?_⟩
  · simp only [step, runner, hpoint, hx, hs, serve]
  · exact getElem?_onSitting hx _
  · exact (stage?_of_serving rfl s.session).trans (if_pos rfl)

/-- **A client publishes**: the session changes, and the runner's thread stays
where it is. -/
theorem step_publish {x : Sitting} (hx : m.sessions[number]? = some x) (command : Bytes) :
    ∃ m', m.step (.publish number command) = some m' ∧
      m'.sessions[number]? = some (x.publish command) ∧ m'.stage? number = m.stage? number := by
  obtain ⟨hlt, -⟩ := List.getElem?_eq_some_iff.1 hx
  refine ⟨m.onSitting number fun sitting => sitting.publish command, ?_, ?_, rfl⟩
  · simp only [step, if_pos hlt]
  · exact getElem?_onSitting hx _

end Machine

/-! ## What a client has still to expect -/

/-- What follows an answer: the rest of the commands is exchanged after a
response, and refused after an error. -/
def following (answer : Answer) (commands : List Bytes) (rest : Transcript) : Transcript :=
  match answer with
  | .ok raw => { rest with replies := .ok raw :: rest.replies }
  | .error e => { replies := .error e.toExchange :: commands.map fun _ => refusal }

/-- What follows a command that is exchanged on a card. -/
def carrying (p : Exchange.Performance Reply σ) (commands : List Bytes) (rest : Transcript) :
    Transcript :=
  let t := following (Machine.answerOf p.result) commands rest
  { t with sent := p.sent ++ t.sent }

/-- **What commands come to over a handle** whose session is open. -/
def ahead (stack : Stack) (card : Card σ) : List Bytes → σ → Transcript
  | [], _ => {}
  | command :: commands, s =>
    let p := (stack.exchange command).perform card s
    carrying p commands (ahead stack card commands p.card)

/-- The answer of a session is the checked result, with a removal lifted out. -/
theorem answerOf_eq (reply : Reply) :
    Machine.answerOf reply = (checked reply).mapError SessionError.ofExchange := by
  cases reply with
  | error e => rfl
  | ok raw =>
    simp only [Machine.answerOf, checked, Except.bind]
    cases Response.decode raw <;> rfl

/-- **Expecting what is ahead is expecting the direct transcript** through the handle. -/
theorem ahead_eq (stack : Stack) (card : Card σ) (commands : List Bytes) (s : σ) :
    ahead stack card commands s = (stack.direct card commands s).overHandle commands.length := by
  induction commands generalizing s with
  | nil => rfl
  | cons command commands ih =>
    simp only [ahead, carrying, answerOf_eq, Stack.direct]
    cases checked ((stack.exchange command).perform card s).result with
    | error e =>
      have hrefused : commands.map (fun _ => refusal) = List.replicate commands.length refusal :=
        List.map_const'
      simp [following, Except.mapError, Transcript.overHandle, overHandle,
        SessionError.toExchange_ofExchange, hrefused]
    | ok raw =>
      simp [following, Except.mapError, Transcript.overHandle, overHandle, ih]

/-! ## Phases -/

/-- Where a session is with the command of its client. -/
inductive Phase where
  /-- It can be given a command. -/
  | free
  /-- It was given a command, and the runner's thread has not taken it. -/
  | requested (command : Bytes) (ticket : Ticket)
  /-- The command is exchanged, and this much is left of the exchange. -/
  | carried (ticket : Ticket) (rest : Exchange Reply)
  /-- The exchange is over, and the answer is on its way. -/
  | settled (ticket : Ticket) (answer : Answer)
  /-- It takes no commands any more. -/
  | ended

namespace Phase

/-- The ticket whose answer is not there yet. -/
def ticket? : Phase → Option Ticket
  | .requested _ t | .carried t _ | .settled t _ => some t
  | .free | .ended => none

/-- **What the client has still to expect** in a phase, on a card in this
state, with these commands left. The command that the card was asked last
has been sent. -/
def outlook (stack : Stack) (card : Card σ) (s : σ) (commands : List Bytes) : Phase → Transcript
  | .free => ahead stack card commands s
  | .requested command _ => ahead stack card (command :: commands) s
  | .carried _ rest =>
    let p := rest.perform card s
    carrying { p with physical := p.physical.tail } commands (ahead stack card commands p.card)
  | .settled _ answer => following answer commands (ahead stack card commands s)
  | .ended => { replies := commands.map fun _ => refusal }

end Phase

/-- The runner's thread has not taken the next command. -/
def Stage.isCalm : Stage → Bool
  | .opened | .announcing | .hiring | .looping | .timing | .listening _ | .asleep _ => true
  | _ => false

/-- The runner's thread has closed the slot, and has answered what was in it. -/
def Stage.isPast : Stage → Bool
  | .concluding (.telling _) | .concluding (.recording _) | .concluding (.releasing _)
  | .concluding (.returned _) | .dismissing _ | .interrupting _ | .joining _ | .served _ => true
  | _ => false

/-- **A session stands in a phase**, for the stage of the runner's thread in it. -/
inductive Stands (x : Sitting) : Option Stage → Phase → Prop
  | free {stage : Stage} (hcalm : stage.isCalm = true)
    (hslot : x.session.rendezvous.slot = .idle) : Stands x (some stage) .free
  | requested {stage : Stage} {command : Bytes} {t : Ticket} (hcalm : stage.isCalm = true)
    (hslot : x.session.rendezvous.slot = .requested command t) :
    Stands x (some stage) (.requested command t)
  | carried {t : Ticket} {rest : Exchange Reply}
    (hslot : x.session.rendezvous.slot = .inFlight t) :
    Stands x (some (.exchanging rest)) (.carried t rest)
  | answering {t : Ticket} {answer : Answer} (hslot : x.session.rendezvous.slot = .inFlight t) :
    Stands x (some (.answering answer)) (.settled t answer)
  | resolving {t : Ticket} {raw : Bytes} (hslot : x.session.rendezvous.slot = .idle) :
    Stands x (some (.resolving t (.ok raw))) (.settled t (.ok raw))
  | seeking {t : Ticket} {o : Outcome} (hslot : x.session.rendezvous.slot = .inFlight t) :
    Stands x (some (.concluding (.seeking o))) (.settled t (.error o.reason))
  | deciding {t : Ticket} {o : Outcome} (hslot : x.session.rendezvous.slot = .inFlight t) :
    Stands x (some (.concluding (.deciding o))) (.settled t (.error o.reason))
  | closing {t : Ticket} {o : Outcome} (hslot : x.session.rendezvous.slot = .closed) :
    Stands x (some (.concluding (.closing o (some t)))) (.settled t (.error o.reason))
  | past {stage : Stage} (hpast : stage.isPast = true)
    (hslot : x.session.rendezvous.slot = .closed) : Stands x (some stage) .ended
  | left {o : Outcome} (hover : x.Over o) (hslot : x.session.rendezvous.slot = .closed) :
    Stands x none .ended

/-- **A session proceeds** from one phase to another if the client can still
expect the same: what is no longer ahead was sent to the card, or is the
answer to the ticket, which is there now. -/
structure Proceeds (stack : Stack) (card : Card σ) (x : Sitting) (p : Phase) (s : σ)
    (x' : Sitting) (p' : Phase) (s' : σ) : Prop where
  /-- No answer changes. -/
  polls : ∀ t a, x.session.rendezvous.poll t = some a → x'.session.rendezvous.poll t = some a
  sent : ∀ commands, x'.sent ++ (p'.outlook stack card s' commands).sent =
    x.sent ++ (p.outlook stack card s commands).sent
  replies : (p'.ticket? = p.ticket? ∧ ∀ commands,
      (p'.outlook stack card s' commands).replies = (p.outlook stack card s commands).replies) ∨
    ∃ t a, p.ticket? = some t ∧ p'.ticket? = none ∧ x'.session.rendezvous.poll t = some a ∧
      ∀ commands, (p.outlook stack card s commands).replies =
        a.toReply :: (p'.outlook stack card s' commands).replies

/-! ## The steps of the runner's thread -/

section Steps

variable {config : Config} {preempted : Prop} {number : Nat} {x x' : Sitting}
variable {stage stage' : Stage} {before : Option Stage} {queued : List Event} {p : Phase}
variable {stack : Stack} {card : Card σ} {s s' : σ} {t : Ticket}

@[simp] theorem session_send (x : Sitting) (rest : Exchange Reply) :
    (x.send rest).session = x.session := by
  cases rest <;> rfl

/-- A command that was taken is exchanged. -/
theorem stands_send (hslot : x.session.rendezvous.slot = .inFlight t) (rest : Exchange Reply) :
    Stands (x.send rest) (some (.exchanging rest)) (.carried t rest) := by
  refine .carried ?_
  rw [session_send]
  exact hslot

/-- What an exchange asks for first is sent at once, and the rest is ahead. -/
theorem sent_send (x : Sitting) (t : Ticket) (rest : Exchange Reply) (stack : Stack)
    (card : Card σ) (s : σ) (commands : List Bytes) :
    (x.send rest).sent ++ ((Phase.carried t rest).outlook stack card s commands).sent =
      x.sent ++ (carrying (rest.perform card s) commands
        (ahead stack card commands (rest.perform card s).card)).sent := by
  cases rest with
  | done reply => rfl
  | transmit command resume =>
    simp [Sitting.send, Phase.outlook, carrying, Exchange.perform, Exchange.Performance.after,
      Exchange.Performance.sent]

/-- A step that leaves the answers and the log as they are leaves the outlook. -/
theorem Proceeds.stay (hr : x'.session.rendezvous = x.session.rendezvous)
    (hsent : x'.sent = x.sent) : Proceeds stack card x p s x' p s where
  polls := fun t a ha => by rw [hr, ha]
  sent := fun commands => by rw [hsent]
  replies := .inl ⟨rfl, fun _ => rfl⟩

/-- **The ticket of a phase has no answer yet.** -/
theorem Stands.unanswered (h : Stands x before p) (hs : x.Sound config preempted before)
    (ht : p.ticket? = some t) : x.session.rendezvous.poll t = none := by
  refine ((hs.orderly.accounted.unanswered_iff t).2 ?_).2
  cases h with
  | requested hcalm hslot | carried hslot | answering hslot | seeking hslot | deciding hslot =>
    cases ht
    rw [hslot]
    exact List.mem_append_left _ List.mem_cons_self
  | resolving hslot =>
    cases ht
    exact List.mem_append_right _ (List.mem_append_right _ List.mem_cons_self)
  | closing hslot =>
    cases ht
    exact List.mem_append_right _ (List.mem_append_left _ List.mem_cons_self)
  | free | past | left => cases ht

/-- A runner's thread that has not taken a command goes on without touching
anything, or takes the command, or finds the slot closed. -/
theorem Turn.of_isCalm (hturn : Turn config number x stage stage' x' queued)
    (hcalm : stage.isCalm = true) (hgives : Stage.givesUp (some stage) (some stage') = false) :
    (stage'.isCalm = true ∧ x'.session.rendezvous = x.session.rendezvous ∧ x'.sent = x.sent) ∨
    (∃ command t, x.session.rendezvous.slot = .requested command t ∧
      stage' = .exchanging (config.stack.exchange command) ∧
      x' = (x.take command { x.session.rendezvous with slot := .inFlight t }).send
        (config.stack.exchange command)) ∨
    x.session.rendezvous.slot = .closed := by
  cases hturn with
  | enter | announce | hire | go | listen => exact .inl ⟨rfl, rfl, rfl⟩
  | unwatched | cancel | idle => cases hgives
  | take command t hstage hslot => exact .inr (.inl ⟨command, t, hslot, rfl, rfl⟩)
  | shut hstage hslot => exact .inr (.inr hslot)
  | wait stage' hstage hstage' =>
    refine .inl ⟨?_, rfl, rfl⟩
    rcases hstage' with rfl | ⟨deadline, rfl⟩ <;> rfl
  | _ => cases hcalm

/-- Where a step leads from a phase, if nothing is lost by it. -/
def LeadsOn (config : Config) (card : Card σ) (s : σ) (x : Sitting) (p : Phase) (x' : Sitting)
    (stage' : Stage) : Prop :=
  ∃ p', Stands x' (some stage') p' ∧ Proceeds config.stack card x p s x' p' s

/-- The runner's thread has not taken the command that waits. -/
theorem leadsOn_of_requested {command : Bytes} (hcalm : stage.isCalm = true)
    (hslot : x.session.rendezvous.slot = .requested command t)
    (hturn : Turn config number x stage stage' x' queued)
    (hgives : Stage.givesUp (some stage) (some stage') = false) (card : Card σ) (s : σ) :
    LeadsOn config card s x (.requested command t) x' stage' := by
  rcases hturn.of_isCalm hcalm hgives with ⟨hcalm', hr, hsent⟩ | ⟨command', t', hslot', rfl, rfl⟩ |
    hslot'
  · exact ⟨.requested command t, .requested hcalm' (by rw [hr, hslot]), .stay hr hsent⟩
  · rw [hslot] at hslot'
    cases hslot'
    refine ⟨.carried t _, stands_send rfl _, fun t a ha => ?_, fun commands => ?_,
      .inl ⟨rfl, fun _ => rfl⟩⟩
    · rw [session_send]
      exact ha
    · exact sent_send _ t (config.stack.exchange command) config.stack card s commands
  · rw [hslot] at hslot'
    cases hslot'

/-- The answer to a ticket comes to be known. -/
theorem proceeds_of_resolve {a : Answer} {p' : Phase}
    (hpoll : x.session.rendezvous.poll t = none) (hp : p.ticket? = some t)
    (hp' : p'.ticket? = none) (hx' : x'.session.rendezvous = x.session.rendezvous.resolve t a)
    (hsent : x'.sent = x.sent)
    (houtlook : ∀ commands, p.outlook stack card s commands =
      { p'.outlook stack card s commands with
        replies := a.toReply :: (p'.outlook stack card s commands).replies }) :
    Proceeds stack card x p s x' p' s where
  polls := fun t' a' ha' => by
    rw [hx']
    exact Rendezvous.poll_resolve_of_some ha'
  sent := fun commands => by rw [hsent, houtlook]
  replies := by
    refine .inr ⟨t, a, hp, hp', ?_, fun commands => by rw [houtlook]⟩
    rw [hx', Rendezvous.poll_resolve, hpoll, if_pos rfl, Option.none_or]

/-- **A step of the runner's thread** in a session leads on, unless it gives
the session up or waits for the card. -/
theorem Stands.turn (h : Stands x (some stage) p) (hs : x.Sound config preempted (some stage))
    (hturn : Turn config number x stage stage' x' queued)
    (hgives : Stage.givesUp (some stage) (some stage') = false)
    (hasked : ∀ command resume, stage ≠ .exchanging (.transmit command resume))
    (card : Card σ) (s : σ) : LeadsOn config card s x p x' stage' := by
  have hunanswered := fun t => h.unanswered hs (t := t)
  cases h with
  | free hcalm hslot =>
    rcases hturn.of_isCalm hcalm hgives with ⟨hcalm', hr, hsent⟩ | ⟨command, t, hslot', -⟩ | hslot'
    · exact ⟨.free, .free hcalm' (by rw [hr, hslot]), .stay hr hsent⟩
    · rw [hslot] at hslot'
      cases hslot'
    · rw [hslot] at hslot'
      cases hslot'
  | requested hcalm hslot => exact leadsOn_of_requested hcalm hslot hturn hgives card s
  | @carried t rest hslot =>
    cases hturn with
    | hear command resume reply => exact absurd rfl (hasked command resume)
    | settle reply =>
      exact ⟨.settled t (Machine.answerOf reply), .answering hslot, fun _ _ ha => ha,
        fun _ => rfl, .inl ⟨rfl, fun _ => rfl⟩⟩
    | take _ _ hstage | shut hstage | wait _ hstage => cases hstage
  | @answering t answer hslot =>
    cases hturn with
    | release raw t' hslot' =>
      rw [hslot] at hslot'
      cases hslot'
      exact ⟨.settled t (.ok raw), .resolving rfl, fun _ _ ha => ha, fun _ => rfl,
        .inl ⟨rfl, fun _ => rfl⟩⟩
    | stray raw hslot' => exact absurd hslot (hslot' t)
    | fail e =>
      have hreason : (Machine.outcomeOf e).reason = e := by
        unfold Machine.outcomeOf
        split <;> rfl
      have hseeking := Stands.seeking (o := Machine.outcomeOf e) hslot
      rw [hreason] at hseeking
      exact ⟨_, hseeking, .stay rfl rfl⟩
    | take _ _ hstage | shut hstage | wait _ hstage => cases hstage
  | @resolving t raw hslot =>
    cases hturn with
    | resolve t answer =>
      exact ⟨.free, .free rfl hslot, proceeds_of_resolve (hunanswered t rfl) rfl rfl rfl rfl
        fun _ => rfl⟩
    | take _ _ hstage | shut hstage | wait _ hstage => cases hstage
  | @seeking t o hslot =>
    cases hturn with
    | conclude hadvance =>
      cases hadvance with
      | latch o hfree => exact ⟨_, .deciding hslot, .stay rfl rfl⟩
    | concluded hadvance => cases hadvance
    | take _ _ hstage | shut hstage | wait _ hstage => cases hstage
  | @deciding t o hslot =>
    have hopen := hs.orderly.lawful.outcome_of_open (by simp [hslot])
    cases hturn with
    | conclude hadvance hcall' =>
      cases hadvance with
      | late o r hrecorded => exact absurd rfl (hcall' r)
      | shut o hfirst =>
        rw [hslot]
        exact ⟨_, .closing rfl, fun _ _ ha => ha, fun _ => rfl, .inl ⟨rfl, fun _ => rfl⟩⟩
    | concluded hadvance =>
      cases hadvance with
      | late o r hrecorded =>
        rw [hopen] at hrecorded
        cases hrecorded
    | take _ _ hstage | shut hstage | wait _ hstage => cases hstage
  | @closing t o hslot =>
    cases hturn with
    | conclude hadvance =>
      cases hadvance with
      | resolve o t =>
        exact ⟨.ended, .past rfl hslot, proceeds_of_resolve (hunanswered t rfl) rfl rfl rfl rfl
          fun _ => rfl⟩
    | concluded hadvance => cases hadvance
    | take _ _ hstage | shut hstage | wait _ hstage => cases hstage
  | past hpast hslot =>
    cases hturn with
    | conclude hadvance hcall' =>
      cases hadvance with
      | tell | record => exact ⟨.ended, .past rfl hslot, .stay rfl rfl⟩
      | late | unlatch | rest => exact absurd rfl (hcall' _)
      | _ => cases hpast
    | concluded hadvance =>
      cases hadvance with
      | late => cases hpast
      | unlatch | rest => exact ⟨.ended, .past rfl hslot, .stay rfl rfl⟩
    | alone | interrupt | join => exact ⟨.ended, .past rfl hslot, .stay rfl rfl⟩
    | dismiss o w status stage' hwatch hstage' =>
      refine ⟨.ended, .past ?_ hslot, .stay rfl rfl⟩
      rcases hstage' with rfl | rfl <;> rfl
    | take _ _ hstage | shut hstage | wait _ hstage =>
      cases stage <;> cases hstage <;> cases hpast
    | _ => cases hpast

/-- **A reply of the card** leads on. -/
theorem Stands.hear (stack : Stack) {command : Bytes} {resume : Reply → Exchange Reply}
    (h : Stands x (some (.exchanging (.transmit command resume))) p) {card : Card σ} {s : σ}
    (hx' : x' = (x.hear (card command s).1).send (resume (card command s).1)) :
    ∃ p', Stands x' (some (.exchanging (resume (card command s).1))) p' ∧
      Proceeds stack card x p s x' p' (card command s).2 := by
  subst hx'
  cases h with
  | @carried t rest hslot =>
    refine ⟨.carried t (resume (card command s).1), stands_send (x := x.hear _) hslot _,
      fun t a ha => ?_, fun commands => ?_, .inl ⟨rfl, fun _ => rfl⟩⟩
    · rw [session_send]
      exact ha
    · exact sent_send _ t (resume (card command s).1) stack card (card command s).2 commands
  | free hcalm | requested hcalm => cases hcalm
  | past hpast => cases hpast

/-- A session without an open ticket is free for a command, or refuses it. -/
theorem Stands.of_no_ticket (h : Stands x before p) (hp : p.ticket? = none) :
    (p = .free ∧ x.session.rendezvous.slot = .idle ∧
      ∃ stage, before = some stage ∧ stage.isCalm = true) ∨
    (p = .ended ∧ x.session.rendezvous.slot = .closed) := by
  cases h with
  | free hcalm hslot => exact .inl ⟨rfl, hslot, _, rfl, hcalm⟩
  | past hpast hslot => exact .inr ⟨rfl, hslot⟩
  | left hover hslot => exact .inr ⟨rfl, hslot⟩
  | _ => cases hp

/-- A phase depends on the slot, and on whether a session that was left is over. -/
theorem Stands.congr (h : Stands x before p)
    (hslot : x'.session.rendezvous.slot = x.session.rendezvous.slot)
    (hover : ∀ o, x.Over o → x'.Over o) : Stands x' before p := by
  cases h with
  | free hcalm h => exact .free hcalm (hslot.trans h)
  | requested hcalm h => exact .requested hcalm (hslot.trans h)
  | carried h => exact .carried (hslot.trans h)
  | answering h => exact .answering (hslot.trans h)
  | resolving h => exact .resolving (hslot.trans h)
  | seeking h => exact .seeking (hslot.trans h)
  | deciding h => exact .deciding (hslot.trans h)
  | closing h => exact .closing (hslot.trans h)
  | past hpast h => exact .past hpast (hslot.trans h)
  | left ho h => exact .left (hover _ ho) (hslot.trans h)

/-! ## The steps of the watch -/

/-- The runner's thread has not taken the latch before it takes a command. -/
theorem unclaimed_of_isCalm (hcalm : stage.isCalm = true) : Sitting.Unclaimed (some stage) := by
  cases stage <;> trivial

/-- After the slot is closed, the runner's thread holds the latch until the
outcome is recorded. -/
theorem holds_of_isPast (hpast : stage.isPast = true) (hs : x.Sound config preempted (some stage))
    (hnone : x.session.outcome = none) :
    ∃ call, Stage.calls (some stage) = [call] ∧ call.holds = true := by
  have hfits := hs.fits
  cases stage with
  | concluding call =>
    refine ⟨call, rfl, ?_⟩
    cases call with
    | returned o =>
      have hrecorded := hs.orderly.lawful.returned o List.mem_cons_self
      rw [hnone] at hrecorded
      cases hrecorded
    | seeking o => cases hpast
    | _ => rfl
  | dismissing o | interrupting o | joining o => exact absurd (hnone.symm.trans hfits) (by simp)
  | served o => exact absurd (hnone.symm.trans hfits.1) (by simp)
  | _ => cases hpast

/-- **A watch that is not the first** to take the latch of a session has it
only after the outcome is recorded. -/
theorem recorded_of_watch (h : Stands x before p) (hs : x.Sound config preempted before)
    (hp : ¬ preempted) {w : Watch} {call : Conclusion} (hwatch : x.watch = some w)
    (hpoint : w.point = .concluding call) (hholds : call.holds = true) :
    x.session.outcome ≠ none := by
  intro hnone
  have hperm : (x.calls before).Perm (call :: Stage.calls before) := by
    rw [Sitting.calls, Sitting.watching, hwatch, Option.elim_some, hpoint]
    exact List.perm_append_singleton _ _
  have hlawful := (hs.orderly.perm hperm).lawful
  -- before the runner's thread takes the latch there is no verdict
  have hclaimed : ¬ Sitting.Unclaimed before := by
    intro hunclaimed
    have hverdict := hs.quiet hp hunclaimed
    rw [← hs.orderly.lawful.verdict_perm hperm, Session.Lawful.verdict_of_holds _ _ hholds, hnone,
      Option.none_or] at hverdict
    cases call <;> cases hholds <;> cases hverdict
  -- and while it has the latch, nobody else has
  have halone : ¬ ∃ other, Stage.calls before = [other] ∧ other.holds = true := by
    rintro ⟨other, hother, hholds'⟩
    have hothers := hlawful.holder?_others hholds
    rw [hother, Session.holder?_cons_of_holds hholds'] at hothers
    cases hothers
  cases h with
  | free hcalm => exact hclaimed (unclaimed_of_isCalm hcalm)
  | requested hcalm => exact hclaimed (unclaimed_of_isCalm hcalm)
  | carried | answering | resolving => exact hclaimed trivial
  | seeking => exact hclaimed ⟨_, rfl⟩
  | deciding | closing => exact halone ⟨_, rfl, rfl⟩
  | past hpast => exact halone (holds_of_isPast hpast hs hnone)
  | left hover =>
    rw [hover.2 w hwatch] at hpoint
    cases hpoint

/-- **A step of the watch** leaves the phase as it is, unless the watch is the
first to take the latch. -/
theorem Stands.watch (h : Stands x before p) (hs : x.Sound config preempted before)
    (hp : ¬ preempted) {w w' : Watch} {session : Session} (hwatch : x.watch = some w)
    (hturn : Watch.Turn x.session w.point w'.point session queued) :
    Stands { x with session, watch := some w' } before p ∧
      Proceeds stack card x p s { x with session, watch := some w' } p s := by
  have hsame : session.rendezvous = x.session.rendezvous := by
    generalize hpoint : w.point = point at hturn
    generalize w'.point = point' at hturn
    cases hturn with
    | check | heed | still | seek | leave => rfl
    | conclude hadvance =>
      have hrecorded := recorded_of_watch h hs hp hwatch hpoint
      cases hadvance with
      | shut o hfirst => exact absurd hfirst (hrecorded rfl)
      | resolve o t =>
        have hclosing : Conclusion.closing o (some t) ∈ x.calls before := by
          rw [Sitting.calls, Sitting.watching, hwatch, Option.elim_some, hpoint]
          exact List.mem_append_right _ List.mem_cons_self
        exact absurd (hs.orderly.lawful.verdict_of_closing hclosing).2 (hrecorded rfl)
      | _ => rfl
    | concluded hadvance => cases hadvance <;> rfl
  refine ⟨h.congr (congrArg Rendezvous.slot hsame) fun o ho => ?_, .stay hsame rfl⟩
  exact (ho.not_turn hwatch hturn).elim

end Steps

end Runner

end SmartCard
