import SmartCard.Proofs.Runner.Phases
/-!
# A dialogue in step with the card

A client that talks to a session through a handle is in step with one that
talks to the layers over the card directly: what it has got so far, together
with what it has still to expect in the phase of the session, is what it would
get directly. `InStep` is this invariant with all that it rests on. There is
one lemma for each kind of move, `InStep.step` puts them together, and
`InStep.run` is a whole run. `InStep.agrees` is what the client can see of it.
-/

namespace SmartCard

namespace Runner

variable {σ : Type} {card : Card σ} {number : Nat} {config : Config} {t : Transcript}

/-! ## What the client waits for -/

/-- **How a client waits**, for the phase of its session, and the reply that is
there for it to poll, if one is. -/
inductive Awaits (r : Rendezvous) (p : Phase) : Option Pending → List Reply → Prop
  | nothing (hp : p.ticket? = none) : Awaits r p none []
  | answer {ticket : Ticket} (hp : p.ticket? = some ticket) :
    Awaits r p (some (.awaiting ticket .done)) []
  | answered {ticket : Ticket} {a : Answer} (hp : p.ticket? = none) (ha : r.poll ticket = some a) :
    Awaits r p (some (.awaiting ticket .done)) [a.toReply]
  | refused {reply : Reply} (hp : p.ticket? = none) :
    Awaits r p (some (.ready (.done reply))) [reply]

/-- While the session proceeds, the client goes on to wait for the same. -/
theorem Awaits.proceeds {x x' : Sitting} {p p' : Phase} {s s' : σ} {pending : Option Pending}
    {early : List Reply} {stack : Stack} (h : Awaits x.session.rendezvous p pending early)
    (hproceeds : Proceeds stack card x p s x' p' s') :
    ∃ early', Awaits x'.session.rendezvous p' pending early' ∧
      ∀ commands, early' ++ (p'.outlook stack card s' commands).replies =
        early ++ (p.outlook stack card s commands).replies := by
  rcases hproceeds.replies with ⟨hticket, hreplies⟩ |
    ⟨ticket, a, hticket, hticket', hpoll, hreplies⟩
  · -- the ticket stays what it is
    refine ⟨early, ?_, fun commands => by rw [hreplies]⟩
    cases h with
    | nothing hp => exact .nothing (hticket.trans hp)
    | answer hp => exact .answer (hticket.trans hp)
    | answered hp ha => exact .answered (hticket.trans hp) (hproceeds.polls _ _ ha)
    | refused hp => exact .refused (hticket.trans hp)
  · -- the answer to the ticket has come
    cases h with
    | answer hp =>
      obtain rfl := Option.some.inj (hticket.symm.trans hp)
      exact ⟨[a.toReply], .answered hticket' hpoll, fun commands => (hreplies commands).symm⟩
    | nothing hp | answered hp | refused hp =>
      rw [hticket] at hp
      cases hp

/-! ## The invariant -/

namespace Dialogue

/-- The client of an open session has got and can expect, in all, the
transcript. -/
inductive Engaged (config : Config) (card : Card σ) (number : Nat) (t : Transcript)
    (d : Dialogue σ) : Prop
  | intro (x : Sitting) (p : Phase) (early : List Reply)
    (hx : d.machine.sessions[number]? = some x)
    (hstands : Stands x (d.machine.stage? number) p)
    (hawaits : Awaits x.session.rendezvous p d.pending early)
    (hreplies : t.replies =
      d.replies ++ (early ++ (p.outlook config.stack card d.card d.commands).replies))
    (hsent : t.sent = x.sent ++ (p.outlook config.stack card d.card d.commands).sent)

/-- The session has not been opened. -/
structure Unopened (config : Config) (card : Card σ) (number : Nat) (t : Transcript)
    (d : Dialogue σ) : Prop where
  session : d.machine.sessions[number]? = none
  pending : d.pending = none
  replies : d.replies = []
  ahead : t = ahead config.stack card d.commands d.card

/-- **A dialogue is in step with a transcript.** -/
structure InStep (config : Config) (card : Card σ) (number : Nat) (t : Transcript)
    (d : Dialogue σ) : Prop where
  setting : d.machine.config = config
  /-- The watch was not the first to take the latch. -/
  kept : ∃ preempted, d.machine.Kept preempted ∧ ¬ preempted number
  interval : d.machine.KeepsInterval
  standing : d.Unopened config card number t ∨ d.Engaged config card number t

variable {d d' : Dialogue σ} {m : Machine} {move : Machine.Move}

/-- Before the first move everything is ahead. -/
theorem InStep.start (config : Config) (card : Card σ) (number : Nat) (reader : String) (s : σ)
    (commands : List Bytes) :
    (start config reader s commands).InStep config card number
      (expected config card s commands) where
  setting := rfl
  kept := ⟨_, .initial config reader, id⟩
  interval := Machine.keepsInterval_initial config reader
  standing := .inl ⟨rfl, rfl, rfl, (ahead_eq config.stack card commands s).symm⟩

/-- The session proceeds, and the client does nothing. -/
theorem Engaged.of_proceeds {x x' : Sitting} {p p' : Phase} {early : List Reply}
    (hawaits : Awaits x.session.rendezvous p d.pending early)
    (hreplies : t.replies =
      d.replies ++ (early ++ (p.outlook config.stack card d.card d.commands).replies))
    (hsent : t.sent = x.sent ++ (p.outlook config.stack card d.card d.commands).sent)
    {s' : σ} (hx' : m.sessions[number]? = some x') (hstands' : Stands x' (m.stage? number) p')
    (hproceeds : Proceeds config.stack card x p d.card x' p' s') :
    Engaged config card number t { d with machine := m, card := s' } := by
  obtain ⟨early', hawaits', houtlook⟩ := hawaits.proceeds hproceeds
  refine ⟨x', p', early', hx', hstands', hawaits', ?_, ?_⟩
  · rw [hreplies, houtlook]
  · rw [hsent, hproceeds.sent]

/-! ## The moves -/

/-- A watch that preempts disturbs. -/
theorem not_preempts_of_disturbs (h : d.machine.disturbs m number move = false) :
    ¬ d.machine.Preempts number move := by
  cases move with
  | watch k input =>
    rintro ⟨rfl, x, w, o, hx, hwatch, hpoint, houtcome⟩
    simp [Machine.disturbs, hx, Sitting.isClaimed, houtcome, hwatch, hpoint] at h
  | _ => exact id

/-- **A move of somebody else** keeps the dialogue in step. -/
theorem InStep.other (h : d.InStep config card number t) (hstep : d.machine.step move = some m)
    (hdisturbs : d.machine.disturbs m number move = false) :
    InStep config card number t { d with machine := m } := by
  obtain ⟨preempted, hkept, hp⟩ := h.kept
  refine ⟨(Machine.config_of_step hstep).trans h.setting, ⟨_, hkept.step hstep, fun hor =>
    hor.elim hp (not_preempts_of_disturbs hdisturbs)⟩, h.interval.step hstep, ?_⟩
  have hsees := Machine.sees_of_step hstep number
  generalize hx' : m.sessions[number]? = after at hsees
  generalize hstage' : m.stage? number = place at hsees
  rcases h.standing with hunopened | ⟨x, p, early, hx, hstands, hawaits, hreplies, hsent⟩
  · have hnone := hunopened.session
    cases hsees with
    | connect input new =>
      refine .inr ⟨_, .free, [], hx', hstage' ▸ .free rfl rfl, ?_, ?_, ?_⟩
      · rw [hunopened.pending]
        exact .nothing rfl
      · rw [hunopened.ahead, hunopened.replies]
        rfl
      · rw [hunopened.ahead]
        rfl
    | publish _ hx | watch _ hx | turn _ hx =>
      rw [hnone] at hx
      cases hx
    | apart | leave | panic =>
      exact .inl ⟨hx'.trans hnone, hunopened.pending, hunopened.replies, hunopened.ahead⟩
  · have hs := hkept.sound number x hx
    rw [h.setting] at hs
    refine .inr ?_
    cases hsees with
    | apart =>
      exact .of_proceeds hawaits hreplies hsent (hx'.trans hx) (hstage' ▸ hstands) (.stay rfl rfl)
    | connect input new hnone =>
      rw [hx] at hnone
      cases hnone
    | publish command => simp [Machine.disturbs] at hdisturbs
    | watch input hsame hwatch hturn =>
      obtain rfl := Option.some.inj (hx.symm.trans hsame)
      obtain ⟨hstands', hproceeds⟩ := hstands.watch hs hp hwatch hturn
      exact .of_proceeds hawaits hreplies hsent hx' (hstage' ▸ hstands') hproceeds
    | @turn input _ x' stage stage' _ hsame hstage hturn =>
      obtain rfl := Option.some.inj (hx.symm.trans hsame)
      rw [hstage] at hstands hs
      rw [h.setting] at hturn
      simp only [Machine.disturbs, hstage, hstage', Bool.or_eq_false_iff] at hdisturbs
      obtain ⟨hasked, hgives⟩ := hdisturbs
      have hwaits : ∀ command resume, stage ≠ .exchanging (.transmit command resume) := by
        rintro command resume rfl
        simp [Machine.asked?, hstage] at hasked
      obtain ⟨p', hstands', hproceeds⟩ := hstands.turn hs hturn hgives hwaits card d.card
      exact .of_proceeds hawaits hreplies hsent hx' (hstage' ▸ hstands') hproceeds
    | leave input hstage =>
      rw [hstage] at hstands hs
      cases hstands with
      | past hpast hslot =>
        exact .of_proceeds hawaits hreplies hsent (hx'.trans hx) (hstage' ▸ .left hs.fits hslot)
          (.stay rfl rfl)
      | free hcalm | requested hcalm => cases hcalm
    | panic input hstage hpanic =>
      rcases Stage.cases_of_canPanic hpanic with ⟨_, rfl⟩ | ⟨_, _, rfl⟩ <;>
        simp [Machine.disturbs, Machine.asked?, Stage.givesUp, hstage, hstage'] at hdisturbs

/-- **The card replies**, and the dialogue stays in step. -/
theorem InStep.exchange (h : d.InStep config card number t) {command : Bytes}
    (hasked : d.machine.asked? number = some command)
    (hstep : d.machine.step (.runner (.reply (card command d.card).1)) = some m) :
    InStep config card number t { d with machine := m, card := (card command d.card).2 } := by
  obtain ⟨preempted, hkept, hp⟩ := h.kept
  obtain ⟨resume, hstage⟩ := Machine.stage?_of_asked? hasked
  refine ⟨(Machine.config_of_step hstep).trans h.setting, ⟨_, hkept.step hstep, fun hor =>
    hor.elim hp id⟩, h.interval.step hstep, .inr ?_⟩
  rcases h.standing with hunopened | ⟨x, p, early, hx, hstands, hawaits, hreplies, hsent⟩
  · -- the runner's thread is in no session that was not opened
    obtain ⟨params, s, hpoint, hnumber, -⟩ := Machine.serving_of_stage? hstage
    have hlast := hkept.current params s hpoint
    have hlength := List.getElem?_eq_none_iff.1 hunopened.session
    omega
  · obtain ⟨m', hstep', hx', hstage'⟩ := Machine.step_reply hx hstage (card command d.card).1
    obtain rfl := Option.some.inj (hstep.symm.trans hstep')
    rw [hstage] at hstands
    obtain ⟨p', hstands', hproceeds⟩ := hstands.hear config.stack rfl
    exact .of_proceeds hawaits hreplies hsent hx' (hstage' ▸ hstands') hproceeds

/-- **The client submits a command**, and the dialogue stays in step. -/
theorem InStep.submit (h : d.InStep config card number t) {command : Bytes}
    {commands : List Bytes} {r : Rendezvous} (hpending : d.pending = none)
    (hcommands : d.commands = command :: commands) (hr : d.machine.handle? number = some r)
    (hstep : d.machine.step (.publish number command) = some m) :
    InStep config card number t
      { d with machine := m, commands, pending := some (Pending.submit command r).1 } := by
  obtain ⟨preempted, hkept, hp⟩ := h.kept
  refine ⟨(Machine.config_of_step hstep).trans h.setting, ⟨_, hkept.step hstep, fun hor =>
    hor.elim hp id⟩, h.interval.step hstep, .inr ?_⟩
  rcases h.standing with hunopened | ⟨x, p, early, hx, hstands, hawaits, hreplies, hsent⟩
  · rw [Machine.handle?, hunopened.session] at hr
    cases hr
  · obtain ⟨m', hstep', hx', hstage'⟩ := Machine.step_publish hx command
    obtain rfl := Option.some.inj (hstep.symm.trans hstep')
    obtain rfl : x.session.rendezvous = r := by
      rw [Machine.handle?, hx] at hr
      exact Option.some.inj hr
    rw [hcommands] at hreplies hsent
    rw [hpending] at hawaits
    cases hawaits with
    | nothing hticket =>
      rcases hstands.of_no_ticket hticket with ⟨rfl, hslot, stage, hstage, hcalm⟩ | ⟨rfl, hslot⟩
      · -- the command is accepted
        rw [hstage] at hstage'
        refine ⟨_, .requested command x.session.rendezvous.issued, [], hx', ?_, ?_, hreplies, ?_⟩
        · rw [hstage']
          refine .requested hcalm ?_
          simp only [Sitting.publish, Rendezvous.publish, hslot]
          rfl
        · simp only [Pending.submit, Rendezvous.publish, hslot]
          exact .answer rfl
        · rw [hsent]
          simp only [Sitting.publish, Rendezvous.publish, hslot]
          rfl
      · -- the command is refused
        have hsame : x.publish command = x := by
          simp only [Sitting.publish, Rendezvous.publish, hslot]
          rfl
        rw [hsame] at hx'
        refine ⟨x, .ended, [refusal], hx', hstage'.symm ▸ hstands, ?_, hreplies, hsent⟩
        simp only [Pending.submit, Rendezvous.publish, hslot]
        exact .refused rfl

/-- **The client polls**, and the dialogue stays in step. -/
theorem InStep.poll (h : d.InStep config card number t) {pending : Pending} {r : Rendezvous}
    (hpending : d.pending = some pending) (hr : d.machine.handle? number = some r) :
    (∀ reply, (pending.poll r).1 = .inl reply → InStep config card number t
      { d with pending := none, replies := d.replies ++ [reply] }) ∧
    ∀ pending', (pending.poll r).1 = .inr pending' → InStep config card number t
      { d with pending := some pending' } := by
  obtain ⟨preempted, hkept, hp⟩ := h.kept
  rcases h.standing with hunopened | ⟨x, p, early, hx, hstands, hawaits, hreplies, hsent⟩
  · rw [Machine.handle?, hunopened.session] at hr
    cases hr
  · obtain rfl : x.session.rendezvous = r := by
      rw [Machine.handle?, hx] at hr
      exact Option.some.inj hr
    have hs := hkept.sound number x hx
    -- a reply that is there is the next that the client can expect
    have hlogged : ∀ reply, early = [reply] → p.ticket? = none → InStep config card number t
        { d with pending := none, replies := d.replies ++ [reply] } := by
      rintro reply rfl hticket
      refine ⟨h.setting, h.kept, h.interval,
        .inr ⟨x, p, [], hx, hstands, .nothing hticket, ?_, hsent⟩⟩
      rw [hreplies, List.append_assoc]
      rfl
    rw [hpending] at hawaits
    cases hawaits with
    | @answer ticket hticket =>
      have hnone := hstands.unanswered hs hticket
      simp only [Pending.poll, hnone]
      refine ⟨by simp, fun pending' hpending' => ?_⟩
      cases hpending'
      rw [← hpending]
      exact h
    | @answered ticket a hticket ha =>
      simp only [Pending.poll, ha, Pending.advance]
      refine ⟨fun reply hreply => ?_, by simp⟩
      exact hlogged reply (by simpa using hreply) hticket
    | @refused reply hticket =>
      simp only [Pending.poll, Pending.advance]
      refine ⟨fun reply' hreply => ?_, by simp⟩
      exact hlogged reply' (by simpa using hreply) hticket

/-- **A move keeps the dialogue in step.** -/
theorem InStep.step (h : d.InStep config card number t) {move : Move}
    (hstep : d.step card number move = some d') : d'.InStep config card number t := by
  unfold Dialogue.step at hstep
  cases move with
  | submit =>
    simp only at hstep
    split at hstep
    · next command commands r hpending hcommands hr =>
      obtain ⟨m, hm, rfl⟩ := Option.map_eq_some_iff.1 hstep
      exact h.submit hpending hcommands hr hm
    · cases hstep
  | poll =>
    simp only at hstep
    split at hstep
    · next pending r hpending hr =>
      obtain ⟨hreplied, hwaiting⟩ := h.poll hpending hr
      split at hstep
      · next reply hpoll =>
        cases hstep
        exact hreplied reply hpoll
      · next pending' hpoll =>
        cases hstep
        exact hwaiting pending' hpoll
    · cases hstep
  | exchange =>
    simp only at hstep
    split at hstep
    · next command hasked =>
      obtain ⟨m, hm, rfl⟩ := Option.map_eq_some_iff.1 hstep
      exact h.exchange hasked hm
    · cases hstep
  | other move =>
    simp only at hstep
    split at hstep
    · next m hm =>
      split at hstep
      · cases hstep
      · next hdisturbs =>
        cases hstep
        exact h.other hm (Bool.eq_false_iff.2 hdisturbs)
    · cases hstep

/-- **A whole run keeps the dialogue in step.** -/
theorem InStep.run (h : d.InStep config card number t) {moves : List Move}
    (hrun : d.run card number moves = some d') : d'.InStep config card number t := by
  induction moves generalizing d with
  | nil =>
    cases hrun
    exact h
  | cons move moves ih =>
    obtain ⟨d₁, hstep, hrun⟩ := run_cons_eq_some.1 hrun
    exact ih (h.step hstep) hrun

/-! ## What the client sees -/

/-- The commands that have reached the card of a session. -/
def sent (d : Dialogue σ) (number : Nat) : List Bytes :=
  d.machine.sessions[number]?.elim [] Sitting.sent

/-- **The client gets and causes what it should**, and at the end all of it. -/
structure Agrees (number : Nat) (t : Transcript) (d : Dialogue σ) : Prop where
  /-- The replies so far are the first of those expected. -/
  replies : d.replies <+: t.replies
  /-- The commands that have reached the card are the first of those expected. -/
  sent : d.sent number <+: t.sent
  /-- A client that has got all its replies has got those expected, and the card
  all the commands. -/
  finished : d.IsFinished → d.replies = t.replies ∧ d.sent number = t.sent

/-- A dialogue that is in step agrees. -/
theorem InStep.agrees (h : d.InStep config card number t) : d.Agrees number t := by
  rcases h.standing with hunopened | ⟨x, p, early, hx, hstands, hawaits, hreplies, hsent⟩
  · have hnone : d.sent number = [] := by
      rw [Dialogue.sent, hunopened.session]
      rfl
    refine ⟨?_, ?_, ?_⟩
    · rw [hunopened.replies]
      exact List.nil_prefix
    · rw [hnone]
      exact List.nil_prefix
    · rintro ⟨hcommands, -⟩
      rw [hunopened.ahead, hunopened.replies, hnone, hcommands]
      exact ⟨rfl, rfl⟩
  · have hsome : d.sent number = x.sent := by
      rw [Dialogue.sent, hx]
      rfl
    refine ⟨?_, ?_, ?_⟩
    · rw [hreplies]
      exact List.prefix_append _ _
    · rw [hsome, hsent]
      exact List.prefix_append _ _
    · -- nothing is to be expected in a session that the client is done with
      rintro ⟨hcommands, hpending⟩
      rw [hpending] at hawaits
      rw [hcommands] at hreplies hsent
      rw [hsome, hreplies, hsent]
      cases hawaits with
      | nothing hticket =>
        rcases hstands.of_no_ticket hticket with ⟨rfl, -⟩ | ⟨rfl, -⟩
        · exact ⟨(List.append_nil _).symm, (List.append_nil _).symm⟩
        · exact ⟨(List.append_nil _).symm, (List.append_nil _).symm⟩

end Dialogue

end Runner

end SmartCard
