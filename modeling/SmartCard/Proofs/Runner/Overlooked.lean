import SmartCard.Proofs.Runner.IdleClock
/-!
# Commands that are overlooked

The runner's thread gives a session up for idleness by the clock alone. It does not look
for a command again, and so a command that was accepted after its last look is answered
with the idleness of the session, be it submitted in time or not (`submitted_in_time_dies`).
Nothing else makes a command die of idleness: `Overlooked` says of a ticket that the thread
has not looked since its command was accepted, and of a command that was taken, or that was
there at the last look, it never holds (`idle_answers_overlooked`).
-/

namespace SmartCard

namespace Runner

/-! ## The death of a command -/

/-- The outcome is that the session was idle. -/
def isIdleness : Outcome → Bool
  | .idleTimeout _ => true
  | _ => false

/-- The runner's thread has no command that it has taken and not answered. -/
def Stage.isSpare : Stage → Bool
  | .concluding call => isIdleness call.outcome
  | .resolving _ _ => true
  | stage => stage.isCalm

theorem isIdleness_of_watch {answer : Except ExchangeError Bool} {o : Outcome}
    (h : Watch.outcome? answer = some o) : isIdleness o = false := by
  cases o with
  | idleTimeout limit => exact absurd h Machine.watch_outcome_ne_idleTimeout
  | _ => rfl

theorem isIdleness_outcomeOf (e : SessionError) : isIdleness (Machine.outcomeOf e) = false := by
  cases e <;> rfl

namespace Sitting

variable {config : Config} {number : Nat} {preempted : Prop} {x x' : Sitting} {s' : Session}
variable {stage stage' : Stage} {before after : Option Stage} {call call' : Conclusion}
variable {queued : List Event} {limit : Duration} {t : Ticket} {seen seen' : Ticket → Prop}

/-- **The command with this ticket dies of idleness**: it was answered so, or is about to be. -/
def Dies (x : Sitting) (stage : Option Stage) (limit : Duration) (t : Ticket) : Prop :=
  .closing (.idleTimeout limit) (some t) ∈ x.calls stage ∨
    x.session.rendezvous.poll t = some (.error (.idleTimeout limit))

/-- **What an idle thread can have overlooked.** Of the tickets in `seen` it is known that
the thread has not looked since. -/
structure Heeded (x : Sitting) (stage : Option Stage) (seen : Ticket → Prop) : Prop where
  /-- The watch does not find the session idle. -/
  watching : ∀ call ∈ x.watching, isIdleness call.outcome = false
  /-- A command that waits was not there at the last look. -/
  waiting : ∀ command t, x.session.rendezvous.slot = .requested command t → seen t
  spare : ∀ s, stage = some s → s.isSpare = true → ∀ t, x.session.rendezvous.slot ≠ .inFlight t
  dies : ∀ limit t, x.Dies stage limit t → seen t ∧ x.transmissions.length ≤ t

/-- A step inside a session leaves the slot, frees or closes it, or takes the command in it. -/
theorem slot_of_turn (hturn : Turn config number x stage stage' x' queued) :
    x'.session.rendezvous.slot = x.session.rendezvous.slot ∨
      x'.session.rendezvous.slot = .idle ∨ x'.session.rendezvous.slot = .closed ∨
      ((∃ t, x'.session.rendezvous.slot = .inFlight t) ∧ stage.isListening = true ∧
        stage'.isSpare = false) := by
  cases hturn with
  | take command ticket hlisten hslot =>
    rw [session_send]
    exact .inr (.inr (.inr ⟨⟨ticket, rfl⟩, hlisten, rfl⟩))
  | hear command resume reply =>
    rw [session_send]
    exact .inl rfl
  | release => exact .inr (.inl rfl)
  | conclude hs => cases hs <;> first | exact .inl rfl | exact .inr (.inr (.inl rfl))
  | concluded hs => cases hs <;> exact .inl rfl
  | _ => exact .inl rfl

/-- A thread that has no command after a step had none before, or has let go of it. -/
theorem isSpare_of_turn (hturn : Turn config number x stage stage' x' queued)
    (h : stage'.isSpare = true) :
    stage.isSpare = true ∨ ∀ t, x'.session.rendezvous.slot ≠ .inFlight t := by
  cases hturn with
  | release raw t hslot => exact .inr fun t heq => by cases heq
  | stray raw hslot => exact .inr hslot
  | fail e =>
    rw [Stage.isSpare, Conclusion.outcome, isIdleness_outcomeOf] at h
    cases h
  | conclude hs hcall' =>
    rcases hs.outcome_eq with heq | ⟨r, -, rfl⟩
    · rw [Stage.isSpare, heq] at h
      exact .inl h
    · exact absurd rfl (hcall' r)
  | wait stage' hlisten hstage' =>
    refine .inl ?_
    cases stage <;> first | rfl | cases hlisten
  | dismiss o w status stage' hwatch hstage' => rcases hstage' with rfl | rfl <;> cases h
  | _ => first | exact .inl rfl | cases h

/-- Only a look takes a command. -/
theorem length_of_turn (hturn : Turn config number x stage stage' x' queued)
    (hlisten : stage.isListening = false) : x'.transmissions.length = x.transmissions.length := by
  cases hturn with
  | take command ticket hlisten' hslot =>
    rw [hlisten] at hlisten'
    cases hlisten'
  | hear command resume reply =>
    rw [transmissions_send]
    exact length_onLast x _
  | settle reply => exact length_onLast x _
  | _ => rfl

/-- **A call brings a command to die** by closing the slot with it. -/
theorem dying_of_advances (limit : Duration) (t : Ticket)
    (hs : x.session.Advances call s' call' queued) (hcall : call.outcome.IsLifted) :
    (call' = .closing (.idleTimeout limit) (some t) → call = .deciding (.idleTimeout limit) ∧
        x.session.rendezvous.slot.ticket? = some t) ∧
      (s'.rendezvous.poll t = some (.error (.idleTimeout limit)) →
        x.session.rendezvous.poll t = some (.error (.idleTimeout limit)) ∨
          call = .closing (.idleTimeout limit) (some t)) := by
  constructor
  · rintro rfl
    generalize some t = ticket at hs
    cases hs with
    | shut o hfirst => exact ⟨rfl, rfl⟩
  · intro hpoll
    rcases hs.poll t with heq | ⟨o, rfl, -, hanswer⟩
    · exact .inl (heq ▸ hpoll)
    · have hreason := Option.some.inj (hanswer.symm.trans hpoll)
      obtain rfl := hcall.eq_idleTimeout (Except.error.inj hreason)
      exact .inr rfl

/-- **A step of the runner's thread** brings a command to die when its call closes the slot. -/
theorem Dies.of_turn (hturn : Turn config number x stage stage' x' queued)
    (hs : x.Sound config preempted (some stage)) (hl : x.Lifted (some stage))
    (h : x'.Dies (some stage') limit t) : x.Dies (some stage) limit t ∨
      stage = .concluding (.deciding (.idleTimeout limit)) ∧
        x.session.rendezvous.slot.ticket? = some t := by
  -- what the watch is about to close the slot with, it was before
  have hwatching : .closing (.idleTimeout limit) (some t) ∈ x'.watching →
      x.Dies (some stage) limit t := fun hcall =>
    .inl (List.mem_append_right _ (watching_of_turn hturn _ hcall))
  cases calling_of_turn hturn with
  | none hcalls houtcome hanswers =>
    refine .inl ?_
    rcases h with h | h
    · rcases List.mem_append.1 h with h | h
      · rw [hcalls] at h
        cases h
      · exact hwatching h
    · refine .inr ?_
      rcases hanswers with hsame | ⟨t', answer, rfl, rfl⟩
      · rw [← h, Rendezvous.poll, Rendezvous.poll, hsame]
      · -- an answer that the thread brings is a response
        obtain ⟨-, raw, T, rfl, -⟩ := hs.fits
        change (x.session.rendezvous.resolve t' (.ok raw)).poll t = _ at h
        rw [Rendezvous.poll_resolve, Option.or_eq_some_iff] at h
        refine h.resolve_right fun hnew => ?_
        have hresponse := hnew.2
        split at hresponse <;> cases hresponse
  | seek o hstage' hx' =>
    subst hstage' hx'
    rcases h with h | h
    · rcases List.mem_append.1 h with h | h
      · cases List.mem_singleton.1 h
      · exact .inl (hwatching h)
    · exact .inl (.inr h)
  | advance call call' s' hadvances hstage hx' hcalls =>
    subst hstage hx'
    obtain ⟨hclosing, hpoll⟩ := dying_of_advances limit t hadvances
      (hl.ofStage call List.mem_cons_self)
    rcases h with h | h
    · rcases List.mem_append.1 h with h | h
      · obtain ⟨rfl, hticket⟩ := hclosing (hcalls _ h).symm
        exact .inr ⟨rfl, hticket⟩
      · exact .inl (hwatching h)
    · rcases hpoll h with h | rfl
      · exact .inl (.inr h)
      · exact .inl (.inl (List.mem_append_left _ List.mem_cons_self))

namespace Heeded

/-- A client publishes a command. If it is accepted, the thread has not looked since. -/
theorem publish (h : x.Heeded before seen) (command : Bytes)
    (hnew : x.session.rendezvous.slot = .idle → seen x.session.rendezvous.issued) :
    (x.publish command).Heeded before seen := by
  unfold Sitting.publish
  rcases x.session.rendezvous.publish_cases command with ⟨hidle, hr⟩ | ⟨-, e, hr⟩
  · rw [hr]
    refine ⟨h.watching, fun command' t heq => ?_, fun s hs hspare t heq => (by cases heq), h.dies⟩
    cases heq
    exact hnew hidle
  · rw [hr]
    exact h

/-- The thread leaves the session. -/
theorem leave (h : x.Heeded before seen) : x.Heeded none seen where
  watching := h.watching
  waiting := h.waiting
  spare := nofun
  dies := fun limit t hdies => h.dies limit t <| hdies.imp_left fun hcall =>
    List.mem_append_right _ hcall

/-- More can be known of the tickets. -/
theorem mono (h : x.Heeded before seen) (hseen : ∀ t, seen t → seen' t) :
    x.Heeded before seen' where
  watching := h.watching
  waiting := fun command t hslot => hseen t (h.waiting command t hslot)
  spare := h.spare
  dies := fun limit t hdies => ⟨hseen t (h.dies limit t hdies).1, (h.dies limit t hdies).2⟩

/-- **A step of the watch** brings no command to die of idleness. -/
theorem watch (h : x.Heeded before seen) (hl : x.Lifted before) {w w' : Watch}
    (hwatch : x.watch = some w)
    (hturn : Watch.Turn x.session w.point w'.point s' queued) :
    Heeded { x with session := s', watch := some w' } before seen := by
  -- the watch's next call is of another kind, and the slot is left or closed
  obtain ⟨hcalls, hslot, hpoll⟩ : (∀ call ∈ w'.point.calls, isIdleness call.outcome = false) ∧
      (s'.rendezvous.slot = x.session.rendezvous.slot ∨ s'.rendezvous.slot = .closed) ∧
      ∀ limit t, s'.rendezvous.poll t = some (.error (.idleTimeout limit)) →
        x.session.rendezvous.poll t = some (.error (.idleTimeout limit)) := by
    cases Watch.calling_of_turn hturn with
    | none hcalls hs' =>
      subst hs'
      refine ⟨fun call hcall => ?_, .inl rfl, fun _ _ => id⟩
      rw [hcalls] at hcall
      cases hcall
    | seek answer o ho hpoint' hs' =>
      subst hs'
      refine ⟨fun call hcall => ?_, .inl rfl, fun _ _ => id⟩
      rw [hpoint'] at hcall
      rw [List.mem_singleton.1 hcall]
      exact isIdleness_of_watch ho
    | advance call call' hs hpoint hcalls =>
      have hmem : call ∈ x.watching := by
        rw [Sitting.watching, hwatch, Option.elim_some, hpoint]
        exact List.mem_cons_self
      have hcall := h.watching call hmem
      refine ⟨fun other hother => ?_, ?_, fun limit t hpoll => ?_⟩
      · obtain ⟨rfl, hreturned⟩ := hcalls other hother
        rcases hs.outcome_eq with heq | ⟨r, -, heq⟩
        · rw [heq]
          exact hcall
        · exact absurd heq (hreturned r)
      · cases hs <;> first | exact .inl rfl | exact .inr rfl
      · refine ((dying_of_advances limit t hs (hl.ofWatch call hmem)).2 hpoll).resolve_right ?_
        rintro rfl
        cases hcall
  refine ⟨hcalls, fun command t heq => ?_, fun s hs hspare t heq => ?_,
    fun limit t hdies => h.dies limit t ?_⟩
  · rcases hslot with hslot | hslot
    · exact h.waiting command t (hslot.symm.trans heq)
    · cases hslot.symm.trans heq
  · rcases hslot with hslot | hslot
    · exact h.spare s hs hspare t (hslot.symm.trans heq)
    · cases hslot.symm.trans heq
  · rcases hdies with hdies | hdies
    · rcases List.mem_append.1 hdies with hdies | hdies
      · exact .inl (List.mem_append_left _ hdies)
      · cases hcalls _ hdies
    · exact .inr (hpoll limit t hdies)

/-- A step of the runner's thread: what is to be shown of the slot and of the commands
that die. -/
theorem of_turn (h : x.Heeded (some stage) seen)
    (hturn : Turn config number x stage stage' x' queued)
    (hwaiting : ∀ command t, x'.session.rendezvous.slot = .requested command t → seen' t)
    (hdies : ∀ limit t, x'.Dies (some stage') limit t → seen' t ∧ x'.transmissions.length ≤ t) :
    x'.Heeded (some stage') seen' where
  watching := fun call hcall => h.watching call (watching_of_turn hturn call hcall)
  waiting := hwaiting
  spare := fun s hs hspare t heq => by
    cases hs
    rcases slot_of_turn hturn with hslot | hslot | hslot | ⟨-, -, htaken⟩
    · rcases isSpare_of_turn hturn hspare with hspare | hnot
      · exact h.spare stage rfl hspare t (hslot.symm.trans heq)
      · exact hnot t heq
    · cases hslot.symm.trans heq
    · cases hslot.symm.trans heq
    · rw [hspare] at htaken
      cases htaken
  dies := hdies

/-- **A step of the runner's thread that is no look**: only a command that it has not seen
since dies by it. -/
theorem turn (h : x.Heeded (some stage) seen) (hs : x.Sound config preempted (some stage))
    (hl : x.Lifted (some stage)) (hturn : Turn config number x stage stage' x' queued)
    (hlisten : stage.isListening = false) : x'.Heeded (some stage') seen := by
  refine h.of_turn hturn (fun command t heq => ?_) fun limit t hdies => ?_
  · rcases slot_of_turn hturn with hslot | hslot | hslot | ⟨⟨t', hslot⟩, -⟩
    · exact h.waiting command t (hslot.symm.trans heq)
    · cases hslot.symm.trans heq
    · cases hslot.symm.trans heq
    · cases hslot.symm.trans heq
  · rw [length_of_turn hturn hlisten]
    rcases hdies.of_turn hturn hs hl with hdies | ⟨rfl, hticket⟩
    · exact h.dies limit t hdies
    · -- the slot is closed, and the command in it was not taken
      cases hslot : x.session.rendezvous.slot with
      | requested command t' =>
        obtain rfl : t' = t := Option.some.inj (by rw [← hticket, hslot]; rfl)
        have hlength := (hs.orderly.hands.of_requested hslot).1
        rw [List.length_map] at hlength
        exact ⟨h.waiting command t' hslot, Nat.le_of_eq hlength.symm⟩
      | inFlight t' => exact absurd hslot (h.spare _ rfl rfl t')
      | closed =>
        rw [hslot] at hticket
        cases hticket
      | idle =>
        rw [hslot] at hticket
        cases hticket

/-- A session that was just opened has nothing to overlook. -/
theorem opened (card : CardData) : Heeded { session := { card } } (some .opened) seen where
  watching := nofun
  waiting := nofun
  spare := fun s hs hspare t heq => by cases heq
  dies := fun limit t hdies => by rcases hdies with hdies | hdies <;> cases hdies

end Heeded

/-- A command dies of idleness only in a session that ends so. -/
theorem Dies.gives (h : x.Dies before limit t) (hs : x.Sound config preempted before)
    (hl : x.Lifted before) : x.Gives before (.idleTimeout limit) := by
  rcases h with h | h
  · exact .inl ⟨_, h, rfl⟩
  · obtain ⟨o, hverdict, hreason⟩ := hs.orderly.answers t _ h
    obtain rfl := (hl.verdict hverdict).eq_idleTimeout hreason.symm
    exact gives_of_verdict hverdict

end Sitting

/-! ## The last look -/

namespace Machine

variable {first m m' : Machine} {moves : List Move} {move : Move} {number : Nat} {t : Ticket}
variable {x x' : Sitting} {stage : Stage} {input : Input} {preempted preempted' : Nat → Prop}
variable {origin : Nat → Option Nat} {limit : Duration}

/-- The runner's thread looks for a command of the session by this move. One that has no
instant for the end of its wait does not come to look. -/
def Looks (m : Machine) (number : Nat) : Move → Prop
  | .runner input => m.overflows input = false ∧
      ∃ stage, m.stage? number = some stage ∧ stage.isListening = true
  | _ => False

/-- **The command with this ticket is overlooked** in a run: it was accepted by one of the
moves, and the thread has not looked for a command since. -/
def Overlooked (first : Machine) (moves : List Move) (number : Nat) (t : Ticket) : Prop :=
  ∃ i command m₁ x₁, moves[i]? = some (.publish number command) ∧
    first.run (moves.take i) = some m₁ ∧ m₁.sessions[number]? = some x₁ ∧
    (x₁.session.rendezvous.publish command).1 = .ok t ∧
    ∀ k move m₂, i < k → moves[k]? = some move → first.run (moves.take k) = some m₂ →
      ¬ m₂.Looks number move

/-- A command that is accepted has not been looked for. -/
theorem overlooked_of_publish (hrun : first.run moves = some m)
    (hx : m.sessions[number]? = some x) (hidle : x.session.rendezvous.slot = .idle)
    (command : Bytes) : Overlooked first (moves ++ [.publish number command]) number
      x.session.rendezvous.issued := by
  refine ⟨moves.length, command, m, x, List.getElem?_concat_length, ?_, hx, ?_, ?_⟩
  · rw [List.take_left']
    · exact hrun
    · rfl
  · simp only [Rendezvous.publish, hidle]
  · intro k move m₂ hlt hk
    rw [List.getElem?_eq_none (by rw [List.length_append, List.length_singleton]; omega)] at hk
    cases hk

/-- A move that is no look leaves it so. -/
theorem Overlooked.concat (h : Overlooked first moves number t)
    (hrun : first.run moves = some m) (hlook : ¬ m.Looks number move) :
    Overlooked first (moves ++ [move]) number t := by
  obtain ⟨i, command, m₁, x₁, hi, hrun₁, hx₁, haccepted, hquiet⟩ := h
  obtain ⟨hlt, -⟩ := List.getElem?_eq_some_iff.1 hi
  refine ⟨i, command, m₁, x₁, ?_, ?_, hx₁, haccepted, fun k move' m₂ hik hk hrun₂ => ?_⟩
  · rw [List.getElem?_append_left hlt, hi]
  · rw [List.take_append_of_le_length (Nat.le_of_lt hlt), hrun₁]
  · rcases Nat.lt_trichotomy k moves.length with hk' | rfl | hk'
    · rw [List.getElem?_append_left hk'] at hk
      rw [List.take_append_of_le_length (Nat.le_of_lt hk')] at hrun₂
      exact hquiet k move' m₂ hik hk hrun₂
    · -- the new move
      rw [List.getElem?_concat_length] at hk
      rw [List.take_left' rfl, hrun] at hrun₂
      cases hk
      cases hrun₂
      exact hlook
    · rw [List.getElem?_eq_none (by rw [List.length_append, List.length_singleton]; omega)] at hk
      cases hk

/-- A look leads to where `Machine.look` does. -/
theorem exists_look (hstep : m.runner input = some m') (hlook : m.Looks number (.runner input)) :
    ∃ p s x deadline timedOut, s.session = number ∧ m.sessions[number]? = some x ∧
      m' = m.look p s deadline timedOut x := by
  obtain ⟨hends, stage, hstage, hlisten⟩ := hlook
  obtain ⟨p, s, hpoint, rfl, rfl⟩ := serving_of_stage? hstage
  simp only [runner, hpoint] at hstep
  split at hstep
  · cases hstep
  · next x hx =>
    cases hs : s.stage with
    | listening slice =>
      rw [hs] at hstep
      cases input with
      | go =>
        simp only [serve] at hstep
        split at hstep
        · next deadline hdeadline =>
          cases hstep
          exact ⟨p, s, x, deadline, false, rfl, hx, rfl⟩
        · next hnone =>
          have hlast := Instant.after?_eq_none_iff.1 hnone
          simp [overflows, wait?, hpoint, hs] at hends
          omega
      | _ => cases hstep
    | asleep deadline =>
      rw [hs] at hstep
      cases input with
      | wake wake =>
        simp only [serve] at hstep
        split at hstep <;> cases hstep
        exact ⟨p, s, x, deadline, _, rfl, hx, rfl⟩
      | _ => cases hstep
    | _ =>
      rw [hs] at hlisten
      cases hlisten

/-- After a look no command waits. -/
theorem slot_of_look (hstep : m.runner input = some m') (hlook : m.Looks number (.runner input))
    (hx' : m'.sessions[number]? = some x') :
    ∀ command t, x'.session.rendezvous.slot ≠ .requested command t := by
  obtain ⟨p, s, x, deadline, timedOut, rfl, hx, rfl⟩ := exists_look hstep hlook
  rcases x.session.rendezvous.next_cases with ⟨command, t, -, hr⟩ | ⟨hslot, hr⟩ | ⟨hslot, hr⟩
  · simp only [look, hr] at hx'
    obtain rfl := Option.some.inj ((getElem?_onSitting hx _).symm.trans hx')
    rw [session_send]
    intro command' t' heq
    cases heq
  · simp only [look, hr] at hx'
    obtain rfl : x = x' := Option.some.inj (hx.symm.trans hx')
    intro command t heq
    cases hslot.symm.trans heq
  · simp only [look, hr] at hx'
    obtain rfl : x = x' := Option.some.inj (hx.symm.trans hx')
    intro command t heq
    rcases hslot with hslot | ⟨t', hslot⟩ <;> cases hslot.symm.trans heq

/-- After a look the thread does not leave the session. -/
theorem not_parting_of_look (hstep : m.runner input = some m')
    (hlook : m.Looks number (.runner input)) : Stage.isParting (m'.stage? number) = false := by
  obtain ⟨p, s, x, deadline, timedOut, rfl, hx, rfl⟩ := exists_look hstep hlook
  have hserving : ∀ {m' : Machine} {stage : Stage},
      m'.point = .serving p { s with stage := stage } → Stage.isParting (some stage) = false →
        Stage.isParting (m'.stage? s.session) = false := by
    intro m' stage hpoint' hparting
    rwa [stage?_of_serving hpoint', if_pos rfl]
  unfold look
  split
  · exact hserving rfl rfl
  · exact hserving rfl rfl
  · cases timedOut <;> exact hserving rfl rfl

/-- **Nothing but what was overlooked dies of idleness**, in all sessions. -/
def Heeds (m : Machine) (seen : Nat → Ticket → Prop) : Prop :=
  ∀ (number : Nat) (x : Sitting), m.sessions[number]? = some x →
    x.Heeded (m.stage? number) (seen number)

namespace Heeds

variable {seen : Nat → Ticket → Prop}

/-- A look leaves no command that it could overlook. -/
theorem look (h : m.Heeds seen) (hstep : m.step (.runner input) = some m')
    (hlook : m.Looks number (.runner input)) (hkept' : m'.Kept preempted')
    (hlifts' : m'.Lifts) (hclocked' : m'.Clocked origin)
    (hx' : m'.sessions[number]? = some x') (seen' : Ticket → Prop) :
    x'.Heeded (m'.stage? number) seen' := by
  have hwaiting := slot_of_look hstep hlook hx'
  have hparting := not_parting_of_look hstep hlook
  have hdies : ∀ limit t, ¬ x'.Dies (m'.stage? number) limit t := by
    intro limit t hdies
    have hgives := hdies.gives (hkept'.sound number x' hx') (hlifts'.sessions number x' hx')
    rw [(hclocked'.idle number x' limit hx' hgives).1] at hparting
    cases hparting
  have hsees := sees_of_step hstep number
  rw [hx'] at hsees
  generalize hafter : some x' = after at hsees
  generalize m'.stage? number = stage' at hsees hdies hparting ⊢
  cases hsees with
  | apart =>
    have hheeded := h number x' hafter.symm
    exact ⟨hheeded.watching, fun command t heq => absurd heq (hwaiting command t), hheeded.spare,
      fun limit t hdies' => absurd hdies' (hdies limit t)⟩
  | connect input card hnone =>
    cases hafter
    exact Sitting.Heeded.opened card
  | turn input hx hstage' hturn =>
    cases hafter
    have hheeded := h number _ hx
    rw [hstage'] at hheeded
    exact hheeded.of_turn hturn (fun command t heq => absurd heq (hwaiting command t))
      fun limit t hdies' => absurd hdies' (hdies limit t)
  | leave => cases hparting
  | panic => cases hparting

/-- **One move** adds to what is overlooked, unless it is a look. -/
theorem step (h : m.Heeds (Overlooked first moves)) (hrun : first.run moves = some m)
    (hstep : m.step move = some m') (hkept : m.Kept preempted) (hlifts : m.Lifts)
    (hkept' : m'.Kept preempted') (hlifts' : m'.Lifts) (hclocked' : m'.Clocked origin) :
    m'.Heeds (Overlooked first (moves ++ [move])) := by
  intro number x' hx'
  by_cases hlook : m.Looks number move
  · cases move with
    | runner input => exact h.look hstep hlook hkept' hlifts' hclocked' hx' _
    | _ => exact hlook.elim
  · have hmono : ∀ t, Overlooked first moves number t →
        Overlooked first (moves ++ [move]) number t := fun t ht => ht.concat hrun hlook
    have hsees := sees_of_step hstep number
    rw [hx'] at hsees
    generalize hafter : some x' = after at hsees
    generalize hstage' : m'.stage? number = stage' at hsees
    cases hsees with
    | apart => exact (h number x' hafter.symm).mono hmono
    | connect input card hnone =>
      cases hafter
      exact Sitting.Heeded.opened card
    | publish command hx =>
      cases hafter
      refine ((h number _ hx).mono hmono).publish command fun hidle => ?_
      exact overlooked_of_publish hrun hx hidle command
    | watch input hx hwatch hturn =>
      cases hafter
      exact ((h number _ hx).mono hmono).watch (hlifts.sessions number _ hx) hwatch hturn
    | @turn input x x' stage stage' _ hx hstage hturn =>
      cases hafter
      have hheeded := (h number _ hx).mono hmono
      have hsound := hkept.sound number _ hx
      have hlifted := hlifts.sessions number _ hx
      rw [hstage] at hheeded hsound hlifted
      refine hheeded.turn hsound hlifted hturn ?_
      cases hlisten : stage.isListening with
      | false => rfl
      | true =>
        -- without a look the thread would have left the session
        have hends : m.overflows input = true := by
          by_contra hends
          exact hlook ⟨Bool.eq_false_iff.2 hends, stage, hstage, hlisten⟩
        have hnone := stage?_eq_none (m := m') (by
          rw [(broken_of_overflows hends hstep).1]
          rfl) number
        cases hstage'.symm.trans hnone
    | leave => exact ((h number x' hafter.symm).mono hmono).leave
    | panic => exact ((h number x' hafter.symm).mono hmono).leave

end Heeds

/-- **A whole run.** -/
theorem heeds_of_run (config : Config) (reader : String)
    (hrun : (Machine.initial config reader).run moves = some m) :
    m.Heeds (Overlooked (Machine.initial config reader) moves) := by
  refine induction_of_run
    (P := fun moves m => m.Heeds (Overlooked (Machine.initial config reader) moves))
    (fun number x hx => by simp [Machine.initial] at hx)
    (fun moves m move m' hrun h hstep => ?_) hrun
  have hrun' := run_concat_eq_some.2 ⟨m, hrun, hstep⟩
  exact h.step hrun hstep (kept_of_run (.initial config reader) hrun)
    ((Lifts.initial config reader).run (.initial config reader) hrun)
    (kept_of_run (.initial config reader) hrun')
    ((Lifts.initial config reader).run (.initial config reader) hrun')
    (clocked_of_run config reader hrun')

/-! ## The gap -/

/-- The call that the thread makes takes its next step. -/
theorem step_of_concluding {call call' : Conclusion} {s' : Session} {queued : List Event}
    (hx : m.sessions[number]? = some x) (hstage : m.stage? number = some (.concluding call))
    (hadvance : x.session.advance call = some (s', call', queued))
    (hcall' : ∀ o, call' ≠ .returned o) : ∃ m', m.step (.runner .go) = some m' ∧
      m'.sessions[number]? = some { x with session := s' } ∧
      m'.stage? number = some (.concluding call') := by
  obtain ⟨p, s, hpoint, rfl, hs⟩ := serving_of_stage? hstage
  simp only [Machine.step, runner, hpoint, hx, hs, serve, hadvance]
  refine ⟨_, rfl, getElem?_onSitting hx _, ?_⟩
  cases call' with
  | returned o => exact absurd rfl (hcall' o)
  | _ => exact (stage?_of_serving rfl _).trans (if_pos rfl)

/-- A call that is alone at the latch answers the command that it finds in the slot. -/
theorem run_of_seeking (hx : m.sessions[number]? = some x) {o : Outcome}
    (hstage : m.stage? number = some (.concluding (.seeking o)))
    (hfree : x.session.latched = false) (hopen : x.session.outcome = none)
    (hticket : x.session.rendezvous.slot.ticket? = some t)
    (hpoll : x.session.rendezvous.poll t = none) :
    ∃ m' x', m.run [.runner .go, .runner .go, .runner .go] = some m' ∧
      m'.sessions[number]? = some x' ∧
      x'.session.rendezvous.poll t = some (.error o.reason) := by
  have hlatch : x.session.advance (.seeking o) =
      some ({ x.session with latched := true }, .deciding o, []) := by
    simp only [Session.advance, hfree]
    rfl
  obtain ⟨m₁, hstep₁, hx₁, hstage₁⟩ := step_of_concluding hx hstage hlatch
    fun _ heq => by cases heq
  have hshut : Session.advance { x.session with latched := true } (.deciding o) =
      some ({ x.session with
        latched := true
        rendezvous := x.session.rendezvous.shut.2 }, .closing o (some t), []) := by
    simp only [Session.advance, hopen, Rendezvous.shut, hticket]
  obtain ⟨m₂, hstep₂, hx₂, hstage₂⟩ := step_of_concluding hx₁ hstage₁ hshut
    fun _ heq => by cases heq
  obtain ⟨m₃, hstep₃, hx₃, -⟩ := step_of_concluding hx₂ hstage₂ rfl
    fun _ heq => by cases heq
  refine ⟨m₃, _, ?_, hx₃, ?_⟩
  · simp only [run, hstep₁, hstep₂, hstep₃, Option.bind_some]
  · change ((x.session.rendezvous.shut.2).resolve t (.error o.reason)).poll t = _
    rw [Rendezvous.poll_resolve, if_pos rfl]
    change (x.session.rendezvous.poll t).or _ = _
    rw [hpoll, Option.none_or]

/-- **A thread that is held up before it reads the clock** overlooks what is submitted
meanwhile: if the limit passes before it reads, the command is answered with idleness. -/
theorem dies_of_delay {p : Parameters} {s : Service} (hpoint : m.point = .serving p s)
    (htiming : s.stage = .timing) (hx : m.sessions[s.session]? = some x)
    (hlimit : m.config.idleTimeout = some limit) (delay : Nat)
    (hover : limit.nanos ≤ m.clock + delay - s.idleSince)
    (hidle : x.session.rendezvous.slot = .idle) (hfree : x.session.latched = false)
    (hopen : x.session.outcome = none)
    (hnew : x.session.rendezvous.poll x.session.rendezvous.issued = none) (command : Bytes) :
    ∃ m' x', m.run [.publish s.session command, .tick delay, .runner .go, .runner .go, .runner .go,
        .runner .go] = some m' ∧ m'.sessions[s.session]? = some x' ∧
      x'.session.rendezvous.poll x.session.rendezvous.issued =
        some (.error (.idleTimeout limit)) := by
  obtain ⟨hlt, -⟩ := List.getElem?_eq_some_iff.1 hx
  -- the command is accepted, and time passes
  let m₁ := m.onSitting s.session fun y => y.publish command
  let m₂ := { m₁ with clock := m₁.clock + delay }
  have hstep₁ : m.step (.publish s.session command) = some m₁ := by
    simp only [Machine.step, if_pos hlt]
    rfl
  have hx₂ : m₂.sessions[s.session]? = some (x.publish command) := getElem?_onSitting hx _
  -- the thread reads the clock, and its call finds the command in the slot
  obtain ⟨stage', hstep₃, hcases⟩ := step_of_timing (m := m₂) hpoint hx₂ htiming
  obtain rfl : stage' = .concluding (.seeking (.idleTimeout limit)) := by
    rcases hcases with ⟨limit', hlimit', -, rfl⟩ | ⟨left, hleft, -⟩
    · rw [Option.some.inj (hlimit.symm.trans hlimit')]
    · have hnone := slice_eq_none_iff.2 ⟨limit, hlimit, hover⟩
      cases hnone.symm.trans hleft
  have hpublish : (x.publish command).session = { x.session with rendezvous :=
      { x.session.rendezvous with
        slot := .requested command x.session.rendezvous.issued
        issued := x.session.rendezvous.issued + 1 } } := by
    simp only [Sitting.publish, Rendezvous.publish, hidle]
    rfl
  obtain ⟨m', x', hrun, hx', hpoll⟩ := run_of_seeking (t := x.session.rendezvous.issued)
    (m := m₂.goto (.serving p { s with stage := .concluding (.seeking (.idleTimeout limit)) })) hx₂
    ((stage?_of_serving rfl s.session).trans (if_pos rfl)) (by rw [hpublish]; exact hfree)
    (by rw [hpublish]; exact hopen) (by rw [hpublish]; rfl) (by rw [hpublish]; exact hnew)
  refine ⟨m', x', ?_, hx', hpoll⟩
  have htick : m₁.step (.tick delay) = some m₂ := rfl
  rw [run_cons_eq_some]
  refine ⟨m₁, hstep₁, ?_⟩
  rw [run_cons_eq_some]
  refine ⟨m₂, htick, ?_⟩
  rw [run_cons_eq_some]
  exact ⟨_, hstep₃, hrun⟩

/-! ## What dies of idleness -/

/-- **What dies of idleness** in a run that leads to a machine. -/
structure Overlooks (config : Config) (first : Machine) (moves : List Move) (m : Machine) :
    Prop where
  /-- A command that is answered with idleness was never taken, and the thread has not looked
  since it was accepted. -/
  answered : ∀ (number : Nat) (x : Sitting) t limit, m.sessions[number]? = some x →
    x.session.rendezvous.poll t = some (.error (.idleTimeout limit)) →
      config.idleTimeout = some limit ∧ x.transmissions.length ≤ t ∧
        Overlooked first moves number t
  /-- A call that is about to close the slot for idleness finds no command there that was
  taken, and none that the thread could have seen. -/
  closing : ∀ (number : Nat) (x : Sitting) limit, m.sessions[number]? = some x →
    .deciding (.idleTimeout limit) ∈ x.calls (m.stage? number) →
      (∀ t, x.session.rendezvous.slot ≠ .inFlight t) ∧
        ∀ command t, x.session.rendezvous.slot = .requested command t →
          Overlooked first moves number t
  /-- Whenever the thread is held up before it reads the clock until the limit has passed, a
  command that is submitted meanwhile dies, unless somebody concludes the session first. -/
  gap : ∀ number (x : Sitting) limit delay command, m.sessions[number]? = some x →
    m.stage? number = some .timing → config.idleTimeout = some limit →
    (∀ since, first.idleOrigin number moves = some since →
      since + limit.nanos ≤ m.clock + delay) →
    x.session.rendezvous.slot = .idle → x.session.latched = false →
      ∃ m' x', m.run [.publish number command, .tick delay, .runner .go, .runner .go, .runner .go,
          .runner .go] = some m' ∧ m'.sessions[number]? = some x' ∧
        x'.session.rendezvous.poll x.session.rendezvous.issued =
          some (.error (.idleTimeout limit))

/-- **Only what is overlooked dies of idleness**, in every run; and there is time in which
a command is overlooked. -/
theorem only_overlooked_die (config : Config) (reader : String) (moves : List Move) (m : Machine)
    (hrun : (initial config reader).run moves = some m) :
    Overlooks config (initial config reader) moves m := by
  have hheeds := heeds_of_run config reader hrun
  have hclocked := clocked_of_run config reader hrun
  have hkept := kept_of_run (.initial config reader) hrun
  have hlifts := (Lifts.initial config reader).run (.initial config reader) hrun
  obtain rfl : m.config = config := config_of_run hrun
  refine
    { answered := fun number x t limit hx hpoll => ?_
      closing := fun number x limit hx hcall => ?_
      gap := fun number x limit delay command hx htiming hlimit hover hidle hfree => ?_ }
  · have hdies : x.Dies (m.stage? number) limit t := .inr hpoll
    have hgives := hdies.gives (hkept.sound number x hx) (hlifts.sessions number x hx)
    obtain ⟨hseen, hlength⟩ := (hheeds number x hx).dies limit t hdies
    exact ⟨(hclocked.idle number x limit hx hgives).2.1, hlength, hseen⟩
  · have hheeded := hheeds number x hx
    refine ⟨?_, hheeded.waiting⟩
    rcases List.mem_append.1 hcall with hcall | hcall
    · cases hstage : m.stage? number with
      | none =>
        rw [hstage] at hcall
        cases hcall
      | some stage =>
        rw [hstage] at hcall
        refine hheeded.spare stage hstage ?_
        cases stage with
        | concluding call =>
          obtain rfl := List.mem_singleton.1 hcall
          rfl
        | _ => cases hcall
    · cases hheeded.watching _ hcall
  · obtain ⟨p, s, hpoint, rfl, hs⟩ := serving_of_stage? htiming
    have horderly := (hkept.sound s.session x hx).orderly
    obtain ⟨hsince, -⟩ := (hclocked.served p s hpoint).origin (by rw [hs]; rfl)
    have hover := hover s.idleSince hsince
    exact dies_of_delay hpoint hs hx hlimit delay (by omega) hidle hfree
      (horderly.lawful.outcome_of_open (by simp [hidle]))
      (horderly.accounted.poll_of_le (Nat.le_refl _)) command

/-- After a first wait of a second the thread is held up for another one, and a client
submits a command at the beginning of it. -/
def delayed : List Move :=
  let go : Move := .runner .go
  [go, .deliver false, .resolve {}, go, go, go, go, .runner (.presence (.ok true)), go,
    .runner (.connection (.ok ⟨"Reader 0", [], .t1⟩)), go, go, .runner (.spawned none),
    go, go, go, .tick 1000000000, .runner (.wake .timedOut), .publish 0 [0x00],
    .tick 1000000000, go, go, go, go, go]

/-- The command was not taken, and is overlooked to the end. -/
theorem only_overlooked_die_delayed : ∃ m x,
    (initial impatient "Reader 0").run delayed = some m ∧ m.sessions[0]? = some x ∧
    x.session.rendezvous.poll 0 = some (.error (.idleTimeout ⟨2000000000⟩)) ∧
    Overlooked (initial impatient "Reader 0") delayed 0 0 ∧
    Overlooks impatient (initial impatient "Reader 0") delayed m :=
  have hoverlooks := only_overlooked_die impatient "Reader 0" delayed _ rfl
  ⟨_, _, rfl, rfl, rfl, (hoverlooks.answered 0 _ 0 _ rfl rfl).2.2, hoverlooks⟩

/-- **A command that is submitted in time can die of idleness**: this one a second before
the limit. It is in the slot when the thread comes to close it. -/
theorem submitted_in_time_dies : ∃ before closing m x y,
    (initial impatient "Reader 0").run (delayed.take 18) = some before ∧
    (initial impatient "Reader 0").idleOrigin 0 (delayed.take 18) = some 0 ∧
    before.clock + 1000000000 = 2000000000 ∧
    delayed[18]? = some (.publish 0 [0x00]) ∧
    (initial impatient "Reader 0").run (delayed.take 23) = some closing ∧
    closing.stage? 0 = some (.concluding (.deciding (.idleTimeout ⟨2000000000⟩))) ∧
    closing.sessions[0]? = some x ∧ x.session.rendezvous.slot = .requested [0x00] 0 ∧
    (initial impatient "Reader 0").run delayed = some m ∧ m.sessions[0]? = some y ∧
    y.accepted = [[0x00]] ∧ y.transmissions.length = 0 ∧
    y.session.rendezvous.poll 0 = some (.error (.idleTimeout ⟨2000000000⟩)) :=
  ⟨_, _, _, _, _, rfl, rfl, rfl, rfl, rfl, rfl, rfl, rfl, rfl, rfl, rfl, rfl, rfl⟩

end Machine

end Runner

end SmartCard
