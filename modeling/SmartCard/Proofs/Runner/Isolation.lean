import SmartCard.Proofs.Runner.Story
import SmartCard.Proofs.Runner.Showing
import SmartCard.Proofs.Runner.Lasting
/-!
# Sessions do not get in each other's way

Handles of a session, and its watch, outlive its end. `Isolated` says that
nothing they do reaches another session: each session has a connection of
its own, what is sent over that connection is what the layers make of the
commands accepted for that session (`Sitting.Carries`), and a handle of a
session that has ended is refused for good, without any change.
-/

namespace SmartCard

namespace Exchange

variable {α : Type}

/-- The commands that an exchange sends to a card that has replied so far with
these replies. -/
def sends : Exchange α → List Reply → List Bytes
  | .done _, _ => []
  | .transmit command _, [] => [command]
  | .transmit command resume, reply :: replies => command :: (resume reply).sends replies

/-- One more reply has the exchange send what it asks for next. -/
theorem sends_concat {x : Exchange α} {replies : List Reply} {command : Bytes}
    {resume : Reply → Exchange α} (h : x.feed replies = .transmit command resume) (reply : Reply) :
    x.sends (replies ++ [reply]) = x.sends replies ++ (resume reply).sends [] := by
  induction replies generalizing x with
  | nil =>
    rw [feed_nil] at h
    rw [h]
    rfl
  | cons first replies ih =>
    cases x with
    | done result => cases h
    | transmit command' resume' => exact congrArg (command' :: ·) (ih h)

end Exchange

namespace Runner

/-- The card of a connection that was made. -/
def Call.card? : Call → Option CardData
  | .connect _ (.ok card) => some card
  | _ => none

/-! ## What is sent in a session -/

namespace Sitting

variable {x x' : Sitting} {config : Config} {preempted : Prop}

/-- **What was sent in a session** is what the layers made of the commands taken
in it, one after the other. -/
def Carries (config : Config) (x : Sitting) : Prop :=
  x.sent = x.transmissions.flatMap fun T => (config.stack.exchange T.command).sends T.replies

/-- Sending is sending what the exchange asks for next. -/
theorem sent_send_eq (x : Sitting) (rest : Exchange Reply) :
    (x.send rest).sent = x.sent ++ rest.sends [] := by
  cases rest with
  | done result => exact (List.append_nil _).symm
  | transmit command resume => rfl

namespace Carries

/-- A step that does not touch the two logs. -/
theorem of_eq (h : x.Carries config) (hlog : x'.transmissions = x.transmissions)
    (hsent : x'.sent = x.sent) : x'.Carries config := by
  rwa [Carries, hlog, hsent]

/-- A command is taken, and the first command of its exchange is sent. -/
theorem take (h : x.Carries config) (command : Bytes) {r : Rendezvous} {t : Ticket}
    (hslot : r.slot = .inFlight t) :
    ((x.take command r).send (config.stack.exchange command)).Carries config := by
  have hlog : (x.take command r).transmissions = x.transmissions ++ [{ ticket := t, command }] := by
    simp [Sitting.take, hslot, Slot.ticket?]
  have hsent : (x.take command r).sent = x.sent := rfl
  rw [Carries, sent_send_eq, transmissions_send, hlog, hsent, h, List.flatMap_append,
    List.flatMap_singleton]

/-- The log of the last transmission goes on. -/
theorem onLast (h : x.Carries config) {earlier : List Transmission} {T : Transmission}
    (hlast : x.transmissions = earlier ++ [T]) {change : Transmission → Transmission}
    {rest : Exchange Reply}
    (hchange : (config.stack.exchange (change T).command).sends (change T).replies =
      (config.stack.exchange T.command).sends T.replies ++ rest.sends []) :
    ((x.onLast change).send rest).Carries config := by
  have hlog : (x.onLast change).transmissions = earlier ++ [change T] := by
    simp [Sitting.onLast, hlast]
  have hsent : (x.onLast change).sent = x.sent := rfl
  rw [Carries, sent_send_eq, transmissions_send, hlog, hsent, h, hlast, List.flatMap_append,
    List.flatMap_append, List.flatMap_singleton, List.flatMap_singleton, hchange,
    List.append_assoc]

/-- **A step of the runner's thread** inside the session. -/
theorem turn {number : Nat} {stage stage' : Stage} {queued : List Event} (h : x.Carries config)
    (hs : x.Sound config preempted (some stage))
    (hturn : Turn config number x stage stage' x' queued) : x'.Carries config := by
  cases hturn with
  | take command ticket hstage hslot => exact h.take command rfl
  | hear command resume reply =>
    obtain ⟨earlier, T, hlog, -, -, hfeed⟩ := hs.fits
    exact h.onLast hlog (Exchange.sends_concat hfeed reply)
  | settle reply =>
    obtain ⟨earlier, T, hlog, -, -, -⟩ := hs.fits
    have hcarries : ((x.onLast fun T => { T with result := some reply }).send
        (.done reply)).Carries config := h.onLast hlog (List.append_nil _).symm
    exact hcarries
  | _ => exact h.of_eq rfl rfl

/-- A client sends nothing. -/
theorem publish (h : x.Carries config) (command : Bytes) :
    (x.publish command).Carries config := by
  unfold Sitting.publish
  split <;> exact h

end Carries

/-- A client whose session takes no commands any more changes nothing. -/
theorem publish_of_closed (hclosed : x.session.rendezvous.slot = .closed) (command : Bytes) :
    x.publish command = x := by
  unfold Sitting.publish
  simp only [Rendezvous.publish, hclosed]
  rfl

end Sitting

namespace Machine

variable {m m' : Machine} {preempted : Nat → Prop} {number : Nat} {move : Move} {x : Sitting}

/-- What holds of all sessions holds of them after a move. -/
theorem carries_of_step (hkept : m.Kept preempted)
    (h : ∀ (k : Nat) (x : Sitting), m.sessions[k]? = some x → x.Carries m.config)
    (hstep : m.step move = some m') :
    ∀ (k : Nat) (x : Sitting), m'.sessions[k]? = some x → x.Carries m'.config := by
  intro k x' hx'
  have hsees := sees_of_step hstep k
  rw [hx'] at hsees
  rw [config_of_step hstep]
  generalize hafter : some x' = after, m'.stage? k = stage' at hsees
  cases hsees with
  | apart | leave | panic => exact h k x' hafter.symm
  | connect input card hx =>
    cases hafter
    rfl
  | publish command hx =>
    cases hafter
    exact (h k _ hx).publish command
  | watch input hx hwatch hturn =>
    cases hafter
    exact (h k _ hx).of_eq rfl rfl
  | turn input hx hstage hturn =>
    cases hafter
    have hsound := hkept.sound k _ hx
    rw [hstage] at hsound
    exact (h k _ hx).turn hsound hturn

/-! ## A connection for each session -/

/-- The cards of the connections that were made, in order. -/
def connected (m : Machine) : List CardData :=
  m.calls.filterMap Call.card?

/-- The cards of the sessions, in order. -/
def cards (m : Machine) : List CardData :=
  m.sessions.map fun x => x.session.card

/-- **Every session has a connection of its own**: the one made for its card. -/
def Matched (m : Machine) : Prop :=
  m.cards = m.connected

/-- A call to the reader that makes no connection. -/
theorem matched_of_log (h : m.Matched) {call : Call} (hcall : call.card? = none)
    (hsessions : m'.sessions = m.sessions) (hcalls : m'.calls = m.calls ++ [call]) :
    m'.Matched := by
  rw [Matched, cards, connected, hsessions, hcalls, List.filterMap_append,
    List.filterMap_cons_none hcall, List.filterMap_nil, List.append_nil]
  exact h

theorem matched_of_same (h : m.Matched) (hcards : m'.cards = m.cards)
    (hcalls : m'.calls = m.calls) : m'.Matched := by
  rw [Matched, hcards, connected, hcalls]
  exact h

/-- On the way to a card, a session is opened exactly when a connection is made. -/
theorem matched_of_attempt {p : Parameters} {a : Attempt} {input : Input} (h : m.Matched)
    (hstep : m.attempt p a input = some m') : m'.Matched := by
  have henter : ∀ (state : State) (point : Point), ((m.enter state).goto point).Matched := by
    intro state point
    obtain ⟨states, heq⟩ := m.enter_eq state
    rw [heq]
    exact h
  unfold attempt at hstep
  split at hstep
  · split at hstep <;> cases hstep <;> exact henter _ _
  · cases hstep
    exact henter _ _
  · split at hstep <;> cases hstep <;> exact h
  · simp only at hstep
    split at hstep <;> cases hstep <;> exact matched_of_log h rfl rfl rfl
  · cases hstep
    exact henter _ _
  · simp only at hstep
    split at hstep
    · next card =>
      cases hstep
      simp only [Matched, cards, connected, log, List.map_append, List.filterMap_append]
      exact congrArg (· ++ [card]) h
    · split at hstep
      · split at hstep <;> cases hstep <;> exact matched_of_log h rfl rfl rfl
      · cases hstep
        exact matched_of_log h rfl rfl rfl
  · split at hstep <;> cases hstep
    exact h
  · cases hstep
  · split at hstep <;> cases hstep
    · exact matched_of_log h rfl rfl rfl
    · exact h
    · exact h
  · cases hstep

/-- A change of one session that leaves its card leaves all cards. -/
theorem cards_of_set {x' : Sitting} (hx : m.sessions[number]? = some x)
    (hcard : x'.session.card = x.session.card)
    (hsessions : m'.sessions = m.sessions.set number x') : m'.cards = m.cards := by
  obtain ⟨hlt, rfl⟩ := List.getElem?_eq_some_iff.1 hx
  rw [cards, hsessions, List.map_set, hcard, ← List.map_set, List.set_getElem_self hlt]
  rfl

/-- **One move** opens a session exactly when it makes a connection. -/
theorem matched_of_step (h : m.Matched) (hstep : m.step move = some m') : m'.Matched := by
  cases happens_of_step hstep with
  | aside haside =>
    obtain ⟨-, hsessions, -, -, -⟩ := haside.same
    exact matched_of_same h (by rw [cards, cards, hsessions]) (by cases haside <;> rfl)
  | @publish k command x hx =>
    exact matched_of_same h (cards_of_set hx (Sitting.Lasts.publish x command).card rfl) rfl
  | watch k input hx hwatch hturn =>
    exact matched_of_same h (cards_of_set hx (Sitting.Lasts.watch hturn).card rfl) rfl
  | runner input hleads =>
    rcases towards_or_silent hstep with ⟨p, a, hpoint, -⟩ | ⟨hnot, hsilent⟩
    · simp only [step, runner, hpoint] at hstep
      exact matched_of_attempt h hstep
    · refine matched_of_same h ?_ hsilent.calls
      clear hsilent
      obtain ⟨queued, hgoes, -, -⟩ := hleads
      generalize hpoint : m.point = point at hgoes hnot
      generalize m'.point = point' at hgoes
      generalize hsessions : m'.sessions = sessions at hgoes
      cases hgoes with
      | connect p a card => exact absurd rfl (hnot p a)
      | turn hs' hx hturn => exact cards_of_set hx (Sitting.Lasts.turn hturn).card hsessions
      | _ => rw [cards, cards, hsessions]

/-! ## Every run -/

/-- A handle of a session whose slot is closed is refused, and changes nothing. -/
theorem step_publish_of_closed (hx : m.sessions[number]? = some x)
    (hclosed : x.session.rendezvous.slot = .closed) (command : Bytes) :
    m.step (.publish number command) = some m := by
  obtain ⟨hlt, rfl⟩ := List.getElem?_eq_some_iff.1 hx
  simp only [step, if_pos hlt]
  have hsame : m.sessions.modify number (fun sitting => sitting.publish command) = m.sessions := by
    refine (sessions_onSitting hx fun sitting => sitting.publish command).trans ?_
    rw [Sitting.publish_of_closed hclosed]
    exact List.set_getElem_self hlt
  rw [onSitting, hsame]

/-- The commands accepted for a session come from its own clients. -/
theorem accepted_of_step {x' : Sitting} (hstep : m.step move = some m')
    (hx : m.sessions[number]? = some x) (hx' : m'.sessions[number]? = some x') :
    x'.accepted = x.accepted ∨
      ∃ command, move = .publish number command ∧ x'.accepted = x.accepted ++ [command] := by
  have hsend : ∀ (y : Sitting) (rest : Exchange Reply), (y.send rest).accepted = y.accepted := by
    intro y rest
    obtain ⟨sent, heq⟩ := y.send_eq rest
    rw [heq]
  have hsees := sees_of_step hstep number
  rw [hx'] at hsees
  generalize hafter : some x' = after, m'.stage? number = stage' at hsees
  cases hsees with
  | apart | leave | panic =>
    rw [hx] at hafter
    cases hafter
    exact .inl rfl
  | connect input card hnone => exact nomatch hx.symm.trans hnone
  | publish command hx₁ =>
    cases hx.symm.trans hx₁
    cases hafter
    unfold Sitting.publish
    split
    · exact .inr ⟨command, rfl, rfl⟩
    · exact .inl rfl
  | watch input hx₁ hwatch hturn =>
    cases hx.symm.trans hx₁
    cases hafter
    exact .inl rfl
  | turn input hx₁ hstage hturn =>
    cases hx.symm.trans hx₁
    cases hafter
    left
    cases hturn with
    | take | hear => exact hsend _ _
    | _ => rfl

/-- **How the sessions of a machine are kept apart.** -/
structure Isolated (m : Machine) : Prop where
  /-- The sessions are those of the connections, one each, in order. -/
  connections : m.cards = m.connected
  /-- What is sent over a connection is what the layers make of the commands
  taken in its session. -/
  sent : ∀ (k : Nat) (x : Sitting), m.sessions[k]? = some x → x.sent =
    x.transmissions.flatMap fun T => (m.config.stack.exchange T.command).sends T.replies
  /-- Those are the commands accepted for it, in order. -/
  taken : ∀ (k : Nat) (x : Sitting) (i : Nat) (T : Transmission), m.sessions[k]? = some x →
    x.transmissions[i]? = some T →
    T.ticket = i ∧ x.accepted[i]? = some T.command
  /-- Commands are accepted for a session through its own handles only. -/
  accepted : ∀ move m', m.step move = some m' → ∀ (k : Nat) (x x' : Sitting),
    m.sessions[k]? = some x → m'.sessions[k]? = some x' → x'.accepted = x.accepted ∨
      ∃ command, move = .publish k command ∧ x'.accepted = x.accepted ++ [command]
  /-- A client changes nothing but the session of its handle. -/
  clients : ∀ k command m', m.step (.publish k command) = some m' → ∃ x,
    m.sessions[k]? = some x ∧ m' = { m with sessions := m.sessions.set k (x.publish command) }
  /-- Once a session has ended, its handles are refused for good, and nothing
  changes by that. -/
  refused : ∀ (k : Nat) (x : Sitting), m.sessions[k]? = some x → x.session.isConcluded = true →
    ∀ later m', m.run later = some m' → ∃ r, m'.handle? k = some r ∧ ∀ command,
      r.publish command = (.error (.configuration "no session is accepting commands"), r) ∧
        m'.step (.publish k command) = some m'
  /-- A watch acts in its own session only, which is the last, and tells only
  of that one. -/
  watch : ∀ k input m', m.step (.watch k input) = some m' → k + 1 = m.sessions.length ∧
    ∃ queued, m'.events = m.events ++ queued ∧ m'.storyAt k = m.storyAt k ++ queued ∧
      ∀ j, j ≠ k → m'.sessions[j]? = m.sessions[j]? ∧ m'.storyAt j = m.storyAt j

/-- A watch adds to the story of its own session what it queues. -/
theorem storyAt_of_watch (hkept : m.Kept preempted) {input : Input}
    (hstep : m.step (.watch number input) = some m') : number + 1 = m.sessions.length ∧
      ∃ queued, m'.events = m.events ++ queued ∧ m'.storyAt number = m.storyAt number ++ queued ∧
        ∀ j, j ≠ number → m'.sessions[j]? = m.sessions[j]? ∧ m'.storyAt j = m.storyAt j := by
  obtain ⟨x, w, w', s', queued, hx, hwatch, hadvance, rfl⟩ := watch_of_step hstep
  have hturn := Watch.turn_of_advance hadvance
  obtain ⟨hlt, -⟩ := List.getElem?_eq_some_iff.1 hx
  refine ⟨(watch_last hkept hx hwatch hturn).1, queued, rfl, ?_, fun j hj => ?_⟩
  · rw [storyAt_of_getElem? hx, storyAt_of_getElem? (List.getElem?_set_self hlt)]
    exact Sitting.story_watch (hkept.sound number x hx) hwatch hturn
  · have hother : (m.sessions.set number { x with session := s', watch := some w' })[j]? =
        m.sessions[j]? := List.getElem?_set_ne hj.symm
    exact ⟨hother, congrArg (Option.elim · [] _) hother⟩

/-- **A whole run** keeps what is sent and the connections. -/
theorem matched_of_run {moves : List Move} (hkept : m.Kept preempted)
    (hcarries : ∀ (k : Nat) (x : Sitting), m.sessions[k]? = some x → x.Carries m.config)
    (hmatched : m.Matched) (hrun : m.run moves = some m') :
    (∀ (k : Nat) (x : Sitting), m'.sessions[k]? = some x → x.Carries m'.config) ∧
      m'.Matched := by
  refine (invariant_of_run (P := fun m => (∃ preempted, m.Kept preempted) ∧
    (∀ (k : Nat) (x : Sitting), m.sessions[k]? = some x → x.Carries m.config) ∧ m.Matched) ?_
    ⟨⟨preempted, hkept⟩, hcarries, hmatched⟩ hrun).2
  rintro m₁ m₂ move ⟨⟨preempted, hkept⟩, hcarries, hmatched⟩ hstep
  exact ⟨⟨_, hkept.step hstep⟩, carries_of_step hkept hcarries hstep,
    matched_of_step hmatched hstep⟩

/-- **Sessions are isolated from each other**, in any run with any number of them. -/
theorem sessions_isolated (config : Config) (reader : String) (moves : List Move) (m : Machine)
    (hrun : (initial config reader).run moves = some m) : m.Isolated := by
  have hkept := kept_of_run (.initial config reader) hrun
  obtain ⟨hcarries, hmatched⟩ := matched_of_run (.initial config reader)
    (fun k x hx => by simp [Machine.initial] at hx) rfl hrun
  refine
    { connections := hmatched
      sent := hcarries
      taken := fun k x i T hx hT => ?_
      accepted := fun move m' hstep k x x' => accepted_of_step hstep
      clients := fun k command m' hstep => ?_
      refused := fun k x hx hconcluded later m' hlater => ?_
      watch := fun k input m' => storyAt_of_watch hkept }
  · have hsound := hkept.sound k x hx
    obtain ⟨hlt, rfl⟩ := List.getElem?_eq_some_iff.1 hT
    refine ⟨?_, ?_⟩
    · have htickets := congrArg (·[i]?) hsound.tickets
      simpa [hlt] using htickets
    · -- the commands taken are the first of those accepted
      obtain ⟨rest, hrest⟩ := hsound.orderly.hands.isPrefix
      rw [← hrest, List.getElem?_append_left (by rwa [List.length_map])]
      simp [hlt]
  · cases happens_of_step hstep with
    | publish k command hx => exact ⟨_, hx, rfl⟩
    | aside haside => cases haside
  · obtain ⟨x', hx', hlasts⟩ := lasts_of_run hlater hx
    obtain ⟨o, ho⟩ := Option.isSome_iff_exists.1 (hlasts.concluded hconcluded)
    have hkept' := kept_of_run hkept hlater
    have hclosed := ((hkept'.sound k x' hx').orderly.lawful.of_recorded ho).2.2
    refine ⟨x'.session.rendezvous, by rw [handle?, hx']; rfl, fun command => ⟨?_, ?_⟩⟩
    · simp only [Rendezvous.publish, hclosed, SessionError.noSession]
    · exact step_publish_of_closed hx' hclosed command

/-- A card is exchanged with and leaves, another comes, and a command is on
its way to that one. -/
def succession : List Move :=
  let go : Move := .runner .go
  let watch : Move := .watch 0 .go
  let seen : Move := .runner (.presence (.ok true))
  [go, .deliver false, .resolve { multiSession := true }, go, go, go, go, seen, go,
    .runner (.connection (.ok ⟨"Reader 0", [], .t1⟩)), go, go, .runner (.spawned none),
    .publish 0 [0x00], go, go, go, .runner (.reply (.ok [0x90, 0x00])), go, go, go,
    watch, watch, .watch 0 (.presence (.ok true)), watch, watch, watch, watch, watch, watch, watch,
    watch, go, go, go, go, go, go, go, go, go, seen, go,
    .runner (.connection (.ok ⟨"Reader 0", [], .t0⟩)), go, go, .runner (.spawned none),
    .publish 1 [0x01], go, go, go]

/-- No limit, and no layers over the card. -/
def bare : Config := { idleTimeout := none, wrongLengthRetry := false, getResponse := false }

/-- The first session has ended, the second has not, and each card has its command. -/
theorem sessions_isolated_succession : ∃ m,
    (initial bare "Reader 0").run succession = some m ∧
    m.sessions.map (fun x => x.session.isConcluded) = [true, false] ∧
    m.sessions.map Sitting.sent = [[[0x00]], [[0x01]]] ∧ m.Isolated :=
  ⟨_, rfl, rfl, rfl, sessions_isolated bare "Reader 0" succession _ rfl⟩

end Machine

end Runner

end SmartCard
