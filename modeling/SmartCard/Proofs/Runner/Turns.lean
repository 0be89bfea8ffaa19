import SmartCard.Runner.Machine
import SmartCard.Proofs.Session.Latch
/-!
# The steps of a runner

What one move of a machine can do, taken apart once. `Turn` lists the steps
of the runner's thread inside a session, `Goes` those of the whole thread,
and `Watch.Turn` those of a watch; each says what changes of the session,
where the thread stands afterwards, and what is queued. `happens_of_step`
puts them together: later proofs go through these lists, and none of them
opens `Machine.step`.
-/

namespace SmartCard

namespace Runner

open Conclusion

/-! ## The watch -/

/-- The steps of a watch, by its points. -/
inductive Watch.Turn (s : Session) : Watch.Point → Watch.Point → Session → List Event → Prop where
  | check (point : Watch.Point) (hpoint : point = .leaving ∨ point = .heeding) :
    Turn s .checking point s []
  | heed (point : Watch.Point) (hpoint : point = .leaving ∨ point = .polling) :
    Turn s .heeding point s []
  | still : Turn s .polling .checking s []
  | seek (answer : Except ExchangeError Bool) (o : Outcome)
    (ho : Watch.outcome? answer = some o) : Turn s .polling (.concluding (.seeking o)) s []
  | conclude {s' : Session} {call call' : Conclusion} {queued : List Event}
    (hs : s.Advances call s' call' queued) (hcall' : ∀ o, call' ≠ .returned o) :
    Turn s (.concluding call) (.concluding call') s' queued
  | concluded {s' : Session} {call : Conclusion} {o : Outcome} {queued : List Event}
    (hs : s.Advances call s' (.returned o) queued) : Turn s (.concluding call) .checking s' queued
  | leave : Turn s .leaving .gone s []

/-- A step of a watch is one of those listed. -/
theorem Watch.turn_of_advance {w w' : Watch} {s s' : Session} {input : Input}
    {queued : List Event} (h : w.advance s input = some (w', s', queued)) :
    Watch.Turn s w.point w'.point s' queued := by
  unfold Watch.advance at h
  split at h
  · next hpoint =>
    rw [hpoint]
    split at h
    · cases h
    · cases h
      refine .check _ ?_
      cases s.isConcluded
      · exact .inr rfl
      · exact .inl rfl
  · next hpoint =>
    rw [hpoint]
    cases h
    refine .heed _ ?_
    cases w.interrupted
    · exact .inr rfl
    · exact .inl rfl
  · next answer hpoint =>
    rw [hpoint]
    split at h
    · cases h
      exact .still
    · next o ho =>
      cases h
      exact .seek answer o ho
  · next call hpoint =>
    rw [hpoint]
    split at h
    · cases h
    · next hadvance =>
      cases h
      exact .concluded (Session.advances_of_advance hadvance)
    · next hreturned hadvance =>
      cases h
      exact .conclude (Session.advances_of_advance hadvance) fun o heq => hreturned o heq
  · next hpoint =>
    rw [hpoint]
    cases h
    exact .leave
  · cases h

/-! ## What is left of the limit -/

section Slice

variable {c : Config} {idle slice : Nat}

/-- There is nothing left once the limit has passed. -/
theorem slice_eq_none_iff :
    Machine.slice c idle = none ↔ ∃ limit, c.idleTimeout = some limit ∧ limit.nanos ≤ idle := by
  unfold Machine.slice
  cases c.idleTimeout with
  | none => simp
  | some limit => by_cases hover : limit.nanos ≤ idle <;> simp [hover]

/-- What is left is no more than one wait may take, and what is taken from the limit is
less than the limit. -/
theorem le_of_slice (h : Machine.slice c idle = some slice) :
    slice ≤ c.pollInterval.nanos ∧
      ∀ limit, c.idleTimeout = some limit → idle < limit.nanos ∧ idle + slice ≤ limit.nanos := by
  unfold Machine.slice at h
  split at h
  · next hnone =>
    cases h
    exact ⟨Nat.le_refl _, fun limit hlimit => by rw [hnone] at hlimit; cases hlimit⟩
  · next limit hlimit =>
    split at h
    · cases h
    · next hlt =>
      cases h
      refine ⟨Nat.min_le_right _ _, fun limit' hlimit' => ?_⟩
      obtain rfl : limit = limit' := Option.some.inj (hlimit.symm.trans hlimit')
      have hle := Nat.min_le_left (limit.nanos - idle) c.pollInterval.nanos
      omega

end Slice

/-! ## The runner inside a session -/

/-- The runner is about to look for a command, or waits for one. -/
def Stage.isListening : Stage → Bool
  | .listening _ | .asleep _ => true
  | _ => false

/-- The runner's thread can panic here: in the driver of the card, or because the
clock has no instant for the end of a wait. -/
def Stage.canPanic : Stage → Bool
  | .listening _ | .exchanging (.transmit _ _) => true
  | _ => false

theorem Stage.cases_of_canPanic {stage : Stage} (h : stage.canPanic = true) :
    (∃ slice, stage = .listening slice) ∨
      ∃ command resume, stage = .exchanging (.transmit command resume) := by
  unfold canPanic at h
  split at h
  · exact .inl ⟨_, rfl⟩
  · exact .inr ⟨_, _, rfl⟩
  · cases h

/-- The steps of the runner's thread inside the session with this number. -/
inductive Turn (config : Config) (number : Nat) (x : Sitting) :
    Stage → Stage → Sitting → List Event → Prop where
  | enter : Turn config number x .opened .announcing x []
  | announce : Turn config number x .announcing .hiring x [x.session.announcement number]
  | hire : Turn config number x .hiring .looping { x with watch := some {} } []
  | unwatched (problem : String) : Turn config number x .hiring
    (.concluding (.seeking (.fault (.transport
      (.plain ("failed to start removal watch: " ++ problem)))))) x []
  | cancel : Turn config number x .looping (.concluding (.seeking .cancelled)) x []
  | go : Turn config number x .looping .timing x []
  | idle (limit : Duration) :
    Turn config number x .timing (.concluding (.seeking (.idleTimeout limit))) x []
  | listen (slice : Nat) (hslice : slice ≤ config.pollInterval.nanos) :
    Turn config number x .timing (.listening slice) x []
  | take {stage : Stage} (command : Bytes) (ticket : Ticket) (hstage : stage.isListening = true)
    (hslot : x.session.rendezvous.slot = .requested command ticket) :
    Turn config number x stage (.exchanging (config.stack.exchange command))
      ((x.take command { x.session.rendezvous with slot := .inFlight ticket }).send
        (config.stack.exchange command)) []
  | shut {stage : Stage} (hstage : stage.isListening = true)
    (hslot : x.session.rendezvous.slot = .closed) : Turn config number x stage .inquiring x []
  | wait {stage : Stage} (stage' : Stage) (hstage : stage.isListening = true)
    (hstage' : stage' = .looping ∨ ∃ deadline, stage' = .asleep deadline) :
    Turn config number x stage stage' x []
  | inquire (hfree : x.session.latched = false) :
    Turn config number x .inquiring (.dismissing (x.session.outcome.getD .cancelled)) x []
  | hear (command : Bytes) (resume : Reply → Exchange Reply) (reply : Reply) :
    Turn config number x (.exchanging (.transmit command resume)) (.exchanging (resume reply))
      ((x.hear reply).send (resume reply)) []
  | settle (reply : Reply) : Turn config number x (.exchanging (.done reply))
    (.answering (Machine.answerOf reply)) (x.settle reply) []
  | release (raw : Bytes) (ticket : Ticket)
    (hslot : x.session.rendezvous.slot = .inFlight ticket) :
    Turn config number x (.answering (.ok raw)) (.resolving ticket (.ok raw))
      (x.onRendezvous fun r => { r with slot := .idle }) []
  | stray (raw : Bytes) (hslot : ∀ ticket, x.session.rendezvous.slot ≠ .inFlight ticket) :
    Turn config number x (.answering (.ok raw)) .looping x []
  | fail (e : SessionError) : Turn config number x (.answering (.error e))
    (.concluding (.seeking (Machine.outcomeOf e))) x []
  | resolve (ticket : Ticket) (answer : Answer) :
    Turn config number x (.resolving ticket answer) .looping
      (x.onRendezvous fun r => r.resolve ticket answer) []
  | conclude {s' : Session} {call call' : Conclusion} {queued : List Event}
    (hs : x.session.Advances call s' call' queued) (hcall' : ∀ o, call' ≠ .returned o) :
    Turn config number x (.concluding call) (.concluding call') { x with session := s' } queued
  | concluded {s' : Session} {call : Conclusion} {o : Outcome} {queued : List Event}
    (hs : x.session.Advances call s' (.returned o) queued) :
    Turn config number x (.concluding call) (.dismissing o) { x with session := s' } queued
  | alone (o : Outcome) (hwatch : x.watch = none) :
    Turn config number x (.dismissing o) (.served o) x []
  | dismiss (o : Outcome) (w : Watch) (status : Task.Status) (stage' : Stage)
    (hwatch : x.watch = some w) (hstage' : stage' = .interrupting o ∨ stage' = .joining o) :
    Turn config number x (.dismissing o) stage' { x with watch := some { w with status } } []
  | interrupt (o : Outcome) : Turn config number x (.interrupting o) (.joining o)
    { x with watch := x.watch.map fun w => { w with interrupted := true } } []
  | join (o : Outcome) (hgone : ∀ w, x.watch = some w → w.point = .gone) :
    Turn config number x (.joining o) (.served o) x []

namespace Machine

variable {m m' : Machine}

/-- Changing one session puts it in its place. -/
theorem sessions_onSitting {number : Nat} {x : Sitting} (hx : m.sessions[number]? = some x)
    (change : Sitting → Sitting) :
    (m.onSitting number change).sessions = m.sessions.set number (change x) := by
  obtain ⟨hlt, rfl⟩ := List.getElem?_eq_some_iff.1 hx
  rw [onSitting, List.modify_eq_set_getElem?, hx]
  rfl

/-! ## The runner's thread -/

/-- Where the thread goes when a session is over. -/
def onward (p : Parameters) (sessions : Nat) : Outcome → Point
  | .removed =>
    if p.multiSession then .attempting p .arriving else .terminating (.ok (.removed sessions))
  | .idleTimeout limit => .terminating (.ok (.fault (.idleTimeout limit)))
  | .fault e => .terminating (.ok (.fault e))
  | .cancelled => .stopping .cancelled

/-- **The steps of the runner's thread**: from where to where it goes, the
sessions afterwards, and what is queued. -/
inductive Goes (m : Machine) : Point → Point → List Sitting → List Event → Prop where
  | ask : Goes m .opening .negotiating m.sessions [.start]
  | giveUp : Goes m .negotiating (.stopping .cancelled) m.sessions []
  | await (deadline : Nat) : Goes m .negotiating (.receiving deadline) m.sessions []
  | again (deadline : Nat) : Goes m (.receiving deadline) .negotiating m.sessions []
  | begin (deadline : Nat) (p : Parameters) (hsent : m.start.sent = some p) :
    Goes m (.receiving deadline) (.attempting p .arriving) m.sessions []
  | aborted (deadline : Nat) :
    Goes m (.receiving deadline) (.stopping (.fault .startAborted)) m.sessions []
  | attempt (p : Parameters) (a a' : Attempt) :
    Goes m (.attempting p a) (.attempting p a') m.sessions []
  | connect (p : Parameters) (a : Attempt) (card : CardData) :
    Goes m (.attempting p a) (.serving p { session := m.sessions.length })
      (m.sessions ++ [{ session := { card } }]) []
  | leave (p : Parameters) (a : Attempt) (why : Stop) (hwhy : why ≠ .fault .cancelled) :
    Goes m (.attempting p a) (.stopping why) m.sessions []
  | turn {p : Parameters} {s s' : Service} {x x' : Sitting} {queued : List Event}
    (hs' : s'.session = s.session) (hx : m.sessions[s.session]? = some x)
    (hturn : Turn m.config s.session x s.stage s'.stage x' queued) :
    Goes m (.serving p s) (.serving p s') (m.sessions.set s.session x') queued
  | finish {p : Parameters} {s : Service} (o : Outcome) (hstage : s.stage = .served o) :
    Goes m (.serving p s) (onward p m.sessions.length o) m.sessions []
  | panic {p : Parameters} {s : Service} (message : String) (hstage : s.stage.canPanic = true) :
    Goes m (.serving p s) (.ending (.panicked (some message))) m.sessions []
  | overflow (p : Parameters) : Goes m (.attempting p .connecting)
    (.ending (.panicked (some Instant.overflow))) m.sessions []
  | cancelled : Goes m (.stopping .cancelled) (.terminating (.error .cancelled)) m.sessions []
  | failed (e : SessionError) : Goes m (.stopping (.fault e)) (.failing e) m.sessions []
  | tell (e : SessionError) :
    Goes m (.failing e) (.terminating (.ok (.fault e))) m.sessions [.failed e]
  | terminate (result : Except TaskError Exit) :
    Goes m (.terminating result) (.ending (.returned result)) m.sessions []
  | exit (ending : Task.Ending Exit) : Goes m (.ending ending) (.gone ending) m.sessions []

/-- What no step of a thread touches, or only in one way. -/
structure Keeps (m m' : Machine) : Prop where
  config : m'.config = m.config
  delivered : m'.delivered = m.delivered
  held : m'.start.held = m.start.held
  sent : ∀ p, m'.start.sent = some p → m.start.sent = some p
  state : m'.state = .terminated → m.state = .terminated ∨ ∃ result, m.point = .terminating result

/-- A step that touches none of it. -/
theorem Keeps.of_eq (hconfig : m'.config = m.config) (hdelivered : m'.delivered = m.delivered)
    (hstart : m'.start = m.start) (hstate : m'.state = m.state) : m.Keeps m' :=
  ⟨hconfig, hdelivered, hstart ▸ rfl, fun _ h => hstart ▸ h, fun h => .inl (hstate ▸ h)⟩

/-- A step that shows a state other than the last. -/
theorem Keeps.of_enter (hconfig : m'.config = m.config) (hdelivered : m'.delivered = m.delivered)
    (hstart : m'.start = m.start) (hstate : m'.state ≠ .terminated) : m.Keeps m' :=
  ⟨hconfig, hdelivered, hstart ▸ rfl, fun _ h => hstart ▸ h, fun h => absurd h hstate⟩

/-- The runner's thread leads from one machine to another. -/
def Leads (m m' : Machine) : Prop :=
  ∃ queued, m.Goes m.point m'.point m'.sessions queued ∧ m'.events = m.events ++ queued ∧
    m.Keeps m'

/-- A step that leaves the sessions and the events as they are. -/
theorem leads_of_goes {point' : Point} (hgoes : m.Goes m.point point' m.sessions [])
    (hpoint : m'.point = point') (hsessions : m'.sessions = m.sessions)
    (hevents : m'.events = m.events) (hkeeps : m.Keeps m') : m.Leads m' :=
  ⟨[], hpoint ▸ hsessions ▸ hgoes, hevents.trans (List.append_nil _).symm, hkeeps⟩

theorem enter_eq (m : Machine) (state : State) :
    ∃ states, m.enter state = { m with state, states } := by
  unfold enter
  split
  · next h => exact ⟨m.states, h ▸ rfl⟩
  · exact ⟨_, rfl⟩

section Serving

variable {p : Parameters} {s : Service} {x : Sitting} {stage : Stage} {input : Input}

/-- A step inside a session that leaves the session as it is. -/
theorem leads_of_stay (hpoint : m.point = .serving p s) (hstage : s.stage = stage)
    (hx : m.sessions[s.session]? = some x) {stage' : Stage} {queued : List Event}
    (hturn : Turn m.config s.session x stage stage' x queued) (idleSince : Nat)
    (hpoint' : m'.point = .serving p { s with stage := stage', idleSince })
    (hsessions : m'.sessions = m.sessions) (hevents : m'.events = m.events ++ queued)
    (hkeeps : m.Keeps m') : m.Leads m' := by
  refine ⟨queued, ?_, hevents, hkeeps⟩
  have hset : m.sessions.set s.session x = m.sessions := by
    obtain ⟨hlt, rfl⟩ := List.getElem?_eq_some_iff.1 hx
    exact List.set_getElem_self hlt
  rw [hpoint, hpoint', hsessions, ← hset]
  exact .turn rfl hx (hstage ▸ hturn)

/-- A step inside a session that changes it. -/
theorem leads_of_change (hpoint : m.point = .serving p s) (hstage : s.stage = stage)
    (hx : m.sessions[s.session]? = some x) (change : Sitting → Sitting) {stage' : Stage}
    {queued : List Event} (hturn : Turn m.config s.session x stage stage' (change x) queued)
    (idleSince : Nat) (hpoint' : m'.point = .serving p { s with stage := stage', idleSince })
    (hsessions : m'.sessions = (m.onSitting s.session change).sessions)
    (hevents : m'.events = m.events ++ queued) (hkeeps : m.Keeps m') : m.Leads m' := by
  refine ⟨queued, ?_, hevents, hkeeps⟩
  rw [hpoint, hpoint', hsessions, sessions_onSitting hx]
  exact .turn rfl hx (hstage ▸ hturn)

/-- Looking for a command is one of the steps listed. -/
theorem leads_of_look (hpoint : m.point = .serving p s) (hstage : s.stage = stage)
    (hx : m.sessions[s.session]? = some x) (hlisten : stage.isListening = true) (deadline : Nat)
    (timedOut : Bool) : m.Leads (m.look p s deadline timedOut x) := by
  unfold look
  rcases x.session.rendezvous.next_cases with ⟨command, t, hslot, hr⟩ | ⟨hslot, hr⟩ | ⟨-, hr⟩
  · rw [hr]
    exact leads_of_change hpoint hstage hx
      (fun y => (y.take command { x.session.rendezvous with slot := .inFlight t }).send
        (m.config.stack.exchange command))
      (.take command t hlisten hslot) s.idleSince rfl rfl (List.append_nil _).symm
      (.of_eq rfl rfl rfl rfl)
  · rw [hr]
    exact leads_of_stay hpoint hstage hx (.shut hlisten hslot) s.idleSince rfl rfl
      (List.append_nil _).symm (.of_eq rfl rfl rfl rfl)
  · rw [hr]
    refine leads_of_stay hpoint hstage hx (.wait _ hlisten ?_) s.idleSince rfl rfl
      (List.append_nil _).symm (.of_eq rfl rfl rfl rfl)
    cases timedOut
    · exact .inr ⟨_, rfl⟩
    · exact .inl rfl

/-- **A step inside a session** is one of those listed. -/
theorem leads_of_serve (hpoint : m.point = .serving p s) (hstage : s.stage = stage)
    (hx : m.sessions[s.session]? = some x) (h : m.serve p s x stage input = some m') :
    m.Leads m' := by
  unfold serve at h
  split at h
  · -- opened
    cases h
    obtain ⟨states, heq⟩ := m.enter_eq .active
    rw [heq]
    exact leads_of_stay hpoint hstage hx .enter s.idleSince rfl rfl (List.append_nil _).symm
      (.of_enter rfl rfl rfl nofun)
  · cases h
    exact leads_of_stay hpoint hstage hx .announce s.idleSince rfl rfl rfl
      (.of_eq rfl rfl rfl rfl)
  · cases h
    exact leads_of_change hpoint hstage hx (fun y => { y with watch := some {} }) .hire m.clock
      rfl rfl (List.append_nil _).symm (.of_eq rfl rfl rfl rfl)
  · cases h
    exact leads_of_stay hpoint hstage hx (.unwatched _) s.idleSince rfl rfl (List.append_nil _).symm
      (.of_eq rfl rfl rfl rfl)
  · split at h
    · cases h
      exact leads_of_stay hpoint hstage hx .cancel s.idleSince rfl rfl (List.append_nil _).symm
        (.of_eq rfl rfl rfl rfl)
    · cases h
      exact leads_of_stay hpoint hstage hx .go s.idleSince rfl rfl (List.append_nil _).symm
        (.of_eq rfl rfl rfl rfl)
  · split at h
    · cases h
      exact leads_of_stay hpoint hstage hx (.idle _) s.idleSince rfl rfl (List.append_nil _).symm
        (.of_eq rfl rfl rfl rfl)
    · next slice hslice =>
      cases h
      exact leads_of_stay hpoint hstage hx (.listen slice (le_of_slice hslice).1) s.idleSince
        rfl rfl (List.append_nil _).symm (.of_eq rfl rfl rfl rfl)
    · cases h
  · split at h
    · cases h
      exact leads_of_look hpoint hstage hx rfl _ _
    · -- the end of the wait is no instant
      cases h
      refine leads_of_goes ?_ rfl rfl rfl (.of_eq rfl rfl rfl rfl)
      rw [hpoint]
      exact .panic _ (hstage ▸ rfl)
  · split at h
    · cases h
    · cases h
      exact leads_of_look hpoint hstage hx rfl _ _
  · split at h
    · cases h
    · next hlatched =>
      cases h
      exact leads_of_stay hpoint hstage hx (.inquire (Bool.eq_false_iff.2 hlatched)) s.idleSince
        rfl rfl (List.append_nil _).symm (.of_eq rfl rfl rfl rfl)
  · next command resume reply =>
    cases h
    exact leads_of_change hpoint hstage hx (fun y => (y.hear reply).send (resume reply))
      (.hear command resume reply) s.idleSince rfl rfl (List.append_nil _).symm
      (.of_eq rfl rfl rfl rfl)
  · next command resume message =>
    cases h
    refine leads_of_goes ?_ rfl rfl rfl (.of_eq rfl rfl rfl rfl)
    rw [hpoint]
    exact .panic message (hstage ▸ rfl)
  · next reply =>
    cases h
    exact leads_of_change hpoint hstage hx (fun y => y.settle reply) (.settle reply) m.clock
      rfl rfl (List.append_nil _).symm (.of_eq rfl rfl rfl rfl)
  · next raw =>
    rcases x.session.rendezvous.release_cases with ⟨t, hslot, hr⟩ | ⟨hslot, hr⟩
    · rw [hr] at h
      cases h
      refine leads_of_change hpoint hstage hx (fun y => y.onRendezvous fun _ => _)
        (.release raw t hslot) s.idleSince rfl rfl (List.append_nil _).symm
        (.of_eq rfl rfl rfl rfl)
    · rw [hr] at h
      cases h
      exact leads_of_stay hpoint hstage hx (.stray raw hslot) s.idleSince rfl rfl
        (List.append_nil _).symm (.of_eq rfl rfl rfl rfl)
  · next e =>
    cases h
    exact leads_of_stay hpoint hstage hx (.fail e) s.idleSince rfl rfl (List.append_nil _).symm
      (.of_eq rfl rfl rfl rfl)
  · next t answer =>
    cases h
    exact leads_of_change hpoint hstage hx (fun y => y.onRendezvous fun r => r.resolve t answer)
      (.resolve t answer) s.idleSince rfl rfl (List.append_nil _).symm
      (.of_eq rfl rfl rfl rfl)
  · next call =>
    split at h
    · cases h
    · next session call' queued hadvance =>
      have hs := Session.advances_of_advance hadvance
      cases h
      cases call' with
      | returned o =>
        exact leads_of_change hpoint hstage hx (fun y => { y with session }) (.concluded hs)
          s.idleSince rfl rfl rfl (.of_eq rfl rfl rfl rfl)
      | _ =>
        exact leads_of_change hpoint hstage hx (fun y => { y with session }) (.conclude hs nofun)
          s.idleSince rfl rfl rfl (.of_eq rfl rfl rfl rfl)
  · next o =>
    split at h
    · next hwatch =>
      cases h
      exact leads_of_stay hpoint hstage hx (.alone o hwatch) s.idleSince rfl rfl
        (List.append_nil _).symm (.of_eq rfl rfl rfl rfl)
    · next w hwatch =>
      cases h
      refine leads_of_change hpoint hstage hx
        (fun y => { y with watch := some { w with status := w.status.cancel.2 } })
        (.dismiss o w _ _ hwatch ?_) s.idleSince rfl rfl (List.append_nil _).symm
        (.of_eq rfl rfl rfl rfl)
      cases w.status.cancel.1
      · exact .inr rfl
      · exact .inl rfl
  · next o =>
    cases h
    exact leads_of_change hpoint hstage hx
      (fun y => { y with watch := y.watch.map fun w => { w with interrupted := true } })
      (.interrupt o) s.idleSince rfl rfl (List.append_nil _).symm
      (.of_eq rfl rfl rfl rfl)
  · next o =>
    split at h
    · next hgone =>
      cases h
      refine leads_of_stay hpoint hstage hx (.join o fun w hw => ?_) s.idleSince rfl rfl
        (List.append_nil _).symm (.of_eq rfl rfl rfl rfl)
      rw [hw] at hgone
      exact of_decide_eq_true hgone
    · cases h
  · obtain ⟨states, heq⟩ := m.enter_eq .removed
    simp only [heq] at h
    split at h
    · next hmulti =>
      cases h
      refine leads_of_goes ?_ rfl rfl rfl (.of_enter rfl rfl rfl nofun)
      rw [hpoint]
      have hgoes : m.Goes (.serving p s) _ _ _ := .finish .removed hstage
      rw [onward, if_pos hmulti] at hgoes
      exact hgoes
    · next hmulti =>
      cases h
      refine leads_of_goes ?_ rfl rfl rfl (.of_enter rfl rfl rfl nofun)
      rw [hpoint]
      have hgoes : m.Goes (.serving p s) _ _ _ := .finish .removed hstage
      rw [onward, if_neg hmulti] at hgoes
      exact hgoes
  · next limit =>
    obtain ⟨states, heq⟩ := m.enter_eq .idleTimeout
    rw [heq] at h
    cases h
    refine leads_of_goes ?_ rfl rfl rfl (.of_enter rfl rfl rfl nofun)
    rw [hpoint]
    exact .finish (.idleTimeout limit) hstage
  · next e =>
    obtain ⟨states, heq⟩ := m.enter_eq .fault
    rw [heq] at h
    cases h
    refine leads_of_goes ?_ rfl rfl rfl (.of_enter rfl rfl rfl nofun)
    rw [hpoint]
    exact .finish (.fault e) hstage
  · cases h
    refine leads_of_goes ?_ rfl rfl rfl (.of_eq rfl rfl rfl rfl)
    rw [hpoint]
    exact .finish .cancelled hstage
  · cases h

end Serving

/-- **A step towards a card** is one of those listed. -/
theorem leads_of_attempt {p : Parameters} {a : Attempt} {input : Input}
    (hpoint : m.point = .attempting p a) (h : m.attempt p a input = some m') : m.Leads m' := by
  unfold attempt at h
  split at h
  · split at h
    · obtain ⟨states, heq⟩ := m.enter_eq .waitAbsent
      rw [heq] at h
      cases h
      exact leads_of_goes (hpoint ▸ .attempt p _ _) rfl rfl rfl (.of_enter rfl rfl rfl nofun)
    · obtain ⟨states, heq⟩ := m.enter_eq .waitPresent
      rw [heq] at h
      cases h
      exact leads_of_goes (hpoint ▸ .attempt p _ _) rfl rfl rfl (.of_enter rfl rfl rfl nofun)
  · obtain ⟨states, heq⟩ := m.enter_eq .waitPresent
    rw [heq] at h
    cases h
    exact leads_of_goes (hpoint ▸ .attempt p _ _) rfl rfl rfl (.of_enter rfl rfl rfl nofun)
  · split at h
    · cases h
      exact leads_of_goes (hpoint ▸ .leave p _ _ nofun) rfl rfl rfl (.of_eq rfl rfl rfl rfl)
    · cases h
      exact leads_of_goes (hpoint ▸ .attempt p _ _) rfl rfl rfl (.of_eq rfl rfl rfl rfl)
  · simp only at h
    split at h
    · cases h
      exact leads_of_goes (hpoint ▸ .attempt p _ _) rfl rfl rfl (.of_eq rfl rfl rfl rfl)
    · cases h
      exact leads_of_goes (hpoint ▸ .attempt p _ _) rfl rfl rfl (.of_eq rfl rfl rfl rfl)
    · cases h
      exact leads_of_goes (hpoint ▸ .leave p _ _ nofun) rfl rfl rfl (.of_eq rfl rfl rfl rfl)
  · obtain ⟨states, heq⟩ := m.enter_eq .connecting
    rw [heq] at h
    cases h
    exact leads_of_goes (hpoint ▸ .attempt p _ _) rfl rfl rfl (.of_enter rfl rfl rfl nofun)
  · simp only at h
    split at h
    · next card =>
      cases h
      refine ⟨[], ?_, (List.append_nil _).symm, .of_eq rfl rfl rfl rfl⟩
      rw [hpoint]
      exact .connect p _ card
    · next e =>
      split at h
      · split at h
        · cases h
          exact leads_of_goes (hpoint ▸ .attempt p _ _) rfl rfl rfl (.of_eq rfl rfl rfl rfl)
        · cases h
          exact leads_of_goes (hpoint ▸ .overflow p) rfl rfl rfl (.of_eq rfl rfl rfl rfl)
      · next hremoved =>
        cases h
        refine leads_of_goes (hpoint ▸ .leave p _ _ ?_) rfl rfl rfl (.of_eq rfl rfl rfl rfl)
        simp [SessionError.ofExchange, hremoved]
  · split at h
    · cases h
    · cases h
      exact leads_of_goes (hpoint ▸ .attempt p _ _) rfl rfl rfl (.of_eq rfl rfl rfl rfl)
  · cases h
  · split at h
    · cases h
      exact leads_of_goes (hpoint ▸ .attempt p _ _) rfl rfl rfl (.of_eq rfl rfl rfl rfl)
    · cases h
      exact leads_of_goes (hpoint ▸ .leave p _ _ nofun) rfl rfl rfl (.of_eq rfl rfl rfl rfl)
    · cases h
      exact leads_of_goes (hpoint ▸ .attempt p _ _) rfl rfl rfl (.of_eq rfl rfl rfl rfl)
  · cases h

/-- **A step of the runner's thread** is one of those listed. -/
theorem leads_of_runner {input : Input} (h : m.runner input = some m') : m.Leads m' := by
  unfold runner at h
  split at h
  · next hpoint =>
    cases h
    refine ⟨[.start], ?_, rfl, .of_eq rfl rfl rfl rfl⟩
    rw [hpoint]
    exact .ask
  · next hpoint =>
    split at h
    · cases h
      exact leads_of_goes (hpoint ▸ .giveUp) rfl rfl rfl ⟨rfl, rfl, rfl, nofun, .inl⟩
    · cases h
      exact leads_of_goes (hpoint ▸ .await _) rfl rfl rfl (.of_eq rfl rfl rfl rfl)
  · next deadline hpoint =>
    unfold StartRequest.receive at h
    cases hsent : m.start.sent with
    | some p =>
      simp only [hsent] at h
      cases h
      exact leads_of_goes (hpoint ▸ .begin deadline p hsent) rfl rfl rfl
        ⟨rfl, rfl, rfl, nofun, .inl⟩
    | none =>
      cases hheld : m.start.held with
      | true =>
        simp only [hsent, hheld, if_true] at h
        cases h
      | false =>
        simp only [hsent, hheld] at h
        cases h
        exact leads_of_goes (hpoint ▸ .aborted deadline) rfl rfl rfl ⟨rfl, rfl, rfl, nofun, .inl⟩
  · next deadline hpoint =>
    split at h
    · cases h
    · cases h
      exact leads_of_goes (hpoint ▸ .again deadline) rfl rfl rfl (.of_eq rfl rfl rfl rfl)
  · next p a input hpoint => exact leads_of_attempt hpoint h
  · next p s input hpoint =>
    split at h
    · cases h
    · next x hx => exact leads_of_serve hpoint rfl hx h
  · next hpoint =>
    cases h
    exact leads_of_goes (hpoint ▸ .cancelled) rfl rfl rfl (.of_eq rfl rfl rfl rfl)
  · next e hpoint =>
    obtain ⟨states, heq⟩ := m.enter_eq .fault
    rw [heq] at h
    cases h
    exact leads_of_goes (hpoint ▸ .failed e) rfl rfl rfl (.of_enter rfl rfl rfl nofun)
  · next e hpoint =>
    cases h
    refine ⟨[.failed e], ?_, rfl, .of_eq rfl rfl rfl rfl⟩
    rw [hpoint]
    exact .tell e
  · next result hpoint =>
    obtain ⟨states, heq⟩ := m.enter_eq .terminated
    rw [heq] at h
    cases h
    exact leads_of_goes (hpoint ▸ .terminate result) rfl rfl rfl
      ⟨rfl, rfl, rfl, fun _ h => h, fun _ => .inr ⟨result, hpoint⟩⟩
  · next ending hpoint =>
    cases h
    exact leads_of_goes (hpoint ▸ .exit ending) rfl rfl rfl (.of_eq rfl rfl rfl rfl)
  · cases h

/-! ## Everybody -/

/-- **The moves of neither a thread nor a client**: time passes, the
application is given an event or answers the start request, and somebody stops
the runner. -/
inductive Aside (m : Machine) : Move → Machine → Prop where
  | tick (nanos : Nat) : Aside m (.tick nanos) { m with clock := m.clock + nanos }
  | deliver (panics : Bool) (event : Event) (hget : m.events[m.delivered]? = some event) :
    Aside m (.deliver panics)
      { m with
        delivered := m.delivered + 1
        start := if panics ∧ event = .start then m.start.abandon else m.start }
  | resolve (p : Parameters) (hheld : m.start.held = true) :
    Aside m (.resolve p) { m with start := m.start.resolve p }
  | abandon (hheld : m.start.held = true) : Aside m .abandon { m with start := m.start.abandon }
  | stop : Aside m .stop
      { m with
        task := m.task.cancel.2
        raising := if m.task.cancel.1 then m.raising + 1 else m.raising }
  | raise (hraising : m.raising ≠ 0) :
    Aside m .raise { m with interrupted := true, raising := m.raising - 1 }

/-- None of them changes the sessions, the events, or where the runner's
thread stands. -/
theorem Aside.same {move : Move} (h : m.Aside move m') : m'.point = m.point ∧
    m'.sessions = m.sessions ∧ m'.events = m.events ∧ m'.config = m.config ∧
    m'.state = m.state := by
  cases h <;> exact ⟨rfl, rfl, rfl, rfl, rfl⟩

/-- **What one move can do.** -/
inductive Happens (m : Machine) : Move → Machine → Prop where
  | aside {move : Move} {m' : Machine} (haside : m.Aside move m') : Happens m move m'
  | publish (number : Nat) (command : Bytes) {x : Sitting} (hx : m.sessions[number]? = some x) :
    Happens m (.publish number command)
      { m with sessions := m.sessions.set number (x.publish command) }
  | watch (number : Nat) (input : Input) {x : Sitting} {w w' : Watch} {s' : Session}
    {queued : List Event} (hx : m.sessions[number]? = some x) (hwatch : x.watch = some w)
    (hturn : Watch.Turn x.session w.point w'.point s' queued) :
    Happens m (.watch number input)
      { m with
        events := m.events ++ queued
        sessions := m.sessions.set number { x with session := s', watch := some w' } }
  | runner (input : Input) {m' : Machine} (hleads : m.Leads m') : Happens m (.runner input) m'

/-- A step of a watch changes its own session, and queues what it tells. -/
theorem watch_of_step {number : Nat} {input : Input} (h : m.step (.watch number input) = some m') :
    ∃ (x : Sitting) (w w' : Watch) (s' : Session) (queued : List Event),
      m.sessions[number]? = some x ∧ x.watch = some w ∧
      w.advance x.session input = some (w', s', queued) ∧
      m' = { m with
        events := m.events ++ queued
        sessions := m.sessions.set number { x with session := s', watch := some w' } } := by
  simp only [step, watch] at h
  split at h
  · cases h
  · next x hx =>
    split at h
    · cases h
    · next w hwatch =>
      split at h
      · cases h
      · next w' s' queued hadvance =>
        cases h
        refine ⟨x, w, w', s', queued, hx, hwatch, hadvance, ?_⟩
        rw [← sessions_onSitting hx fun y => { y with session := s', watch := some w' }]
        rfl

/-- **A possible move** does one of the things listed. -/
theorem happens_of_step {move : Move} (h : m.step move = some m') : m.Happens move m' := by
  cases move with
  | tick nanos =>
    cases h
    exact .aside (.tick nanos)
  | runner input => exact .runner input (leads_of_runner h)
  | watch number input =>
    obtain ⟨x, w, w', s', queued, hx, hwatch, hadvance, rfl⟩ := watch_of_step h
    exact .watch number input hx hwatch (Watch.turn_of_advance hadvance)
  | deliver panics =>
    simp only [step, deliver] at h
    split at h
    · cases h
    · next event hget =>
      have haside := Aside.deliver panics event hget
      split at h
      · next hpanics =>
        cases h
        rw [if_pos hpanics] at haside
        exact .aside haside
      · next hpanics =>
        cases h
        rw [if_neg hpanics] at haside
        exact .aside haside
  | resolve p =>
    simp only [step] at h
    split at h
    · next hholds =>
      cases h
      exact .aside (.resolve p (Bool.and_eq_true_iff.1 hholds).2)
    · cases h
  | abandon =>
    simp only [step] at h
    split at h
    · next hholds =>
      cases h
      exact .aside (.abandon (Bool.and_eq_true_iff.1 hholds).2)
    · cases h
  | publish number command =>
    simp only [step] at h
    split at h
    · next hlt =>
      cases h
      have hx := List.getElem?_eq_getElem hlt
      have hhappens := Happens.publish number command hx
      rw [← sessions_onSitting hx fun y => y.publish command] at hhappens
      exact hhappens
    · cases h
  | stop =>
    have haside := Aside.stop (m := m)
    simp only [step] at h
    split at h
    · next task hcancel =>
      cases h
      rw [hcancel] at haside
      exact .aside haside
    · next task hcancel =>
      cases h
      rw [hcancel] at haside
      exact .aside haside
  | raise =>
    simp only [step] at h
    split at h
    · cases h
    · next hraising =>
      cases h
      exact .aside (.raise hraising)

/-- A run takes its first move, and goes on from there. -/
theorem run_cons_eq_some {move : Move} {moves : List Move} :
    m.run (move :: moves) = some m' ↔ ∃ m₁, m.step move = some m₁ ∧ m₁.run moves = some m' :=
  Option.bind_eq_some_iff

/-- **What every move keeps, a run keeps.** -/
theorem invariant_of_run {P : Machine → Prop}
    (hkeeps : ∀ (m m' : Machine) (move : Move), P m → m.step move = some m' → P m')
    {moves : List Move} (h : P m) (hrun : m.run moves = some m') : P m' := by
  induction moves generalizing m with
  | nil =>
    cases hrun
    exact h
  | cons move moves ih =>
    obtain ⟨m₁, hstep, hrun⟩ := run_cons_eq_some.1 hrun
    exact ih (hkeeps m m₁ move h hstep) hrun

/-- Runs go on from each other. -/
theorem run_append_eq_bind (m : Machine) (moves later : List Move) :
    m.run (moves ++ later) = (m.run moves).bind fun m => m.run later := by
  induction moves generalizing m with
  | nil => rfl
  | cons move moves ih =>
    rw [List.cons_append, run, run]
    cases m.step move with
    | none => rfl
    | some m₁ => exact ih m₁

/-- What follows a run goes on from where that stopped. -/
theorem run_append {moves later : List Move} (hrun : m.run moves = some m') :
    m.run (moves ++ later) = m'.run later := by
  rw [run_append_eq_bind, hrun, Option.bind_some]

/-- The first part of a run is a run. -/
theorem exists_of_run_append {moves later : List Move} (hrun : m.run (moves ++ later) = some m') :
    ∃ m₁, m.run moves = some m₁ ∧ m₁.run later = some m' := by
  rw [run_append_eq_bind] at hrun
  exact Option.bind_eq_some_iff.1 hrun

end Machine

end Runner

end SmartCard
