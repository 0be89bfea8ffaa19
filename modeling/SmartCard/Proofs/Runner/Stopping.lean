import SmartCard.Proofs.Runner.Story
import SmartCard.Proofs.Runner.Showing
import SmartCard.Proofs.Runner.Lasting
/-!
# What a stop still allows

The runner's thread looks at its interrupt in some places only, and the
interrupt can be raised between any such look and what comes after it.
`Point.spare` says of each point how many sessions can still be announced
and commands be handed to the layers from there once the interrupt is
raised, and `Point.dialling` how many connections can be asked for: one at
most. No step after that makes more of what was done together with what is
spare (`spends_step`), which bounds every run (`spends_of_run`).

What becomes of the sessions does not depend on the stop: those that were
served have ended (`concluded_of_hasServed`), and when the thread has
returned it has served them all (`settled_of_hasReturned`).
-/

namespace SmartCard

namespace Runner

/-! ## What is spare at each point -/

/-- How many sessions can still be announced and commands be handed over from
this stage, once the interrupt is raised. -/
def Stage.spare : Stage → Nat
  | .opened | .announcing | .timing | .listening _ | .asleep _ => 1
  | _ => 0

/-- How many connections can still be asked for on the way to a card. Each
leads to one session. -/
def Attempt.spare : Attempt → Nat
  | .waiting true | .found | .connecting => 1
  | _ => 0

/-- How many sessions can still be announced and commands be handed over from
this point, once the interrupt is raised. -/
def Point.spare : Point → Nat
  | .attempting _ a => a.spare
  | .serving _ s => s.stage.spare
  | _ => 0

/-- How many connections can still be asked for, once the interrupt is raised. -/
def Point.dialling : Point → Nat
  | .attempting _ a => a.spare
  | _ => 0

/-- How many commands are being carried out at this stage. -/
def Stage.working : Stage → Nat
  | .exchanging _ => 1
  | _ => 0

/-- How many commands are being carried out. -/
def Point.working : Point → Nat
  | .serving _ s => s.stage.working
  | _ => 0

/-- How many connections have been asked for and not answered. -/
def Point.connecting : Point → Nat
  | .attempting _ .connecting => 1
  | _ => 0

theorem Stage.spare_of_isListening {stage : Stage} (h : stage.isListening = true) :
    stage.spare = 1 := by
  cases stage with
  | listening deadline => rfl
  | asleep deadline => rfl
  | _ => cases h

theorem Attempt.spare_le (a : Attempt) : a.spare ≤ 1 := by
  unfold Attempt.spare
  split
  · exact Nat.le_refl 1
  · exact Nat.le_refl 1
  · exact Nat.le_refl 1
  · exact Nat.zero_le 1

theorem Stage.spare_add_working_le (stage : Stage) : stage.spare + stage.working ≤ 1 := by
  cases stage <;> exact Nat.le_of_ble_eq_true rfl

/-- **Wherever the interrupt is raised, one thing is spare at most**, and
nothing while a command is being carried out. -/
theorem Point.spare_add_working_le (point : Point) : point.spare + point.working ≤ 1 := by
  cases point with
  | attempting p a => exact a.spare_le
  | serving p s => exact s.stage.spare_add_working_le
  | _ => exact Nat.zero_le 1

theorem Point.dialling_le (point : Point) : point.dialling ≤ 1 := by
  cases point with
  | attempting p a => exact a.spare_le
  | _ => exact Nat.zero_le 1

/-- What was asked for and not answered is no longer spare. -/
theorem Point.connecting_le (point : Point) : point.connecting ≤ point.dialling := by
  unfold Point.connecting
  split
  · exact Nat.le_refl 1
  · exact Nat.zero_le _

/-! ## Counting -/

/-- It is a call to connect. -/
def Call.isConnect : Call → Bool
  | .connect _ _ => true
  | .presence _ _ | .rest => false

/-- The number of commands that were taken in these sessions and handed to the
layers. -/
def handedIn (sessions : List Sitting) : Nat :=
  (sessions.flatMap Sitting.transmissions).length

/-- A change of one session counts as far as it goes. -/
theorem handedIn_set {sessions : List Sitting} {number : Nat} {x : Sitting}
    (hx : sessions[number]? = some x) (x' : Sitting) :
    handedIn (sessions.set number x') + x.transmissions.length =
      handedIn sessions + x'.transmissions.length := by
  obtain ⟨hlt, rfl⟩ := List.getElem?_eq_some_iff.1 hx
  have hsplit : sessions =
      sessions.take number ++ sessions[number] :: sessions.drop (number + 1) := by
    rw [List.getElem_cons_drop, List.take_append_drop]
  have hcount := congrArg handedIn hsplit
  rw [List.set_eq_take_append_cons_drop, if_pos hlt]
  simp only [handedIn, List.flatMap_append, List.flatMap_cons, List.length_append] at hcount ⊢
  omega

/-- A new session counts nothing. -/
theorem handedIn_concat (sessions : List Sitting) (card : CardData) :
    handedIn (sessions ++ [{ session := { card } }]) = handedIn sessions := by
  rw [handedIn, List.flatMap_append, List.flatMap_singleton, List.append_nil, handedIn]

/-- The log of the last command taken goes on, which is not another one. -/
theorem Sitting.length_onLast (x : Sitting) (change : Transmission → Transmission) :
    (x.onLast change).transmissions.length = x.transmissions.length := by
  unfold Sitting.onLast
  rcases List.eq_nil_or_concat x.transmissions with hnil | ⟨earlier, T, hlast⟩
  · simp [hnil]
  · simp [hlast]

/-- A client that publishes hands nothing over. -/
theorem Sitting.length_publish (x : Sitting) (command : Bytes) :
    (x.publish command).transmissions.length = x.transmissions.length := by
  unfold Sitting.publish
  split <;> rfl

/-- A call that concludes a session announces none. -/
theorem countP_of_advances {s s' : Session} {call call' : Conclusion} {queued : List Event}
    (h : s.Advances call s' call' queued) : queued.countP isPresent = 0 := by
  cases h with
  | tell o => cases o <;> rfl
  | _ => rfl

/-- Nor does a watch. -/
theorem countP_of_watch {s s' : Session} {point point' : Watch.Point} {queued : List Event}
    (h : Watch.Turn s point point' s' queued) : queued.countP isPresent = 0 := by
  cases h with
  | conclude hs hcall' => exact countP_of_advances hs
  | concluded hs => exact countP_of_advances hs
  | _ => rfl

/-- **A step inside a session** uses up what is spare, unless it passes the
look at the interrupt. -/
theorem spent_of_turn {config : Config} {number : Nat} {x x' : Sitting} {stage stage' : Stage}
    {queued : List Event} (h : Turn config number x stage stage' x' queued)
    (hlooping : stage = .looping → stage' ≠ .timing) :
    queued.countP isPresent + x'.transmissions.length + stage'.spare ≤
      x.transmissions.length + stage.spare := by
  cases h with
  | announce =>
    have hone : [x.session.announcement number].countP isPresent = 1 := rfl
    rw [hone, Nat.add_comm 1]
    exact Nat.le_refl _
  | go => exact absurd rfl (hlooping rfl)
  | take command ticket hstage hslot =>
    rw [Sitting.transmissions_send, Stage.spare_of_isListening hstage]
    simp [Sitting.take, Slot.ticket?, Stage.spare]
  | shut hstage hslot =>
    rw [Stage.spare_of_isListening hstage]
    simp [Stage.spare]
  | wait stage' hstage hstage' =>
    rw [Stage.spare_of_isListening hstage]
    rcases hstage' with rfl | ⟨deadline, rfl⟩ <;> simp [Stage.spare]
  | hear command resume reply =>
    rw [Sitting.transmissions_send, Sitting.hear, Sitting.length_onLast]
    simp [Stage.spare]
  | settle reply =>
    rw [Sitting.settle, Sitting.length_onLast]
    simp [Stage.spare]
  | conclude hs hcall' => simp [countP_of_advances hs, Stage.spare]
  | concluded hs => simp [countP_of_advances hs, Stage.spare]
  | dismiss o w status stage' hwatch hstage' =>
    rcases hstage' with rfl | rfl <;> simp [Stage.spare]
  | _ => simp [Stage.spare, Sitting.onRendezvous]

/-- **A step on the way to a card** uses up the connection that is spare, unless
it passes the look at the interrupt. -/
theorem spent_of_approaches {p : Parameters} {a : Attempt} {point : Point} {call : Option Call}
    (h : Approaches p a point call)
    (hpolling : ∀ present, a = .polling present → point ≠ .attempting p (.waiting present)) :
    call.toList.countP Call.isConnect + point.dialling ≤ a.spare ∧ point.spare ≤ a.spare := by
  cases h with
  | poll present => exact absurd rfl (hpolling present rfl)
  | reach present => cases present <;> exact ⟨Nat.le_of_ble_eq_true rfl, Nat.le_of_ble_eq_true rfl⟩
  | connect s card hstage =>
    refine ⟨Nat.le_refl 1, ?_⟩
    rw [Point.spare, hstage]
    exact Nat.le_refl 1
  | leave deadline e he => exact ⟨Nat.le_refl 1, Nat.zero_le _⟩
  | overflow e he => exact ⟨Nat.le_refl 1, Nat.zero_le _⟩
  | refuse e he => exact ⟨Nat.le_refl 1, Nat.zero_le _⟩
  | find => exact ⟨Nat.le_refl 1, Nat.le_refl 1⟩
  | _ => exact ⟨Nat.zero_le _, Nat.zero_le _⟩

namespace Machine

variable {m m' : Machine} {p : Parameters} {input : Input} {move : Move} {moves : List Move}
variable {chosen : Option Parameters}

/-- The sessions that were announced, and the commands that were handed to the
layers. -/
def acts (m : Machine) : Nat :=
  m.events.countP isPresent + handedIn m.sessions

/-- The connections that were asked for, whether answered or not. -/
def dialled (m : Machine) : Nat :=
  m.connects.length + m.point.connecting

/-- The connections asked for and answered are the calls to connect. -/
theorem length_connects (m : Machine) :
    m.connects.length = m.calls.countP Call.isConnect := by
  unfold connects
  rw [List.length_filterMap_eq_countP]
  refine List.countP_congr fun call _ => ?_
  cases call <;> rfl

/-! ## The interrupt -/

/-- **Nobody takes a raised interrupt back.** -/
theorem interrupted_of_step (h : m.interrupted = true) (hstep : m.step move = some m') :
    m'.interrupted = true := by
  cases happens_of_step hstep with
  | aside haside => cases haside with
    | raise hraising => rfl
    | _ => exact h
  | publish number command hx => exact h
  | watch number input hx hwatch hturn => exact h
  | runner input hleads => exact (interrupted_of_runner hstep).trans h

/-- A look on the way to a card heeds the interrupt. -/
theorem stopping_of_polling {present : Bool} (h : m.interrupted = true)
    (hpoint : m.point = .attempting p (.polling present)) (hstep : m.runner input = some m') :
    m'.point = .stopping .cancelled := by
  unfold runner at hstep
  rw [hpoint] at hstep
  cases input with
  | go =>
    simp only [attempt, if_pos h] at hstep
    cases hstep
    rfl
  | _ => cases hstep

/-- A look inside a session heeds it. -/
theorem concluding_of_looping {s : Service} (h : m.interrupted = true)
    (hpoint : m.point = .serving p s) (hstage : s.stage = .looping)
    (hstep : m.runner input = some m') :
    m'.point = .serving p { s with stage := .concluding (.seeking .cancelled) } := by
  unfold runner at hstep
  rw [hpoint] at hstep
  simp only at hstep
  split at hstep
  · cases hstep
  · rw [hstage] at hstep
    cases input with
    | go =>
      simp only [serve, if_pos h] at hstep
      cases hstep
      rfl
    | _ => cases hstep

/-! ## What a move spends -/

/-- **What was done together with what is spare does not grow.** -/
structure Spends (m m' : Machine) : Prop where
  acts : m'.acts + m'.point.spare ≤ m.acts + m.point.spare
  connects : m'.connects.length + m'.point.dialling ≤ m.connects.length + m.point.dialling

/-- On the way to a card nothing is announced or handed over. -/
theorem acts_of_attempting {a : Attempt} (hpoint : m.point = .attempting p a)
    (hleads : m.Leads m') : m'.acts = m.acts := by
  obtain ⟨queued, hgoes, hevents, -⟩ := hleads
  rw [hpoint] at hgoes
  generalize m'.point = point' at hgoes
  rw [acts, acts, hevents]
  generalize m'.sessions = sessions at hgoes ⊢
  cases hgoes with
  | connect p a card => rw [handedIn_concat, List.append_nil]
  | _ => rw [List.append_nil]

/-- A step towards a card, after the interrupt was raised. -/
theorem spends_of_attempting {a : Attempt} (h : m.interrupted = true)
    (hpoint : m.point = .attempting p a) (hstep : m.runner input = some m') : m.Spends m' := by
  obtain ⟨call, happroaches, hcalls, -⟩ := towards_of_runner hpoint hstep
  obtain ⟨hdialling, hspare⟩ := spent_of_approaches happroaches fun present ha => by
    rw [stopping_of_polling h (ha ▸ hpoint) hstep]
    nofun
  refine ⟨?_, ?_⟩
  · rw [acts_of_attempting hpoint (leads_of_runner hstep), hpoint]
    exact Nat.add_le_add_left hspare _
  · rw [length_connects, length_connects, hcalls, List.countP_append, hpoint, Nat.add_assoc]
    exact Nat.add_le_add_left hdialling _

/-- Elsewhere the reader is asked nothing, and what is done comes from a session. -/
theorem acts_of_leads (h : m.interrupted = true) (hpoint : ∀ p a, m.point ≠ .attempting p a)
    (hstep : m.runner input = some m') :
    m'.acts + m'.point.spare ≤ m.acts + m.point.spare ∧ m'.point.dialling = 0 := by
  obtain ⟨queued, hgoes, hevents, -⟩ := leads_of_runner hstep
  rw [acts, acts, hevents, List.countP_append]
  generalize hat : m.point = point at hgoes hpoint ⊢
  generalize hat' : m'.point = point' at hgoes ⊢
  generalize m'.sessions = sessions at hgoes ⊢
  cases hgoes with
  | attempt p a a' => exact absurd rfl (hpoint p a)
  | connect p a card => exact absurd rfl (hpoint p a)
  | leave p a why hwhy => exact absurd rfl (hpoint p a)
  | @turn p s s' x x' queued hs' hx hturn =>
    have hspent := spent_of_turn hturn fun hlooping heq => by
      rw [concluding_of_looping h hat hlooping hstep] at hat'
      cases hat'
      cases heq
    have hset := handedIn_set hx x'
    refine ⟨?_, rfl⟩
    rw [Point.spare, Point.spare]
    omega
  | @finish p s o hstage =>
    have honward : (onward p m.sessions.length o).spare = 0 ∧
        (onward p m.sessions.length o).dialling = 0 := by
      cases o with
      | removed => cases hmulti : p.multiSession <;> simp [onward, hmulti] <;> exact ⟨rfl, rfl⟩
      | _ => exact ⟨rfl, rfl⟩
    rw [honward.1]
    exact ⟨by simp, honward.2⟩
  | _ => exact ⟨by simp [Point.spare, Attempt.spare, isPresent], rfl⟩

/-- **One move after the interrupt was raised.** -/
theorem spends_step (h : m.interrupted = true) (hstep : m.step move = some m') : m.Spends m' := by
  rcases runner_or_idles hstep with ⟨input, rfl, hrunner⟩ | ⟨hother, hidles⟩
  · rcases towards_or_silent hrunner with ⟨p, a, hpoint, -⟩ | ⟨hnot, hsilent⟩
    · exact spends_of_attempting h hpoint hrunner
    · obtain ⟨hacts, hdialling⟩ := acts_of_leads h hnot hrunner
      refine ⟨hacts, ?_⟩
      rw [length_connects, length_connects, hsilent.calls, hdialling]
      exact Nat.le_add_right _ _
  · have hacts : m'.acts = m.acts := by
      cases happens_of_step hstep with
      | aside haside =>
        obtain ⟨-, hsessions, hevents, -⟩ := haside.same
        rw [acts, acts, hsessions, hevents]
      | @publish number command x hx =>
        have hset := handedIn_set hx (x.publish command)
        rw [x.length_publish] at hset
        rw [acts, acts, Nat.add_right_cancel hset]
      | @watch number input x w w' s' queued hx hwatch hturn =>
        have hset := handedIn_set hx { x with session := s', watch := some w' }
        rw [acts, acts, List.countP_append, countP_of_watch hturn, Nat.add_zero,
          Nat.add_right_cancel hset]
      | runner input hleads => exact absurd rfl (hother input)
    exact ⟨Nat.le_of_eq (by rw [hidles.point, hacts]),
      Nat.le_of_eq (by rw [length_connects, length_connects, hidles.calls, hidles.point])⟩

/-- **A whole run after that.** -/
theorem spends_of_run (h : m.interrupted = true) (hrun : m.run moves = some m') :
    m.Spends m' := by
  refine (invariant_of_run (P := fun m₁ => m₁.interrupted = true ∧ m.Spends m₁) ?_
    ⟨h, Nat.le_refl _, Nat.le_refl _⟩ hrun).2
  rintro m₁ m₂ move ⟨h, hspends⟩ hstep
  have hfurther := spends_step h hstep
  exact ⟨interrupted_of_step h hstep, Nat.le_trans hfurther.acts hspends.acts,
    Nat.le_trans hfurther.connects hspends.connects⟩

/-! ## What becomes of the sessions -/

/-- **A session has ended for everybody**: it has an outcome, it accepts no
commands, and what was told of it is its announcement and that end. -/
def Concluded (m : Machine) (number : Nat) : Prop :=
  ∃ x o, m.sessions[number]? = some x ∧ x.session.outcome = some o ∧
    x.session.rendezvous.slot = .closed ∧
    m.storyAt number = [x.session.announcement number, o.event]

/-- What was told of a session that has an outcome is its announcement and that end. -/
theorem storyAt_of_recorded {preempted : Nat → Prop} (hkept : m.Kept preempted) {number : Nat}
    {x : Sitting} (hx : m.sessions[number]? = some x) {o : Outcome}
    (ho : x.session.outcome = some o) :
    m.storyAt number = [x.session.announcement number, o.event] := by
  have hsound := hkept.sound number x hx
  rw [storyAt_of_getElem? hx, Sitting.story_eq (hsound.announced_of_recorded ho),
    (hsound.orderly.lawful.of_recorded ho).2.1]

/-- A session that was served to its end has ended for everybody. -/
theorem concluded_of_hasServed {preempted : Nat → Prop} (hkept : m.Kept preempted) {number : Nat}
    (hserved : m.HasServed number) : m.Concluded number := by
  have hx := List.getElem?_eq_getElem hserved.1
  obtain ⟨o, hover⟩ := hkept.isOver number _ hx hserved
  exact ⟨_, o, hx, hover.1,
    ((hkept.sound number _ hx).orderly.lawful.of_recorded hover.1).2.2,
    storyAt_of_recorded hkept hx hover.1⟩

/-- **All sessions have ended for everybody**, and beside what was told of
them there is the start and one failure at most. -/
structure Settled (m : Machine) : Prop where
  concluded : ∀ number < m.sessions.length, m.Concluded number
  events : ∃ outside : List SessionError, outside.length ≤ 1 ∧
    m.events = .start :: (m.stories ++ outside.map .failed)

/-- With the result there is one failure outside of the sessions at most. -/
theorem events_of_finished {sessions : List Sitting} {stories events : List Event}
    {result : Except TaskError Exit} (h : Finished chosen sessions stories events result) :
    ∃ outside : List SessionError, outside.length ≤ 1 ∧
      events = .start :: (stories ++ outside.map .failed) := by
  have hnone : events = .start :: stories → ∃ outside : List SessionError,
      outside.length ≤ 1 ∧ events = .start :: (stories ++ outside.map .failed) :=
    fun heq => ⟨[], Nat.zero_le 1, heq.trans (by rw [List.map_nil, List.append_nil])⟩
  unfold Finished at h
  split at h
  · exact hnone h.2.2.2.2
  · next e =>
    obtain ⟨-, ⟨-, heq⟩ | ⟨o, -, -, -, heq⟩⟩ := h
    · exact ⟨[e], Nat.le_refl 1, heq⟩
    · exact hnone heq
  · exact h.elim
  · exact hnone h.2.2

/-- **What is queued at any point** is nothing, or the start, the stories of the sessions,
and one failure at most. -/
theorem events_of_placed {sessions : List Sitting} {stories events : List Event} {point : Point}
    (h : Placed chosen sessions stories events point) : sessions = [] ∧ events = [] ∨
      ∃ outside : List SessionError, outside.length ≤ 1 ∧
        events = .start :: (stories ++ outside.map .failed) := by
  have hwhole : events = .start :: stories → ∃ outside : List SessionError,
      outside.length ≤ 1 ∧ events = .start :: (stories ++ outside.map .failed) :=
    fun heq => ⟨[], Nat.zero_le 1, heq.trans (by rw [List.map_nil, List.append_nil])⟩
  unfold Placed at h
  split at h
  · exact .inl h
  · exact .inr (hwhole h.2)
  · exact .inr (hwhole h.2)
  · exact .inr (hwhole h.2.2)
  · exact .inr (hwhole h.2.2)
  · exact .inr (hwhole h.2)
  · exact .inr (hwhole h.2.2)
  · exact .inr (hwhole h.2.2)
  · exact .inr (events_of_finished h)
  · exact .inr (events_of_finished h)
  · exact .inr (events_of_finished h)
  · exact .inr (hwhole h.2)
  · exact .inr (hwhole h.2)

/-- **When the runner has returned, it has left no session open.** -/
theorem settled_of_hasReturned (h : m.Storied chosen) (hreturned : HasReturned m.point) :
    m.Settled := by
  obtain ⟨preempted, hkept⟩ := h.kept
  have hplaced := h.placed
  have houtside : IsOutside m.point ∧
      ∃ result, Finished chosen m.sessions m.stories m.events result := by
    unfold HasReturned at hreturned
    split at hreturned
    · next result hpoint =>
      rw [hpoint] at hplaced ⊢
      exact ⟨trivial, result, hplaced⟩
    · next result hpoint =>
      rw [hpoint] at hplaced ⊢
      exact ⟨trivial, result, hplaced⟩
    · exact hreturned.elim
  obtain ⟨houtside, result, hfinished⟩ := houtside
  exact ⟨fun number hlt => concluded_of_hasServed hkept (hasServed_of_isOutside houtside hlt),
    events_of_finished hfinished⟩

/-! ## Every run -/

/-- **What is left to do** for a runner whose interrupt is raised, until a
later moment of the run that consists of these moves from the first machine. -/
structure WindsDown (first m : Machine) (moves : List Move) (m' : Machine) : Prop where
  /-- One session is announced or one command is handed to the layers, at
  most. A command that is being carried out is the one. -/
  acts : m'.acts + m.point.working ≤ m.acts + 1
  /-- One connection is asked for, at most. One that is being asked for is the
  one. -/
  dialled : m'.dialled ≤ m.connects.length + 1
  /-- Every session that was served has ended for everybody. -/
  concluded : ∀ number, m'.HasServed number → m'.Concluded number
  /-- So have all of them before the thread goes, unless it panics. It does so only where the
  driver panics or the clock overflows. -/
  settled : ∀ ending, m'.point = .ending ending ∨ m'.point = .gone ending → m'.Settled ∨
    IsBroken m'.point ∧
      ((∃ message, .runner (.panic message) ∈ moves) ∨ first.Overflows moves)
  /-- A panic leaves the last session open at most. -/
  broken : IsBroken m'.point → ∀ number, number + 1 < m'.sessions.length → m'.Concluded number

/-- **A stop admits one more action**, whenever in a run it raises the interrupt. -/
theorem stop_admits_one_action (config : Config) (reader : String) (moves later : List Move)
    (m m' : Machine) (hrun : (initial config reader).run moves = some m)
    (hraised : m.interrupted = true) (hlater : m.run later = some m') :
    WindsDown (initial config reader) m (moves ++ later) m' := by
  have hspends := spends_of_run hraised hlater
  have hwhole := (run_append hrun).trans hlater
  obtain ⟨chosen, hstoried, -⟩ := storied_of_run (.initial config reader) hwhole
  obtain ⟨preempted, hkept⟩ := hstoried.kept
  refine ⟨?_, ?_, fun number => concluded_of_hasServed hkept, fun ending hpoint => ?_,
    fun hbroken number hearlier => concluded_of_hasServed hkept ?_⟩
  · have hspare := m.point.spare_add_working_le
    have hacts := hspends.acts
    omega
  · have hdialling := m.point.dialling_le
    have hconnecting := m'.point.connecting_le
    have hconnects := hspends.connects
    unfold dialled
    omega
  · cases ending with
    | returned result =>
      refine .inl (settled_of_hasReturned hstoried ?_)
      rcases hpoint with hpoint | hpoint <;> exact hpoint ▸ trivial
    | panicked message =>
      have hbroken : IsBroken m'.point := by
        rcases hpoint with hpoint | hpoint <;> exact hpoint ▸ trivial
      exact .inr ⟨hbroken, (broken_of_run hwhole hbroken).resolve_left id⟩
  · refine ⟨Nat.lt_of_succ_lt hearlier, ?_⟩
    unfold IsBroken at hbroken
    split at hbroken
    · next hpoint =>
      rw [hpoint]
      exact .inl hearlier
    · next hpoint =>
      rw [hpoint]
      exact .inl hearlier
    · exact hbroken.elim

/-- The runner is stopped while it waits for a card. -/
def recalling : List Move :=
  let go : Move := .runner .go
  [go, .deliver false, .resolve {}, go, go, go, go, .stop, .raise]

/-- A card comes all the same. Its session is announced, a client submits a
command, and the runner ends the session without looking for one. -/
def overtaken : List Move :=
  let go : Move := .runner .go
  let watch : Move := .watch 0 .go
  [.runner (.presence (.ok true)), go, .runner (.connection (.ok ⟨"Reader 0", [], .t1⟩)), go, go,
    .runner (.spawned none), .publish 0 [0x00, 0xA4, 0x04, 0x00], go, go, go, go, go, go, go, go,
    go, watch, watch, go, go, go, go, go]

/-- The session of that card is the one more action. -/
theorem stop_admits_one_action_overtaken : ∃ m m',
    (initial { idleTimeout := none } "Reader 0").run recalling = some m ∧
    m.interrupted = true ∧ m.acts = 0 ∧ m.dialled = 0 ∧
    m.run overtaken = some m' ∧ m'.acts = 1 ∧ m'.dialled = 1 ∧
    m'.point = .gone (.returned (.error .cancelled)) ∧ m'.Settled ∧
    WindsDown (initial { idleTimeout := none } "Reader 0") m (recalling ++ overtaken) m' := by
  have hwinds := stop_admits_one_action { idleTimeout := none } "Reader 0" recalling overtaken _ _
    rfl rfl rfl
  exact ⟨_, _, rfl, rfl, rfl, rfl, rfl, rfl, rfl, rfl,
    (hwinds.settled _ (.inr rfl)).resolve_right fun hbroken => hbroken.1, hwinds⟩

/-- The runner is stopped when its thread has just looked at the interrupt, and its session is
open for commands. -/
def missed : List Move :=
  stranded.take 14 ++ [.stop, .raise]

/-- **A session is left open where the clock overflows**: the stop has won and the interrupt is
raised, and the thread goes all the same without an end of the session. -/
theorem stop_admits_one_action_stranded : ∃ m m' r card,
    (initial endless "Reader 0").run missed = some m ∧ m.interrupted = true ∧
    m.run (stranded.drop 14) = some m' ∧
    (∀ message, .runner (.panic message) ∉ missed ++ stranded.drop 14) ∧
    m'.isFinished = true ∧ m'.events = [.start, .cardPresent 0 card] ∧
    m'.handle? 0 = some r ∧ r.slot = .idle ∧ ¬ m'.Concluded 0 := by
  refine ⟨_, _, _, _, rfl, rfl, rfl, fun message => by simp [missed, stranded], rfl, rfl, rfl, rfl,
    ?_⟩
  rintro ⟨x, o, hx, ho, -⟩
  cases hx
  cases ho

end Machine

end Runner

end SmartCard
