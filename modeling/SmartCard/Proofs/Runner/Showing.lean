import SmartCard.Proofs.Runner.Turns
/-!
# What a runner shows and asks

Two logs of a machine are written by the runner's thread alone: the states
that it enters and its calls to the reader. What a step of the thread shows
depends on nothing but the point that it comes from (`Point.shows`), and
only on the way to a card does it ask the reader anything. `Approaches`
lists the steps on that way with the calls that they make, which the list
`Goes` of all steps leaves open.
-/

namespace SmartCard

/-- The state in which a new attempt to get a card begins. -/
def Parameters.arrival (p : Parameters) : Runner.State :=
  if p.touchRequired then .waitAbsent else .waitPresent

/-- The state that a session with this outcome leads to, if the runner goes on
to show one. -/
def Outcome.shows : Outcome → Option Runner.State
  | .removed => some .removed
  | .fault _ => some .fault
  | .idleTimeout _ => some .idleTimeout
  | .cancelled => none

namespace Runner

/-- The state that the next step inside a session shows. -/
def Stage.shows : Stage → Option State
  | .opened => some .active
  | .served o => o.shows
  | _ => none

/-- Where the runner's thread can panic, the session has been shown. -/
theorem Stage.plain_of_canPanic {stage : Stage} (h : stage.canPanic = true) :
    stage.shows = none ∧ stage ≠ .opened := by
  rcases Stage.cases_of_canPanic h with ⟨slice, rfl⟩ | ⟨command, resume, rfl⟩ <;>
    exact ⟨rfl, by simp⟩

/-- The state that the next step on the way to a card shows. -/
def Attempt.shows (p : Parameters) : Attempt → Option State
  | .arriving => some p.arrival
  | .cleared => some .waitPresent
  | .found => some .connecting
  | _ => none

/-- The state that the next step of the runner's thread shows. -/
def Point.shows : Point → Option State
  | .attempting p a => a.shows p
  | .serving _ s => s.stage.shows
  | .stopping (.fault _) => some .fault
  | .terminating _ => some .terminated
  | _ => none

/-- **The steps on the way to a card**: where the thread stands afterwards,
and its call to the reader. -/
inductive Approaches (p : Parameters) : Attempt → Point → Option Call → Prop where
  | arrive : Approaches p .arriving (.attempting p (.polling (!p.touchRequired))) none
  | clear : Approaches p .cleared (.attempting p (.polling true)) none
  | poll (present : Bool) :
    Approaches p (.polling present) (.attempting p (.waiting present)) none
  | reach (present : Bool) : Approaches p (.waiting present)
    (.attempting p (if present then .found else .cleared)) (some (.presence present (.ok true)))
  | miss (present : Bool) : Approaches p (.waiting present) (.attempting p (.polling present))
    (some (.presence present (.ok false)))
  | fail (present : Bool) (e : ExchangeError) : Approaches p (.waiting present)
    (.stopping (.fault (.transport e))) (some (.presence present (.error e)))
  | find : Approaches p .found (.attempting p .connecting) none
  | connect (s : Service) (card : CardData) (hstage : s.stage = .opened) :
    Approaches p .connecting (.serving p s) (some (.connect p.protocol (.ok card)))
  | leave (deadline : Nat) (e : ExchangeError) (he : e.isCardRemoved = true) :
    Approaches p .connecting (.attempting p (.resting deadline .entering))
      (some (.connect p.protocol (.error e)))
  | overflow (e : ExchangeError) (he : e.isCardRemoved = true) :
    Approaches p .connecting (.ending (.panicked (some Instant.overflow)))
      (some (.connect p.protocol (.error e)))
  | refuse (e : ExchangeError) (he : e.isCardRemoved = false) :
    Approaches p .connecting (.stopping (.fault (.transport e)))
      (some (.connect p.protocol (.error e)))
  | sleep (deadline : Nat) (sleep sleep' : Interrupt.Sleep) : Approaches p (.resting deadline sleep)
    (.attempting p (.resting deadline sleep')) none
  | rest (deadline : Nat) (sleep : Interrupt.Sleep) :
    Approaches p (.resting deadline sleep) (.attempting p .arriving) (some .rest)
  | stop {a : Attempt} (ha : (∃ present, a = .polling present) ∨ ∃ d sleep, a = .resting d sleep) :
    Approaches p a (.stopping .cancelled) none

namespace Machine

variable {m m' : Machine} {p : Parameters}

/-- A step by which this state is shown, if it is one. -/
structure Shows (m : Machine) (shown : Option State) (m' : Machine) : Prop where
  state : m'.state = (shown.elim m m.enter).state
  states : m'.states = (shown.elim m m.enter).states

/-- A state that is not yet shown is entered. -/
theorem Shows.eq {shown : Option State} (h : m.Shows shown m')
    (hne : ∀ s, shown = some s → m.state ≠ s) :
    m'.state = shown.getD m.state ∧ m'.states = m.states ++ shown.toList := by
  obtain ⟨hstate, hstates⟩ := h
  cases shown with
  | none => exact ⟨hstate, hstates.trans (List.append_nil _).symm⟩
  | some s =>
    rw [Option.elim_some, Machine.enter, if_neg (hne s rfl)] at hstate hstates
    exact ⟨hstate, hstates⟩

/-- What was shown stays in the log. -/
theorem Shows.grows {shown : Option State} (h : m.Shows shown m') : m.states <+: m'.states := by
  rw [h.states]
  cases shown with
  | none => exact List.prefix_rfl
  | some s =>
    rw [Option.elim_some, Machine.enter]
    split
    · exact List.prefix_rfl
    · exact List.prefix_append _ _

/-- Entering a state is no call. -/
theorem calls_enter (m : Machine) (state : State) : (m.enter state).calls = m.calls := by
  unfold Machine.enter
  split <;> rfl

/-! ## On the way to a card -/

/-- A step towards a card, with what it shows and asks. -/
def Towards (m : Machine) (p : Parameters) (a : Attempt) (m' : Machine) : Prop :=
  ∃ call, Approaches p a m'.point call ∧ m'.calls = m.calls ++ call.toList ∧
    m.Shows (a.shows p) m'

section Towards

variable {a : Attempt} {point : Point}

theorem towards_of_goto (h : Approaches p a point none) (hshows : a.shows p = none) :
    m.Towards p a (m.goto point) := by
  refine ⟨none, h, (List.append_nil _).symm, ?_⟩
  rw [hshows]
  exact ⟨rfl, rfl⟩

theorem towards_of_enter {state : State} (h : Approaches p a point none)
    (hshows : a.shows p = some state) : m.Towards p a ((m.enter state).goto point) := by
  refine ⟨none, h, (calls_enter m state).trans (List.append_nil _).symm, ?_⟩
  rw [hshows]
  exact ⟨rfl, rfl⟩

theorem towards_of_log {call : Call} (h : Approaches p a point (some call))
    (hshows : a.shows p = none) : m.Towards p a ((m.log call).goto point) := by
  refine ⟨some call, h, rfl, ?_⟩
  rw [hshows]
  exact ⟨rfl, rfl⟩

end Towards

/-- A step towards a card is one of those listed. -/
theorem towards_of_attempt {a : Attempt} {input : Input} (h : m.attempt p a input = some m') :
    m.Towards p a m' := by
  unfold attempt at h
  split at h
  · -- the new attempt begins in the state that the application chose
    have harrive := Approaches.arrive (p := p)
    split at h
    · next htouch =>
      cases h
      rw [htouch] at harrive
      exact towards_of_enter harrive (by rw [Attempt.shows, Parameters.arrival, if_pos htouch])
    · next htouch =>
      cases h
      rw [Bool.eq_false_iff.2 htouch] at harrive
      exact towards_of_enter harrive (by rw [Attempt.shows, Parameters.arrival, if_neg htouch])
  · cases h
    exact towards_of_enter .clear rfl
  · split at h
    · cases h
      exact towards_of_goto (.stop (.inl ⟨_, rfl⟩)) rfl
    · cases h
      exact towards_of_goto (.poll _) rfl
  · simp only at h
    split at h
    · cases h
      exact towards_of_log (.reach _) rfl
    · cases h
      exact towards_of_log (.miss _) rfl
    · cases h
      exact towards_of_log (.fail _ _) rfl
  · cases h
    exact towards_of_enter .find rfl
  · simp only at h
    split at h
    · next card =>
      cases h
      exact ⟨_, .connect _ card rfl, rfl, rfl, rfl⟩
    · next e =>
      split at h
      · next hremoved =>
        split at h
        · cases h
          exact towards_of_log (.leave _ e hremoved) rfl
        · cases h
          exact towards_of_log (.overflow e hremoved) rfl
      · next hremoved =>
        have hfalse := Bool.eq_false_iff.2 hremoved
        rw [SessionError.ofExchange, if_neg hremoved] at h
        cases h
        exact towards_of_log (.refuse e hfalse) rfl
  · split at h
    · cases h
    · cases h
      exact towards_of_goto (.sleep _ _ _) rfl
  · cases h
  · split at h
    · cases h
      exact towards_of_log (.rest _ _) rfl
    · cases h
      exact towards_of_goto (.stop (.inr ⟨_, _, rfl⟩)) rfl
    · cases h
      exact towards_of_goto (.sleep _ _ _) rfl
  · cases h

/-! ## Everywhere else -/

/-- A step that asks the reader nothing. -/
structure Silent (m : Machine) (shown : Option State) (m' : Machine) : Prop where
  shows : m.Shows shown m'
  calls : m'.calls = m.calls

theorem Silent.same (hstate : m'.state = m.state) (hstates : m'.states = m.states)
    (hcalls : m'.calls = m.calls) : m.Silent none m' :=
  ⟨⟨hstate, hstates⟩, hcalls⟩

theorem Silent.enter {state : State} (hstate : m'.state = (m.enter state).state)
    (hstates : m'.states = (m.enter state).states) (hcalls : m'.calls = (m.enter state).calls) :
    m.Silent (some state) m' :=
  ⟨⟨hstate, hstates⟩, hcalls.trans (calls_enter m state)⟩

theorem silent_of_look {s : Service} {deadline : Nat} {timedOut : Bool} {x : Sitting} :
    m.Silent none (m.look p s deadline timedOut x) := by
  unfold look
  split <;> exact .same rfl rfl rfl

/-- Inside a session, the first step and the last ones show something. -/
theorem silent_of_serve {s : Service} {x : Sitting} {stage : Stage} {input : Input}
    (h : m.serve p s x stage input = some m') : m.Silent stage.shows m' := by
  unfold serve at h
  split at h
  · cases h
    exact .enter rfl rfl rfl
  · cases h
    exact .same rfl rfl rfl
  · cases h
    exact .same rfl rfl rfl
  · cases h
    exact .same rfl rfl rfl
  · split at h <;> cases h <;> exact .same rfl rfl rfl
  · split at h <;> cases h <;> exact .same rfl rfl rfl
  · split at h
    · cases h
      exact silent_of_look
    · cases h
      exact .same rfl rfl rfl
  · split at h
    · cases h
    · cases h
      exact silent_of_look
  · split at h <;> cases h
    exact .same rfl rfl rfl
  · cases h
    exact .same rfl rfl rfl
  · cases h
    exact .same rfl rfl rfl
  · cases h
    exact .same rfl rfl rfl
  · split at h <;> cases h <;> exact .same rfl rfl rfl
  · cases h
    exact .same rfl rfl rfl
  · cases h
    exact .same rfl rfl rfl
  · split at h <;> cases h
    exact .same rfl rfl rfl
  · split at h <;> cases h <;> exact .same rfl rfl rfl
  · cases h
    exact .same rfl rfl rfl
  · split at h <;> cases h
    exact .same rfl rfl rfl
  · simp only at h
    split at h <;> cases h <;> exact .enter rfl rfl rfl
  · cases h
    exact .enter rfl rfl rfl
  · cases h
    exact .enter rfl rfl rfl
  · cases h
    exact .same rfl rfl rfl
  · cases h

/-- On the way to a card, a step of the runner's thread is one of those listed. -/
theorem towards_of_runner {a : Attempt} {input : Input} (hpoint : m.point = .attempting p a)
    (h : m.runner input = some m') : m.Towards p a m' := by
  unfold runner at h
  rw [hpoint] at h
  exact towards_of_attempt h

/-- Elsewhere it asks the reader nothing. -/
theorem silent_of_runner {input : Input} (hpoint : ∀ p a, m.point ≠ .attempting p a)
    (h : m.runner input = some m') : m.Silent m.point.shows m' := by
  unfold runner at h
  split at h
  · next heq =>
    rw [heq]
    cases h
    exact .same rfl rfl rfl
  · next heq =>
    rw [heq]
    split at h <;> cases h <;> exact .same rfl rfl rfl
  · next heq =>
    rw [heq]
    split at h <;> cases h <;> exact .same rfl rfl rfl
  · next heq =>
    rw [heq]
    split at h <;> cases h
    exact .same rfl rfl rfl
  · next heq => exact absurd heq (hpoint _ _)
  · next heq =>
    rw [heq]
    split at h
    · cases h
    · exact silent_of_serve h
  · next heq =>
    rw [heq]
    cases h
    exact .same rfl rfl rfl
  · next heq =>
    rw [heq]
    cases h
    exact .enter rfl rfl rfl
  · next heq =>
    rw [heq]
    cases h
    exact .same rfl rfl rfl
  · next heq =>
    rw [heq]
    cases h
    exact .enter rfl rfl rfl
  · next heq =>
    rw [heq]
    cases h
    exact .same rfl rfl rfl
  · cases h

/-- A step of the thread is one towards a card, or one that asks the reader nothing. -/
theorem towards_or_silent {input : Input} (h : m.runner input = some m') :
    (∃ p a, m.point = .attempting p a ∧ m.Towards p a m') ∨
      (∀ p a, m.point ≠ .attempting p a) ∧ m.Silent m.point.shows m' := by
  by_cases hattempt : ∃ p a, m.point = .attempting p a
  · obtain ⟨p, a, hpoint⟩ := hattempt
    exact .inl ⟨p, a, hpoint, towards_of_runner hpoint h⟩
  · have hnot : ∀ p a, m.point ≠ .attempting p a := fun p a hpoint => hattempt ⟨p, a, hpoint⟩
    exact .inr ⟨hnot, silent_of_runner hnot h⟩

/-- **What a step of the runner's thread shows** depends on nothing but the
point that it comes from. -/
theorem shows_of_runner {input : Input} (h : m.runner input = some m') :
    m.Shows m.point.shows m' := by
  rcases towards_or_silent h with ⟨p, a, hpoint, call, -, -, hshows⟩ | ⟨-, hsilent⟩
  · rw [hpoint]
    exact hshows
  · exact hsilent.shows

/-- The runner's thread does nothing: it stands where it stood, and the two logs
are what they were. -/
structure Idles (m m' : Machine) : Prop where
  point : m'.point = m.point
  state : m'.state = m.state
  states : m'.states = m.states
  calls : m'.calls = m.calls

/-- **A move is one of the runner's thread**, or one in which the thread does nothing. -/
theorem runner_or_idles {move : Move} (h : m.step move = some m') :
    (∃ input, move = .runner input ∧ m.runner input = some m') ∨
      (∀ input, move ≠ .runner input) ∧ m.Idles m' := by
  cases happens_of_step h with
  | aside haside =>
    refine .inr ⟨?_, ?_⟩
    · cases haside <;> simp
    · cases haside <;> exact ⟨rfl, rfl, rfl, rfl⟩
  | publish => exact .inr ⟨by simp, ⟨rfl, rfl, rfl, rfl⟩⟩
  | watch => exact .inr ⟨by simp, ⟨rfl, rfl, rfl, rfl⟩⟩
  | runner input hleads => exact .inl ⟨input, rfl, h⟩

/-- The states that were entered stay in the log. -/
theorem states_of_run {moves : List Move} (hrun : m.run moves = some m') :
    m.states <+: m'.states := by
  refine invariant_of_run (P := fun m₁ => m.states <+: m₁.states) ?_ List.prefix_rfl hrun
  intro m₁ m₂ move hprefix hstep
  refine hprefix.trans ?_
  rcases runner_or_idles hstep with ⟨input, rfl, hrunner⟩ | ⟨-, hidles⟩
  · exact (shows_of_runner hrunner).grows
  · exact hidles.states ▸ List.prefix_rfl

end Machine

end Runner

end SmartCard
