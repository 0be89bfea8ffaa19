import SmartCard.Proofs.Runner.Phases
/-!
# The end of the clock

A wait that has a deadline needs an instant for it, and the clock has a last
one. `Machine.wait?` says which steps of the runner's thread begin such a
wait, and `Machine.overflows` when its end is no instant: then the thread
panics. Nothing else breaks it off but a panic of the driver
(`broken_of_run`). That cannot come to pass while the clock can show the end
of the longest wait, `Machine.horizon` (`Overflows.last_lt`).
-/

namespace SmartCard

namespace Runner

namespace Machine

variable {m m' first : Machine} {p : Parameters} {input : Input} {move : Move}
variable {moves : List Move}

/-! ## The time and the interrupt -/

/-- What the runner's thread reads and does not write: the time, and whether its
interrupt is raised. -/
def given (m : Machine) : Nat × Bool :=
  (m.clock, m.interrupted)

@[simp] theorem given_enter (m : Machine) (state : State) : (m.enter state).given = m.given := by
  unfold enter
  split <;> rfl

@[simp] theorem given_goto (m : Machine) (point : Point) : (m.goto point).given = m.given := rfl

@[simp] theorem given_look (p : Parameters) (s : Service) (deadline : Nat) (timedOut : Bool)
    (x : Sitting) : (m.look p s deadline timedOut x).given = m.given := by
  unfold look
  split <;> rfl

/-- Every branch ends at a point, some after a state or a call is logged. -/
theorem given_of_attempt {a : Attempt} (h : m.attempt p a input = some m') :
    m'.given = m.given := by
  unfold attempt at h
  split at h <;> (try dsimp only at h) <;> (repeat' split at h) <;> cases h <;>
    first | rfl | simp

/-- Every branch ends at a point, some after the session is changed. -/
theorem given_of_serve {s : Service} {x : Sitting} {stage : Stage}
    (h : m.serve p s x stage input = some m') : m'.given = m.given := by
  unfold serve at h
  split at h <;> (try dsimp only at h) <;> (repeat' split at h) <;> cases h <;>
    first | rfl | simp

/-- The runner's thread looks at the time and at its interrupt, and leaves them. -/
theorem given_of_runner (h : m.runner input = some m') : m'.given = m.given := by
  unfold runner at h
  split at h
  · cases h
    rfl
  · split at h <;> cases h <;> rfl
  · split at h <;> cases h <;> rfl
  · split at h <;> cases h
    rfl
  · exact given_of_attempt h
  · split at h
    · cases h
    · exact given_of_serve h
  · cases h
    rfl
  · cases h
    exact given_enter m .fault
  · cases h
    rfl
  · cases h
    exact given_enter m .terminated
  · cases h
    rfl
  · cases h

theorem interrupted_of_runner (h : m.runner input = some m') :
    m'.interrupted = m.interrupted :=
  congrArg Prod.snd (given_of_runner h)

/-- Time does not run backwards. -/
theorem clock_of_step (hstep : m.step move = some m') : m.clock ≤ m'.clock := by
  cases happens_of_step hstep with
  | aside haside => cases haside with
    | tick nanos => exact Nat.le_add_right _ _
    | _ => exact Nat.le_refl _
  | publish number command hx => exact Nat.le_refl _
  | watch number input hx hwatch hturn => exact Nat.le_refl _
  | runner input hleads => exact Nat.le_of_eq (congrArg Prod.fst (given_of_runner hstep)).symm

/-- Nor does the end of the longest wait come nearer. -/
theorem horizon_of_step (hstep : m.step move = some m') : m.horizon ≤ m'.horizon := by
  rw [horizon, horizon, config_of_step hstep]
  exact Nat.add_le_add_right (clock_of_step hstep) _

/-! ## A wait without an end -/

/-- **The wait that a step of the runner's thread begins**, if its end has to be an
instant: the pause after a card has left, or the wait for a command. -/
def wait? (m : Machine) (input : Input) : Option Nat :=
  match m.point, input with
  | .attempting _ .connecting, .connection (.error e) =>
    if e.isCardRemoved then some m.config.pollInterval.nanos else none
  | .serving _ s, .go =>
    match s.stage with
    | .listening slice => some slice
    | _ => none
  | _, _ => none

/-- The clock cannot show the end of the wait that a step begins. -/
def overflows (m : Machine) (input : Input) : Bool :=
  (m.wait? input).any fun wait => decide (Instant.last < m.clock + wait)

/-- **The clock overflows in a run.** -/
def Overflows (first : Machine) (moves : List Move) : Prop :=
  ∃ before input after m, moves = before ++ .runner input :: after ∧
    first.run before = some m ∧ m.overflows input = true

/-- Where a wait can begin, and that its end is no instant. -/
theorem overflows_cases (h : m.overflows input = true) :
    (∃ p e, m.point = .attempting p .connecting ∧ input = .connection (.error e) ∧
      e.isCardRemoved = true ∧ Instant.last < m.horizon) ∨
    ∃ p s slice, m.point = .serving p s ∧ s.stage = .listening slice ∧ input = .go ∧
      Instant.last < m.clock + slice := by
  obtain ⟨wait, hwait, hlast⟩ := (Option.any_eq_true _ _).1 h
  have hlast := of_decide_eq_true hlast
  unfold wait? at hwait
  split at hwait
  · next p e hpoint =>
    split at hwait
    · next hremoved =>
      cases hwait
      exact .inl ⟨p, e, hpoint, rfl, hremoved, hlast⟩
    · cases hwait
  · next p s hpoint =>
    split at hwait
    · next hstage =>
      cases hwait
      exact .inr ⟨p, s, wait, hpoint, hstage, rfl, hlast⟩
    · cases hwait
  · cases hwait

/-- A wait ends beyond the clock only if the longest does. -/
theorem last_lt_of_overflows (hinterval : m.KeepsInterval) (h : m.overflows input = true) :
    Instant.last < m.horizon := by
  rcases overflows_cases h with ⟨p, e, -, -, -, hlast⟩ | ⟨p, s, slice, hpoint, hstage, -, hlast⟩
  · exact hlast
  · exact Nat.lt_of_lt_of_le hlast (Nat.add_le_add_left (hinterval p s slice hpoint hstage) _)

/-- **A wait without an end breaks the thread off**, and leaves everything else as it is. -/
theorem broken_of_overflows (h : m.overflows input = true)
    (hstep : m.step (.runner input) = some m') :
    m'.point = .ending (.panicked (some Instant.overflow)) ∧ m'.sessions = m.sessions ∧
      m'.events = m.events ∧ m'.state = m.state ∧ m'.states = m.states := by
  rcases overflows_cases h with ⟨p, e, hpoint, rfl, hremoved, hlast⟩ |
    ⟨p, s, slice, hpoint, hstage, rfl, hlast⟩
  · have hnone := Instant.after?_eq_none_iff.2 hlast
    have hlogged : Instant.after? (m.log (.connect p.protocol (.error e))).clock
        (m.log (.connect p.protocol (.error e))).config.pollInterval.nanos = none := hnone
    simp only [step, runner, hpoint, attempt, hremoved, if_true, hlogged] at hstep
    cases hstep
    exact ⟨rfl, rfl, rfl, rfl, rfl⟩
  · have hnone := Instant.after?_eq_none_iff.2 hlast
    simp only [step, runner, hpoint, hstage, serve, hnone] at hstep
    split at hstep
    · cases hstep
    · cases hstep
      exact ⟨rfl, rfl, rfl, rfl, rfl⟩

/-! ## What breaks a runner off -/

/-- The runner's work was broken off by a panic. -/
def IsBroken : Point → Prop
  | .ending (.panicked _) | .gone (.panicked _) => True
  | _ => False

/-- The runner's thread panics only where the driver does, or for want of an instant. -/
theorem broken_of_runner (h : m.runner input = some m') (hbroken : IsBroken m'.point) :
    IsBroken m.point ∨ (∃ message, input = .panic message) ∨ m.overflows input = true := by
  obtain ⟨queued, hgoes, -⟩ := leads_of_runner h
  generalize hpoint : m.point = point at hgoes ⊢
  generalize hpoint' : m'.point = point' at hgoes hbroken
  generalize m'.sessions = sessions at hgoes
  cases hgoes with
  | @finish p s o hstage =>
    cases o with
    | removed => cases hmulti : p.multiSession <;> simp [onward, hmulti, IsBroken] at hbroken
    | _ => exact hbroken.elim
  | @panic p s message hstage =>
    right
    simp only [runner, hpoint] at h
    split at h
    · cases h
    · next x hx =>
      rcases Stage.cases_of_canPanic hstage with ⟨slice, heq⟩ | ⟨command, resume, heq⟩
      · rw [heq] at h
        cases input with
        | go =>
          simp only [serve] at h
          split at h
          · -- the end of the wait is an instant
            cases h
            unfold look at hpoint'
            split at hpoint' <;> cases hpoint'
          · next hnone =>
            refine .inr ?_
            simp [overflows, wait?, hpoint, heq, Instant.after?_eq_none_iff.1 hnone]
        | _ => cases h
      · rw [heq] at h
        cases input with
        | panic message' => exact .inl ⟨message', rfl⟩
        | reply reply =>
          cases h
          cases hpoint'
        | _ => cases h
  | overflow p =>
    right
    right
    simp only [runner, hpoint] at h
    cases input with
    | connection answer =>
      cases answer with
      | ok card =>
        cases h
        cases hpoint'
      | error e =>
        simp only [attempt] at h
        split at h
        · next hremoved =>
          split at h
          · cases h
            cases hpoint'
          · next hnone =>
            have hlast : Instant.last < m.clock + m.config.pollInterval.nanos :=
              Instant.after?_eq_none_iff.1 hnone
            simpa [overflows, wait?, hpoint, hremoved] using hlast
        · cases h
          cases hpoint'
    | _ => cases h
  | exit ending =>
    cases ending with
    | returned result => exact hbroken.elim
    | panicked message => exact .inl trivial
  | _ => exact hbroken.elim

/-- **A run is broken off only where the driver panics or the clock overflows.** -/
theorem broken_of_run (hrun : m.run moves = some m') (hbroken : IsBroken m'.point) :
    IsBroken m.point ∨ (∃ message, .runner (.panic message) ∈ moves) ∨ m.Overflows moves := by
  induction moves generalizing m with
  | nil =>
    cases hrun
    exact .inl hbroken
  | cons move moves ih =>
    obtain ⟨m₁, hstep, hrun⟩ := run_cons_eq_some.1 hrun
    rcases ih hrun with hbroken | ⟨message, hmem⟩ |
      ⟨before, input, after, m₂, rfl, hbefore, hoverflows⟩
    · generalize hmove : move = move' at hstep
      cases happens_of_step hstep with
      | aside haside => exact .inl (haside.same.1 ▸ hbroken)
      | publish number command hx => exact .inl hbroken
      | watch number input hx hwatch hturn => exact .inl hbroken
      | runner input hleads =>
        rcases broken_of_runner hstep hbroken with hbroken | ⟨message, rfl⟩ | hoverflows
        · exact .inl hbroken
        · exact .inr (.inl ⟨message, hmove ▸ List.mem_cons_self⟩)
        · exact .inr (.inr ⟨[], input, moves, m, hmove ▸ rfl, rfl, hoverflows⟩)
    · exact .inr (.inl ⟨message, List.mem_cons_of_mem move hmem⟩)
    · exact .inr (.inr ⟨move :: before, input, after, m₂, rfl,
        run_cons_eq_some.2 ⟨m₁, hstep, hbefore⟩, hoverflows⟩)

/-- On the way to a card, that is a pause whose end is no instant. -/
theorem last_lt_of_attempting {a : Attempt} (hpoint : m.point = .attempting p a)
    (h : m.runner input = some m') (hbroken : IsBroken m'.point) : Instant.last < m.horizon := by
  rcases broken_of_runner h hbroken with hbefore | ⟨message, rfl⟩ | hoverflows
  · rw [hpoint] at hbefore
    exact hbefore.elim
  · -- there is no driver to panic
    simp only [runner, hpoint] at h
    cases a with
    | resting deadline sleep => cases sleep <;> cases h
    | _ => cases h
  · rcases overflows_cases hoverflows with ⟨-, -, -, -, -, hlast⟩ | ⟨q, s, slice, hserving, -⟩
    · exact hlast
    · rw [hpoint] at hserving
      cases hserving

/-! ## After that -/

/-- A thread whose work is over only goes. -/
theorem ending_of_step {ending : Task.Ending Exit}
    (h : m.point = .ending ending ∨ m.point = .gone ending) (hstep : m.step move = some m') :
    m'.point = .ending ending ∨ m'.point = .gone ending := by
  cases happens_of_step hstep with
  | aside haside =>
    rw [haside.same.1]
    exact h
  | publish | watch => exact h
  | runner input hleads =>
    obtain ⟨queued, hgoes, -, -⟩ := hleads
    generalize m'.point = point', m'.sessions = sessions at hgoes ⊢
    rcases h with hpoint | hpoint <;> rw [hpoint] at hgoes <;> cases hgoes
    exact .inr rfl

theorem isBroken_of_step (h : IsBroken m.point) (hstep : m.step move = some m') :
    IsBroken m'.point := by
  have hstays : ∀ {message : Option String}, m.point = .ending (.panicked message) ∨
      m.point = .gone (.panicked message) → IsBroken m'.point := by
    intro message hpoint
    rcases ending_of_step hpoint hstep with hpoint' | hpoint' <;> rw [hpoint'] <;> trivial
  unfold IsBroken at h
  split at h
  · next hpoint => exact hstays (.inl hpoint)
  · next hpoint => exact hstays (.inr hpoint)
  · exact h.elim

namespace Overflows

/-- What happens in a run in which the clock overflows: up to the step that needs the
instant, at that step, and after it. -/
theorem exists_break (h : first.Overflows moves) (hrun : first.run moves = some m) :
    ∃ before input after m₁ m₂, moves = before ++ .runner input :: after ∧
      first.run before = some m₁ ∧ m₁.overflows input = true ∧
      m₁.step (.runner input) = some m₂ ∧
      m₂.run after = some m := by
  obtain ⟨before, input, after, m₁, rfl, hbefore, hoverflows⟩ := h
  obtain ⟨n, hbefore', hrest⟩ := exists_of_run_append hrun
  obtain rfl : m₁ = n := Option.some.inj (hbefore.symm.trans hbefore')
  obtain ⟨m₂, hstep, hafter⟩ := run_cons_eq_some.1 hrest
  exact ⟨before, input, after, m₁, m₂, rfl, hbefore, hoverflows, hstep, hafter⟩

/-- The thread is then gone by a panic, or about to. -/
theorem broken (h : first.Overflows moves) (hrun : first.run moves = some m) :
    m.point = .ending (.panicked (some Instant.overflow)) ∨
      m.point = .gone (.panicked (some Instant.overflow)) := by
  obtain ⟨before, input, after, m₁, m₂, -, -, hoverflows, hstep, hafter⟩ := h.exists_break hrun
  exact invariant_of_run (fun _ _ _ h hstep => ending_of_step h hstep)
    (.inl (broken_of_overflows hoverflows hstep).1) hafter

/-- **The clock does not overflow as long as it can show the end of the longest wait.** -/
theorem last_lt (h : first.Overflows moves) (hinterval : first.KeepsInterval)
    (hrun : first.run moves = some m) : Instant.last < m.horizon := by
  obtain ⟨before, input, after, m₁, m₂, -, hbefore, hoverflows, hstep, hafter⟩ :=
    h.exists_break hrun
  have hinterval₁ := invariant_of_run (fun _ _ _ h hstep => h.step hstep) hinterval hbefore
  have hlater : m₁.horizon ≤ m.horizon := invariant_of_run (P := fun m => m₁.horizon ≤ m.horizon)
    (fun _ _ _ h hstep => Nat.le_trans h (horizon_of_step hstep)) (Nat.le_refl _)
    (run_cons_eq_some.2 ⟨m₂, hstep, hafter⟩)
  exact Nat.lt_of_lt_of_le (last_lt_of_overflows hinterval₁ hoverflows) hlater

end Overflows

/-- A runner that waits for commands forever, and for as long at a time as a duration can be. -/
def endless : Config :=
  { pollInterval := .ofParts 18446744073709551615 999999999, idleTimeout := none }

/-- A card is there, and the application is given a session with it. The thread looks at its
interrupt and at the time, and has no instant for the end of its first wait. -/
def stranded : List Move :=
  let go : Move := .runner .go
  [go, .deliver false, .resolve {}, go, go, go, go, .runner (.presence (.ok true)), go,
    .runner (.connection (.ok ⟨"Reader 0", [], .t1⟩)), go, go, .runner (.spawned none),
    go, go, go, go]

example : (initial endless "Reader 0").Overflows stranded :=
  ⟨stranded.take 15, .go, [.runner .go], _, rfl, rfl, by decide⟩

end Machine

end Runner

end SmartCard
