import SmartCard.Proofs.Runner.Callbacks
import SmartCard.Proofs.Runner.Instants
import SmartCard.Proofs.Runner.Words
/-!
# The story of a run

`Storied` adds to what is kept of the sessions what was queued about them,
and what the application chose. One move keeps it (`Storied.step`), so a
whole run does (`storied_of_run`). `runs_tell_story` reads the events off the
point at which a run stopped: they begin a story, they are one at the end,
and the result goes with them.
-/

namespace SmartCard

namespace Runner

namespace Machine

variable {m m' : Machine} {chosen : Option Parameters} {move : Move} {moves : List Move}

/-- The runner's work is over, and it did not panic. -/
def HasReturned : Point → Prop
  | .ending (.returned _) | .gone (.returned _) => True
  | _ => False

/-- When its work is over, the runner's thread only goes. -/
theorem returned_of_goes {point point' : Point} {sessions : List Sitting} {queued : List Event}
    (hgoes : m.Goes point point' sessions queued) (h : HasReturned point) :
    HasReturned point' ∧ queued = [] := by
  cases hgoes with
  | exit ending =>
    cases ending with
    | returned result => exact ⟨trivial, rfl⟩
    | panicked message => exact h.elim
  | _ => exact h.elim

/-- **What holds of the events at every moment.** -/
structure Storied (m : Machine) (chosen : Option Parameters) : Prop where
  kept : ∃ preempted, m.Kept preempted
  placed : Placed chosen m.sessions m.stories m.events m.point
  /-- As long as the start request is held, nothing is chosen. -/
  unanswered : m.start.held = true → chosen = none
  /-- What was sent is what was chosen. -/
  sent : ∀ p, m.start.sent = some p → chosen = some p
  returned : m.state = .terminated → HasReturned m.point

namespace Storied

/-- A runner that is about to start. -/
theorem initial (config : Config) (reader : String) : (initial config reader).Storied none where
  kept := ⟨_, .initial config reader⟩
  placed := ⟨rfl, rfl⟩
  unanswered := fun _ => rfl
  sent := nofun
  returned := nofun

/-- What was chosen stays chosen. -/
theorem grows {chosen' : Option Parameters} (hchosen : ∀ p, chosen = some p → chosen' = some p)
    (sessions : List Sitting) : Grows chosen chosen' sessions sessions where
  chosen := hchosen
  length := rfl
  isOver := fun _ x hx => ⟨x, hx, fun _ => id⟩

/-- Where everything is placed after a move. -/
theorem placed_step (h : m.Storied chosen) (hstep : m.step move = some m') :
    Placed chosen m'.sessions m'.stories m'.events m'.point := by
  obtain ⟨preempted, hkept⟩ := h.kept
  have hplaced := h.placed
  cases happens_of_step hstep with
  | aside haside =>
    obtain ⟨hpoint, hsessions, hevents, -⟩ := haside.same
    have hstories : m'.stories = m.stories :=
      stories_of_same hsessions fun k => by rw [stage?, stage?, hpoint]
    rwa [hsessions, hstories, hevents, hpoint]
  | @publish number command x hx =>
    have hgrown := (grows_of_publish hx command).placed hplaced
    have hstories : stories { m with sessions := m.sessions.set number (x.publish command) } =
        m.stories := stories_of_publish hx command rfl rfl
    rw [← hstories] at hgrown
    exact hgrown
  | watch number input hx hwatch hturn =>
    exact placed_of_watch hkept hplaced hx hwatch hturn rfl rfl rfl
  | runner input hleads => exact placed_of_leads hkept hplaced h.sent hleads

/-- Once the runner has terminated, its work is over. -/
theorem returned_step (h : m.Storied chosen) (hstep : m.step move = some m')
    (hstate' : m'.state = .terminated) : HasReturned m'.point := by
  cases happens_of_step hstep with
  | aside haside =>
    obtain ⟨hpoint, -, -, -, hstate⟩ := haside.same
    rw [hpoint]
    exact h.returned (hstate ▸ hstate')
  | publish number command hx => exact h.returned hstate'
  | watch number input hx hwatch hturn => exact h.returned hstate'
  | runner input hleads =>
    obtain ⟨queued, hgoes, -, hkeeps⟩ := hleads
    rcases hkeeps.state hstate' with hstate | ⟨result, hpoint⟩
    · exact (returned_of_goes hgoes (h.returned hstate)).1
    · rw [hpoint] at hgoes
      generalize m'.point = point' at hgoes ⊢
      generalize m'.sessions = sessions at hgoes
      cases hgoes
      trivial

/-- **One move** keeps everything. Only an answer to the start request is a choice. -/
theorem step (h : m.Storied chosen) (hstep : m.step move = some m') :
    ∃ chosen', m'.Storied chosen' ∧
      ∀ p, chosen' = some p ↔ chosen = some p ∨ move = .resolve p := by
  obtain ⟨preempted, hkept⟩ := h.kept
  have hattends := attends_of_step hstep
  have hplaced := h.placed_step hstep
  by_cases hmove : ∃ p, move = .resolve p
  · obtain ⟨p, rfl⟩ := hmove
    -- the request was held, so this is the first answer
    have hnone := h.unanswered (hattends.resolve p rfl)
    refine ⟨some p, ⟨⟨_, hkept.step hstep⟩, ?_, ?_, ?_, h.returned_step hstep⟩, fun q => ?_⟩
    · exact (grows (fun q hq => by rw [hnone] at hq; cases hq) _).placed hplaced
    · exact fun hheld => absurd rfl ((hattends.held hheld).2 p)
    · intro q hq
      rcases hattends.sent q hq with hsent | heq
      · have hq := h.sent q hsent
        rw [hnone] at hq
        cases hq
      · cases heq
        rfl
    · rw [hnone]
      constructor
      · rintro ⟨⟩
        exact .inr rfl
      · rintro (⟨⟨⟩⟩ | ⟨⟨⟩⟩)
        rfl
  · refine ⟨chosen, ⟨⟨_, hkept.step hstep⟩, hplaced, ?_, ?_, h.returned_step hstep⟩, fun q => ?_⟩
    · exact fun hheld => h.unanswered (hattends.held hheld).1
    · exact fun q hq => h.sent q ((hattends.sent q hq).resolve_right fun heq => hmove ⟨q, heq⟩)
    · exact ⟨.inl, fun hor => hor.resolve_right fun heq => hmove ⟨q, heq⟩⟩

end Storied

/-- **A whole run** keeps everything, and the choice is what the application
answered in it. -/
theorem storied_of_run (h : m.Storied chosen) (hrun : m.run moves = some m') :
    ∃ chosen', m'.Storied chosen' ∧
      ∀ p, chosen' = some p ↔ chosen = some p ∨ .resolve p ∈ moves := by
  induction moves generalizing m chosen with
  | nil =>
    cases hrun
    exact ⟨chosen, h, fun p => ⟨.inl, fun hor => hor.resolve_right List.not_mem_nil⟩⟩
  | cons move moves ih =>
    obtain ⟨m₁, hstep, hrun⟩ := run_cons_eq_some.1 hrun
    obtain ⟨chosen₁, h₁, hchosen₁⟩ := h.step hstep
    obtain ⟨chosen', h', hchosen'⟩ := ih h₁ hrun
    refine ⟨chosen', h', fun p => ?_⟩
    rw [hchosen' p, hchosen₁ p, List.mem_cons, or_assoc, eq_comm (a := move)]

/-! ## The end of a run -/

/-- When the runner's work is over, nobody queues anything. -/
theorem Storied.quiet_step (h : m.Storied chosen) (hreturned : HasReturned m.point)
    (hstep : m.step move = some m') : HasReturned m'.point ∧ m'.events = m.events := by
  cases happens_of_step hstep with
  | aside haside =>
    obtain ⟨hpoint, -, hevents, -⟩ := haside.same
    exact ⟨hpoint ▸ hreturned, hevents⟩
  | publish number command hx => exact ⟨hreturned, rfl⟩
  | watch number input hx hwatch hturn =>
    obtain ⟨preempted, hkept⟩ := h.kept
    obtain ⟨-, ⟨p, s, hpoint⟩ | ⟨message, hpoint | hpoint⟩⟩ := watch_last hkept hx hwatch hturn
    · rw [hpoint] at hreturned
      exact hreturned.elim
    · rw [hpoint] at hreturned
      exact hreturned.elim
    · rw [hpoint] at hreturned
      exact hreturned.elim
  | runner input hleads =>
    obtain ⟨queued, hgoes, hevents, -⟩ := hleads
    obtain ⟨hreturned', rfl⟩ := returned_of_goes hgoes hreturned
    exact ⟨hreturned', hevents.trans (List.append_nil _)⟩

/-- Nor in whatever follows. -/
theorem Storied.quiet (h : m.Storied chosen) (hreturned : HasReturned m.point)
    (hrun : m.run moves = some m') : m'.events = m.events := by
  refine (invariant_of_run (P := fun m₁ => (∃ chosen, m₁.Storied chosen) ∧
    HasReturned m₁.point ∧ m₁.events = m.events) ?_ ⟨⟨chosen, h⟩, hreturned, rfl⟩ hrun).2.2
  rintro m₁ m₂ move ⟨⟨chosen, h⟩, hreturned, hevents⟩ hstep
  obtain ⟨chosen₂, h₂, -⟩ := h.step hstep
  obtain ⟨hreturned₂, hevents₂⟩ := h.quiet_step hreturned hstep
  exact ⟨⟨chosen₂, h₂⟩, hreturned₂, hevents₂.trans hevents⟩

/-- Whatever a callback does, the next event can be delivered. -/
theorem step_deliver (panics : Bool) (hlt : m.delivered < m.events.length) :
    ∃ m', m.step (.deliver panics) = some m' ∧ m'.events = m.events ∧
      m'.delivered = m.delivered + 1 := by
  simp only [step, deliver, List.getElem?_eq_getElem hlt]
  split
  · exact ⟨_, rfl, rfl, rfl⟩
  · exact ⟨_, rfl, rfl, rfl⟩

/-- **The story of a run**, which leads from one machine to another. -/
structure Tells (first : Machine) (moves : List Move) (m : Machine) : Prop where
  /-- At every moment the events begin a story. -/
  begun : ∃ word, Story word ∧ m.events <+: word
  /-- In the end they are one. -/
  whole : ∀ result, m.point = .gone (.returned result) → Story m.events
  /-- The runner returns unless the driver panics or the clock overflows. -/
  returned : (∀ message, .runner (.panic message) ∉ moves) → ∀ ending, m.point = .gone ending →
    (∃ result, ending = .returned result) ∨ first.Overflows moves
  /-- The clock overflows only if it cannot show the end of the longest wait. Then the thread
  panics, and never comes to terminate. -/
  overflowed : first.Overflows moves →
    Instant.last < m.horizon ∧ m.state ≠ .terminated ∧
      (m.point = .ending (.panicked (some Instant.overflow)) ∨
        m.point = .gone (.panicked (some Instant.overflow)))
  /-- An application that wants one session gets one at most. -/
  single : (∀ p, .resolve p ∈ moves → p.multiSession = false) → m.events.countP isPresent ≤ 1
  /-- A failure is the last event. -/
  last : ∀ (i : Nat) (e : SessionError), m.events[i]? = some (.failed e) →
    i + 1 = m.events.length
  /-- A runner that has terminated queues nothing any more. -/
  terminated : m.state = .terminated → ∀ later m', m.run later = some m' → m'.events = m.events
  /-- The callbacks are those of the events, in order. -/
  callbacks : first.callbacks moves = m.events.take m.delivered
  /-- Callbacks that panic could as well have returned. -/
  calm : ∃ calm, .deliver true ∉ calm ∧ first.run calm = some m ∧
    first.callbacks calm = first.callbacks moves
  /-- No callback is lost. -/
  delivers : m.delivered < m.events.length → ∀ panics, ∃ m',
    m.step (.deliver panics) = some m' ∧ m'.events = m.events ∧ m'.delivered = m.delivered + 1
  /-- A fault is the failure that was told last. -/
  fault : ∀ result, m.point = .gone (.returned result) → ∀ e,
    result = .ok (.fault e) ↔ m.events.getLast? = some (.failed e) ∧ e ≠ .cancelled
  /-- A removal is the end of one session that was all the application wanted. -/
  removed : ∀ result, m.point = .gone (.returned result) → ∀ n,
    result = .ok (.removed n) ↔ n = 1 ∧ (∃ p, .resolve p ∈ moves ∧ p.multiSession = false) ∧
      ∃ card, m.events = [.start, .cardPresent 0 card, .cardRemoved]
  /-- Whatever else is a cancellation. -/
  cancelled : ∀ result, m.point = .gone (.returned result) → (∀ e, result ≠ .ok (.fault e)) →
    (∀ n, result ≠ .ok (.removed n)) → result = .error .cancelled

/-- **Every run tells a story**, whatever the reader, the card and the
application do, and whoever stops it. -/
theorem runs_tell_stories (config : Config) (reader : String) (moves : List Move) (m : Machine)
    (hrun : (initial config reader).run moves = some m) :
    Tells (initial config reader) moves m := by
  obtain ⟨chosen, hstoried, hchosen⟩ := storied_of_run (.initial config reader) hrun
  obtain ⟨preempted, hkept⟩ := hstoried.kept
  obtain ⟨word, hword, hbegun⟩ := begun_of_placed hkept hstoried.placed
  have hmem : ∀ p, chosen = some p ↔ .resolve p ∈ moves := fun p =>
    (hchosen p).trans (or_iff_right nofun)
  have hclosing : ∀ result, m.point = .gone (.returned result) →
      Closing chosen m.events result := by
    intro result hpoint
    have hplaced := hstoried.placed
    rw [hpoint] at hplaced
    exact closing_of_finished hkept (hpoint ▸ rfl) hplaced
  have hcallbacks : ∀ calls, (initial config reader).run calls = some m →
      (initial config reader).callbacks calls = m.events.take m.delivered :=
    fun calls h => (take_of_run (Nat.le_refl 0) h).symm
  refine ⟨⟨word, hword, hbegun⟩, fun result hpoint => (hclosing result hpoint).story, ?_, ?_, ?_,
    ?_, ?_, hcallbacks moves hrun, ?_, fun hlt panics => step_deliver panics hlt,
    fun result hpoint => (hclosing result hpoint).fault_iff, ?_,
    fun result hpoint => (hclosing result hpoint).cancelled⟩
  · intro hcalm ending hpoint
    cases ending with
    | returned result => exact .inl ⟨result, rfl⟩
    | panicked message =>
      rcases broken_of_run hrun (hpoint ▸ trivial) with hbroken | ⟨message', hpanic⟩ | hoverflows
      · exact hbroken.elim
      · exact absurd hpanic (hcalm message')
      · exact .inr hoverflows
  · intro hoverflows
    have hbroken := hoverflows.broken hrun
    refine ⟨hoverflows.last_lt (keepsInterval_initial config reader) hrun,
      fun hstate => ?_, hbroken⟩
    have hreturned := hstoried.returned hstate
    rcases hbroken with hpoint | hpoint <;> rw [hpoint] at hreturned <;> exact hreturned
  · intro hsingle
    refine countP_of_placed hstoried.placed ?_
    rintro ⟨p, hp, hmulti⟩
    exact absurd hmulti (Bool.eq_false_iff.1 (hsingle p ((hmem p).1 hp)))
  · intro i e hget
    obtain ⟨hlt, -⟩ := List.getElem?_eq_some_iff.1 hget
    obtain ⟨rest, rfl⟩ := hbegun
    have hlast := hword.failed_last ((List.getElem?_append_left hlt).trans hget)
    rw [List.length_append] at hlast
    omega
  · exact fun hstate later m' hlater => hstoried.quiet (hstoried.returned hstate) hlater
  · obtain ⟨calm, hcalm, hruncalm⟩ := exists_calm hrun
    exact ⟨calm, hcalm, hruncalm, (hcallbacks calm hruncalm).trans (hcallbacks moves hrun).symm⟩
  · intro result hpoint n
    rw [(hclosing result hpoint).removed_iff n]
    simp only [hmem]

/-- A card that comes and leaves, with callbacks that panic. -/
def visit : List Move :=
  let go : Move := .runner .go
  let watch : Move := .watch 0 .go
  [go, .deliver false, .resolve {}, go, go, go, go, .runner (.presence (.ok true)), go,
    .runner (.connection (.ok ⟨"Reader 0", [], .t1⟩)), go, go, .runner (.spawned none),
    watch, watch, .watch 0 (.presence (.ok true)), watch, watch, watch, watch, watch, watch, watch,
    watch, .deliver true, go, go, go, go, go, go, go, go, go, .deliver true]

/-- The application is told of the card, and the runner of its removal. -/
theorem runs_tell_stories_visit : ∃ m card,
    (initial { idleTimeout := none } "Reader 0").run visit = some m ∧
    m.point = .gone (.returned (.ok (.removed 1))) ∧ m.delivered = 3 ∧
    m.events = [.start, .cardPresent 0 card, .cardRemoved] ∧
    Tells (initial { idleTimeout := none } "Reader 0") visit m :=
  ⟨_, _, rfl, rfl, rfl, rfl, runs_tell_stories _ _ _ _ rfl⟩

/-- **Where the clock overflows no story is told**: the application is given a session, the
runner's thread panics, and nobody tells of an end. -/
theorem runs_tell_stories_stranded : ∃ m card,
    (initial endless "Reader 0").run stranded = some m ∧
    (∀ message, .runner (.panic message) ∉ stranded) ∧ m.isFinished = true ∧
    m.events = [.start, .cardPresent 0 card] ∧ ¬ Story m.events ∧
    m.result? = some (.error (.failed
      ⟨"worker panicked: overflow when adding duration to instant", []⟩)) :=
  ⟨_, _, rfl, fun message => by simp [stranded], rfl, rfl, not_story_cardPresent,
    rfl⟩

end Machine

end Runner

end SmartCard
