import SmartCard.Proofs.Runner.Diagram
/-!
# The three records of a run

A runner keeps three records of what it does, and writes them at different
places: the states that it enters, the events that it queues, and in the end
its result. In the end the states fit the outcomes of the sessions (`Tally`),
and so do the events (`Reports`). So the three records balance (`Balanced`),
in every run that comes to an end, and at every moment the states are a path
through the diagram (`runs_follow_diagram`).
-/

namespace SmartCard

namespace Runner

namespace Machine

variable {m m' : Machine} {chosen : Option Parameters} {preempted : Nat → Prop}

/-! ## The events -/

/-- **The events fit the sessions** in the end: each was announced, and what
became of it was told. -/
structure Reports (os : List (Option Outcome)) (events : List Event) : Prop where
  announced : events.countP isPresent = os.length
  removed : events.count .cardRemoved = os.count (some .removed)
  cancelled : .failed .cancelled ∈ events ↔ some .cancelled ∈ os

/-- Removals are counted by the sessions that ended with them. -/
theorem counts_of_removals {n : Nat} {word : List Event} (h : Removals n word) :
    word.countP isPresent = n ∧ word.count .cardRemoved = n := by
  induction h with
  | nil => exact ⟨rfl, rfl⟩
  | concat card h ih =>
    rw [List.countP_append, List.count_append, ih.1, ih.2]
    exact ⟨rfl, rfl⟩

/-- Sessions that all ended with the removal of their cards, and what was told of them. -/
theorem reports_of_rested (h : Rested chosen m.sessions) (hserving : isServing m.point = false) :
    Reports (outcomes m.sessions) (.start :: m.stories) := by
  have hword := removals_of_rested h hserving
  obtain ⟨hpresent, hremoved⟩ := counts_of_removals hword
  rw [outcomes_of_rested h]
  refine ⟨?_, ?_, fun hmem => ?_, fun hmem => ?_⟩
  · rw [List.countP_cons_of_neg (by exact Bool.false_ne_true), hpresent, List.length_replicate]
  · rw [List.count_cons_of_ne (by decide), hremoved, List.count_replicate_self]
  · rcases List.mem_cons.1 hmem with heq | hmem
    · cases heq
    · exact absurd hmem (hword.not_failed .cancelled)
  · cases List.eq_of_mem_replicate hmem

/-- A failure that is told of the runner itself is not one of a session. -/
theorem Reports.concat {os : List (Option Outcome)} {events : List Event}
    (h : Reports os events) {e : SessionError} (he : e ≠ .cancelled) :
    Reports os (events ++ [.failed e]) where
  announced := by
    rw [List.countP_append]
    exact h.announced
  removed := by
    rw [List.count_append]
    exact h.removed
  cancelled := by
    rw [← h.cancelled, List.mem_append, List.mem_singleton, Event.failed.injEq]
    exact or_iff_left he.symm

/-- Sessions of which the last ended with this outcome, and what was told of them. -/
theorem reports_of_ended (hkept : m.Kept preempted) {o : Outcome}
    (h : Ended chosen m.sessions o) (hserving : isServing m.point = false) :
    Reports (outcomes m.sessions) (.start :: m.stories) := by
  obtain ⟨n, word, card, hn, hword, hstories⟩ := stories_of_ended hkept h hserving
  obtain ⟨k, hk, hos⟩ := outcomes_of_ended h
  obtain rfl : k = n := by omega
  obtain ⟨hpresent, hremoved⟩ := counts_of_removals hword
  have ho := ne_cancelled_of_ended hkept h
  have htold : .failed .cancelled = o.event ↔ some .cancelled = some o := by
    cases o with
    | fault e => simpa [Outcome.event, Outcome.reason, eq_comm] using ho
    | _ => simp [Outcome.event, Outcome.reason]
  rw [hstories, hos]
  refine ⟨?_, ?_, ?_⟩
  · rw [List.countP_cons_of_neg (by exact Bool.false_ne_true), List.countP_append, hpresent,
      List.length_append, List.length_replicate]
    cases o <;> rfl
  · rw [List.count_cons_of_ne (by decide), List.count_append, hremoved, List.count_append,
      List.count_replicate_self]
    cases o <;> rfl
  · have hword' := hword.not_failed .cancelled
    simp [hword', htold]

/-- In the end the events fit the sessions. -/
theorem reports_of_finished (hkept : m.Kept preempted) (hserving : isServing m.point = false)
    {result : Except TaskError Exit}
    (h : Finished chosen m.sessions m.stories m.events result) :
    Reports (outcomes m.sessions) m.events := by
  unfold Finished at h
  split at h
  · obtain ⟨-, -, hended, -, hevents⟩ := h
    rw [hevents]
    exact reports_of_ended hkept hended hserving
  · obtain ⟨he, ⟨hrested, hevents⟩ | ⟨o, -, -, hended, hevents⟩⟩ := h
    · rw [hevents]
      exact (reports_of_rested hrested hserving).concat he
    · rw [hevents]
      exact reports_of_ended hkept hended hserving
  · exact h.elim
  · obtain ⟨-, hrested | hended, hevents⟩ := h
    · rw [hevents]
      exact reports_of_rested hrested hserving
    · rw [hevents]
      exact reports_of_ended hkept hended hserving

/-! ## The balance -/

/-- **How the three records of a run balance** in the end: the states, the events
and the result. -/
structure Balanced (m : Machine) (result : Except TaskError Exit) : Prop where
  terminated : m.state = .terminated
  /-- A session is shown for each that is announced. -/
  active : m.states.count .active = m.events.countP isPresent
  /-- A removal is shown for each that is told. -/
  removed : m.states.count .removed = m.events.count .cardRemoved
  /-- A failure is shown if and only if the result is one. -/
  fault : (.fault ∈ m.states ∨ .idleTimeout ∈ m.states) ↔ ∃ e, result = .ok (.fault e)
  idleTimeout : .idleTimeout ∈ m.states ↔ ∃ limit, result = .ok (.fault (.idleTimeout limit))
  /-- A session is followed by the end at once if and only if it was cancelled. -/
  cancelled : [.active, .terminated] <:+: m.states ↔ .failed .cancelled ∈ m.events

/-- **The path of a run through the diagram**, which leads from one machine to another. The
application's choice is `chosen`. -/
structure Follows (first m : Machine) (chosen : Option Parameters) (moves : List Move) :
    Prop where
  /-- The choice is the answer to the start request. -/
  choice : ∀ p, chosen = some p ↔ .resolve p ∈ moves
  /-- The states are a path. -/
  path : (.starting :: m.states).IsChain (Edge chosen)
  /-- Its last state is the one that the runner shows. -/
  shown : (.starting :: m.states).getLast? = some m.state
  /-- A runner that has terminated shows nothing else any more. -/
  stays : m.state = .terminated → ∀ later m', m.run later = some m' →
    m'.state = .terminated ∧ m'.states = m.states
  /-- The runner returns unless the driver panics or the clock overflows. -/
  returned : (∀ message, .runner (.panic message) ∉ moves) → ∀ ending, m.point = .gone ending →
    (∃ result, ending = .returned result) ∨ first.Overflows moves
  /-- A thread that panics leaves the path where it connects or serves a session, and as many
  sessions shown as there are. -/
  broken : IsBroken m.point → (m.state = .connecting ∨ m.state = .active) ∧
    m.states.count .active = m.sessions.length
  /-- In the end the records balance. -/
  balanced : ∀ result, m.point = .gone (.returned result) → m.Balanced result

/-- The path of a run that came to an end shows what became of it. -/
theorem Drawn.balanced (h : m.Drawn chosen) (hkept : m.Kept preempted)
    {result : Except TaskError Exit} (hpoint : m.point = .gone (.returned result))
    (hfinished : Finished chosen m.sessions m.stories m.events result) : m.Balanced result := by
  have hreports := reports_of_finished hkept (hpoint ▸ rfl) hfinished
  obtain ⟨hpath, hshown, hdisplayed⟩ := h
  rw [hpoint] at hdisplayed
  obtain ⟨before, last, hstates, hconcludes, hhalts, htally⟩ := hdisplayed
  rw [hstates] at hpath hshown
  -- a failure is shown last of all before the end, if it is shown
  have hmem : ∀ s, s = .fault ∨ s = .idleTimeout → (s ∈ m.states ↔ last = s) := by
    intro s hs
    have hbefore := not_mem_of_path hpath fun _ => Edge.eq_terminated hs
    have hcons : s ∈ .starting :: m.states ↔ s ∈ m.states := by
      rw [List.mem_cons, or_iff_right]
      rcases hs with rfl | rfl <;> decide
    have hne : s ≠ .terminated := by rcases hs with rfl | rfl <;> decide
    rw [← hcons, hstates]
    simp [hbefore, hne, eq_comm]
  refine ⟨?_, htally.entered.trans hreports.announced.symm,
    htally.left.trans hreports.removed.symm, ?_, ?_, ?_⟩
  · simpa using hshown.symm
  · rw [hmem _ (.inl rfl), hmem _ (.inr rfl)]
    exact hconcludes.fault_iff
  · rw [hmem _ (.inr rfl)]
    exact hconcludes.idleTimeout_iff
  · have hcons : [.active, .terminated] <:+: .starting :: m.states ↔
        [.active, .terminated] <:+: m.states := by
      rw [List.infix_cons_iff, or_iff_right]
      intro hstart
      cases (List.cons_prefix_cons.1 hstart).1
    rw [← hcons, hstates, infix_iff_of_path hpath, hreports.cancelled]
    exact hhalts

/-- What was shown is not left, once the runner has terminated. -/
theorem Drawn.stays (h : m.Drawn chosen) (hstoried : m.Storied chosen) (hlifts : m.Lifts)
    (hstate : m.state = .terminated) {later : List Move} (hlater : m.run later = some m') :
    m'.state = .terminated ∧ m'.states = m.states := by
  obtain ⟨chosen', h', -, -⟩ := drawn_of_run h hstoried hlifts hlater
  obtain ⟨more, hmore⟩ := states_of_run hlater
  cases more with
  | nil =>
    rw [List.append_nil] at hmore
    have hshown := h'.shown
    rw [← hmore, h.shown, hstate] at hshown
    exact ⟨(Option.some.inj hshown).symm, hmore.symm⟩
  | cons s more =>
    -- an edge would lead on from the last state
    obtain ⟨before, hbefore⟩ := List.getLast?_eq_some_iff.1 h.shown
    have hpath := h'.path
    rw [← hmore, ← List.cons_append, hbefore, List.append_assoc, List.singleton_append,
      hstate] at hpath
    exact (List.isChain_append_cons_cons.1 hpath).2.1.elim

/-- **Every run follows the diagram**, whatever the reader, the card and the
application do, and whoever stops it. -/
theorem runs_follow_diagram (config : Config) (reader : String) (moves : List Move) (m : Machine)
    (hrun : (initial config reader).run moves = some m) :
    ∃ chosen, (initial config reader).Follows m chosen moves := by
  obtain ⟨chosen, hdrawn, hstoried, hchosen⟩ := drawn_of_run (.initial config reader)
    (.initial config reader) (.initial config reader) hrun
  have hlifts := (Lifts.initial config reader).run (.initial config reader) hrun
  obtain ⟨preempted, hkept⟩ := hstoried.kept
  refine ⟨chosen, fun p => (hchosen p).trans (or_iff_right nofun), hdrawn.path, hdrawn.shown, ?_,
    ?_, ?_, ?_⟩
  · intro hstate later m' hlater
    exact hdrawn.stays hstoried hlifts hstate hlater
  · intro hcalm ending hpoint
    cases ending with
    | returned result => exact .inl ⟨result, rfl⟩
    | panicked message =>
      rcases broken_of_run hrun (hpoint ▸ trivial) with hbroken | ⟨message', hpanic⟩ | hoverflows
      · exact hbroken.elim
      · exact absurd hpanic (hcalm message')
      · exact .inr hoverflows
  · intro hbroken
    have hdisplayed := hdrawn.displayed
    unfold IsBroken at hbroken
    split at hbroken
    · next hpoint =>
      rw [hpoint] at hdisplayed
      exact ⟨hdisplayed.1, hdisplayed.2.trans (List.length_map _)⟩
    · next hpoint =>
      rw [hpoint] at hdisplayed
      exact ⟨hdisplayed.1, hdisplayed.2.trans (List.length_map _)⟩
    · exact hbroken.elim
  · intro result hpoint
    have hplaced := hstoried.placed
    rw [hpoint] at hplaced
    exact hdrawn.balanced hkept hpoint hplaced

/-- The reader is empty before the card comes, and somebody stops the runner
while it serves the card. -/
def recalled : List Move :=
  let go : Move := .runner .go
  let watch : Move := .watch 0 .go
  let seen : Move := .runner (.presence (.ok true))
  [go, .deliver false, .resolve { touchRequired := true }, go, go, go, go, seen, go, go, seen, go,
    .runner (.connection (.ok ⟨"Reader 0", [], .t1⟩)), go, go, .runner (.spawned none), .stop,
    .raise, go, go, go, go, go, go, go, go, go, watch, watch, go, go, go, go, go]

/-- The session leads to the end at once, and that is told as a cancellation. -/
theorem runs_follow_diagram_recalled : ∃ m chosen,
    (initial { idleTimeout := none } "Reader 0").run recalled = some m ∧
    m.point = .gone (.returned (.error .cancelled)) ∧
    m.states = [.waitAbsent, .waitPresent, .connecting, .active, .terminated] ∧
    (initial { idleTimeout := none } "Reader 0").Follows m chosen recalled := by
  obtain ⟨chosen, hfollows⟩ := runs_follow_diagram _ _ recalled _ rfl
  exact ⟨_, chosen, rfl, rfl, rfl, hfollows⟩

/-- **A path does not end where the clock overflows**: the thread is gone, and the runner is
shown in a session for good. -/
theorem runs_follow_diagram_stranded : ∃ m,
    (initial endless "Reader 0").run stranded = some m ∧
    (∀ message, .runner (.panic message) ∉ stranded) ∧ m.isFinished = true ∧
    m.states = [.waitPresent, .connecting, .active] ∧ m.state = .active :=
  ⟨_, rfl, fun message => by simp [stranded], rfl, rfl, rfl⟩

end Machine

end Runner

end SmartCard
