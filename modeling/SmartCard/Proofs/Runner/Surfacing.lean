import SmartCard.Proofs.Runner.Attempts
import SmartCard.Proofs.Runner.Watching
/-!
# What becomes of a removal

The thread of a runner learns of a removal when an exchange fails with it, or a
connection; a watch learns of it from its reader. An exchange and a watch make it
the end of their session, and the client and the application hear of nothing else
(`ends_of_exchange`, `heralds_of_run`); after a connection the thread pauses and
tries again (`Paused.of_run`). `removals_lifted` puts this beside what `Lifts`
says of the errors that are told, and of the one gap.
-/

namespace SmartCard

namespace Runner

/-- **A watch has learned of the removal**: it is about to conclude the session with
that, unless the session has ended. -/
def Sitting.Heralds (x : Sitting) : Prop :=
  (∃ call, x.watchPoint? = some (.concluding call) ∧ call.outcome = .removed) ∨
    x.session.isConcluded = true

namespace Sitting.Heralds

variable {config : Config} {number : Nat} {preempted : Prop} {x x' : Sitting}
variable {stage stage' : Stage} {before : Option Stage} {s' : Session} {queued : List Event}

/-- A step that leaves the watch where it is. -/
theorem of_lasts (h : x.Heralds) (hpoint : x'.watchPoint? = x.watchPoint?) (hlasts : x.Lasts x') :
    x'.Heralds :=
  h.imp (fun ⟨call, hcall, ho⟩ => ⟨call, hpoint.trans hcall, ho⟩) hlasts.concluded

/-- A client changes nothing of it. -/
theorem publish (h : x.Heralds) (command : Bytes) : (x.publish command).Heralds := by
  refine h.of_lasts ?_ (.publish x command)
  unfold Sitting.publish
  split <;> rfl

/-- Nor does a step of the runner's thread: a watch is started once. -/
theorem turn (h : x.Heralds) (hs : x.Sound config preempted (some stage))
    (hturn : Turn config number x stage stage' x' queued) : x'.Heralds := by
  rcases Machine.watchPoint?_of_turn hturn with hpoint | ⟨rfl, -⟩
  · exact h.of_lasts hpoint (.turn hturn)
  · obtain ⟨hwatch, houtcome, -⟩ := hs.fits
    rcases h with ⟨call, hcall, -⟩ | hconcluded
    · rw [watchPoint?, hwatch] at hcall
      cases hcall
    · rw [Session.isConcluded, houtcome] at hconcluded
      cases hconcluded

/-- **A step of the watch**: it keeps to the removal until the session has ended. -/
theorem watch {w w' : Watch} (h : x.Heralds) (hs : x.Sound config preempted before)
    (hwatch : x.watch = some w) (hturn : Watch.Turn x.session w.point w'.point s' queued) :
    Heralds { x with session := s', watch := some w' } := by
  rcases h with ⟨call, hcall, ho⟩ | hconcluded
  · have hpoint : w.point = .concluding call := by
      rw [watchPoint?, hwatch] at hcall
      exact Option.some.inj hcall
    have hlawful : x.session.Lawful (call :: Stage.calls before) := by
      refine hs.orderly.lawful.perm ?_
      rw [Sitting.calls, watching, hwatch, Option.elim_some, hpoint]
      exact List.perm_append_singleton _ _
    rw [hpoint] at hturn
    generalize hpoint' : w'.point = point' at hturn
    cases hturn with
    | @conclude _ _ call' _ hadvance hcall' =>
      rcases hadvance.outcome_eq with heq | ⟨r, -, hreturned⟩
      · exact .inl ⟨call', congrArg some hpoint', heq.trans ho⟩
      · exact absurd hreturned (hcall' r)
    | concluded hadvance =>
      have hrecorded := (hlawful.advance hadvance).returned _ List.mem_cons_self
      exact .inr (by rw [Session.isConcluded, hrecorded]; rfl)
  · exact .inr ((Sitting.Lasts.watch hturn).concluded hconcluded)

end Sitting.Heralds

namespace Machine

variable {m m' : Machine} {preempted : Nat → Prop} {move : Move} {number : Nat} {x : Sitting}
variable {cause : ExchangeError}

/-! ## A watch that learns of a removal -/

/-- A watch is told of the removal. -/
theorem heralds_of_answer (hremoved : cause.isCardRemoved = true)
    (hstep : m.step (.watch number (.presence (.error cause))) = some m') :
    ∃ x, m'.sessions[number]? = some x ∧ x.Heralds := by
  obtain ⟨x, w, w', s', queued, hx, hwatch, hadvance, rfl⟩ := watch_of_step hstep
  obtain ⟨hlt, -⟩ := List.getElem?_eq_some_iff.1 hx
  refine ⟨_, List.getElem?_set_self hlt, .inl ⟨.seeking .removed, ?_, rfl⟩⟩
  have hpoint' : w'.point = .concluding (.seeking .removed) := by
    cases hpoint : w.point with
    | polling =>
      simp only [Watch.advance, hpoint, Watch.outcome?, hremoved, if_true, Option.some.injEq,
        Prod.mk.injEq] at hadvance
      rw [← hadvance.1]
    | _ => simp [Watch.advance, hpoint] at hadvance
  exact congrArg some hpoint'

/-- **One move.** -/
theorem heralds_of_step (hkept : m.Kept preempted) (hstep : m.step move = some m')
    (hx : m.sessions[number]? = some x) (h : x.Heralds) :
    ∃ x', m'.sessions[number]? = some x' ∧ x'.Heralds := by
  have hsees := sees_of_step hstep number
  generalize m'.sessions[number]? = after, m'.stage? number = stage' at hsees
  cases hsees with
  | apart | leave | panic => exact ⟨x, hx, h⟩
  | connect input card hnone =>
    rw [hx] at hnone
    cases hnone
  | publish command hx' =>
    cases hx.symm.trans hx'
    exact ⟨_, rfl, h.publish command⟩
  | watch input hx' hwatch hturn =>
    cases hx.symm.trans hx'
    exact ⟨_, rfl, h.watch (hkept.sound number x hx) hwatch hturn⟩
  | turn input hx' hstage hturn =>
    cases hx.symm.trans hx'
    have hsound := hkept.sound number x hx
    rw [hstage] at hsound
    exact ⟨_, rfl, h.turn hsound hturn⟩

/-- **Whatever follows** in a run. -/
theorem heralds_of_run {before after : List Move} {config : Config} {reader : String}
    (hremoved : cause.isCardRemoved = true)
    (hrun : (initial config reader).run
      (before ++ .watch number (.presence (.error cause)) :: after) = some m) :
    ∃ x, m.sessions[number]? = some x ∧ x.Heralds := by
  obtain ⟨m₀, hbefore, hrun⟩ := exists_of_run_append hrun
  obtain ⟨m₁, hstep, hafter⟩ := run_cons_eq_some.1 hrun
  have hkept := (kept_of_run (.initial config reader) hbefore).step hstep
  refine (invariant_of_run (P := fun m => (∃ preempted, m.Kept preempted) ∧
    ∃ x, m.sessions[number]? = some x ∧ x.Heralds) ?_
    ⟨⟨_, hkept⟩, heralds_of_answer hremoved hstep⟩ hafter).2
  rintro m₂ m₃ move ⟨⟨preempted, hkept⟩, x, hx, h⟩ hstep
  exact ⟨⟨_, hkept.step hstep⟩, heralds_of_step hkept hstep hx h⟩

/-! ## An exchange that fails with a removal -/

/-- What was told of an end that a session has is among what was queued. -/
theorem event_mem (hkept : m.Kept preempted) {chosen : Option Parameters}
    (hplaced : Placed chosen m.sessions m.stories m.events m.point)
    (hx : m.sessions[number]? = some x) {o : Outcome} (ho : x.session.outcome = some o) :
    o.event ∈ m.events := by
  obtain ⟨hlt, -⟩ := List.getElem?_eq_some_iff.1 hx
  have hmem : o.event ∈ m.stories := by
    refine List.mem_flatMap.2 ⟨number, List.mem_range.2 hlt, ?_⟩
    rw [storyAt_of_recorded hkept hx ho]
    exact List.mem_cons_of_mem _ List.mem_cons_self
  rcases events_of_placed hplaced with ⟨hnil, -⟩ | ⟨outside, -, hevents⟩
  · rw [hnil] at hlt
    cases hlt
  · rw [hevents]
    exact List.mem_cons_of_mem _ (List.mem_append_left _ hmem)

/-- **An exchange that failed with a removal ends its session with it**, if the watch was
not there before: that is what its client hears of, and what the application is told. -/
theorem ends_of_exchange (hkept : m.Kept preempted) {chosen : Option Parameters}
    (hplaced : Placed chosen m.sessions m.stories m.events m.point)
    (hx : m.sessions[number]? = some x) (hpreempted : ¬ preempted number) {T : Transmission}
    (hT : T ∈ x.transmissions) (hfailure : T.failure? = some cause)
    (hremoved : cause.isCardRemoved = true) :
    (∀ t e, x.session.rendezvous.poll t = some (.error e) → e = .cardRemoved) ∧
    ∀ o, x.session.outcome = some o → o = .removed ∧ .cardRemoved ∈ m.events := by
  have hsound := hkept.sound number x hx
  have hverdict : ∀ o, x.session.verdict (x.calls (m.stage? number)) = some o → o = .removed := by
    intro o ho
    have hblame := hsound.blame hpreempted o ho T hT cause hfailure
    rw [hblame, Outcome.ofError, if_pos hremoved]
  constructor
  · intro t e hpoll
    obtain ⟨o, ho, he⟩ := hsound.orderly.answers t (.error e) hpoll
    rw [he, hverdict o ho]
    rfl
  · intro o ho
    obtain rfl := hverdict o (hsound.orderly.lawful.of_recorded ho).1
    exact ⟨rfl, event_mem hkept hplaced hx ho⟩

/-! ## Every run -/

/-- **What the removals became** that were met in a run. -/
structure Surfaces (first : Machine) (moves : List Move) (m : Machine) : Prop where
  /-- One that an exchange failed with is what its client hears of, and the end of the
  session, unless the watch was the first to conclude it. -/
  exchange : ∀ number (x : Sitting) T cause, m.sessions[number]? = some x →
    ¬ first.Preempted number moves → T ∈ x.transmissions → T.failure? = some cause →
    cause.isCardRemoved = true →
      (∀ t e, x.session.rendezvous.poll t = some (.error e) → e = .cardRemoved) ∧
      ∀ o, x.session.outcome = some o → o = .removed ∧ .cardRemoved ∈ m.events
  /-- After one that a connection failed with, the thread pauses and tries again. -/
  connection : ∀ before after asked p cause,
    moves = before ++ .runner (.connection (.error cause)) :: after →
    first.run before = some asked → asked.point = .attempting p .connecting →
    cause.isCardRemoved = true → Paused p cause asked m
  /-- One that a watch was told of is what it concludes its session with, unless that
  has ended. -/
  watch : ∀ before after number cause,
    moves = before ++ .watch number (.presence (.error cause)) :: after →
    cause.isCardRemoved = true → ∃ x, m.sessions[number]? = some x ∧ x.Heralds

theorem surfaces_of_run {config : Config} {reader : String} {moves : List Move}
    (hrun : (initial config reader).run moves = some m) :
    Surfaces (initial config reader) moves m := by
  obtain ⟨chosen, hstoried, -⟩ := storied_of_run (.initial config reader) hrun
  have hkept := kept_of_run (.initial config reader) hrun
  refine
    { exchange := fun number x T cause hx hpreempted hT hfailure hremoved => ?_
      connection := fun before after asked p cause hmoves hbefore hpoint hremoved => ?_
      watch := fun before after number cause hmoves hremoved => ?_ }
  · refine ends_of_exchange hkept hstoried.placed hx (fun hp => ?_) hT hfailure hremoved
    exact hp.elim id hpreempted
  · subst hmoves
    exact .of_run hbefore hpoint hremoved hrun
  · subst hmoves
    exact heralds_of_run hremoved hrun

/-- **Removals are lifted out of the transport errors**, in the answers to the
commands of every session. A failure that is told, or the fault that the
runner ends with, hides a removal only if the runner's last call to the reader
was a wait that failed with it; and whatever such a wait fails with is told so.
Everywhere else a removal becomes the end of its session or another attempt. -/
theorem removals_lifted (config : Config) (reader : String) (moves : List Move) (m : Machine)
    (hrun : (initial config reader).run moves = some m) :
    (∀ (number : Nat) (x : Sitting) t e, m.sessions[number]? = some x →
      x.session.rendezvous.poll t = some (.error e) → ¬ e.HidesRemoval) ∧
    (∀ e, .failed e ∈ m.events ∨ m.point = .gone (.returned (.ok (.fault e))) →
      e.HidesRemoval → ∃ present cause, e = .transport cause ∧
        m.calls.getLast? = some (.presence present (.error cause))) ∧
    (∀ p present cause, m.point = .attempting p (.waiting present) → ∃ m',
      m.run [.runner (.presence (.error cause)), .runner .go, .runner .go, .runner .go,
        .runner .go] = some m' ∧
      m'.point = .gone (.returned (.ok (.fault (.transport cause)))) ∧
      m'.events = m.events ++ [.failed (.transport cause)]) ∧
    Surfaces (initial config reader) moves m := by
  obtain ⟨chosen, hstoried, -⟩ := storied_of_run (.initial config reader) hrun
  have hlifts := (Lifts.initial config reader).run (.initial config reader) hrun
  refine ⟨fun number x t e hx hpoll => ?_, fun e htold hhides => ?_,
    fun p present cause hpoint => wait_tells_fault hpoint cause, surfaces_of_run hrun⟩
  · obtain ⟨preempted, hkept⟩ := hstoried.kept
    exact (hlifts.sessions number x hx).answer (hkept.sound number x hx).orderly hpoll
  · refine hlifts.fault e ?_ hhides
    rcases htold with htold | hpoint
    · refine fault?_of_placed hstoried.placed htold fun hmem => ?_
      exact hlifts.stories hmem hhides
    · rw [hpoint]
      rfl

/-- The application starts the runner, and the first wait for a card fails
with a removal. -/
def departed : List Move :=
  [.runner .go, .deliver false, .resolve {}, .runner .go, .runner .go, .runner .go, .runner .go,
    .runner (.presence (.error (.transport .cardRemoved))), .runner .go, .runner .go, .runner .go,
    .runner .go]

/-- The wait was the last call to the reader, and its error was told as it is. -/
theorem removals_lifted_departed : ∃ m,
    (initial { idleTimeout := none } "Mock Reader 0").run departed = some m ∧
    ∃ e, m.point = .gone (.returned (.ok (.fault e))) ∧ e.HidesRemoval ∧
      ∃ present cause, e = .transport cause ∧
        m.calls.getLast? = some (.presence present (.error cause)) :=
  ⟨_, rfl, _, rfl, rfl, (removals_lifted _ _ departed _ rfl).2.1 _ (.inr rfl) rfl⟩

/-- **A removal can be told as a failure of the reader**, and be the fault that
the runner ends with. -/
theorem removal_told_as_fault : ∃ m,
    (initial { idleTimeout := none } "Mock Reader 0").run departed = some m ∧
    m.events = [.start, .failed (.transport (.transport .cardRemoved))] ∧
    m.point = .gone (.returned (.ok (.fault (.transport (.transport .cardRemoved))))) ∧
    (ExchangeError.transport .cardRemoved).isCardRemoved = true :=
  ⟨_, rfl, rfl, rfl, rfl⟩

end Machine

end Runner

end SmartCard
