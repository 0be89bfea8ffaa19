import SmartCard.Proofs.Session.Ending
import SmartCard.Proofs.Runner.Watching
/-!
# A session that was served is concluded

Whoever concludes a session closes its rendezvous before the outcome is
recorded, so the runner's thread can find the slot closed while the watch is
still in the middle of its call. The latch, which the watch holds all the while,
is what keeps the thread from learning less than the outcome: when its inquiry
goes through, there is one (`inquire_of_kept`), and the watch brings it within a
few steps of its own (`exists_unlatched`). `concludes` says so of every run, with
what is known of a session once the thread is on its way out of it.
-/

namespace SmartCard

open Conclusion

/-- The call has closed the slot, and not recorded the outcome yet. -/
def Conclusion.isShutting : Conclusion → Bool
  | .closing _ _ | .telling _ | .recording _ => true
  | _ => false

/-- **Between the closure and the record** of the outcome, the call that brings
both holds the latch. -/
theorem Session.Lawful.holder?_of_shut {s : Session} {calls : List Conclusion}
    (h : s.Lawful calls) (hclosed : s.rendezvous.slot = .closed) (hnone : s.outcome = none) :
    ∃ call, holder? calls = some call ∧ call.isShutting = true := by
  have hstanding := h.standing
  cases hholder : holder? calls with
  | none =>
    rw [hholder, Standing, hnone] at hstanding
    cases hstanding.1 hclosed
  | some call =>
    rw [hholder] at hstanding
    refine ⟨call, rfl, ?_⟩
    cases call with
    | deciding o =>
      rw [Standing, hnone] at hstanding
      cases hstanding.1 hclosed
    | releasing o =>
      rw [Standing, hnone] at hstanding
      cases hstanding.2
    | seeking o => exact hstanding.elim
    | returned o => exact hstanding.elim
    | closing o ticket => rfl
    | telling o => rfl
    | recording o => rfl

/-- A step of a call that holds the latch lets it go if the call returns. -/
theorem Session.Advances.unlatched_or_holds {s s' : Session} {call call' : Conclusion}
    {queued : List Event} (h : s.Advances call s' call' queued) (hholds : call.holds = true) :
    (∃ o, call' = .returned o) ∧ s'.latched = false ∨
      (∀ o, call' ≠ .returned o) ∧ call'.holds = true := by
  cases h with
  | latch o hfree => cases hholds
  | rest o => cases hholds
  | late o r hrecorded => exact .inl ⟨⟨r, rfl⟩, rfl⟩
  | unlatch o => exact .inl ⟨⟨o, rfl⟩, rfl⟩
  | shut o hfirst => exact .inr ⟨nofun, rfl⟩
  | resolve o t => exact .inr ⟨nofun, rfl⟩
  | spare o => exact .inr ⟨nofun, rfl⟩
  | tell o => exact .inr ⟨nofun, rfl⟩
  | record o => exact .inr ⟨nofun, rfl⟩

namespace Runner

/-- The outcome with which the runner's thread is on its way out of a session. -/
def Stage.leaving? : Stage → Option Outcome
  | .dismissing o | .interrupting o | .joining o | .served o => some o
  | _ => none

/-- The one call that can hold the latch while the runner's thread makes none is
that of the watch. -/
theorem Sitting.exists_of_holder {x : Sitting} {stage : Option Stage} {call : Conclusion}
    (hcalls : Stage.calls stage = []) (hholder : holder? (x.calls stage) = some call) :
    ∃ w, x.watch = some w ∧ w.point = .concluding call := by
  have hmem := List.mem_of_find?_eq_some hholder
  rw [calls, hcalls, List.nil_append, watching] at hmem
  cases hwatch : x.watch with
  | none =>
    rw [hwatch] at hmem
    cases hmem
  | some w =>
    rw [hwatch, Option.elim_some] at hmem
    refine ⟨w, rfl, ?_⟩
    cases hpoint : w.point with
    | concluding call' =>
      rw [hpoint] at hmem
      rw [List.mem_singleton.1 hmem]
    | _ =>
      rw [hpoint] at hmem
      cases hmem

namespace Machine

variable {m m' : Machine} {preempted : Nat → Prop} {number : Nat} {x : Sitting} {w : Watch}
variable {call : Conclusion} {move : Move}

/-! ## The watch comes to the end of its call -/

/-- A step of the watch's call: the call goes on, or the watch goes back to its check. -/
theorem step_watch_of_advance {s' : Session} {call' : Conclusion} {queued : List Event}
    (hx : m.sessions[number]? = some x) (hwatch : x.watch = some w)
    (hpoint : w.point = .concluding call)
    (hadvance : x.session.advance call = some (s', call', queued)) :
    ∃ m' w', m.step (.watch number .go) = some m' ∧ m'.point = m.point ∧
      m'.sessions[number]? = some { x with session := s', watch := some w' } ∧
      ((∀ o, call' ≠ .returned o) → w'.point = .concluding call') := by
  obtain ⟨w', hw', hpoint'⟩ : ∃ w', w.advance x.session .go = some (w', s', queued) ∧
      ((∀ o, call' ≠ .returned o) → w'.point = .concluding call') := by
    simp only [Watch.advance, hpoint, hadvance]
    cases call' with
    | returned o => exact ⟨_, rfl, fun h => absurd rfl (h o)⟩
    | _ => exact ⟨_, rfl, fun _ => rfl⟩
  refine ⟨(m.queue queued).onSitting number fun y => { y with session := s', watch := some w' },
    w', ?_, rfl, getElem?_onSitting (m := m.queue queued) hx _, hpoint'⟩
  simp only [step, watch, hx, hwatch, hw']

/-- The steps that a call which holds the latch has left. -/
theorem work_of_holds (hholds : call.holds = true) :
    1 < Contention.work call ∧ Contention.work call ≤ 6 := by
  cases call with
  | seeking o => cases hholds
  | returned o => cases hholds
  | _ => simp [Contention.work]

/-- **The watch lets the latch go** within a few steps of its own. The induction is
on the work that its call has left. -/
theorem exists_unlatched (hx : m.sessions[number]? = some x) (hwatch : x.watch = some w)
    (hpoint : w.point = .concluding call) (hholds : call.holds = true) :
    ∃ n m' x', n < Contention.work call ∧
      m.run (List.replicate n (.watch number .go)) = some m' ∧ m'.point = m.point ∧
      m'.sessions[number]? = some x' ∧ x'.session.latched = false := by
  induction hwork : Contention.work call using Nat.strongRecOn generalizing m x w call with
  | ind work ih =>
    cases hadvance : x.session.advance call with
    | none =>
      obtain ⟨o, rfl, -⟩ := Session.advance_eq_none hadvance
      cases hholds
    | some result =>
      obtain ⟨s', call', queued⟩ := result
      have hs := Session.advances_of_advance hadvance
      have hless := Contention.work_lt hs fun o heq => by
        rw [heq] at hholds
        cases hholds
      obtain ⟨m₁, w₁, hstep, hsame, hx₁, hpoint₁⟩ :=
        step_watch_of_advance hx hwatch hpoint hadvance
      rcases hs.unlatched_or_holds hholds with ⟨-, hfree⟩ | ⟨hgoes, hholds'⟩
      · refine ⟨1, m₁, _, ?_, run_cons_eq_some.2 ⟨m₁, hstep, rfl⟩, hsame, hx₁, hfree⟩
        exact hwork ▸ (work_of_holds hholds).1
      · obtain ⟨n, m', x', hn, hrun, hsame', hx', hfree⟩ :=
          ih _ (hwork ▸ hless) hx₁ rfl (hpoint₁ hgoes) hholds' rfl
        refine ⟨n + 1, m', x', by omega, ?_, hsame'.trans hsame, hx', hfree⟩
        rw [List.replicate_succ, run_cons_eq_some]
        exact ⟨m₁, hstep, hrun⟩

/-! ## The inquiry -/

/-- The session in which the runner's thread stands is there. -/
theorem exists_of_stage? (hkept : m.Kept preempted) {stage : Stage}
    (hstage : m.stage? number = some stage) :
    ∃ p s x, m.point = .serving p s ∧ s.session = number ∧ s.stage = stage ∧
      m.sessions[number]? = some x ∧ x.Sound m.config (preempted number) (some stage) := by
  unfold stage? at hstage
  split at hstage
  · next p s hpoint =>
    split at hstage
    · next hnumber =>
      cases hstage
      have hcurrent := hkept.current p s hpoint
      have hx : m.sessions[number]? = some m.sessions[number] :=
        List.getElem?_eq_getElem (by omega)
      have hsound := hkept.sound number _ hx
      rw [stage?_of_serving hpoint, if_pos hnumber] at hsound
      exact ⟨p, s, _, hpoint, hnumber, rfl, hx, hsound⟩
    · cases hstage
  · cases hstage

/-- **What an inquiry learns is recorded.** It goes through only while nobody holds
the latch. -/
theorem inquire_of_kept (hkept : m.Kept preempted) (hstage : m.stage? number = some .inquiring)
    (hx : m.sessions[number]? = some x) {input : Input} (hstep : m.step (.runner input) = some m') :
    ∃ o, x.session.outcome = some o ∧ m'.stage? number = some (.dismissing o) := by
  obtain ⟨p, s, y, hpoint, rfl, hs, hy, hsound⟩ := exists_of_stage? hkept hstage
  cases hx.symm.trans hy
  simp only [step, runner, hpoint, hx, hs] at hstep
  cases input with
  | go =>
    simp only [serve] at hstep
    split at hstep
    · cases hstep
    · next hfree =>
      cases hstep
      have hrecorded := (hsound.inquire (Bool.eq_false_iff.2 hfree)).fits
      exact ⟨_, hrecorded, (stage?_of_serving rfl _).trans (if_pos rfl)⟩
  | _ => simp [serve] at hstep

/-- While nobody holds the latch, the inquiry goes through. -/
theorem exists_inquiry (hkept : m.Kept preempted) (hstage : m.stage? number = some .inquiring)
    (hx : m.sessions[number]? = some x) (hfree : x.session.latched = false) :
    ∃ m', m.step (.runner .go) = some m' := by
  obtain ⟨p, s, y, hpoint, rfl, hs, hy, -⟩ := exists_of_stage? hkept hstage
  cases hx.symm.trans hy
  exact ⟨_, by simp [step, runner, hpoint, hx, hs, serve, hfree]; rfl⟩

/-- **Without an outcome the inquiry waits** for the watch, which has closed the slot and
holds the latch until it has recorded one. -/
theorem inquiry_waits (hkept : m.Kept preempted) (hstage : m.stage? number = some .inquiring) :
    ∃ x, m.sessions[number]? = some x ∧ x.session.rendezvous.slot = .closed ∧
      (x.session.outcome = none → x.session.latched = true ∧
        (∃ w call, x.watch = some w ∧ w.point = .concluding call ∧ call.isShutting = true) ∧
        ∀ input, m.step (.runner input) = none) := by
  obtain ⟨-, -, x, -, -, -, hx, hsound⟩ := exists_of_stage? hkept hstage
  refine ⟨x, hx, hsound.fits.2, fun hnone => ?_⟩
  have hlawful := hsound.orderly.lawful
  obtain ⟨call, hholder, hshutting⟩ := hlawful.holder?_of_shut hsound.fits.2 hnone
  obtain ⟨w, hwatch, hpoint⟩ := Sitting.exists_of_holder rfl hholder
  refine ⟨?_, ⟨w, call, hwatch, hpoint, hshutting⟩, fun input => ?_⟩
  · rw [hlawful.latched, hholder]
    rfl
  · cases hstep : m.step (.runner input) with
    | none => rfl
    | some m' =>
      obtain ⟨o, ho, -⟩ := inquire_of_kept hkept hstage hx hstep
      rw [hnone] at ho
      cases ho

/-- Once the latch is free, the thread learns the outcome. -/
theorem exists_dismissing_of_free (hkept : m.Kept preempted)
    (hstage : m.stage? number = some .inquiring) (hx : m.sessions[number]? = some x)
    (hfree : x.session.latched = false) :
    ∃ m' o, m.step (.runner .go) = some m' ∧ m'.stage? number = some (.dismissing o) := by
  obtain ⟨m', hstep⟩ := exists_inquiry hkept hstage hx hfree
  obtain ⟨o, -, hdismissing⟩ := inquire_of_kept hkept hstage hx hstep
  exact ⟨m', o, hstep, hdismissing⟩

/-- **The thread learns the outcome**, after at most five more steps of the watch. -/
theorem exists_dismissing (hkept : m.Kept preempted) (hstage : m.stage? number = some .inquiring) :
    ∃ n m' o, n ≤ 5 ∧ m.run (List.replicate n (.watch number .go) ++ [.runner .go]) = some m' ∧
      m'.stage? number = some (.dismissing o) := by
  obtain ⟨-, -, x, -, -, -, hx, hsound⟩ := exists_of_stage? hkept hstage
  have hlatched := hsound.orderly.lawful.latched
  cases hholder : holder? (x.calls (some .inquiring)) with
  | none =>
    rw [hholder] at hlatched
    obtain ⟨m', o, hstep, hdismissing⟩ := exists_dismissing_of_free hkept hstage hx hlatched
    exact ⟨0, m', o, Nat.zero_le _, run_cons_eq_some.2 ⟨m', hstep, rfl⟩, hdismissing⟩
  | some call =>
    obtain ⟨w, hwatch, hpoint⟩ := Sitting.exists_of_holder rfl hholder
    have hholds := List.find?_some hholder
    obtain ⟨n, m₁, x₁, hn, hrest, hsame, hx₁, hfree⟩ := exists_unlatched hx hwatch hpoint hholds
    have hstage₁ : m₁.stage? number = some .inquiring := by
      rw [← hstage, stage?, stage?, hsame]
    obtain ⟨m', o, hstep, hdismissing⟩ :=
      exists_dismissing_of_free (kept_of_run hkept hrest) hstage₁ hx₁ hfree
    have hwork := (work_of_holds hholds).2
    refine ⟨n, m', o, by omega, ?_, hdismissing⟩
    rw [run_append hrest, run_cons_eq_some]
    exact ⟨m', hstep, rfl⟩

/-- The runner's thread comes to inquire only by finding the slot closed. -/
theorem listening_of_inquiring (hstep : m.step move = some m')
    (hstage' : m'.stage? number = some .inquiring) :
    m.stage? number = some .inquiring ∨ ∃ x stage, m.sessions[number]? = some x ∧
      m.stage? number = some stage ∧ stage.isListening = true ∧
      x.session.rendezvous.next = (.closed, x.session.rendezvous) := by
  have hsees := sees_of_step hstep number
  generalize m'.sessions[number]? = after, m'.stage? number = stage' at hsees hstage'
  cases hsees with
  | connect input card hx => cases hstage'
  | @turn input x x' stage stage' queued hx hstage hturn =>
    cases hstage'
    cases hturn with
    | shut hlisten hslot =>
      exact .inr ⟨x, stage, hx, hstage, hlisten, by simp only [Rendezvous.next, hslot]⟩
    | wait stage' hlisten hstage' => rcases hstage' with heq | ⟨deadline, heq⟩ <;> cases heq
    | dismiss o w status stage' hwatch hstage' => rcases hstage' with heq | heq <;> cases heq
  | leave input hstage => cases hstage'
  | panic input hstage => cases hstage'
  | _ => exact .inl hstage'

/-! ## The thread on its way out -/

/-- The story of the session that is served ends what has been queued. -/
theorem story_isSuffix (hkept : m.Kept preempted) {chosen : Option Parameters}
    (hplaced : Placed chosen m.sessions m.stories m.events m.point) {stage : Stage}
    (hstage : m.stage? number = some stage) (hx : m.sessions[number]? = some x) :
    x.story number (some stage) <:+ m.events := by
  obtain ⟨p, s, -, hpoint, rfl, -⟩ := exists_of_stage? hkept hstage
  rw [hpoint] at hplaced
  have hlast : m.stories =
      (List.range s.session).flatMap m.storyAt ++ x.story s.session (some stage) := by
    rw [stories, ← hkept.current p s hpoint, List.range_succ, List.flatMap_append,
      List.flatMap_singleton, storyAt_of_getElem? hx, hstage]
  rw [hplaced.2.2, hlast]
  exact ⟨.start :: (List.range s.session).flatMap m.storyAt, rfl⟩

/-- **A session is concluded with this outcome**: it is recorded, the rendezvous is
closed, and the last that was queued is the announcement of the session and its end. -/
structure ConcludedWith (m : Machine) (number : Nat) (x : Sitting) (o : Outcome) : Prop where
  recorded : x.session.outcome = some o
  closed : x.session.rendezvous.slot = .closed
  told : [x.session.announcement number, o.event] <:+ m.events

/-- **The thread leaves a session with the outcome that it keeps.** -/
theorem concludedWith_of_leaving (hkept : m.Kept preempted) {chosen : Option Parameters}
    (hplaced : Placed chosen m.sessions m.stories m.events m.point) {stage : Stage} {o : Outcome}
    (hstage : m.stage? number = some stage) (hleaving : stage.leaving? = some o)
    (hx : m.sessions[number]? = some x) : m.ConcludedWith number x o := by
  obtain ⟨-, -, y, -, -, -, hy, hsound⟩ := exists_of_stage? hkept hstage
  cases hx.symm.trans hy
  have hrecorded : x.session.outcome = some o := by
    have hfits := hsound.fits
    cases stage with
    | dismissing o' => exact hfits.trans hleaving
    | interrupting o' => exact hfits.trans hleaving
    | joining o' => exact hfits.trans hleaving
    | served o' => exact hfits.1.trans hleaving
    | _ => cases hleaving
  have hannounced : Sitting.Announced (some stage) := by
    cases stage with
    | opened => cases hleaving
    | announcing => cases hleaving
    | _ => trivial
  obtain ⟨-, htold, hclosed⟩ := hsound.orderly.lawful.of_recorded hrecorded
  have hstory := story_isSuffix hkept hplaced hstage hx
  rw [Sitting.story_eq hannounced, htold] at hstory
  exact ⟨hrecorded, hclosed, hstory⟩

/-! ## Every run -/

/-- **How a session comes to its conclusion**, for each session that the runner's
thread is in. -/
structure Concludes (m : Machine) : Prop where
  /-- The thread inquires after it has found the slot closed, and not otherwise. -/
  found : ∀ k move m', m.step move = some m' → m'.stage? k = some .inquiring →
    m.stage? k = some .inquiring ∨ ∃ x stage, m.sessions[k]? = some x ∧
      m.stage? k = some stage ∧ stage.isListening = true ∧
      x.session.rendezvous.next = (.closed, x.session.rendezvous)
  /-- If the outcome is not recorded then, the watch has closed the slot and not come
  to the record yet. It holds the latch, and the inquiry has to wait. -/
  meanwhile : ∀ k, m.stage? k = some .inquiring → ∃ x, m.sessions[k]? = some x ∧
    x.session.rendezvous.slot = .closed ∧
    (x.session.outcome = none → x.session.latched = true ∧
      (∃ w call, x.watch = some w ∧ w.point = .concluding call ∧ call.isShutting = true) ∧
      ∀ input, m.step (.runner input) = none)
  /-- An inquiry that goes through learns the outcome that is recorded. -/
  inquiry : ∀ k x input m', m.stage? k = some .inquiring → m.sessions[k]? = some x →
    m.step (.runner input) = some m' →
      ∃ o, x.session.outcome = some o ∧ m'.stage? k = some (.dismissing o)
  /-- It can go through after five more steps of the watch, if not before. -/
  learns : ∀ k, m.stage? k = some .inquiring → ∃ n m' o, n ≤ 5 ∧
    m.run (List.replicate n (.watch k .go) ++ [.runner .go]) = some m' ∧
    m'.stage? k = some (.dismissing o)
  /-- On its way out the thread has the outcome with which the session is concluded. -/
  leaving : ∀ k stage o, m.stage? k = some stage → stage.leaving? = some o →
    ∃ x, m.sessions[k]? = some x ∧ m.ConcludedWith k x o
  /-- When it is out, the watch is gone too, if there was one. -/
  served : ∀ k o, m.stage? k = some (.served o) → ¬ m.IsWatched k

/-- **A session that was served is concluded**, in every run: for every interleaving
of the runner's thread with the steps in which the watch concludes the session, on
each way out of it, and also where no watch could be started. -/
theorem concludes (config : Config) (reader : String) (moves : List Move) (m : Machine)
    (hrun : (initial config reader).run moves = some m) : m.Concludes := by
  obtain ⟨chosen, hstoried, -⟩ := storied_of_run (.initial config reader) hrun
  obtain ⟨preempted, hkept⟩ := hstoried.kept
  refine
    { found := fun k move m' => listening_of_inquiring
      meanwhile := fun k => inquiry_waits hkept
      inquiry := fun k x input m' hstage hx => inquire_of_kept hkept hstage hx
      learns := fun k => exists_dismissing hkept
      leaving := fun k stage o hstage hleaving => ?_
      served := fun k o hstage => ?_ }
  · obtain ⟨-, -, x, -, -, -, hx, -⟩ := exists_of_stage? hkept hstage
    exact ⟨x, hx, concludedWith_of_leaving hkept hstoried.placed hstage hleaving hx⟩
  · obtain ⟨-, -, x, -, -, -, hx, hsound⟩ := exists_of_stage? hkept hstage
    intro hwatched
    obtain ⟨y, w, hy, hwatch, hgone⟩ := exists_of_isWatched hwatched
    cases hx.symm.trans hy
    exact hgone (hsound.fits.2 w hwatch)

/-- A runner serves a session whose card is there. -/
def connecting : List Move :=
  let go : Move := .runner .go
  [go, .deliver false, .resolve {}, go, go, go, go, .runner (.presence (.ok true)), go,
    .runner (.connection (.ok ⟨"Reader 0", [], .t1⟩)), go, go]

/-- The watch sees the card leave and has just closed the slot, by which it wakes the
runner's thread. -/
def outrun : List Move :=
  let go : Move := .runner .go
  let watch : Move := .watch 0 .go
  connecting ++ [.runner (.spawned none), go, go, go, watch, watch,
    .watch 0 (.presence (.ok true)), watch, watch, .runner (.wake .notified)]

/-- The watch goes on to its end, and the thread with it. -/
def caughtUp : List Move :=
  let go : Move := .runner .go
  let watch : Move := .watch 0 .go
  [watch, watch, watch, watch, go, go, watch, watch, go, go]

/-- No watch can be started. -/
def unwatched : List Move :=
  let go : Move := .runner .go
  connecting ++ [.runner (.spawned (some "no thread")), go, go, go, go, go, go, go]

/-- The thread that is outrun waits for the record and learns of the removal. Without
a watch the session is concluded with the failure to start one. -/
theorem concludes_outrun :
    (∃ m m', (initial { idleTimeout := none } "Reader 0").run outrun = some m ∧
      m.stage? 0 = some .inquiring ∧ m.step (.runner .go) = none ∧
      m.run caughtUp = some m' ∧ m'.stage? 0 = some (.served .removed) ∧
      (∃ x, m'.sessions[0]? = some x ∧ m'.ConcludedWith 0 x .removed) ∧ ¬ m'.IsWatched 0) ∧
    ∃ m o, (initial {} "Reader 0").run unwatched = some m ∧
      o = .fault (.transport (.plain "failed to start removal watch: no thread")) ∧
      m.stage? 0 = some (.served o) ∧ ∃ x, m.sessions[0]? = some x ∧ m.ConcludedWith 0 x o := by
  have hlate := concludes { idleTimeout := none } "Reader 0" (outrun ++ caughtUp) _ rfl
  have hnone := concludes {} "Reader 0" unwatched _ rfl
  refine ⟨⟨_, _, rfl, rfl, rfl, rfl, rfl, hlate.leaving 0 _ _ rfl rfl, hlate.served 0 _ rfl⟩,
    _, _, rfl, rfl, rfl, hnone.leaving 0 _ _ rfl rfl⟩

end Machine

end Runner

end SmartCard
