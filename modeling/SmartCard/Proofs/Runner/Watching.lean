import SmartCard.Proofs.Runner.Diagram
import SmartCard.Proofs.Runner.Lasting
/-!
# One watch at a time

A watch uses the reader on a thread of its own, so it must not be there when
the runner's thread uses the reader itself. `Guarded` says when it is there:
in the last session only, from the announcement until the session was
served, and while nothing but an active session is shown. Each part is read
off what is kept of the sessions, except that the state is active
(`showsActive_of_run`) and that a watch does not begin another wait once its
session has ended (`polls_of_run`).
-/

namespace SmartCard

namespace Runner

/-- Where the watch of a session stands, if it has one. -/
def Sitting.watchPoint? (x : Sitting) : Option Watch.Point :=
  x.watch.map Watch.point

/-- The session was shown as active by the time the thread stands here. -/
def Stage.isShown : Stage → Bool
  | .opened => false
  | _ => true

/-- The runner's thread is in a session that was shown, or was broken off in one. -/
def Point.isInside : Point → Bool
  | .serving _ s => s.stage.isShown
  | .ending (.panicked _) | .gone (.panicked _) => true
  | _ => false

/-- The runner's thread is in a session that was shown. -/
def Point.isShowing : Point → Bool
  | .serving _ s => s.stage.isShown
  | _ => false

/-- Who is not in a session that was shown was broken off in one. -/
theorem isBroken_of_isInside {point : Point} (h : point.isInside = true)
    (hshowing : ¬ point.isShowing = true) : Machine.IsBroken point := by
  cases point with
  | serving p s => exact absurd h hshowing
  | ending ending | gone ending =>
    cases ending with
    | returned result => cases h
    | panicked message => trivial
  | _ => cases h

theorem Stage.isShown_of_ne {stage : Stage} (h : stage ≠ .opened) : stage.isShown = true := by
  cases stage with
  | opened => exact absurd rfl h
  | _ => rfl

/-- Only the first and the last step inside a session show something. -/
theorem Stage.shows_eq_none {stage : Stage} (hopened : stage ≠ .opened)
    (hserved : ∀ o, stage ≠ .served o) : stage.shows = none := by
  cases stage with
  | opened => exact absurd rfl hopened
  | served o => exact absurd rfl (hserved o)
  | _ => rfl

namespace Machine

variable {m m' : Machine} {preempted : Nat → Prop} {number : Nat} {move : Move}

/-- Where the watch of a session stands, if there is one. -/
def watchPoint? (m : Machine) (number : Nat) : Option Watch.Point :=
  m.sessions[number]?.bind Sitting.watchPoint?

/-- **The watch of a session is there**: its thread was started and is not gone. -/
def IsWatched (m : Machine) (number : Nat) : Prop :=
  ∃ point, m.watchPoint? number = some point ∧ point ≠ .gone

/-- How often the watch of a session begins to wait for the reader in a run. -/
def polls (m : Machine) (number : Nat) : List Move → Nat
  | [] => 0
  | move :: moves => (m.step move).elim 0 fun m' =>
    (if m.watchPoint? number ≠ some .polling ∧ m'.watchPoint? number = some .polling then 1 else 0)
      + m'.polls number moves

/-! ## The session of a watch -/

/-- A watch that is there belongs to a session. -/
theorem exists_of_isWatched (h : m.IsWatched number) :
    ∃ x w, m.sessions[number]? = some x ∧ x.watch = some w ∧ w.point ≠ .gone := by
  obtain ⟨point, hpoint, hgone⟩ := h
  obtain ⟨x, hx, hwatch⟩ := Option.bind_eq_some_iff.1 hpoint
  obtain ⟨w, hw, rfl⟩ := Option.map_eq_some_iff.1 hwatch
  exact ⟨x, w, hx, hw, hgone⟩

/-- **While there is a watch, the runner's thread is inside its session**, or
was broken off there, and its next step shows nothing. -/
theorem inside_of_isWatched (hkept : m.Kept preempted) (h : m.IsWatched number) :
    number + 1 = m.sessions.length ∧ m.point.isInside = true ∧ m.point.shows = none := by
  obtain ⟨x, w, hx, hwatch, hgone⟩ := exists_of_isWatched h
  obtain ⟨hlt, -⟩ := List.getElem?_eq_some_iff.1 hx
  have hserved := not_hasServed_of_watch hkept hx hwatch hgone
  obtain ⟨hlast, ⟨p, s, hpoint⟩ | ⟨message, hpoint | hpoint⟩⟩ :=
    last_of_not_hasServed hkept hlt hserved
  · obtain rfl : s.session = number :=
      Nat.succ.inj ((hkept.current p s hpoint).trans hlast.symm)
    have hannounced := (hkept.sound s.session x hx).announced hwatch
    rw [stage?_of_serving hpoint, if_pos rfl] at hannounced
    have hopened : s.stage ≠ .opened := by
      intro heq
      rw [heq] at hannounced
      exact hannounced
    refine ⟨hlast, hpoint ▸ Stage.isShown_of_ne hopened, ?_⟩
    rw [hpoint]
    refine Stage.shows_eq_none hopened fun o ho => hserved ⟨hlt, ?_⟩
    rw [hpoint]
    exact fun _ => ⟨o, ho⟩
  · rw [hpoint]
    exact ⟨hlast, rfl, rfl⟩
  · rw [hpoint]
    exact ⟨hlast, rfl, rfl⟩

/-- What is queued while a session is served, or was broken off, tells of all
the sessions that were announced. -/
theorem announcement_mem {chosen : Option Parameters} {x : Sitting}
    (hplaced : Placed chosen m.sessions m.stories m.events m.point)
    (hinside : m.point.isInside = true) (hx : m.sessions[number]? = some x)
    (hannounced : Sitting.Announced (m.stage? number)) :
    x.session.announcement number ∈ m.events := by
  have hevents : m.events = .start :: m.stories := by
    generalize m.point = point at hplaced hinside
    cases point with
    | serving p s => exact hplaced.2.2
    | ending ending | gone ending =>
      cases ending with
      | returned result => cases hinside
      | panicked message => exact hplaced.2
    | _ => cases hinside
  obtain ⟨hlt, -⟩ := List.getElem?_eq_some_iff.1 hx
  rw [hevents]
  refine List.mem_cons_of_mem _ (List.mem_flatMap.2 ⟨number, List.mem_range.2 hlt, ?_⟩)
  rw [storyAt_of_getElem? hx, Sitting.story_eq hannounced]
  exact List.mem_cons_self

/-! ## The state while a session is served -/

/-- A step into a session that is shown is the one that shows it, or comes
from inside and shows nothing. -/
theorem showing_of_goes {point point' : Point} {sessions : List Sitting} {queued : List Event}
    (hgoes : m.Goes point point' sessions queued) (h : point'.isShowing = true) :
    point.shows = some .active ∨ point.isShowing = true ∧ point.shows = none := by
  cases hgoes with
  | connect p a card => cases h
  | @turn p s s' x x' queued hs' hx hturn =>
    by_cases hstage : s.stage = .opened
    · exact .inl (congrArg Stage.shows hstage)
    · exact .inr ⟨Stage.isShown_of_ne hstage, (shows_of_turn hturn).2 hstage⟩
  | @finish p s o hstage =>
    cases o with
    | removed => cases hmulti : p.multiSession <;> simp [onward, hmulti, Point.isShowing] at h
    | _ => cases h
  | _ => cases h

/-- A thread is broken off in a session that was shown, or by a step that leaves the sessions. -/
theorem broken_of_goes {point point' : Point} {sessions : List Sitting} {queued : List Event}
    (hgoes : m.Goes point point' sessions queued) (h : IsBroken point') :
    point.shows = none ∧ (point.isShowing = true ∨ sessions = m.sessions) := by
  cases hgoes with
  | @finish p s o hstage =>
    cases o with
    | removed => cases hmulti : p.multiSession <;> simp [onward, hmulti, IsBroken] at h
    | _ => exact h.elim
  | @panic p s message hstage =>
    have hshown : s.stage.isShown = true := by
      rcases Stage.cases_of_canPanic hstage with ⟨_, heq⟩ | ⟨_, _, heq⟩ <;> rw [heq] <;> rfl
    exact ⟨(Stage.plain_of_canPanic hstage).1, .inl hshown⟩
  | overflow p => exact ⟨rfl, .inr rfl⟩
  | exit ending => exact ⟨rfl, .inr rfl⟩
  | _ => exact h.elim

/-- No move but one of the runner's thread starts a watch. -/
theorem isWatched_of_step (hstep : m.step move = some m') (hmove : ∀ input, move ≠ .runner input)
    (h : m'.IsWatched number) : m.IsWatched number := by
  have hsame : ∀ {k : Nat} {x x' : Sitting}, m.sessions[k]? = some x →
      m'.sessions = m.sessions.set k x' → (∀ point, x'.watchPoint? = some point → point ≠ .gone →
        ∃ point, x.watchPoint? = some point ∧ point ≠ .gone) → m.IsWatched number := by
    intro k x x' hx hsessions hwatch
    obtain ⟨point, hpoint, hgone⟩ := h
    obtain ⟨hlt, -⟩ := List.getElem?_eq_some_iff.1 hx
    rw [watchPoint?, hsessions] at hpoint
    by_cases hk : k = number
    · subst hk
      rw [List.getElem?_set_self hlt, Option.bind_some] at hpoint
      obtain ⟨point', hpoint', hgone'⟩ := hwatch point hpoint hgone
      exact ⟨point', by rw [watchPoint?, hx, Option.bind_some, hpoint'], hgone'⟩
    · rw [List.getElem?_set_ne hk] at hpoint
      exact ⟨point, hpoint, hgone⟩
  cases happens_of_step hstep with
  | aside haside =>
    obtain ⟨point, hpoint, hgone⟩ := h
    rw [watchPoint?, haside.same.2.1] at hpoint
    exact ⟨point, hpoint, hgone⟩
  | publish k command hx =>
    refine hsame hx rfl fun point hpoint hgone => ⟨point, ?_, hgone⟩
    rw [← hpoint]
    unfold Sitting.publish
    split <;> rfl
  | @watch k input x w w' s' queued hx hwatch hturn =>
    refine hsame hx rfl fun point hpoint hgone => ⟨w.point, ?_, fun heq => ?_⟩
    · rw [Sitting.watchPoint?, hwatch]
      rfl
    · rw [heq] at hturn
      cases hturn
  | runner input hleads => exact absurd rfl (hmove input)

/-- **A session that is served is shown as active**, and so is one that has a watch, also after
a panic in it. -/
structure ShowsActive (m : Machine) : Prop where
  served : m.point.isShowing = true → m.state = .active
  watched : ∀ number, m.IsWatched number → m.state = .active

/-- A runner that is about to start. -/
theorem ShowsActive.initial (config : Config) (reader : String) :
    (initial config reader).ShowsActive where
  served := fun h => by cases h
  watched := fun number h => by
    obtain ⟨point, hpoint, -⟩ := h
    simp [watchPoint?, Machine.initial] at hpoint

/-- A step of the runner's thread keeps that. -/
theorem ShowsActive.runner (h : m.ShowsActive) (hkept' : m'.Kept preempted) {input : Input}
    (hstep : m.runner input = some m') : m'.ShowsActive := by
  obtain ⟨queued, hgoes, -, -⟩ := leads_of_runner hstep
  have hshows := (shows_of_runner hstep).state
  have hserved : m'.point.isShowing = true → m'.state = .active := by
    intro hshowing
    rcases showing_of_goes hgoes hshowing with heq | ⟨hbefore, heq⟩
    · obtain ⟨states, hentered⟩ := m.enter_eq .active
      rw [heq, Option.elim_some, hentered] at hshows
      exact hshows
    · rw [heq] at hshows
      exact hshows.trans (h.served hbefore)
  refine ⟨hserved, fun number hwatched => ?_⟩
  obtain ⟨-, hinside, -⟩ := inside_of_isWatched hkept' hwatched
  by_cases hshowing : m'.point.isShowing = true
  · exact hserved hshowing
  · obtain ⟨hnothing, hbefore⟩ :=
      broken_of_goes hgoes (isBroken_of_isInside hinside hshowing)
    rw [hnothing] at hshows
    rcases hbefore with hbefore | hsame
    · exact hshows.trans (h.served hbefore)
    · refine hshows.trans (h.watched number ?_)
      rwa [IsWatched, watchPoint?, ← hsame]

/-- **One move** keeps that. -/
theorem ShowsActive.step (h : m.ShowsActive) (hkept' : m'.Kept preempted)
    (hstep : m.step move = some m') : m'.ShowsActive := by
  rcases runner_or_idles hstep with ⟨input, rfl, hrunner⟩ | ⟨hother, hidles⟩
  · exact h.runner hkept' hrunner
  · refine ⟨fun hshowing => ?_, fun number hwatched => ?_⟩
    · exact hidles.state.trans (h.served (hidles.point ▸ hshowing))
    · exact hidles.state.trans (h.watched number (isWatched_of_step hstep hother hwatched))

/-- **A whole run** keeps that. -/
theorem showsActive_of_run {moves : List Move} (h : m.ShowsActive) (hkept : m.Kept preempted)
    (hrun : m.run moves = some m') : m'.ShowsActive :=
  (invariant_of_run (P := fun m => m.ShowsActive ∧ ∃ preempted, m.Kept preempted)
    (fun _ _ _ ⟨h, _, hkept⟩ hstep => ⟨h.step (hkept.step hstep) hstep, _, hkept.step hstep⟩)
    ⟨h, _, hkept⟩ hrun).1

/-- Only on the way to a card does the runner's thread use the reader. -/
theorem attempting_of_calls (hstep : m.step move = some m') (hcalls : m'.calls ≠ m.calls) :
    ∃ p a, m.point = .attempting p a := by
  rcases runner_or_idles hstep with ⟨input, rfl, hrunner⟩ | ⟨-, hidles⟩
  · rcases towards_or_silent hrunner with ⟨p, a, hpoint, -⟩ | ⟨-, hsilent⟩
    · exact ⟨p, a, hpoint⟩
    · exact absurd hsilent.calls hcalls
  · exact absurd hidles.calls hcalls

/-! ## The waits of a watch -/

/-- The watch of a session that has ended does not pass its check again, and
begins to wait only if it had passed it. -/
theorem heeding_of_advance {w w' : Watch} {s s' : Session} {input : Input} {queued : List Event}
    (h : w.advance s input = some (w', s', queued)) (hs : s.isConcluded = true) :
    w'.point ≠ .heeding ∧ (w'.point = .polling → w.point = .heeding) := by
  have hturn := Watch.turn_of_advance h
  cases hpoint : w.point with
  | checking =>
    cases input with
    | go =>
      simp only [Watch.advance, hpoint, hs] at h
      split at h
      · cases h
      · cases h
        exact ⟨nofun, nofun⟩
    | _ => simp [Watch.advance, hpoint] at h
  | heeding =>
    rw [hpoint] at hturn
    generalize w'.point = point' at hturn ⊢
    cases hturn with
    | heed point' hpoint' => exact ⟨by rcases hpoint' with rfl | rfl <;> nofun, fun _ => rfl⟩
  | _ =>
    rw [hpoint] at hturn
    generalize w'.point = point' at hturn ⊢
    cases hturn <;> exact ⟨nofun, nofun⟩

/-- A step of the runner's thread inside a session leaves its watch where it
is, or starts it. -/
theorem watchPoint?_of_turn {config : Config} {x x' : Sitting} {stage stage' : Stage}
    {queued : List Event} (h : Turn config number x stage stage' x' queued) :
    x'.watchPoint? = x.watchPoint? ∨
      stage = .hiring ∧ x'.watchPoint? = some .checking := by
  have hsend : ∀ (y : Sitting) (rest : Exchange Reply), (y.send rest).watchPoint? =
      y.watchPoint? := by
    intro y rest
    obtain ⟨sent, heq⟩ := y.send_eq rest
    rw [heq]
    rfl
  cases h with
  | hire => exact .inr ⟨rfl, rfl⟩
  | take command ticket hstage hslot => exact .inl (hsend _ _)
  | hear command resume reply => exact .inl (hsend _ _)
  | dismiss o w status stage' hwatch hstage' =>
    left
    rw [Sitting.watchPoint?, Sitting.watchPoint?, hwatch]
    rfl
  | interrupt o =>
    left
    rw [Sitting.watchPoint?, Sitting.watchPoint?]
    cases x.watch <;> rfl
  | _ => exact .inl rfl

/-- A watch moves on by its own steps only. -/
theorem watchPoint?_of_step (hstep : m.step move = some m')
    (hmove : ∀ input, move ≠ .watch number input) :
    m'.watchPoint? number = m.watchPoint? number ∨ m'.watchPoint? number = some .checking := by
  have hsees := sees_of_step hstep number
  unfold watchPoint?
  generalize m'.sessions[number]? = after, m'.stage? number = stage' at hsees
  cases hsees with
  | apart | leave | panic => exact .inl rfl
  | connect input card hx =>
    left
    rw [hx]
    rfl
  | publish command hx =>
    left
    rw [hx, Option.bind_some, Option.bind_some]
    unfold Sitting.publish
    split <;> rfl
  | watch input hx hwatch hturn => exact absurd rfl (hmove input)
  | turn input hx hstage hturn =>
    rw [hx]
    exact (watchPoint?_of_turn hturn).imp_right And.right

/-- **One move** in which the watch of a session that has ended begins to wait
uses up the check that it had passed. -/
theorem polls_step {x : Sitting} (hstep : m.step move = some m')
    (hx : m.sessions[number]? = some x) (hconcluded : x.session.isConcluded = true) :
    (if m.watchPoint? number ≠ some .polling ∧ m'.watchPoint? number = some .polling then 1 else 0)
      + (if m'.watchPoint? number = some .heeding then 1 else 0) ≤
    if m.watchPoint? number = some .heeding then 1 else 0 := by
  by_cases hmove : ∃ input, move = .watch number input
  · obtain ⟨input, rfl⟩ := hmove
    obtain ⟨x', w, w', s', queued, hx', hwatch, hadvance, rfl⟩ := watch_of_step hstep
    cases hx.symm.trans hx'
    obtain ⟨hlt, -⟩ := List.getElem?_eq_some_iff.1 hx
    have hbefore : m.watchPoint? number = some w.point := by
      rw [watchPoint?, hx, Option.bind_some, Sitting.watchPoint?, hwatch]
      rfl
    have hafter : watchPoint? { m with
        events := m.events ++ queued
        sessions := m.sessions.set number { x with session := s', watch := some w' } } number =
          some w'.point := by
      rw [watchPoint?, List.getElem?_set_self hlt]
      rfl
    obtain ⟨hheeding, hpolling⟩ := heeding_of_advance hadvance hconcluded
    rw [hbefore, hafter]
    simp only [Option.some.injEq, if_neg hheeding, Nat.add_zero]
    split
    · next hstarts => rw [if_pos (hpolling hstarts.2)]
    · exact Nat.zero_le _
  · rcases watchPoint?_of_step hstep fun input heq => hmove ⟨input, heq⟩ with heq | heq
    · rw [heq, if_neg fun h => h.1 h.2, Nat.zero_add]
    · simp [heq]

/-- **A watch begins no other wait** once its session has ended, except for one
whose check it had passed by then. -/
theorem polls_of_run {x : Sitting} {later : List Move} (hrun : m.run later = some m')
    (hx : m.sessions[number]? = some x) (hconcluded : x.session.isConcluded = true) :
    m.polls number later ≤ if m.watchPoint? number = some .heeding then 1 else 0 := by
  induction later generalizing m x with
  | nil => exact Nat.zero_le _
  | cons move later ih =>
    obtain ⟨m₁, hstep, hrun⟩ := run_cons_eq_some.1 hrun
    obtain ⟨x₁, hx₁, hlasts⟩ := lasts_of_step hstep hx
    have hrest := ih hrun hx₁ (hlasts.concluded hconcluded)
    have hfirst := polls_step hstep hx hconcluded
    rw [polls, hstep, Option.elim_some]
    omega

/-! ## Every run -/

/-- **How the watches of a machine keep apart** from each other, and from what
the runner's thread does with the reader. -/
structure Guarded (m : Machine) : Prop where
  /-- There is one watch at most. -/
  single : ∀ j k, m.IsWatched j → m.IsWatched k → j = k
  /-- The session of a watch was announced. -/
  announced : ∀ k, m.IsWatched k →
    ∃ x, m.sessions[k]? = some x ∧ x.session.announcement k ∈ m.events
  /-- It was not served to its end. -/
  unserved : ∀ k, m.IsWatched k → ¬ m.HasServed k
  /-- On the way to a card there is no watch. -/
  apart : ∀ p a, m.point = .attempting p a → ∀ k, ¬ m.IsWatched k
  /-- Only there does the runner's thread wait for the reader, or connect. -/
  calls : ∀ move m', m.step move = some m' → m'.calls ≠ m.calls →
    ∃ p a, m.point = .attempting p a
  /-- While there is a watch, the runner shows that it is active, and goes on
  to show that. -/
  active : ∀ k, m.IsWatched k → m.state = .active ∧
    ∀ move m', m.step move = some m' → m'.state = .active
  /-- After the end of a session its watch begins one more wait at most, and
  that only if it has passed the check before the wait. -/
  polls : ∀ k x, m.sessions[k]? = some x → x.session.isConcluded = true →
    ∀ later m', m.run later = some m' →
      m.polls k later ≤ if m.watchPoint? k = some .heeding then 1 else 0

/-- **A watch never overlaps with what the runner's thread does with the
reader**, in any run. -/
theorem watches_keep_apart (config : Config) (reader : String) (moves : List Move) (m : Machine)
    (hrun : (initial config reader).run moves = some m) : m.Guarded := by
  obtain ⟨chosen, hstoried, -⟩ := storied_of_run (.initial config reader) hrun
  obtain ⟨preempted, hkept⟩ := hstoried.kept
  refine
    { single := fun j k hj hk => ?_
      announced := fun k hk => ?_
      unserved := fun k hk => ?_
      apart := fun p a hpoint k hk => ?_
      calls := fun move m' => attempting_of_calls
      active := fun k hk => ?_
      polls := fun k x hx hconcluded later m' hlater => polls_of_run hlater hx hconcluded }
  · obtain ⟨hj, -⟩ := inside_of_isWatched hkept hj
    obtain ⟨hk, -⟩ := inside_of_isWatched hkept hk
    exact Nat.succ.inj (hj.trans hk.symm)
  · obtain ⟨-, hinside, -⟩ := inside_of_isWatched hkept hk
    obtain ⟨x, w, hx, hwatch, -⟩ := exists_of_isWatched hk
    exact ⟨x, hx, announcement_mem hstoried.placed hinside hx
      ((hkept.sound k x hx).announced hwatch)⟩
  · obtain ⟨x, w, hx, hwatch, hgone⟩ := exists_of_isWatched hk
    exact not_hasServed_of_watch hkept hx hwatch hgone
  · obtain ⟨-, hinside, -⟩ := inside_of_isWatched hkept hk
    rw [hpoint] at hinside
    cases hinside
  · obtain ⟨-, -, hshows⟩ := inside_of_isWatched hkept hk
    have hactive := (showsActive_of_run (.initial config reader) (.initial config reader)
      hrun).watched k hk
    refine ⟨hactive, fun move m' hstep => ?_⟩
    rcases runner_or_idles hstep with ⟨input, rfl, hrunner⟩ | ⟨-, hidles⟩
    · have hstate := (shows_of_runner hrunner).state
      rw [hshows] at hstate
      exact hstate.trans hactive
    · exact hidles.state.trans hactive

/-- The runner is stopped, and concludes the session while its watch has
passed the check and not begun to wait. -/
def lingering : List Move :=
  let go : Move := .runner .go
  [go, .deliver false, .resolve {}, go, go, go, go, .runner (.presence (.ok true)), go,
    .runner (.connection (.ok ⟨"Reader 0", [], .t1⟩)), go, go, .runner (.spawned none),
    .watch 0 .go, .stop, .raise, go, go, go, go, go, go, go]

/-- The watch waits once more, finds the card, and does not wait again. -/
theorem watches_keep_apart_lingering : ∃ m,
    (initial { idleTimeout := none } "Reader 0").run lingering = some m ∧
    m.sessions[0]?.map (fun x => x.session.isConcluded) = some true ∧
    m.watchPoint? 0 = some .heeding ∧
    m.polls 0 [.watch 0 .go, .watch 0 (.presence (.ok false)), .watch 0 .go, .watch 0 .go] = 1 ∧
    m.Guarded :=
  ⟨_, rfl, rfl, rfl, rfl, watches_keep_apart _ _ lingering _ rfl⟩

end Machine

end Runner

end SmartCard
