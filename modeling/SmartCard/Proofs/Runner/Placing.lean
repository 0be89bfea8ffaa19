import SmartCard.Proofs.Runner.Telling
/-!
# What is queued at each point

`Placed` says, for each point at which the runner's thread can stand, what
the sessions have come to and what has been queued. The application's choice
goes in as `chosen`: it decides whether there can be a second session.
`Grows` is what the other parties can do to that, and `placed_of_leads` and
`placed_of_watch` are the steps of the two kinds of thread.
-/

namespace SmartCard

namespace Runner

/-! ## What is queued at each point -/

/-- The application has chosen to go on after a removal. -/
def Many (chosen : Option Parameters) : Prop :=
  ∃ p, chosen = some p ∧ p.multiSession = true

/-- All sessions but the last ended with the removal of their cards, and there
is more than one only if the application has chosen so. -/
structure Earlier (chosen : Option Parameters) (sessions : List Sitting) : Prop where
  removed : ∀ (k : Nat) (x : Sitting), sessions[k]? = some x → k + 1 < sessions.length →
    x.Over .removed
  few : sessions.length ≤ 1 ∨ Many chosen

/-- The last session ended with this outcome. -/
structure Ended (chosen : Option Parameters) (sessions : List Sitting) (o : Outcome) : Prop where
  earlier : Earlier chosen sessions
  nonempty : 0 < sessions.length
  last : ∀ (k : Nat) (x : Sitting), sessions[k]? = some x → k + 1 = sessions.length → x.Over o

/-- All sessions ended with the removal of their cards, and there can be another. -/
structure Rested (chosen : Option Parameters) (sessions : List Sitting) : Prop where
  removed : ∀ (k : Nat) (x : Sitting), sessions[k]? = some x → x.Over .removed
  next : sessions.length = 0 ∨ Many chosen

/-- Where all sessions were removals, all but the last were. -/
theorem Rested.earlier {chosen : Option Parameters} {sessions : List Sitting}
    (h : Rested chosen sessions) : Earlier chosen sessions where
  removed := fun k x hx _ => h.removed k x hx
  few := h.next.imp_left fun hnone => Nat.le_trans (Nat.le_of_eq hnone) (Nat.zero_le 1)

/-- **How the sessions and the events fit a result.** The stories are those
of the sessions. -/
def Finished (chosen : Option Parameters) (sessions : List Sitting) (stories events : List Event) :
    Except TaskError Exit → Prop
  | .ok (.removed n) => n = 1 ∧ sessions.length = 1 ∧ Ended chosen sessions .removed ∧
      (∃ p, chosen = some p ∧ p.multiSession = false) ∧ events = .start :: stories
  | .ok (.fault e) => e ≠ .cancelled ∧
      (Rested chosen sessions ∧ events = .start :: (stories ++ [.failed e]) ∨
        ∃ o, o ≠ .removed ∧ o.reason = e ∧ Ended chosen sessions o ∧ events = .start :: stories)
  | .ok .cancelled => False
  | .error e => e = .cancelled ∧ (Rested chosen sessions ∨ Ended chosen sessions .cancelled) ∧
      events = .start :: stories

/-- **How the sessions and the events fit the point** of the runner's thread. -/
def Placed (chosen : Option Parameters) (sessions : List Sitting) (stories events : List Event) :
    Point → Prop
  | .opening => sessions = [] ∧ events = []
  | .negotiating | .receiving _ => sessions = [] ∧ events = .start :: stories
  | .attempting p _ => chosen = some p ∧ Rested chosen sessions ∧ events = .start :: stories
  | .serving p _ => chosen = some p ∧ Earlier chosen sessions ∧ events = .start :: stories
  | .stopping .cancelled => (Rested chosen sessions ∨ Ended chosen sessions .cancelled) ∧
      events = .start :: stories
  | .stopping (.fault e) | .failing e => e ≠ .cancelled ∧ Rested chosen sessions ∧
      events = .start :: stories
  | .terminating result | .ending (.returned result) | .gone (.returned result) =>
    Finished chosen sessions stories events result
  | .ending (.panicked _) | .gone (.panicked _) => Earlier chosen sessions ∧
      events = .start :: stories

/-! ## The other parties -/

section Growing

variable {chosen chosen' : Option Parameters} {sessions sessions' : List Sitting}
variable {stories events : List Event} {o : Outcome}

/-- What was chosen stays chosen, and a session that is over stays over. -/
structure Grows (chosen chosen' : Option Parameters) (sessions sessions' : List Sitting) :
    Prop where
  chosen : ∀ p, chosen = some p → chosen' = some p
  length : sessions'.length = sessions.length
  isOver : ∀ (k : Nat) (x' : Sitting), sessions'[k]? = some x' → ∃ x, sessions[k]? = some x ∧
    ∀ o, x.Over o → x'.Over o

variable (h : Grows chosen chosen' sessions sessions')

include h

theorem Grows.many (hm : Many chosen) : Many chosen' := by
  obtain ⟨p, hp, hmulti⟩ := hm
  exact ⟨p, h.chosen p hp, hmulti⟩

theorem Grows.earlier (he : Earlier chosen sessions) : Earlier chosen' sessions' where
  removed := fun k x' hx' hk => by
    obtain ⟨x, hx, hover⟩ := h.isOver k x' hx'
    exact hover _ (he.removed k x hx (h.length ▸ hk))
  few := by
    rw [h.length]
    exact he.few.imp_right h.many

theorem Grows.ended (he : Ended chosen sessions o) : Ended chosen' sessions' o where
  earlier := h.earlier he.earlier
  nonempty := h.length ▸ he.nonempty
  last := fun k x' hx' hk => by
    obtain ⟨x, hx, hover⟩ := h.isOver k x' hx'
    exact hover _ (he.last k x hx (h.length ▸ hk))

theorem Grows.rested (hr : Rested chosen sessions) : Rested chosen' sessions' where
  removed := fun k x' hx' => by
    obtain ⟨x, hx, hover⟩ := h.isOver k x' hx'
    exact hover _ (hr.removed k x hx)
  next := by
    rw [h.length]
    exact hr.next.imp_right h.many

theorem Grows.finished {result : Except TaskError Exit}
    (hf : Finished chosen sessions stories events result) :
    Finished chosen' sessions' stories events result := by
  unfold Finished at hf ⊢
  split at hf
  · obtain ⟨hn, hlength, hended, ⟨p, hp, hmulti⟩, hevents⟩ := hf
    exact ⟨hn, h.length.trans hlength, h.ended hended, ⟨p, h.chosen p hp, hmulti⟩, hevents⟩
  · obtain ⟨he, ⟨hrested, hevents⟩ | ⟨o, ho, hreason, hended, hevents⟩⟩ := hf
    · exact ⟨he, .inl ⟨h.rested hrested, hevents⟩⟩
    · exact ⟨he, .inr ⟨o, ho, hreason, h.ended hended, hevents⟩⟩
  · exact hf
  · obtain ⟨he, hor, hevents⟩ := hf
    exact ⟨he, hor.imp h.rested h.ended, hevents⟩

/-- Where the runner's thread stands does not depend on what others do. -/
theorem Grows.placed {point : Point} (hp : Placed chosen sessions stories events point) :
    Placed chosen' sessions' stories events point := by
  have hnil : sessions = [] → sessions' = [] :=
    fun heq => List.eq_nil_of_length_eq_zero (h.length.trans (by rw [heq]; rfl))
  unfold Placed at hp ⊢
  split at hp
  · exact ⟨hnil hp.1, hp.2⟩
  · exact ⟨hnil hp.1, hp.2⟩
  · exact ⟨hnil hp.1, hp.2⟩
  · exact ⟨h.chosen _ hp.1, h.rested hp.2.1, hp.2.2⟩
  · exact ⟨h.chosen _ hp.1, h.earlier hp.2.1, hp.2.2⟩
  · exact ⟨hp.1.imp h.rested h.ended, hp.2⟩
  · exact ⟨hp.1, h.rested hp.2.1, hp.2.2⟩
  · exact ⟨hp.1, h.rested hp.2.1, hp.2.2⟩
  · exact h.finished hp
  · exact h.finished hp
  · exact h.finished hp
  · exact ⟨h.earlier hp.1, hp.2⟩
  · exact ⟨h.earlier hp.1, hp.2⟩

end Growing

namespace Machine

variable {m m' : Machine} {preempted : Nat → Prop} {chosen : Option Parameters} {number : Nat}

/-! ## The runner's thread -/

/-- The stories do not change while the sessions and the stage are the same. -/
theorem stories_of_same (hsessions : m'.sessions = m.sessions)
    (hstage : ∀ k, m'.stage? k = m.stage? k) : m'.stories = m.stories := by
  refine stories_congr (by rw [hsessions]) fun k _ => ?_
  rw [storyAt, storyAt, hsessions, hstage]

/-- A new session has no story yet. -/
theorem stories_of_connect {p : Parameters} {card : CardData}
    (hserving : isServing m.point = false)
    (hpoint' : m'.point = .serving p { session := m.sessions.length })
    (hsessions : m'.sessions = m.sessions ++ [{ session := { card } }]) :
    m'.stories = m.stories := by
  have hlast : m'.storyAt m.sessions.length = [] := by
    rw [storyAt, hsessions, List.getElem?_concat_length, stage?, hpoint']
    simp only [if_true]
    rfl
  have hearlier : ∀ k < m.sessions.length, m'.storyAt k = m.storyAt k := by
    intro k hk
    rw [storyAt, storyAt, hsessions, List.getElem?_append_left hk, stage?_eq_none hserving, stage?,
      hpoint']
    simp only [if_neg (Nat.ne_of_gt hk)]
  unfold stories
  rw [hsessions, List.length_append, List.length_singleton, List.range_succ, List.flatMap_append,
    List.flatMap_singleton, hlast, List.append_nil]
  exact List.flatMap_congr fun k hk => hearlier k (List.mem_range.1 hk)

/-- Leaving a session that was announced tells nothing. -/
theorem stories_of_leave {p : Parameters} {s : Service} (hpoint : m.point = .serving p s)
    (hcalls : Stage.calls (some s.stage) = []) (hannounced : Sitting.Announced (some s.stage))
    (hserving' : isServing m'.point = false) (hsessions : m'.sessions = m.sessions) :
    m'.stories = m.stories := by
  refine stories_congr (by rw [hsessions]) fun k _ => ?_
  rw [storyAt, storyAt, hsessions, stage?_eq_none hserving', stage?, hpoint]
  cases m.sessions[k]? with
  | none => rfl
  | some x =>
    simp only [Option.elim_some]
    split
    · rw [Sitting.story_eq hannounced, Sitting.story_eq (show Sitting.Announced none from trivial),
        Sitting.calls, Sitting.calls, hcalls]
      rfl
    · rfl

/-- The runner's thread adds to the last story what it queues. -/
theorem stories_of_turn (hkept : m.Kept preempted) {p : Parameters} {s s' : Service}
    {x x' : Sitting} {queued : List Event} (hpoint : m.point = .serving p s)
    (hs' : s'.session = s.session) (hx : m.sessions[s.session]? = some x)
    (hturn : Turn m.config s.session x s.stage s'.stage x' queued)
    (hpoint' : m'.point = .serving p s') (hsessions : m'.sessions = m.sessions.set s.session x') :
    m'.stories = m.stories ++ queued := by
  have hsound := hkept.sound s.session x hx
  rw [stage?, hpoint] at hsound
  simp only [if_true] at hsound
  obtain ⟨hlt, -⟩ := List.getElem?_eq_some_iff.1 hx
  have hx' : m'.sessions[s.session]? = some x' := by
    rw [hsessions, List.getElem?_set_self hlt]
  refine stories_concat (by rw [hsessions, List.length_set]) (hkept.current p s hpoint) ?_ ?_
  · intro k hk
    rw [storyAt, storyAt, hsessions, List.getElem?_set_ne (Nat.ne_of_gt hk), stage?, stage?, hpoint,
      hpoint']
    simp only [hs', if_neg (Nat.ne_of_gt hk)]
  · rw [storyAt_of_getElem? hx', storyAt_of_getElem? hx, stage?, stage?, hpoint, hpoint']
    simp only [hs', if_true]
    exact Sitting.story_turn hsound hturn

/-- The session that the thread leaves is over. -/
theorem ended_of_served (hkept : m.Kept preempted) {p : Parameters} {s : Service}
    (hpoint : m.point = .serving p s) {o : Outcome} (hstage : s.stage = .served o)
    (he : Earlier chosen m.sessions) : Ended chosen m.sessions o := by
  have hcurrent := hkept.current p s hpoint
  refine ⟨he, hcurrent ▸ Nat.succ_pos _, fun k x hx hk => ?_⟩
  obtain rfl : k = s.session := Nat.succ.inj (hk.trans hcurrent.symm)
  have hsound := hkept.sound s.session x hx
  rw [stage?, hpoint] at hsound
  simp only [if_true, hstage] at hsound
  exact hsound.fits

/-- Nobody takes a cancellation for a failure. -/
theorem ne_cancelled_of_ended (hkept : m.Kept preempted) {o : Outcome}
    (hended : Ended chosen m.sessions o) : o ≠ .fault .cancelled := by
  have hnonempty := hended.nonempty
  obtain ⟨x, hx⟩ : ∃ x, m.sessions[m.sessions.length - 1]? = some x :=
    ⟨_, List.getElem?_eq_getElem (by omega)⟩
  have hover := hended.last _ x hx (by omega)
  intro heq
  exact (hkept.sound _ x hx).orderly.recorded (hover.1.trans (congrArg some heq))

/-- Without sessions there can be one. -/
theorem rested_nil {sessions : List Sitting} (hnil : sessions = []) : Rested chosen sessions where
  removed := fun k x hx => by
    rw [hnil] at hx
    cases hx
  next := .inl (hnil ▸ rfl)

/-- What remains after a removal that allows no further session. -/
theorem length_eq_one {sessions : List Sitting} {p : Parameters} {o : Outcome}
    (hended : Ended chosen sessions o) (hchosen : chosen = some p)
    (hmulti : ¬ p.multiSession = true) : sessions.length = 1 := by
  have hnonempty := hended.nonempty
  rcases hended.earlier.few with hfew | ⟨q, hq, hmany⟩
  · omega
  · rw [hchosen] at hq
    cases hq
    exact absurd hmany hmulti

/-- **Going on from a session**: what its outcome leads to fits. -/
theorem placed_onward {sessions : List Sitting} {stories events : List Event} {p : Parameters}
    {o : Outcome} (hended : Ended chosen sessions o) (hchosen : chosen = some p)
    (ho : o ≠ .fault .cancelled) (hevents : events = .start :: stories) :
    Placed chosen sessions stories events (onward p sessions.length o) := by
  cases o with
  | removed =>
    by_cases hmulti : p.multiSession = true
    · rw [onward, if_pos hmulti]
      refine ⟨hchosen, ⟨fun k x hx => ?_, .inr ⟨p, hchosen, hmulti⟩⟩, hevents⟩
      obtain ⟨hlt, -⟩ := List.getElem?_eq_some_iff.1 hx
      rcases Nat.lt_or_ge (k + 1) sessions.length with hearlier | hlast
      · exact hended.earlier.removed k x hx hearlier
      · exact hended.last k x hx (Nat.le_antisymm hlt hlast)
    · -- without a choice to go on there was one session
      rw [onward, if_neg hmulti]
      have hone := length_eq_one hended hchosen hmulti
      exact ⟨hone, hone, hended, ⟨p, hchosen, Bool.eq_false_iff.2 hmulti⟩, hevents⟩
  | idleTimeout limit =>
    exact ⟨by simp, .inr ⟨.idleTimeout limit, by simp, rfl, hended, hevents⟩⟩
  | fault e =>
    exact ⟨fun he => ho (congrArg Outcome.fault he), .inr ⟨.fault e, by simp, rfl, hended, hevents⟩⟩
  | cancelled => exact ⟨.inr hended, hevents⟩

/-- **A step of the runner's thread** leads to a point that fits. -/
theorem placed_of_leads (hkept : m.Kept preempted)
    (hplaced : Placed chosen m.sessions m.stories m.events m.point)
    (hsent : ∀ p, m.start.sent = some p → chosen = some p) (hleads : m.Leads m') :
    Placed chosen m'.sessions m'.stories m'.events m'.point := by
  obtain ⟨queued, hgoes, hevents, -⟩ := hleads
  generalize hpoint : m.point = point at hgoes hplaced
  generalize hpoint' : m'.point = point' at hgoes
  generalize hsessions : m'.sessions = sessions at hgoes
  rw [hevents]
  -- outside of the sessions the stories stay
  have hstories : sessions = m.sessions → isServing point = false → isServing point' = false →
      m'.stories = m.stories := by
    intro hsame hserving hserving'
    refine stories_of_same (hsessions.trans hsame) fun k => ?_
    rw [stage?_eq_none (hpoint' ▸ hserving'), stage?_eq_none (hpoint ▸ hserving)]
  -- and without an event nothing changes but the point
  have hquiet : sessions = m.sessions → isServing point = false → isServing point' = false →
      Placed chosen m.sessions m.stories m.events point' →
      Placed chosen sessions m'.stories (m.events ++ []) point' := by
    intro hsame hserving hserving' hplaced'
    rwa [hstories hsame hserving hserving', hsame, List.append_nil]
  cases hgoes with
  | ask =>
    obtain ⟨hnil, hnone⟩ := hplaced
    rw [hstories rfl rfl rfl, hnone]
    refine ⟨hnil, ?_⟩
    rw [stories, hnil]
    rfl
  | giveUp =>
    obtain ⟨hnil, hevents⟩ := hplaced
    exact hquiet rfl rfl rfl ⟨.inl (rested_nil hnil), hevents⟩
  | await deadline => exact hquiet rfl rfl rfl hplaced
  | again deadline => exact hquiet rfl rfl rfl hplaced
  | begin deadline p hp =>
    obtain ⟨hnil, hevents⟩ := hplaced
    exact hquiet rfl rfl rfl ⟨hsent p hp, rested_nil hnil, hevents⟩
  | aborted deadline =>
    obtain ⟨hnil, hevents⟩ := hplaced
    exact hquiet rfl rfl rfl ⟨nofun, rested_nil hnil, hevents⟩
  | attempt p a a' => exact hquiet rfl rfl rfl hplaced
  | connect p a card =>
    obtain ⟨hchosen, hrested, hevents⟩ := hplaced
    -- the sessions before the new one were removals, and the application wanted another
    rw [stories_of_connect (hpoint ▸ rfl) hpoint' hsessions, List.append_nil]
    refine ⟨hchosen, ⟨fun k x hx hk => ?_, ?_⟩, hevents⟩
    · rw [List.length_append, List.length_singleton] at hk
      rw [List.getElem?_append_left (Nat.lt_of_succ_lt_succ hk)] at hx
      exact hrested.removed k x hx
    · rw [List.length_append, List.length_singleton]
      exact hrested.next.imp_left fun hnil => Nat.le_of_eq (congrArg Nat.succ hnil)
  | leave p a why hwhy =>
    obtain ⟨hchosen, hrested, hevents⟩ := hplaced
    cases why with
    | cancelled => exact hquiet rfl rfl rfl ⟨.inl hrested, hevents⟩
    | fault e =>
      exact hquiet rfl rfl rfl ⟨fun he => hwhy (congrArg Stop.fault he), hrested, hevents⟩
  | turn hs' hx hturn =>
    obtain ⟨hchosen, hearlier, hevents⟩ := hplaced
    rw [stories_of_turn hkept hpoint hs' hx hturn hpoint' hsessions, hevents]
    refine ⟨hchosen, ⟨fun k y hy hk => ?_, ?_⟩, rfl⟩
    · have hcurrent := hkept.current _ _ hpoint
      rw [List.length_set] at hk
      rw [List.getElem?_set_ne (by omega)] at hy
      exact hearlier.removed k y hy hk
    · rw [List.length_set]
      exact hearlier.few
  | @finish p s o hstage =>
    obtain ⟨hchosen, hearlier, hevents⟩ := hplaced
    have hended := ended_of_served hkept hpoint hstage hearlier
    rw [stories_of_leave hpoint (by rw [hstage]; rfl) (by rw [hstage]; trivial)
      (hpoint' ▸ isServing_onward p m.sessions.length o) hsessions, List.append_nil]
    exact placed_onward hended hchosen (ne_cancelled_of_ended hkept hended) hevents
  | @panic p s message hstage =>
    obtain ⟨hchosen, hearlier, hevents⟩ := hplaced
    have hannounced : Sitting.Announced (some s.stage) := by
      rcases Stage.cases_of_canPanic hstage with ⟨_, heq⟩ | ⟨_, _, heq⟩ <;> rw [heq] <;> trivial
    rw [stories_of_leave hpoint (Stage.idle_of_canPanic hstage).1 hannounced
      (hpoint' ▸ rfl) hsessions, List.append_nil]
    exact ⟨hearlier, hevents⟩
  | overflow p =>
    obtain ⟨hchosen, hrested, hevents⟩ := hplaced
    exact hquiet rfl rfl rfl ⟨hrested.earlier, hevents⟩
  | cancelled => exact hquiet rfl rfl rfl ⟨rfl, hplaced⟩
  | failed e => exact hquiet rfl rfl rfl hplaced
  | tell e =>
    obtain ⟨he, hrested, hevents⟩ := hplaced
    rw [hstories rfl rfl rfl, hevents]
    exact ⟨he, .inl ⟨hrested, rfl⟩⟩
  | terminate result => exact hquiet rfl rfl rfl hplaced
  | exit ending =>
    cases ending with
    | returned result => exact hquiet rfl rfl rfl hplaced
    | panicked message => exact hquiet rfl rfl rfl hplaced

/-! ## Everybody -/

/-- Only the last session can be one that was not served to its end, and only
while the runner's thread is in it or was broken off in it. -/
theorem last_of_not_hasServed (hkept : m.Kept preempted) (hlt : number < m.sessions.length)
    (hserved : ¬ m.HasServed number) :
    number + 1 = m.sessions.length ∧ ((∃ p s, m.point = .serving p s) ∨
      ∃ message, m.point = .ending (.panicked message) ∨ m.point = .gone (.panicked message)) := by
  have hlast : ∀ {message : Option String},
      m.point = .ending (.panicked message) ∨ m.point = .gone (.panicked message) →
        number + 1 = m.sessions.length := by
    intro message hpoint
    by_contra hne
    refine hserved ⟨hlt, ?_⟩
    rcases hpoint with hpoint | hpoint
    · rw [hpoint]
      exact .inl (Nat.lt_of_le_of_ne hlt hne)
    · rw [hpoint]
      exact .inl (Nat.lt_of_le_of_ne hlt hne)
  by_cases houtside : IsOutside m.point
  · exact absurd (hasServed_of_isOutside houtside hlt) hserved
  · unfold IsOutside at houtside
    split at houtside
    · next p s hpoint =>
      refine ⟨?_, .inl ⟨p, s, hpoint⟩⟩
      by_cases hsame : s.session = number
      · rw [← hsame]
        exact hkept.current p s hpoint
      · refine absurd ⟨hlt, ?_⟩ hserved
        rw [hpoint]
        exact fun heq => absurd heq hsame
    · next message hpoint => exact ⟨hlast (.inl hpoint), .inr ⟨message, .inl hpoint⟩⟩
    · next message hpoint => exact ⟨hlast (.inr hpoint), .inr ⟨message, .inr hpoint⟩⟩
    · exact absurd trivial houtside

/-- A session whose watch is not gone was not served to its end. -/
theorem not_hasServed_of_watch (hkept : m.Kept preempted) {x : Sitting} {w : Watch}
    (hx : m.sessions[number]? = some x) (hwatch : x.watch = some w) (hpoint : w.point ≠ .gone) :
    ¬ m.HasServed number := by
  intro hserved
  obtain ⟨o, ho⟩ := hkept.isOver number x hx hserved
  exact hpoint (ho.2 w hwatch)

/-- A watch acts in the last session only, and only while that is served or
was broken off. -/
theorem watch_last (hkept : m.Kept preempted) {x : Sitting} {w : Watch} {point : Watch.Point}
    {s' : Session} {queued : List Event} (hx : m.sessions[number]? = some x)
    (hwatch : x.watch = some w) (hturn : Watch.Turn x.session w.point point s' queued) :
    number + 1 = m.sessions.length ∧ ((∃ p s, m.point = .serving p s) ∨
      ∃ message, m.point = .ending (.panicked message) ∨ m.point = .gone (.panicked message)) := by
  obtain ⟨hlt, -⟩ := List.getElem?_eq_some_iff.1 hx
  refine last_of_not_hasServed hkept hlt (not_hasServed_of_watch hkept hx hwatch fun hgone => ?_)
  rw [hgone] at hturn
  cases hturn

/-- **A step of a watch** leaves everything as it fits. -/
theorem placed_of_watch (hkept : m.Kept preempted)
    (hplaced : Placed chosen m.sessions m.stories m.events m.point) {x : Sitting} {w w' : Watch}
    {s' : Session} {queued : List Event} (hx : m.sessions[number]? = some x)
    (hwatch : x.watch = some w) (hturn : Watch.Turn x.session w.point w'.point s' queued)
    (hsessions : m'.sessions = m.sessions.set number { x with session := s', watch := some w' })
    (hevents : m'.events = m.events ++ queued) (hpoint' : m'.point = m.point) :
    Placed chosen m'.sessions m'.stories m'.events m'.point := by
  obtain ⟨hlast, hpoint⟩ := watch_last hkept hx hwatch hturn
  obtain ⟨hlt, -⟩ := List.getElem?_eq_some_iff.1 hx
  have hstage : ∀ k, m'.stage? k = m.stage? k := fun k => by rw [stage?, stage?, hpoint']
  have hstories : m'.stories = m.stories ++ queued := by
    refine stories_concat (by rw [hsessions, List.length_set]) hlast ?_ ?_
    · intro k hk
      rw [storyAt, storyAt, hsessions, List.getElem?_set_ne (Nat.ne_of_gt hk), hstage]
    · have hx' : m'.sessions[number]? = some { x with session := s', watch := some w' } := by
        rw [hsessions, List.getElem?_set_self hlt]
      rw [storyAt_of_getElem? hx', storyAt_of_getElem? hx, hstage]
      exact Sitting.story_watch (hkept.sound number x hx) hwatch hturn
  have hearlier : Earlier chosen m.sessions → Earlier chosen m'.sessions := by
    intro hearlier
    rw [hsessions]
    refine ⟨fun k y hy hk => ?_, ?_⟩
    · rw [List.length_set] at hk
      rw [List.getElem?_set_ne (by omega)] at hy
      exact hearlier.removed k y hy hk
    · rw [List.length_set]
      exact hearlier.few
  rw [hpoint', hstories, hevents]
  rcases hpoint with ⟨p, s, hpoint⟩ | ⟨message, hpoint | hpoint⟩
  · rw [hpoint] at hplaced ⊢
    exact ⟨hplaced.1, hearlier hplaced.2.1, congrArg (· ++ queued) hplaced.2.2⟩
  · rw [hpoint] at hplaced ⊢
    exact ⟨hearlier hplaced.1, congrArg (· ++ queued) hplaced.2⟩
  · rw [hpoint] at hplaced ⊢
    exact ⟨hearlier hplaced.1, congrArg (· ++ queued) hplaced.2⟩

/-- A client changes nothing of what fits. -/
theorem grows_of_publish {x : Sitting} (hx : m.sessions[number]? = some x) (command : Bytes) :
    Grows chosen chosen m.sessions (m.sessions.set number (x.publish command)) where
  chosen := fun _ h => h
  length := List.length_set
  isOver := fun k x' hx' => by
    rw [List.getElem?_set] at hx'
    split at hx'
    · next heq =>
      subst heq
      split at hx'
      · cases hx'
        exact ⟨x, hx, fun o ho => ho.publish command⟩
      · cases hx'
    · exact ⟨x', hx', fun _ ho => ho⟩

theorem stories_of_publish {x : Sitting} (hx : m.sessions[number]? = some x) (command : Bytes)
    (hsessions : m'.sessions = m.sessions.set number (x.publish command))
    (hpoint' : m'.point = m.point) : m'.stories = m.stories := by
  obtain ⟨hlt, -⟩ := List.getElem?_eq_some_iff.1 hx
  refine stories_congr (by rw [hsessions, List.length_set]) fun k _ => ?_
  rw [storyAt, storyAt, hsessions, stage?, stage?, hpoint']
  by_cases heq : number = k
  · subst heq
    rw [List.getElem?_set_self hlt, hx]
    exact x.story_publish command number _
  · rw [List.getElem?_set_ne heq]

end Machine

end Runner

end SmartCard
