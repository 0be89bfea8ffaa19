import SmartCard.Proofs.Runner.Runs
/-!
# What the application is told

The events of a run are queued by the runner's thread and by the watches.
`Sitting.story` reads off a session what has been queued about it: its
announcement, once it was made, and what its calls have told of the end. A
step of the runner's thread in the session, or of its watch, adds to the
story what it queues (`story_turn`, `story_watch`), and a client adds
nothing (`story_publish`). `Machine.stories` puts the sessions in order.
-/

namespace SmartCard

namespace Runner

open Conclusion

namespace Sitting

variable {x x' : Sitting} {config : Config} {preempted : Prop} {number : Nat}
variable {s' : Session} {queued : List Event}

/-- **What has been queued about a session**, for the stage at which the
runner's thread stands in it. -/
def story (x : Sitting) (number : Nat) : Option Stage → List Event
  | some .opened | some .announcing => []
  | stage => x.session.announcement number :: x.session.told (x.calls stage)

/-- The session has been announced when the runner's thread stands at this
stage, or at none any more. -/
def Announced : Option Stage → Prop
  | some .opened | some .announcing => False
  | _ => True

theorem story_eq {stage : Option Stage} (h : Announced stage) (x : Sitting) (number : Nat) :
    x.story number stage =
      x.session.announcement number :: x.session.told (x.calls stage) := by
  unfold story
  split
  · exact h.elim
  · exact h.elim
  · rfl

/-- The story of a session that was announced goes on with what is told. -/
theorem story_of_told {stage stage' : Option Stage} (hstage : Announced stage)
    (hstage' : Announced stage') (hcard : x'.session.card = x.session.card)
    (htold : x'.session.told (x'.calls stage') = x.session.told (x.calls stage) ++ queued) :
    x'.story number stage' = x.story number stage ++ queued := by
  rw [story_eq hstage, story_eq hstage', htold, Session.announcement, Session.announcement, hcard,
    List.cons_append]

/-- Sending a command tells nothing. -/
theorem story_send (x : Sitting) (rest : Exchange Reply) (number : Nat) (stage : Option Stage) :
    (x.send rest).story number stage = x.story number stage := by
  cases rest <;> rfl

/-- What is told does not change while the session has the same outcome and
the same calls are made. -/
theorem told_of_same {stage stage' : Option Stage} (hcalls : Stage.calls stage' = Stage.calls stage)
    (hwatching : x'.watching = x.watching) (houtcome : x'.session.outcome = x.session.outcome) :
    x'.session.told (x'.calls stage') = x.session.told (x.calls stage) ++ [] := by
  rw [List.append_nil, calls, calls, hcalls, hwatching, Session.told, Session.told, houtcome]

/-- **A step of the runner's thread** adds to the story what it queues. -/
theorem story_turn {stage stage' : Stage} (h : x.Sound config preempted (some stage))
    (hturn : Turn config number x stage stage' x' queued) :
    x'.story number (some stage') = x.story number (some stage) ++ queued := by
  have hlistening : ∀ {stage : Stage}, stage.isListening = true →
      Announced (some stage) ∧ Stage.calls (some stage) = [] := by
    intro stage hstage
    cases stage with
    | listening deadline => exact ⟨trivial, rfl⟩
    | asleep deadline => exact ⟨trivial, rfl⟩
    | _ => cases hstage
  cases hturn with
  | enter => rfl
  | announce =>
    have htold : x.session.told (x.calls (some .hiring)) = [] := by
      obtain ⟨hwatch, houtcome, -⟩ := h.fits
      rw [calls, watching, hwatch, Session.told, houtcome]
      rfl
    have hstory := story_eq (show Announced (some .hiring) from trivial) x number
    rw [htold] at hstory
    exact hstory
  | hire =>
    refine story_of_told trivial trivial rfl (told_of_same rfl ?_ rfl)
    rw [watching, watching, h.fits.1]
    rfl
  | unwatched problem => exact (List.append_nil _).symm
  | cancel => exact (List.append_nil _).symm
  | go => exact (List.append_nil _).symm
  | idle limit => exact (List.append_nil _).symm
  | listen slice => exact (List.append_nil _).symm
  | take command t hstage hslot =>
    obtain ⟨hannounced, hcalls⟩ := hlistening hstage
    rw [story_send]
    exact story_of_told hannounced trivial rfl (told_of_same hcalls.symm rfl rfl)
  | shut hstage hslot =>
    obtain ⟨hannounced, hcalls⟩ := hlistening hstage
    exact story_of_told hannounced trivial rfl (told_of_same hcalls.symm rfl rfl)
  | wait stage' hstage hstage' =>
    obtain ⟨hannounced, hcalls⟩ := hlistening hstage
    rcases hstage' with rfl | ⟨deadline, rfl⟩ <;>
      exact story_of_told hannounced trivial rfl (told_of_same hcalls.symm rfl rfl)
  | inquire hfree => exact (List.append_nil _).symm
  | hear command resume reply =>
    rw [story_send]
    exact (List.append_nil _).symm
  | settle result => exact (List.append_nil _).symm
  | release raw t hslot => exact (List.append_nil _).symm
  | stray raw hslot => exact (List.append_nil _).symm
  | fail e => exact (List.append_nil _).symm
  | resolve t answer => exact (List.append_nil _).symm
  | conclude hs hcall' =>
    exact story_of_told trivial trivial hs.card (h.orderly.lawful.told_advance hs)
  | concluded hs =>
    exact story_of_told trivial trivial hs.card (h.orderly.lawful.told_advance hs)
  | alone o hwatch => exact (List.append_nil _).symm
  | dismiss o w status stage' hwatch hstage' =>
    have hwatching : watching { x with watch := some { w with status } } = x.watching := by
      rw [watching, watching, hwatch]
      rfl
    rcases hstage' with rfl | rfl
    · exact story_of_told trivial trivial rfl (told_of_same rfl hwatching rfl)
    · exact story_of_told trivial trivial rfl (told_of_same rfl hwatching rfl)
  | interrupt o =>
    refine story_of_told trivial trivial rfl (told_of_same rfl ?_ rfl)
    rw [watching, watching]
    cases x.watch <;> rfl
  | join o hgone => exact (List.append_nil _).symm

/-- A session that has a watch was announced. -/
theorem Sound.announced {stage : Option Stage} {w : Watch} (h : x.Sound config preempted stage)
    (hwatch : x.watch = some w) : Announced stage := by
  have hfits := h.fits
  unfold Fits at hfits
  unfold Announced
  split
  · exact nomatch hwatch.symm.trans hfits.1
  · exact nomatch hwatch.symm.trans hfits.1
  · trivial

/-- So was one that has an outcome. -/
theorem Sound.announced_of_recorded {stage : Option Stage} {o : Outcome}
    (h : x.Sound config preempted stage) (ho : x.session.outcome = some o) : Announced stage := by
  have hfits := h.fits
  unfold Fits at hfits
  unfold Announced
  split
  · exact absurd (ho.symm.trans hfits.2.1) (by simp)
  · exact absurd (ho.symm.trans hfits.2.1) (by simp)
  · trivial

/-- **A step of the watch** adds to the story what it queues. -/
theorem story_watch {stage : Option Stage} {w w' : Watch} (h : x.Sound config preempted stage)
    (hwatch : x.watch = some w) (hturn : Watch.Turn x.session w.point w'.point s' queued) :
    story { x with session := s', watch := some w' } number stage =
      x.story number stage ++ queued := by
  have hannounced := h.announced hwatch
  have hcalls : x.calls stage = Stage.calls stage ++ w.point.calls := by
    rw [calls, watching, hwatch]
    rfl
  have hlawful := h.orderly.lawful
  rw [hcalls] at hlawful
  -- it is enough to compare what is told
  have hgoal : s'.card = x.session.card →
      s'.told (Stage.calls stage ++ w'.point.calls) =
        x.session.told (Stage.calls stage ++ w.point.calls) ++ queued →
      story { x with session := s', watch := some w' } number stage =
        x.story number stage ++ queued :=
    fun hcard htold => story_of_told hannounced hannounced hcard (hcalls ▸ htold)
  clear hcalls
  generalize hpoint : w.point = point at hturn hgoal hlawful
  generalize hpoint' : w'.point = point' at hturn hgoal
  cases hturn with
  | check point' hpoint' =>
    refine hgoal rfl ?_
    rcases hpoint' with rfl | rfl <;> exact (List.append_nil _).symm
  | heed point' hpoint' =>
    refine hgoal rfl ?_
    rcases hpoint' with rfl | rfl <;> exact (List.append_nil _).symm
  | still => exact hgoal rfl (List.append_nil _).symm
  | leave => exact hgoal rfl (List.append_nil _).symm
  | seek answer o ho =>
    refine hgoal rfl ?_
    change x.session.Lawful (Stage.calls stage ++ []) at hlawful
    change _ = x.session.told (Stage.calls stage ++ []) ++ []
    rw [List.append_nil] at hlawful
    rw [List.append_nil, List.append_nil]
    exact (hlawful.seek o).told_perm (List.perm_append_singleton _ _).symm
  | @conclude _ call call' _ hs hcall' =>
    refine hgoal hs.card ?_
    have hp : (Stage.calls stage ++ [call]).Perm (call :: Stage.calls stage) :=
      List.perm_append_singleton _ _
    have hnext := (hlawful.perm hp).advance hs
    have hp' : (call' :: Stage.calls stage).Perm (Stage.calls stage ++ [call']) :=
      (List.perm_append_singleton _ _).symm
    exact (hnext.told_perm hp').trans
      (((hlawful.perm hp).told_advance hs).trans (by rw [hlawful.told_perm hp]))
  | @concluded _ call o _ hs =>
    refine hgoal hs.card ?_
    have hp : (Stage.calls stage ++ [call]).Perm (call :: Stage.calls stage) :=
      List.perm_append_singleton _ _
    have htold := (hlawful.perm hp).told_advance hs
    rw [hlawful.told_perm hp] at htold
    exact (List.append_nil (Stage.calls stage)).symm ▸ htold

/-- A client adds nothing to the story. -/
theorem story_publish (x : Sitting) (command : Bytes) (number : Nat) (stage : Option Stage) :
    (x.publish command).story number stage = x.story number stage := by
  unfold Sitting.publish
  split
  · rfl
  · rfl

/-- What is told of a session that is over is its announcement and its end. -/
theorem story_of_over {o : Outcome} (h : x.Over o) (number : Nat) :
    x.story number none = [x.session.announcement number, o.event] := by
  rw [story_eq (show Announced none from trivial), Session.told, h.1]
  rfl

/-- What is told of a session is nothing, its announcement, or that and the
event of an outcome. -/
theorem story_cases (x : Sitting) (number : Nat) (stage : Option Stage) :
    x.story number stage = [] ∨ x.story number stage = [x.session.announcement number] ∨
      ∃ o, x.session.verdict (x.calls stage) = some o ∧
        x.story number stage = [x.session.announcement number, o.event] := by
  by_cases h : Announced stage
  · rw [story_eq h]
    rcases x.session.told_cases (x.calls stage) with htold | ⟨o, ho, htold⟩
    · exact .inr (.inl (by rw [htold]))
    · exact .inr (.inr ⟨o, ho, by rw [htold]⟩)
  · left
    unfold Announced at h
    split at h
    · rfl
    · rfl
    · exact absurd trivial h

end Sitting

namespace Machine

variable {m m' : Machine} {number : Nat}

/-- What has been queued about the session with this number. -/
def storyAt (m : Machine) (number : Nat) : List Event :=
  (m.sessions[number]?).elim [] fun x => x.story number (m.stage? number)

/-- What has been queued about the sessions, in order. -/
def stories (m : Machine) : List Event :=
  (List.range m.sessions.length).flatMap m.storyAt

theorem storyAt_of_getElem? {x : Sitting} (hx : m.sessions[number]? = some x) :
    m.storyAt number = x.story number (m.stage? number) := by
  rw [storyAt, hx]
  rfl

/-- The stories are the same if each of them is. -/
theorem stories_congr (hlength : m'.sessions.length = m.sessions.length)
    (h : ∀ k < m.sessions.length, m'.storyAt k = m.storyAt k) : m'.stories = m.stories := by
  unfold stories
  rw [hlength]
  exact List.flatMap_congr fun k hk => h k (List.mem_range.1 hk)

/-- **The stories go on where the last one does.** -/
theorem stories_concat {queued : List Event} (hlength : m'.sessions.length = m.sessions.length)
    (hnumber : number + 1 = m.sessions.length)
    (h : ∀ k < number, m'.storyAt k = m.storyAt k)
    (hlast : m'.storyAt number = m.storyAt number ++ queued) :
    m'.stories = m.stories ++ queued := by
  unfold stories
  rw [hlength, ← hnumber, List.range_succ, List.flatMap_append, List.flatMap_append,
    List.flatMap_singleton, List.flatMap_singleton, hlast, ← List.append_assoc]
  rw [List.flatMap_congr fun k hk => h k (List.mem_range.1 hk)]

end Machine

end Runner

end SmartCard
