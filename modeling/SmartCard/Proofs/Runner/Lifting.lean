import SmartCard.Proofs.Runner.Phases
import SmartCard.Proofs.Runner.Showing
import SmartCard.Proofs.Runner.Story
/-!
# Removals under transport errors

A reader reports that its card has left by an error among others, under
whatever contexts, and the session layer is to lift it out. `Lifted` says of
a session that whoever concludes it has done so: a failure that a session
ends with is not the removal of its card (`IsLifted`). Of the runner outside
of its sessions `Lifts` says what a fault can be that it stops with.

The lifting has one gap. A wait for the reader that fails stops the runner
with the error as it is, so that a removal met there is told as a failure, and
always so (`wait_tells_fault`).
-/

namespace SmartCard

/-- The error tells the removal of a card as a failure. -/
def SessionError.HidesRemoval : SessionError → Prop
  | .transport cause => cause.isCardRemoved = true
  | _ => False

namespace Outcome

/-- If the session ended with a failure, that is not the removal of its card. -/
def IsLifted : Outcome → Prop
  | .fault e => ∃ cause, e = .transport cause ∧ cause.isCardRemoved = false
  | _ => True

variable {o : Outcome}

theorem IsLifted.reason (h : o.IsLifted) : ¬ o.reason.HidesRemoval := by
  cases o with
  | fault e =>
    obtain ⟨cause, rfl, hcause⟩ := h
    intro hhides
    have hremoved : cause.isCardRemoved = true := hhides
    rw [hcause] at hremoved
    cases hremoved
  | removed => exact id
  | idleTimeout limit => exact id
  | cancelled => exact id

/-- What a failed exchange makes of its session is lifted. -/
theorem isLifted_ofError (e : ExchangeError) : (Outcome.ofError e).IsLifted := by
  unfold ofError
  split
  · trivial
  · next hremoved => exact ⟨e, rfl, Bool.eq_false_iff.2 hremoved⟩

end Outcome

namespace Runner

open Conclusion

/-- What a watch gives its session is lifted. -/
theorem isLifted_of_watch {answer : Except ExchangeError Bool} {o : Outcome}
    (h : Watch.outcome? answer = some o) : o.IsLifted := by
  unfold Watch.outcome? at h
  split at h
  · cases h
  · cases h
    trivial
  · next e =>
    cases h
    exact Outcome.isLifted_ofError e

/-! ## Sessions -/

namespace Sitting

variable {x x' : Sitting} {stage stage' : Option Stage} {call call' : Conclusion}
variable {s' : Session} {queued : List Event}

/-- **No removal is taken for a failure**, by whoever is concluding the session
or has done so. -/
structure Lifted (x : Sitting) (stage : Option Stage) : Prop where
  calls : ∀ call ∈ x.calls stage, call.outcome.IsLifted
  recorded : ∀ o, x.session.outcome = some o → o.IsLifted

/-- The calls are those of the runner's thread and those of the watch. -/
theorem lifted_of_calls (hstage : ∀ call ∈ Stage.calls stage, call.outcome.IsLifted)
    (hwatching : ∀ call ∈ x.watching, call.outcome.IsLifted)
    (hrecorded : ∀ o, x.session.outcome = some o → o.IsLifted) : x.Lifted stage := by
  refine ⟨fun call hcall => ?_, hrecorded⟩
  rcases List.mem_append.1 hcall with hcall | hcall
  · exact hstage call hcall
  · exact hwatching call hcall

/-- A step of a call gives the session nothing but the outcome of the call. -/
theorem isLifted_advance (hs : x.session.Advances call s' call' queued)
    (hcall : call.outcome.IsLifted) (hrecorded : ∀ o, x.session.outcome = some o → o.IsLifted) :
    call'.outcome.IsLifted ∧ ∀ o, s'.outcome = some o → o.IsLifted := by
  constructor
  · rcases hs.outcome_eq with heq | ⟨r, hr, rfl⟩
    · rw [heq]
      exact hcall
    · exact hrecorded r hr
  · intro o ho
    rcases hs.recorded with heq | heq
    · exact hrecorded o (heq ▸ ho)
    · rw [heq] at ho
      cases ho
      exact hcall

namespace Lifted

variable (h : x.Lifted stage)

include h

theorem ofStage : ∀ call ∈ Stage.calls stage, call.outcome.IsLifted :=
  fun call hcall => h.calls call (List.mem_append_left _ hcall)

theorem ofWatch : ∀ call ∈ x.watching, call.outcome.IsLifted :=
  fun call hcall => h.calls call (List.mem_append_right _ hcall)

/-- What the session has come to, or is about to, is lifted. -/
theorem verdict {o : Outcome} (ho : x.session.verdict (x.calls stage) = some o) :
    o.IsLifted := by
  rcases Option.or_eq_some_iff.1 ho with ho | ⟨-, ho⟩
  · exact h.recorded o ho
  · obtain ⟨call, hholder, hgiving⟩ := Option.bind_eq_some_iff.1 ho
    have hcall := h.calls call (List.mem_of_find?_eq_some hholder)
    cases call with
    | seeking o' => cases hgiving
    | returned o' => cases hgiving
    | _ =>
      cases hgiving
      exact hcall

/-- A step that leaves the watch and the outcome as they are. -/
theorem stay (hstage : ∀ call ∈ Stage.calls stage', call.outcome.IsLifted)
    (hwatching : ∀ call ∈ x'.watching, call ∈ x.watching)
    (houtcome : x'.session.outcome = x.session.outcome) : x'.Lifted stage' := by
  refine lifted_of_calls hstage (fun call hcall => ?_) fun o ho => ?_
  · exact h.ofWatch call (hwatching call hcall)
  · exact h.recorded o (houtcome ▸ ho)

/-- Sending a command changes nothing of it. -/
theorem send (rest : Exchange Reply) : (x.send rest).Lifted stage := by
  cases rest <;> exact ⟨h.calls, h.recorded⟩

/-- A client changes nothing of it. -/
theorem publish (command : Bytes) : (x.publish command).Lifted stage := by
  unfold Sitting.publish
  split <;> exact ⟨h.calls, h.recorded⟩

/-- Nor does the runner's thread by leaving the session. -/
theorem leave : x.Lifted none :=
  h.stay (fun _ hcall => by cases hcall) (fun _ => id) rfl

/-- **A step of the watch** takes no removal for a failure. -/
theorem watch {w w' : Watch} (hwatch : x.watch = some w)
    (hturn : Watch.Turn x.session w.point w'.point s' queued) :
    Lifted { x with session := s', watch := some w' } stage := by
  have hofWatch := h.ofWatch
  rw [watching, hwatch, Option.elim_some] at hofWatch
  generalize hpoint' : w'.point = point' at hturn
  generalize w.point = point at hturn hofWatch
  -- it is enough to look at the call that the watch then makes
  have hcalls : (∀ call ∈ point'.calls, call.outcome.IsLifted) →
      (∀ o, s'.outcome = some o → o.IsLifted) →
      Lifted { x with session := s', watch := some w' } stage := by
    intro hcalls hrecorded
    refine lifted_of_calls h.ofStage (fun call hcall => ?_) hrecorded
    rw [watching, Option.elim_some, hpoint'] at hcall
    exact hcalls call hcall
  have hnone : point'.calls = [] → (∀ o, s'.outcome = some o → o.IsLifted) →
      Lifted { x with session := s', watch := some w' } stage := by
    intro hnil
    refine hcalls fun call hcall => ?_
    rw [hnil] at hcall
    cases hcall
  cases hturn with
  | check point' hpoint => exact hnone (by rcases hpoint with rfl | rfl <;> rfl) h.recorded
  | heed point' hpoint => exact hnone (by rcases hpoint with rfl | rfl <;> rfl) h.recorded
  | still => exact hnone rfl h.recorded
  | leave => exact hnone rfl h.recorded
  | seek answer o ho =>
    refine hcalls (fun call hcall => ?_) h.recorded
    rw [List.mem_singleton.1 hcall]
    exact isLifted_of_watch ho
  | conclude hadvance hcall' =>
    obtain ⟨hcall, hrecorded⟩ :=
      isLifted_advance hadvance (hofWatch _ List.mem_cons_self) h.recorded
    refine hcalls (fun call hmem => ?_) hrecorded
    rw [List.mem_singleton.1 hmem]
    exact hcall
  | concluded hadvance =>
    obtain ⟨-, hrecorded⟩ :=
      isLifted_advance hadvance (hofWatch _ List.mem_cons_self) h.recorded
    exact hnone rfl hrecorded

end Lifted

/-- A runner concludes a session with what its failed exchange makes of it. -/
theorem isLifted_of_answering {config : Config} {preempted : Prop} {e : SessionError}
    (h : x.Sound config preempted (some (.answering (.error e)))) :
    (Machine.outcomeOf e).IsLifted := by
  obtain ⟨earlier, T, result, -, -, hresult, hanswer⟩ := h.fits
  rcases answerOf_cases T hresult with ⟨raw, hraw, -, -⟩ | ⟨cause, -, hcause⟩
  · rw [hanswer] at hraw
    cases hraw
  · obtain rfl : e = .ofExchange cause := Except.error.inj (hanswer.symm.trans hcause)
    rw [outcomeOf_ofExchange]
    exact Outcome.isLifted_ofError cause

/-- **A step of the runner's thread** takes no removal for a failure. -/
theorem Lifted.turn {config : Config} {number : Nat} {preempted : Prop} {stage stage' : Stage}
    (h : x.Lifted (some stage)) (hs : x.Sound config preempted (some stage))
    (hturn : Turn config number x stage stage' x' queued) : x'.Lifted (some stage') := by
  have hnone : ∀ call ∈ ([] : List Conclusion), call.outcome.IsLifted := by simp
  have hsame : ∀ call ∈ x.watching, call ∈ x.watching := fun _ => id
  -- a step by which the runner comes to conclude the session
  have hseek : ∀ o : Outcome, o.IsLifted → x.Lifted (some (.concluding (.seeking o))) := by
    intro o ho
    refine h.stay (fun call hcall => ?_) hsame rfl
    rw [List.mem_singleton.1 hcall]
    exact ho
  cases hturn with
  | unwatched problem => exact hseek _ ⟨_, rfl, rfl⟩
  | cancel => exact hseek _ trivial
  | idle limit => exact hseek _ trivial
  | fail e => exact hseek _ (isLifted_of_answering hs)
  | conclude hadvance hcall' =>
    obtain ⟨hcall, hrecorded⟩ :=
      isLifted_advance hadvance (h.ofStage _ List.mem_cons_self) h.recorded
    refine lifted_of_calls (fun call hmem => ?_) h.ofWatch hrecorded
    rw [List.mem_singleton.1 hmem]
    exact hcall
  | concluded hadvance =>
    obtain ⟨-, hrecorded⟩ :=
      isLifted_advance hadvance (h.ofStage _ List.mem_cons_self) h.recorded
    exact lifted_of_calls hnone h.ofWatch hrecorded
  | hire => exact h.stay hnone (fun call hcall => by cases hcall) rfl
  | take command t hstage hslot =>
    refine Lifted.send ?_ _
    exact h.stay hnone hsame rfl
  | hear command resume reply =>
    refine Lifted.send ?_ _
    exact h.stay hnone hsame rfl
  | wait stage' hstage hstage' =>
    have hcalls : Stage.calls (some stage') = [] := by
      rcases hstage' with rfl | ⟨deadline, rfl⟩ <;> rfl
    exact h.stay (by rw [hcalls]; exact hnone) hsame rfl
  | dismiss o w status stage' hwatch hstage' =>
    have hcalls : Stage.calls (some stage') = [] := by rcases hstage' with rfl | rfl <;> rfl
    refine h.stay (by rw [hcalls]; exact hnone) (fun call hcall => ?_) rfl
    rw [watching, hwatch]
    exact hcall
  | interrupt o =>
    refine h.stay hnone (fun call hcall => ?_) rfl
    rw [watching] at hcall ⊢
    cases hwatch : x.watch with
    | none => simp [hwatch] at hcall
    | some w => simpa [hwatch] using hcall
  | _ => exact h.stay hnone hsame rfl

/-- **An answer hides no removal.** -/
theorem Lifted.answer {loose : List Ticket} (h : x.Lifted stage)
    (horderly : x.Orderly (x.calls stage) loose) {t : Ticket} {e : SessionError}
    (hpoll : x.session.rendezvous.poll t = some (.error e)) : ¬ e.HidesRemoval := by
  obtain ⟨o, ho, rfl⟩ := horderly.answers t (.error e) hpoll
  exact (h.verdict ho).reason

/-- **What is told of a session hides no removal.** -/
theorem Lifted.story (h : x.Lifted stage) {number : Nat} {e : SessionError}
    (hmem : .failed e ∈ x.story number stage) : ¬ e.HidesRemoval := by
  rcases x.story_cases number stage with heq | heq | ⟨o, ho, heq⟩
  · rw [heq] at hmem
    cases hmem
  · rw [heq] at hmem
    cases List.mem_singleton.1 hmem
  · rw [heq] at hmem
    have hreason := (h.verdict ho).reason
    cases o with
    | removed => simp [Session.announcement, Outcome.event] at hmem
    | _ =>
      obtain rfl : e = _ := by simpa [Session.announcement, Outcome.event] using hmem
      exact hreason

end Sitting

/-! ## The runner -/

/-- The fault that a result is. -/
def faultOf? : Except TaskError Exit → Option SessionError
  | .ok (.fault e) => some e
  | _ => none

/-- The fault that the runner stops with. -/
def Point.fault? : Point → Option SessionError
  | .stopping (.fault e) | .failing e => some e
  | .terminating result | .ending (.returned result) | .gone (.returned result) => faultOf? result
  | _ => none

/-- If a fault hides a removal, then the runner's last call to the reader was a
wait that failed with it. -/
def Explained (calls : List Call) (e : SessionError) : Prop :=
  e.HidesRemoval → ∃ present cause, e = .transport cause ∧
    calls.getLast? = some (.presence present (.error cause))

namespace Machine

variable {m m' : Machine} {chosen : Option Parameters} {preempted : Nat → Prop} {move : Move}

/-- **What can hide a removal** in a machine. -/
structure Lifts (m : Machine) : Prop where
  sessions : ∀ number (x : Sitting), m.sessions[number]? = some x → x.Lifted (m.stage? number)
  fault : ∀ e, m.point.fault? = some e → Explained m.calls e

/-- A runner that is about to start. -/
theorem Lifts.initial (config : Config) (reader : String) : (initial config reader).Lifts where
  sessions := fun number x hx => by simp [Machine.initial] at hx
  fault := fun e he => by cases he

/-- What one move does to one session takes no removal for a failure. -/
theorem Lifts.sees (h : m.Lifts) (hkept : m.Kept preempted) {number : Nat} {x' : Sitting}
    {after : Option Sitting} {stage' : Option Stage} (hsees : m.Sees number move after stage')
    (hx' : after = some x') : x'.Lifted stage' := by
  cases hsees with
  | apart => exact h.sessions number x' hx'
  | connect input card hx =>
    cases hx'
    exact Sitting.lifted_of_calls (fun _ hcall => by cases hcall) (fun _ hcall => by cases hcall)
      fun _ ho => by cases ho
  | publish command hx =>
    cases hx'
    exact (h.sessions number _ hx).publish command
  | watch input hx hwatch hturn =>
    cases hx'
    exact (h.sessions number _ hx).watch hwatch hturn
  | turn input hx hstage hturn =>
    cases hx'
    have hlifted := h.sessions number _ hx
    have hsound := hkept.sound number _ hx
    rw [hstage] at hlifted hsound
    exact hlifted.turn hsound hturn
  | leave => exact (h.sessions number x' hx').leave
  | panic => exact (h.sessions number x' hx').leave

/-- An error that hides no removal needs no explanation. -/
theorem explained_of_not {calls : List Call} {e : SessionError} (h : ¬ e.HidesRemoval) :
    Explained calls e :=
  fun hhides => absurd hhides h

/-- What the runner goes on to from a session hides no removal. -/
theorem not_hidesRemoval_of_onward {p : Parameters} {n : Nat} {o : Outcome} {e : SessionError}
    (ho : o.IsLifted) (he : (onward p n o).fault? = some e) : ¬ e.HidesRemoval := by
  have hreason := ho.reason
  cases o with
  | removed =>
    cases hmulti : p.multiSession <;> simp [onward, hmulti, Point.fault?, faultOf?] at he
  | cancelled => cases he
  | idleTimeout limit =>
    cases he
    exact hreason
  | fault e' =>
    cases he
    exact hreason

/-- The session that the runner leaves ended as lifted. -/
theorem Lifts.ofEnded (h : m.Lifts) {o : Outcome} (hended : Ended chosen m.sessions o) :
    o.IsLifted := by
  have hnonempty := hended.nonempty
  obtain ⟨x, hx⟩ : ∃ x, m.sessions[m.sessions.length - 1]? = some x :=
    ⟨_, List.getElem?_eq_getElem (by omega)⟩
  have hover := hended.last _ x hx (by omega)
  exact (h.sessions _ x hx).recorded o hover.1

/-- A step of the runner's thread leads to a fault that is explained. -/
theorem Lifts.fault_of_runner (h : m.Lifts) (hkept : m.Kept preempted)
    (hearlier : Earlier chosen m.sessions) {input : Input} (hstep : m.runner input = some m')
    {e : SessionError} (he : m'.point.fault? = some e) : Explained m'.calls e := by
  rcases towards_or_silent hstep with ⟨p, a, hpoint, call, happroaches, hcalls, -⟩ | ⟨hnot, hsilent⟩
  · generalize m'.point = point' at happroaches he
    cases happroaches with
    | fail present cause =>
      cases he
      intro _
      refine ⟨present, cause, rfl, ?_⟩
      rw [hcalls]
      exact List.getLast?_concat
    | refuse cause hcause =>
      cases he
      refine explained_of_not fun hhides => ?_
      have hremoved : cause.isCardRemoved = true := hhides
      rw [hcause] at hremoved
      cases hremoved
    | _ => cases he
  · -- elsewhere the reader is asked nothing, and the fault is the same or lifted
    have hfault := h.fault
    obtain ⟨queued, hgoes, -, -⟩ := leads_of_runner hstep
    rw [hsilent.calls]
    clear hsilent
    generalize hpoint : m.point = point at hgoes hfault hnot
    generalize m'.point = point' at hgoes he
    generalize m'.sessions = sessions at hgoes
    cases hgoes with
    | aborted deadline =>
      cases he
      exact explained_of_not id
    | failed e' => exact hfault e he
    | tell e' => exact hfault e he
    | terminate result => exact hfault e he
    | exit ending =>
      cases ending with
      | returned result => exact hfault e he
      | panicked message => cases he
    | attempt p a a' => exact absurd rfl (hnot p a)
    | leave p a why hwhy => exact absurd rfl (hnot p a)
    | @finish p s o hstage =>
      have hended := ended_of_served hkept hpoint hstage hearlier
      exact explained_of_not (not_hidesRemoval_of_onward (h.ofEnded hended) he)
    | _ => cases he

/-- **One move** hides no removal, unless by a failed wait. -/
theorem Lifts.step (h : m.Lifts) (hstoried : m.Storied chosen) (hstep : m.step move = some m') :
    m'.Lifts := by
  obtain ⟨preempted, hkept⟩ := hstoried.kept
  refine ⟨fun number x' hx' => h.sees hkept (sees_of_step hstep number) hx', fun e he => ?_⟩
  rcases runner_or_idles hstep with ⟨input, rfl, hrunner⟩ | ⟨-, hidles⟩
  · exact h.fault_of_runner hkept (earlier_of_placed hstoried.placed).1 hrunner he
  · rw [hidles.calls]
    exact h.fault e (hidles.point ▸ he)

/-- **A whole run.** -/
theorem Lifts.run {moves : List Move} (h : m.Lifts) (hstoried : m.Storied chosen)
    (hrun : m.run moves = some m') : m'.Lifts := by
  refine (invariant_of_run (P := fun m => m.Lifts ∧ ∃ chosen, m.Storied chosen) ?_
    ⟨h, chosen, hstoried⟩ hrun).1
  rintro m₁ m₂ move ⟨h, chosen, hstoried⟩ hstep
  obtain ⟨chosen₁, hstoried₁, -⟩ := hstoried.step hstep
  exact ⟨h.step hstoried hstep, chosen₁, hstoried₁⟩

/-! ## What is told -/

/-- A failure that is not in the stories of the sessions is the fault of the runner. -/
theorem fault?_of_placed {sessions : List Sitting} {stories events : List Event} {point : Point}
    {e : SessionError} (h : Placed chosen sessions stories events point)
    (hmem : .failed e ∈ events) (hstories : .failed e ∉ stories) : point.fault? = some e := by
  have hquiet : events = .start :: stories → point.fault? = some e := by
    rintro rfl
    rcases List.mem_cons.1 hmem with heq | hmem
    · cases heq
    · exact absurd hmem hstories
  have hfinished : ∀ result, Finished chosen sessions stories events result →
      events = .start :: stories ∨ faultOf? result = some e := by
    intro result h
    unfold Finished at h
    split at h
    · exact .inl h.2.2.2.2
    · obtain ⟨-, ⟨-, hevents⟩ | ⟨o, -, -, -, hevents⟩⟩ := h
      · right
        rw [hevents] at hmem
        simp only [List.mem_cons, reduceCtorEq, List.mem_append, Event.failed.injEq, hstories,
          List.not_mem_nil, or_false, false_or] at hmem
        rw [hmem]
        rfl
      · exact .inl hevents
    · exact h.elim
    · exact .inl h.2.2
  unfold Placed at h
  split at h
  · rw [h.2] at hmem
    cases hmem
  · exact hquiet h.2
  · exact hquiet h.2
  · exact hquiet h.2.2
  · exact hquiet h.2.2
  · exact hquiet h.2
  · exact hquiet h.2.2
  · exact hquiet h.2.2
  · exact (hfinished _ h).elim hquiet id
  · exact (hfinished _ h).elim hquiet id
  · exact (hfinished _ h).elim hquiet id
  · exact hquiet h.2
  · exact hquiet h.2

/-- A failure that is told of the sessions hides no removal. -/
theorem Lifts.stories (h : m.Lifts) {e : SessionError} (hmem : .failed e ∈ m.stories) :
    ¬ e.HidesRemoval := by
  obtain ⟨k, hk, hmem⟩ := List.mem_flatMap.1 hmem
  have hx := List.getElem?_eq_getElem (List.mem_range.1 hk)
  rw [storyAt_of_getElem? hx] at hmem
  exact (h.sessions k _ hx).story hmem

/-- A wait for the reader that fails stops the runner with the error as it is. -/
theorem wait_tells_fault {p : Parameters} {present : Bool}
    (hpoint : m.point = .attempting p (.waiting present)) (cause : ExchangeError) :
    ∃ m', m.run [.runner (.presence (.error cause)), .runner .go, .runner .go, .runner .go,
        .runner .go] = some m' ∧
      m'.point = .gone (.returned (.ok (.fault (.transport cause)))) ∧
      m'.events = m.events ++ [.failed (.transport cause)] := by
  -- the wait fails, the fault is shown, told and returned, and the thread goes
  let stopped := (m.log (.presence present (.error cause))).goto
    (.stopping (.fault (.transport cause)))
  let failing := (stopped.enter .fault).goto (.failing (.transport cause))
  let told := (failing.queue [.failed (.transport cause)]).goto
    (.terminating (.ok (.fault (.transport cause))))
  let ended := (told.enter .terminated).goto (.ending (.returned (.ok (.fault (.transport cause)))))
  have hfirst : m.step (.runner (.presence (.error cause))) = some stopped := by
    simp only [Machine.step, runner, hpoint, attempt]
    rfl
  obtain ⟨states, hfault⟩ := stopped.enter_eq .fault
  obtain ⟨states', hterminated⟩ := told.enter_eq .terminated
  refine ⟨{ ended with
    point := .gone (.returned (.ok (.fault (.transport cause))))
    task := ended.task.complete }, ?_, rfl, ?_⟩
  · rw [run_cons_eq_some]
    exact ⟨stopped, hfirst, rfl⟩
  · change (told.enter .terminated).events = _
    rw [hterminated]
    change (stopped.enter .fault).events ++ [.failed (.transport cause)] = _
    rw [hfault]
    rfl

end Machine

end Runner

end SmartCard
