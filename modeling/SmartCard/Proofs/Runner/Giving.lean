import SmartCard.Proofs.Runner.Lasting
import SmartCard.Proofs.Runner.Lifting
/-!
# Who gives a session its outcome

The runner's thread and the watch of a session both conclude it, and clients do not. What
one step of either is for its call, `Calling` says of both in the same way. `Gives` says
that a session has an outcome or that somebody is about to give it. One move brings an
outcome in two ways only (`gives_of_step`): the thread comes to seek the latch for it, or
the reader's answer to the watch does. A session that the thread has begun to conclude it
never serves again (`parting_of_run`).
-/

namespace SmartCard

/-- Nobody takes idleness for a failure. -/
theorem Outcome.IsLifted.eq_idleTimeout {o : Outcome} {limit : Duration} (h : o.IsLifted)
    (hreason : o.reason = .idleTimeout limit) : o = .idleTimeout limit := by
  cases o with
  | fault e =>
    obtain ⟨cause, rfl, -⟩ := h
    cases hreason
  | idleTimeout limit' =>
    cases hreason
    rfl
  | _ => cases hreason

namespace Runner

/-! ## The calls in one step -/

/-- **The watch's calls in one step**: after it the watch makes none, or it has come to
seek the latch, or its call has taken a step. -/
inductive Watch.Calling (s : Session) (point point' : Watch.Point) (s' : Session)
    (queued : List Event) : Prop
  | none (hcalls : point'.calls = []) (hs' : s' = s)
  | seek (answer : Except ExchangeError Bool) (o : Outcome) (ho : Watch.outcome? answer = some o)
    (hpoint' : point' = .concluding (.seeking o)) (hs' : s' = s)
  | advance (call call' : Conclusion) (hs : s.Advances call s' call' queued)
    (hpoint : point = .concluding call)
    (hcalls : ∀ other ∈ point'.calls, other = call' ∧ ∀ o, call' ≠ .returned o)

theorem Watch.calling_of_turn {s s' : Session} {point point' : Watch.Point} {queued : List Event}
    (hturn : Watch.Turn s point point' s' queued) : Watch.Calling s point point' s' queued := by
  cases hturn with
  | check point' hpoint => exact .none (by rcases hpoint with rfl | rfl <;> rfl) rfl
  | heed point' hpoint => exact .none (by rcases hpoint with rfl | rfl <;> rfl) rfl
  | still => exact .none rfl rfl
  | leave => exact .none rfl rfl
  | seek answer o ho => exact .seek answer o ho rfl rfl
  | conclude hs hcall' =>
    exact .advance _ _ hs rfl fun other hother => ⟨List.mem_singleton.1 hother, hcall'⟩
  | concluded hs => exact .advance _ _ hs rfl fun other hother => by cases hother

/-- **The thread's calls in one step**: after it the thread makes none, or it has come to
seek the latch, or its call has taken a step. An answer that it gives otherwise is the
one that it is about to give. -/
inductive Sitting.Calling (x : Sitting) (stage stage' : Stage) (x' : Sitting)
    (queued : List Event) : Prop
  | none (hcalls : Stage.calls (some stage') = [])
    (houtcome : x'.session.outcome = x.session.outcome)
    (hanswers : x'.session.rendezvous.resolved = x.session.rendezvous.resolved ∨
      ∃ t answer, stage = .resolving t answer ∧ x' = x.onRendezvous fun r => r.resolve t answer)
  | seek (o : Outcome) (hstage' : stage' = .concluding (.seeking o)) (hx' : x' = x)
  | advance (call call' : Conclusion) (s' : Session)
    (hs : x.session.Advances call s' call' queued) (hstage : stage = .concluding call)
    (hx' : x' = { x with session := s' })
    (hcalls : ∀ other ∈ Stage.calls (some stage'), other = call')

theorem Sitting.calling_of_turn {config : Config} {number : Nat} {x x' : Sitting}
    {stage stage' : Stage} {queued : List Event}
    (hturn : Turn config number x stage stage' x' queued) :
    x.Calling stage stage' x' queued := by
  cases hturn with
  | unwatched problem => exact .seek _ rfl rfl
  | cancel => exact .seek _ rfl rfl
  | idle limit => exact .seek _ rfl rfl
  | fail e => exact .seek _ rfl rfl
  | conclude hs hcall' => exact .advance _ _ _ hs rfl rfl fun _ => List.mem_singleton.1
  | concluded hs => exact .advance _ _ _ hs rfl rfl fun _ h => by cases h
  | take command ticket hlisten hslot =>
    exact .none rfl (by rw [session_send]; rfl) (.inl (by rw [session_send]; rfl))
  | hear command resume reply =>
    exact .none rfl (by rw [session_send]; rfl) (.inl (by rw [session_send]; rfl))
  | wait stage' hlisten hstage' =>
    exact .none (by rcases hstage' with rfl | ⟨deadline, rfl⟩ <;> rfl) rfl (.inl rfl)
  | resolve t answer => exact .none rfl rfl (.inr ⟨t, answer, rfl, rfl⟩)
  | dismiss o w status stage' hwatch hstage' =>
    exact .none (by rcases hstage' with rfl | rfl <;> rfl) rfl (.inl rfl)
  | _ => exact .none rfl rfl (.inl rfl)

/-! ## The outcomes that are given -/

namespace Sitting

variable {config : Config} {number : Nat} {x x' : Sitting} {s' : Session} {o : Outcome}
variable {stage stage' : Stage} {before after : Option Stage} {call call' : Conclusion}
variable {queued : List Event}

/-- The session has this outcome, or somebody is about to give it. -/
def Gives (x : Sitting) (stage : Option Stage) (o : Outcome) : Prop :=
  (∃ call ∈ x.calls stage, call.outcome = o) ∨ x.session.outcome = some o

/-- The verdict on a session is an outcome that it has or is about to get. -/
theorem gives_of_verdict (h : x.session.verdict (x.calls before) = some o) :
    x.Gives before o := by
  rcases Option.or_eq_some_iff.1 h with h | ⟨-, h⟩
  · exact .inr h
  · obtain ⟨call, hholder, hgiving⟩ := Option.bind_eq_some_iff.1 h
    refine .inl ⟨call, List.mem_of_find?_eq_some hholder, ?_⟩
    cases call <;> cases hgiving <;> rfl

/-- A step of a call brings no other outcome than its own. -/
theorem gives_of_advances (hs : x.session.Advances call s' call' queued) :
    (call'.outcome = o → call.outcome = o ∨ x.session.outcome = some o) ∧
      (s'.outcome = some o → call.outcome = o ∨ x.session.outcome = some o) := by
  constructor
  · intro h
    rcases hs.outcome_eq with heq | ⟨r, hr, rfl⟩
    · exact .inl (heq ▸ h)
    · exact .inr (h ▸ hr)
  · intro h
    rcases hs.recorded with heq | heq
    · exact .inr (heq ▸ h)
    · exact .inl (Option.some.inj (heq.symm.trans h))

/-- The runner's thread makes no call for the watch. -/
theorem watching_of_turn (hturn : Turn config number x stage stage' x' queued) :
    ∀ call ∈ x'.watching, call ∈ x.watching := by
  cases hturn with
  | hire => exact fun call hcall => by cases hcall
  | take command t hlisten hslot =>
    obtain ⟨sent, heq⟩ := Sitting.send_eq
      (x.take command { x.session.rendezvous with slot := .inFlight t })
      (config.stack.exchange command)
    rw [heq]
    exact fun _ => id
  | hear command resume reply =>
    obtain ⟨sent, heq⟩ := (x.hear reply).send_eq (resume reply)
    rw [heq]
    exact fun _ => id
  | dismiss o w status stage' hwatch hstage' =>
    intro call hcall
    rw [watching, hwatch]
    exact hcall
  | interrupt o =>
    intro call hcall
    rw [watching] at hcall ⊢
    cases hwatch : x.watch with
    | none => simp [hwatch] at hcall
    | some w => simpa [hwatch] using hcall
  | _ => exact fun _ => id

namespace Gives

/-- What the calls of the thread and of the watch and the session itself give. -/
theorem cases (h : x.Gives before o) :
    (∃ call ∈ Stage.calls before, call.outcome = o) ∨ (∃ call ∈ x.watching, call.outcome = o) ∨
      x.session.outcome = some o := by
  rcases h with ⟨call, hcall, ho⟩ | h
  · rcases List.mem_append.1 hcall with hcall | hcall
    · exact .inl ⟨call, hcall, ho⟩
    · exact .inr (.inl ⟨call, hcall, ho⟩)
  · exact .inr (.inr h)

theorem of_stage (hcall : call ∈ Stage.calls before) (ho : call.outcome = o) :
    x.Gives before o :=
  .inl ⟨call, List.mem_append_left _ hcall, ho⟩

theorem of_watching (hcall : call ∈ x.watching) (ho : call.outcome = o) : x.Gives before o :=
  .inl ⟨call, List.mem_append_right _ hcall, ho⟩

/-- A step that leaves the watch and the outcome as they are brings only what the thread
is about to give. -/
theorem of_stay (h : x'.Gives after o)
    (hwatching : ∀ call ∈ x'.watching, call ∈ x.watching)
    (houtcome : x'.session.outcome = x.session.outcome) :
    x.Gives before o ∨ ∃ call ∈ Stage.calls after, call.outcome = o := by
  rcases h.cases with h | ⟨call, hcall, ho⟩ | h
  · exact .inr h
  · exact .inl (of_watching (hwatching call hcall) ho)
  · exact .inl (.inr (houtcome ▸ h))

/-- A client brings no outcome. -/
theorem of_publish {command : Bytes} (h : (x.publish command).Gives before o) :
    x.Gives before o := by
  unfold Sitting.publish at h
  split at h <;> exact h

/-- **A step of the watch** brings no other outcome than the answer of the reader does. -/
theorem of_watch {w w' : Watch} (hwatch : x.watch = some w)
    (hturn : Watch.Turn x.session w.point w'.point s' queued)
    (h : Gives { x with session := s', watch := some w' } before o) :
    x.Gives before o ∨ ∃ answer, Watch.outcome? answer = some o := by
  have hcases : (∃ call ∈ Stage.calls before, call.outcome = o) ∨
      (∃ call ∈ w'.point.calls, call.outcome = o) ∨ s'.outcome = some o := h.cases
  rcases hcases with ⟨call, hcall, ho⟩ | hcases
  · exact .inl (of_stage hcall ho)
  cases Watch.calling_of_turn hturn with
  | none hcalls hs' =>
    subst hs'
    rcases hcases with ⟨call, hcall, -⟩ | h
    · rw [hcalls] at hcall
      cases hcall
    · exact .inl (.inr h)
  | seek answer o' ho' hpoint' hs' =>
    subst hs'
    rcases hcases with ⟨call, hcall, rfl⟩ | h
    · rw [hpoint'] at hcall
      rw [List.mem_singleton.1 hcall]
      exact .inr ⟨answer, ho'⟩
    · exact .inl (.inr h)
  | advance call call' hs hpoint hcalls =>
    obtain ⟨hnew, hrecorded⟩ := gives_of_advances (o := o) hs
    have hold : call.outcome = o ∨ x.session.outcome = some o := by
      rcases hcases with ⟨other, hother, ho⟩ | h
      · exact hnew ((hcalls other hother).1 ▸ ho)
      · exact hrecorded h
    have hcall : call ∈ x.watching := by
      rw [watching, hwatch, Option.elim_some, hpoint]
      exact List.mem_cons_self
    exact .inl (hold.elim (of_watching hcall) .inr)

/-- **A step of the runner's thread** brings no other outcome than the one that it seeks
the latch for. -/
theorem of_turn (hturn : Turn config number x stage stage' x' queued)
    (h : x'.Gives (some stage') o) :
    x.Gives (some stage) o ∨ stage' = .concluding (.seeking o) := by
  have hwatching := watching_of_turn hturn
  cases calling_of_turn hturn with
  | none hcalls houtcome hanswers =>
    rcases h.of_stay hwatching houtcome with h | ⟨call, hcall, -⟩
    · exact .inl h
    · rw [hcalls] at hcall
      cases hcall
  | seek o' hstage' hx' =>
    subst hstage' hx'
    rcases h.of_stay hwatching rfl with h | ⟨call, hcall, rfl⟩
    · exact .inl h
    · rw [List.mem_singleton.1 hcall]
      exact .inr rfl
  | advance call call' s' hs hstage hx' hcalls =>
    subst hstage hx'
    obtain ⟨hnew, hrecorded⟩ := gives_of_advances (o := o) hs
    have hown : call.outcome = o → x.Gives (some (.concluding call)) o :=
      of_stage List.mem_cons_self
    refine .inl ?_
    rcases h.cases with ⟨other, hother, ho⟩ | ⟨other, hother, ho⟩ | h
    · exact (hnew (hcalls other hother ▸ ho)).elim hown .inr
    · exact of_watching hother ho
    · exact (hrecorded h).elim hown .inr

end Gives

end Sitting

/-! ## A session that is left -/

/-- The runner's thread concludes the session, or has done so, or is not there. -/
def Stage.isParting : Option Stage → Bool
  | none | some (.concluding _) | some (.dismissing _) | some (.interrupting _)
  | some (.joining _) | some (.served _) => true
  | _ => false

theorem Stage.isParting_of_isListening {stage : Stage} (h : stage.isListening = true) :
    Stage.isParting (some stage) = false := by
  cases stage <;> first | rfl | cases h

namespace Machine

variable {m m' : Machine} {move : Move} {number : Nat} {x : Sitting} {o : Outcome}

/-- A session that the runner's thread leaves is left, and the thread takes no command
from it any more. -/
theorem parting_of_step (hstep : m.step move = some m') (hx : m.sessions[number]? = some x)
    (h : Stage.isParting (m.stage? number) = true) : ∃ x', m'.sessions[number]? = some x' ∧
      Stage.isParting (m'.stage? number) = true ∧
      x'.transmissions = x.transmissions ∧ x'.sent = x.sent := by
  have hsees := sees_of_step hstep number
  generalize m'.sessions[number]? = after, m'.stage? number = stage' at hsees
  cases hsees with
  | apart => exact ⟨x, hx, h, rfl, rfl⟩
  | connect input card hnone => exact nomatch hx.symm.trans hnone
  | publish command hx' =>
    cases hx.symm.trans hx'
    refine ⟨_, rfl, h, ?_⟩
    unfold Sitting.publish
    split <;> exact ⟨rfl, rfl⟩
  | watch input hx' hwatch hturn =>
    cases hx.symm.trans hx'
    exact ⟨_, rfl, h, rfl, rfl⟩
  | turn input hx' hstage hturn =>
    cases hx.symm.trans hx'
    rw [hstage] at h
    refine ⟨_, rfl, ?_⟩
    cases hturn with
    | take command ticket hlisten hslot =>
      rw [Stage.isParting_of_isListening hlisten] at h
      cases h
    | shut hlisten hslot =>
      rw [Stage.isParting_of_isListening hlisten] at h
      cases h
    | wait stage' hlisten hstage' =>
      rw [Stage.isParting_of_isListening hlisten] at h
      cases h
    | dismiss o w status stage' hwatch hstage' =>
      rcases hstage' with rfl | rfl <;> exact ⟨rfl, rfl, rfl⟩
    | _ => first | exact ⟨rfl, rfl, rfl⟩ | cases h
  | leave => exact ⟨x, hx, rfl, rfl, rfl⟩
  | panic => exact ⟨x, hx, rfl, rfl, rfl⟩

/-- What the thread leaves in a session, it leaves for good. -/
theorem parting_of_run {later : List Move} (hlater : m.run later = some m')
    (hx : m.sessions[number]? = some x) (h : Stage.isParting (m.stage? number) = true) :
    ∃ x', m'.sessions[number]? = some x' ∧ Stage.isParting (m'.stage? number) = true ∧
      x'.transmissions = x.transmissions ∧ x'.sent = x.sent := by
  refine invariant_of_run (P := fun m₁ => ∃ x₁, m₁.sessions[number]? = some x₁ ∧
    Stage.isParting (m₁.stage? number) = true ∧ x₁.transmissions = x.transmissions ∧
      x₁.sent = x.sent) ?_ ⟨x, hx, h, rfl, rfl⟩ hlater
  rintro m₁ m₂ move ⟨x₁, hx₁, h₁, htransmissions, hsent⟩ hstep
  obtain ⟨x₂, hx₂, h₂, htransmissions', hsent'⟩ := parting_of_step hstep hx₁ h₁
  exact ⟨x₂, hx₂, h₂, htransmissions'.trans htransmissions, hsent'.trans hsent⟩

/-- **One move** brings an outcome of a session by the thread that seeks the latch for it,
or by an answer that the reader gives the watch. -/
theorem gives_of_step (hstep : m.step move = some m') {x' : Sitting}
    (hx' : m'.sessions[number]? = some x') (h : x'.Gives (m'.stage? number) o) :
    (∃ x, m.sessions[number]? = some x ∧ x.Gives (m.stage? number) o) ∨
      (∃ input, m.runner input = some m' ∧
        m'.stage? number = some (.concluding (.seeking o))) ∨
      ∃ answer, Watch.outcome? answer = some o := by
  have hsees := sees_of_step hstep number
  rw [hx'] at hsees
  generalize hafter : some x' = after at hsees
  generalize hstage' : m'.stage? number = stage' at hsees h ⊢
  cases hsees with
  | apart => exact .inl ⟨x', hafter.symm, h⟩
  | connect input card hnone =>
    cases hafter
    rcases h.cases with ⟨call, hcall, -⟩ | ⟨call, hcall, -⟩ | h <;> contradiction
  | publish command hx =>
    cases hafter
    exact .inl ⟨_, hx, h.of_publish⟩
  | watch input hx hwatch hturn =>
    cases hafter
    rcases h.of_watch hwatch hturn with h | h
    · exact .inl ⟨_, hx, h⟩
    · exact .inr (.inr h)
  | turn input hx hstage hturn =>
    cases hafter
    rcases h.of_turn hturn with h | rfl
    · exact .inl ⟨_, hx, by rw [hstage]; exact h⟩
    · exact .inr (.inl ⟨input, hstep, rfl⟩)
  | leave input hstage =>
    refine .inl ⟨x', hafter.symm, ?_⟩
    rw [hstage]
    exact h
  | panic input hstage hpanic =>
    refine .inl ⟨x', hafter.symm, ?_⟩
    rw [hstage]
    rcases Stage.cases_of_canPanic hpanic with ⟨_, rfl⟩ | ⟨_, _, rfl⟩ <;> exact h

/-- A watch does not find a session idle. -/
theorem watch_outcome_ne_idleTimeout {answer : Except ExchangeError Bool} {limit : Duration} :
    Watch.outcome? answer ≠ some (.idleTimeout limit) := by
  intro h
  unfold Watch.outcome? at h
  split at h
  · cases h
  · cases h
  · next e => cases hremoved : e.isCardRemoved <;> simp [hremoved] at h

end Machine

end Runner

end SmartCard
