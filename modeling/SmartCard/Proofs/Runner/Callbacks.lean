import SmartCard.Proofs.Runner.Turns
/-!
# The callbacks of the application

The events that are queued are delivered one by one, and each delivery
invokes a callback. `Attends` is what a move does on the side of the
application: it delivers the next event or none, and it may answer the start
request. So the callbacks of a run are its events in order
(`take_of_run`), and a callback that panics changes nothing of that: it is
one that drops the request, if it was given that, and returns
(`exists_calm`).
-/

namespace SmartCard

namespace Runner

namespace Machine

variable {m m' : Machine} {move : Move} {moves : List Move}

/-- The event whose callback is invoked by a move. -/
def called (m : Machine) : Move → List Event
  | .deliver _ => m.events[m.delivered]?.toList
  | _ => []

/-- The events whose callbacks are invoked in a run, in order. -/
def callbacks (m : Machine) : List Move → List Event
  | [] => []
  | move :: moves => m.called move ++ (m.step move).elim [] fun m => m.callbacks moves

/-- **What a move does on the side of the application.** Only an answer to the
start request sends something, and it is possible only while the request is
held. -/
structure Attends (m : Machine) (move : Move) (m' : Machine) : Prop where
  held : m'.start.held = true → m.start.held = true ∧ ∀ p, move ≠ .resolve p
  sent : ∀ p, m'.start.sent = some p → m.start.sent = some p ∨ move = .resolve p
  resolve : ∀ p, move = .resolve p → m.start.held = true
  delivered : m'.delivered = m.delivered + (m.called move).length

/-- A move of somebody else. -/
theorem Attends.of_other (hheld : m'.start.held = true → m.start.held = true)
    (hsent : ∀ p, m'.start.sent = some p → m.start.sent = some p) (hmove : ∀ p, move ≠ .resolve p)
    (hdelivered : m'.delivered = m.delivered + (m.called move).length) : m.Attends move m' where
  held := fun h => ⟨hheld h, hmove⟩
  sent := fun p h => .inl (hsent p h)
  resolve := fun p h => absurd h (hmove p)
  delivered := hdelivered

/-- A possible move does that. -/
theorem attends_of_step (h : m.step move = some m') : m.Attends move m' := by
  cases happens_of_step h with
  | aside haside =>
    cases haside with
    | tick nanos => exact .of_other id (fun _ => id) (by simp) rfl
    | deliver panics event hget =>
      have hcalled : (m.called (.deliver panics)).length = 1 := by
        rw [called, hget]
        rfl
      by_cases hpanics : panics ∧ event = .start
      · rw [if_pos hpanics]
        exact .of_other (by simp [StartRequest.abandon]) (fun _ => id) (by simp) (by rw [hcalled])
      · rw [if_neg hpanics]
        exact .of_other id (fun _ => id) (by simp) (by rw [hcalled])
    | resolve p hheld =>
      refine ⟨by simp [StartRequest.resolve], fun q hq => .inr ?_, fun _ _ => hheld, rfl⟩
      simp only [StartRequest.resolve] at hq
      split at hq
      · cases hq
        rfl
      · cases hq
    | abandon hheld =>
      exact .of_other (by simp [StartRequest.abandon]) (fun _ => id) (by simp) rfl
    | stop => exact .of_other id (fun _ => id) (by simp) rfl
    | raise hraising => exact .of_other id (fun _ => id) (by simp) rfl
  | publish number command hx => exact .of_other id (fun _ => id) (by simp) rfl
  | watch number input hx hwatch hturn => exact .of_other id (fun _ => id) (by simp) rfl
  | runner input hleads =>
    obtain ⟨-, -, -, hkeeps⟩ := hleads
    exact .of_other (fun h => hkeeps.held ▸ h) hkeeps.sent (by simp) hkeeps.delivered

/-- The queue only grows. -/
theorem events_of_step (h : m.step move = some m') : ∃ queued, m'.events = m.events ++ queued := by
  cases happens_of_step h with
  | aside haside =>
    obtain ⟨-, -, hevents, -⟩ := haside.same
    exact ⟨[], hevents.trans (List.append_nil _).symm⟩
  | publish number command hx => exact ⟨[], (List.append_nil _).symm⟩
  | watch number input hx hwatch hturn => exact ⟨_, rfl⟩
  | runner input hleads =>
    obtain ⟨queued, -, hevents, -⟩ := hleads
    exact ⟨queued, hevents⟩

/-- The event that a move delivers is the next one of the queue. -/
theorem take_called (m : Machine) (move : Move) :
    m.events.take (m.delivered + (m.called move).length) =
      m.events.take m.delivered ++ m.called move := by
  cases move with
  | deliver panics =>
    unfold called
    cases hget : m.events[m.delivered]? with
    | none => exact (List.append_nil _).symm
    | some event =>
      rw [Option.toList_some, List.length_singleton, List.take_add_one, hget, Option.toList_some]
  | _ => exact (List.append_nil _).symm

/-- No more events are delivered than were queued. -/
theorem called_le (hle : m.delivered ≤ m.events.length) (move : Move) :
    m.delivered + (m.called move).length ≤ m.events.length := by
  cases move with
  | deliver panics =>
    unfold called
    cases hget : m.events[m.delivered]? with
    | none => exact hle
    | some event => exact (List.getElem?_eq_some_iff.1 hget).1
  | _ => exact hle

/-- **The callbacks of a run are the events in order**, each once. -/
theorem take_of_run (hle : m.delivered ≤ m.events.length) (hrun : m.run moves = some m') :
    m'.events.take m'.delivered = m.events.take m.delivered ++ m.callbacks moves := by
  induction moves generalizing m with
  | nil =>
    cases hrun
    exact (List.append_nil _).symm
  | cons move moves ih =>
    obtain ⟨m₁, hstep, hrun⟩ := run_cons_eq_some.1 hrun
    obtain ⟨queued, hevents⟩ := events_of_step hstep
    have hdelivered := (attends_of_step hstep).delivered
    have hle₁ := called_le hle move
    have htake : m₁.events.take m₁.delivered = m.events.take m.delivered ++ m.called move := by
      rw [hevents, hdelivered, List.take_append_of_le_length hle₁, take_called]
    have hnext : m₁.delivered ≤ m₁.events.length := by
      rw [hdelivered, hevents, List.length_append]
      exact Nat.le_trans hle₁ (Nat.le_add_right _ _)
    rw [ih hnext hrun, htake, callbacks, hstep, Option.elim_some, List.append_assoc]

/-- A callback that panics does what one does that returns, and drops the
start request if it was given that. -/
theorem run_of_panic (h : m.step (.deliver true) = some m') :
    m.run [.deliver false] = some m' ∨ m.run [.deliver false, .abandon] = some m' := by
  simp only [step, deliver] at h
  split at h
  · cases h
  · next event hget =>
    have hstep : m.step (.deliver false) = some { m with delivered := m.delivered + 1 } := by
      simp only [step, deliver, hget]
      rfl
    split at h
    · cases h
      cases hheld : m.start.held with
      | false =>
        left
        have hstart : m.start.abandon = m.start := by
          unfold StartRequest.abandon
          rw [← hheld]
        rw [run, hstep, hstart]
        rfl
      | true =>
        right
        have hholds : holdsRequest { m with delivered := m.delivered + 1 } = true := by
          rw [holdsRequest, hheld, Bool.and_true]
          exact decide_eq_true (Nat.succ_pos _)
        rw [run, hstep, Option.bind_some, run, step, if_pos hholds]
        rfl
    · cases h
      left
      rw [run, hstep]
      rfl

/-- **A run in which callbacks panic is a run in which none does.** -/
theorem exists_calm (hrun : m.run moves = some m') :
    ∃ calm, .deliver true ∉ calm ∧ m.run calm = some m' := by
  induction moves generalizing m with
  | nil => exact ⟨[], List.not_mem_nil, hrun⟩
  | cons move moves ih =>
    obtain ⟨m₁, hstep, hrun⟩ := run_cons_eq_some.1 hrun
    obtain ⟨calm, hcalm, hrest⟩ := ih hrun
    -- it is enough to replace the first move
    have hgoal : ∀ first, .deliver true ∉ first → m.run first = some m₁ →
        ∃ calm, .deliver true ∉ calm ∧ m.run calm = some m' := by
      intro first hfirst hrunfirst
      refine ⟨first ++ calm, fun hmem => ?_, (run_append hrunfirst).trans hrest⟩
      exact (List.mem_append.1 hmem).elim hfirst hcalm
    by_cases hmove : move = .deliver true
    · rw [hmove] at hstep
      rcases run_of_panic hstep with h | h
      · exact hgoal _ (by simp) h
      · exact hgoal _ (by simp) h
    · refine hgoal [move] (fun hmem => hmove (List.mem_singleton.1 hmem).symm) ?_
      rw [run, hstep]
      rfl

end Machine

end Runner

end SmartCard
