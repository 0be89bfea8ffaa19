import SmartCard.Proofs.Rendezvous.Closing
/-!
# A client that has its answer

Completing and closing change the slot first and give the answer afterwards. While
one of them is interrupted, other commands can be accepted, taken and completed, and
their answers can overtake the one that is still to be given. `Simulates` says what
an interruption amounts to: an answer that is under way is one that the operation as
a whole would have given already. So a run of steps is followed by the run of the
operations that it begins (`simulates_run`), which is told the same, and the answers
are those of whole operations, later.

By the order of the two steps a ticket has left the slot before it has its answer
(`not_held_of_poll`). Hence a client that waits for each of its answers finds the slot
free, or closed for good: `answered_finds_free`.
-/

namespace SmartCard

namespace Rendezvous

variable {r : Rendezvous} {t t' : Ticket} {a a' : Answer}

/-- An answer to a ticket that had none is the only one that is new. -/
theorem poll_resolve_eq_some_iff (h : r.poll t = none) :
    (r.resolve t a).poll t' = some a' ↔ r.poll t' = some a' ∨ (t', a') = (t, a) := by
  rw [poll_resolve]
  by_cases heq : t = t'
  · subst heq
    simp [h, eq_comm]
  · simp [heq, Ne.symm heq]

/-! ## The slot alone -/

/-- Whether a command is accepted does not depend on the answers. -/
theorem publish_resolved (r : Rendezvous) (resolved : List (Ticket × Answer)) (command : Bytes) :
    { r with resolved }.publish command =
      ((r.publish command).1, { (r.publish command).2 with resolved }) := by
  obtain ⟨slot, issued, _⟩ := r
  cases slot <;> rfl

/-- Nor does which command is taken, -/
theorem next_resolved (r : Rendezvous) (resolved : List (Ticket × Answer)) :
    { r with resolved }.next = (r.next.1, { r.next.2 with resolved }) := by
  obtain ⟨slot, issued, _⟩ := r
  cases slot <;> rfl

/-- or of which the slot is freed. -/
theorem release_resolved (r : Rendezvous) (resolved : List (Ticket × Answer)) :
    { r with resolved }.release = (r.release.1, { r.release.2 with resolved }) := by
  obtain ⟨slot, issued, _⟩ := r
  cases slot <;> rfl

/-- The ticket in the slot is that of the command accepted last. -/
theorem Hands.issued_of_ticket? {accepted handed : List Bytes} (h : r.Hands accepted handed)
    (ht : r.slot.ticket? = some t) : t + 1 = r.issued := by
  cases hslot : r.slot with
  | idle => simp [hslot, Slot.ticket?] at ht
  | closed => simp [hslot, Slot.ticket?] at ht
  | requested command t' =>
    obtain ⟨hnumber, hlast⟩ := h.of_requested hslot
    obtain rfl : t' = t := by simpa [hslot, Slot.ticket?] using ht
    rw [hnumber, ← h.1, hlast, List.length_append, List.length_singleton]
  | inFlight t' =>
    obtain ⟨hnumber, hall⟩ := h.of_inFlight hslot
    obtain rfl : t' = t := by simpa [hslot, Slot.ticket?] using ht
    rw [hnumber, ← h.1, hall]

/-- The command accepted last, if there is one, has its answer. -/
def IsSettled (r : Rendezvous) : Prop :=
  ∀ t, t + 1 = r.issued → ∃ a, r.poll t = some a

namespace Split

variable {s : Split} {step : Step} {steps : List Step} {reason : SessionError}

/-! ## The operations that steps begin -/

/-- The operation that a step begins. -/
def Step.op? : Step → Option Op
  | .publish command => some (.publish command)
  | .next => some .next
  | .beginComplete answer => some (.complete answer)
  | .beginClose reason => some (.close reason)
  | .finish _ => none

/-- What is told to somebody who begins an operation by this step. -/
def told? (s : Split) : Step → Option Entry
  | .publish command => some (.publish command, .published (s.rendezvous.publish command).1)
  | .next => some (.next, .next s.rendezvous.next.1)
  | .beginComplete answer => some (.complete answer, .completed)
  | .beginClose reason => some (.close reason, .closed !s.rendezvous.isClosed)
  | .finish _ => none

/-- What is told in a run, in order. -/
def told (s : Split) : List Step → List Entry
  | [] => []
  | step :: steps => (s.told? step).toList ++ (s.apply step).told steps

theorem run_concat (s : Split) (steps : List Step) (step : Step) :
    s.run (steps ++ [step]) = (s.run steps).apply step :=
  List.foldl_concat ..

theorem told_concat (s : Split) (steps : List Step) (step : Step) :
    s.told (steps ++ [step]) = s.told steps ++ ((s.run steps).told? step).toList := by
  induction steps generalizing s with
  | nil => simp [told, run]
  | cons first steps ih =>
    rw [List.cons_append, told, ih, told, List.append_assoc]
    rfl

/-! ## Interrupted operations and whole ones -/

/-- **A rendezvous of whole operations shows what one of interrupted operations
comes to**: the same slot, and the answers that are given there or under way. -/
structure Simulates (r : Rendezvous) (s : Split) : Prop where
  same : s.rendezvous = { r with resolved := s.rendezvous.resolved }
  poll : ∀ t a, r.poll t = some a ↔ s.rendezvous.poll t = some a ∨ (t, a) ∈ s.under

namespace Simulates

/-- A new rendezvous. -/
theorem new : Simulates {} {} :=
  ⟨rfl, fun t a => by simp [Rendezvous.poll]⟩

theorem slot (h : Simulates r s) : s.rendezvous.slot = r.slot := by
  rw [h.same]

theorem issued (h : Simulates r s) : s.rendezvous.issued = r.issued := by
  rw [h.same]

/-- A change of the slot on both sides, by which no answer is given. -/
theorem move (h : Simulates r s) {r' : Rendezvous} (hr' : r'.resolved = r.resolved) :
    Simulates r' { s with rendezvous := { r' with resolved := s.rendezvous.resolved } } := by
  refine ⟨rfl, fun t a => ?_⟩
  have hpoll : r'.poll t = r.poll t := by rw [Rendezvous.poll, hr', Rendezvous.poll]
  rw [hpoll]
  exact h.poll t a

/-- A change of the slot by which an answer is given on the one side, and comes to be
under way on the other. -/
theorem owe (h : Simulates r s) (hpoll : r.poll t = none) (slot : Slot) (a : Answer) :
    Simulates ({ r with slot }.resolve t a)
      { rendezvous := { r with slot, resolved := s.rendezvous.resolved },
        under := s.under ++ [(t, a)] } := by
  refine ⟨rfl, fun t' a' => ?_⟩
  have hresolve : ({ r with slot }.resolve t a).poll t' = some a' ↔
      r.poll t' = some a' ∨ (t', a') = (t, a) := poll_resolve_eq_some_iff hpoll
  rw [hresolve, List.mem_append, List.mem_singleton, ← or_assoc]
  exact or_congr_left (h.poll t' a')

/-- **A step that begins an operation** does to the slot what the whole operation
does, and is told the same. -/
theorem begins (h : Simulates r s) (hr : r.Accounted []) {op : Op} (hop : step.op? = some op) :
    s.told? step = some (op, (r.apply op).1) ∧ Simulates (r.apply op).2 (s.apply step) := by
  have hunanswered : ∀ t, r.slot.ticket? = some t → r.poll t = none := fun t ht =>
    ((hr.unanswered_iff t).2 (by simp [ht])).2
  have hsame := h.same
  cases step with
  | publish command =>
    cases hop
    have hpublish := r.publish_resolved s.rendezvous.resolved command
    rw [← hsame] at hpublish
    simp only [told?, Split.apply, hpublish]
    refine ⟨rfl, h.move ?_⟩
    rcases r.publish_cases command with ⟨-, heq⟩ | ⟨-, e, heq⟩ <;> rw [Rendezvous.apply, heq]
  | next =>
    cases hop
    have hnext := r.next_resolved s.rendezvous.resolved
    rw [← hsame] at hnext
    simp only [told?, Split.apply, hnext]
    refine ⟨rfl, h.move ?_⟩
    rcases r.next_cases with ⟨command, t, -, heq⟩ | ⟨-, heq⟩ | ⟨-, heq⟩ <;>
      rw [Rendezvous.apply, heq]
  | beginComplete answer =>
    cases hop
    refine ⟨rfl, ?_⟩
    have hrelease := r.release_resolved s.rendezvous.resolved
    rw [← hsame] at hrelease
    rcases r.release_cases with ⟨t, hslot, heq⟩ | ⟨-, heq⟩
    · simp only [Split.apply, Rendezvous.apply, complete, hrelease, heq]
      exact h.owe (hunanswered t (by rw [hslot]; rfl)) .idle answer
    · simp only [Split.apply, Rendezvous.apply, complete, hrelease, heq]
      rw [← hsame]
      exact h
  | beginClose reason =>
    cases hop
    refine ⟨?_, ?_⟩
    · rw [told?, Rendezvous.apply, close_fst, isClosed, isClosed, h.slot]
    · rcases r.close_cases reason with ⟨t, ht, heq⟩ | ⟨ht, heq⟩
      · simp only [Split.apply, Rendezvous.apply, shut, h.slot, ht, heq]
        rw [hsame]
        exact h.owe (hunanswered t ht) .closed (.error reason)
      · simp only [Split.apply, Rendezvous.apply, shut, h.slot, ht, heq]
        rw [hsame]
        exact h.move rfl
  | finish index => cases hop

/-- **A step that finishes an operation** gives an answer that was under way. -/
theorem finishes (h : Simulates r s) (hs : s.rendezvous.Accounted s.underway) (index : Nat) :
    Simulates r (s.apply (.finish index)) := by
  simp only [Split.apply]
  cases hget : s.under[index]? with
  | none => exact h
  | some entry =>
    obtain ⟨t, a⟩ := entry
    obtain ⟨hlt, hentry⟩ := List.getElem?_eq_some_iff.1 hget
    have hmem : t ∈ s.underway := List.mem_map_of_mem (List.mem_of_getElem? hget)
    have hpoll : s.rendezvous.poll t = none :=
      ((hs.unanswered_iff t).2 (List.mem_append_right _ hmem)).2
    refine ⟨congrArg (fun r : Rendezvous => r.resolve t a) h.same, fun t' a' => ?_⟩
    have hunder : (t', a') ∈ s.under ↔ (t', a') = (t, a) ∨ (t', a') ∈ s.under.eraseIdx index := by
      rw [← List.mem_cons, ← hentry]
      exact (List.getElem_cons_eraseIdx_perm hlt).mem_iff.symm
    rw [h.poll, poll_resolve_eq_some_iff hpoll, hunder, or_assoc]

end Simulates

/-- **A run of steps comes to what the operations come to** that it begins, and is
told the same. -/
theorem simulates_run (steps : List Step) :
    Simulates (after {} (steps.filterMap Step.op?)) (run {} steps) ∧
      history {} (steps.filterMap Step.op?) = told {} steps := by
  induction steps using List.reverseRecOn with
  | nil => exact ⟨.new, rfl⟩
  | append_singleton steps step ih =>
    obtain ⟨hsimulates, htold⟩ := ih
    rw [run_concat, told_concat, List.filterMap_append]
    cases hop : step.op? with
    | some op =>
      have hwhole := (Traced.poll_eq_fate (steps.filterMap Step.op?)).1
      obtain ⟨hentry, hafter⟩ := hsimulates.begins hwhole.accounted hop
      rw [List.filterMap_cons_some hop, List.filterMap_nil, after_concat, history_concat, htold,
        hentry]
      exact ⟨hafter, rfl⟩
    | none =>
      cases step with
      | finish index =>
        rw [List.filterMap_cons_none hop, List.filterMap_nil, List.append_nil, htold]
        exact ⟨hsimulates.finishes (accounted_run steps) index, (List.append_nil _).symm⟩
      | _ => cases hop

/-! ## Where an answer comes from -/

/-- A completion with this answer has found the ticket's own command in flight. -/
def CompletedWith (steps : List Step) (t : Ticket) (a : Answer) : Prop :=
  ∃ before later, steps = before ++ .beginComplete a :: later ∧
    (run {} before).rendezvous.slot = .inFlight t

/-- A closure with this reason has found the ticket in the slot. -/
def ClosedWith (steps : List Step) (t : Ticket) (reason : SessionError) : Prop :=
  ∃ before later, steps = before ++ .beginClose reason :: later ∧
    (run {} before).rendezvous.slot.ticket? = some t

/-- This answer was taken to the ticket by a completion or by a closure. -/
def Brought (steps : List Step) (t : Ticket) (a : Answer) : Prop :=
  CompletedWith steps t a ∨ ∃ reason, a = .error reason ∧ ClosedWith steps t reason

/-- What was brought stays so in a longer run. -/
theorem Brought.append (h : Brought steps t a) (more : List Step) :
    Brought (steps ++ more) t a := by
  rcases h with ⟨before, later, rfl, hslot⟩ | ⟨reason, ha, before, later, rfl, hslot⟩
  · exact .inl ⟨before, later ++ more, List.append_assoc .., hslot⟩
  · exact .inr ⟨reason, ha, before, later ++ more, List.append_assoc .., hslot⟩

/-- By one step an answer comes to be there only if a completion or a closure finds
its ticket in the slot. -/
theorem new_of_apply (s : Split) (step : Step)
    (h : (s.apply step).rendezvous.poll t = some a ∨ (t, a) ∈ (s.apply step).under) :
    (s.rendezvous.poll t = some a ∨ (t, a) ∈ s.under) ∨
      (step = .beginComplete a ∧ s.rendezvous.slot = .inFlight t) ∨
      ∃ reason, step = .beginClose reason ∧ a = .error reason ∧
        s.rendezvous.slot.ticket? = some t := by
  cases step with
  | publish command =>
    rcases s.rendezvous.publish_cases command with ⟨-, heq⟩ | ⟨-, e, heq⟩ <;>
      simp only [Split.apply, heq] at h <;> exact .inl h
  | next =>
    rcases s.rendezvous.next_cases with ⟨command, t', -, heq⟩ | ⟨-, heq⟩ | ⟨-, heq⟩ <;>
      simp only [Split.apply, heq] at h <;> exact .inl h
  | beginComplete answer =>
    rcases s.rendezvous.release_cases with ⟨t', hslot, heq⟩ | ⟨-, heq⟩
    · simp only [Split.apply, heq, List.mem_append, List.mem_singleton, ← or_assoc] at h
      rcases h with h | h
      · exact .inl h
      · cases h
        exact .inr (.inl ⟨rfl, hslot⟩)
    · simp only [Split.apply, heq] at h
      exact .inl h
  | beginClose reason =>
    cases ht : s.rendezvous.slot.ticket? with
    | none =>
      simp only [Split.apply, shut, ht] at h
      exact .inl h
    | some t' =>
      simp only [Split.apply, shut, ht, List.mem_append, List.mem_singleton, ← or_assoc] at h
      rcases h with h | h
      · exact .inl h
      · cases h
        exact .inr (.inr ⟨reason, rfl, rfl, rfl⟩)
  | finish index =>
    simp only [Split.apply] at h
    cases hget : s.under[index]? with
    | none =>
      rw [hget] at h
      exact .inl h
    | some entry =>
      rw [hget] at h
      rcases h with h | h
      · -- the answer was there, or is the one that is given now
        cases hpoll : s.rendezvous.poll t with
        | some a' =>
          rw [poll_resolve_of_some hpoll] at h
          exact .inl (.inl h)
        | none =>
          rw [poll_resolve, hpoll, Option.none_or] at h
          split at h
          · next heq =>
            cases h
            exact .inl (.inr (heq ▸ List.mem_of_getElem? hget))
          · cases h
      · exact .inl (.inr (List.mem_of_mem_eraseIdx h))

/-- **Every answer was brought by an operation** that found its ticket in the slot,
whether it is given or under way. -/
theorem brought_of_run (steps : List Step)
    (h : (run {} steps).rendezvous.poll t = some a ∨ (t, a) ∈ (run {} steps).under) :
    Brought steps t a := by
  induction steps using List.reverseRecOn with
  | nil => simp [run, Rendezvous.poll] at h
  | append_singleton steps step ih =>
    rw [run_concat] at h
    rcases new_of_apply _ step h with h | ⟨rfl, hslot⟩ | ⟨reason, rfl, ha, hslot⟩
    · exact (ih h).append [step]
    · exact .inl ⟨steps, [], rfl, hslot⟩
    · exact .inr ⟨reason, ha, steps, [], rfl, hslot⟩

/-! ## What a client can rely on -/

/-- The ticket in the slot is that of the command accepted last. -/
theorem issued_of_held (steps : List Step) (ht : (run {} steps).rendezvous.slot.ticket? = some t) :
    t + 1 = (run {} steps).rendezvous.issued := by
  have hsimulates := (simulates_run steps).1
  rw [hsimulates.slot] at ht
  rw [hsimulates.issued]
  exact (Traced.poll_eq_fate _).1.hands.issued_of_ticket? ht

/-- **A ticket that has its answer is not in the slot.** -/
theorem not_held_of_poll (steps : List Step) (h : (run {} steps).rendezvous.poll t = some a) :
    (run {} steps).rendezvous.slot.ticket? ≠ some t := by
  intro ht
  have hmem : t ∈ (run {} steps).rendezvous.slot.ticket?.toList ++ (run {} steps).underway := by
    simp [ht]
  rw [(((accounted_run steps).unanswered_iff t).2 hmem).2] at h
  cases h

/-- Where the last command has its answer, no exchange is pending. -/
theorem ticket?_eq_none_of_isSettled (steps : List Step)
    (h : (run {} steps).rendezvous.IsSettled) :
    (run {} steps).rendezvous.slot.ticket? = none := by
  cases ht : (run {} steps).rendezvous.slot.ticket? with
  | none => rfl
  | some t =>
    obtain ⟨a, ha⟩ := h t (issued_of_held steps ht)
    exact absurd ht (not_held_of_poll steps ha)

/-- A slot that was closed stays closed. -/
theorem slot_of_closedWith (h : ClosedWith steps t reason) :
    (run {} steps).rendezvous.slot = .closed := by
  obtain ⟨before, later, rfl, ht⟩ := h
  exact (owed_of_beginClose before later reason ht).slot

/-- **One client at a time**: whenever somebody publishes, the command accepted before
has its answer. A client that is alone and waits for each of its answers does so. -/
def OneByOne (steps : List Step) : Prop :=
  ∀ i command, steps[i]? = some (.publish command) → (run {} (steps.take i)).rendezvous.IsSettled

/-- **What a client can rely on** after these steps. -/
structure Reliable (steps : List Step) (s : Split) : Prop where
  /-- A ticket that has its answer is not the one that the slot holds. -/
  free : ∀ t a, s.rendezvous.poll t = some a → s.rendezvous.slot.ticket? ≠ some t
  /-- One client at a time is never told that an exchange is pending. -/
  alone : OneByOne steps → ∀ i command, steps[i]? = some (.publish command) →
    ((run {} (steps.take i)).rendezvous.publish command).1 ≠
      .error (.configuration "an exchange is already pending")
  /-- Every answer was brought by a completion or a closure that found the ticket in
  the slot. -/
  brought : ∀ t a, s.rendezvous.poll t = some a → Brought steps t a
  /-- A client whose ticket was resolved by a closure finds the session inactive, and its
  next command is refused. -/
  closed : ∀ t reason, ClosedWith steps t reason →
    s.rendezvous.isClosed = true ∧ ∀ command, s.rendezvous.publish command =
      (.error (.configuration "no session is accepting commands"), s.rendezvous)
  /-- The answer that is given or under way is the one of the ticket's own exchange,
  whatever was published, taken and completed meanwhile. -/
  own : ∀ t < s.rendezvous.issued, ∀ a,
    s.rendezvous.poll t = some a ∨ (t, a) ∈ s.under ↔ fate t (told {} steps) = some a
  /-- Nothing but accepted commands is answered, and none of them twice. -/
  once : (s.rendezvous.answered ++ s.underway).Nodup ∧
    ∀ t ∈ s.rendezvous.answered ++ s.underway, t < s.rendezvous.issued

/-- **A client that has its answer finds the slot free**, or closed for good, however
completions and closures are interrupted by other operations and by each other. -/
theorem answered_finds_free (steps : List Step) : Reliable steps (run {} steps) := by
  have haccounted := accounted_run steps
  obtain ⟨hsimulates, htold⟩ := simulates_run steps
  have hfate := (Traced.poll_eq_fate (steps.filterMap Step.op?)).2
  refine
    { free := fun t a => not_held_of_poll steps
      alone := fun hone i command hi hpending => ?_
      brought := fun t a h => brought_of_run steps (.inl h)
      closed := fun t reason h => ?_
      own := fun t hlt a => ?_
      once := ?_ }
  · have hnone := ticket?_eq_none_of_isSettled _ (hone i command hi)
    generalize (run {} (steps.take i)).rendezvous = r at hnone hpending
    unfold publish at hpending
    cases hslot : r.slot <;> simp [hslot, Slot.ticket?, SessionError.noSession] at hnone hpending
  · have hslot := slot_of_closedWith h
    exact ⟨decide_eq_true hslot, fun command => by
      simp only [publish, hslot, SessionError.noSession]⟩
  · rw [hsimulates.issued] at hlt
    rw [← hsimulates.poll, hfate t hlt, htold]
  · have hnodup := haccounted.nodup
    rw [List.append_assoc] at hnodup
    refine ⟨List.perm_append_comm.nodup_iff.1 hnodup.of_append_right, fun t ht => ?_⟩
    rw [← List.mem_range, ← haccounted.mem_iff, List.append_assoc]
    exact List.mem_append_right _ (List.perm_append_comm.mem_iff.1 ht)

/-- Two completions are interrupted, and the second gives its answer first; then a
closure is interrupted that finds a third command. -/
def overtaken : List Step :=
  [.publish [0x00], .next, .beginComplete (.ok [0x90, 0x00]), .publish [0x01], .next,
    .beginComplete (.ok [0x61, 0x10]), .finish 1, .finish 0, .publish [0x02],
    .beginClose .cardRemoved, .finish 0]

/-- One client waits for its answer, whose completion is interrupted, and goes on. -/
def patient : List Step :=
  [.publish [0x00], .next, .beginComplete (.ok [0x90, 0x00]), .finish 0, .publish [0x01]]

theorem oneByOne_patient : OneByOne patient := by
  intro i command hi
  match i, hi with
  | 0, _ => exact fun t ht => absurd ht (Nat.succ_ne_zero t)
  | 4, _ =>
    intro t ht
    obtain rfl : t = 0 := Nat.succ.inj ht
    exact ⟨_, rfl⟩

/-- Each command has the answer of its own exchange, and the client of the third, which
the closure has answered, is refused. The client that waits is not. -/
theorem answered_finds_free_overtaken :
    (run {} overtaken).rendezvous.poll 0 = some (.ok [0x90, 0x00]) ∧
      fate 0 (told {} overtaken) = some (.ok [0x90, 0x00]) ∧
      fate 1 (told {} overtaken) = some (.ok [0x61, 0x10]) ∧
      ClosedWith overtaken 2 .cardRemoved ∧ (run {} overtaken).rendezvous.isClosed = true ∧
      OneByOne patient ∧ ((run {} (patient.take 4)).rendezvous.publish [0x01]).1 ≠
        .error (.configuration "an exchange is already pending") := by
  have hreliable := answered_finds_free overtaken
  have hclosed : ClosedWith overtaken 2 .cardRemoved := ⟨overtaken.take 9, [.finish 0], rfl, rfl⟩
  exact ⟨rfl, (hreliable.own 0 (Nat.le_of_ble_eq_true rfl) _).1 (.inl rfl),
    (hreliable.own 1 (Nat.le_of_ble_eq_true rfl) _).1 (.inl rfl), hclosed,
    (hreliable.closed 2 .cardRemoved hclosed).1, oneByOne_patient,
    (answered_finds_free patient).alone oneByOne_patient 4 [0x01] rfl⟩

end Split

end Rendezvous

end SmartCard
