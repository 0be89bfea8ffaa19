import SmartCard.Session
import SmartCard.Proofs.Rendezvous.Tickets
/-!
# The latch of a session

Calls that conclude a session take turns at its latch, and a call that has
the latch goes through the stages of `Conclusion` while the session changes
piece by piece: the slot is closed before the event is queued, and the event
is queued before the outcome is recorded. `Lawful` says how the pieces fit
the stage of the one call that holds the latch. Given that, the session has
a `verdict` from the moment the first call takes the latch, and the events
`told` are those that the verdict has brought so far.

`Advances` lists what one step of a call can do; `Lawful.advance` is the
step lemma, and everything else reads it off the list.
-/

namespace SmartCard

namespace Conclusion

/-- The call holds the latch. -/
def holds : Conclusion → Bool
  | .seeking _ | .returned _ => false
  | .deciding _ | .closing _ _ | .telling _ | .recording _ | .releasing _ => true

/-- The outcome that a call which holds the latch is there to give. -/
def giving? : Conclusion → Option Outcome
  | .seeking _ | .returned _ => none
  | .deciding o | .closing o _ | .telling o | .recording o | .releasing o => some o

/-- The outcome that the call was made with, or has returned. -/
def outcome : Conclusion → Outcome
  | .seeking o | .deciding o | .closing o _ | .telling o | .recording o | .releasing o
  | .returned o => o

/-- The ticket that the call is about to resolve. -/
def outstanding : Conclusion → List Ticket
  | .closing _ ticket => ticket.toList
  | _ => []

/-- What the call has queued for an outcome that is not recorded yet. -/
def told : Conclusion → List Event
  | .recording o => [o.event]
  | _ => []

/-- The outcome that a step of the call brings to a session whose latch it
takes. -/
def claim? : Conclusion → Option Outcome
  | .seeking o => some o
  | _ => none

/-- The call that holds the latch, if one of them does. -/
def holder? (calls : List Conclusion) : Option Conclusion :=
  calls.find? holds

end Conclusion

open Conclusion

namespace Session

variable {s s' : Session} {call call' : Conclusion} {calls others : List Conclusion}
variable {queued : List Event} {under : List Ticket}

/-! ## The steps of a call -/

/-- What one step of a call can do, with what must hold for it. -/
inductive Advances (s : Session) : Conclusion → Session → Conclusion → List Event → Prop where
  | latch (o : Outcome) (hfree : s.latched = false) :
    Advances s (.seeking o) { s with latched := true } (.deciding o) []
  | late (o r : Outcome) (hrecorded : s.outcome = some r) :
    Advances s (.deciding o) { s with latched := false } (.returned r) []
  | shut (o : Outcome) (hfirst : s.outcome = none) :
    Advances s (.deciding o) { s with rendezvous := s.rendezvous.shut.2 }
      (.closing o s.rendezvous.slot.ticket?) []
  | resolve (o : Outcome) (t : Ticket) :
    Advances s (.closing o (some t))
      { s with rendezvous := s.rendezvous.resolve t (.error o.reason) } (.telling o) []
  | spare (o : Outcome) : Advances s (.closing o none) s (.telling o) []
  | tell (o : Outcome) : Advances s (.telling o) s (.recording o) [o.event]
  | record (o : Outcome) :
    Advances s (.recording o) { s with outcome := some o } (.releasing o) []
  | unlatch (o : Outcome) :
    Advances s (.releasing o) { s with latched := false } (.returned o) []
  | rest (o : Outcome) : Advances s (.returned o) s (.returned o) []

/-- A step of a call is one of those listed. -/
theorem advances_of_advance (h : s.advance call = some (s', call', queued)) :
    s.Advances call s' call' queued := by
  cases call with
  | seeking o =>
    by_cases hl : s.latched = true
    · simp [advance, hl] at h
    · simp only [advance, hl] at h
      cases h
      exact .latch o (by simpa using hl)
  | deciding o =>
    obtain ⟨card, rendezvous, outcome, latched⟩ := s
    cases outcome with
    | some r =>
      cases h
      exact .late o r rfl
    | none =>
      cases h
      exact .shut o rfl
  | closing o ticket =>
    cases ticket with
    | some t =>
      cases h
      exact .resolve o t
    | none =>
      cases h
      exact .spare o
  | telling o =>
    cases h
    exact .tell o
  | recording o =>
    cases h
    exact .record o
  | releasing o =>
    cases h
    exact .unlatch o
  | returned o =>
    cases h
    exact .rest o

/-- **Only a call that seeks the latch can be kept waiting**, and only while
another call has it. -/
theorem advance_eq_none (h : s.advance call = none) :
    ∃ o, call = .seeking o ∧ s.latched = true := by
  unfold advance at h
  split at h
  · rename_i o
    split at h
    · rename_i hl
      exact ⟨o, rfl, hl⟩
    · cases h
  all_goals first | (split at h <;> cases h) | cases h

namespace Advances

/-- A step of a call moves the ticket that it found to those that are answered. -/
theorem accounted (h : s.Advances call s' call' queued)
    (ha : s.rendezvous.Accounted (call.outstanding ++ under)) :
    s'.rendezvous.Accounted (call'.outstanding ++ under) := by
  cases h with
  | shut o => exact Rendezvous.Accounted.shut ha
  | resolve o t => exact Rendezvous.Accounted.resolve ha (.error o.reason)
  | latch | late | spare | tell | record | unlatch | rest => exact ha

/-- A step of a call hands out no command. -/
theorem hands (h : s.Advances call s' call' queued) {accepted handed : List Bytes}
    (hh : s.rendezvous.Hands accepted handed) : s'.rendezvous.Hands accepted handed := by
  cases h with
  | shut o => exact hh.closed
  | resolve o t => exact hh.resolve t (.error o.reason)
  | latch | late | spare | tell | record | unlatch | rest => exact hh

/-- A step of a call leaves the card as it is. -/
theorem card (h : s.Advances call s' call' queued) : s'.card = s.card := by
  cases h <;> rfl

/-- A slot that is closed stays closed. -/
theorem closed (h : s.Advances call s' call' queued) (hc : s.rendezvous.slot = .closed) :
    s'.rendezvous.slot = .closed := by
  cases h with
  | shut o => rfl
  | resolve o t => exact hc
  | latch | late | spare | tell | record | unlatch | rest => exact hc

/-- **The only answer that a step brings** is the reason of the call, to the
ticket that the call found. -/
theorem poll (h : s.Advances call s' call' queued) (t : Ticket) :
    s'.rendezvous.poll t = s.rendezvous.poll t ∨
      ∃ o, call = .closing o (some t) ∧ s.rendezvous.poll t = none ∧
        s'.rendezvous.poll t = some (.error o.reason) := by
  cases h with
  | shut o => exact .inl rfl
  | resolve o t' =>
    have hpoll := s.rendezvous.poll_resolve t' t (.error o.reason)
    cases ha : s.rendezvous.poll t with
    | some a => exact .inl (Rendezvous.poll_resolve_of_some ha)
    | none =>
      by_cases heq : t' = t
      · subst heq
        exact .inr ⟨o, rfl, rfl, by rw [hpoll, ha, if_pos rfl, Option.none_or]⟩
      · exact .inl (by rw [hpoll, ha, if_neg heq, Option.none_or])
  | latch | late | spare | tell | record | unlatch | rest => exact .inl rfl

/-- An answer stays what it is. -/
theorem poll_of_some (h : s.Advances call s' call' queued) {t : Ticket} {a : Answer}
    (ha : s.rendezvous.poll t = some a) : s'.rendezvous.poll t = some a := by
  rcases h.poll t with heq | ⟨o, -, hnone, -⟩
  · rw [heq, ha]
  · rw [ha] at hnone
    cases hnone

/-- A call keeps its outcome until it returns what is recorded. -/
theorem outcome_eq (h : s.Advances call s' call' queued) :
    call'.outcome = call.outcome ∨ ∃ r, s.outcome = some r ∧ call' = .returned r := by
  cases h with
  | late o r hrecorded => exact .inr ⟨r, hrecorded, rfl⟩
  | latch | shut | resolve | spare | tell | record | unlatch | rest => exact .inl rfl

/-- The outcome of a session changes to that of a call only. -/
theorem recorded (h : s.Advances call s' call' queued) :
    s'.outcome = s.outcome ∨ s'.outcome = some call.outcome := by
  cases h with
  | record o => exact .inr rfl
  | latch | late | shut | resolve | spare | tell | unlatch | rest => exact .inl rfl

/-- A call that has taken a step does not seek the latch any more. -/
theorem ne_seeking (h : s.Advances call s' call' queued) (o : Outcome) : call' ≠ .seeking o := by
  cases h <;> nofun

end Advances

/-! ## The stage of the holder -/

/-- The slot and the outcome fit the stage of the call that holds the latch. -/
def Standing (s : Session) : Option Conclusion → Prop
  | none | some (.deciding _) => s.rendezvous.slot = .closed ↔ s.outcome.isSome
  | some (.closing _ _) | some (.telling _) | some (.recording _) =>
    s.rendezvous.slot = .closed ∧ s.outcome = none
  | some (.releasing o) => s.rendezvous.slot = .closed ∧ s.outcome = some o
  | some (.seeking _) | some (.returned _) => False

/-- **A session and the calls that are being made to conclude it** fit
together. -/
structure Lawful (s : Session) (calls : List Conclusion) : Prop where
  /-- One call at most holds the latch. -/
  single : calls.filter holds = (holder? calls).toList
  /-- The latch is held if a call holds it. -/
  latched : s.latched = (holder? calls).isSome
  standing : s.Standing (holder? calls)
  /-- Every call has returned what is recorded. -/
  returned : ∀ o, .returned o ∈ calls → s.outcome = some o

/-- The outcome that the session has or is about to get. -/
def verdict (s : Session) (calls : List Conclusion) : Option Outcome :=
  s.outcome.or ((holder? calls).bind giving?)

/-- What has been queued about the end of the session. -/
def told (s : Session) (calls : List Conclusion) : List Event :=
  s.outcome.elim ((holder? calls).elim [] Conclusion.told) fun o => [o.event]

theorem holder?_cons_of_holds (h : call.holds = true) : holder? (call :: others) = some call :=
  List.find?_cons_of_pos h

theorem holder?_cons_of_not (h : call.holds = false) :
    holder? (call :: others) = holder? others :=
  List.find?_cons_of_neg (by simp [h])

/-- What is told is the event of the verdict, or nothing yet. -/
theorem told_cases (s : Session) (calls : List Conclusion) :
    s.told calls = [] ∨ ∃ o, s.verdict calls = some o ∧ s.told calls = [o.event] := by
  unfold told verdict
  cases ho : s.outcome with
  | some o => exact .inr ⟨o, rfl, rfl⟩
  | none =>
    cases hh : holder? calls with
    | none => exact .inl rfl
    | some call =>
      cases call with
      | recording o => exact .inr ⟨o, rfl, rfl⟩
      | _ => exact .inl rfl

namespace Lawful

/-- A session that was just opened. -/
theorem opened (card : CardData) : Lawful { card } [] where
  single := rfl
  latched := rfl
  standing := by simp [Standing, holder?]
  returned := nofun

/-- While one call holds the latch, no other does. -/
theorem holder?_others (h : s.Lawful (call :: others)) (hc : call.holds = true) :
    holder? others = none := by
  have hsingle := h.single
  rw [holder?_cons_of_holds hc, List.filter_cons_of_pos hc] at hsingle
  rw [holder?, List.find?_eq_none]
  intro other hother hholds
  have hmem : other ∈ others.filter holds := List.mem_filter.2 ⟨hother, hholds⟩
  rw [List.tail_eq_of_cons_eq hsingle] at hmem
  cases hmem

/-- While the latch is free, no call holds it. -/
theorem holder?_of_free (h : s.Lawful calls) (hfree : s.latched = false) :
    holder? calls = none := by
  have hlatched := h.latched
  rw [hfree] at hlatched
  exact Option.not_isSome_iff_eq_none.1 (by simp [← hlatched])

/-- A call that has taken the latch while no other has it. -/
theorem of_holds (hothers : holder? others = none) (hc : call.holds = true)
    (hl : s.latched = true) (hs : s.Standing (some call))
    (hret : ∀ o, .returned o ∈ others → s.outcome = some o) : s.Lawful (call :: others) := by
  have hfilter : others.filter holds = [] :=
    List.filter_eq_nil_iff.2 (List.find?_eq_none.1 hothers)
  refine ⟨?_, ?_, ?_, ?_⟩
  · rw [holder?_cons_of_holds hc, List.filter_cons_of_pos hc, hfilter]
    rfl
  · rw [holder?_cons_of_holds hc, hl]
    rfl
  · rwa [holder?_cons_of_holds hc]
  · intro o ho
    rcases List.mem_cons.1 ho with rfl | ho
    · cases hc
    · exact hret o ho

/-- A call that has let go of the latch. -/
theorem of_returned (hothers : holder? others = none) {o : Outcome} (hl : s.latched = false)
    (hclosed : s.rendezvous.slot = .closed) (ho : s.outcome = some o)
    (hret : ∀ o, .returned o ∈ others → s.outcome = some o) :
    s.Lawful (.returned o :: others) := by
  have hholder : holder? (.returned o :: others) = none := by
    rw [holder?_cons_of_not rfl, hothers]
  refine ⟨?_, ?_, ?_, ?_⟩
  · rw [hholder, List.filter_cons_of_neg Bool.false_ne_true]
    exact List.filter_eq_nil_iff.2 (List.find?_eq_none.1 hothers)
  · rw [hholder, hl]
    rfl
  · rw [hholder]
    exact ⟨fun _ => by rw [ho]; rfl, fun _ => hclosed⟩
  · intro o' ho'
    rcases List.mem_cons.1 ho' with heq | ho'
    · cases heq
      exact ho
    · exact hret o' ho'

/-- The order in which the calls were made does not matter. -/
theorem holder?_perm (h : s.Lawful calls) {calls' : List Conclusion} (hp : calls.Perm calls') :
    holder? calls' = holder? calls := by
  have hfilter : (calls'.filter holds).Perm (holder? calls).toList :=
    h.single ▸ (hp.filter holds).symm
  rw [holder?, ← List.head?_filter]
  cases hh : holder? calls with
  | none =>
    rw [hh] at hfilter
    rw [List.Perm.eq_nil hfilter]
    rfl
  | some call =>
    rw [hh] at hfilter
    rw [List.Perm.eq_singleton hfilter]
    rfl

theorem perm (h : s.Lawful calls) {calls' : List Conclusion} (hp : calls.Perm calls') :
    s.Lawful calls' := by
  have hholder := h.holder?_perm hp
  refine ⟨?_, ?_, ?_, ?_⟩
  · rw [hholder]
    have hfilter := h.single ▸ (hp.filter holds).symm
    cases hh : holder? calls with
    | none =>
      rw [hh] at hfilter
      exact List.Perm.eq_nil hfilter
    | some call =>
      rw [hh] at hfilter
      exact List.Perm.eq_singleton hfilter
  · rw [hholder, h.latched]
  · rw [hholder]
    exact h.standing
  · exact fun o ho => h.returned o (hp.mem_iff.2 ho)

/-- A call that seeks the latch changes nothing yet. -/
theorem seek (h : s.Lawful calls) (o : Outcome) : s.Lawful (.seeking o :: calls) := by
  have hholder : holder? (.seeking o :: calls) = holder? calls := holder?_cons_of_not rfl
  refine ⟨?_, ?_, ?_, ?_⟩
  · rw [hholder, List.filter_cons_of_neg Bool.false_ne_true, h.single]
  · rw [hholder, h.latched]
  · rw [hholder]
    exact h.standing
  · intro o' ho'
    rcases List.mem_cons.1 ho' with heq | ho'
    · cases heq
    · exact h.returned o' ho'

/-- A call that has returned can be forgotten. -/
theorem forget {o : Outcome} (h : s.Lawful (.returned o :: calls)) : s.Lawful calls := by
  have hholder : holder? (.returned o :: calls) = holder? calls := holder?_cons_of_not rfl
  have hsingle := h.single
  rw [hholder, List.filter_cons_of_neg Bool.false_ne_true] at hsingle
  exact ⟨hsingle, hholder ▸ h.latched, hholder ▸ h.standing,
    fun o' ho' => h.returned o' (List.mem_cons_of_mem _ ho')⟩

/-- Using the rendezvous without closing it does not matter to the calls. -/
theorem onRendezvous (h : s.Lawful calls) {r : Rendezvous}
    (hr : r.slot = .closed ↔ s.rendezvous.slot = .closed) :
    Lawful { s with rendezvous := r } calls := by
  refine ⟨h.single, h.latched, ?_, h.returned⟩
  have hs := h.standing
  cases hh : holder? calls with
  | none =>
    rw [hh] at hs
    exact hr.trans hs
  | some call =>
    rw [hh] at hs
    cases call with
    | deciding o => exact hr.trans hs
    | closing o t => exact ⟨hr.2 hs.1, hs.2⟩
    | telling o => exact ⟨hr.2 hs.1, hs.2⟩
    | recording o => exact ⟨hr.2 hs.1, hs.2⟩
    | releasing o => exact ⟨hr.2 hs.1, hs.2⟩
    | seeking o => exact hs.elim
    | returned o => exact hs.elim

/-- What is known of the session from the stage of a call that holds the latch. -/
theorem standing_of_holds (h : s.Lawful (call :: others)) (hc : call.holds = true) :
    s.Standing (some call) := by
  rw [← holder?_cons_of_holds hc]
  exact h.standing

/-- A call that holds the latch has latched the session. -/
theorem latched_of_holds (h : s.Lawful (call :: others)) (hc : call.holds = true) :
    s.latched = true := by
  rw [h.latched, holder?_cons_of_holds hc]
  rfl

/-- **One step of a call** keeps session and calls together. -/
theorem advance (h : s.Lawful (call :: others)) (hs : s.Advances call s' call' queued) :
    s'.Lawful (call' :: others) := by
  have hret : ∀ o, .returned o ∈ others → s.outcome = some o :=
    fun o ho => h.returned o (List.mem_cons_of_mem _ ho)
  cases hs with
  | latch o hfree =>
    have hnone := h.holder?_of_free hfree
    have hstanding := h.standing
    rw [hnone] at hstanding
    exact of_holds hnone rfl rfl hstanding hret
  | late o r hrecorded =>
    -- the call that recorded the outcome closed the slot before
    have hclosed := (h.standing_of_holds rfl).2 (by rw [hrecorded]; rfl)
    exact of_returned (h.holder?_others rfl) rfl hclosed hrecorded hret
  | shut o hfirst =>
    exact of_holds (h.holder?_others rfl) rfl (h.latched_of_holds rfl) ⟨rfl, hfirst⟩ hret
  | resolve o t =>
    exact of_holds (h.holder?_others rfl) rfl (h.latched_of_holds rfl)
      (h.standing_of_holds rfl) hret
  | spare o =>
    exact of_holds (h.holder?_others rfl) rfl (h.latched_of_holds rfl)
      (h.standing_of_holds rfl) hret
  | tell o =>
    exact of_holds (h.holder?_others rfl) rfl (h.latched_of_holds rfl)
      (h.standing_of_holds rfl) hret
  | record o =>
    obtain ⟨hclosed, hnone⟩ := h.standing_of_holds rfl
    -- no call has returned before an outcome is recorded
    refine of_holds (h.holder?_others rfl) rfl (h.latched_of_holds rfl) ⟨hclosed, rfl⟩ ?_
    intro o' ho'
    rw [hret o' ho'] at hnone
    cases hnone
  | unlatch o =>
    obtain ⟨hclosed, hrecorded⟩ := h.standing_of_holds rfl
    exact of_returned (h.holder?_others rfl) rfl hclosed hrecorded hret
  | rest o => exact h

/-- An outcome that is recorded stays. -/
theorem outcome_advance (h : s.Lawful (call :: others)) (hs : s.Advances call s' call' queued)
    {o : Outcome} (ho : s.outcome = some o) : s'.outcome = some o := by
  cases hs with
  | record o' =>
    obtain ⟨-, hnone⟩ := h.standing_of_holds rfl
    rw [ho] at hnone
    cases hnone
  | latch | late | shut | resolve | spare | tell | unlatch | rest => exact ho

/-! ## The verdict -/

theorem verdict_of_holds (s : Session) (others : List Conclusion) (hc : call.holds = true) :
    s.verdict (call :: others) = s.outcome.or call.giving? := by
  rw [verdict, holder?_cons_of_holds hc]
  rfl

theorem told_of_holds (s : Session) (others : List Conclusion) (hc : call.holds = true) :
    s.told (call :: others) = s.outcome.elim call.told fun o => [o.event] := by
  rw [told, holder?_cons_of_holds hc]
  rfl

/-- **The verdict is there when the latch is taken first**, and no later step
of any call changes it. -/
theorem verdict_advance (h : s.Lawful (call :: others)) (hs : s.Advances call s' call' queued) :
    s'.verdict (call' :: others) = (s.verdict (call :: others)).or call.claim? := by
  cases hs with
  | latch o hfree =>
    rw [verdict_of_holds _ _ rfl, verdict, h.holder?_of_free hfree, Option.bind_none,
      Option.or_none]
    rfl
  | late o r hrecorded => simp [verdict, hrecorded]
  | shut o | resolve o t | spare o | tell o =>
    rw [verdict_of_holds _ _ rfl, verdict_of_holds _ _ rfl]
    exact Option.or_none.symm
  | record o =>
    obtain ⟨-, hnone⟩ := h.standing_of_holds rfl
    rw [verdict_of_holds _ _ rfl, verdict_of_holds _ _ rfl, hnone]
    rfl
  | unlatch o =>
    obtain ⟨-, hrecorded⟩ := h.standing_of_holds rfl
    simp [verdict, hrecorded]
  | rest o => exact Option.or_none.symm

/-- **What is queued is what the verdict brings**: one step of a call queues
what is told by it. -/
theorem told_advance (h : s.Lawful (call :: others)) (hs : s.Advances call s' call' queued) :
    s'.told (call' :: others) = s.told (call :: others) ++ queued := by
  cases hs with
  | latch o hfree =>
    rw [told_of_holds _ _ rfl, told, h.holder?_of_free hfree]
    exact (List.append_nil _).symm
  | late o r hrecorded => simp [told, hrecorded]
  | shut o | resolve o t | spare o =>
    rw [told_of_holds _ _ rfl, told_of_holds _ _ rfl]
    exact (List.append_nil _).symm
  | tell o =>
    obtain ⟨-, hnone⟩ := h.standing_of_holds rfl
    rw [told_of_holds _ _ rfl, told_of_holds _ _ rfl, hnone]
    rfl
  | record o =>
    obtain ⟨-, hnone⟩ := h.standing_of_holds rfl
    rw [told_of_holds _ _ rfl, told_of_holds _ _ rfl, hnone]
    rfl
  | unlatch o =>
    obtain ⟨-, hrecorded⟩ := h.standing_of_holds rfl
    simp [told, hrecorded]
  | rest o => exact (List.append_nil _).symm

/-- The verdict does not depend on the order in which the calls were made. -/
theorem verdict_perm (h : s.Lawful calls) {calls' : List Conclusion} (hp : calls.Perm calls') :
    s.verdict calls' = s.verdict calls := by
  rw [verdict, verdict, h.holder?_perm hp]

theorem told_perm (h : s.Lawful calls) {calls' : List Conclusion} (hp : calls.Perm calls') :
    s.told calls' = s.told calls := by
  rw [told, told, h.holder?_perm hp]

/-- A recorded outcome is the verdict, its event is queued, and the slot is
closed. -/
theorem of_recorded (h : s.Lawful calls) {o : Outcome} (ho : s.outcome = some o) :
    s.verdict calls = some o ∧ s.told calls = [o.event] ∧ s.rendezvous.slot = .closed := by
  refine ⟨by rw [verdict, ho, Option.some_or], by rw [told, ho, Option.elim_some], ?_⟩
  have hs := h.standing
  cases hh : holder? calls with
  | none =>
    rw [hh] at hs
    exact hs.2 (by rw [ho]; rfl)
  | some call =>
    rw [hh] at hs
    cases call with
    | deciding o' => exact hs.2 (by rw [ho]; rfl)
    | closing o' t => exact hs.1
    | telling o' => exact hs.1
    | recording o' => exact hs.1
    | releasing o' => exact hs.1
    | seeking o' => exact hs.elim
    | returned o' => exact hs.elim

/-- A session whose slot is open has no outcome. -/
theorem outcome_of_open (h : s.Lawful calls) (hopen : s.rendezvous.slot ≠ .closed) :
    s.outcome = none := by
  cases ho : s.outcome with
  | none => rfl
  | some o => exact absurd (h.of_recorded ho).2.2 hopen

/-- **A closed slot has a verdict.** -/
theorem verdict_of_closed (h : s.Lawful calls) (hclosed : s.rendezvous.slot = .closed) :
    ∃ o, s.verdict calls = some o := by
  have hs := h.standing
  unfold verdict
  cases ho : s.outcome with
  | some o => exact ⟨o, rfl⟩
  | none =>
    cases hh : holder? calls with
    | none =>
      rw [hh, Standing, ho] at hs
      exact absurd (hs.1 hclosed) nofun
    | some call =>
      rw [hh] at hs
      cases call with
      | deciding o => exact ⟨o, rfl⟩
      | closing o t => exact ⟨o, rfl⟩
      | telling o => exact ⟨o, rfl⟩
      | recording o => exact ⟨o, rfl⟩
      | releasing o => exact ⟨o, rfl⟩
      | seeking o => exact hs.elim
      | returned o => exact hs.elim

/-- Without a verdict the session is open, and nothing is told of its end. -/
theorem of_verdict_none (h : s.Lawful calls) (hv : s.verdict calls = none) :
    s.outcome = none ∧ s.told calls = [] ∧ s.rendezvous.slot ≠ .closed := by
  obtain ⟨ho, hg⟩ := Option.or_eq_none_iff.1 hv
  refine ⟨ho, ?_, ?_⟩
  · rw [told, ho]
    cases hh : holder? calls with
    | none => rfl
    | some call =>
      rw [hh] at hg
      cases call with
      | recording o => cases hg
      | _ => rfl
  · intro hclosed
    obtain ⟨o, ho'⟩ := h.verdict_of_closed hclosed
    rw [hv] at ho'
    cases ho'

/-- Without a verdict nobody holds the latch. -/
theorem free_of_verdict_none (h : s.Lawful calls) (hv : s.verdict calls = none) :
    s.latched = false := by
  obtain ⟨-, hg⟩ := Option.or_eq_none_iff.1 hv
  rw [h.latched]
  cases hh : holder? calls with
  | none => rfl
  | some call =>
    have hholds : call.holds = true := List.find?_some hh
    rw [hh, Option.bind_some] at hg
    cases call <;> cases hholds <;> cases hg

/-- The call that is about to resolve a ticket gives the verdict. -/
theorem verdict_of_closing (h : s.Lawful calls) {o : Outcome} {t : Option Ticket}
    (hc : .closing o t ∈ calls) : s.verdict calls = some o ∧ s.outcome = none := by
  have hholder : holder? calls = some (.closing o t) := by
    have hmem : Conclusion.closing o t ∈ calls.filter holds := List.mem_filter.2 ⟨hc, rfl⟩
    rw [h.single] at hmem
    exact Option.mem_toList.1 hmem
  have hs := h.standing
  rw [hholder] at hs
  rw [verdict, hholder, hs.2]
  exact ⟨rfl, rfl⟩

/-- A session that nobody concludes any more has its outcome if it has a verdict. -/
theorem outcome_of_free (h : s.Lawful calls) (hfree : s.latched = false) :
    s.outcome = s.verdict calls := by
  rw [verdict, h.holder?_of_free hfree, Option.bind_none, Option.or_none]

end Lawful

end Session

end SmartCard
