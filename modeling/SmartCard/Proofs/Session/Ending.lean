import SmartCard.Session.Contention
import SmartCard.Proofs.Session.Latch
/-!
# A session ends once

Any number of calls try to conclude a session, step by step and in any
order, while commands are published, taken and completed in between. The
outcome of the call that takes the latch first (`firstToLatch`) is the one
that the session keeps: its event is the only one queued, every call returns
it, and a command that the closure found in the slot is answered with its
reason. `ends_once` says all of this of every interleaving at every moment.

`Orderly` is the invariant of the session and the calls together, and
`Owed` that of a ticket which the closure found; `Orderly.apply` and
`Owed.apply` are their steps.
-/

namespace SmartCard

open Conclusion

namespace Contention

variable {c : Contention} {first : Option Outcome} {t : Ticket} {o : Outcome}

/-- A session that was just opened, and that no call concludes yet. -/
def opened (card : CardData) : Contention := { session := { card } }

/-- The outcome of the call that takes the latch by this step, if one does. -/
def claim? (c : Contention) : Move → Option Outcome
  | .advance number =>
    if c.session.latched then none else (c.calls[number]?).bind Conclusion.claim?
  | _ => none

/-- **The outcome given by the call that takes the latch first.** -/
def firstToLatch (c : Contention) : List Move → Option Outcome
  | [] => none
  | move :: moves => (c.claim? move).or ((c.apply move).firstToLatch moves)

theorem run_cons (c : Contention) (move : Move) (moves : List Move) :
    c.run (move :: moves) = (c.apply move).run moves := rfl

theorem run_append (c : Contention) (moves more : List Move) :
    c.run (moves ++ more) = (c.run moves).run more :=
  List.foldl_append

/-! ## A call takes its step -/

/-- **What a step of a call does to everything**: nothing if there is no such
call or it has to wait, and else what `Advances` lists, at its place. -/
theorem advance_cases (c : Contention) (number : Nat) :
    (c.apply (.advance number) = c ∧ c.claim? (.advance number) = none) ∨
    ∃ call s' call' queued others, c.calls.Perm (call :: others) ∧
      c.session.Advances call s' call' queued ∧ (c.calls.set number call').Perm (call' :: others) ∧
      c.apply (.advance number) =
        { session := s', events := c.events ++ queued, calls := c.calls.set number call' } ∧
      c.claim? (.advance number) = call.claim? := by
  cases hcall : c.calls[number]? with
  | none => exact .inl ⟨by simp only [apply, hcall], by simp [claim?, hcall]⟩
  | some call =>
    cases hadvance : c.session.advance call with
    | none =>
      obtain ⟨o, rfl, hlatched⟩ := Session.advance_eq_none hadvance
      exact .inl ⟨by simp only [apply, hcall, hadvance], by simp [claim?, hlatched]⟩
    | some result =>
      obtain ⟨s', call', queued⟩ := result
      have hs := Session.advances_of_advance hadvance
      obtain ⟨hlt, heq⟩ := List.getElem?_eq_some_iff.1 hcall
      refine .inr ⟨call, s', call', queued, c.calls.eraseIdx number,
        heq ▸ (List.getElem_cons_eraseIdx_perm hlt).symm, hs, List.set_perm_cons_eraseIdx hlt call',
        by simp only [apply, hcall, hadvance], ?_⟩
      rw [claim?, hcall, Option.bind_some]
      cases hs with
      | latch o hfree => rw [hfree]; rfl
      | _ => exact ite_self none

/-! ## The invariant -/

/-- **A session with its calls**: they fit together, the verdict is the
outcome of the call that took the latch first, what is queued is what the
verdict has brought, and every ticket is in one place. -/
structure Orderly (c : Contention) (first : Option Outcome) : Prop where
  lawful : c.session.Lawful c.calls
  verdict : c.session.verdict c.calls = first
  events : c.events = c.session.told c.calls
  accounted : c.session.rendezvous.Accounted (c.calls.flatMap outstanding)

namespace Orderly

/-- A session that was just opened. -/
theorem opened (card : CardData) : (opened card).Orderly none where
  lawful := .opened card
  verdict := rfl
  events := rfl
  accounted := Rendezvous.accounted_new

/-- Using the rendezvous without closing it does not matter. -/
theorem onRendezvous (h : c.Orderly first) (change : Rendezvous → Rendezvous)
    (hclosed : (change c.session.rendezvous).slot = .closed ↔ c.session.rendezvous.slot = .closed)
    (haccounted : (change c.session.rendezvous).Accounted (c.calls.flatMap outstanding)) :
    (c.onRendezvous change).Orderly first where
  lawful := h.lawful.onRendezvous hclosed
  verdict := h.verdict
  events := h.events
  accounted := haccounted

/-- A new call changes nothing yet. -/
theorem call (h : c.Orderly first) (outcome : Outcome) :
    (c.apply (.call outcome)).Orderly first := by
  have hp : (.seeking outcome :: c.calls).Perm (c.calls ++ [.seeking outcome]) :=
    (List.perm_append_singleton _ _).symm
  have hseek := h.lawful.seek outcome
  refine ⟨hseek.perm hp, ?_, ?_, ?_⟩
  · exact (hseek.verdict_perm hp).trans h.verdict
  · exact h.events.trans (hseek.told_perm hp).symm
  · exact h.accounted.congr (hp.flatMap_right outstanding)

/-- A step of a call keeps everything in order. -/
theorem advance (h : c.Orderly first) (number : Nat) :
    (c.apply (.advance number)).Orderly (first.or (c.claim? (.advance number))) := by
  rcases c.advance_cases number with ⟨hsame, hclaim⟩ |
    ⟨call, s', call', queued, others, hp, hs, hp', happly, hclaim⟩
  · rwa [hsame, hclaim, Option.or_none]
  · have hlawful := h.lawful.perm hp
    have hlawful' := hlawful.advance hs
    rw [happly, hclaim]
    refine ⟨hlawful'.perm hp'.symm, ?_, ?_, ?_⟩
    · rw [hlawful'.verdict_perm hp'.symm, hlawful.verdict_advance hs, h.lawful.verdict_perm hp,
        h.verdict]
    · rw [hlawful'.told_perm hp'.symm, hlawful.told_advance hs, h.lawful.told_perm hp, h.events]
    · refine Rendezvous.Accounted.congr (hs.accounted ?_) (hp'.symm.flatMap_right outstanding)
      exact h.accounted.congr (hp.flatMap_right outstanding)

/-- **One step of somebody** keeps everything in order. -/
theorem apply (h : c.Orderly first) (move : Move) :
    (c.apply move).Orderly (first.or (c.claim? move)) := by
  cases move with
  | call outcome => exact Option.or_none.symm ▸ h.call outcome
  | advance number => exact h.advance number
  | publish command =>
    exact Option.or_none.symm ▸ h.onRendezvous (fun r => (r.publish command).2)
      (Rendezvous.publish_slot_closed _ command) (h.accounted.publish command)
  | next =>
    exact Option.or_none.symm ▸ h.onRendezvous (fun r => r.next.2)
      (Rendezvous.next_slot_closed _) h.accounted.next
  | complete answer =>
    exact Option.or_none.symm ▸ h.onRendezvous (fun r => r.complete answer)
      (Rendezvous.complete_slot_closed _ answer) (h.accounted.complete answer)

/-- **A whole run** keeps everything in order. -/
theorem run (h : c.Orderly first) (moves : List Move) :
    (c.run moves).Orderly (first.or (c.firstToLatch moves)) := by
  induction moves generalizing c first with
  | nil => rwa [firstToLatch, Option.or_none]
  | cons move moves ih =>
    rw [run_cons, firstToLatch, ← Option.or_assoc]
    exact ih (h.apply move)

end Orderly

/-- Nobody takes the latch before a call is made. -/
theorem firstToLatch_of_no_call {moves : List Move} (hcalls : c.calls = [])
    (hmoves : ∀ outcome, .call outcome ∉ moves) : c.firstToLatch moves = none := by
  induction moves generalizing c with
  | nil => rfl
  | cons move moves ih =>
    have hmove : c.claim? move = none ∧ (c.apply move).calls = [] := by
      cases move with
      | call outcome => exact absurd List.mem_cons_self (hmoves outcome)
      | advance number => simp [claim?, apply, hcalls]
      | publish command => exact ⟨rfl, hcalls⟩
      | next => exact ⟨rfl, hcalls⟩
      | complete answer => exact ⟨rfl, hcalls⟩
    rw [firstToLatch, hmove.1, Option.none_or]
    exact ih hmove.2 fun outcome hmem => hmoves outcome (List.mem_cons_of_mem _ hmem)

/-! ## The ticket that the closure found -/

/-- **A ticket is owed the reason of an outcome**: the slot is closed with
that outcome as the verdict, and the ticket either has its answer or belongs
to the call that is about to give it. -/
structure Owed (c : Contention) (t : Ticket) (o : Outcome) : Prop where
  closed : c.session.rendezvous.slot = .closed
  verdict : c.session.verdict c.calls = some o
  answer : c.session.rendezvous.poll t = some (.error o.reason) ∨
    c.session.rendezvous.poll t = none ∧ .closing o (some t) ∈ c.calls

namespace Owed

/-- Using a closed rendezvous changes nothing. -/
theorem onRendezvous (h : c.Owed t o) (change : Rendezvous → Rendezvous)
    (hsame : change c.session.rendezvous = c.session.rendezvous) :
    (c.onRendezvous change).Owed t o := by
  have heq : c.onRendezvous change = c := by rw [Contention.onRendezvous, hsame]
  rwa [heq]

/-- A step of a call leaves the ticket with its holder, or answers it. -/
theorem advance (h : c.Owed t o) (hc : c.Orderly first) (number : Nat) :
    (c.apply (.advance number)).Owed t o := by
  have hverdict : (c.apply (.advance number)).session.verdict (c.apply (.advance number)).calls =
      some o := by
    have hnext := (hc.advance number).verdict
    rwa [← hc.verdict, h.verdict, Option.some_or] at hnext
  rcases c.advance_cases number with ⟨hsame, -⟩ |
    ⟨call, s', call', queued, others, hp, hs, hp', happly, -⟩
  · rwa [hsame]
  · rw [happly] at hverdict ⊢
    refine ⟨hs.closed h.closed, hverdict, ?_⟩
    rcases h.answer with hanswer | ⟨hnone, hcalls⟩
    · exact .inl (hs.poll_of_some hanswer)
    · rcases List.mem_cons.1 (hp.mem_iff.1 hcalls) with rfl | hothers
      · cases hs with
        | resolve =>
          refine .inl ?_
          rw [Rendezvous.poll_resolve, hnone, Option.none_or, if_pos rfl]
      · -- no other call resolves a ticket while this one holds the latch
        rcases hs.poll t with hpoll | ⟨o', rfl, -, -⟩
        · exact .inr ⟨hpoll.trans hnone, hp'.mem_iff.2 (List.mem_cons_of_mem _ hothers)⟩
        · have hfree := (hc.lawful.perm hp).holder?_others rfl
          exact absurd rfl (List.find?_eq_none.1 hfree _ hothers)

/-- **One step of somebody** leaves the ticket owed what it is owed. -/
theorem apply (h : c.Owed t o) (hc : c.Orderly first) (move : Move) : (c.apply move).Owed t o := by
  cases move with
  | call outcome =>
    have hnext := (hc.call outcome).verdict
    rw [← hc.verdict, h.verdict] at hnext
    exact ⟨h.closed, hnext, h.answer.imp_right fun ⟨hnone, hcalls⟩ =>
      ⟨hnone, List.mem_append_left _ hcalls⟩⟩
  | advance number => exact h.advance hc number
  | publish command =>
    refine h.onRendezvous (fun r => (r.publish command).2) ?_
    simp only [Rendezvous.publish, h.closed]
  | next =>
    refine h.onRendezvous (fun r => r.next.2) ?_
    simp only [Rendezvous.next, h.closed]
  | complete answer =>
    refine h.onRendezvous (fun r => r.complete answer) ?_
    simp only [Rendezvous.complete, Rendezvous.release, h.closed]

/-- A whole run leaves the ticket owed what it is owed. -/
theorem run (h : c.Owed t o) (hc : c.Orderly first) (moves : List Move) :
    (c.run moves).Owed t o := by
  induction moves generalizing c first with
  | nil => exact h
  | cons move moves ih => exact ih (h.apply hc move) (hc.apply move)

/-- **Once the outcome is recorded, the ticket has its answer.** -/
theorem poll_of_recorded (h : c.Owed t o) (hc : c.Orderly first)
    (hrecorded : c.session.outcome ≠ none) :
    c.session.rendezvous.poll t = some (.error o.reason) := by
  rcases h.answer with hanswer | ⟨-, hcalls⟩
  · exact hanswer
  · exact absurd (hc.lawful.verdict_of_closing hcalls).2 hrecorded

/-- **The closure owes the ticket that it finds.** -/
theorem of_shut (hc : c.Orderly first) {move : Move}
    (ht : c.session.rendezvous.slot.ticket? = some t)
    (hclosed : (c.apply move).session.rendezvous.slot = .closed) :
    ∃ o, (c.apply move).Owed t o := by
  have hopen : c.session.rendezvous.slot ≠ .closed := by
    intro heq
    rw [heq] at ht
    cases ht
  cases move with
  | call outcome => exact absurd hclosed hopen
  | publish command => exact absurd ((Rendezvous.publish_slot_closed _ command).1 hclosed) hopen
  | next => exact absurd ((Rendezvous.next_slot_closed _).1 hclosed) hopen
  | complete answer => exact absurd ((Rendezvous.complete_slot_closed _ answer).1 hclosed) hopen
  | advance number =>
    have hnone : c.session.rendezvous.poll t = none := by
      refine ((hc.accounted.unanswered_iff t).2 ?_).2
      exact List.mem_append_left _ (by rw [ht]; exact List.mem_singleton_self t)
    rcases c.advance_cases number with ⟨hsame, -⟩ |
      ⟨call, s', call', queued, others, hp, hs, hp', happly, -⟩
    · rw [hsame] at hclosed
      exact absurd hclosed hopen
    · have hlawful' := (hc.lawful.perm hp).advance hs
      rw [happly] at hclosed ⊢
      cases hs with
      | shut o hfirst =>
        have hmem : Conclusion.closing o (some t) ∈
            c.calls.set number (.closing o c.session.rendezvous.slot.ticket?) :=
          hp'.mem_iff.2 (ht ▸ List.mem_cons_self)
        have hverdict := ((hlawful'.perm hp'.symm).verdict_of_closing hmem).1
        exact ⟨o, rfl, hverdict, .inr ⟨hnone, hmem⟩⟩
      | _ => exact absurd hclosed hopen

end Owed

/-! ## Every call comes to its end -/

/-- The steps that a call can still take. -/
def work : Conclusion → Nat
  | .seeking _ => 7
  | .deciding _ => 6
  | .closing _ _ => 5
  | .telling _ => 4
  | .recording _ => 3
  | .releasing _ => 2
  | .returned _ => 0

/-- The steps that all calls can still take. -/
def totalWork : List Conclusion → Nat
  | [] => 0
  | call :: calls => work call + totalWork calls

/-- Replacing one call changes the work by what that call has done. -/
theorem totalWork_set {calls : List Conclusion} {number : Nat} {call : Conclusion}
    (h : calls[number]? = some call) (call' : Conclusion) :
    totalWork (calls.set number call') + work call = totalWork calls + work call' := by
  induction calls generalizing number with
  | nil => cases h
  | cons first calls ih =>
    cases number with
    | zero =>
      cases h
      simp only [List.set_cons_zero, totalWork]
      omega
    | succ number =>
      have hset := ih (show calls[number]? = some call from h)
      simp only [List.set_cons_succ, totalWork]
      omega

/-- A step is work, unless the call has returned. -/
theorem work_lt {s s' : Session} {call call' : Conclusion} {queued : List Event}
    (hs : s.Advances call s' call' queued) (hcall : ∀ o, call ≠ .returned o) :
    work call' < work call := by
  cases hs with
  | rest o => exact absurd rfl (hcall o)
  | _ => simp [work]

/-- **Some call can go on** as long as not all have returned: the one that
holds the latch, or else any that seeks it. -/
theorem exists_advance (h : c.Orderly first) {call : Conclusion} (hmem : call ∈ c.calls)
    (hcall : ∀ o, call ≠ .returned o) :
    ∃ number, totalWork (c.apply (.advance number)).calls < totalWork c.calls := by
  -- the call that goes on
  obtain ⟨next, hnext, hreturned, hadvance⟩ : ∃ next ∈ c.calls, (∀ o, next ≠ .returned o) ∧
      c.session.advance next ≠ none := by
    cases hholder : holder? c.calls with
    | some next =>
      have hholds : next.holds = true := List.find?_some hholder
      refine ⟨next, List.mem_of_find?_eq_some hholder, ?_, ?_⟩
      · rintro o rfl
        cases hholds
      · intro hwait
        obtain ⟨o, rfl, -⟩ := Session.advance_eq_none hwait
        cases hholds
    | none =>
      have hfree : c.session.latched = false := by
        rw [h.lawful.latched, hholder]
        rfl
      refine ⟨call, hmem, hcall, fun hwait => ?_⟩
      obtain ⟨o, -, hlatched⟩ := Session.advance_eq_none hwait
      rw [hfree] at hlatched
      cases hlatched
  obtain ⟨number, hlt, heq⟩ := List.getElem_of_mem hnext
  have hcallAt : c.calls[number]? = some next := by rw [List.getElem?_eq_getElem hlt, heq]
  refine ⟨number, ?_⟩
  cases hresult : c.session.advance next with
  | none => exact absurd hresult hadvance
  | some result =>
    obtain ⟨s', call', queued⟩ := result
    have hless := work_lt (Session.advances_of_advance hresult) hreturned
    have hset := totalWork_set hcallAt call'
    simp only [Contention.apply, hcallAt, hresult]
    omega

/-- **All calls can return**, from wherever they stand. -/
theorem exists_turns (h : c.Orderly first) : ∃ turns : List Nat,
    ∀ call ∈ (c.run (turns.map .advance)).calls, ∃ o, call = .returned o := by
  generalize hw : totalWork c.calls = total
  induction total using Nat.strongRecOn generalizing c first with
  | _ total ih =>
    by_cases hall : ∀ call ∈ c.calls, ∃ o, call = .returned o
    · exact ⟨[], hall⟩
    · simp only [not_forall, not_exists] at hall
      obtain ⟨call, hmem, hcall⟩ := hall
      obtain ⟨number, hless⟩ := exists_advance h hmem hcall
      obtain ⟨turns, hturns⟩ := ih _ (hw ▸ hless) (h.advance number) rfl
      exact ⟨number :: turns, hturns⟩

/-! ## The end -/

/-- How a session ends whose calls, and the commands between them, come in
the order of the moves. -/
structure EndsOnce (start : Contention) (moves : List Move) : Prop where
  /-- Nothing is told, recorded or closed before a call has taken the latch. -/
  before : start.firstToLatch moves = none → (start.run moves).events = [] ∧
    (start.run moves).session.outcome = none ∧
    (start.run moves).session.rendezvous.slot ≠ .closed
  /-- Without a call there is nobody to take the latch. -/
  nobody : (∀ outcome, .call outcome ∉ moves) → start.firstToLatch moves = none
  /-- One event is queued at most, and it is that of the first call's outcome. -/
  event : (start.run moves).events = [] ∨ ∃ o, start.firstToLatch moves = some o ∧
    (start.run moves).events = [o.event]
  /-- That event is the removal of the card or the failure with the reason. -/
  kind : ∀ o, start.firstToLatch moves = some o →
    (o = .removed → o.event = .cardRemoved) ∧ (o ≠ .removed → o.event = .failed o.reason)
  /-- Every call returns the first call's outcome, which is recorded and told by then. -/
  returned : ∀ o, .returned o ∈ (start.run moves).calls → start.firstToLatch moves = some o ∧
    (start.run moves).session.outcome = some o ∧ (start.run moves).events = [o.event]
  /-- What is recorded is the first call's outcome, it is told, and the slot is closed. -/
  recorded : ∀ o, (start.run moves).session.outcome = some o →
    start.firstToLatch moves = some o ∧ (start.run moves).events = [o.event] ∧
    (start.run moves).session.rendezvous.slot = .closed
  /-- Whoever asks while the latch is free learns the first call's outcome. -/
  asked : (start.run moves).session.latched = false →
    (start.run moves).session.outcome = start.firstToLatch moves
  /-- A ticket that a move finds in the slot and closes out gets the reason of
  the first call's outcome, by the time it is recorded and nothing else before. -/
  outstanding : ∀ before move rest t, moves = before ++ move :: rest →
    (start.run before).session.rendezvous.slot.ticket? = some t →
    ((start.run before).apply move).session.rendezvous.slot = .closed →
    ∃ o, start.firstToLatch moves = some o ∧
      ((start.run moves).session.rendezvous.poll t = none ∨
        (start.run moves).session.rendezvous.poll t = some (.error o.reason)) ∧
      ((start.run moves).session.outcome ≠ none →
        (start.run moves).session.rendezvous.poll t = some (.error o.reason))
  /-- Whatever the calls have come to, they can all go on until they return. -/
  settles : ∃ turns : List Nat,
    ∀ call ∈ ((start.run moves).run (turns.map .advance)).calls, ∃ o, call = .returned o

/-- **A session ends once**, however many calls conclude it and in whatever
order their steps, the commands and the answers come. -/
theorem ends_once (card : CardData) (moves : List Move) : EndsOnce (opened card) moves := by
  have h : ((opened card).run moves).Orderly ((opened card).firstToLatch moves) :=
    (Orderly.opened card).run moves
  have hrecorded : ∀ o, ((opened card).run moves).session.outcome = some o →
      (opened card).firstToLatch moves = some o ∧ ((opened card).run moves).events = [o.event] ∧
      ((opened card).run moves).session.rendezvous.slot = .closed := by
    intro o ho
    obtain ⟨hverdict, htold, hclosed⟩ := h.lawful.of_recorded ho
    exact ⟨h.verdict ▸ hverdict, h.events ▸ htold, hclosed⟩
  refine ⟨?_, ?_, ?_, ?_, ?_, hrecorded, ?_, ?_, exists_turns h⟩
  · intro hnone
    obtain ⟨houtcome, htold, hopen⟩ := h.lawful.of_verdict_none (h.verdict.trans hnone)
    exact ⟨h.events.trans htold, houtcome, hopen⟩
  · exact fun hmoves => firstToLatch_of_no_call rfl hmoves
  · rw [h.events, ← h.verdict]
    exact Session.told_cases _ _
  · intro o _
    exact ⟨fun ho => by rw [ho]; rfl, fun ho => by cases o <;> first | exact absurd rfl ho | rfl⟩
  · intro o ho
    have houtcome := h.lawful.returned o ho
    exact ⟨(hrecorded o houtcome).1, houtcome, (hrecorded o houtcome).2.1⟩
  · intro hfree
    rw [h.lawful.outcome_of_free hfree, h.verdict]
  · intro before move rest t hmoves ht hclosed
    have hbefore := (Orderly.opened card).run before
    obtain ⟨o, howed⟩ := Owed.of_shut hbefore ht hclosed
    have hlast := howed.run (hbefore.apply move) rest
    rw [← run_cons, ← run_append, ← hmoves] at hlast
    refine ⟨o, h.verdict ▸ hlast.verdict, ?_, hlast.poll_of_recorded h⟩
    exact hlast.answer.symm.imp_left And.left

/-- One command is carried out and answered, and a second one is in flight when two calls
come to conclude the session. -/
def served : List Move :=
  [.publish [0x00, 0xA4], .next, .complete (.ok [0x90, 0x00]), .publish [0x00, 0xB0], .next,
    .call .removed, .call .cancelled] ++ List.replicate 6 (.advance 1) ++
      List.replicate 2 (.advance 0)

/-- What the session has come to when both have returned. -/
def afterServed : Contention := (opened ⟨"Reader 0", [], .t1⟩).run served

/-- The call that was made second takes the latch first. It is the one that the first call
hears of, and so does the client of the second command. -/
theorem ends_once_served :
    (opened ⟨"Reader 0", [], .t1⟩).firstToLatch served = some .cancelled ∧
    afterServed.session.rendezvous.poll 0 = some (.ok [0x90, 0x00]) ∧
    afterServed.session.rendezvous.poll 1 = some (.error .cancelled) ∧
    afterServed.calls = [.returned .cancelled, .returned .cancelled] ∧
    afterServed.session.outcome = some .cancelled ∧ afterServed.events = [.failed .cancelled] := by
  have h := ends_once ⟨"Reader 0", [], .t1⟩ served
  have hreturned := h.returned .cancelled (by decide)
  exact ⟨hreturned.1, by decide, by decide, by decide, hreturned.2⟩

end Contention

end SmartCard
