import SmartCard.Rendezvous.Split
import SmartCard.Proofs.Rendezvous.Waiting
/-!
# Closing is final

A closed rendezvous never changes again: no operation does anything to it
(`apply_of_closed`), so what it answers right after it was closed is what it
answers for good. `closing_is_final` says what that is, for the first
closure of any run and everything that comes after it.

Two things do not follow from the operations as wholes. A session that
waits for a command may have been anywhere in its wait when the slot was
closed; `Barred` holds of it from then on, by which the closure is offered to
it for good. And the closure may be interrupted between the change of the slot
and the answer; `Split.Owed` follows a ticket from the one to the other.
-/

namespace SmartCard

namespace Listening

/-! ## A session that waits at a closed slot -/

/-- The session waits, and others can use the rendezvous. -/
def Stage.isWaiting : Stage → Bool
  | .arriving | .asleep | .woken _ => true
  | .holding _ | .settled | .reacquired _ | .returned _ => false

/-- The session finds the slot closed whenever it looks, and does not fall
asleep again. -/
structure Barred (l : Listening) : Prop where
  shown : l.shown = .closed
  unsettled : l.stage ≠ .settled
  result : ∀ found, l.stage = .returned found → found = .closed

/-- **What a session does whose slot was closed**: it never sees anything
else, and once it has been woken it returns within three steps of its own. -/
structure Dismissed (l : Listening) : Prop where
  shown : ∀ moves, (l.run moves).shown = .closed
  result : ∀ moves found, (l.run moves).result? = some found → found = .closed
  returns : ∀ moves timedOut later, 3 ≤ later.countP Move.isStep →
    (l.run (moves ++ .wake timedOut :: later)).result? = some .closed

end Listening

namespace Rendezvous

variable {r : Rendezvous}

/-! ## A closed rendezvous -/

/-- **A closed rendezvous does not change**, whatever is done with it. -/
theorem apply_of_closed (h : r.slot = .closed) (op : Op) : (r.apply op).2 = r := by
  cases op with
  | publish command =>
    rcases publish_cases r command with ⟨hidle, -⟩ | ⟨-, e, hr⟩
    · rw [h] at hidle
      cases hidle
    · exact congrArg Prod.snd hr
  | next =>
    rcases next_cases r with ⟨command, t, hslot, -⟩ | ⟨-, hr⟩ | ⟨-, hr⟩
    · rw [h] at hslot
      cases hslot
    · exact congrArg Prod.snd hr
    · exact congrArg Prod.snd hr
  | complete answer =>
    rcases complete_cases r answer with ⟨t, hslot, -⟩ | ⟨-, hr⟩
    · rw [h] at hslot
      cases hslot
    · exact hr
  | close reason =>
    rcases close_cases r reason with ⟨t, hslot, -⟩ | ⟨-, hr⟩
    · rw [h] at hslot
      cases hslot
    · exact (congrArg Prod.snd hr).trans (h ▸ rfl)
  | poll ticket => rfl
  | forget ticket => rfl

/-- Nor does it change in a run. -/
theorem after_of_closed (h : r.slot = .closed) (ops : List Op) : r.after ops = r := by
  induction ops with
  | nil => rfl
  | cons op ops ih => rw [after_cons, apply_of_closed h, ih]

/-- A run without a closure leaves the slot open. -/
theorem slot_after_ne_closed {ops : List Op} (hopen : ∀ reason, .close reason ∉ ops) :
    (after {} ops).slot ≠ .closed := by
  intro hclosed
  have htraced := (Traced.poll_eq_fate ops).1
  obtain ⟨reason, hreason⟩ := Option.isSome_iff_exists.1 (htraced.closed.1 hclosed)
  obtain ⟨⟨op, result⟩, hentry, hop⟩ := List.exists_of_findSome?_eq_some hreason
  have hmem : op ∈ ops := (List.of_mem_zip hentry).1
  cases op with
  | close reason' => exact hopen reason' hmem
  | _ => cases hop

/-- Closing answers the command that was outstanding. -/
theorem poll_close {t : Ticket} (hslot : r.slot.ticket? = some t) (hpoll : r.poll t = none)
    (reason : SessionError) : (r.close reason).2.poll t = some (.error reason) := by
  rcases close_cases r reason with ⟨t', ht', hr⟩ | ⟨ht', -⟩
  · obtain rfl : t' = t := Option.some.inj (ht'.symm.trans hslot)
    rw [hr, poll_resolve, if_pos rfl]
    exact congrArg (Option.or · _) hpoll
  · rw [hslot] at ht'
    cases ht'

/-- Closing leaves every answer as it is. -/
theorem poll_close_of_some {t : Ticket} {a : Answer} (hpoll : r.poll t = some a)
    (reason : SessionError) : (r.close reason).2.poll t = some a := by
  rcases close_cases r reason with ⟨t', -, hr⟩ | ⟨-, hr⟩
  · rw [hr]
    exact poll_resolve_of_some hpoll
  · rw [hr]
    exact hpoll

end Rendezvous

namespace Listening

open Rendezvous (apply_of_closed)

variable {l : Listening}

/-! ## The end of a wait -/

/-- Every operation leaves a closure in the slot. -/
theorem preserves_closed (op : Rendezvous.Op) : Preserves (· = .closed) op := by
  rintro r found hoffer rfl
  refine ⟨.closed, ?_, rfl⟩
  have hslot : r.slot = .closed := by
    cases hslot : r.slot with
    | closed => rfl
    | _ => simp [Slot.offer?, hslot] at hoffer
  rw [apply_of_closed hslot, hoffer]

/-- What is in a closed slot for a session is the closure. -/
theorem Barred.offers (h : l.Barred) : l.Offers (· = .closed) where
  offered _ := ⟨.closed, by rw [h.shown]; rfl, rfl⟩
  unsettled := h.unsettled
  result found hfound := by
    refine h.result found ?_
    unfold result? at hfound
    split at hfound
    · next heq => exact Option.some.inj hfound ▸ heq
    · cases hfound

/-- **A session that finds the slot closed goes on finding it closed**,
whoever moves. -/
theorem Barred.apply (h : l.Barred) (move : Move) : (l.apply move).Barred := by
  have hclosed : l.visible.slot = .closed := h.shown
  have hvisible : (l.apply move).visible = l.visible := by
    have hshows := shows_of_apply l move
    generalize l.deed? move = entry at hshows
    cases hshows with
    | quiet hvisible _ => exact hvisible
    | acts op hvisible _ => exact hvisible.trans (apply_of_closed hclosed op)
    | returns found _ hnext _ =>
      exact (congrArg Prod.snd hnext).symm.trans (apply_of_closed hclosed .next)
  have hoffers : (l.apply move).Offers (· = .closed) :=
    h.offers.apply fun op _ _ _ => preserves_closed op
  refine ⟨(congrArg Rendezvous.slot hvisible).trans hclosed, hoffers.unsettled, ?_⟩
  exact fun found hstage => hoffers.result found (by rw [result?, hstage])

theorem Barred.run (h : l.Barred) (moves : List Move) : (l.run moves).Barred := by
  induction moves generalizing l with
  | nil => exact h
  | cons move moves ih => exact ih (h.apply move)

/-- **A session that finds the slot closed is dismissed.** -/
theorem Barred.dismissed (h : l.Barred) : l.Dismissed := by
  refine ⟨fun moves => (h.run moves).shown, fun moves => (h.run moves).offers.result, ?_⟩
  intro moves timedOut later hsteps
  have hwoken : ((l.run moves).wake timedOut).Barred := (h.run moves).apply (.wake timedOut)
  have hawake := (l.run moves).toGo_wake timedOut
  obtain ⟨found, hfound, rfl⟩ := exists_result (fun _ h => h.offers)
    (fun _ move _ h => h.apply move) hwoken hawake (Nat.le_trans hawake hsteps)
  rw [run_append]
  exact hfound

/-- A session that waits while the slot is closed finds it closed. -/
theorem barred_of_close {r : Rendezvous} {stage : Stage} (hwaiting : stage.isWaiting = true)
    (reason : SessionError) :
    (({ rendezvous := r, stage } : Listening).apply (.other (.close reason))).Barred := by
  have hclosed := r.slot_close reason
  cases stage with
  | arriving => exact ⟨hclosed, nofun, nofun⟩
  | asleep => exact ⟨hclosed, nofun, nofun⟩
  | woken timedOut => exact ⟨hclosed, nofun, nofun⟩
  | _ => cases hwaiting

end Listening

namespace Rendezvous

namespace Split

/-! ## A closure in two steps -/

variable {s : Split} {t : Ticket} {a : Answer}

/-- The tickets that somebody is about to resolve. -/
def underway (s : Split) : List Ticket :=
  s.under.map Prod.fst

/-- **Every ticket stays in one place** while operations are interrupted. -/
theorem accounted_apply (h : s.rendezvous.Accounted s.underway) (step : Step) :
    (s.apply step).rendezvous.Accounted (s.apply step).underway := by
  cases step with
  | publish command => exact h.publish command
  | next => exact h.next
  | beginComplete answer =>
    rcases s.rendezvous.release_cases with ⟨t, -, hr⟩ | ⟨-, hr⟩
    · have hreleased := h.release hr
      simp only [apply, hr]
      refine hreleased.congr ?_
      simpa [underway] using (List.perm_append_singleton t s.underway).symm
    · simp only [apply, hr]
      exact h
  | beginClose reason =>
    have hshut := h.shut
    cases hticket : s.rendezvous.slot.ticket? with
    | none =>
      rw [hticket] at hshut
      simp only [apply, shut, hticket]
      exact hshut
    | some t =>
      rw [hticket] at hshut
      simp only [apply, shut, hticket]
      refine hshut.congr ?_
      simpa [underway] using (List.perm_append_singleton t s.underway).symm
  | finish index =>
    simp only [apply]
    cases hget : s.under[index]? with
    | none => exact h
    | some entry =>
      obtain ⟨hlt, rfl⟩ := List.getElem?_eq_some_iff.1 hget
      refine Accounted.resolve (h.congr ?_) _
      exact ((List.getElem_cons_eraseIdx_perm hlt).map Prod.fst).symm

theorem accounted_run (steps : List Step) :
    (run {} steps).rendezvous.Accounted (run {} steps).underway := by
  induction steps using List.reverseRecOn with
  | nil => exact accounted_new
  | append_singleton steps step ih =>
    rw [run, List.foldl_concat]
    exact accounted_apply ih step

/-- A ticket of a closed slot has this answer, or somebody is about to give it
this answer; and nobody is about to give it another. -/
structure Owed (s : Split) (t : Ticket) (a : Answer) : Prop where
  slot : s.rendezvous.slot = .closed
  poll : s.rendezvous.poll t = some a ∨ s.rendezvous.poll t = none ∧ (t, a) ∈ s.under
  only : ∀ a', (t, a') ∈ s.under → a' = a

/-- **An answer that is owed stays owed until it is given**, and is then the
answer for good. -/
theorem Owed.apply (h : s.Owed t a) (step : Step) : (s.apply step).Owed t a := by
  cases step with
  | publish command =>
    have hsame : (s.rendezvous.publish command).2 = s.rendezvous :=
      apply_of_closed h.slot (.publish command)
    simp only [Split.apply, hsame]
    exact h
  | next =>
    have hsame : s.rendezvous.next.2 = s.rendezvous := apply_of_closed h.slot .next
    simp only [Split.apply, hsame]
    exact h
  | beginComplete answer =>
    have hnone : s.rendezvous.release = (none, s.rendezvous) := by simp only [release, h.slot]
    simp only [Split.apply, hnone]
    exact h
  | beginClose reason =>
    simp only [Split.apply, shut, h.slot, Slot.ticket?]
    exact ⟨rfl, h.poll, h.only⟩
  | finish index =>
    simp only [Split.apply]
    cases hget : s.under[index]? with
    | none => exact h
    | some entry =>
      obtain ⟨t', a'⟩ := entry
      refine ⟨h.slot, ?_, fun b hb => h.only b (List.mem_of_mem_eraseIdx hb)⟩
      rcases h.poll with hpoll | ⟨hpoll, hunder⟩
      · exact .inl (poll_resolve_of_some hpoll)
      · rw [poll_resolve, hpoll, Option.none_or]
        by_cases heq : t' = t
        · -- it is this ticket that is resolved now
          subst heq
          rw [if_pos rfl, h.only a' (List.mem_of_getElem? hget)]
          exact .inl rfl
        · rw [if_neg heq]
          refine .inr ⟨rfl, List.mem_eraseIdx_iff_getElem?.2 ?_⟩
          obtain ⟨i, hi⟩ := List.mem_iff_getElem?.1 hunder
          refine ⟨i, fun hii => ?_, hi⟩
          rw [hii, hget] at hi
          exact heq (Prod.mk.inj (Option.some.inj hi)).1

theorem Owed.run (h : s.Owed t a) (steps : List Step) : (s.run steps).Owed t a := by
  induction steps generalizing s with
  | nil => exact h
  | cons step steps ih => exact ih (h.apply step)

/-- **The reason of a closure reaches the command that was outstanding**, even
if the closure is interrupted before it gives the answer. -/
theorem owed_of_beginClose (before later : List Step) (reason : SessionError)
    (ht : (run {} before).rendezvous.slot.ticket? = some t) :
    (run {} (before ++ .beginClose reason :: later)).Owed t (.error reason) := by
  have haccounted := accounted_run before
  have hrun : run {} (before ++ .beginClose reason :: later) =
      ((run {} before).apply (.beginClose reason)).run later :=
    List.foldl_append
  rw [hrun]
  refine Owed.run ?_ later
  generalize run {} before = s at ht haccounted
  have hmem : t ∈ s.rendezvous.slot.ticket?.toList ++ s.underway := by simp [ht]
  have hpoll := ((haccounted.unanswered_iff t).2 hmem).2
  -- the ticket in the slot is not one that somebody is about to resolve
  have hnot : t ∉ s.underway := by
    have hnodup := haccounted.nodup
    rw [ht, List.append_assoc] at hnodup
    exact fun hunder => (List.nodup_cons.1 hnodup).1
      (List.mem_append_left s.rendezvous.answered hunder)
  simp only [Split.apply, shut, ht]
  refine ⟨rfl, .inr ⟨hpoll, List.mem_append_right _ List.mem_cons_self⟩, fun a' ha' => ?_⟩
  rcases List.mem_append.1 ha' with hold | hnew
  · exact absurd (List.mem_map_of_mem hold) hnot
  · exact (Prod.mk.inj (List.mem_singleton.1 hnew)).2

end Split

/-! ## The first closure of a run -/

/-- **What the first closure makes of a rendezvous**, whatever comes after it. -/
structure Final (r : Rendezvous) (reason : SessionError) (r' : Rendezvous) : Prop where
  slot : r'.slot = .closed
  /-- Nobody takes the session behind it for active. -/
  inactive : r'.isClosed = true
  /-- Every command is refused. -/
  publish : ∀ command, r'.publish command =
    (.error (.configuration "no session is accepting commands"), r')
  /-- Every look for a command finds the slot closed. -/
  next : r'.next = (.closed, r')
  /-- So does one that was waiting when the slot was closed, wherever it was. -/
  waiting : ∀ stage : Listening.Stage, stage.isWaiting = true →
    (({ rendezvous := r, stage } : Listening).apply (.other (.close reason))).Dismissed
  /-- Every completion is discarded. -/
  complete : ∀ answer, r'.complete answer = r'
  /-- Every other closure is told that it was late, and changes nothing. -/
  close : ∀ reason', r'.close reason' = (false, r')
  /-- A command that was outstanding has the reason for its answer, whether it
  was still unclaimed or already in flight. -/
  outstanding : ∀ t, (r.slot = .inFlight t ∨ ∃ command, r.slot = .requested command t) →
    r'.poll t = some (.error reason)
  /-- An answer given before is still the answer. -/
  answered : ∀ t a, r.poll t = some a → r'.poll t = some a

/-- **Closing is final, and happens once.** In every run of operations on a new
rendezvous, the first closure is told that it closed the slot, and nothing
that follows undoes any part of it. An outstanding command is owed the reason
also where operations are interrupted, the closure itself or others that began
before it or after. -/
theorem closing_is_final (before later : List Op) (reason : SessionError)
    (hopen : ∀ reason', .close reason' ∉ before) :
    ((after {} before).close reason).1 = true ∧
      (after {} before).Final reason (after {} (before ++ .close reason :: later)) ∧
      ∀ (begun steps : List Split.Step) (t : Ticket),
        (Split.run {} begun).rendezvous.slot.ticket? = some t →
          (Split.run {} (begun ++ .beginClose reason :: steps)).Owed t (.error reason) := by
  have hslot := slot_after_ne_closed hopen
  have htraced := (Traced.poll_eq_fate before).1
  generalize hr : after {} before = r at hslot htraced
  -- what comes after the closure finds it as it was left
  have hclosed := r.slot_close reason
  have hafter : after {} (before ++ .close reason :: later) = (r.close reason).2 := by
    rw [after_append, hr, after_cons]
    exact after_of_closed hclosed later
  have houtstanding : ∀ t, r.slot.ticket? = some t → r.poll t = none := by
    intro t ht
    refine ((htraced.accounted.unanswered_iff t).2 ?_).2
    simpa using ht
  rw [hafter]
  refine ⟨by simpa [close_fst, isClosed] using hslot, ?_,
    fun begun steps t => Split.owed_of_beginClose begun steps reason⟩
  generalize hr' : (r.close reason).2 = r' at hclosed
  refine
    { slot := hclosed
      inactive := decide_eq_true hclosed
      publish := fun command => by simp only [publish, hclosed, SessionError.noSession]
      next := by simp only [next, hclosed]
      waiting := fun stage hwaiting => (Listening.barred_of_close hwaiting reason).dismissed
      complete := fun answer => apply_of_closed hclosed (.complete answer)
      close := fun reason' => Prod.ext ?_ (apply_of_closed hclosed (.close reason'))
      outstanding := fun t ht => ?_
      answered := fun t a ha => hr' ▸ poll_close_of_some ha reason }
  · rw [close_fst, isClosed, decide_eq_true hclosed]
    rfl
  · have hticket : r.slot.ticket? = some t := by
      rcases ht with ht | ⟨command, ht⟩ <;> rw [ht] <;> rfl
    exact hr' ▸ poll_close hticket (houtstanding t hticket) reason

/-- A command in flight when the slot is closed, followed by a completion that
comes too late, a second closure and another command. -/
theorem closing_is_final_in_flight :
    (∀ reason, Op.close reason ∉ [.publish [0x00], .next]) ∧
      (after {} [.publish [0x00], .next, .close .cardRemoved, .complete (.ok [0x90, 0x00]),
        .close .cancelled, .publish [0x01]]).poll 0 = some (.error .cardRemoved) := by
  have hopen : ∀ reason, Op.close reason ∉ [.publish [0x00], .next] := by simp
  have hfinal := (closing_is_final [.publish [0x00], .next]
    [.complete (.ok [0x90, 0x00]), .close .cancelled, .publish [0x01]] .cardRemoved hopen).2.1
  exact ⟨hopen, hfinal.outstanding 0 (.inl rfl)⟩

end Rendezvous

end SmartCard
