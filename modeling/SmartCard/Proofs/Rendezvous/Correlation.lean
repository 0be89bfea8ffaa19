import SmartCard.Proofs.Rendezvous.Tickets
import Mathlib.Data.List.Induction
import Mathlib.Data.List.TakeWhile
/-!
# Which answer belongs to which command

A run of operations leaves a history: each operation with what it returned.
From the history alone one can read which commands were accepted, which were
handed out, and what the holder of each ticket is due (`fate`): the first
completion after its own command was handed out, or the reason of the first
closure if that comes before. `correlation` says that a rendezvous gives
every ticket what it is due.

The proof adds one operation at the end: `fate_concat` says what the history
gains by it, and `poll_apply` that the rendezvous gains the same.
-/

namespace SmartCard

namespace Rendezvous

/-! ## Histories -/

/-- An operation with what it returned. -/
abbrev Entry := Op × Result

/-- The operations of a run with what each returned. -/
def history (r : Rendezvous) (ops : List Op) : List Entry :=
  ops.zip ((r.run ops).map Prod.fst)

/-- The rendezvous at the end of a run. -/
def after (r : Rendezvous) (ops : List Op) : Rendezvous :=
  ((r.run ops).getLast?.map Prod.snd).getD r

/-- The command that was accepted. -/
def accepted? : Entry → Option Bytes
  | (.publish command, .published (.ok _)) => some command
  | _ => none

/-- The ticket that was given out. -/
def issued? : Entry → Option Ticket
  | (.publish _, .published (.ok t)) => some t
  | _ => none

/-- The command that was handed out. -/
def handed? : Entry → Option Bytes
  | (.next, .next (.command command)) => some command
  | _ => none

/-- The answer that a completion brings. -/
def completion? : Entry → Option Answer
  | (.complete answer, _) => some answer
  | _ => none

/-- The reason that a closure brings. -/
def closure? : Entry → Option SessionError
  | (.close reason, _) => some reason
  | _ => none

/-- The commands accepted, in order. -/
def acceptedIn (h : List Entry) : List Bytes := h.filterMap accepted?

/-- The commands handed out, in order. -/
def handedIn (h : List Entry) : List Bytes := h.filterMap handed?

/-- What comes after the command with this number was handed out. -/
def afterHanding : Nat → List Entry → List Entry
  | _, [] => []
  | n, entry :: h =>
    match handed? entry, n with
    | none, n => afterHanding n h
    | some _, 0 => h
    | some _, n + 1 => afterHanding n h

/-- What comes before the first closure. -/
def beforeClosure (h : List Entry) : List Entry :=
  h.takeWhile fun entry => (closure? entry).isNone

/-- **What the holder of a ticket is due**: the first completion after its own
command was handed out, unless the slot was closed first; then the reason of
the first closure. -/
def fate (t : Ticket) (h : List Entry) : Option Answer :=
  ((afterHanding t (beforeClosure h)).findSome? completion?).or
    ((h.findSome? closure?).map .error)

/-! ## A history that goes on -/

variable {h : List Entry} {entry : Entry} {t : Ticket}

theorem history_cons (r : Rendezvous) (op : Op) (ops : List Op) :
    r.history (op :: ops) = (op, (r.apply op).1) :: (r.apply op).2.history ops := rfl

theorem after_cons (r : Rendezvous) (op : Op) (ops : List Op) :
    r.after (op :: ops) = (r.apply op).2.after ops := by
  unfold after
  rw [run, List.getLast?_cons]
  cases (run (r.apply op).2 ops).getLast? <;> rfl

/-- A run goes on from where its first part has led. -/
theorem after_append (r : Rendezvous) (ops ops' : List Op) :
    r.after (ops ++ ops') = (r.after ops).after ops' := by
  induction ops generalizing r with
  | nil => rfl
  | cons op ops ih => rw [List.cons_append, after_cons, after_cons, ih]

/-- The last operation of a run acts on what the others left. -/
theorem after_concat (r : Rendezvous) (ops : List Op) (op : Op) :
    r.after (ops ++ [op]) = ((r.after ops).apply op).2 := by
  induction ops generalizing r with
  | nil => rfl
  | cons first ops ih => rw [List.cons_append, after_cons, ih, after_cons]

/-- The last operation of a run is the last entry of its history. -/
theorem history_concat (r : Rendezvous) (ops : List Op) (op : Op) :
    r.history (ops ++ [op]) = r.history ops ++ [(op, ((r.after ops).apply op).1)] := by
  induction ops generalizing r with
  | nil => rfl
  | cons first ops ih =>
    rw [List.cons_append, history_cons, ih, history_cons, after_cons, List.cons_append]

/-- One more entry brings at most one more command accepted, one more handed
out, and one more ticket. -/
theorem filterMap_concat {α : Type} (f : Entry → Option α) (h : List Entry) (entry : Entry) :
    (h ++ [entry]).filterMap f = h.filterMap f ++ (f entry).toList := by
  rw [List.filterMap_append]
  cases hf : f entry <;> simp [hf]

theorem acceptedIn_concat (h : List Entry) (entry : Entry) :
    acceptedIn (h ++ [entry]) = acceptedIn h ++ (accepted? entry).toList :=
  filterMap_concat accepted? h entry

theorem handedIn_concat (h : List Entry) (entry : Entry) :
    handedIn (h ++ [entry]) = handedIn h ++ (handed? entry).toList :=
  filterMap_concat handed? h entry

/-- Nothing is closed before the first closure. -/
theorem beforeClosure_of_open (hopen : h.findSome? closure? = none) : beforeClosure h = h := by
  rw [beforeClosure, List.takeWhile_eq_self_iff]
  intro entry hentry
  rw [List.findSome?_eq_none_iff.1 hopen entry hentry]
  rfl

/-- After a closure, what comes before it stays what it was. -/
theorem beforeClosure_concat (h : List Entry) (entry : Entry) :
    beforeClosure (h ++ [entry]) =
      if (h.findSome? closure?).isSome then beforeClosure h
      else h ++ if (closure? entry).isSome then [] else [entry] := by
  induction h with
  | nil => cases hc : closure? entry <;> simp [beforeClosure, hc]
  | cons first h ih =>
    unfold beforeClosure at ih ⊢
    rw [List.cons_append, List.takeWhile_cons, List.takeWhile_cons, List.findSome?_cons]
    cases hc : closure? first with
    | some reason => rfl
    | none =>
      simp only [Option.isNone_none, if_true, ih]
      split <;> rfl

/-- A command that was handed out has one more entry after it. -/
theorem afterHanding_concat_of_lt (hlt : t < (handedIn h).length) :
    afterHanding t (h ++ [entry]) = afterHanding t h ++ [entry] := by
  induction h generalizing t with
  | nil => simp [handedIn] at hlt
  | cons first h ih =>
    rw [List.cons_append]
    cases hh : handed? first with
    | none =>
      have hin : handedIn (first :: h) = handedIn h := by simp [handedIn, hh]
      simp only [afterHanding, hh]
      exact ih (hin ▸ hlt)
    | some command =>
      cases t with
      | zero => simp only [afterHanding, hh]
      | succ t =>
        have hin : handedIn (first :: h) = command :: handedIn h := by simp [handedIn, hh]
        rw [hin, List.length_cons] at hlt
        simp only [afterHanding, hh]
        exact ih (Nat.lt_of_succ_lt_succ hlt)

/-- Nothing comes after a command that was not handed out. -/
theorem afterHanding_of_le (hle : (handedIn h).length ≤ t) : afterHanding t h = [] := by
  induction h generalizing t with
  | nil => rfl
  | cons first h ih =>
    cases hh : handed? first with
    | none =>
      have hin : handedIn (first :: h) = handedIn h := by simp [handedIn, hh]
      simp only [afterHanding, hh]
      exact ih (hin ▸ hle)
    | some command =>
      have hin : handedIn (first :: h) = command :: handedIn h := by simp [handedIn, hh]
      rw [hin, List.length_cons] at hle
      cases t with
      | zero => exact absurd hle (Nat.not_succ_le_zero _)
      | succ t =>
        simp only [afterHanding, hh]
        exact ih (Nat.le_of_succ_le_succ hle)

/-- Nothing comes after a command that the last entry hands out. -/
theorem afterHanding_concat_of_le (hle : (handedIn h).length ≤ t) :
    afterHanding t (h ++ [entry]) = [] := by
  induction h generalizing t with
  | nil => cases hh : handed? entry <;> cases t <;> simp only [List.nil_append, afterHanding, hh]
  | cons first h ih =>
    rw [List.cons_append]
    cases hh : handed? first with
    | none =>
      have hin : handedIn (first :: h) = handedIn h := by simp [handedIn, hh]
      simp only [afterHanding, hh]
      exact ih (hin ▸ hle)
    | some command =>
      have hin : handedIn (first :: h) = command :: handedIn h := by simp [handedIn, hh]
      rw [hin, List.length_cons] at hle
      cases t with
      | zero => exact absurd hle (Nat.not_succ_le_zero _)
      | succ t =>
        simp only [afterHanding, hh]
        exact ih (Nat.le_of_succ_le_succ hle)

/-- What a ticket comes to be due by one more entry, if it is not due
something already: while the slot is open, a completion counts for commands
handed out, and a closure for all. -/
def dueBy (t : Ticket) (h : List Entry) (entry : Entry) : Option Answer :=
  if (h.findSome? closure?).isSome then none
  else ((if t < (handedIn h).length then completion? entry else none).or
    ((closure? entry).map .error))

/-- **What is due only grows**, entry by entry. -/
theorem fate_concat (t : Ticket) (h : List Entry) (entry : Entry) :
    fate t (h ++ [entry]) = (fate t h).or (dueBy t h entry) := by
  unfold fate dueBy
  rw [beforeClosure_concat, List.findSome?_append]
  cases hclosed : h.findSome? closure? with
  | some reason => simp
  | none =>
    rw [beforeClosure_of_open hclosed]
    simp only [Option.isSome_none, Bool.false_eq_true, if_false, Option.none_or, Option.map_none,
      Option.or_none, List.findSome?_singleton]
    cases hc : closure? entry with
    | some reason =>
      -- an entry that closes the slot completes nothing
      have hn : completion? entry = none := by
        obtain ⟨op, result⟩ := entry
        cases op <;> simp_all [closure?, completion?]
      simp [hn]
    | none =>
      simp only [Option.isSome_none, Bool.false_eq_true, if_false, Option.map_none, Option.or_none]
      rcases Nat.lt_or_ge t (handedIn h).length with hlt | hge
      · rw [afterHanding_concat_of_lt hlt, List.findSome?_append, List.findSome?_singleton,
          if_pos hlt]
      · rw [afterHanding_concat_of_le hge, afterHanding_of_le hge, if_neg (Nat.not_lt.2 hge)]
        rfl

/-- A ticket is due nothing while the slot is open and its command was not
handed out. -/
theorem fate_eq_none (hopen : h.findSome? closure? = none) (hle : (handedIn h).length ≤ t) :
    fate t h = none := by
  rw [fate, beforeClosure_of_open hopen, afterHanding_of_le hle, hopen]
  rfl

/-! ## The rendezvous keeps up with its history -/

/-- What a history says of the rendezvous that it leads to. -/
structure Traced (r : Rendezvous) (h : List Entry) : Prop where
  accounted : r.Accounted []
  hands : r.Hands (acceptedIn h) (handedIn h)
  tickets : h.filterMap issued? = List.range r.issued
  closed : r.slot = .closed ↔ (h.findSome? closure?).isSome

namespace Traced

variable {r : Rendezvous}

/-- A new rendezvous has no history. -/
theorem new : Traced {} [] where
  accounted := accounted_new
  hands := hands_new
  tickets := rfl
  closed := by simp

/-- While the slot is open, the history has no closure. -/
theorem findSome?_closure (ht : r.Traced h) (hopen : r.slot ≠ .closed) :
    h.findSome? closure? = none :=
  Option.not_isSome_iff_eq_none.1 fun hsome => hopen (ht.closed.2 hsome)

/-- **One operation** leads to a rendezvous with one more entry. -/
theorem apply (ht : r.Traced h) (op : Op) :
    (r.apply op).2.Traced (h ++ [(op, (r.apply op).1)]) := by
  -- an entry that says nothing belongs to an operation that changes nothing
  have hsame : ∀ entry : Entry, accepted? entry = none → handed? entry = none →
      issued? entry = none → closure? entry = none → r.Traced (h ++ [entry]) := by
    intro entry ha hh hi hc
    refine ⟨ht.accounted, ?_, ?_, ?_⟩
    · rw [acceptedIn_concat, handedIn_concat, ha, hh]
      simpa using ht.hands
    · rw [filterMap_concat, hi]
      simpa using ht.tickets
    · simpa [hc] using ht.closed
  cases op with
  | publish command =>
    rcases publish_cases r command with ⟨hidle, hr⟩ | ⟨-, e, hr⟩
    · have hopen := ht.findSome?_closure (by rw [hidle]; nofun)
      have haccounted := ht.accounted.publish command
      rw [hr] at haccounted
      simp only [Rendezvous.apply, hr]
      refine ⟨haccounted, ?_, ?_, ?_⟩
      · rw [acceptedIn_concat, handedIn_concat]
        simpa [accepted?, handed?] using ht.hands.publish_ok hidle command
      · rw [filterMap_concat, ht.tickets, List.range_succ]
        rfl
      · simp [hopen, closure?]
    · simp only [Rendezvous.apply, hr]
      exact hsame _ rfl rfl rfl rfl
  | next =>
    rcases next_cases r with ⟨command, t, hslot, hr⟩ | ⟨-, hr⟩ | ⟨-, hr⟩
    · have hopen := ht.findSome?_closure (by rw [hslot]; nofun)
      have haccounted := ht.accounted.next
      rw [hr] at haccounted
      simp only [Rendezvous.apply, hr]
      refine ⟨haccounted, ?_, ?_, ?_⟩
      · rw [acceptedIn_concat, handedIn_concat]
        simpa [accepted?, handed?] using ht.hands.next_command hslot
      · rw [filterMap_concat, ht.tickets]
        exact List.append_nil _
      · simp [hopen, closure?]
    · simp only [Rendezvous.apply, hr]
      exact hsame _ rfl rfl rfl rfl
    · simp only [Rendezvous.apply, hr]
      exact hsame _ rfl rfl rfl rfl
  | complete answer =>
    rcases complete_cases r answer with ⟨t, hslot, hr⟩ | ⟨-, hr⟩
    · have hopen := ht.findSome?_closure (by rw [hslot]; nofun)
      have haccounted := ht.accounted.complete answer
      rw [hr] at haccounted
      simp only [Rendezvous.apply, hr]
      refine ⟨haccounted, ?_, ?_, ?_⟩
      · rw [acceptedIn_concat, handedIn_concat]
        simpa [accepted?, handed?] using (ht.hands.idle hslot).resolve t answer
      · rw [filterMap_concat, ht.tickets]
        exact List.append_nil _
      · simp [hopen, closure?, resolve]
    · simp only [Rendezvous.apply, hr]
      exact hsame _ rfl rfl rfl rfl
  | close reason =>
    have hissued : (r.close reason).2.issued = r.issued := by
      rcases close_cases r reason with ⟨t, -, hr⟩ | ⟨-, hr⟩
      · rw [hr, resolve]
      · rw [hr]
    simp only [Rendezvous.apply]
    refine ⟨ht.accounted.close reason, ?_, ?_, ?_⟩
    · rw [acceptedIn_concat, handedIn_concat]
      simpa [accepted?, handed?] using ht.hands.closed.of_eq (slot_close r reason) hissued
    · rw [filterMap_concat, ht.tickets, hissued]
      exact List.append_nil _
    · simp [slot_close, closure?, List.findSome?_append]
  | poll t => exact hsame _ rfl rfl rfl rfl
  | forget t => exact hsame _ rfl rfl rfl rfl

/-- A ticket that is not in the slot and was given out has its answer. -/
theorem exists_poll (ht : r.Traced h) {t : Ticket} (hlt : t < r.issued)
    (hslot : r.slot.ticket? ≠ some t) : ∃ a, r.poll t = some a := by
  rw [← Option.ne_none_iff_exists']
  intro hnone
  have := (ht.accounted.unanswered_iff t).1 ⟨hlt, hnone⟩
  rw [List.append_nil, Option.mem_toList] at this
  exact hslot this

/-- **One operation answers what is due by it**, for every ticket given out. -/
theorem poll_apply (ht : r.Traced h) (op : Op) (hlt : t < r.issued) :
    (r.apply op).2.poll t = (r.poll t).or (dueBy t h (op, (r.apply op).1)) := by
  -- what is due by an entry does not matter to a ticket that has its answer
  have hanswered : ∀ {r' : Rendezvous} {due : Option Answer}, r.slot.ticket? ≠ some t →
      r'.poll t = r.poll t → r'.poll t = (r.poll t).or due := by
    intro r' due hslot hr'
    obtain ⟨a, ha⟩ := ht.exists_poll hlt hslot
    rw [hr', ha, Option.some_or]
  cases op with
  | publish command =>
    have hdue : dueBy t h (.publish command, (r.apply (.publish command)).1) = none := by
      simp [dueBy, completion?, closure?]
    rw [hdue, Option.or_none]
    rcases publish_cases r command with ⟨-, hr⟩ | ⟨-, e, hr⟩
    · simp only [Rendezvous.apply, hr, poll]
    · simp only [Rendezvous.apply, hr]
  | next =>
    have hdue : dueBy t h (.next, (r.apply .next).1) = none := by
      simp [dueBy, completion?, closure?]
    rw [hdue, Option.or_none]
    rcases next_cases r with ⟨command, t', -, hr⟩ | ⟨-, hr⟩ | ⟨-, hr⟩
    · simp only [Rendezvous.apply, hr, poll]
    · simp only [Rendezvous.apply, hr]
    · simp only [Rendezvous.apply, hr]
  | complete answer =>
    simp only [Rendezvous.apply]
    rcases complete_cases r answer with ⟨t', hslot, hr⟩ | ⟨hslot, hr⟩
    · rw [hr, poll_resolve]
      by_cases heq : t' = t
      · -- the command in flight was handed out, and the slot is open
        subst heq
        have hopen := ht.findSome?_closure (by simp [hslot])
        have hhanded : t' < (handedIn h).length :=
          Nat.lt_of_succ_le (ht.hands.of_inFlight hslot).1.le
        simp [dueBy, hopen, hhanded, completion?, closure?, poll]
      · rw [if_neg heq, Option.or_none]
        refine hanswered ?_ rfl
        rw [hslot]
        simpa [Slot.ticket?] using heq
    · rw [hr]
      cases hs : r.slot with
      | inFlight t' => exact absurd hs (hslot t')
      | idle => exact hanswered (by simp [hs, Slot.ticket?]) rfl
      | closed => exact hanswered (by simp [hs, Slot.ticket?]) rfl
      | requested command t' =>
        by_cases heq : t' = t
        · -- the command that waits was not handed out
          subst heq
          have hnot : ¬ t' < (handedIn h).length :=
            Nat.not_lt.2 (ht.hands.of_requested hs).1.ge
          simp [dueBy, hnot, closure?]
        · refine hanswered ?_ rfl
          rw [hs]
          simpa [Slot.ticket?] using heq
  | close reason =>
    simp only [Rendezvous.apply]
    rcases close_cases r reason with ⟨t', hslot, hr⟩ | ⟨hslot, hr⟩
    · rw [hr, poll_resolve]
      by_cases heq : t' = t
      · subst heq
        have hopen := ht.findSome?_closure (by intro hc; rw [hc] at hslot; cases hslot)
        simp [dueBy, hopen, completion?, closure?, poll]
      · rw [if_neg heq, Option.or_none]
        refine hanswered ?_ rfl
        rw [hslot]
        simpa using heq
    · rw [hr]
      exact hanswered (by simp [hslot]) rfl
  | poll t' =>
    simp [Rendezvous.apply, dueBy, completion?, closure?]
  | forget t' =>
    simp [Rendezvous.apply, dueBy, completion?, closure?]

/-- **Every ticket given out has what it is due**, after any run. -/
theorem poll_eq_fate (ops : List Op) :
    (after {} ops).Traced (history {} ops) ∧
      ∀ t < (after {} ops).issued, (after {} ops).poll t = fate t (history {} ops) := by
  induction ops using List.reverseRecOn with
  | nil => exact ⟨.new, fun t hlt => absurd hlt (Nat.not_lt_zero t)⟩
  | append_singleton ops op ih =>
    obtain ⟨ht, hfate⟩ := ih
    rw [after_concat, history_concat]
    refine ⟨ht.apply op, fun t hlt => ?_⟩
    rw [fate_concat]
    rcases Nat.lt_or_ge t (after {} ops).issued with hold | hnew
    · rw [ht.poll_apply op hold, hfate t hold]
    · -- only an accepted command gives out a ticket, and it is due nothing yet
      have hpublish : ∃ command, op = .publish command ∧ (after {} ops).slot = .idle := by
        cases op with
        | publish command =>
          rcases publish_cases (after {} ops) command with ⟨hidle, -⟩ | ⟨-, e, hr⟩
          · exact ⟨command, rfl, hidle⟩
          · simp only [Rendezvous.apply, hr] at hlt
            exact absurd hlt (Nat.not_lt.2 hnew)
        | next =>
          rcases next_cases (after {} ops) with ⟨c, t', -, hr⟩ | ⟨-, hr⟩ | ⟨-, hr⟩ <;>
            simp only [Rendezvous.apply, hr] at hlt <;> exact absurd hlt (Nat.not_lt.2 hnew)
        | complete answer =>
          rcases complete_cases (after {} ops) answer with ⟨t', -, hr⟩ | ⟨-, hr⟩ <;>
            simp only [Rendezvous.apply, hr] at hlt <;> exact absurd hlt (Nat.not_lt.2 hnew)
        | close reason =>
          rcases close_cases (after {} ops) reason with ⟨t', -, hr⟩ | ⟨-, hr⟩ <;>
            simp only [Rendezvous.apply, hr] at hlt <;> exact absurd hlt (Nat.not_lt.2 hnew)
        | poll t' => exact absurd hlt (Nat.not_lt.2 hnew)
        | forget t' => exact absurd hlt (Nat.not_lt.2 hnew)
      obtain ⟨command, rfl, hidle⟩ := hpublish
      have hopen := ht.findSome?_closure (by rw [hidle]; nofun)
      have hle : (handedIn (history {} ops)).length ≤ t := by
        have hlen := ht.hands.isPrefix.length_le
        rw [ht.hands.1] at hlen
        exact Nat.le_trans hlen hnew
      have hnone : (after {} ops).poll t = none := ht.accounted.poll_of_le hnew
      have hdue : dueBy t (history {} ops)
          (.publish command, ((after {} ops).apply (.publish command)).1) = none := by
        simp [dueBy, completion?, closure?]
      rw [fate_eq_none hopen hle, hdue]
      simpa [Rendezvous.apply, publish, hidle, poll] using hnone

end Traced

/-! ## The correlation -/

/-- How a rendezvous answers the commands of its history. -/
structure Correlated (r : Rendezvous) (h : List Entry) : Prop where
  /-- The tickets are the numbers of the accepted commands. -/
  tickets : h.filterMap issued? = List.range (acceptedIn h).length
  /-- A ticket is unanswered exactly if it is the one in the slot. -/
  unanswered : ∀ t, t < (acceptedIn h).length ∧ r.poll t = none ↔ r.slot.ticket? = some t
  /-- Commands are handed out in the order of acceptance, unchanged and at most once. -/
  order : handedIn h <+: acceptedIn h
  /-- The command in flight is the one that was handed out last. -/
  inFlight : ∀ t, r.slot = .inFlight t → t + 1 = (handedIn h).length
  /-- No ticket is answered twice. -/
  once : r.answered.Nodup
  /-- Nothing but accepted commands is answered. -/
  nobody : ∀ t ∈ r.answered, t < (acceptedIn h).length
  /-- Every ticket has what it is due, and nothing before. -/
  answer : ∀ t < (acceptedIn h).length, r.poll t = fate t h
  /-- A completion without a command in flight changes nothing. -/
  stray : (∀ t, r.slot ≠ .inFlight t) → ∀ answer, r.complete answer = r

/-- **Answers find their commands**, whatever operations are made in whatever
order on a new rendezvous. -/
theorem correlation (ops : List Op) : (after {} ops).Correlated (history {} ops) := by
  obtain ⟨ht, hfate⟩ := Traced.poll_eq_fate ops
  have hlength : (acceptedIn (history {} ops)).length = (after {} ops).issued := ht.hands.1
  refine ⟨?_, ?_, ht.hands.isPrefix, ?_, ht.accounted.answered_nodup, ?_, ?_, ?_⟩
  · rw [hlength, ht.tickets]
  · intro t
    rw [hlength, ht.accounted.unanswered_iff, List.append_nil, Option.mem_toList]
  · exact fun t hslot => (ht.hands.of_inFlight hslot).1
  · exact fun t hmem => hlength ▸ ht.accounted.lt_of_mem_answered hmem
  · exact fun t hlt => hfate t (hlength ▸ hlt)
  · intro hslot answer
    rcases complete_cases (after {} ops) answer with ⟨t, ht', -⟩ | ⟨-, hr⟩
    · exact absurd ht' (hslot t)
    · exact hr

/-- One command is answered while another is refused, and a third is in flight when the
rendezvous closes. -/
def exchanged : List Op :=
  [.publish [0x00, 0xA4], .publish [0x00, 0xC0], .next, .complete (.ok [0x90, 0x00]),
    .publish [0x00, 0xB0], .next, .close .cardRemoved, .complete (.ok [0x6A, 0x82])]

/-- The accepted commands are handed out. The first has its response, and the other the
reason for the end, not what came after it. -/
theorem correlation_exchanged :
    acceptedIn (history {} exchanged) = [[0x00, 0xA4], [0x00, 0xB0]] ∧
    handedIn (history {} exchanged) = [[0x00, 0xA4], [0x00, 0xB0]] ∧
    (after {} exchanged).poll 0 = some (.ok [0x90, 0x00]) ∧
    (after {} exchanged).poll 1 = some (.error .cardRemoved) ∧
    (after {} exchanged).slot.ticket? = none := by
  have h := correlation exchanged
  exact ⟨rfl, rfl, (h.answer 0 (by decide)).trans rfl, (h.answer 1 (by decide)).trans rfl, rfl⟩

end Rendezvous

end SmartCard
