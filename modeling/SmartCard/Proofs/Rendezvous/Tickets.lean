import SmartCard.Rendezvous
import Mathlib.Data.List.Nodup
import Mathlib.Data.List.Perm.Basic
/-!
# Where the tickets are

Every ticket that a rendezvous has given out is in one place: with the
command in the slot, with somebody who is about to resolve it, or among
those that are answered. `Accounted` says so of all tickets at once, and
each operation moves at most one of them. `Hands` compares the commands
accepted with those handed out: they part by the one command that waits in
the slot, if any.

The operations are taken apart first (`publish_cases` to `close_cases`), and
later proofs read them through these lemmas only.
-/

namespace SmartCard

namespace Rendezvous

variable {r : Rendezvous} {under : List Ticket} {accepted handed : List Bytes}

/-! ## What each operation can do -/

/-- A command is accepted if the slot is free; else nothing changes. -/
theorem publish_cases (r : Rendezvous) (command : Bytes) :
    (r.slot = .idle ∧ r.publish command =
      (.ok r.issued, { r with slot := .requested command r.issued, issued := r.issued + 1 })) ∨
    (r.slot ≠ .idle ∧ ∃ e, r.publish command = (.error e, r)) := by
  unfold publish
  cases h : r.slot <;> simp

/-- A waiting command is taken; else nothing changes. -/
theorem next_cases (r : Rendezvous) :
    (∃ command t, r.slot = .requested command t ∧
      r.next = (.command command, { r with slot := .inFlight t })) ∨
    (r.slot = .closed ∧ r.next = (.closed, r)) ∨
    ((r.slot = .idle ∨ ∃ t, r.slot = .inFlight t) ∧ r.next = (.nothing, r)) := by
  unfold next
  cases h : r.slot <;> simp

/-- The slot of a taken command is freed; else nothing changes. -/
theorem release_cases (r : Rendezvous) :
    (∃ t, r.slot = .inFlight t ∧ r.release = (some t, { r with slot := .idle })) ∨
    ((∀ t, r.slot ≠ .inFlight t) ∧ r.release = (none, r)) := by
  unfold release
  cases h : r.slot <;> simp

/-- A taken command is answered; else nothing changes. -/
theorem complete_cases (r : Rendezvous) (answer : Answer) :
    (∃ t, r.slot = .inFlight t ∧
      r.complete answer = { r with slot := .idle }.resolve t answer) ∨
    ((∀ t, r.slot ≠ .inFlight t) ∧ r.complete answer = r) := by
  unfold complete
  rcases release_cases r with ⟨t, ht, hr⟩ | ⟨ht, hr⟩
  · exact .inl ⟨t, ht, by rw [hr]⟩
  · exact .inr ⟨ht, by rw [hr]⟩

/-- The slot is closed, and a command that was outstanding gets the reason. -/
theorem close_cases (r : Rendezvous) (reason : SessionError) :
    (∃ t, r.slot.ticket? = some t ∧
      r.close reason = (true, { r with slot := .closed }.resolve t (.error reason))) ∨
    (r.slot.ticket? = none ∧
      r.close reason = (decide (r.slot ≠ .closed), { r with slot := .closed })) := by
  unfold close
  cases h : r.slot <;> simp [shut, Slot.ticket?, h]

/-! ## Only closing closes -/

/-- A command does not close the slot. -/
theorem publish_slot_closed (r : Rendezvous) (command : Bytes) :
    (r.publish command).2.slot = .closed ↔ r.slot = .closed := by
  rcases publish_cases r command with ⟨hidle, hr⟩ | ⟨-, e, hr⟩
  · simp [hr, hidle]
  · rw [hr]

/-- Looking for a command does not close the slot. -/
theorem next_slot_closed (r : Rendezvous) : r.next.2.slot = .closed ↔ r.slot = .closed := by
  rcases next_cases r with ⟨command, t, hslot, hr⟩ | ⟨-, hr⟩ | ⟨-, hr⟩
  · simp [hr, hslot]
  · rw [hr]
  · rw [hr]

/-- Freeing the slot does not close it. -/
theorem release_slot_closed (r : Rendezvous) :
    r.release.2.slot = .closed ↔ r.slot = .closed := by
  rcases release_cases r with ⟨t, hslot, hr⟩ | ⟨-, hr⟩
  · simp [hr, hslot]
  · rw [hr]

/-- Completing a command does not close the slot. -/
theorem complete_slot_closed (r : Rendezvous) (answer : Answer) :
    (r.complete answer).slot = .closed ↔ r.slot = .closed := by
  rcases complete_cases r answer with ⟨t, hslot, hr⟩ | ⟨-, hr⟩
  · simp [hr, hslot, slot_resolve]
  · rw [hr]

/-! ## The answers -/

/-- The tickets that have an answer, in the order of resolution. -/
def answered (r : Rendezvous) : List Ticket :=
  r.resolved.map Prod.fst

@[simp] theorem answered_resolve (r : Rendezvous) (t : Ticket) (answer : Answer) :
    (r.resolve t answer).answered = r.answered ++ [t] := by
  simp [answered, resolve]

/-- A ticket has no answer as long as it was not resolved. -/
theorem poll_eq_none_iff {t : Ticket} : r.poll t = none ↔ t ∉ r.answered := by
  unfold poll answered
  rw [Option.map_eq_none_iff, List.find?_eq_none, List.mem_map]
  constructor
  · rintro h ⟨entry, hentry, rfl⟩
    exact h entry hentry (decide_eq_true rfl)
  · intro h entry hentry ht
    exact h ⟨entry, hentry, of_decide_eq_true ht⟩

/-- An answer stays what it is when others are given. -/
theorem poll_resolve_of_some {t other : Ticket} {answer a : Answer} (h : r.poll t = some a) :
    (r.resolve other answer).poll t = some a := by
  rw [poll_resolve, h, Option.some_or]

/-! ## Every ticket in one place -/

/-- **Every ticket given out is in one place**: in the slot, with somebody who
is about to resolve it, or answered. -/
def Accounted (r : Rendezvous) (under : List Ticket) : Prop :=
  (r.slot.ticket?.toList ++ under ++ r.answered).Perm (List.range r.issued)

/-- A new rendezvous has given out nothing. -/
theorem accounted_new : Accounted {} [] := .nil

namespace Accounted

/-- No ticket is in two places. -/
theorem nodup (h : r.Accounted under) :
    (r.slot.ticket?.toList ++ under ++ r.answered).Nodup :=
  h.nodup_iff.2 List.nodup_range

/-- No ticket is resolved twice. -/
theorem answered_nodup (h : r.Accounted under) : r.answered.Nodup :=
  h.nodup.of_append_right

/-- Only tickets given out are resolved. -/
theorem lt_of_mem_answered (h : r.Accounted under) {t : Ticket} (ht : t ∈ r.answered) :
    t < r.issued :=
  List.mem_range.1 (h.mem_iff.1 (List.mem_append_right _ ht))

/-- **The tickets without an answer** are those in the slot and those about to
be resolved. -/
theorem unanswered_iff (h : r.Accounted under) (t : Ticket) :
    t < r.issued ∧ r.poll t = none ↔ t ∈ r.slot.ticket?.toList ++ under := by
  rw [poll_eq_none_iff, ← List.mem_range, ← h.mem_iff, List.mem_append]
  constructor
  · rintro ⟨ht | ht, hn⟩
    · exact ht
    · exact absurd ht hn
  · intro ht
    have hdisjoint := List.disjoint_of_nodup_append h.nodup
    exact ⟨.inl ht, fun ha => hdisjoint ht ha⟩

/-- A ticket that was never given out has no answer. -/
theorem poll_of_le (h : r.Accounted under) {t : Ticket} (ht : r.issued ≤ t) : r.poll t = none := by
  rw [poll_eq_none_iff]
  exact fun hmem => absurd (h.lt_of_mem_answered hmem) (Nat.not_lt.2 ht)

/-- The order of those about to be resolved does not matter. -/
theorem congr {under' : List Ticket} (h : r.Accounted under) (hp : under.Perm under') :
    r.Accounted under' :=
  (((hp.append_left _).append_right _).symm).trans h

/-- A rendezvous that gives out nothing and resolves nothing keeps its tickets
where its slot and those about to resolve have them. -/
theorem move {r' : Rendezvous} {under' : List Ticket} (h : r.Accounted under)
    (hresolved : r'.resolved = r.resolved) (hissued : r'.issued = r.issued)
    (hplace : (r'.slot.ticket?.toList ++ under').Perm (r.slot.ticket?.toList ++ under)) :
    r'.Accounted under' := by
  unfold Accounted answered
  rw [hresolved, hissued]
  exact (hplace.append_right _).trans h

/-- The ticket of an accepted command is in the slot. -/
theorem publish (h : r.Accounted under) (command : Bytes) :
    (r.publish command).2.Accounted under := by
  rcases publish_cases r command with ⟨hidle, hr⟩ | ⟨-, e, hr⟩
  · rw [hr]
    have hold : (under ++ r.answered).Perm (List.range r.issued) := by
      simpa [Accounted, hidle, Slot.ticket?] using h
    change (r.issued :: (under ++ r.answered)).Perm (List.range (r.issued + 1))
    rw [List.range_succ]
    exact (hold.cons _).trans (List.perm_append_singleton _ _).symm
  · rw [hr]
    exact h

/-- A command that is taken leaves its ticket in the slot. -/
theorem next (h : r.Accounted under) : r.next.2.Accounted under := by
  rcases next_cases r with ⟨command, t, hslot, hr⟩ | ⟨-, hr⟩ | ⟨-, hr⟩
  · rw [hr]
    exact h.move rfl rfl (by rw [hslot]; rfl)
  · rwa [hr]
  · rwa [hr]

/-- A freed slot leaves its ticket to whoever freed it. -/
theorem release {r' : Rendezvous} {t : Ticket} (h : r.Accounted under)
    (hr : r.release = (some t, r')) : r'.Accounted (t :: under) := by
  rcases release_cases r with ⟨t', hslot, hr'⟩ | ⟨-, hr'⟩
  · obtain ⟨rfl, rfl⟩ : t' = t ∧ _ = r' := by simpa [hr'] using hr
    exact h.move rfl rfl (by rw [hslot]; rfl)
  · simp [hr'] at hr

/-- A closed slot leaves its ticket to whoever closed it. -/
theorem shut (h : r.Accounted under) :
    r.shut.2.Accounted (r.slot.ticket?.toList ++ under) :=
  h.move rfl rfl (by rfl)

/-- An answer moves a ticket to those that are answered. -/
theorem resolve {t : Ticket} (h : r.Accounted (t :: under)) (answer : Answer) :
    (r.resolve t answer).Accounted under := by
  unfold Accounted
  rw [answered_resolve, slot_resolve]
  refine List.Perm.trans ?_ h
  rw [List.append_assoc, List.append_assoc]
  refine List.Perm.append_left _ ?_
  rw [← List.append_assoc, List.cons_append]
  exact List.perm_append_singleton _ _

/-- A completed command has its answer. -/
theorem complete (h : r.Accounted under) (answer : Answer) :
    (r.complete answer).Accounted under := by
  rcases complete_cases r answer with ⟨t, hslot, hr⟩ | ⟨-, hr⟩
  · rw [hr]
    refine resolve ?_ answer
    exact h.move rfl rfl (by rw [hslot]; rfl)
  · rwa [hr]

/-- A command that was outstanding when the slot was closed has its answer. -/
theorem close (h : r.Accounted under) (reason : SessionError) :
    (r.close reason).2.Accounted under := by
  rcases close_cases r reason with ⟨t, hslot, hr⟩ | ⟨hslot, hr⟩
  · rw [hr]
    refine resolve ?_ (.error reason)
    exact h.move rfl rfl (by rw [hslot]; rfl)
  · rw [hr]
    exact h.move rfl rfl (by rw [hslot]; rfl)

end Accounted

/-! ## Commands accepted and commands handed out -/

/-- The commands accepted and those handed out, in order, fit the slot: they
part by the command that waits, and by one at most once the slot is closed.
The ticket in the slot is the number of its command. -/
def Hands (r : Rendezvous) (accepted handed : List Bytes) : Prop :=
  accepted.length = r.issued ∧
    match r.slot with
    | .idle => handed = accepted
    | .requested command t => t = handed.length ∧ accepted = handed ++ [command]
    | .inFlight t => t + 1 = handed.length ∧ handed = accepted
    | .closed => handed <+: accepted

/-- Nothing was accepted by a new rendezvous. -/
theorem hands_new : Hands {} [] [] := ⟨rfl, rfl⟩

namespace Hands

/-- **Commands are handed out in the order of acceptance**, unchanged and each
at most once. -/
theorem isPrefix (h : r.Hands accepted handed) : handed <+: accepted := by
  have hslot := h.2
  cases hs : r.slot with
  | closed => simpa only [hs] using hslot
  | idle =>
    simp only [hs] at hslot
    exact hslot ▸ List.prefix_rfl
  | requested command t =>
    simp only [hs] at hslot
    exact hslot.2 ▸ List.prefix_append _ _
  | inFlight t =>
    simp only [hs] at hslot
    exact hslot.2 ▸ List.prefix_rfl

/-- The command in a slot is the one accepted last, and has its number. -/
theorem of_requested (h : r.Hands accepted handed) {command : Bytes} {t : Ticket}
    (hs : r.slot = .requested command t) : t = handed.length ∧ accepted = handed ++ [command] := by
  have hslot := h.2
  simpa only [hs] using hslot

/-- The command in flight is the one handed out last. -/
theorem of_inFlight (h : r.Hands accepted handed) {t : Ticket} (hs : r.slot = .inFlight t) :
    t + 1 = handed.length ∧ handed = accepted := by
  have hslot := h.2
  simpa only [hs] using hslot

/-- A rendezvous without a change of the slot or of the tickets given out. -/
theorem of_eq {r' : Rendezvous} (h : r.Hands accepted handed) (hslot : r'.slot = r.slot)
    (hissued : r'.issued = r.issued) : r'.Hands accepted handed := by
  unfold Hands
  rw [hslot, hissued]
  exact h

/-- An answer hands out nothing. -/
theorem resolve (h : r.Hands accepted handed) (t : Ticket) (answer : Answer) :
    (r.resolve t answer).Hands accepted handed :=
  h.of_eq rfl rfl

/-- An accepted command is the last of those accepted. -/
theorem publish_ok (h : r.Hands accepted handed) (hidle : r.slot = .idle) (command : Bytes) :
    { r with slot := .requested command r.issued, issued := r.issued + 1 }.Hands
      (accepted ++ [command]) handed := by
  have hslot := h.2
  simp only [hidle] at hslot
  subst hslot
  exact ⟨by simp [h.1], h.1.symm, rfl⟩

/-- A command that is taken is the last of those handed out. -/
theorem next_command (h : r.Hands accepted handed) {command : Bytes} {t : Ticket}
    (hs : r.slot = .requested command t) :
    { r with slot := .inFlight t }.Hands accepted (handed ++ [command]) := by
  obtain ⟨ht, ha⟩ := h.of_requested hs
  exact ⟨h.1, by simp [ht], ha.symm⟩

/-- A slot that is freed or closed hands out nothing. -/
theorem idle (h : r.Hands accepted handed) {t : Ticket} (hs : r.slot = .inFlight t) :
    { r with slot := .idle }.Hands accepted handed :=
  ⟨h.1, (h.of_inFlight hs).2⟩

theorem closed (h : r.Hands accepted handed) :
    { r with slot := .closed }.Hands accepted handed :=
  ⟨h.1, h.isPrefix⟩

end Hands

end Rendezvous

end SmartCard
