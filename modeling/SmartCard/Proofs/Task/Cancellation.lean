import SmartCard.Task
import Mathlib.Data.List.Permutation
/-!
# Racing to cancel a task

Any number of callers cancel a task while its worker works, ends and takes
its last steps. `Standing` ties the task to the history of the race: to how
many calls have won and to how the work ended first. One step keeps it
(`Standing.apply`), and so does a race (`Standing.run`).

What decides is the order of the worker's last steps. The task leaves its
running state before those who wait are told and before the thread is gone,
so that whoever has seen the worker off finds a status that no call changes.
-/

namespace SmartCard

namespace Task

variable {α : Type}

/-! ## The history of a race -/

theorem run_append (t : Task α) (before later : List (Move α)) :
    t.run (before ++ later) = (t.run before).run later :=
  List.foldl_append

theorem cancellations_append (t : Task α) (before later : List (Move α)) :
    t.cancellations (before ++ later) =
      t.cancellations before ++ (t.run before).cancellations later := by
  induction before generalizing t with
  | nil => rfl
  | cons move before ih =>
    cases move with
    | seize mayInterrupt =>
      exact congrArg ((t.seize mayInterrupt).1 :: ·) (ih (t.seize mayInterrupt).2)
    | raise => exact ih t.raise
    | finish ending => exact ih (t.finish ending)
    | unwind => exact ih t.unwind

/-- The call cancelled the task. -/
def isWin : Except TaskError Bool → Bool
  | .ok won => won
  | .error _ => false

theorem isWin_iff {answer : Except TaskError Bool} : isWin answer = true ↔ answer = .ok true := by
  rcases answer with e | won
  · simp [isWin]
  · simp [isWin]

/-- The number of calls that cancelled the task. -/
def wins (t : Task α) (moves : List (Move α)) : Nat :=
  (t.cancellations moves).countP isWin

theorem wins_append (t : Task α) (before later : List (Move α)) :
    t.wins (before ++ later) = t.wins before + (t.run before).wins later := by
  rw [wins, cancellations_append, List.countP_append]
  rfl

/-- Of the steps, a call is the one that can win. -/
theorem wins_seize (t : Task α) (mayInterrupt : Bool) :
    t.wins [.seize mayInterrupt] = (isWin (t.seize mayInterrupt).1).toNat := by
  cases hwin : isWin (t.seize mayInterrupt).1 <;> simp [wins, cancellations, hwin]

theorem mem_cancellations_iff {t : Task α} {moves : List (Move α)} :
    .ok true ∈ t.cancellations moves ↔ 0 < t.wins moves := by
  rw [wins, List.countP_pos_iff]
  simp [isWin_iff]

/-- How the work ends by a step. -/
def Move.ending? : Move α → Option (Ending α)
  | .finish ending => some ending
  | .seize _ | .raise | .unwind => none

/-- How the work ended. -/
def Worker.ending? : Worker α → Option (Ending α)
  | .working => none
  | .ended ending | .marked ending | .signalled ending | .exited ending => some ending

/-- The worker has told the task that the work is over. -/
def Worker.hasMarked : Worker α → Bool
  | .working | .ended _ => false
  | .marked _ | .signalled _ | .exited _ => true

/-- Whoever knows that the work is over learned it after the task. -/
theorem hasMarked_of_hasSignalled {t : Task α} (h : t.hasSignalled = true) :
    t.worker.hasMarked = true := by
  unfold hasSignalled at h
  split at h
  · next hworker => rw [hworker]; rfl
  · next hworker => rw [hworker]; rfl
  · cases h

theorem hasSignalled_of_isDone {t : Task α} (h : t.isDone = true) : t.hasSignalled = true := by
  unfold isDone at h
  unfold hasSignalled
  split at h
  · next hworker => rw [hworker]
  · cases h

/-! ## What a race keeps -/

/-- A call that may interrupt wins exactly while the task runs. -/
theorem seize_true (t : Task α) : t.seize true =
    if t.status = .running then
      (.ok true, { t with status := .cancelled, raising := t.raising + 1 })
    else (.ok false, t) := by
  obtain ⟨name, status, interrupted, raising, worker⟩ := t
  cases status <;> rfl

/-- **A call that nobody disturbs** is its steps: it takes the task, and if it wins it
raises the interrupt. -/
theorem cancel_eq (t : Task α) (mayInterrupt : Bool) :
    t.cancel mayInterrupt = ((t.seize mayInterrupt).1,
      t.run (.seize mayInterrupt ::
        if isWin (t.seize mayInterrupt).1 then [.raise] else [])) := by
  obtain ⟨name, status, interrupted, raising, worker⟩ := t
  cases mayInterrupt with
  | false => rfl
  | true => cases status <;> rfl

/-- **Where a task stands** after so many calls have won and the work has
ended in this way first. -/
structure Standing (t : Task α) (n : Nat) (ending? : Option (Ending α)) : Prop where
  /-- A task is cancelled by one call, and by no other. -/
  wins : n = if t.status = .cancelled then 1 else 0
  /-- Calls that won raise the interrupt, and nobody else does. -/
  raised : t.raising + t.interrupted.toNat = n
  /-- The task runs only as long as its worker has not told it of the end. -/
  running : t.status = .running → t.worker.hasMarked = false
  /-- The task completes only when its worker has told it of the end. -/
  completed : t.status = .completed → t.worker.hasMarked = true
  /-- The worker ends once. -/
  ending : t.worker.ending? = ending?

theorem Standing.start (name : String) : Standing ({ name } : Task α) 0 none :=
  ⟨rfl, rfl, fun _ => rfl, nofun, rfl⟩

namespace Standing

variable {t : Task α} {n : Nat} {ending? : Option (Ending α)}

/-- At most one call wins. -/
theorem wins_le_one (h : t.Standing n ending?) : n ≤ 1 := by
  rw [h.wins]
  split <;> omega

theorem isCancelled_iff (h : t.Standing n ending?) : t.isCancelled = true ↔ 0 < n := by
  have hwins := h.wins
  by_cases hstatus : t.status = .cancelled
  · simp [isCancelled, hstatus, hwins]
  · simp [isCancelled, hstatus, hwins]

/-- A call keeps the standing, and counts if it won. -/
theorem seize (h : t.Standing n ending?) (mayInterrupt : Bool) :
    (t.seize mayInterrupt).2.Standing (n + (isWin (t.seize mayInterrupt).1).toNat) ending? := by
  cases mayInterrupt with
  | false => exact h
  | true =>
    rw [seize_true]
    by_cases hrunning : t.status = .running
    · have hnone : n = 0 := by rw [h.wins, hrunning]; rfl
      have hraised := h.raised
      rw [if_pos hrunning]
      refine ⟨?_, ?_, nofun, nofun, h.ending⟩
      · simp [hnone, isWin]
      · simp only [isWin, Bool.toNat_true]
        omega
    · rw [if_neg hrunning]
      exact h

/-- Raising the interrupt spends the winner's one chance to. -/
theorem raise (h : t.Standing n ending?) : t.raise.Standing n ending? := by
  unfold Task.raise
  split
  · exact h
  · next hraising =>
    have hraised := h.raised
    have hle := h.wins_le_one
    refine ⟨h.wins, ?_, h.running, h.completed, h.ending⟩
    simp only [Bool.toNat_true]
    omega

/-- The work ends once, and the task does not know yet. -/
theorem finish (h : t.Standing n ending?) (ending : Ending α) :
    (t.finish ending).Standing n (ending?.or (some ending)) := by
  have hending := h.ending
  unfold Task.finish
  split
  · next hworker =>
    have hrunning := h.running
    have hcompleted := h.completed
    rw [hworker] at hending hrunning hcompleted
    refine ⟨h.wins, h.raised, hrunning, hcompleted, ?_⟩
    rw [← hending]
    rfl
  · next hworker =>
    have hsome : ∃ e, ending? = some e := by
      rw [← hending]
      cases hcase : t.worker with
      | working => exact absurd hcase hworker
      | ended e => exact ⟨e, rfl⟩
      | marked e => exact ⟨e, rfl⟩
      | signalled e => exact ⟨e, rfl⟩
      | exited e => exact ⟨e, rfl⟩
    obtain ⟨e, rfl⟩ := hsome
    exact h

/-- The worker's last steps: the first of them settles the status. -/
theorem unwind (h : t.Standing n ending?) : t.unwind.Standing n ending? := by
  obtain ⟨name, status, interrupted, raising, worker⟩ := t
  cases worker with
  | working => exact h
  | ended ending =>
    obtain ⟨hwins, hraised, hrunning, hcompleted, hending⟩ := h
    cases status with
    | running => exact ⟨hwins, hraised, nofun, fun _ => rfl, hending⟩
    | cancelled => exact ⟨hwins, hraised, nofun, fun _ => rfl, hending⟩
    | completed => exact ⟨hwins, hraised, nofun, fun _ => rfl, hending⟩
  | marked ending => exact ⟨h.wins, h.raised, h.running, h.completed, h.ending⟩
  | signalled ending => exact ⟨h.wins, h.raised, h.running, h.completed, h.ending⟩
  | exited ending => exact h

/-- **One step** of a caller or of the worker keeps the standing. -/
theorem apply (h : t.Standing n ending?) (move : Move α) :
    (t.apply move).Standing (n + t.wins [move]) (ending?.or move.ending?) := by
  cases move with
  | seize mayInterrupt =>
    rw [wins_seize, Move.ending?, Option.or_none]
    exact h.seize mayInterrupt
  | raise =>
    rw [Move.ending?, Option.or_none]
    exact h.raise
  | finish ending => exact h.finish ending
  | unwind =>
    rw [Move.ending?, Option.or_none]
    exact h.unwind

/-- **A race** keeps the standing. -/
theorem run (h : t.Standing n ending?) (moves : List (Move α)) :
    (t.run moves).Standing (n + t.wins moves) (ending?.or (moves.findSome? Move.ending?)) := by
  induction moves generalizing t n ending? with
  | nil =>
    rw [List.findSome?_nil, Option.or_none]
    exact h
  | cons move moves ih =>
    have hrest := ih (h.apply move)
    have hcount : t.wins (move :: moves) = t.wins [move] + (t.apply move).wins moves :=
      wins_append t [move] moves
    have hending : (move :: moves).findSome? Move.ending? =
        move.ending?.or (moves.findSome? Move.ending?) := by
      cases hmove : move.ending? <;> simp [hmove]
    rw [hcount, hending, ← Nat.add_assoc, ← Option.or_assoc]
    exact hrest

end Standing

/-- What a race leaves of a fresh task. -/
theorem standing_of_run (name : String) (moves : List (Move α)) :
    (({ name } : Task α).run moves).Standing (({ name } : Task α).wins moves)
      (moves.findSome? Move.ending?) := by
  simpa using (Standing.start name).run moves

/-! ## Leaving the running state -/

/-- A task that has left its running state has its last status. -/
theorem status_apply {t : Task α} (h : t.status ≠ .running) (move : Move α) :
    (t.apply move).status = t.status := by
  cases move with
  | seize mayInterrupt =>
    cases mayInterrupt with
    | false => rfl
    | true =>
      rw [apply, seize_true, if_neg h]
  | raise =>
    change t.raise.status = t.status
    unfold raise
    split <;> rfl
  | finish ending =>
    change (t.finish ending).status = t.status
    unfold finish
    split <;> rfl
  | unwind =>
    obtain ⟨name, status, interrupted, raising, worker⟩ := t
    cases worker <;> cases status <;> first | rfl | exact absurd rfl h

theorem status_run {t : Task α} (h : t.status ≠ .running) (moves : List (Move α)) :
    (t.run moves).status = t.status := by
  induction moves generalizing t with
  | nil => rfl
  | cons move moves ih =>
    have hmove := status_apply h move
    exact (ih (hmove ▸ h)).trans hmove

/-- No call wins that finds another status than running. -/
theorem wins_eq_zero {t : Task α} (h : t.status ≠ .running) (moves : List (Move α)) :
    t.wins moves = 0 := by
  induction moves generalizing t with
  | nil => rfl
  | cons move moves ih =>
    have hrest : (t.apply move).wins moves = 0 := ih (status_apply h move ▸ h)
    have hfirst : t.wins [move] = 0 := by
      cases move with
      | seize mayInterrupt =>
        cases mayInterrupt with
        | false => rfl
        | true =>
          rw [wins_seize, seize_true, if_neg h]
          rfl
      | raise => rfl
      | finish ending => rfl
      | unwind => rfl
    calc t.wins (move :: moves)
        = t.wins [move] + (t.apply move).wins moves := wins_append t [move] moves
      _ = 0 := by rw [hfirst, hrest]

/-- An interrupt that is raised stays raised. -/
theorem interrupted_run {t : Task α} (h : t.interrupted = true) (moves : List (Move α)) :
    (t.run moves).interrupted = true := by
  induction moves generalizing t with
  | nil => exact h
  | cons move moves ih =>
    refine ih ?_
    obtain ⟨name, status, interrupted, raising, worker⟩ := t
    cases move with
    | seize mayInterrupt => cases mayInterrupt <;> cases status <;> exact h
    | raise =>
      change (raise _).interrupted = true
      unfold raise
      split
      · exact h
      · rfl
    | finish ending => cases worker <;> exact h
    | unwind => cases worker <;> exact h

/-- The call that won found the task running. -/
theorem exists_of_mem_cancellations {t : Task α} {moves : List (Move α)}
    (h : .ok true ∈ t.cancellations moves) : ∃ before later,
      moves = before ++ .seize true :: later ∧ (t.run before).status = .running := by
  induction moves generalizing t with
  | nil => cases h
  | cons move moves ih =>
    by_cases hrest : .ok true ∈ (t.apply move).cancellations moves
    · obtain ⟨before, later, rfl, hrunning⟩ := ih hrest
      exact ⟨move :: before, later, rfl, hrunning⟩
    · -- then it was this step that won
      have hfirst : 0 < t.wins [move] := by
        have hall := mem_cancellations_iff.1 h
        have hsplit : t.wins (move :: moves) = t.wins [move] + (t.apply move).wins moves :=
          wins_append t [move] moves
        rw [mem_cancellations_iff] at hrest
        omega
      cases move with
      | seize mayInterrupt =>
        by_cases hrunning : t.status = .running
        · cases mayInterrupt with
          | false => cases hfirst
          | true => exact ⟨[], moves, rfl, hrunning⟩
        · rw [wins_eq_zero hrunning] at hfirst
          cases hfirst
      | raise => cases hfirst
      | finish ending => cases hfirst
      | unwind => cases hfirst

namespace Standing

variable {t : Task α} {n : Nat} {ending? : Option (Ending α)}

/-- A call that may interrupt, made before the worker has told the task of the
end, does not leave it uncancelled. -/
theorem wins_pos (h : t.Standing n ending?) (hopen : t.worker.hasMarked = false) :
    0 < n + t.wins [.seize true] := by
  have hwins := h.wins
  cases hstatus : t.status with
  | running =>
    rw [wins_seize, seize_true, if_pos hstatus]
    exact Nat.succ_pos n
  | cancelled =>
    rw [hstatus] at hwins
    rw [hwins]
    exact Nat.add_pos_left Nat.one_pos _
  | completed =>
    have hmarked := h.completed hstatus
    rw [hopen] at hmarked
    cases hmarked

/-- The first raise after a win comes through. -/
theorem interrupted_raise (h : t.Standing n ending?) (hn : 0 < n) :
    t.raise.interrupted = true := by
  have hraised := h.raised
  unfold Task.raise
  split
  · next hnone =>
    cases hinterrupted : t.interrupted with
    | true => rfl
    | false =>
      rw [hnone, hinterrupted, Bool.toNat_false] at hraised
      omega
  · rfl

/-- A task that was told of the end does not run any more. -/
theorem ne_running (h : t.Standing n ending?) (hmarked : t.worker.hasMarked = true) :
    t.status ≠ .running := by
  intro hrunning
  rw [h.running hrunning] at hmarked
  cases hmarked

/-- Once somebody can know of the end, no call wins. -/
theorem not_mem_cancellations (h : t.Standing n ending?)
    (hgone : t.hasSignalled = true ∨ t.isDone = true) (later : List (Move α)) :
    .ok true ∉ t.cancellations later := by
  intro hwon
  have hmarked := hasMarked_of_hasSignalled (hgone.elim id hasSignalled_of_isDone)
  have hpos := mem_cancellations_iff.1 hwon
  rw [wins_eq_zero (h.ne_running hmarked)] at hpos
  cases hpos

end Standing

/-- **A call wins** if it may interrupt and comes before the task was told of
the end, or another call has won before it. -/
theorem mem_cancellations_of_open (name : String) {before : List (Move α)}
    (hopen : (({ name } : Task α).run before).worker.hasMarked = false)
    (later : List (Move α)) :
    .ok true ∈ ({ name } : Task α).cancellations (before ++ .seize true :: later) := by
  have hpos := (standing_of_run name before).wins_pos hopen
  have hsplit := wins_append ({ name } : Task α) before (.seize true :: later)
  have hnext : (({ name } : Task α).run before).wins (.seize true :: later) = _ :=
    wins_append _ [.seize true] later
  rw [mem_cancellations_iff]
  omega

/-- A result is that of an ending that the worker has come to, unless the task
was cancelled. -/
theorem get?_eq_some {t : Task α} {result : Except TaskError α} (h : t.get? = some result) :
    t.isDone = true ∧ ∃ ending, t.worker.ending? = some ending ∧
      result = if t.isCancelled then .error .cancelled else ending.result := by
  unfold get? at h
  split at h
  · next ending hworker =>
    cases h
    refine ⟨?_, ending, ?_, rfl⟩
    · rw [isDone, hworker]
    · rw [hworker]
      rfl
  · cases h

theorem isSome_get? (t : Task α) : t.get?.isSome = t.isDone := by
  unfold get? isDone
  split <;> rfl

/-- A worker whose work is over is gone in three steps. -/
theorem isDone_of_unwind {t : Task α} {ending : Ending α} (h : t.worker.ending? = some ending) :
    (t.run [.unwind, .unwind, .unwind]).isDone = true := by
  obtain ⟨name, status, interrupted, raising, worker⟩ := t
  cases worker with
  | working => cases h
  | ended e => rfl
  | marked e => rfl
  | signalled e => rfl
  | exited e => rfl

/-- What a panic is reported as: its text, if it has one. -/
theorem result_panicked (message : Option String) :
    (Ending.panicked message : Ending α).result =
      .error (.failed { text := "worker panicked" ++ (message.map (": " ++ ·)).getD "" }) := by
  cases message with
  | none => rfl
  | some message =>
    have htext : "worker panicked: " ++ message = "worker panicked" ++ (": " ++ message) := by
      rw [← String.append_assoc]
      rfl
    rw [Option.map_some, Option.getD_some, ← htext]
    rfl

/-! ## The outcome -/

/-- How the race for a task comes out, whose moves are the steps of its callers
and of its worker in the order they take place. -/
structure Settles (start : Task α) (moves : List (Move α)) : Prop where
  /-- The status leaves the running state once, for good. -/
  leaves : ∀ before later, moves = before ++ later → (start.run before).status ≠ .running →
    (start.run moves).status = (start.run before).status
  /-- A call that may not interrupt fails and changes nothing. -/
  refuses : ∀ before later, moves = before ++ .seize false :: later →
    (start.run before).seize false = (.error interruptNotPermitted, start.run before) ∧
    (start.run before).cancel false = (.error interruptNotPermitted, start.run before)
  /-- A whole call is its steps, when nobody comes in between. -/
  whole : ∀ mayInterrupt, (start.run moves).cancel mayInterrupt =
    (((start.run moves).seize mayInterrupt).1,
      (start.run moves).run (.seize mayInterrupt ::
        if isWin ((start.run moves).seize mayInterrupt).1 then [.raise] else []))
  /-- One call wins at most. -/
  once : start.wins moves ≤ 1
  /-- One does if and only if some call that may interrupt is made before the
  worker has told the task of the end. -/
  won : .ok true ∈ start.cancellations moves ↔ ∃ before later,
    moves = before ++ .seize true :: later ∧ (start.run before).worker.hasMarked = false
  /-- Who has yet to raise the interrupt, and who has raised it, is a call that won. -/
  raised : (start.run moves).raising + (start.run moves).interrupted.toNat = start.wins moves
  /-- The winner's raise comes through. -/
  raises : ∀ before later, moves = before ++ .raise :: later →
    .ok true ∈ start.cancellations before → (start.run moves).interrupted = true
  /-- The task is cancelled from the winning call on. -/
  cancelled : (start.run moves).isCancelled = true ↔ .ok true ∈ start.cancellations moves
  /-- After a wait has ended or the thread is gone, no call wins. -/
  late : ∀ before later, moves = before ++ later →
    (start.run before).hasSignalled = true ∨ (start.run before).isDone = true →
    .ok true ∉ (start.run before).cancellations later
  /-- There is a result when the thread is gone, and not before. -/
  waits : (start.run moves).get?.isSome = (start.run moves).isDone
  /-- The result is the cancellation if a call won, and else what the worker's
  first ending amounts to. -/
  result : ∀ result, (start.run moves).get? = some result →
    (.ok true ∈ start.cancellations moves → result = .error .cancelled) ∧
    (.ok true ∉ start.cancellations moves →
      ∃ ending, moves.findSome? Move.ending? = some ending ∧
        (∀ r, ending = .returned r → result = r) ∧
        ∀ message, ending = .panicked message → result =
          .error (.failed { text := "worker panicked" ++ (message.map (": " ++ ·)).getD "" }))
  /-- Once the work is over, the worker's own steps lead to a result. -/
  returns : (moves.findSome? Move.ending?).isSome = true →
    ((start.run moves).run [.unwind, .unwind, .unwind]).get?.isSome = true

/-- **A task settles one way or the other**, however its callers and its worker
race and however the work ends. -/
theorem races_settle (name : String) (moves : List (Move α)) :
    Settles ({ name } : Task α) moves := by
  have h := standing_of_run name moves
  have hcancelled := h.isCancelled_iff.trans mem_cancellations_iff.symm
  refine ⟨?_, ?_, cancel_eq _, h.wins_le_one, ⟨?_, ?_⟩, h.raised, ?_, hcancelled, ?_,
    isSome_get? _, ?_, ?_⟩
  · rintro before later rfl hleft
    rw [run_append]
    exact status_run hleft later
  · rintro before later -
    exact ⟨rfl, rfl⟩
  · intro hwon
    obtain ⟨before, later, hmoves, hrunning⟩ := exists_of_mem_cancellations hwon
    exact ⟨before, later, hmoves, (standing_of_run name before).running hrunning⟩
  · rintro ⟨before, later, rfl, hopen⟩
    exact mem_cancellations_of_open name hopen later
  · rintro before later rfl hwon
    have hraise := (standing_of_run name before).interrupted_raise (mem_cancellations_iff.1 hwon)
    rw [run_append]
    exact interrupted_run hraise later
  · rintro before later - hgone
    exact (standing_of_run name before).not_mem_cancellations hgone later
  · intro result hresult
    obtain ⟨-, ending, hending, rfl⟩ := get?_eq_some hresult
    refine ⟨fun hwon => if_pos (hcancelled.2 hwon), fun hwon => ⟨ending, ?_, ?_, ?_⟩⟩
    · rw [← h.ending, hending]
    · rintro r rfl
      exact if_neg (mt hcancelled.1 hwon)
    · rintro message rfl
      rw [if_neg (mt hcancelled.1 hwon)]
      exact result_panicked message
  · intro hover
    obtain ⟨ending, hending⟩ := Option.isSome_iff_exists.1 hover
    rw [isSome_get?]
    exact isDone_of_unwind (h.ending.trans hending)

/-- The call that comes between the end of the work and the moment the task
learns of it wins, although the worker has a value; the next one does not. -/
example : (({ name := "reader" } : Task Nat).run [.finish (.returned (.ok 7)), .seize true,
    .unwind, .seize true, .raise, .unwind, .unwind]).get? = some (.error .cancelled) := by
  rfl

end Task

end SmartCard
