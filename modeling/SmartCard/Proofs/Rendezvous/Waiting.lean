import SmartCard.Rendezvous.Listening
import SmartCard.Proofs.Rendezvous.Correlation
/-!
# Nothing is lost by waiting

A session that waits for a command empties the slot and fills it again on each
turn of its wait, sleeps in between, and is woken by a change, by the deadline or
by nothing at all. `shows_of_apply` says what one move is to somebody who can look
only while the lock is free: nothing, an operation of his own, or the one look for
a command by which the session returns. So a whole wait is that look, at one
instant among the operations of the others (`Atomic`).

From the moment the slot has something for the session, `Offers` holds, and
`toGo` counts the steps that the session still has to take: what is there is
returned, and no deadline takes precedence over it. `loses_nothing` puts both
together for every wait.
-/

namespace SmartCard

/-- What a session returns that finds this in the slot; none if it goes on waiting. -/
def Slot.offer? : Slot → Option Next
  | .requested command _ => some (.command command)
  | .closed => some .closed
  | .idle | .inFlight _ => none

namespace Rendezvous

variable {r : Rendezvous} {op : Op} {found : Next}

/-- A new command and a closure are all that puts something for a session into the
slot. -/
theorem publish_or_close_of_offer (hnone : r.slot.offer? = none)
    (hoffer : (r.apply op).2.slot.offer? ≠ none) :
    (∃ command, op = .publish command) ∨ ∃ reason, op = .close reason := by
  cases op with
  | publish command => exact .inl ⟨command, rfl⟩
  | close reason => exact .inr ⟨reason, rfl⟩
  | next =>
    rcases r.next_cases with ⟨command, t, hslot, -⟩ | ⟨-, hr⟩ | ⟨-, hr⟩
    · rw [hslot] at hnone
      cases hnone
    · exact absurd (by rwa [apply, hr]) hoffer
    · exact absurd (by rwa [apply, hr]) hoffer
  | complete answer =>
    rcases r.complete_cases answer with ⟨t, -, hr⟩ | ⟨-, hr⟩
    · exact absurd (by rw [apply, hr]; rfl) hoffer
    · exact absurd (by rwa [apply, hr]) hoffer
  | poll ticket => exact absurd hnone hoffer
  | forget ticket => exact absurd hnone hoffer

/-- What is in the slot for a session stays there until the session takes it, unless
the slot is closed. -/
theorem offer?_apply (hoffer : r.slot.offer? = some found) (hop : op ≠ .next) :
    (r.apply op).2.slot.offer? = some found ∨
      (∃ reason, op = .close reason) ∧ (r.apply op).2.slot.offer? = some .closed := by
  cases op with
  | publish command =>
    rcases r.publish_cases command with ⟨hidle, -⟩ | ⟨-, e, hr⟩
    · rw [hidle] at hoffer
      cases hoffer
    · exact .inl (by rwa [apply, hr])
  | next => exact absurd rfl hop
  | complete answer =>
    rcases r.complete_cases answer with ⟨t, hslot, -⟩ | ⟨-, hr⟩
    · rw [hslot] at hoffer
      cases hoffer
    · exact .inl (by rwa [apply, hr])
  | close reason => exact .inr ⟨⟨reason, rfl⟩, congrArg Slot.offer? (r.slot_close reason)⟩
  | poll ticket => exact .inl hoffer
  | forget ticket => exact .inl hoffer

end Rendezvous

namespace Listening

open Rendezvous (Op Entry history after)

/-- The slot as it is while nobody holds the lock: the session that looks at
it puts back what it found. -/
def shown (l : Listening) : Slot :=
  match l.stage with
  | .holding found => found
  | _ => l.rendezvous.slot

/-- The rendezvous as it is while nobody holds the lock. -/
def visible (l : Listening) : Rendezvous :=
  { l.rendezvous with slot := l.shown }

/-- A move of the session itself. -/
def Move.isStep : Move → Bool
  | .step => true
  | .wake _ | .other _ => false

/-- The steps that lie before the return of a session for which there is something
in the slot, and one more while it sleeps. -/
def Stage.toGo : Stage → Nat
  | .asleep => 4
  | .woken _ => 3
  | .arriving | .settled | .reacquired _ => 2
  | .holding _ => 1
  | .returned _ => 0

variable {l l' : Listening} {move : Move} {moves : List Move} {r : Rendezvous}

/-! ## What others see of a wait -/

/-- What somebody else does by a move, with what it returns. While the session
holds the lock he has to wait. -/
def deed? (l : Listening) : Move → Option Entry
  | .other op => if l.stage.isLocked then none else some (op, (l.rendezvous.apply op).1)
  | .step | .wake _ => none

/-- What the others do in a run, in order. -/
def deeds (l : Listening) : List Move → List Entry
  | [] => []
  | move :: moves => (l.deed? move).toList ++ (l.apply move).deeds moves

theorem run_append (l : Listening) (moves more : List Move) :
    l.run (moves ++ more) = (l.run moves).run more :=
  List.foldl_append

theorem run_concat (l : Listening) (moves : List Move) (move : Move) :
    l.run (moves ++ [move]) = (l.run moves).apply move :=
  List.foldl_concat ..

/-- The last move adds what it shows. -/
theorem deeds_concat (l : Listening) (moves : List Move) (move : Move) :
    l.deeds (moves ++ [move]) = l.deeds moves ++ ((l.run moves).deed? move).toList := by
  induction moves generalizing l with
  | nil => rw [List.nil_append, deeds, deeds, deeds, List.append_nil, List.nil_append]; rfl
  | cons first moves ih => rw [List.cons_append, deeds, ih, deeds, List.append_assoc]; rfl

/-- While the lock is free, what is visible is the rendezvous itself. -/
theorem visible_of_free (hfree : l.stage.isLocked = false) : l.visible = l.rendezvous := by
  obtain ⟨r, stage⟩ := l
  cases stage with
  | holding found => cases hfree
  | _ => rfl

/-- **What a move shows**: nothing, what somebody else does, or that the session
looks for a command and returns what it finds. -/
inductive Shows (l : Listening) : Option Entry → Listening → Prop
  | quiet {l' : Listening} (hvisible : l'.visible = l.visible) (hresult : l'.result? = l.result?) :
    Shows l none l'
  | acts {l' : Listening} (op : Op) (hvisible : l'.visible = (l.visible.apply op).2)
    (hresult : l'.result? = l.result?) : Shows l (some (op, (l.visible.apply op).1)) l'
  | returns {l' : Listening} (found : Next) (hwaits : l.result? = none)
    (hnext : l.visible.next = (found, l'.visible)) (hresult : l'.result? = some found) :
    Shows l none l'

/-- **One move** shows one of these. In particular, a slot that the session has
emptied to look at it is not shown empty. -/
theorem shows_of_apply (l : Listening) (move : Move) : l.Shows (l.deed? move) (l.apply move) := by
  obtain ⟨r, stage⟩ := l
  cases move with
  | step =>
    cases stage with
    | arriving => exact .quiet rfl rfl
    | holding found =>
      cases found with
      | requested command ticket => exact .returns (.command command) rfl rfl rfl
      | closed => exact .returns .closed rfl rfl rfl
      | idle => exact .quiet rfl rfl
      | inFlight ticket => exact .quiet rfl rfl
    | settled => exact .quiet rfl rfl
    | asleep => exact .quiet rfl rfl
    | woken timedOut => exact .quiet rfl rfl
    | reacquired timedOut =>
      obtain ⟨slot, issued, resolved⟩ := r
      cases timedOut with
      | false => cases slot <;> exact .quiet rfl rfl
      | true =>
        cases slot with
        | idle => exact .returns .nothing rfl rfl rfl
        | inFlight ticket => exact .returns .nothing rfl rfl rfl
        | requested command ticket => exact .quiet rfl rfl
        | closed => exact .quiet rfl rfl
    | returned found => exact .quiet rfl rfl
  | wake timedOut => cases stage <;> exact .quiet rfl rfl
  | other op =>
    by_cases hlocked : stage.isLocked = true
    · simp only [deed?, apply, meanwhile, hlocked, if_true]
      exact .quiet rfl rfl
    · have hfree : stage.isLocked = false := Bool.eq_false_iff.2 hlocked
      have hvisible : visible { rendezvous := r, stage } = r := visible_of_free hfree
      have hafter : visible { rendezvous := (r.apply op).2, stage } = (r.apply op).2 :=
        visible_of_free hfree
      have hacts : Shows { rendezvous := r, stage } _ { rendezvous := (r.apply op).2, stage } :=
        .acts op (by rw [hafter, hvisible]) rfl
      rw [hvisible] at hacts
      simpa only [deed?, apply, meanwhile, hfree, Bool.false_eq_true, if_false] using hacts

/-- **A wait is one look for a command**, at one instant among the operations of the
others, or none so far: their operations return what they return then, and lead to
what is visible. -/
inductive Atomic (r : Rendezvous) : List Entry → Option Next → Rendezvous → Prop
  | waiting (ops : List Op) : Atomic r (r.history ops) none (r.after ops)
  | returned (before later : List Op) : Atomic r
    (r.history before ++ (r.after (before ++ [.next])).history later)
    (some (r.after before).next.1) (r.after (before ++ .next :: later))

/-- What is visible is where some operations have led. -/
theorem Atomic.exists_after {h : List Entry} {result : Option Next} {visible : Rendezvous}
    (ha : Atomic r h result visible) : ∃ ops, visible = r.after ops := by
  cases ha with
  | waiting ops => exact ⟨ops, rfl⟩
  | returned before later => exact ⟨_, rfl⟩

/-- What a move shows goes into the one history. -/
theorem Atomic.step {h : List Entry} {entry : Option Entry}
    (ha : Atomic r h l.result? l.visible) (hshows : l.Shows entry l') :
    Atomic r (h ++ entry.toList) l'.result? l'.visible := by
  generalize hresult : l.result? = result at ha
  generalize hvisible : l.visible = visible at ha
  cases hshows with
  | quiet hvisible' hresult' =>
    rw [hvisible', hresult', hresult, hvisible, Option.toList_none, List.append_nil]
    exact ha
  | acts op hvisible' hresult' =>
    rw [hvisible', hresult', hresult, hvisible, Option.toList_some]
    cases ha with
    | waiting ops =>
      rw [← Rendezvous.history_concat, ← Rendezvous.after_concat]
      exact .waiting (ops ++ [op])
    | returned before later =>
      have hlater : r.after (before ++ .next :: later) =
          (r.after (before ++ [.next])).after later := by
        rw [← Rendezvous.after_append, List.append_assoc]
        rfl
      have hhistory : r.history before ++ (r.after (before ++ [.next])).history (later ++ [op]) =
          r.history before ++ (r.after (before ++ [.next])).history later ++
            [(op, ((r.after (before ++ .next :: later)).apply op).1)] := by
        rw [Rendezvous.history_concat, ← hlater, List.append_assoc]
      have hafter : r.after (before ++ .next :: (later ++ [op])) =
          ((r.after (before ++ .next :: later)).apply op).2 := by
        rw [← Rendezvous.after_concat, List.append_assoc]
        rfl
      rw [← hhistory, ← hafter]
      exact .returned before (later ++ [op])
  | returns found hwaits hnext hresult' =>
    rw [hresult] at hwaits
    rw [hvisible] at hnext
    cases ha with
    | returned before later => cases hwaits
    | waiting ops =>
      have hreturned := Atomic.returned (r := r) ops []
      have hafter : r.after (ops ++ [.next]) = l'.visible := by
        rw [Rendezvous.after_concat]
        exact congrArg Prod.snd hnext
      rw [hafter, hnext] at hreturned
      rw [hresult', Option.toList_none]
      exact hreturned

/-- **A whole wait** is one look for a command. -/
theorem atomic_of_run (r : Rendezvous) (moves : List Move) :
    Atomic r (deeds { rendezvous := r } moves) (run { rendezvous := r } moves).result?
      (run { rendezvous := r } moves).visible := by
  induction moves using List.reverseRecOn with
  | nil => exact .waiting []
  | append_singleton moves move ih =>
    rw [deeds_concat, run_concat]
    exact ih.step (shows_of_apply _ move)

/-! ## How a wait returns -/

/-- A session that has returned does nothing more. -/
theorem result?_apply_of_some {found : Next} (h : l.result? = some found) (move : Move) :
    (l.apply move).result? = some found := by
  have hshows := shows_of_apply l move
  generalize l.deed? move = entry at hshows
  cases hshows with
  | quiet hvisible hresult => exact hresult.trans h
  | acts op hvisible hresult => exact hresult.trans h
  | returns found' hwaits hnext hresult => exact nomatch hwaits.symm.trans h

/-- What a wait returns is what a look for a command finds, and does to the slot. -/
theorem next_of_returns {found : Next} (hwaits : l.result? = none)
    (hreturns : (l.apply move).result? = some found) :
    l.visible.next = (found, (l.apply move).rendezvous) := by
  have hfree : (l.apply move).visible = (l.apply move).rendezvous := by
    refine visible_of_free ?_
    cases hstage : (l.apply move).stage with
    | returned found' => rfl
    | _ => simp [result?, hstage] at hreturns
  have hshows := shows_of_apply l move
  generalize l.deed? move = entry at hshows
  cases hshows with
  | quiet hvisible hresult => exact nomatch (hresult.trans hwaits).symm.trans hreturns
  | acts op hvisible hresult => exact nomatch (hresult.trans hwaits).symm.trans hreturns
  | returns found' hwaits' hnext hresult =>
    cases hresult.symm.trans hreturns
    rw [hnext, hfree]

/-- A command is taken from the slot, where its ticket stays. -/
theorem requested_of_command {command : Bytes} (hwaits : l.result? = none)
    (hreturns : (l.apply move).result? = some (.command command)) :
    ∃ t, l.shown = .requested command t ∧
      (l.apply move).rendezvous = { l.rendezvous with slot := .inFlight t } := by
  have hnext := next_of_returns hwaits hreturns
  rcases l.visible.next_cases with ⟨c, t, hslot, hr⟩ | ⟨-, hr⟩ | ⟨-, hr⟩
  · obtain ⟨hfound, hafter⟩ := Prod.mk.inj (hr.symm.trans hnext)
    cases hfound
    exact ⟨t, hslot, hafter.symm⟩
  · cases (Prod.mk.inj (hr.symm.trans hnext)).1
  · cases (Prod.mk.inj (hr.symm.trans hnext)).1

/-- A closed slot stays closed. -/
theorem closed_of_closed (hwaits : l.result? = none)
    (hreturns : (l.apply move).result? = some .closed) :
    l.shown = .closed ∧ (l.apply move).rendezvous = { l.rendezvous with slot := .closed } := by
  have hnext := next_of_returns hwaits hreturns
  rcases l.visible.next_cases with ⟨c, t, -, hr⟩ | ⟨hslot, hr⟩ | ⟨-, hr⟩
  · cases (Prod.mk.inj (hr.symm.trans hnext)).1
  · refine ⟨hslot, (Prod.mk.inj (hr.symm.trans hnext)).2.symm.trans ?_⟩
    rw [visible, show l.shown = .closed from hslot]
  · cases (Prod.mk.inj (hr.symm.trans hnext)).1

/-- **Nothing is returned only after the deadline**, by a session that has the lock
again. -/
theorem reacquired_of_nothing (hwaits : l.result? = none)
    (hreturns : (l.apply move).result? = some .nothing) : l.stage = .reacquired true := by
  obtain ⟨r, stage⟩ := l
  cases move with
  | step =>
    cases stage with
    | holding found => cases found <;> cases hreturns
    | reacquired timedOut =>
      cases timedOut with
      | true => rfl
      | false =>
        obtain ⟨slot, issued, resolved⟩ := r
        cases slot <;> cases hreturns
    | returned found => cases hwaits
    | _ => cases hreturns
  | wake timedOut =>
    cases stage with
    | returned found => cases hwaits
    | _ => cases hreturns
  | other op =>
    simp only [apply, meanwhile] at hreturns
    split at hreturns <;> exact nomatch hwaits.symm.trans hreturns

/-- There is nothing in the slot then, and the slot stays as it is. -/
theorem vacant_of_nothing (hwaits : l.result? = none)
    (hreturns : (l.apply move).result? = some .nothing) : l.stage = .reacquired true ∧
      (l.rendezvous.slot = .idle ∨ ∃ t, l.rendezvous.slot = .inFlight t) ∧
      (l.apply move).rendezvous = l.rendezvous := by
  have hstage := reacquired_of_nothing hwaits hreturns
  have hnext := next_of_returns hwaits hreturns
  -- the lock is held, but the slot has not been emptied yet
  have hvisible : l.visible = l.rendezvous := by simp only [visible, shown, hstage]
  rw [hvisible] at hnext
  rcases l.rendezvous.next_cases with ⟨c, t, -, hr⟩ | ⟨-, hr⟩ | ⟨hslot, hr⟩
  · cases (Prod.mk.inj (hr.symm.trans hnext)).1
  · cases (Prod.mk.inj (hr.symm.trans hnext)).1
  · exact ⟨hstage, hslot, (Prod.mk.inj (hr.symm.trans hnext)).2.symm⟩

/-- What comes to be in the slot for the session is put there by an operation that
wakes it. -/
theorem publish_or_close_of_shown (hnone : l.shown.offer? = none)
    (hoffer : (l.apply move).shown.offer? ≠ none) :
    (∃ command, move = .other (.publish command)) ∨ ∃ reason, move = .other (.close reason) := by
  have hshows := shows_of_apply l move
  generalize hdeed : l.deed? move = entry at hshows
  cases hshows with
  | quiet hvisible hresult =>
    have hsame : (l.apply move).shown = l.shown := congrArg Rendezvous.slot hvisible
    exact absurd (hsame ▸ hnone) hoffer
  | returns found hwaits hnext hresult =>
    -- the look that returns it is the operation `next`
    have hslot : (l.apply move).shown = (l.visible.apply .next).2.slot :=
      congrArg (fun result => result.2.slot) hnext.symm
    rcases Rendezvous.publish_or_close_of_offer hnone (hslot ▸ hoffer) with
      ⟨command, heq⟩ | ⟨reason, heq⟩ <;> cases heq
  | acts op hvisible hresult =>
    have hslot : (l.apply move).shown = (l.visible.apply op).2.slot :=
      congrArg Rendezvous.slot hvisible
    have hmove : move = .other op := by
      cases move with
      | other op' =>
        simp only [deed?] at hdeed
        split at hdeed
        · cases hdeed
        · rw [(Prod.mk.inj (Option.some.inj hdeed)).1]
      | _ => cases hdeed
    rw [hmove]
    refine (Rendezvous.publish_or_close_of_offer hnone (hslot ▸ hoffer)).imp ?_ ?_
    · rintro ⟨command, rfl⟩
      exact ⟨command, rfl⟩
    · rintro ⟨reason, rfl⟩
      exact ⟨reason, rfl⟩

/-! ## A session for which there is something in the slot -/

/-- **There is something for the session in the slot**, or it has returned it, and it
does not fall asleep before. What it is has the property `P`. -/
structure Offers (P : Next → Prop) (l : Listening) : Prop where
  offered : l.result? = none → ∃ found, l.shown.offer? = some found ∧ P found
  unsettled : l.stage ≠ .settled
  result : ∀ found, l.result? = some found → P found

/-- An operation that leaves something of that kind in the slot. -/
def Preserves (P : Next → Prop) (op : Op) : Prop :=
  ∀ (r : Rendezvous) (found : Next), r.slot.offer? = some found → P found →
    ∃ found', (r.apply op).2.slot.offer? = some found' ∧ P found'

section Offers

variable {P : Next → Prop}

/-- **One move** leaves it in the slot or returns it. -/
theorem Offers.apply (h : l.Offers P) (hop : ∀ op, move = .other op →
    l.stage.isLocked = false → l.result? = none → Preserves P op) : (l.apply move).Offers P := by
  obtain ⟨r, stage⟩ := l
  obtain ⟨hoffered, hunsettled, hresult⟩ := h
  cases move with
  | step =>
    cases stage with
    | arriving => exact ⟨fun _ => hoffered rfl, nofun, nofun⟩
    | holding found =>
      obtain ⟨found', hfound, hP⟩ := hoffered rfl
      change found.offer? = some found' at hfound
      cases found with
      | requested command ticket =>
        cases hfound
        exact ⟨nofun, nofun, fun _ heq => Option.some.inj heq ▸ hP⟩
      | closed =>
        cases hfound
        exact ⟨nofun, nofun, fun _ heq => Option.some.inj heq ▸ hP⟩
      | idle => cases hfound
      | inFlight ticket => cases hfound
    | settled => exact absurd rfl hunsettled
    | asleep => exact ⟨hoffered, hunsettled, hresult⟩
    | woken timedOut => exact ⟨fun _ => hoffered rfl, nofun, nofun⟩
    | reacquired timedOut =>
      obtain ⟨found', hfound, hP⟩ := hoffered rfl
      obtain ⟨slot, issued, resolved⟩ := r
      change slot.offer? = some found' at hfound
      -- with something in the slot the deadline does not count
      cases slot with
      | idle => cases hfound
      | inFlight ticket => cases hfound
      | _ => cases timedOut <;> exact ⟨fun _ => ⟨found', hfound, hP⟩, nofun, nofun⟩
    | returned found => exact ⟨hoffered, hunsettled, hresult⟩
  | wake timedOut =>
    cases stage with
    | asleep => exact ⟨fun _ => hoffered rfl, nofun, nofun⟩
    | _ => exact ⟨hoffered, hunsettled, hresult⟩
  | other op =>
    by_cases hlocked : stage.isLocked = true
    · simp only [Listening.apply, meanwhile, hlocked, if_true]
      exact ⟨hoffered, hunsettled, hresult⟩
    · have hfree : stage.isLocked = false := Bool.eq_false_iff.2 hlocked
      simp only [Listening.apply, meanwhile, hfree, Bool.false_eq_true, if_false]
      refine ⟨fun hwaits => ?_, hunsettled, hresult⟩
      obtain ⟨found, hfound, hP⟩ := hoffered hwaits
      have hshown : ∀ r' : Rendezvous, shown { rendezvous := r', stage } = r'.slot := fun r' =>
        congrArg Rendezvous.slot (visible_of_free (l := { rendezvous := r', stage }) hfree)
      rw [hshown] at hfound ⊢
      exact hop op rfl hfree hwaits r found hfound hP

/-- A session that does not sleep comes nearer to its return by each step of
its own, and does not fall back by the moves of others. -/
theorem Offers.toGo_apply (h : l.Offers P) (hawake : l.stage.toGo ≤ 3) (move : Move) :
    (l.apply move).stage.toGo ≤ l.stage.toGo - if move.isStep then 1 else 0 := by
  obtain ⟨r, stage⟩ := l
  obtain ⟨hoffered, hunsettled, -⟩ := h
  cases move with
  | step =>
    cases stage with
    | asleep => exact absurd (show 4 ≤ 3 from hawake) (by decide)
    | settled => exact absurd rfl hunsettled
    | holding found =>
      obtain ⟨found', hfound, -⟩ := hoffered rfl
      change found.offer? = some found' at hfound
      cases found with
      | idle => cases hfound
      | inFlight ticket => cases hfound
      | _ => exact Nat.le_refl _
    | reacquired timedOut =>
      obtain ⟨slot, issued, resolved⟩ := r
      cases timedOut with
      | false => cases slot <;> exact Nat.le_refl _
      | true => cases slot <;> exact Nat.le_of_ble_eq_true rfl
    | _ => exact Nat.le_refl _
  | wake timedOut =>
    cases stage with
    | asleep => exact absurd (show 4 ≤ 3 from hawake) (by decide)
    | _ => exact Nat.le_refl _
  | other op =>
    simp only [Listening.apply, meanwhile]
    split <;> exact Nat.le_refl _

/-- Along moves that keep an invariant by which there is something in the slot, the
session takes all its steps. -/
theorem toGo_run {I : Listening → Prop} (hoffers : ∀ l, I l → l.Offers P)
    (hkeeps : ∀ l, ∀ move ∈ moves, I l → I (l.apply move)) (h : I l)
    (hawake : l.stage.toGo ≤ 3) :
    (l.run moves).stage.toGo ≤ l.stage.toGo - moves.countP Move.isStep ∧ I (l.run moves) := by
  induction moves generalizing l with
  | nil => exact ⟨Nat.le_refl _, h⟩
  | cons move moves ih =>
    have hstep := (hoffers l h).toGo_apply hawake move
    obtain ⟨hrest, hkept⟩ := ih (fun l move hmem => hkeeps l move (List.mem_cons_of_mem _ hmem))
      (hkeeps l move List.mem_cons_self h) (by omega)
    rw [List.countP_cons]
    change ((l.apply move).run moves).stage.toGo ≤ _ ∧ I ((l.apply move).run moves)
    exact ⟨by omega, hkept⟩

/-- **After them it has returned**, and what it returned was in the slot. -/
theorem exists_result {I : Listening → Prop} (hoffers : ∀ l, I l → l.Offers P)
    (hkeeps : ∀ l, ∀ move ∈ moves, I l → I (l.apply move)) (h : I l)
    (hawake : l.stage.toGo ≤ 3) (hsteps : l.stage.toGo ≤ moves.countP Move.isStep) :
    ∃ found, (l.run moves).result? = some found ∧ P found := by
  obtain ⟨hgone, hkept⟩ := toGo_run hoffers hkeeps h hawake
  have hdone : (l.run moves).stage.toGo = 0 := by omega
  have hresult := (hoffers _ hkept).result
  generalize l.run moves = l' at hdone hresult
  obtain ⟨r, stage⟩ := l'
  cases stage with
  | returned found => exact ⟨found, rfl, hresult found rfl⟩
  | _ => cases hdone

/-- A session that was woken does not sleep. -/
theorem toGo_wake (l : Listening) (timedOut : Bool) : (l.wake timedOut).stage.toGo ≤ 3 := by
  obtain ⟨r, stage⟩ := l
  cases stage <;> exact Nat.le_of_ble_eq_true rfl

/-- Operations other than a look for a command leave a closure in the slot, and
what else is there unless they close it. -/
theorem preserves_of_ne_next {op : Op} (hop : op ≠ .next)
    (hclose : ∀ reason, op = .close reason → P .closed) : Preserves P op := by
  intro r found hfound hP
  rcases Rendezvous.offer?_apply hfound hop with hsame | ⟨⟨reason, hreason⟩, hclosed⟩
  · exact ⟨found, hsame, hP⟩
  · exact ⟨.closed, hclosed, hclose reason hreason⟩

/-- A session that has the lock keeps it until it sleeps or returns. -/
theorem isLocked_apply (hlocked : l.stage.isLocked = true) (hunsettled : l.stage ≠ .settled)
    (hwaits : (l.apply move).result? = none) : (l.apply move).stage.isLocked = true := by
  obtain ⟨r, stage⟩ := l
  cases move with
  | step =>
    cases stage with
    | holding found => cases found <;> first | rfl | cases hwaits
    | settled => exact absurd rfl hunsettled
    | reacquired timedOut =>
      obtain ⟨slot, issued, resolved⟩ := r
      cases timedOut <;> cases slot <;> first | rfl | cases hwaits
    | _ => cases hlocked
  | wake timedOut =>
    cases stage with
    | asleep => cases hlocked
    | _ => exact hlocked
  | other op =>
    simp only [apply, meanwhile]
    split <;> exact hlocked

/-- The session has the lock and something in the slot, which it is about to return. -/
structure Seizes (P : Next → Prop) (l : Listening) : Prop where
  offers : l.Offers P
  locked : l.result? = none → l.stage.isLocked = true

/-- Nobody takes it away. -/
theorem Seizes.apply (h : l.Seizes P) (move : Move) : (l.apply move).Seizes P := by
  refine ⟨h.offers.apply fun op _ hfree hwaits => ?_, fun hwaits => ?_⟩
  · rw [h.locked hwaits] at hfree
    cases hfree
  · refine isLocked_apply (h.locked ?_) h.offers.unsettled hwaits
    by_contra hresult
    obtain ⟨found, hfound⟩ := Option.ne_none_iff_exists'.1 hresult
    rw [result?_apply_of_some hfound move] at hwaits
    cases hwaits

/-- **What is in the slot when the session has the lock again is returned**, even after
the deadline. -/
theorem result_of_reacquired {timedOut : Bool} {found : Next}
    (hstage : l.stage = .reacquired timedOut) (hoffer : l.rendezvous.slot.offer? = some found)
    (hsteps : 2 ≤ moves.countP Move.isStep) : (l.run moves).result? = some found := by
  obtain ⟨r, stage⟩ := l
  subst hstage
  have hseizes : Seizes (· = found) { rendezvous := r, stage := .reacquired timedOut } :=
    ⟨⟨fun _ => ⟨found, hoffer, rfl⟩, nofun, nofun⟩, fun _ => rfl⟩
  obtain ⟨found', hfound', rfl⟩ := exists_result (fun _ h => h.offers)
    (fun _ move _ h => h.apply move) hseizes (Nat.le_of_ble_eq_true rfl) hsteps
  exact hfound'

/-- **What is in the slot is returned** after the session was woken, unless the slot is
closed before it has the lock. -/
theorem exists_result_of_shown {found : Next} (hunsettled : l.stage ≠ .settled)
    (hwaits : l.result? = none) (hoffer : l.shown.offer? = some found) (timedOut : Bool)
    {later : List Move} (hnext : .other .next ∉ later) (hsteps : 3 ≤ later.countP Move.isStep) :
    ∃ found', (l.run (.wake timedOut :: later)).result? = some found' ∧
      (found' = found ∨ found' = .closed ∧ ∃ reason, .other (.close reason) ∈ later) := by
  have hoffers : l.Offers fun found' =>
      found' = found ∨ found' = .closed ∧ ∃ reason, .other (.close reason) ∈ later :=
    ⟨fun _ => ⟨found, hoffer, .inl rfl⟩, hunsettled, fun _ h => nomatch hwaits.symm.trans h⟩
  have hwoken : (l.apply (.wake timedOut)).Offers _ := hoffers.apply nofun
  have hawake := l.toGo_wake timedOut
  change ∃ found', ((l.wake timedOut).run later).result? = some found' ∧ _
  refine exists_result (fun _ h => h) (fun l move hmem h => h.apply ?_) hwoken hawake
    (Nat.le_trans hawake hsteps)
  rintro op rfl - -
  refine preserves_of_ne_next (fun hop => hnext (hop ▸ hmem)) ?_
  rintro reason rfl
  exact .inr ⟨rfl, reason, hmem⟩

end Offers

/-! ## Every wait -/

/-- A session that is about to sleep has found nothing in the slot. -/
theorem offer?_of_settled (r : Rendezvous) (moves : List Move)
    (hstage : (run { rendezvous := r } moves).stage = .settled) :
    (run { rendezvous := r } moves).rendezvous.slot.offer? = none := by
  induction moves using List.reverseRecOn with
  | nil => cases hstage
  | append_singleton moves move ih =>
    rw [run_concat] at hstage ⊢
    generalize run { rendezvous := r } moves = l at ih hstage
    obtain ⟨r', stage⟩ := l
    cases move with
    | step =>
      cases stage with
      | holding found => cases found <;> first | rfl | cases hstage
      | reacquired timedOut =>
        obtain ⟨slot, issued, resolved⟩ := r'
        cases timedOut <;> cases slot <;> cases hstage
      | _ => cases hstage
    | wake timedOut =>
      cases stage with
      | settled => exact ih rfl
      | _ => cases hstage
    | other op =>
      cases stage with
      | settled => exact ih rfl
      | _ => simp only [apply, meanwhile] at hstage; split at hstage <;> cases hstage

/-- **How a session waits** at a rendezvous, when the others have done this meanwhile. -/
structure LosesNothing (r : Rendezvous) (others : List Entry) (l : Listening) : Prop where
  /-- To the others the whole wait is one look for a command, at one instant. -/
  atomic : Atomic r others l.result? l.visible
  /-- While the session holds the lock they wait, and else they see the slot as it is. -/
  secluded : (l.stage.isLocked = true → ∀ op, l.apply (.other op) = l) ∧
    (l.stage.isLocked = false → l.visible = l.rendezvous)
  /-- A ticket without an answer is in the slot, or in the hand of the session that
  looks at it. -/
  held : ∀ t, t < l.rendezvous.issued ∧ l.rendezvous.poll t = none ↔ l.shown.ticket? = some t
  /-- A command is returned by taking it from the slot, where its ticket stays. -/
  command : ∀ move command, l.result? = none →
    (l.apply move).result? = some (.command command) → ∃ t, l.shown = .requested command t ∧
      (l.apply move).rendezvous = { l.rendezvous with slot := .inFlight t }
  /-- A closure is returned while the slot is closed, and stays so. -/
  closed : ∀ move, l.result? = none → (l.apply move).result? = some .closed →
    l.shown = .closed ∧ (l.apply move).rendezvous = { l.rendezvous with slot := .closed }
  /-- That there is nothing is returned only after the deadline, when the session has the
  lock again and there is indeed nothing in the slot; and the slot stays as it is. -/
  nothing : ∀ move, l.result? = none → (l.apply move).result? = some .nothing →
    l.stage = .reacquired true ∧
    (l.rendezvous.slot = .idle ∨ ∃ t, l.rendezvous.slot = .inFlight t) ∧
    (l.apply move).rendezvous = l.rendezvous
  /-- What is in the slot when the session has the lock again is returned, whatever has
  woken it. -/
  overdue : ∀ timedOut found, l.stage = .reacquired timedOut →
    l.rendezvous.slot.offer? = some found → ∀ later, 2 ≤ later.countP Move.isStep →
      (l.run later).result? = some found
  /-- The session does not go to sleep while there is something in the slot, -/
  sleeps : l.stage = .settled → l.rendezvous.slot.offer? = none
  /-- and what comes to be there is a command that was just accepted, or the closure. -/
  appears : ∀ move, l.shown.offer? = none → (l.apply move).shown.offer? ≠ none →
    (∃ command, move = .other (.publish command)) ∨ ∃ reason, move = .other (.close reason)
  /-- After being woken, it returns what is there within three steps of its own. -/
  wakes : ∀ found, l.result? = none → l.shown.offer? = some found → ∀ timedOut later,
    .other .next ∉ later → 3 ≤ later.countP Move.isStep →
      ∃ found', (l.run (.wake timedOut :: later)).result? = some found' ∧
        (found' = found ∨ found' = .closed ∧ ∃ reason, .other (.close reason) ∈ later)

/-- **No wake-up and no slot is lost by waiting**, at a rendezvous in any state that it
can come to, and in whatever order the session is woken and others use the rendezvous
meanwhile. -/
theorem loses_nothing (before : List Op) (moves : List Move) :
    LosesNothing (after {} before) (deeds { rendezvous := after {} before } moves)
      (run { rendezvous := after {} before } moves) := by
  have hatomic := atomic_of_run (after {} before) moves
  have hsettled := offer?_of_settled (after {} before) moves
  generalize deeds { rendezvous := after {} before } moves = others at hatomic
  generalize run { rendezvous := after {} before } moves = l at hatomic hsettled
  have hunsettled : ∀ found, l.shown.offer? = some found → l.stage ≠ .settled := by
    intro found hoffer hstage
    have hshown : l.shown = l.rendezvous.slot := by rw [shown, hstage]
    rw [hshown, hsettled hstage] at hoffer
    cases hoffer
  exact
    { atomic := hatomic
      secluded := ⟨fun hlocked op => if_pos hlocked, visible_of_free⟩
      held := fun t => by
        obtain ⟨ops, hops⟩ := hatomic.exists_after
        have haccounted := (Rendezvous.Traced.poll_eq_fate (before ++ ops)).1.accounted
        rw [Rendezvous.after_append, ← hops] at haccounted
        have hheld := haccounted.unanswered_iff t
        rwa [List.append_nil, Option.mem_toList] at hheld
      command := fun move command => requested_of_command
      closed := fun move => closed_of_closed
      nothing := fun move => vacant_of_nothing
      overdue := fun timedOut found hstage hoffer later => result_of_reacquired hstage hoffer
      sleeps := hsettled
      appears := fun move => publish_or_close_of_shown
      wakes := fun found hwaits hoffer timedOut later =>
        exists_result_of_shown (hunsettled found hoffer) hwaits hoffer timedOut }

/-- The deadline wakes a session just as a command is published, which is there before
the session has the lock again. -/
theorem loses_nothing_overdue :
    (run { rendezvous := {} } [.step, .step, .step, .wake true, .other (.publish [0x00]),
      .step, .step, .step]).result? = some (.command [0x00]) := by
  have hwait := loses_nothing [] [.step, .step, .step, .wake true, .other (.publish [0x00]), .step]
  exact hwait.overdue true (.command [0x00]) rfl rfl [.step, .step] (Nat.le_refl 2)

end Listening

end SmartCard
