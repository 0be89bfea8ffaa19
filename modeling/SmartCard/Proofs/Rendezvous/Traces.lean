import SmartCard.Rendezvous.Holding
import SmartCard.Proofs.Rendezvous.Tickets
/-!
# Operations without a trace

A refused command, a look that finds nothing, a completion with nothing in flight, a
closure that comes late and a placeholder that is dropped have in common that nobody
can tell afterwards whether they were made. `LeavesNoTrace` lists them. Any number of
them can be deleted from a run (`deleted_without_trace`): the two runs stay `Alike`, with
the same rendezvous throughout, and differ in nothing but the placeholders that were
dropped in one of them and are not polled any more in the other.
-/

namespace SmartCard

namespace Holding

open Rendezvous (Op Result)

variable {h h' : Holding} {op : Op} {later : List Op} {script : List (Op × Bool)} {t : Ticket}
  {dropped : Ticket → Prop}

/-! ## What leaves no trace -/

/-- **The operations that leave no trace**, when these others come later. -/
def LeavesNoTrace (h : Holding) (later : List Op) : Op → Prop
  -- A command that is refused.
  | .publish command => ∃ e, (h.rendezvous.publish command).1 = .error e
  -- A look for a command that finds none in time.
  | .next => h.rendezvous.next.1 = .nothing
  -- A completion with nothing in flight.
  | .complete _ => ∀ t, h.rendezvous.slot ≠ .inFlight t
  -- A closure after the first.
  | .close _ => h.rendezvous.isClosed = true
  | .poll _ => False
  -- The drop of a placeholder that is not polled later.
  | .forget t => .poll t ∉ later

/-- The operations of a script that have no mark leave no trace. -/
def Deletable (h : Holding) : List (Op × Bool) → Prop
  | [] => True
  | (op, marked) :: script =>
    (marked = false → h.LeavesNoTrace (script.map Prod.fst) op) ∧ (h.apply op).2.Deletable script

/-- The operations of a script. -/
def all (script : List (Op × Bool)) : List Op :=
  script.map Prod.fst

/-- A script without its operations that have no mark. -/
def remaining (script : List (Op × Bool)) : List (Op × Bool) :=
  script.filter Prod.snd

/-- The operation is a drop. -/
def isDrop : Op → Bool
  | .forget _ => true
  | _ => false

/-- An operation without a trace leaves the rendezvous as it was. -/
theorem LeavesNoTrace.rendezvous (hop : h.LeavesNoTrace later op) :
    (h.apply op).2.rendezvous = h.rendezvous := by
  rw [rendezvous_apply]
  cases op with
  | publish command =>
    obtain ⟨e, he⟩ := hop
    rcases Rendezvous.publish_cases h.rendezvous command with ⟨-, hr⟩ | ⟨-, e', hr⟩
    · simp [hr] at he
    · simp only [Rendezvous.apply, hr]
  | next =>
    rcases Rendezvous.next_cases h.rendezvous with ⟨command, t, -, hr⟩ | ⟨-, hr⟩ | ⟨-, hr⟩
    · simp [LeavesNoTrace, hr] at hop
    · simp only [Rendezvous.apply, hr]
    · simp only [Rendezvous.apply, hr]
  | complete answer =>
    rcases Rendezvous.complete_cases h.rendezvous answer with ⟨t, hslot, -⟩ | ⟨-, hr⟩
    · exact absurd hslot (hop t)
    · exact hr
  | close reason =>
    have hslot : h.rendezvous.slot = .closed := of_decide_eq_true hop
    rcases Rendezvous.close_cases h.rendezvous reason with ⟨t, ht, -⟩ | ⟨-, hr⟩
    · simp [hslot, Slot.ticket?] at ht
    · simp only [Rendezvous.apply, hr]
      rw [← hslot]
  | poll t => exact hop.elim
  | forget t => rfl

/-! ## Two runs beside each other -/

/-- **Two states that differ in dropped placeholders only.** -/
structure Alike (dropped : Ticket → Prop) (h h' : Holding) : Prop where
  rendezvous : h'.rendezvous = h.rendezvous
  gone : ∀ t, ¬ dropped t → (t ∈ h'.gone ↔ t ∈ h.gone)

namespace Alike

/-- A state is like itself. -/
theorem refl (h : Holding) : Alike (fun _ => False) h h :=
  ⟨rfl, fun _ _ => .rfl⟩

/-- More placeholders may be dropped than are said to be different. -/
theorem mono {dropped' : Ticket → Prop} (halike : Alike dropped h h')
    (hd : ∀ t, dropped t → dropped' t) : Alike dropped' h h' :=
  ⟨halike.rendezvous, fun t ht => halike.gone t fun h => ht (hd t h)⟩

/-- A placeholder that was not dropped shows the same in both. -/
theorem poll (halike : Alike dropped h h') (ht : ¬ dropped t) : h'.poll t = h.poll t := by
  simp only [Holding.poll, halike.rendezvous, halike.gone t ht]

/-- A placeholder is given up in both. -/
theorem give (halike : Alike dropped h h') (t : Ticket) : Alike dropped (h.give t) (h'.give t) where
  rendezvous := halike.rendezvous
  gone s hs := by simp only [Holding.give, List.mem_cons, halike.gone s hs]

/-- **One operation on two states that are alike** returns the same in both and leaves
them alike, unless it looks at a placeholder that was dropped in one. -/
theorem apply (halike : Alike dropped h h') (hop : ∀ t, op = .poll t → ¬ dropped t) :
    (h'.apply op).1 = (h.apply op).1 ∧ Alike dropped (h.apply op).2 (h'.apply op).2 := by
  cases op with
  | poll t =>
    have hpoll := halike.poll (hop t rfl)
    simp only [Holding.apply, hpoll, true_and]
    cases (h.poll t).isSome
    · exact halike
    · exact halike.give t
  | forget t => exact ⟨rfl, halike.give t⟩
  | _ =>
    simp only [Holding.apply, halike.rendezvous, true_and]
    exact ⟨rfl, halike.gone⟩

/-- **An operation without a trace, made in one state only**, leaves the two alike. A
placeholder that it drops is one more in which they may differ. -/
theorem skip (halike : Alike dropped h h') (hop : h.LeavesNoTrace later op) :
    Alike (fun t => dropped t ∨ op = .forget t) (h.apply op).2 h' where
  rendezvous := by rw [hop.rendezvous, halike.rendezvous]
  gone t ht := by
    rw [not_or] at ht
    rw [halike.gone t ht.1]
    cases op with
    | poll s => exact hop.elim
    | forget s =>
      have hne : t ≠ s := fun hs => ht.2 (by rw [hs])
      simp only [Holding.apply, Holding.give, List.mem_cons, hne, false_or]
    | _ => rfl

/-- **A run and what remains of it**, from states that are alike: what remains returns the
same in both, with the same slots, and the states in the end are alike. -/
theorem run (halike : Alike dropped h h') (hscript : h.Deletable script)
    (hpolls : ∀ t, dropped t → .poll t ∉ all script) :
    h'.noted (remaining script) = h.noted script ∧
      Alike (fun t => dropped t ∨ (.forget t, false) ∈ script)
        (h.run (all script)) (h'.run (all (remaining script))) := by
  -- By induction on the script; which placeholders were dropped so far changes on the way.
  induction script generalizing dropped h h' with
  | nil => exact ⟨rfl, halike.mono fun t => .inl⟩
  | cons entry script ih =>
    obtain ⟨op, marked⟩ := entry
    obtain ⟨hop, hscript⟩ := hscript
    cases marked with
    | true =>
      have hop : ∀ t, op = .poll t → ¬ dropped t := by
        rintro t rfl ht
        exact hpolls t ht (List.mem_cons_self ..)
      obtain ⟨hresult, halike⟩ := halike.apply hop
      obtain ⟨hnoted, hend⟩ := ih halike hscript fun t ht hmem =>
        hpolls t ht (List.mem_cons_of_mem _ hmem)
      constructor
      · simp only [remaining, List.filter_cons_of_pos, noted, if_true, hresult,
          halike.rendezvous]
        rw [← hnoted]
        rfl
      · exact hend.mono fun t ht => ht.imp_right (List.mem_cons_of_mem _)
    | false =>
      have hop := hop rfl
      obtain ⟨hnoted, hend⟩ := ih (halike.skip hop) hscript fun t ht hmem => by
        rcases ht with ht | rfl
        · exact hpolls t ht (List.mem_cons_of_mem _ hmem)
        · exact hop hmem
      constructor
      · exact hnoted
      · refine hend.mono fun t ht => ?_
        rcases ht with (ht | rfl) | ht
        · exact .inl ht
        · exact .inr (List.mem_cons_self ..)
        · exact .inr (List.mem_cons_of_mem _ ht)

end Alike

/-- The rendezvous after operations is what it is without placeholders. -/
theorem rendezvous_run (h : Holding) (ops : List Op) :
    (h.run ops).rendezvous = ops.foldl (fun r op => (r.apply op).2) h.rendezvous := by
  induction ops generalizing h with
  | nil => rfl
  | cons op ops ih =>
    rw [List.foldl_cons, ← rendezvous_apply]
    exact ih (h.apply op).2

/-- **Drops do not reach the rendezvous**, whether the placeholders are polled later or
not: commands stay where they are. -/
theorem rendezvous_run_undropped (h : Holding) (ops : List Op) :
    (h.run (ops.filter (!isDrop ·))).rendezvous = (h.run ops).rendezvous := by
  rw [rendezvous_run, rendezvous_run, List.foldl_filter]
  congr
  funext r op
  cases op <;> rfl

/-! ## No trace -/

/-- **No trace of the operations without a mark.** -/
structure WithoutTrace (h : Holding) (script : List (Op × Bool)) : Prop where
  /-- The other operations return the same, and the slot after each of them is the same. -/
  noted : h.noted (remaining script) = h.noted script
  /-- The slot, the tickets and the answers are the same in the end. -/
  rendezvous : (h.run (all (remaining script))).rendezvous = (h.run (all script)).rendezvous
  /-- A placeholder whose drop was not deleted shows the same in the end. -/
  others : ∀ t, (.forget t, false) ∉ script →
    (h.run (all (remaining script))).poll t = (h.run (all script)).poll t
  /-- At no time do drops, deleted or not, make a difference to the slot: no command is
  withdrawn by them, and no slot is freed. -/
  drops : ∀ ops, ops <+: all script →
    (h.run (ops.filter (!isDrop ·))).rendezvous = (h.run ops).rendezvous

/-- **Failed and abandoned operations leave no trace**: each of them can be deleted from a
run, and nobody else can tell. -/
theorem deleted_without_trace (h : Holding) (script : List (Op × Bool))
    (hscript : h.Deletable script) : WithoutTrace h script := by
  obtain ⟨hnoted, hend⟩ := (Alike.refl h).run hscript fun t ht => ht.elim
  exact
    { noted := hnoted
      rendezvous := hend.rendezvous
      others := fun t ht => hend.poll fun hd => hd.elim id ht
      drops := fun ops _ => rendezvous_run_undropped h ops }

/-- A run in which everything occurs that leaves no trace: while a first command waits, a
second is refused and the placeholder of the first is dropped; the slot is looked at once
too often, completed once too often, and closed twice. -/
def cluttered : List (Op × Bool) :=
  [(.publish [0x00], true), (.publish [0x01], false), (.forget 0, false),
    (.complete (.ok []), false), (.next, true), (.next, false),
    (.complete (.ok [0x90, 0x00]), true), (.publish [0x02], true),
    (.close .cardRemoved, true), (.close .cancelled, false), (.poll 1, true)]

theorem deletable_cluttered : Deletable {} cluttered := by
  simp [Deletable, LeavesNoTrace, cluttered, apply, give, Rendezvous.publish,
    Rendezvous.next, Rendezvous.complete, Rendezvous.release, Rendezvous.resolve,
    Rendezvous.close, Rendezvous.shut, Rendezvous.isClosed, Rendezvous.apply, Slot.ticket?]

/-- The dropped command is taken and answered, and the second client hears why the slot
was closed, whether the five other operations are made or not. -/
theorem cluttered_without_trace :
    Deletable {} cluttered ∧ WithoutTrace {} cluttered ∧
      (remaining cluttered).length + 5 = cluttered.length ∧
      (run {} (all cluttered)).rendezvous.poll 0 = some (.ok [0x90, 0x00]) ∧
      noted {} (remaining cluttered) =
        [(.published (.ok 0), .requested [0x00] 0), (.next (.command [0x00]), .inFlight 0),
          (.completed, .idle), (.published (.ok 1), .requested [0x02] 1),
          (.closed true, .closed), (.polled (some (.error .cardRemoved)), .closed)] :=
  ⟨deletable_cluttered, deleted_without_trace {} cluttered deletable_cluttered, rfl, rfl, rfl⟩

end Holding

end SmartCard
