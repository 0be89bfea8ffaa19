import SmartCard.Transport
/-!
# Executors inside executors

A wrapper hands the command that it was given down before anything else
(`Layer.exchange_opensWith`), so the call of a transport that waits twice starts
both executors before anything is sent, and panics (`Transport.call_of_nests`).
Any other call returns, with the exchange of the stack of its wrappers
(`Transport.call_of_not_nests`). What is known of stacks is therefore true of
these calls, and of no others.

Wrappers that pass everything on make no difference to that exchange
(`Transport.Inserts.exchange_eq`), but they can start another executor.
-/

namespace SmartCard

namespace Exchange

variable {α σ : Type} {card : Card σ} {x : Exchange α}
variable {below : Bytes → σ → Performance (Option Reply) σ}

/-- The exchange transmits this command before anything else. -/
def OpensWith (command : Bytes) (x : Exchange α) : Prop :=
  ∃ resume, x = .transmit command resume

/-- Over calls that all return, an exchange is layered on what they exchange. -/
theorem carry_of_returned {inner : Bytes → Exchange Reply}
    (hbelow : ∀ command s, below command s = ((inner command).perform card s).returned) (s : σ) :
    x.carry below s = ((x.via inner).perform card s).returned := by
  induction x generalizing s with
  | done result => rfl
  | transmit command resume ih =>
    rw [carry, hbelow, via, perform_bind]
    dsimp only [Performance.returned]
    rw [ih]
    rfl

/-- A panic of the first call breaks an exchange off before anything is sent. -/
theorem carry_of_panic {command : Bytes} (hx : x.OpensWith command) {s : σ}
    (hbelow : below command s = ⟨none, [], s⟩) : x.carry below s = ⟨none, [], s⟩ := by
  obtain ⟨resume, rfl⟩ := hx
  rw [carry, hbelow]

end Exchange

open Exchange

/-! ## Layers that pass everything on -/

namespace Layer

/-- Every layer first transmits the command that it was given. -/
theorem exchange_opensWith (layer : Layer) (command : Bytes) :
    (layer.exchange command).OpensWith command := by
  cases layer <;> exact ⟨_, rfl⟩

/-- The layer passes every command and every reply on as it is. -/
def isForwarding : Layer → Bool
  | .bridge | .boxed | .borrowed => true
  | .wrongLength | .getResponse _ | .moreData _ => false

theorem exchange_of_isForwarding {layer : Layer} (h : layer.isForwarding = true) :
    layer.exchange = once := by
  cases layer with
  | wrongLength => cases h
  | getResponse limit => cases h
  | moreData limit => cases h
  | bridge => rfl
  | boxed => rfl
  | borrowed => rfl

end Layer

/-- An outermost layer that passes everything on can be left out. -/
theorem Stack.exchange_concat_of_isForwarding (below : Stack) {outermost : Layer}
    (h : outermost.isForwarding = true) :
    Stack.exchange (below ++ [outermost]) = below.exchange := by
  funext command
  rw [exchange_concat, Layer.exchange_of_isForwarding h]
  exact bind_done _

namespace Transport

variable {σ : Type} {style style' : Style} {t : Transport style} {u : Transport style'}
variable {executing : Bool}

/-! ## What a call comes to -/

/-- **A call that starts an executor inside another panics** before anything is
sent, and leaves the card as it is. -/
theorem call_of_nests (h : t.Nests executing) (card : Card σ) (command : Bytes) (s : σ) :
    t.call card executing command s = ⟨none, [], s⟩ := by
  induction t generalizing executing command s with
  | card =>
    have hle := executing.toNat_le
    exact absurd h (by unfold Nests waits; omega)
  | wrongLength inner ih =>
    exact carry_of_panic (Layer.exchange_opensWith .wrongLength command) (ih h command s)
  | getResponse limit inner ih =>
    exact carry_of_panic (Layer.exchange_opensWith (.getResponse limit) command) (ih h command s)
  | moreData limit inner ih =>
    exact carry_of_panic (Layer.exchange_opensWith (.moreData limit) command) (ih h command s)
  | waiting inner ih =>
    cases executing with
    | true => rfl
    | false => exact @ih true h command s
  | inline inner ih => exact ih h command s
  | boxed inner ih => exact ih h command s
  | borrowed inner ih => exact ih h command s

/-- **Any other call returns**, with what the stack of its wrappers exchanges. -/
theorem call_of_not_nests (h : ¬ t.Nests executing) (card : Card σ) (command : Bytes) (s : σ) :
    t.call card executing command s = ((t.layers.exchange command).perform card s).returned := by
  induction t generalizing executing command s with
  | card => rfl
  | wrongLength inner ih =>
    rw [layers, Stack.exchange_concat]
    exact carry_of_returned (ih h) s
  | getResponse limit inner ih =>
    rw [layers, Stack.exchange_concat]
    exact carry_of_returned (ih h) s
  | moreData limit inner ih =>
    rw [layers, Stack.exchange_concat]
    exact carry_of_returned (ih h) s
  | waiting inner ih =>
    rw [layers, Stack.exchange_concat_of_isForwarding _ rfl]
    cases executing with
    | true => exact absurd (Nat.succ_lt_succ (Nat.succ_pos _)) h
    | false => exact @ih true h command s
  | inline inner ih => exact ih h command s
  | boxed inner ih =>
    rw [layers, Stack.exchange_concat_of_isForwarding _ rfl]
    exact ih h command s
  | borrowed inner ih =>
    rw [layers, Stack.exchange_concat_of_isForwarding _ rfl]
    exact ih h command s

/-- A call is without a result if it starts an executor inside another, and else has one. -/
theorem result_eq_none_iff (card : Card σ) (command : Bytes) (s : σ) :
    (t.call card executing command s).result = none ↔ t.Nests executing := by
  by_cases hnests : t.Nests executing
  · simp only [call_of_nests hnests, hnests]
  · simp only [call_of_not_nests hnests, Performance.returned, hnests, reduceCtorEq]

/-- Calls that return come to the same if the stacks of their wrappers do. -/
theorem call_congr (ht : ¬ t.Nests executing) (hu : ¬ u.Nests executing)
    (h : t.layers.exchange = u.layers.exchange) (card : Card σ) (command : Bytes) (s : σ) :
    t.call card executing command s = u.call card executing command s := by
  rw [call_of_not_nests ht, call_of_not_nests hu, h]

/-! ## Wrappers that pass everything on -/

/-- **Wrappers that pass everything on** are put in anywhere: the second transport
is the first one with such wrappers among its own. -/
inductive Inserts : {style style' : Style} → Transport style → Transport style' → Prop where
  | card : Inserts .card .card
  | wrongLength {t u : Transport .blocking} (h : Inserts t u) : Inserts t.wrongLength u.wrongLength
  | getResponse {t u : Transport .blocking} (limit : Nat) (h : Inserts t u) :
    Inserts (t.getResponse limit) (u.getResponse limit)
  | moreData {t u : Transport .awaited} (limit : Nat) (h : Inserts t u) :
    Inserts (t.moreData limit) (u.moreData limit)
  | inline {t u : Transport .blocking} (h : Inserts t u) : Inserts t.inline u.inline
  | waiting {t u : Transport .awaited} (h : Inserts t u) : Inserts t.waiting u.waiting
  | boxed {t u : Transport .blocking} (h : Inserts t u) : Inserts t.boxed u.boxed
  | borrowed {t u : Transport .blocking} (h : Inserts t u) : Inserts t.borrowed u.borrowed
  | inlined {style : Style} {t : Transport style} {u : Transport .blocking} (h : Inserts t u) :
    Inserts t u.inline
  | waited {style : Style} {t : Transport style} {u : Transport .awaited} (h : Inserts t u) :
    Inserts t u.waiting
  | owned {style : Style} {t : Transport style} {u : Transport .blocking} (h : Inserts t u) :
    Inserts t u.boxed
  | lent {style : Style} {t : Transport style} {u : Transport .blocking} (h : Inserts t u) :
    Inserts t u.borrowed

/-- The second transport is the first one under wrappers that pass everything on. -/
inductive Passes : {style style' : Style} → Transport style → Transport style' → Prop where
  | refl {style : Style} (t : Transport style) : Passes t t
  | inline {style : Style} {t : Transport style} {u : Transport .blocking} (h : Passes t u) :
    Passes t u.inline
  | waiting {style : Style} {t : Transport style} {u : Transport .awaited} (h : Passes t u) :
    Passes t u.waiting
  | boxed {style : Style} {t : Transport style} {u : Transport .blocking} (h : Passes t u) :
    Passes t u.boxed
  | borrowed {style : Style} {t : Transport style} {u : Transport .blocking} (h : Passes t u) :
    Passes t u.borrowed

namespace Inserts

theorem refl (t : Transport style) : Inserts t t := by
  induction t with
  | card => exact .card
  | wrongLength inner ih => exact .wrongLength ih
  | getResponse limit inner ih => exact .getResponse limit ih
  | moreData limit inner ih => exact .moreData limit ih
  | inline inner ih => exact .inline ih
  | waiting inner ih => exact .waiting ih
  | boxed inner ih => exact .boxed ih
  | borrowed inner ih => exact .borrowed ih

/-- Wrappers on the outside are put in, too. -/
theorem of_passes (h : Passes t u) : Inserts t u := by
  induction h with
  | refl t => exact .refl t
  | inline _ ih => exact .inlined ih
  | waiting _ ih => exact .waited ih
  | boxed _ ih => exact .owned ih
  | borrowed _ ih => exact .lent ih

/-- No executor is lost. -/
theorem waits_le (h : Inserts t u) : t.waits ≤ u.waits := by
  induction h with
  | card => exact Nat.le_refl 0
  | waiting _ ih => exact Nat.succ_le_succ ih
  | waited _ ih => exact Nat.le_succ_of_le ih
  | wrongLength _ ih => exact ih
  | getResponse _ _ ih => exact ih
  | moreData _ _ ih => exact ih
  | inline _ ih => exact ih
  | boxed _ ih => exact ih
  | borrowed _ ih => exact ih
  | inlined _ ih => exact ih
  | owned _ ih => exact ih
  | lent _ ih => exact ih

theorem nests (h : Inserts t u) (ht : t.Nests executing) : u.Nests executing :=
  Nat.lt_of_lt_of_le ht (Nat.add_le_add_right h.waits_le _)

/-- **What they pass on is exchanged in the same way.** -/
theorem exchange_eq (h : Inserts t u) : u.layers.exchange = t.layers.exchange := by
  have hforwarding : ∀ (below : Stack) (outermost : Layer), outermost.isForwarding = true →
      Stack.exchange (below ++ [outermost]) = below.exchange :=
    fun below _ h => Stack.exchange_concat_of_isForwarding below h
  have hconcat : ∀ {below below' : Stack} (outermost : Layer), below'.exchange = below.exchange →
      Stack.exchange (below' ++ [outermost]) = Stack.exchange (below ++ [outermost]) := by
    intro below below' outermost heq
    funext command
    rw [Stack.exchange_concat, Stack.exchange_concat, heq]
  induction h with
  | card => rfl
  | wrongLength _ ih => exact hconcat _ ih
  | getResponse limit _ ih => exact hconcat _ ih
  | moreData limit _ ih => exact hconcat _ ih
  | inline _ ih => exact ih
  | waiting _ ih => exact hconcat _ ih
  | boxed _ ih => exact hconcat _ ih
  | borrowed _ ih => exact hconcat _ ih
  | inlined _ ih => exact ih
  | waited _ ih => exact (hforwarding _ .bridge rfl).trans ih
  | owned _ ih => exact (hforwarding _ .boxed rfl).trans ih
  | lent _ ih => exact (hforwarding _ .borrowed rfl).trans ih

/-- **A call comes to the same**, as long as no executor is started inside another. -/
theorem call_eq (h : Inserts t u) (hu : ¬ u.Nests executing) (card : Card σ) (command : Bytes)
    (s : σ) : u.call card executing command s = t.call card executing command s :=
  call_congr hu (mt h.nests hu) h.exchange_eq card command s

end Inserts

end Transport

end SmartCard
