import SmartCard.Interrupt
import Mathlib.Data.List.Induction
import Mathlib.Logic.Relation
/-!
# Who shares an interrupt

Tokens are made, cloned and raised in any order. What an action does to the
tokens and their interrupts is said once (`Changes`). From it follows how they
come from the actions of a run (`Traced`): two tokens have one interrupt exactly
if they are connected by cloning, so the interrupt of a token is raised exactly
if a connected one was (`isRaised_run_iff`). It matters neither which of them
came first nor whether the clone was made before the raise or after it.
-/

namespace SmartCard

namespace Interrupts

open Interrupt (Sleep)

variable {i : Interrupts} {action : Action} {actions : List Action}

/-! ## Runs -/

theorem run_append (i : Interrupts) (actions later : List Action) :
    i.run (actions ++ later) = (i.run actions).run later :=
  List.foldl_append

theorem run_concat (i : Interrupts) (actions : List Action) (action : Action) :
    i.run (actions ++ [action]) = (i.run actions).apply action :=
  run_append i actions [action]

/-- The actions of a run, each with the family that it met. -/
def met (i : Interrupts) : List Action → List (Interrupts × Action)
  | [] => []
  | action :: actions => (i, action) :: (i.apply action).met actions

theorem met_concat (i : Interrupts) (actions : List Action) (action : Action) :
    i.met (actions ++ [action]) = i.met actions ++ [(i.run actions, action)] := by
  induction actions generalizing i with
  | nil => rfl
  | cons first actions ih => exact congrArg ((i, first) :: ·) (ih (i.apply first))

/-- The token `b` was made as a clone of the token `a`. -/
def Cloned (actions : List Action) (a b : Nat) : Prop :=
  ∃ i, (i, .clone a) ∈ met {} actions ∧ a < i.tokens.length ∧ b = i.tokens.length

/-- The tokens are the same, or one comes from the other by cloning, or both from a
third, and so on. -/
def Connected (actions : List Action) : Nat → Nat → Prop :=
  Relation.EqvGen (Cloned actions)

/-- The token was raised. -/
def RaisedIn (actions : List Action) (token : Nat) : Prop :=
  ∃ i, (i, .raise token) ∈ met {} actions ∧ token < i.tokens.length

theorem cloned_concat {a b : Nat} : Cloned (actions ++ [action]) a b ↔
    Cloned actions a b ∨ action = .clone a ∧ a < (run {} actions).tokens.length ∧
      b = (run {} actions).tokens.length := by
  simp only [Cloned, met_concat, List.mem_append, List.mem_singleton, Prod.mk.injEq]
  constructor
  · rintro ⟨i, hmem | ⟨rfl, rfl⟩, hlt, hb⟩
    · exact .inl ⟨i, hmem, hlt, hb⟩
    · exact .inr ⟨rfl, hlt, hb⟩
  · rintro (⟨i, hmem, hlt, hb⟩ | ⟨rfl, hlt, hb⟩)
    · exact ⟨i, .inl hmem, hlt, hb⟩
    · exact ⟨_, .inr ⟨rfl, rfl⟩, hlt, hb⟩

theorem raisedIn_concat {token : Nat} : RaisedIn (actions ++ [action]) token ↔
    RaisedIn actions token ∨ action = .raise token ∧ token < (run {} actions).tokens.length := by
  simp only [RaisedIn, met_concat, List.mem_append, List.mem_singleton, Prod.mk.injEq]
  constructor
  · rintro ⟨i, hmem | ⟨rfl, rfl⟩, hlt⟩
    · exact .inl ⟨i, hmem, hlt⟩
    · exact .inr ⟨rfl, hlt⟩
  · rintro (⟨i, hmem, hlt⟩ | ⟨rfl, hlt⟩)
    · exact ⟨i, .inl hmem, hlt⟩
    · exact ⟨_, .inr ⟨rfl, rfl⟩, hlt⟩

theorem Connected.concat {a b : Nat} (h : Connected actions a b) (action : Action) :
    Connected (actions ++ [action]) a b :=
  Relation.EqvGen.mono (fun _ _ hcloned => cloned_concat.2 (.inl hcloned)) a b h

/-! ## Tokens and their interrupts -/

@[simp] theorem tokens_onSleeper (i : Interrupts) (number : Nat) (change : Nat → Sleep → Sleep) :
    (i.onSleeper number change).tokens = i.tokens := by
  unfold onSleeper
  split <;> rfl

@[simp] theorem raised_onSleeper (i : Interrupts) (number : Nat) (change : Nat → Sleep → Sleep) :
    (i.onSleeper number change).raised = i.raised := by
  unfold onSleeper
  split <;> rfl

/-- **What an action does to the interrupts and the tokens.** -/
inductive Changes (i : Interrupts) : Action → List Bool → List Nat → Prop
  /-- A new token gets the number of a new interrupt. -/
  | fresh : Changes i .fresh (i.raised ++ [false]) (i.tokens ++ [i.raised.length])
  /-- A clone gets the number that the other token has. -/
  | clone (token : Nat) {interrupt : Nat} (htoken : i.tokens[token]? = some interrupt) :
    Changes i (.clone token) i.raised (i.tokens ++ [interrupt])
  /-- Raising a token raises its interrupt. -/
  | raise (token : Nat) {interrupt : Nat} (htoken : i.tokens[token]? = some interrupt) :
    Changes i (.raise token) (i.raised.set interrupt true) i.tokens
  /-- Nothing else changes them. -/
  | keep (action : Action) (hclone : ∀ token, action = .clone token → i.tokens[token]? = none)
    (hraise : ∀ token, action = .raise token → i.tokens[token]? = none) :
    Changes i action i.raised i.tokens

theorem changes_of_apply (i : Interrupts) (action : Action) :
    Changes i action (i.apply action).raised (i.apply action).tokens := by
  cases action with
  | fresh => exact .fresh
  | clone token =>
    cases htoken : i.tokens[token]? with
    | none =>
      simp only [apply, Interrupts.clone, htoken]
      exact .keep _ (by rintro _ ⟨⟩; exact htoken) (by simp)
    | some interrupt =>
      simp only [apply, Interrupts.clone, htoken]
      exact .clone token htoken
  | raise token =>
    cases htoken : i.tokens[token]? with
    | none =>
      simp only [apply, Interrupts.raise, htoken]
      exact .keep _ (by simp) (by rintro _ ⟨⟩; exact htoken)
    | some interrupt =>
      simp only [apply, Interrupts.raise, htoken]
      exact .raise token htoken
  | sleep token =>
    cases htoken : i.tokens[token]? <;>
      simp only [apply, Interrupts.sleep, htoken] <;> exact .keep _ (by simp) (by simp)
  | step number =>
    simp only [apply, step, tokens_onSleeper, raised_onSleeper]
    exact .keep _ (by simp) (by simp)
  | wake number w =>
    simp only [apply, wake, tokens_onSleeper, raised_onSleeper]
    exact .keep _ (by simp) (by simp)

/-- A token is raised if its interrupt is. -/
theorem isRaised_iff {token : Nat} : i.isRaised token = true ↔
    ∃ interrupt, i.tokens[token]? = some interrupt ∧ i.raised[interrupt]? = some true := by
  unfold isRaised
  cases i.tokens[token]? with
  | none => simp
  | some interrupt => cases h : i.raised[interrupt]? <;> simp [h]

/-- What stands in a list with one more element. -/
theorem getElem?_concat_eq_some {α : Type} {xs : List α} {x y : α} {n : Nat} :
    (xs ++ [x])[n]? = some y ↔ xs[n]? = some y ∨ n = xs.length ∧ x = y := by
  rcases Nat.lt_trichotomy n xs.length with hlt | rfl | hgt
  · rw [List.getElem?_append_left hlt]
    simp [Nat.ne_of_lt hlt]
  · simp
  · have hle := Nat.le_of_lt hgt
    rw [List.getElem?_eq_none (by simp; omega), List.getElem?_eq_none hle]
    simp [Nat.ne_of_gt hgt]

/-- A token keeps its interrupt, and a raised interrupt stays raised. -/
theorem Changes.keeps {raised : List Bool} {tokens : List Nat}
    (h : Changes i action raised tokens) :
    (∀ token interrupt : Nat, i.tokens[token]? = some interrupt →
      tokens[token]? = some interrupt) ∧
    ∀ interrupt : Nat, i.raised[interrupt]? = some true → raised[interrupt]? = some true := by
  cases h with
  | fresh =>
    exact ⟨fun token interrupt htoken => getElem?_concat_eq_some.2 (.inl htoken),
      fun interrupt hraised => getElem?_concat_eq_some.2 (.inl hraised)⟩
  | clone token htoken =>
    exact ⟨fun token interrupt htoken => getElem?_concat_eq_some.2 (.inl htoken),
      fun _ hraised => hraised⟩
  | @raise token interrupt htoken =>
    refine ⟨fun _ _ htoken => htoken, fun other hraised => ?_⟩
    rcases eq_or_ne interrupt other with rfl | hne
    · obtain ⟨hlt, -⟩ := List.getElem?_eq_some_iff.1 hraised
      rw [List.getElem?_set_self hlt]
    · rw [List.getElem?_set_ne hne, hraised]
  | keep => exact ⟨fun _ _ htoken => htoken, fun _ hraised => hraised⟩

/-- A raised token stays raised. -/
theorem isRaised_apply {token : Nat} (h : i.isRaised token = true) (action : Action) :
    (i.apply action).isRaised token = true := by
  obtain ⟨interrupt, htoken, hraised⟩ := isRaised_iff.1 h
  obtain ⟨htokens, hinterrupts⟩ := (changes_of_apply i action).keeps
  exact isRaised_iff.2 ⟨interrupt, htokens token interrupt htoken, hinterrupts interrupt hraised⟩

/-- **An interrupt is permanent.** -/
theorem isRaised_run {token : Nat} (h : i.isRaised token = true) (later : List Action) :
    (i.run later).isRaised token = true := by
  induction later using List.reverseRecOn with
  | nil => exact h
  | append_singleton later action ih =>
    rw [run_concat]
    exact isRaised_apply ih action

/-- **How interrupts and tokens come from actions.** -/
structure Traced (actions : List Action) (raised : List Bool) (tokens : List Nat) : Prop where
  /-- The interrupt of a token is there. -/
  lt : ∀ token interrupt : Nat, tokens[token]? = some interrupt → interrupt < raised.length
  /-- A clone shares the interrupt of the other token, -/
  cloned : ∀ a b, Cloned actions a b →
    ∃ interrupt, tokens[a]? = some interrupt ∧ tokens[b]? = some interrupt
  /-- and tokens share one only if they are connected. -/
  connected : ∀ a b interrupt : Nat, tokens[a]? = some interrupt → tokens[b]? = some interrupt →
    Connected actions a b
  /-- The interrupt of a token that was raised is raised, -/
  called : ∀ token, RaisedIn actions token →
    ∃ interrupt, tokens[token]? = some interrupt ∧ raised[interrupt]? = some true
  /-- and an interrupt is raised only if a token that has it was. -/
  told : ∀ interrupt : Nat, raised[interrupt]? = some true →
    ∃ token : Nat, tokens[token]? = some interrupt ∧ RaisedIn actions token

namespace Traced

theorem nil : Traced [] [] [] := by
  refine ⟨by simp, ?_, by simp, ?_, by simp⟩
  · rintro a b ⟨i, hmem, -⟩
    cases hmem
  · rintro token ⟨i, hmem, -⟩
    cases hmem

variable {raised : List Bool} {tokens : List Nat}

/-- What was known before an action is still so. -/
theorem earlier (h : Traced actions i.raised i.tokens) (hchanges : Changes i action raised tokens) :
    (∀ a b, Cloned actions a b →
      ∃ interrupt, tokens[a]? = some interrupt ∧ tokens[b]? = some interrupt) ∧
    (∀ token, RaisedIn actions token →
      ∃ interrupt, tokens[token]? = some interrupt ∧ raised[interrupt]? = some true) ∧
    (∀ a b interrupt : Nat, i.tokens[a]? = some interrupt → i.tokens[b]? = some interrupt →
      Connected (actions ++ [action]) a b) ∧
    ∀ interrupt : Nat, i.raised[interrupt]? = some true →
      ∃ token : Nat, tokens[token]? = some interrupt ∧ RaisedIn (actions ++ [action]) token := by
  obtain ⟨htokens, hinterrupts⟩ := hchanges.keeps
  refine ⟨fun a b hcloned => ?_, fun token hraised => ?_, fun a b interrupt ha hb => ?_,
    fun interrupt hinterrupt => ?_⟩
  · obtain ⟨interrupt, ha, hb⟩ := h.cloned a b hcloned
    exact ⟨interrupt, htokens a interrupt ha, htokens b interrupt hb⟩
  · obtain ⟨interrupt, htoken, hinterrupt⟩ := h.called token hraised
    exact ⟨interrupt, htokens token interrupt htoken, hinterrupts interrupt hinterrupt⟩
  · exact (h.connected a b interrupt ha hb).concat action
  · obtain ⟨token, htoken, hraised⟩ := h.told interrupt hinterrupt
    exact ⟨token, htokens token interrupt htoken, raisedIn_concat.2 (.inl hraised)⟩

/-- A new token shares its interrupt with no other. -/
theorem fresh (h : Traced actions i.raised i.tokens) :
    Traced (actions ++ [.fresh]) (i.raised ++ [false]) (i.tokens ++ [i.raised.length]) := by
  obtain ⟨hcloned, hraised, hconnected, htold⟩ := h.earlier .fresh
  refine ⟨fun token interrupt htoken => ?_, fun a b hnew => ?_, fun a b interrupt ha hb => ?_,
    fun token hnew => ?_, fun interrupt hinterrupt => ?_⟩
  · rw [List.length_append, List.length_singleton]
    rcases getElem?_concat_eq_some.1 htoken with hold | ⟨-, rfl⟩
    · have hlt := h.lt token interrupt hold
      omega
    · omega
  · exact hcloned a b ((cloned_concat.1 hnew).resolve_right (by simp))
  · -- the number of the new interrupt is one that no other token can have
    rcases getElem?_concat_eq_some.1 ha with ha | ⟨rfl, rfl⟩
    · rcases getElem?_concat_eq_some.1 hb with hb | ⟨-, rfl⟩
      · exact hconnected a b interrupt ha hb
      · exact absurd (h.lt a _ ha) (Nat.lt_irrefl _)
    · rcases getElem?_concat_eq_some.1 hb with hb | ⟨rfl, -⟩
      · exact absurd (h.lt b _ hb) (Nat.lt_irrefl _)
      · exact .refl _
  · exact hraised token ((raisedIn_concat.1 hnew).resolve_right (by simp))
  · rcases getElem?_concat_eq_some.1 hinterrupt with hold | ⟨-, hfalse⟩
    · exact htold interrupt hold
    · cases hfalse

/-- A clone shares its interrupt with the token that it was made from, and so with all
that this one is connected with. -/
theorem clone (h : Traced actions i.raised i.tokens) (hi : run {} actions = i)
    {source shared : Nat} (hsource : i.tokens[source]? = some shared) :
    Traced (actions ++ [.clone source]) i.raised (i.tokens ++ [shared]) := by
  obtain ⟨hcloned, hraised, hconnected, htold⟩ := h.earlier (.clone source hsource)
  have hclone : Connected (actions ++ [.clone source]) source i.tokens.length := by
    refine .rel _ _ (cloned_concat.2 (.inr ⟨rfl, ?_, by rw [hi]⟩))
    rw [hi]
    exact (List.getElem?_eq_some_iff.1 hsource).1
  refine ⟨fun token interrupt htoken => ?_, fun a b hnew => ?_, fun a b interrupt ha hb => ?_,
    fun token hnew => ?_, htold⟩
  · rcases getElem?_concat_eq_some.1 htoken with hold | ⟨-, rfl⟩
    · exact h.lt token interrupt hold
    · exact h.lt source shared hsource
  · rcases cloned_concat.1 hnew with hold | ⟨hlast, -, rfl⟩
    · exact hcloned a b hold
    · cases hlast
      exact ⟨shared, getElem?_concat_eq_some.2 (.inl hsource),
        getElem?_concat_eq_some.2 (.inr ⟨by rw [hi], rfl⟩)⟩
  · -- whoever shares with the clone shared with its source before
    rcases getElem?_concat_eq_some.1 ha with ha | ⟨rfl, rfl⟩
    · rcases getElem?_concat_eq_some.1 hb with hb | ⟨rfl, rfl⟩
      · exact hconnected a b interrupt ha hb
      · exact (hconnected a source shared ha hsource).trans _ _ _ hclone
    · rcases getElem?_concat_eq_some.1 hb with hb | ⟨rfl, -⟩
      · exact (hclone.symm _ _).trans _ _ _ (hconnected source b shared hsource hb)
      · exact .refl _
  · exact hraised token ((raisedIn_concat.1 hnew).resolve_right (by simp))

/-- Raising a token raises its interrupt, and no other. -/
theorem raise (h : Traced actions i.raised i.tokens) (hi : run {} actions = i)
    {source shared : Nat} (hsource : i.tokens[source]? = some shared) :
    Traced (actions ++ [.raise source]) (i.raised.set shared true) i.tokens := by
  obtain ⟨hcloned, hraised, hconnected, htold⟩ := h.earlier (.raise source hsource)
  refine ⟨fun token interrupt htoken => ?_, fun a b hnew => ?_, hconnected, fun token hnew => ?_,
    fun interrupt hinterrupt => ?_⟩
  · rw [List.length_set]
    exact h.lt token interrupt htoken
  · exact hcloned a b ((cloned_concat.1 hnew).resolve_right (by simp))
  · rcases raisedIn_concat.1 hnew with hold | ⟨hlast, -⟩
    · exact hraised token hold
    · cases hlast
      exact ⟨shared, hsource, List.getElem?_set_self (h.lt source shared hsource)⟩
  · rcases eq_or_ne shared interrupt with rfl | hne
    · refine ⟨source, hsource, raisedIn_concat.2 (.inr ⟨rfl, ?_⟩)⟩
      rw [hi]
      exact (List.getElem?_eq_some_iff.1 hsource).1
    · rw [List.getElem?_set_ne hne] at hinterrupt
      exact htold interrupt hinterrupt

/-- Whatever changes nothing is neither a clone nor a raise. -/
theorem keep (h : Traced actions i.raised i.tokens) (hi : run {} actions = i)
    (hclone : ∀ token, action = .clone token → i.tokens[token]? = none)
    (hraise : ∀ token, action = .raise token → i.tokens[token]? = none) :
    Traced (actions ++ [action]) i.raised i.tokens := by
  obtain ⟨hcloned, hraised, hconnected, htold⟩ := h.earlier (.keep action hclone hraise)
  have hle : ∀ token : Nat, i.tokens[token]? = none → ¬ token < (run {} actions).tokens.length := by
    intro token hnone
    rw [hi]
    exact Nat.not_lt_of_le (List.getElem?_eq_none_iff.1 hnone)
  refine ⟨h.lt, fun a b hnew => ?_, hconnected, fun token hnew => ?_, htold⟩
  · rcases cloned_concat.1 hnew with hold | ⟨hlast, hlt, -⟩
    · exact hcloned a b hold
    · exact absurd hlt (hle a (hclone a hlast))
  · rcases raisedIn_concat.1 hnew with hold | ⟨hlast, hlt⟩
    · exact hraised token hold
    · exact absurd hlt (hle token (hraise token hlast))

/-- One action more. -/
theorem step (h : Traced actions i.raised i.tokens) (hi : run {} actions = i)
    (hchanges : Changes i action raised tokens) : Traced (actions ++ [action]) raised tokens := by
  cases hchanges with
  | fresh => exact h.fresh
  | clone token htoken => exact h.clone hi htoken
  | raise token htoken => exact h.raise hi htoken
  | keep action hclone hraise => exact h.keep hi hclone hraise

end Traced

theorem traced_of_run (actions : List Action) :
    Traced actions (run {} actions).raised (run {} actions).tokens := by
  induction actions using List.reverseRecOn with
  | nil => exact .nil
  | append_singleton actions action ih =>
    rw [run_concat]
    exact ih.step rfl (changes_of_apply _ action)

/-- Connected tokens have one interrupt. -/
theorem tokens_of_connected {a b : Nat} (h : Connected actions a b) :
    (run {} actions).tokens[a]? = (run {} actions).tokens[b]? := by
  induction h with
  | rel a b hcloned =>
    obtain ⟨interrupt, ha, hb⟩ := (traced_of_run actions).cloned a b hcloned
    rw [ha, hb]
  | refl a => rfl
  | symm a b _ ih => exact ih.symm
  | trans a b c _ _ hab hbc => exact hab.trans hbc

/-- **A token is interrupted exactly if one that it is connected with was raised.** -/
theorem isRaised_run_iff (actions : List Action) (token : Nat) :
    (run {} actions).isRaised token = true ↔
      ∃ source, Connected actions token source ∧ RaisedIn actions source := by
  have htraced := traced_of_run actions
  constructor
  · intro h
    obtain ⟨interrupt, htoken, hraised⟩ := isRaised_iff.1 h
    obtain ⟨source, hsource, hcalled⟩ := htraced.told interrupt hraised
    exact ⟨source, htraced.connected token source interrupt htoken hsource, hcalled⟩
  · rintro ⟨source, hconnected, hcalled⟩
    obtain ⟨interrupt, hsource, hraised⟩ := htraced.called source hcalled
    exact isRaised_iff.2 ⟨interrupt, (tokens_of_connected hconnected).trans hsource, hraised⟩

/-- A token that is not raised is raised only by raising one with its interrupt. -/
theorem isRaised_apply_of_false (hi : run {} actions = i) {token interrupt : Nat}
    (htoken : i.tokens[token]? = some interrupt) (hfalse : i.isRaised token = false)
    (hraise : ∀ source, action = .raise source → i.tokens[source]? ≠ some interrupt) :
    (i.apply action).isRaised token = false := by
  have hlt : interrupt < i.raised.length := by
    have htraced := traced_of_run actions
    rw [hi] at htraced
    exact htraced.lt token interrupt htoken
  have hunraised : i.raised[interrupt]? ≠ some true := by
    intro hraised
    rw [isRaised_iff.2 ⟨interrupt, htoken, hraised⟩] at hfalse
    cases hfalse
  have hchanges := changes_of_apply i action
  refine eq_false_of_ne_true fun h => ?_
  obtain ⟨other, hother, hraised⟩ := isRaised_iff.1 h
  obtain rfl : interrupt = other :=
    Option.some.inj ((hchanges.keeps.1 token interrupt htoken).symm.trans hother)
  generalize (i.apply action).raised = raised at hchanges hraised
  generalize (i.apply action).tokens = tokens at hchanges
  cases hchanges with
  | fresh =>
    rw [List.getElem?_append_left hlt] at hraised
    exact hunraised hraised
  | clone => exact hunraised hraised
  | @raise source shared hsource =>
    have hne : shared ≠ interrupt := by
      rintro rfl
      exact hraise source rfl hsource
    rw [List.getElem?_set_ne hne] at hraised
    exact hunraised hraised
  | keep => exact hunraised hraised

end Interrupts

end SmartCard
