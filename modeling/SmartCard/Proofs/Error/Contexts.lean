import SmartCard.ExchangeError.Source
import Mathlib.Data.List.Induction
/-!
# Contexts around an error

A context adds text to an error and is an entry among its causes, and that is
all. Whatever is decided about an error reads its root, so two errors with one
root are of one kind (`transportFault?_of_root` and the two lemmas behind it),
and contexts leave the root as it is (`root_withContexts`). The text and the
causes are read off the outermost context first, which is the one added last:
both are found by induction from that end of the list.
-/

namespace SmartCard

namespace ExchangeError

variable {e e' : ExchangeError}

/-! ## The kind of an error -/

theorem transportFault?_of_root (h : e.root = e'.root) :
    e.transportFault? = e'.transportFault? := by
  unfold transportFault?
  rw [h]

theorem isCardRemoved_of_root (h : e.root = e'.root) : e.isCardRemoved = e'.isCardRemoved := by
  unfold isCardRemoved
  rw [transportFault?_of_root h]

theorem isProtocolViolation_of_root (h : e.root = e'.root) :
    e.isProtocolViolation = e'.isProtocolViolation := by
  unfold isProtocolViolation
  rw [h]

/-! ## Adding contexts -/

theorem withContexts_append (e : ExchangeError) (inner outer : List String) :
    e.withContexts (inner ++ outer) = (e.withContexts inner).withContexts outer :=
  List.foldl_append

/-- The context added last is the outermost. -/
theorem withContexts_concat (e : ExchangeError) (doings : List String) (doing : String) :
    e.withContexts (doings ++ [doing]) = .context doing (e.withContexts doings) :=
  withContexts_append e doings [doing]

/-- Contexts leave the root as it is. -/
@[simp] theorem root_withContexts (e : ExchangeError) (doings : List String) :
    (e.withContexts doings).root = e.root := by
  induction doings generalizing e with
  | nil => rfl
  | cons doing doings ih => exact ih (e.withContext doing)

/-- A removal is one under any number of contexts. -/
@[simp] theorem isCardRemoved_withContexts (e : ExchangeError) (doings : List String) :
    (e.withContexts doings).isCardRemoved = e.isCardRemoved :=
  isCardRemoved_of_root (root_withContexts e doings)

/-- Contexts that are added to a result are added to its error. -/
theorem foldl_inContext {α : Type} (result : Except ExchangeError α) (doings : List String) :
    doings.foldl inContext result = result.mapError (·.withContexts doings) := by
  induction doings generalizing result with
  | nil => cases result <;> rfl
  | cons doing doings ih =>
    rw [List.foldl_cons, ih]
    cases result <;> rfl

/-! ## What is shown of an error -/

theorem text_context (doing : String) (cause : ExchangeError) :
    (context doing cause).text = doing ++ ": " ++ cause.text := rfl

/-- The text of an error names its contexts from the outermost inwards. -/
theorem text_withContexts (e : ExchangeError) (doings : List String) :
    (e.withContexts doings).text = ": ".intercalate (doings.reverse ++ [e.text]) := by
  induction doings using List.reverseRecOn with
  | nil => exact String.intercalate_singleton.symm
  | append_singleton doings doing ih =>
    have hne : doings.reverse ++ [e.text] ≠ [] := by simp
    rw [withContexts_concat, text_context, ih, List.reverse_append, List.reverse_singleton,
      List.append_assoc, List.singleton_append, String.intercalate_cons_of_ne_nil hne]

/-- An error that is no context has nothing behind it. -/
theorem source?_eq_none (he : ∀ doing cause, e ≠ .context doing cause) : e.source? = none := by
  cases e with
  | context doing cause => exact absurd rfl (he doing cause)
  | _ => rfl

/-- Behind an error with contexts stand the errors with fewer of them, down to the
one with none. -/
theorem behind_withContexts (he : ∀ doing cause, e ≠ .context doing cause)
    (doings : List String) :
    Behind (e.withContexts doings) ((List.range doings.length).map fun k =>
      e.withContexts (doings.take (doings.length - (k + 1)))) := by
  induction doings using List.reverseRecOn with
  | nil => exact .nothing (source?_eq_none he)
  | append_singleton doings doing ih =>
    have hcauses : (List.range (doings ++ [doing]).length).map (fun k =>
          e.withContexts ((doings ++ [doing]).take ((doings ++ [doing]).length - (k + 1)))) =
        e.withContexts doings :: (List.range doings.length).map fun k =>
          e.withContexts (doings.take (doings.length - (k + 1))) := by
      rw [List.length_append, List.length_singleton, List.range_succ_eq_map, List.map_cons,
        List.map_map]
      congr 1
      · rw [Nat.zero_add, Nat.add_sub_cancel, List.take_left]
      · refine List.map_congr_left fun k hk => ?_
        have hlen : doings.length + 1 - (k + 1 + 1) ≤ doings.length := by omega
        simp only [Function.comp, Nat.succ_eq_add_one]
        rw [List.take_append_of_le_length hlen]
        congr 2
        omega
    rw [hcauses, withContexts_concat]
    exact .next rfl ih

/-- The texts of the causes are those of the errors behind. -/
theorem sources_of_behind {causes : List ExchangeError} (h : Behind e causes) :
    e.sources = causes.map text := by
  induction h with
  | @nothing e h =>
    cases e with
    | context doing cause => cases h
    | _ => rfl
  | @next e cause causes h hcauses ih =>
    cases e with
    | context doing cause' =>
      cases h
      rw [sources, ih, List.map_cons]
    | _ => cases h

/-! ## What contexts add -/

/-- **What an error is under contexts** that were added in this order. -/
structure Dressed (e : ExchangeError) (doings : List String) (dressed : ExchangeError) : Prop where
  /-- The error is the root, -/
  root : dressed.root = e
  /-- which alone decides what kind of error it is. -/
  transportFault? : dressed.transportFault? = e.transportFault?
  isCardRemoved : dressed.isCardRemoved = e.isCardRemoved
  isProtocolViolation : dressed.isProtocolViolation = e.isProtocolViolation
  /-- The contexts are told from the one added last to the first, and then the error. -/
  text : dressed.text = ": ".intercalate (doings.reverse ++ [e.text])
  /-- Behind it stand as many errors as there are contexts, -/
  behind : ∃ causes, Behind dressed causes ∧ dressed.sources = causes.map ExchangeError.text ∧
    causes.length = doings.length ∧
    -- each with one context less than the one before it
    ∀ k, k < doings.length →
      causes[k]? = some (e.withContexts (doings.take (doings.length - (k + 1))))

/-- **Contexts add text to an error, and nothing else**, whether they are added to the
error or to a result that it is the error of. -/
theorem contexts_add_text {e : ExchangeError} (he : ∀ doing cause, e ≠ .context doing cause)
    (doings : List String) :
    Dressed e doings (e.withContexts doings) ∧
    ∀ (α : Type) (result : Except ExchangeError α),
      doings.foldl inContext result = result.mapError (·.withContexts doings) := by
  have hroot := root_withContexts e doings
  have hbare : e.root = e := by
    cases e with
    | context doing cause => exact absurd rfl (he doing cause)
    | _ => rfl
  have hbehind := behind_withContexts he doings
  refine ⟨?_, fun α result => foldl_inContext result doings⟩
  exact
    { root := hroot.trans hbare
      transportFault? := transportFault?_of_root hroot
      isCardRemoved := isCardRemoved_of_root hroot
      isProtocolViolation := isProtocolViolation_of_root hroot
      text := text_withContexts e doings
      behind := ⟨_, hbehind, sources_of_behind hbehind, by simp, fun k hk => by simp [hk]⟩ }

/-- A removal that two layers have put a context around. -/
def departure : ExchangeError :=
  withContexts (.transport .cardRemoved) ["GET RESPONSE", "outer"]

/-- It is still a removal, is told from the outermost context on, and has two errors
behind it. -/
theorem contexts_add_text_departure :
    (∀ doing cause, transport .cardRemoved ≠ .context doing cause) ∧
    departure.isCardRemoved = true ∧ departure.isProtocolViolation = false ∧
    departure.text = "outer: GET RESPONSE: Card was removed" ∧
    ∃ causes, Behind departure causes ∧ causes.length = 2 ∧
      causes[0]? = some (.context "GET RESPONSE" (.transport .cardRemoved)) ∧
      causes[1]? = some (.transport .cardRemoved) := by
  have he : ∀ doing cause, transport .cardRemoved ≠ .context doing cause := by simp
  have hdressed : Dressed (.transport .cardRemoved) ["GET RESPONSE", "outer"] departure :=
    (contexts_add_text he ["GET RESPONSE", "outer"]).1
  obtain ⟨causes, hbehind, -, hlength, hcauses⟩ := hdressed.behind
  exact ⟨he, hdressed.isCardRemoved, hdressed.isProtocolViolation, hdressed.text.trans (by decide),
    causes, hbehind, hlength, hcauses 0 (by decide), hcauses 1 (by decide)⟩

end ExchangeError

end SmartCard
