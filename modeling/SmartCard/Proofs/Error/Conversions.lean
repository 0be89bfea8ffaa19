import SmartCard.SessionError
import SmartCard.Proofs.Error.Contexts
import Mathlib.Logic.Relation
/-!
# Errors between exchanges and sessions

An error that goes up into a session and down again is what it was, unless it
was a removal, which comes back without its contexts (`toExchange_ofExchange`).
So it has the same root, and every decision about it is the same. A session's
error that goes down and up again is changed unless it came from an exchange,
but what it is changed to stays (`ofExchange_toExchange_ofExchange`).

Layers stand over handles and handles over layers, so that an error can go up
and down many times and get contexts in between. It keeps its root all the
way (`root_of_travels`).
-/

namespace SmartCard

variable {e e' : ExchangeError}

/-! ## Up and down -/

/-- A removal has the bare removal at its root. -/
theorem ExchangeError.root_eq_of_isCardRemoved (h : e.isCardRemoved = true) :
    e.root = .transport .cardRemoved := by
  unfold isCardRemoved transportFault? at h
  split at h
  · next fault hroot =>
    rw [hroot, Option.some.inj (of_decide_eq_true h)]
  · cases of_decide_eq_true h

namespace SessionError

/-- The error of an exchange comes back over a handle as it is, but for a removal. -/
theorem toExchange_ofExchange (e : ExchangeError) : (ofExchange e).toExchange =
    if e.isCardRemoved then .transport .cardRemoved else e := by
  unfold ofExchange
  split <;> rfl

/-- It comes back with the same root. -/
theorem root_toExchange_ofExchange (e : ExchangeError) :
    (ofExchange e).toExchange.root = e.root := by
  rw [toExchange_ofExchange]
  split
  · next hremoved => exact (ExchangeError.root_eq_of_isCardRemoved hremoved).symm
  · rfl

/-- No removal stays among the transport errors of a session. -/
theorem not_isCardRemoved_of_ofExchange (h : ofExchange e = .transport e') :
    e'.isCardRemoved = false := by
  unfold ofExchange at h
  split at h
  · cases h
  · next hremoved =>
    cases h
    exact eq_false_of_ne_true hremoved

/-- What comes back over a handle is to a session what it was before. -/
theorem ofExchange_toExchange_ofExchange (e : ExchangeError) :
    ofExchange (ofExchange e).toExchange = ofExchange e := by
  cases hremoved : e.isCardRemoved with
  | true =>
    rw [toExchange_ofExchange, hremoved, if_pos rfl]
    unfold ofExchange
    rw [hremoved]
    rfl
  | false => rw [toExchange_ofExchange, hremoved, if_neg Bool.false_ne_true]

/-! ## Down and up -/

/-- A session's errors that an exchange has as well: a removal, and an error of an
exchange that is none. -/
def IsShared (s : SessionError) : Prop :=
  s = .cardRemoved ∨ ∃ e, s = .transport e ∧ e.isCardRemoved = false

/-- These are the errors that an exchange can give to a session. -/
theorem isShared_ofExchange (e : ExchangeError) : (ofExchange e).IsShared := by
  unfold ofExchange
  split
  · exact .inl rfl
  · next hremoved => exact .inr ⟨e, rfl, eq_false_of_ne_true hremoved⟩

/-- An error of a session comes back from an exchange exactly if it is shared. -/
theorem ofExchange_toExchange_iff (s : SessionError) :
    ofExchange s.toExchange = s ↔ s.IsShared := by
  refine ⟨fun heq => heq ▸ isShared_ofExchange s.toExchange, ?_⟩
  rintro (rfl | ⟨e, rfl, hremoved⟩)
  · rfl
  · change ofExchange e = .transport e
    unfold ofExchange
    rw [hremoved, if_neg Bool.false_ne_true]

/-- An exchange sees a removal where the session had one, or kept one among its
transport errors. -/
theorem isCardRemoved_toExchange_iff (s : SessionError) : s.toExchange.isCardRemoved = true ↔
    s = .cardRemoved ∨ ∃ e, s = .transport e ∧ e.isCardRemoved = true := by
  cases s with
  | transport e => simp [toExchange]
  | cardRemoved => exact iff_of_true rfl (.inl rfl)
  | _ => exact iff_of_false Bool.false_ne_true (by simp)

/-! ## Crossing once, and again and again -/

/-- **How the error of an exchange goes up into a session and down again.** -/
structure ComesBack (e : ExchangeError) : Prop where
  /-- It comes back as it was, unless it is a removal, -/
  same : e.isCardRemoved = false → (ofExchange e).toExchange = e
  /-- which comes back bare. -/
  bare : e.isCardRemoved = true → (ofExchange e).toExchange = .transport .cardRemoved
  /-- It is of the same kind. -/
  isCardRemoved : (ofExchange e).toExchange.isCardRemoved = e.isCardRemoved
  transportFault? : (ofExchange e).toExchange.transportFault? = e.transportFault?
  isProtocolViolation : (ofExchange e).toExchange.isProtocolViolation = e.isProtocolViolation
  /-- Where it was, no removal is a transport error. -/
  lifted : ∀ e', ofExchange e = .transport e' → e'.isCardRemoved = false

/-- **How the error of a session goes down to an exchange and up again.** -/
structure GoesDown (s : SessionError) : Prop where
  /-- It comes back as it was exactly if it is one that an exchange has as well. -/
  same_iff : ofExchange s.toExchange = s ↔ s.IsShared
  /-- The second time it is not changed any more. -/
  settled : ofExchange (ofExchange s.toExchange).toExchange = ofExchange s.toExchange
  /-- The exchange sees a removal exactly if there was one. -/
  isCardRemoved_iff : s.toExchange.isCardRemoved = true ↔
    s = .cardRemoved ∨ ∃ e, s = .transport e ∧ e.isCardRemoved = true

/-- **The two kinds of errors convert into each other consistently**: each direction
undoes the other on what both can say, and no crossing changes what kind an error
of an exchange is. -/
theorem conversions_agree :
    (∀ e : ExchangeError, ComesBack e) ∧ ∀ s : SessionError, GoesDown s := by
  refine ⟨fun e => ?_, fun s => ?_⟩
  · have hback := toExchange_ofExchange e
    have hroot := root_toExchange_ofExchange e
    exact
      { same := fun hremoved => by rw [hback, hremoved, if_neg Bool.false_ne_true]
        bare := fun hremoved => by rw [hback, hremoved, if_pos rfl]
        isCardRemoved := ExchangeError.isCardRemoved_of_root hroot
        transportFault? := ExchangeError.transportFault?_of_root hroot
        isProtocolViolation := ExchangeError.isProtocolViolation_of_root hroot
        lifted := fun e' => not_isCardRemoved_of_ofExchange }
  · exact
      { same_iff := ofExchange_toExchange_iff s
        settled := ofExchange_toExchange_ofExchange s.toExchange
        isCardRemoved_iff := isCardRemoved_toExchange_iff s }

end SessionError

namespace ExchangeError

/-- What can happen to an error at once on its way through layers and sessions: it
gets a context, or goes up into a session and down again. -/
inductive Travels : ExchangeError → ExchangeError → Prop where
  | context (e : ExchangeError) (doing : String) : Travels e (e.withContext doing)
  | session (e : ExchangeError) : Travels e (SessionError.ofExchange e).toExchange

/-- **However far an error travels, it keeps its root**, and so it is of the same kind. -/
theorem root_of_travels (h : Relation.ReflTransGen Travels e e') : e'.root = e.root := by
  induction h with
  | refl => rfl
  | tail _ hstep ih =>
    cases hstep with
    | context doing => exact ih
    | session => exact (SessionError.root_toExchange_ofExchange _).trans ih

end ExchangeError

end SmartCard
