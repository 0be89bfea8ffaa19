import SmartCard.ExchangeError
/-!
# What is behind an error

To tell the whole story of an error, one asks it for the error directly behind
it, asks that one in turn, and so on until there is none. Only a context has an
error behind it. A root that stands for a transport fault is not an error of its
own beside the fault: it has the text of the fault, and what is behind it is what
is behind the fault.

Contexts are put around an error where it is at hand, or around the error of a
result, if the result is one (`inContext`).
-/

namespace SmartCard

/-- The error directly behind a transport fault. There is none, for a fault keeps
of its reasons a text at most. -/
def TransportFault.source? : TransportFault → Option ExchangeError
  | _ => none

namespace ExchangeError

/-- The error directly behind an error. -/
def source? : ExchangeError → Option ExchangeError
  | .transport fault => fault.source?
  | .context _ cause => some cause
  | _ => none

/-- The errors behind an error, nearest first: each is directly behind the one
before it, and nothing is behind the last. -/
inductive Behind : ExchangeError → List ExchangeError → Prop where
  | nothing {e : ExchangeError} (h : e.source? = none) : Behind e []
  | next {e cause : ExchangeError} {causes : List ExchangeError}
      (h : e.source? = some cause) (hcauses : Behind cause causes) : Behind e (cause :: causes)

/-- Adds a context to the error of a result, if there is one. -/
def inContext {α : Type} (result : Except ExchangeError α) (doing : String) :
    Except ExchangeError α :=
  result.mapError (·.withContext doing)

end ExchangeError

end SmartCard
