/-!
# Durations and instants

A span of time in whole nanoseconds. Its text names the largest unit of
which there is at least one and gives the rest as a decimal fraction
without trailing zeros.

An instant is a reading of the clock in nanoseconds. There is a last one, so
that not every wait has an end that the clock can show.
-/

namespace SmartCard

/-- A span of time. -/
structure Duration where
  nanos : Nat
deriving DecidableEq

namespace Duration

/-- Whole seconds and the nanoseconds beyond them. -/
def ofParts (secs nanos : Nat) : Duration := ⟨secs * 1000000000 + nanos⟩

/-- Whole seconds. -/
def ofSecs (secs : Nat) : Duration := ofParts secs 0

/-- Whole milliseconds. -/
def ofMillis (millis : Nat) : Duration := ⟨millis * 1000000⟩

/-- The whole seconds of a duration. -/
def secs (d : Duration) : Nat := d.nanos / 1000000000

/-- The nanoseconds beyond the whole seconds. -/
def subsecNanos (d : Duration) : Nat := d.nanos % 1000000000

/-- The last digits of `n`, as many as asked for, most significant first. -/
def lastDigits : Nat → Nat → List Char
  | 0, _ => []
  | places + 1, n => lastDigits places (n / 10) ++ [Char.ofNat (48 + n % 10)]

/-- A fraction of `rest` over ten to the power `places`, with its point;
nothing when it is zero. -/
def fraction (places rest : Nat) : String :=
  let digits := ((lastDigits places rest).reverse.dropWhile (· = '0')).reverse
  if digits = [] then "" else String.ofList ('.' :: digits)

/-- The duration in a unit of ten to the power `places` nanoseconds. -/
def textIn (places : Nat) (unit : String) (d : Duration) : String :=
  let size := Nat.pow 10 places
  toString (d.nanos / size) ++ fraction places (d.nanos % size) ++ unit

/-- The text of a duration, in the largest unit that it fills. -/
def text (d : Duration) : String :=
  if 1000000000 ≤ d.nanos then d.textIn 9 "s"
  else if 1000000 ≤ d.nanos then d.textIn 6 "ms"
  else if 1000 ≤ d.nanos then d.textIn 3 "µs"
  else d.textIn 0 "ns"

end Duration

namespace Instant

/-- The last instant that a clock can show. It counts whole seconds in a signed
word of 64 bits. -/
def last : Nat := 9223372036854775807999999999

/-- The instant that comes so many nanoseconds after another one, if a clock can show it. -/
def after? (now wait : Nat) : Option Nat :=
  if now + wait ≤ last then some (now + wait) else none

/-- What a thread panics with that needs an instant which a clock cannot show. -/
def overflow : String := "overflow when adding duration to instant"

theorem after?_eq_some {now wait deadline : Nat} (h : after? now wait = some deadline) :
    deadline = now + wait := by
  unfold after? at h
  split at h
  · exact (Option.some.inj h).symm
  · cases h

theorem after?_eq_none_iff {now wait : Nat} : after? now wait = none ↔ last < now + wait := by
  unfold after?
  split
  · next hle => simp [Nat.not_lt.2 hle]
  · next hlt => simp [Nat.lt_of_not_le hlt]

end Instant

end SmartCard
