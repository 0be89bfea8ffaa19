/-!
# Bytes and their hexadecimal text

Commands, responses and answers to reset are byte strings. In texts they
stand as two hexadecimal digits for each byte, in lower or in upper case.
-/

namespace SmartCard

/-- A string of bytes, as it goes to a card or comes from one. -/
abbrev Bytes := List UInt8

namespace Hex

/-- The letters that stand for the digits ten to fifteen. -/
inductive Case where
  | lower
  | upper
deriving DecidableEq

/-- The code of the letter that would stand for zero, were there one. -/
def Case.offset : Case → Nat
  | .lower => 87
  | .upper => 55

/-- The digit of a value below sixteen. -/
def digit (c : Case) (n : Nat) : Char :=
  if n < 10 then Char.ofNat (48 + n) else Char.ofNat (c.offset + n)

/-- Two digits for each byte, the high half first. -/
def encode (c : Case) (bytes : Bytes) : String :=
  String.ofList (bytes.flatMap fun b => [digit c (b.toNat / 16), digit c (b.toNat % 16)])

/-- The value of a digit, in either case. -/
def value? (c : Char) : Option Nat :=
  if '0' ≤ c ∧ c ≤ '9' then some (c.toNat - 48)
  else if 'a' ≤ c ∧ c ≤ 'f' then some (c.toNat - 87)
  else if 'A' ≤ c ∧ c ≤ 'F' then some (c.toNat - 55)
  else none

/-- Reads pairs of digits behind the bytes read so far, latest first. -/
def decodePairs (done : Bytes) : List Char → Option Bytes
  | [] => some done.reverse
  | [_] => none
  | hi :: lo :: rest =>
    match value? hi, value? lo with
    | some h, some l => decodePairs (UInt8.ofNat (16 * h + l) :: done) rest
    | _, _ => none

/-- Reads a text of digit pairs; anything else has no bytes. -/
def decode? (text : String) : Option Bytes :=
  decodePairs [] text.toList

end Hex

end SmartCard
