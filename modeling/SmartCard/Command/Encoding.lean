import SmartCard.Command
import SmartCard.ExchangeError
/-!
# The encoding of commands

Behind the header stand a length and the data, where there are data, and
the expected length, where there is one. The fields are one byte wide, or
wide in an extended command; a wide field that comes first is led by a
zero byte. A length that does not fit its field loses its high bits, so
256 and 65536 stand as zero.

The reader tells the seven frame shapes apart by the length of the frame
and the first body byte alone.
-/

namespace SmartCard

namespace Command

/-- The low sixteen bits of a number, high byte first. -/
def word (n : Nat) : Bytes := [UInt8.ofNat (n / 256), UInt8.ofNat n]

/-- The length field of the data. -/
def lcField (c : Command) : Bytes :=
  if c.payload = [] then []
  else if c.isExtended then 0 :: word c.payload.length
  else [UInt8.ofNat c.payload.length]

/-- The field of the expected length. -/
def leField (c : Command) : Bytes :=
  match c.le with
  | none => []
  | some le =>
    if c.isExtended then (if c.payload = [] then [0] else []) ++ word le.toNat
    else [UInt8.ofNat le.toNat]

/-- The command as it goes to the card. -/
def encode (c : Command) : Bytes :=
  c.header ++ c.lcField ++ c.payload ++ c.leField

/-- The expected length in one byte, zero standing for 256. -/
def shortLe (b : UInt8) : UInt32 :=
  if b = 0 then maxShortLe else b.toUInt32

/-- The number in two bytes. -/
def wordValue (hi lo : UInt8) : Nat := 256 * hi.toNat + lo.toNat

/-- The expected length in two bytes, zero standing for 65536. -/
def extendedLe (hi lo : UInt8) : UInt32 :=
  if wordValue hi lo = 0 then maxExtendedLe else UInt32.ofNat (wordValue hi lo)

/-- Reads data of `size` bytes, behind which an expected length may stand
that `tail` reads; any other rest is not of a valid length. -/
def decodeData (c : Command) (size total : Nat) (rest : Bytes)
    (tail : Bytes → Option UInt32) : Except ExchangeError Command :=
  if rest.length = size then .ok { c with data := some rest }
  else match tail (rest.drop size) with
    | some le => .ok { c with data := some (rest.take size), le := some le }
    | none => .error (.commandLength total)

/-- The expected length that stands alone in one byte. -/
def shortTail : Bytes → Option UInt32
  | [b] => some (shortLe b)
  | _ => none

/-- The expected length that stands alone in two bytes. -/
def extendedTail : Bytes → Option UInt32
  | [hi, lo] => some (extendedLe hi lo)
  | _ => none

/-- Reads what stands behind the header of `c`. -/
def decodeBody (c : Command) (body : Bytes) : Except ExchangeError Command :=
  let total := 4 + body.length
  match body with
  | [] => .ok c
  | [le] => .ok { c with le := some (shortLe le) }
  | [0, hi, lo] => .ok { c with le := some (extendedLe hi lo) }
  | 0 :: hi :: lo :: rest =>
    if wordValue hi lo = 0 then .error (.commandData "extended Lc of zero")
    else decodeData c (wordValue hi lo) total rest extendedTail
  | lc :: rest =>
    if lc = 0 then .error (.commandLength total)
    else decodeData c lc.toNat total rest shortTail

/-- Reads a command frame. -/
def decode (frame : Bytes) : Except ExchangeError Command :=
  match frame with
  | cla :: ins :: p1 :: p2 :: body => decodeBody { cla, ins, p1, p2 } body
  | _ => .error (.commandLength frame.length)

end Command

end SmartCard
