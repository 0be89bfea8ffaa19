import SmartCard.Hex
/-!
# Commands

A command is a header of four bytes, optional data, and an optional
expected length of the response. Data can be absent or present and empty;
both are encoded alike, yet they are different commands.
-/

namespace SmartCard

/-- A command to a card. -/
structure Command where
  /-- The class of the instruction. -/
  cla : UInt8
  /-- The instruction. -/
  ins : UInt8
  /-- The first parameter. -/
  p1 : UInt8
  /-- The second parameter. -/
  p2 : UInt8
  /-- The data to send, if any. -/
  data : Option Bytes := none
  /-- The expected length of the response, if one is expected. -/
  le : Option UInt32 := none
deriving DecidableEq

namespace Command

/-- The largest expected length with a one-byte field, where it stands as zero. -/
def maxShortLe : UInt32 := 256

/-- The largest expected length with a two-byte field, where it stands as zero. -/
def maxExtendedLe : UInt32 := 65536

/-- The command with this data. -/
def withData (c : Command) (data : Bytes) : Command := { c with data := some data }

/-- The command with this expected length. -/
def withLe (c : Command) (le : UInt32) : Command := { c with le := some le }

/-- The command without an expected length. -/
def withoutLe (c : Command) : Command := { c with le := none }

/-- The header bytes in order. -/
def header (c : Command) : Bytes := [c.cla, c.ins, c.p1, c.p2]

/-- The data, empty when it is absent. -/
def payload (c : Command) : Bytes := c.data.getD []

/-- The command needs wide length fields: its data does not fit a one-byte
length, or the expected length does not. -/
def isExtended (c : Command) : Bool :=
  c.payload.length > 255 || c.le.any (· > maxShortLe)

/-- The length of the encoded command, from the widths of its fields. -/
def encodedLength (c : Command) : Nat :=
  let size := c.payload.length
  let lc := if size = 0 then 0 else if c.isExtended then 3 else 1
  let le := if c.le.isNone then 0
    else if !c.isExtended then 1
    else if size = 0 then 3 else 2
  4 + lc + size + le

end Command

end SmartCard
