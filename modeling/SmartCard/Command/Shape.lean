import SmartCard.Command
/-!
# The shapes of command frames

The standard knows seven frames: a bare header; an expected length; data;
data and an expected length; and the last three again with wide length
fields. `Shape.Body` says for each shape which bodies have it and what
they carry, without reference to any reader or writer.
-/

namespace SmartCard

namespace Command

/-- The seven shapes a command frame can have. -/
inductive Shape where
  /-- The header alone. -/
  | header
  /-- A one-byte expected length. -/
  | shortLe
  /-- Data behind a one-byte length. -/
  | shortData
  /-- Data behind a one-byte length, and a one-byte expected length. -/
  | shortDataLe
  /-- A zero byte and a two-byte expected length. -/
  | extendedLe
  /-- Data behind a zero byte and a two-byte length. -/
  | extendedData
  /-- Data behind a zero byte and a two-byte length, and a two-byte expected length. -/
  | extendedDataLe
deriving DecidableEq

namespace Shape

/-- The one-byte field `b` stands for the expected length `n`: zero for 256. -/
def ShortLength (b : UInt8) (n : UInt32) : Prop :=
  (b = 0 ∧ n = 256) ∨ (b ≠ 0 ∧ n.toNat = b.toNat)

/-- The two-byte field stands for the expected length `n`: zero for 65536. -/
def ExtendedLength (hi lo : UInt8) (n : UInt32) : Prop :=
  (hi = 0 ∧ lo = 0 ∧ n = 65536) ∨
    (¬ (hi = 0 ∧ lo = 0) ∧ n.toNat = 256 * hi.toNat + lo.toNat)

/-- The bodies of each shape, with the data and the expected length in them. -/
inductive Body : Shape → Bytes → Option Bytes → Option UInt32 → Prop where
  | header : Body .header [] none none
  | shortLe {b : UInt8} {n : UInt32} (hb : ShortLength b n) :
      Body .shortLe [b] none (some n)
  | shortData {lc : UInt8} {data : Bytes} (hpos : 1 ≤ lc.toNat)
      (hlc : data.length = lc.toNat) : Body .shortData (lc :: data) (some data) none
  | shortDataLe {lc b : UInt8} {data : Bytes} {n : UInt32} (hpos : 1 ≤ lc.toNat)
      (hlc : data.length = lc.toNat) (hb : ShortLength b n) :
      Body .shortDataLe (lc :: (data ++ [b])) (some data) (some n)
  | extendedLe {hi lo : UInt8} {n : UInt32} (hb : ExtendedLength hi lo n) :
      Body .extendedLe [0, hi, lo] none (some n)
  | extendedData {hi lo : UInt8} {data : Bytes} (hpos : 1 ≤ data.length)
      (hlc : data.length = 256 * hi.toNat + lo.toNat) :
      Body .extendedData (0 :: hi :: lo :: data) (some data) none
  | extendedDataLe {hi lo b₁ b₂ : UInt8} {data : Bytes} {n : UInt32}
      (hpos : 1 ≤ data.length) (hlc : data.length = 256 * hi.toNat + lo.toNat)
      (hb : ExtendedLength b₁ b₂ n) :
      Body .extendedDataLe (0 :: hi :: lo :: (data ++ [b₁, b₂])) (some data) (some n)

/-- The frame of a command in one of the shapes: the header and a body. -/
def Frame (s : Shape) (frame : Bytes) (c : Command) : Prop :=
  ∃ body, frame = c.header ++ body ∧ s.Body body c.data c.le

end Shape

/-- The body of a frame shows a wide length field: a zero byte with at least
two bytes behind it. -/
def WideBody (body : Bytes) : Prop :=
  ∃ hi lo rest, body = 0 :: hi :: lo :: rest

/-- A command with an encoding of its own: data, when present, is not empty
and fits a two-byte length, and an expected length is from 1 to 65536. -/
structure Representable (c : Command) : Prop where
  data_ne : c.data ≠ some []
  data_le : c.payload.length ≤ 65535
  le_mem : ∀ n, c.le = some n → 1 ≤ n.toNat ∧ n.toNat ≤ 65536

end Command

end SmartCard
