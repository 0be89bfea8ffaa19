import SmartCard.Proofs.Command.Shapes
import Mathlib.Data.Set.Function
/-!
# Writing a command and reading it again

A representable command is written as a frame of one of the seven shapes
that carries this very command (`frame_encode`), so the reader returns it.
No other command comes back: whatever the reader returns is representable.
Thus a length that lost its high bits in the writing cannot be read back to
the command that it came from, and no case has to be made of it.
-/

namespace SmartCard

namespace Command

variable {c d : Command} {n : UInt32}

/-! ## The length fields, written -/

/-- A length up to 256 is written as the short field that stands for it. -/
theorem shortLength_ofNat (hpos : 1 ≤ n.toNat) (hle : n.toNat ≤ 256) :
    Shape.ShortLength (UInt8.ofNat n.toNat) n := by
  rcases Nat.eq_or_lt_of_le hle with heq | hlt
  · refine .inl ⟨?_, ?_⟩
    · rw [heq]
      rfl
    · rw [← UInt32.toNat_inj, heq]
      rfl
  · have hvalue : (UInt8.ofNat n.toNat).toNat = n.toNat := by
      rw [UInt8.toNat_ofNat', Nat.mod_eq_of_lt (by omega)]
    refine .inr ⟨fun h0 => ?_, hvalue.symm⟩
    rw [h0, UInt8.toNat_zero] at hvalue
    omega

/-- The two bytes of a number that fits them stand for it. -/
theorem wordValue_word {size : Nat} (h : size < 65536) :
    256 * (UInt8.ofNat (size / 256)).toNat + (UInt8.ofNat size).toNat = size := by
  rw [UInt8.toNat_ofNat', UInt8.toNat_ofNat']
  omega

/-- A length up to 65536 is written as the extended field that stands for it. -/
theorem extendedLength_word (hpos : 1 ≤ n.toNat) (hle : n.toNat ≤ 65536) :
    Shape.ExtendedLength (UInt8.ofNat (n.toNat / 256)) (UInt8.ofNat n.toNat) n := by
  rcases Nat.eq_or_lt_of_le hle with heq | hlt
  · refine .inl ⟨?_, ?_, ?_⟩
    · rw [heq]
      rfl
    · rw [heq]
      rfl
    · rw [← UInt32.toNat_inj, heq]
      rfl
  · have hvalue := wordValue_word hlt
    refine .inr ⟨?_, hvalue.symm⟩
    rintro ⟨hhi, hlo⟩
    rw [hhi, hlo, UInt8.toNat_zero] at hvalue
    omega

/-! ## The frame of a command -/

/-- A command is short if its data and its expected length fit one byte each. -/
theorem isExtended_eq_false_iff :
    c.isExtended = false ↔ c.payload.length ≤ 255 ∧ ∀ n, c.le = some n → n.toNat ≤ 256 := by
  unfold isExtended
  cases c.le with
  | none => simp
  | some le => simp [maxShortLe, UInt32.le_iff_toNat_le]

/-- A short field is written back from the length that it stands for. -/
theorem ofNat_shortLe (b : UInt8) : UInt8.ofNat (shortLe b).toNat = b := by
  unfold shortLe
  by_cases hb : b = 0
  · rw [if_pos hb, hb]
    rfl
  · rw [if_neg hb, UInt8.toNat_toUInt32]
    exact UInt8.ofNat_toNat

/-- The expected length of a short command that has one. -/
theorem leField_short (hext : c.isExtended = false) (hle : c.le = some n) :
    c.leField = [UInt8.ofNat n.toNat] := by
  simp [leField, hle, hext]

/-- A command with nothing but a short expected length is written in five bytes. -/
theorem encode_of_short_le (hdata : c.data = none) (hle : c.le = some n) (hn : n.toNat ≤ 256) :
    c.encode = c.header ++ [UInt8.ofNat n.toNat] := by
  have hpayload : c.payload = [] := by simp [payload, hdata]
  have hext : c.isExtended = false := by
    refine isExtended_eq_false_iff.2 ⟨by simp [hpayload], ?_⟩
    intro n' hn'
    rw [hle] at hn'
    cases hn'
    exact hn
  rw [encode, leField_short hext hle]
  simp [lcField, hpayload]

/-- The frame of a command without data. -/
theorem frame_of_payload_eq_nil (h : c.Representable) (hdata : c.data = none) :
    ∃ s : Shape, s.Frame c.encode c := by
  have hpayload : c.payload = [] := by simp [payload, hdata]
  have hencode : c.encode = c.header ++ c.leField := by simp [encode, lcField, hpayload]
  rw [hencode]
  cases hle : c.le with
  | none =>
    refine ⟨.header, _, rfl, ?_⟩
    simp only [leField, hle, hdata]
    exact .header
  | some n =>
    obtain ⟨hpos, hmax⟩ := h.le_mem n hle
    cases hext : c.isExtended with
    | false =>
      have hshort := (isExtended_eq_false_iff.1 hext).2 n hle
      refine ⟨.shortLe, _, rfl, ?_⟩
      rw [leField_short hext hle, hdata, hle]
      exact .shortLe (shortLength_ofNat hpos hshort)
    | true =>
      have hfield : c.leField = 0 :: word n.toNat := by simp [leField, hle, hext, hpayload]
      refine ⟨.extendedLe, _, rfl, ?_⟩
      rw [hfield, hdata, hle]
      exact .extendedLe (extendedLength_word hpos hmax)

/-- The frame of a command with data. -/
theorem frame_of_data (h : c.Representable) {data : Bytes} (hdata : c.data = some data) :
    ∃ s : Shape, s.Frame c.encode c := by
  have hpayload : c.payload = data := by simp [payload, hdata]
  have hne : data ≠ [] := fun h0 => h.data_ne (h0 ▸ hdata)
  have hsize := h.data_le
  have hpos := List.length_pos_of_ne_nil hne
  rw [hpayload] at hsize
  cases hext : c.isExtended with
  | false =>
    obtain ⟨hfits, hfits'⟩ := isExtended_eq_false_iff.1 hext
    rw [hpayload] at hfits
    have hlc : (UInt8.ofNat data.length).toNat = data.length := by
      rw [UInt8.toNat_ofNat', Nat.mod_eq_of_lt (by omega)]
    have hencode : c.encode = c.header ++ UInt8.ofNat data.length :: (data ++ c.leField) := by
      simp [encode, lcField, hpayload, hne, hext]
    rw [hencode]
    cases hle : c.le with
    | none =>
      have hfield : c.leField = [] := by simp [leField, hle]
      refine ⟨.shortData, _, rfl, ?_⟩
      rw [hfield, hdata, hle, List.append_nil]
      exact .shortData (by omega) hlc.symm
    | some n =>
      refine ⟨.shortDataLe, _, rfl, ?_⟩
      rw [leField_short hext hle, hdata, hle]
      exact .shortDataLe (by omega) hlc.symm
        (shortLength_ofNat (h.le_mem n hle).1 (hfits' n hle))
  | true =>
    have hlt : data.length < 65536 := by omega
    have hlc := wordValue_word hlt
    have hencode : c.encode = c.header ++
        0 :: UInt8.ofNat (data.length / 256) :: UInt8.ofNat data.length ::
          (data ++ c.leField) := by
      simp [encode, lcField, word, hpayload, hne, hext]
    rw [hencode]
    cases hle : c.le with
    | none =>
      have hfield : c.leField = [] := by simp [leField, hle]
      refine ⟨.extendedData, _, rfl, ?_⟩
      rw [hfield, hdata, hle, List.append_nil]
      exact .extendedData hpos hlc.symm
    | some n =>
      have hfield : c.leField = word n.toNat := by simp [leField, hle, hext, hpayload, hne]
      obtain ⟨hmin, hmax⟩ := h.le_mem n hle
      refine ⟨.extendedDataLe, _, rfl, ?_⟩
      rw [hfield, hdata, hle]
      exact .extendedDataLe hpos hlc.symm (extendedLength_word hmin hmax)

/-- **A representable command is written as a frame that carries it.** -/
theorem frame_encode (h : c.Representable) : ∃ s : Shape, s.Frame c.encode c := by
  cases hdata : c.data with
  | none => exact frame_of_payload_eq_nil h hdata
  | some data => exact frame_of_data h hdata

/-! ## There and back -/

/-- A representable command is read back. -/
theorem decode_encode (h : c.Representable) : decode c.encode = .ok c :=
  decode_eq_ok_iff.2 (frame_encode h)

/-- What the reader returns is representable. -/
theorem representable_of_decode {frame : Bytes} (h : decode frame = .ok c) : c.Representable := by
  obtain ⟨s, hframe⟩ := decode_eq_ok_iff.1 h
  exact hframe.representable

/-- Data that are present and empty are written like absent ones. -/
theorem encode_of_data_eq_nil (hdata : c.data = some []) :
    c.encode = ({ c with data := none } : Command).encode := by
  obtain ⟨cla, ins, p1, p2, data, le⟩ := c
  subst hdata
  rfl

/-- **A command is read back exactly if it is representable.** One whose only
fault is that its data are present and empty is read back without data. Two
representable commands never have the same frame. -/
theorem decode_encode_exactly :
    (∀ c : Command, decode c.encode = .ok c ↔ c.Representable) ∧
    (∀ c : Command, c.data = some [] → (∀ n, c.le = some n → 1 ≤ n.toNat ∧ n.toNat ≤ 65536) →
      decode c.encode = .ok { c with data := none }) ∧
    Set.InjOn encode { c | c.Representable } := by
  refine ⟨fun c => ⟨representable_of_decode, decode_encode⟩, fun c hdata hle => ?_, ?_⟩
  · have hrep : ({ c with data := none } : Command).Representable :=
      ⟨by simp, by simp [payload], hle⟩
    rw [encode_of_data_eq_nil hdata]
    exact decode_encode hrep
  · intro c hc d hd heq
    have hread := decode_encode hc
    rw [heq, decode_encode hd] at hread
    exact (Except.ok.inj hread).symm

/-- A command that asks for 65536 bytes, with data that are present and empty. -/
def askingAll : Command :=
  { cla := 0x00, ins := 0xB0, p1 := 0x00, p2 := 0x00, data := some [], le := some 65536 }

/-- It is read back without its data, so it is not representable. -/
theorem decode_encode_askingAll : askingAll.data = some [] ∧
    (∀ n, askingAll.le = some n → 1 ≤ n.toNat ∧ n.toNat ≤ 65536) ∧
    decode askingAll.encode = .ok { askingAll with data := none } ∧
    decode askingAll.encode ≠ .ok askingAll := by
  have hle : ∀ n, askingAll.le = some n → 1 ≤ n.toNat ∧ n.toNat ≤ 65536 := by
    rintro n ⟨⟩
    decide
  have hread := decode_encode_exactly.2.1 askingAll rfl hle
  refine ⟨rfl, hle, hread, fun heq => ?_⟩
  exact (decode_encode_exactly.1 askingAll).1 heq |>.data_ne rfl

end Command

end SmartCard
