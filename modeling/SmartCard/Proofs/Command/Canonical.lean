import SmartCard.Proofs.Command.Exactness
import SmartCard.Proofs.Command.RoundTrip
/-!
# The canonical frame of a command

A command can have two frames: one with short length fields, and one with
wide ones. The shape of a frame and what it carries fix its bytes
(`Shape.Frame.eq`), and a frame that was written is wide exactly if the
command needs it (`isWide_of_frame_encode`). So the frame that is written is
the shortest that carries the command, and it differs from another one only
if that has wide fields for what would fit short ones
(`encode_canonical`).
-/

namespace SmartCard

namespace Command

variable {c : Command} {body body' frame frame' : Bytes}

/-! ## The bytes of a shape -/

namespace Shape

variable {s s' : Shape} {carried : Option Bytes} {le : Option UInt32} {b b' hi hi' lo lo' : UInt8}
variable {n : UInt32}

/-- The shape has wide length fields. -/
def isWide : Shape → Bool
  | .extendedLe | .extendedData | .extendedDataLe => true
  | .header | .shortLe | .shortData | .shortDataLe => false

/-- The bytes that a shape takes more than the one with the same fields and
short lengths. -/
def spareBytes : Shape → Nat
  | .extendedLe | .extendedData => 2
  | .extendedDataLe => 3
  | .header | .shortLe | .shortData | .shortDataLe => 0

/-- The fields of a shape take one byte each, and the spare ones. -/
theorem fieldBytes_eq (s : Shape) :
    s.fieldBytes = s.hasData.toNat + s.hasLe.toNat + s.spareBytes := by
  cases s <;> rfl

/-- Only wide fields have bytes to spare. -/
theorem spareBytes_eq (s : Shape) :
    s.spareBytes = if s.isWide then 2 + (s.hasData && s.hasLe).toNat else 0 := by
  cases s <;> rfl

/-- A length has one short field. -/
theorem ShortLength.unique (h : ShortLength b n) (h' : ShortLength b' n) : b = b' := by
  have hb := ofNat_shortLe b
  rw [← shortLength_iff.1 h, shortLength_iff.1 h'] at hb
  exact hb.symm.trans (ofNat_shortLe b')

/-- Two bytes are fixed by their value. -/
theorem word_unique (h : 256 * hi.toNat + lo.toNat = 256 * hi'.toNat + lo'.toNat) :
    hi = hi' ∧ lo = lo' := by
  have hlo := lo.toNat_lt
  have hlo' := lo'.toNat_lt
  exact ⟨UInt8.toNat_inj.1 (by omega), UInt8.toNat_inj.1 (by omega)⟩

/-- A wide field holds the low bits of its length. -/
theorem ExtendedLength.value (h : ExtendedLength hi lo n) :
    256 * hi.toNat + lo.toNat = n.toNat % 65536 := by
  rcases h with ⟨rfl, rfl, rfl⟩ | ⟨-, hn⟩
  · rfl
  · have hlt := wordValue_lt hi lo
    unfold wordValue at hlt
    rw [hn, Nat.mod_eq_of_lt hlt]

/-- A length has one wide field. -/
theorem ExtendedLength.unique (h : ExtendedLength hi lo n) (h' : ExtendedLength hi' lo' n) :
    hi = hi' ∧ lo = lo' :=
  word_unique (h.value.trans h'.value.symm)

/-- **A shape and what it carries fix the body.** -/
theorem Body.eq (h : s.Body body carried le) (h' : s.Body body' carried le) : body = body' := by
  cases h with
  | header =>
    cases h'
    rfl
  | shortLe hb =>
    cases h' with
    | shortLe hb' => rw [hb.unique hb']
  | shortData hpos hlc =>
    cases h' with
    | shortData hpos' hlc' => rw [UInt8.toNat_inj.1 (hlc.symm.trans hlc')]
  | shortDataLe hpos hlc hb =>
    cases h' with
    | shortDataLe hpos' hlc' hb' => rw [UInt8.toNat_inj.1 (hlc.symm.trans hlc'), hb.unique hb']
  | extendedLe hb =>
    cases h' with
    | extendedLe hb' =>
      obtain ⟨rfl, rfl⟩ := hb.unique hb'
      rfl
  | extendedData hpos hlc =>
    cases h' with
    | extendedData hpos' hlc' =>
      obtain ⟨rfl, rfl⟩ := word_unique (hlc.symm.trans hlc')
      rfl
  | extendedDataLe hpos hlc hb =>
    cases h' with
    | extendedDataLe hpos' hlc' hb' =>
      obtain ⟨rfl, rfl⟩ := word_unique (hlc.symm.trans hlc')
      obtain ⟨rfl, rfl⟩ := hb.unique hb'
      rfl

/-- The body of a wide shape shows it, and no other body does. -/
theorem Body.isWide_iff (h : s.Body body carried le) : s.isWide = true ↔ WideBody body := by
  cases h with
  | header => simp [isWide, WideBody]
  | shortLe hb => simp [isWide, WideBody]
  | @shortData lc data hpos hlc =>
    have hne : lc ≠ 0 := by
      rintro rfl
      exact absurd hpos (by decide)
    simp [isWide, WideBody, hne]
  | @shortDataLe lc b data n hpos hlc hb =>
    have hne : lc ≠ 0 := by
      rintro rfl
      exact absurd hpos (by decide)
    simp [isWide, WideBody, hne]
  | extendedLe hb => simp [isWide, WideBody]
  | extendedData hpos hlc => simp [isWide, WideBody]
  | extendedDataLe hpos hlc hb => simp [isWide, WideBody]

/-- What stands in short fields fits them. -/
theorem Body.fits (h : s.Body body carried le) (hwide : s.isWide = false) :
    (carried.getD []).length ≤ 255 ∧ ∀ n, le = some n → n.toNat ≤ 256 := by
  cases h with
  | header => simp
  | shortLe hb =>
    refine ⟨by simp, ?_⟩
    rintro n ⟨⟩
    exact hb.mem.2
  | @shortData lc data hpos hlc =>
    have hlt := lc.toNat_lt
    exact ⟨by simp; omega, by simp⟩
  | @shortDataLe lc b data n hpos hlc hb =>
    have hlt := lc.toNat_lt
    refine ⟨by simp; omega, ?_⟩
    rintro n ⟨⟩
    exact hb.mem.2
  | extendedLe | extendedData | extendedDataLe => cases hwide

namespace Frame

/-- A shape and the command that it carries fix the frame. -/
theorem eq (h : s.Frame frame c) (h' : s.Frame frame' c) : frame = frame' := by
  obtain ⟨body, rfl, hbody⟩ := h
  obtain ⟨body', rfl, hbody'⟩ := h'
  rw [hbody.eq hbody']

/-- Whether a frame has wide fields can be seen behind its header. -/
theorem isWide_iff (h : s.Frame frame c) : s.isWide = true ↔ WideBody (frame.drop 4) := by
  obtain ⟨body, rfl, hbody⟩ := h
  exact hbody.isWide_iff

/-- A frame with short fields carries a command that needs no others. -/
theorem isExtended_eq_false (h : s.Frame frame c) (hwide : s.isWide = false) :
    c.isExtended = false := by
  obtain ⟨body, -, hbody⟩ := h
  exact isExtended_eq_false_iff.2 (hbody.fits hwide)

/-- A frame is as long as its header, its data and its fields. -/
theorem length_eq (h : s.Frame frame c) :
    frame.length = 4 + c.payload.length + (c.data.isSome.toNat + c.le.isSome.toNat) +
      s.spareBytes := by
  obtain ⟨body, rfl, hbody⟩ := h
  obtain ⟨hdata, hle, hlength⟩ := hbody.fields
  rw [List.length_append, hlength, fieldBytes_eq, hdata, hle]
  simp only [Command.header, payload, List.length_cons, List.length_nil]
  omega

/-- A shape has a field for each thing that the command has. -/
theorem fields (h : s.Frame frame c) : c.data.isSome = s.hasData ∧ c.le.isSome = s.hasLe := by
  obtain ⟨body, -, hbody⟩ := h
  exact ⟨hbody.fields.1, hbody.fields.2.1⟩

/-- Two frames of a command that are both wide, or both not, have one shape. -/
theorem shape_eq (h : s.Frame frame c) (h' : s'.Frame frame' c) (hwide : s.isWide = s'.isWide) :
    s = s' := by
  obtain ⟨hdata, hle⟩ := h.fields
  obtain ⟨hdata', hle'⟩ := h'.fields
  have hsame : s.hasData = s'.hasData := hdata.symm.trans hdata'
  have hsame' : s.hasLe = s'.hasLe := hle.symm.trans hle'
  refine eq_of_fields hsame hsame' ?_
  rw [fieldBytes_eq, fieldBytes_eq, spareBytes_eq, spareBytes_eq, hsame, hsame', hwide]

end Frame

end Shape

/-! ## The frame that is written -/

/-- **The length of a written command is the one that was announced for it**, also
where its fields cannot hold what they should. -/
theorem length_encode (c : Command) : c.encode.length = c.encodedLength := by
  unfold encode encodedLength lcField leField header word
  by_cases hpayload : c.payload = []
  · cases c.le <;> cases c.isExtended <;> simp [hpayload]
  · cases c.le <;> cases c.isExtended <;> simp [hpayload] <;> omega

/-- A command that is not extended is written without a byte to spare. -/
theorem encodedLength_le (h : c.isExtended = false) :
    c.encodedLength ≤ 4 + c.payload.length + (c.data.isSome.toNat + c.le.isSome.toNat) := by
  unfold encodedLength
  rw [h]
  cases hdata : c.data with
  | none => cases c.le <;> simp [payload, hdata]
  | some data => cases c.le <;> simp [payload, hdata] <;> split <;> omega

/-- **A frame that was written is wide exactly if its command is extended.** -/
theorem isWide_of_frame_encode {s : Shape} (h : s.Frame c.encode c) : s.isWide = c.isExtended := by
  cases hwide : s.isWide with
  | false => exact (h.isExtended_eq_false hwide).symm
  | true =>
    by_contra hne
    have hshort := encodedLength_le (c := c) (by simpa using Ne.symm hne)
    -- a wide frame would be longer than what is written
    have hlength := h.length_eq
    rw [length_encode, s.spareBytes_eq, hwide, if_pos rfl] at hlength
    omega

/-! ## Frames with more room than they need -/

/-- The frame has wide length fields, and short ones would have room for what it
carries. -/
def IsRoomy (frame : Bytes) (c : Command) : Prop :=
  WideBody (frame.drop 4) ∧ c.payload.length ≤ 255 ∧ ∀ n, c.le = some n → n.toNat ≤ 256

/-- A frame of the command is roomy if it is wide and the command is not extended. -/
theorem Shape.Frame.isRoomy_iff {s : Shape} (h : s.Frame frame c) :
    IsRoomy frame c ↔ s.isWide = true ∧ c.isExtended = false := by
  rw [IsRoomy, ← h.isWide_iff, isExtended_eq_false_iff]

/-- **A frame is the written one unless it is roomy**, and a roomy one is longer by
the bytes that it has to spare. -/
theorem frame_cases (h : decode frame = .ok c) :
    (¬ IsRoomy frame c ∧ c.encode = frame) ∨
      IsRoomy frame c ∧
        frame.length = c.encode.length + (2 + (c.data.isSome && c.le.isSome).toNat) := by
  obtain ⟨s, hs⟩ := decode_eq_ok_iff.1 h
  obtain ⟨s', hs'⟩ := frame_encode (representable_of_decode h)
  have hwide' := isWide_of_frame_encode hs'
  rw [hs.isRoomy_iff]
  cases hwide : s.isWide with
  | false =>
    have hext := hs.isExtended_eq_false hwide
    obtain rfl := hs'.shape_eq hs (hwide'.trans (hext.trans hwide.symm))
    exact .inl ⟨by simp, hs'.eq hs⟩
  | true =>
    cases hext : c.isExtended with
    | true =>
      obtain rfl := hs'.shape_eq hs (hwide'.trans (hext.trans hwide.symm))
      exact .inl ⟨by simp, hs'.eq hs⟩
    | false =>
      obtain ⟨hdata, hle⟩ := hs.fields
      have hlength := hs.length_eq
      have hlength' := hs'.length_eq
      rw [s.spareBytes_eq, hwide, if_pos rfl] at hlength
      rw [s'.spareBytes_eq, hwide', hext, if_neg Bool.false_ne_true] at hlength'
      refine .inr ⟨⟨rfl, rfl⟩, ?_⟩
      rw [hdata, hle]
      omega

/-! ## The canonical frame -/

/-- The frame that is written for what a frame carries. -/
def reencode (frame : Bytes) : Except ExchangeError Bytes :=
  (decode frame).map encode

/-- **How the written frame of a command stands to a frame that carries it.** -/
structure Canonical (frame : Bytes) (c : Command) : Prop where
  /-- It carries the command as well. -/
  decodes : decode c.encode = .ok c
  /-- It is no longer. -/
  length_le : c.encode.length ≤ frame.length
  /-- It is another one exactly if the frame is roomy. -/
  eq_iff : c.encode = frame ↔ ¬ IsRoomy frame c
  /-- It then saves two bytes, and three if there are data and an expected length. -/
  saves : IsRoomy frame c →
    frame.length = c.encode.length + (2 + (c.data.isSome && c.le.isSome).toNat)
  /-- Among the frames of the command, it alone is the shortest. -/
  shortest : ∀ f, (decode f = .ok c ∧ ∀ f', decode f' = .ok c → f.length ≤ f'.length) ↔
    f = c.encode
  /-- Writing it a second time changes nothing. -/
  idempotent : reencode frame = .ok c.encode ∧ reencode c.encode = .ok c.encode

/-- **The written frame is canonical**: of all the frames that carry a command, it is
the one shortest, and any other is longer because it is roomy. -/
theorem encode_canonical {frame : Bytes} {c : Command} (h : decode frame = .ok c) :
    Canonical frame c := by
  have hdecode := decode_encode (representable_of_decode h)
  have hle : ∀ f, decode f = .ok c → c.encode.length ≤ f.length := by
    intro f hf
    rcases frame_cases hf with ⟨-, heq⟩ | ⟨-, hlength⟩
    · rw [heq]
    · omega
  refine
    { decodes := hdecode
      length_le := hle frame h
      eq_iff := ⟨fun heq hroomy => ?_, fun hroomy => ?_⟩
      saves := fun hroomy => ?_
      shortest := fun f => ⟨fun ⟨hf, hmin⟩ => ?_, fun hf => hf ▸ ⟨hdecode, hle⟩⟩
      idempotent := ⟨by rw [reencode, h]; rfl, by rw [reencode, hdecode]; rfl⟩ }
  · rcases frame_cases h with ⟨hnot, -⟩ | ⟨-, hlength⟩
    · exact hnot hroomy
    · rw [heq] at hlength
      omega
  · rcases frame_cases h with ⟨-, heq⟩ | ⟨hroomy', -⟩
    · exact heq
    · exact absurd hroomy' hroomy
  · rcases frame_cases h with ⟨hnot, -⟩ | ⟨-, hlength⟩
    · exact absurd hroomy hnot
    · exact hlength
  · rcases frame_cases hf with ⟨-, heq⟩ | ⟨-, hlength⟩
    · exact heq.symm
    · have hshort := hmin c.encode hdecode
      omega

/-- One byte of data and an expected length of five, in wide fields. -/
def spacious : Bytes := [0x00, 0xD6, 0x00, 0x00, 0x00, 0x00, 0x01, 0xAA, 0x00, 0x05]

/-- It is written with short fields, which saves three bytes. -/
theorem encode_canonical_spacious : ∃ c, decode spacious = .ok c ∧ IsRoomy spacious c ∧
    c.encode = [0x00, 0xD6, 0x00, 0x00, 0x01, 0xAA, 0x05] ∧ Canonical spacious c := by
  have hdecode : decode spacious = .ok ⟨0x00, 0xD6, 0x00, 0x00, some [0xAA], some 5⟩ := by decide
  refine ⟨_, hdecode, ⟨⟨_, _, _, rfl⟩, by decide, ?_⟩, by decide, encode_canonical hdecode⟩
  rintro n ⟨⟩
  decide

end Command

end SmartCard
