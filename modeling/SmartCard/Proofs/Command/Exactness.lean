import SmartCard.Command.Positions
import SmartCard.Proofs.Command.Shapes
import Mathlib.Data.List.Permutation
/-!
# The reader of commands is exact

No frame has two of the seven shapes (`Shape.Frame.unique`): the command that
a frame carries fixes which fields it has, and among the shapes with these
fields its length tells one from the other. Every frame without a shape is
refused, in one of two ways that the first body bytes decide
(`decode_eq_error_iff`). The reader by positions finds the same and never looks
beyond the end of a frame (`decodeAt?_eq`).
-/

namespace SmartCard

namespace Command

variable {c d : Command} {body rest frame : Bytes} {hi lo lc : UInt8}
variable {size total : Nat} {e : ExchangeError}

/-! ## One shape for a frame -/

namespace Shape

/-- The shape has a field for data. -/
def hasData : Shape → Bool
  | .shortData | .shortDataLe | .extendedData | .extendedDataLe => true
  | .header | .shortLe | .extendedLe => false

/-- The shape has a field for an expected length. -/
def hasLe : Shape → Bool
  | .shortLe | .shortDataLe | .extendedLe | .extendedDataLe => true
  | .header | .shortData | .extendedData => false

/-- The bytes of a body that are not data. -/
def fieldBytes : Shape → Nat
  | .header => 0
  | .shortLe | .shortData => 1
  | .shortDataLe => 2
  | .extendedLe | .extendedData => 3
  | .extendedDataLe => 5

/-- The fields of a shape and their width tell which one it is. -/
theorem eq_of_fields {s s' : Shape} (hdata : s.hasData = s'.hasData) (hle : s.hasLe = s'.hasLe)
    (hbytes : s.fieldBytes = s'.fieldBytes) : s = s' := by
  cases s <;> cases s' <;> first | rfl | simp [hasData, hasLe, fieldBytes] at hdata hle hbytes

/-- A body has the fields of its shape, and is as long as they are. -/
theorem Body.fields {s : Shape} {carried : Option Bytes} {le : Option UInt32}
    (h : s.Body body carried le) :
    carried.isSome = s.hasData ∧ le.isSome = s.hasLe ∧
      body.length = (carried.getD []).length + s.fieldBytes := by
  cases h <;> simp [hasData, hasLe, fieldBytes]

/-- **No frame has two shapes**, and a frame carries one command. -/
theorem Frame.unique {s s' : Shape} (h : s.Frame frame c) (h' : s'.Frame frame d) :
    s = s' ∧ c = d := by
  -- the reader returns one command, so both shapes have the same fields
  obtain rfl : c = d :=
    Except.ok.inj ((decode_eq_ok_iff.2 ⟨s, h⟩).symm.trans (decode_eq_ok_iff.2 ⟨s', h'⟩))
  obtain ⟨body, rfl, hbody⟩ := h
  obtain ⟨body', hframe, hbody'⟩ := h'
  obtain rfl : body = body' := List.append_cancel_left hframe
  obtain ⟨hdata, hle, hlength⟩ := hbody.fields
  obtain ⟨hdata', hle', hlength'⟩ := hbody'.fields
  refine ⟨eq_of_fields (hdata.symm.trans hdata') (hle.symm.trans hle') ?_, rfl⟩
  omega

end Shape

/-! ## What is refused -/

/-- The body of the frame has at least four bytes and starts with three zeros: it
announces wide data of no length. -/
def WideZero (frame : Bytes) : Prop :=
  ∃ cla ins p1 p2 rest, rest ≠ [] ∧ frame = cla :: ins :: p1 :: p2 :: 0 :: 0 :: 0 :: rest

/-- A frame that announces wide data of no length is refused for that. -/
theorem decode_of_wideZero (h : WideZero frame) :
    decode frame = .error (.commandData "extended Lc of zero") := by
  obtain ⟨cla, ins, p1, p2, rest, hrest, rfl⟩ := h
  refine (decodeBody_extended hrest).trans ?_
  rw [if_pos (wordValue_eq_zero_iff.2 ⟨rfl, rfl⟩)]

/-- Every other frame that is refused is refused for its length. -/
theorem error_of_not_wideZero (hzero : ¬ WideZero frame) (h : decode frame = .error e) :
    e = .commandLength frame.length := by
  unfold decode at h
  split at h
  · next cla ins p1 p2 body =>
    have hlength : (cla :: ins :: p1 :: p2 :: body).length = 4 + body.length := by
      simp only [List.length_cons]
      omega
    rw [hlength]
    rcases error_of_decodeBody h with ⟨⟨rest, hrest, rfl⟩, -⟩ | heq
    · exact absurd ⟨cla, ins, p1, p2, rest, hrest, rfl⟩ hzero
    · exact heq
  · exact (Except.error.inj h).symm

/-- **A frame is refused in one of two ways**, for wide data of no length or for
its own length, and only a frame without a shape is. -/
theorem decode_eq_error_iff :
    decode frame = .error e ↔
      (WideZero frame ∧ e = .commandData "extended Lc of zero") ∨
      (¬ WideZero frame ∧ (¬ ∃ (s : Shape) (c : Command), s.Frame frame c) ∧
        e = .commandLength frame.length) := by
  constructor
  · intro h
    by_cases hzero : WideZero frame
    · exact .inl ⟨hzero, (Except.error.inj ((decode_of_wideZero hzero).symm.trans h)).symm⟩
    · refine .inr ⟨hzero, ?_, error_of_not_wideZero hzero h⟩
      rintro ⟨s, c, hframe⟩
      cases (decode_eq_ok_iff.2 ⟨s, hframe⟩).symm.trans h
  · rintro (⟨hzero, rfl⟩ | ⟨hzero, hshape, rfl⟩)
    · exact decode_of_wideZero hzero
    · cases h : decode frame with
      | ok c => exact absurd (decode_eq_ok_iff.1 h) fun ⟨s, hframe⟩ => hshape ⟨s, c, hframe⟩
      | error e => rw [error_of_not_wideZero hzero h]

/-! ## The reader by positions -/

/-- All bytes from a position on. -/
theorem slice?_length {start : Nat} (h : start ≤ frame.length) :
    slice? frame start frame.length = some (frame.drop start) := by
  rw [slice?, if_pos ⟨h, Nat.le_refl _⟩, List.take_length]

/-- A field of this width stands behind data of that length. -/
theorem exists_append_of_length_eq {width : Nat} (h : rest.length = size + width) :
    ∃ data field : Bytes, data.length = size ∧ field.length = width ∧ rest = data ++ field :=
  ⟨rest.take size, rest.drop size, by simp [h], by simp [h], (List.take_append_drop ..).symm⟩

/-- A wide expected length takes two bytes. -/
theorem extendedTail_eq_none (h : rest.length ≠ 2) : extendedTail rest = none := by
  unfold extendedTail
  split
  · simp at h
  · rfl

/-- A short expected length takes one byte. -/
theorem shortTail_eq_none (h : rest.length ≠ 1) : shortTail rest = none := by
  unfold shortTail
  split
  · simp at h
  · rfl

/-- A body with wide length fields and data, read by positions. -/
theorem wideAt?_eq (h : rest ≠ []) :
    wideAt? c total (0 :: hi :: lo :: rest) =
      some (if wordValue hi lo = 0 then .error (.commandData "extended Lc of zero")
        else decodeData c (wordValue hi lo) total rest extendedTail) := by
  have hpos := List.length_pos_of_ne_nil h
  have hrest : slice? (0 :: hi :: lo :: rest) 3 (0 :: hi :: lo :: rest).length = some rest :=
    slice?_length (by simp)
  unfold wideAt? decodeData
  rw [hrest]
  simp only [List.getElem?_cons_succ, List.getElem?_cons_zero, Option.bind_eq_bind,
    Option.bind_some, Option.pure_def, List.length_cons]
  rw [if_neg (by omega)]
  split
  · rfl
  · split
    · rfl
    · split
      · next htwo =>
        obtain ⟨data, field, hdata, hfield, rfl⟩ := exists_append_of_length_eq htwo
        obtain ⟨leHi, leLo, rfl⟩ := List.length_eq_two.1 hfield
        rw [← hdata]
        simp [slice?, extendedTail]
      · next htwo =>
        have hnone : extendedTail (rest.drop (wordValue hi lo)) = none :=
          extendedTail_eq_none (by rw [List.length_drop]; omega)
        rw [hnone]

/-- A body with short length fields and more than one byte, read by positions. -/
theorem narrowAt?_eq :
    narrowAt? c total (lc :: rest) =
      some (if lc = 0 then .error (.commandLength total)
        else decodeData c lc.toNat total rest shortTail) := by
  have hrest : slice? (lc :: rest) 1 (lc :: rest).length = some rest := slice?_length (by simp)
  unfold narrowAt? decodeData
  rw [hrest]
  simp only [List.getElem?_cons_zero, Option.bind_eq_bind, Option.bind_some, Option.pure_def]
  split
  · rfl
  · by_cases hfull : rest.length = lc.toNat
    · rw [if_pos (by simp [hfull, Nat.add_comm]), if_pos hfull]
    · rw [if_neg (by simp; omega), if_neg hfull]
      by_cases hone : rest.length = lc.toNat + 1
      · rw [if_pos (by simp; omega)]
        obtain ⟨data, field, hdata, hfield, rfl⟩ := exists_append_of_length_eq hone
        obtain ⟨le, rfl⟩ := List.length_eq_one_iff.1 hfield
        rw [← hdata]
        simp [slice?, shortTail, Nat.add_comm]
      · have hnone : shortTail (rest.drop lc.toNat) = none :=
          shortTail_eq_none (by rw [List.length_drop]; omega)
        rw [if_neg (by simp; omega), hnone]

/-- A body read by positions is what the reader makes of it. -/
theorem bodyAt?_eq : bodyAt? c (4 + body.length) body = some (decodeBody c body) := by
  unfold decodeBody
  split
  · rfl
  · rfl
  · rfl
  · next hi lo rest hrest =>
    have hne : rest ≠ [] := fun h0 => hrest (by rw [h0])
    have hwide : bodyAt? c (4 + (0 :: hi :: lo :: rest).length) (0 :: hi :: lo :: rest) =
        wideAt? c (4 + (0 :: hi :: lo :: rest).length) (0 :: hi :: lo :: rest) := by
      simp [bodyAt?]
    rw [hwide, wideAt?_eq hne]
  · next lc rest hnil hwide hlong =>
    have hnarrow : bodyAt? c (4 + (lc :: rest).length) (lc :: rest) =
        narrowAt? c (4 + (lc :: rest).length) (lc :: rest) := by
      -- neither a field that stands alone nor a zero with two bytes behind it
      have hne : rest ≠ [] := hnil
      have hnot : ¬ (lc = 0 ∧ 3 ≤ (lc :: rest).length) := by
        rintro ⟨hzero, hthree⟩
        obtain ⟨hi, rest, rfl⟩ := List.exists_cons_of_ne_nil hne
        cases rest with
        | nil => simp at hthree
        | cons lo rest => exact hlong hi lo rest hzero rfl
      unfold bodyAt?
      rw [if_neg (by simp)]
      simp only [List.getElem?_cons_zero, Option.bind_eq_bind, Option.bind_some]
      rw [if_neg (by simpa using hne), if_neg hnot]
    rw [hnarrow, narrowAt?_eq]

/-- **The reader by positions never leaves the frame**, and finds what the reader
by patterns finds. -/
theorem decodeAt?_eq (frame : Bytes) : decodeAt? frame = some (decode frame) := by
  unfold decode
  split
  · next cla ins p1 p2 body =>
    have hbody : slice? (cla :: ins :: p1 :: p2 :: body) 4
        (cla :: ins :: p1 :: p2 :: body).length = some body := slice?_length (by simp)
    unfold decodeAt?
    rw [hbody]
    have hlength : (cla :: ins :: p1 :: p2 :: body).length = 4 + body.length := by
      simp only [List.length_cons]
      omega
    rw [hlength, if_neg (by omega)]
    exact bodyAt?_eq
  · next hshort =>
    have hlt : frame.length < 4 := by
      rcases frame with _ | ⟨cla, _ | ⟨ins, _ | ⟨p1, _ | ⟨p2, body⟩⟩⟩⟩
      · simp
      · simp
      · simp
      · simp
      · exact absurd rfl (hshort cla ins p1 p2 body)
    unfold decodeAt?
    rw [if_pos hlt]
    rfl

/-! ## Exactness -/

/-- **The reader accepts exactly the frames of the seven shapes.** No frame has two
of them, and the command it returns is the one that the frame carries in its one
shape, never with data that are present and empty. All other frames are refused:
those that announce wide data of no length for that, and the rest for their
length. The reader by positions does the same for every frame, so it never looks
beyond its end. -/
theorem recognises_exactly (frame : Bytes) :
    (∀ c, decode frame = .ok c ↔ ∃ s : Shape, s.Frame frame c) ∧
    (∀ (s s' : Shape) (c c' : Command), s.Frame frame c → s'.Frame frame c' →
      s = s' ∧ c = c' ∧ c.data ≠ some []) ∧
    (∀ e, decode frame = .error e ↔
      (WideZero frame ∧ e = .commandData "extended Lc of zero") ∨
      (¬ WideZero frame ∧ (¬ ∃ (s : Shape) (c : Command), s.Frame frame c) ∧
        e = .commandLength frame.length)) ∧
    decodeAt? frame = some (decode frame) := by
  refine ⟨fun c => decode_eq_ok_iff, fun s s' c c' h h' => ?_, fun e => decode_eq_error_iff,
    decodeAt?_eq frame⟩
  obtain ⟨hshape, hcommand⟩ := h.unique h'
  exact ⟨hshape, hcommand, h.representable.data_ne⟩

/-- One byte of data and an expected length, in wide fields that would fit short ones. -/
def roomy : Bytes := [0x00, 0xD6, 0x00, 0x00, 0x00, 0x00, 0x01, 0xAA, 0x00, 0x00]

/-- The frame is one of wide data and an expected length, and of no other shape:
its first body byte is no short length, and no expected length that stands alone. -/
theorem recognises_exactly_roomy :
    (∀ (s : Shape) (c : Command), s.Frame roomy c →
      s = .extendedDataLe ∧ c.data = some [0xAA] ∧ c.le = some 65536) ∧
    decodeAt? roomy = some (.ok ⟨0x00, 0xD6, 0x00, 0x00, some [0xAA], some 65536⟩) ∧
    decode (roomy.set 6 0x00) = .error (.commandData "extended Lc of zero") := by
  have hbody : Shape.extendedDataLe.Body (0 :: 0 :: 1 :: ([0xAA] ++ [0, 0])) (some [0xAA])
      (some 65536) := .extendedDataLe (by decide) rfl (.inl ⟨rfl, rfl, rfl⟩)
  have hframe : Shape.extendedDataLe.Frame roomy
      ⟨0x00, 0xD6, 0x00, 0x00, some [0xAA], some 65536⟩ := ⟨_, rfl, hbody⟩
  have hroomy := recognises_exactly roomy
  have hzero := recognises_exactly (roomy.set 6 0x00)
  refine ⟨fun s c h => ?_, ?_, ?_⟩
  · obtain ⟨hshape, rfl, -⟩ := hroomy.2.1 _ _ _ _ h hframe
    exact ⟨hshape, rfl, rfl⟩
  · rw [hroomy.2.2.2, (hroomy.1 _).2 ⟨_, hframe⟩]
  · exact (hzero.2.2.1 _).2 (.inl ⟨⟨_, _, _, _, _, List.cons_ne_nil _ _, rfl⟩, rfl⟩)

end Command

end SmartCard
