import SmartCard.Proofs.Command.Canonical
/-!
# What is known of a frame before it is written

How long the frame of a command will be, and whether its length fields will be
wide, is told from the command alone. Both are right for every command, also
for one that its frame cannot carry: a length that loses its high bits leaves
its field as wide as it was. Wide fields show in the bytes, because a short
length of data is never zero (`lcField_short`), and without data a short body
has one byte at most.
-/

namespace SmartCard

namespace Command

variable {c : Command}

/-- Behind the header stand the fields and the data. -/
theorem drop_encode (c : Command) : c.encode.drop 4 = c.lcField ++ (c.payload ++ c.leField) := by
  rw [encode, List.append_assoc, List.append_assoc]
  rfl

/-- The length of data in a short command is one byte, which is not zero. -/
theorem lcField_short (hext : c.isExtended = false) (hdata : c.payload ≠ []) :
    ∃ lc : UInt8, lc ≠ 0 ∧ c.lcField = [lc] := by
  obtain ⟨hle, -⟩ := isExtended_eq_false_iff.1 hext
  have hpos := List.length_pos_of_ne_nil hdata
  refine ⟨UInt8.ofNat c.payload.length, fun hzero => ?_, by simp [lcField, hdata, hext]⟩
  have hvalue := congrArg UInt8.toNat hzero
  rw [UInt8.toNat_ofNat', UInt8.toNat_zero] at hvalue
  omega

/-- A command without data is extended only for the length that it expects. -/
theorem exists_le_of_isExtended (hext : c.isExtended = true) (hdata : c.payload = []) :
    ∃ n, c.le = some n := by
  cases hle : c.le with
  | none => simp [isExtended, hdata, hle] at hext
  | some n => exact ⟨n, rfl⟩

/-- An extended command shows a wide field behind its header. -/
theorem wideBody_of_isExtended (hext : c.isExtended = true) : WideBody (c.encode.drop 4) := by
  rw [drop_encode]
  by_cases hdata : c.payload = []
  · obtain ⟨n, hle⟩ := exists_le_of_isExtended hext hdata
    have hfield : c.leField = 0 :: word n.toNat := by simp [leField, hle, hext, hdata]
    rw [lcField, if_pos hdata, hdata, hfield]
    exact ⟨_, _, _, rfl⟩
  · have hfield : c.lcField = 0 :: word c.payload.length := by simp [lcField, hdata, hext]
    rw [hfield]
    exact ⟨_, _, _, rfl⟩

/-- A command that is not extended shows none. -/
theorem not_wideBody_of_short (hext : c.isExtended = false) : ¬ WideBody (c.encode.drop 4) := by
  rintro ⟨hi, lo, rest, hbody⟩
  rw [drop_encode] at hbody
  by_cases hdata : c.payload = []
  · rw [lcField, if_pos hdata, hdata, List.nil_append, List.nil_append] at hbody
    cases hle : c.le with
    | none => simp [leField, hle] at hbody
    | some n => simp [leField_short hext hle] at hbody
  · obtain ⟨lc, hne, hlc⟩ := lcField_short hext hdata
    rw [hlc, List.singleton_append] at hbody
    exact hne (List.cons.inj hbody).1

/-- **What is told of a frame beforehand is so.** Every command is written in as many
bytes as were announced, and its body shows a wide field exactly if it was to have
wide ones. -/
theorem encode_foreseen (c : Command) :
    c.encode.length = c.encodedLength ∧ (c.isExtended = true ↔ WideBody (c.encode.drop 4)) := by
  refine ⟨length_encode c, wideBody_of_isExtended, fun hwide => ?_⟩
  by_contra hext
  exact not_wideBody_of_short (Bool.eq_false_of_not_eq_true hext) hwide

end Command

end SmartCard
