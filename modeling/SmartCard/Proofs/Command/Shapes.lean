import SmartCard.Command.Encoding
import SmartCard.Command.Shape
import Mathlib.Data.List.Basic
/-!
# What the reader of commands accepts

`decode_eq_ok_iff` compares the reader with the seven shapes: it accepts a
frame exactly if the frame has one of them, and the command it returns is
the one that the frame carries. What a frame carries is always
representable (`Shape.Frame.representable`), since no field of a frame can
hold more than its width.
-/

namespace SmartCard

namespace Command

variable {c d : Command} {body rest frame : Bytes} {b lc hi lo : UInt8} {n : UInt32}

/-! ## The length fields -/

/-- A short field stands for one length, the one that the reader takes it for. -/
theorem shortLength_iff : Shape.ShortLength b n ↔ n = shortLe b := by
  unfold Shape.ShortLength shortLe
  by_cases hb : b = 0
  · simp [hb, maxShortLe]
  · simp [hb, ← UInt32.toNat_inj]

/-- A field of two zero bytes is the one that has the value zero. -/
theorem wordValue_eq_zero_iff : wordValue hi lo = 0 ↔ hi = 0 ∧ lo = 0 := by
  unfold wordValue
  rw [← UInt8.toNat_inj, ← UInt8.toNat_inj, UInt8.toNat_zero]
  omega

theorem wordValue_lt (hi lo : UInt8) : wordValue hi lo < 65536 := by
  have hhi := hi.toNat_lt
  have hlo := lo.toNat_lt
  unfold wordValue
  omega

/-- An extended field stands for one length, the one that the reader takes it
for. -/
theorem extendedLength_iff : Shape.ExtendedLength hi lo n ↔ n = extendedLe hi lo := by
  unfold Shape.ExtendedLength extendedLe
  simp only [wordValue_eq_zero_iff]
  have hlt := wordValue_lt hi lo
  by_cases hz : hi = 0 ∧ lo = 0
  · simp [hz, maxExtendedLe]
  · have hvalue : (UInt32.ofNat (wordValue hi lo)).toNat = 256 * hi.toNat + lo.toNat := by
      rw [UInt32.toNat_ofNat', Nat.mod_eq_of_lt (by omega)]
      rfl
    rw [if_neg hz, ← hvalue, UInt32.toNat_inj]
    constructor
    · rintro (⟨h1, h2, -⟩ | ⟨-, h⟩)
      · exact absurd ⟨h1, h2⟩ hz
      · exact h
    · intro h
      exact .inr ⟨hz, h⟩

/-- A short field stands for a length from 1 to 256. -/
theorem Shape.ShortLength.mem (h : ShortLength b n) : 1 ≤ n.toNat ∧ n.toNat ≤ 256 := by
  rcases h with ⟨-, rfl⟩ | ⟨hb, hn⟩
  · decide
  · have hlt := b.toNat_lt
    have hpos : b.toNat ≠ 0 := fun h0 => hb (UInt8.toNat_inj.1 h0)
    omega

/-- An extended field stands for a length from 1 to 65536. -/
theorem Shape.ExtendedLength.mem (h : ExtendedLength hi lo n) :
    1 ≤ n.toNat ∧ n.toNat ≤ 65536 := by
  rcases h with ⟨-, -, rfl⟩ | ⟨hz, hn⟩
  · decide
  · have hlt := wordValue_lt hi lo
    have hpos : wordValue hi lo ≠ 0 := fun h0 => hz (wordValue_eq_zero_iff.1 h0)
    unfold wordValue at hlt hpos
    omega

/-! ## The steps of the reader -/

/-- A single byte is left, and it is an expected length. -/
theorem shortTail_eq_some_iff : shortTail rest = some n ↔ ∃ b, rest = [b] ∧ n = shortLe b := by
  unfold shortTail
  split
  · simp [eq_comm]
  · next h =>
    have hne : ∀ b, rest ≠ [b] := h
    simp [hne]

/-- Two bytes are left, and they are an expected length. -/
theorem extendedTail_eq_some_iff :
    extendedTail rest = some n ↔ ∃ hi lo, rest = [hi, lo] ∧ n = extendedLe hi lo := by
  unfold extendedTail
  split
  · simp [eq_comm, and_assoc]
  · next h =>
    have hne : ∀ hi lo, rest ≠ [hi, lo] := h
    simp [hne]

/-- Data fill the rest, or an expected length stands behind them. -/
theorem decodeData_eq_ok_iff {size total : Nat} {tail : Bytes → Option UInt32} :
    decodeData c size total rest tail = .ok d ↔
      (rest.length = size ∧ d = { c with data := some rest }) ∨
      (rest.length ≠ size ∧ ∃ le, tail (rest.drop size) = some le ∧
        d = { c with data := some (rest.take size), le := some le }) := by
  unfold decodeData
  by_cases hsize : rest.length = size
  · simp [hsize, eq_comm]
  · cases htail : tail (rest.drop size) with
    | none => simp [hsize]
    | some le => simp [hsize, eq_comm]

/-- A body that starts with a length other than zero is a short one. -/
theorem decodeBody_short (hlc : lc ≠ 0) (hrest : rest ≠ []) :
    decodeBody c (lc :: rest) =
      decodeData c lc.toNat (4 + (lc :: rest).length) rest shortTail := by
  obtain ⟨first, rest, rfl⟩ := List.exists_cons_of_ne_nil hrest
  unfold decodeBody
  split
  · simp_all
  · simp_all
  · simp_all
  · simp_all
  · next heq =>
    obtain ⟨rfl, rfl⟩ := List.cons.inj heq
    rw [if_neg hlc]

/-- A body that starts with a zero byte, and has more behind a wide length, is
an extended one with data. -/
theorem decodeBody_extended (hrest : rest ≠ []) :
    decodeBody c (0 :: hi :: lo :: rest) =
      if wordValue hi lo = 0 then .error (.commandData "extended Lc of zero")
      else decodeData c (wordValue hi lo) (4 + (0 :: hi :: lo :: rest).length) rest
        extendedTail := by
  obtain ⟨first, rest, rfl⟩ := List.exists_cons_of_ne_nil hrest
  rfl

/-! ## The reader and the shapes -/

/-- **What the reader accepts has a shape**, and it returns what the body
carries. -/
theorem body_of_decodeBody (hdata : c.data = none) (hle : c.le = none)
    (h : decodeBody c body = .ok d) :
    d.header = c.header ∧ ∃ s : Shape, s.Body body d.data d.le := by
  unfold decodeBody at h
  split at h
  · cases h
    rw [hdata, hle]
    exact ⟨rfl, .header, .header⟩
  · cases h
    rw [hdata]
    exact ⟨rfl, .shortLe, .shortLe (shortLength_iff.2 rfl)⟩
  · cases h
    rw [hdata]
    exact ⟨rfl, .extendedLe, .extendedLe (extendedLength_iff.2 rfl)⟩
  · next hi lo rest _ =>
    split at h
    · cases h
    · next hpos =>
      rcases decodeData_eq_ok_iff.1 h with ⟨hlength, rfl⟩ | ⟨hlength, le, htail, rfl⟩
      · refine ⟨rfl, .extendedData, ?_⟩
        rw [hle]
        exact .extendedData (by omega) hlength
      · obtain ⟨b₁, b₂, hdrop, rfl⟩ := extendedTail_eq_some_iff.1 htail
        have htake : (rest.take (wordValue hi lo)).length = wordValue hi lo := by
          have hdropped := congrArg List.length hdrop
          rw [List.length_drop, List.length_cons, List.length_singleton] at hdropped
          rw [List.length_take]
          omega
        have hbody : rest = rest.take (wordValue hi lo) ++ [b₁, b₂] := by
          rw [← hdrop, List.take_append_drop]
        refine ⟨rfl, .extendedDataLe, ?_⟩
        have hframe := Shape.Body.extendedDataLe (by omega) htake
          (extendedLength_iff.2 (Eq.refl (extendedLe b₁ b₂)))
        rwa [← hbody] at hframe
  · next lc rest _ _ _ =>
    split at h
    · cases h
    · next hlc =>
      have hpos : lc.toNat ≠ 0 := fun h0 => hlc (UInt8.toNat_inj.1 h0)
      rcases decodeData_eq_ok_iff.1 h with ⟨hlength, rfl⟩ | ⟨hlength, le, htail, rfl⟩
      · refine ⟨rfl, .shortData, ?_⟩
        rw [hle]
        exact .shortData (by omega) hlength
      · obtain ⟨b, hdrop, rfl⟩ := shortTail_eq_some_iff.1 htail
        have htake : (rest.take lc.toNat).length = lc.toNat := by
          have hdropped := congrArg List.length hdrop
          rw [List.length_drop, List.length_singleton] at hdropped
          rw [List.length_take]
          omega
        have hbody : rest = rest.take lc.toNat ++ [b] := by
          rw [← hdrop, List.take_append_drop]
        refine ⟨rfl, .shortDataLe, ?_⟩
        have hframe := Shape.Body.shortDataLe (by omega) htake
          (shortLength_iff.2 (Eq.refl (shortLe b)))
        rwa [← hbody] at hframe

/-- **Every body that has a shape is accepted**, and what it carries is
returned. -/
theorem decodeBody_of_body {s : Shape} {data : Option Bytes} {le : Option UInt32}
    (hdata : c.data = none) (hle : c.le = none) (h : s.Body body data le) :
    decodeBody c body = .ok { c with data, le } := by
  obtain ⟨cla, ins, p1, p2, cdata, cle⟩ := c
  subst hdata hle
  cases h with
  | header => rfl
  | shortLe hb =>
    rw [shortLength_iff.1 hb]
    rfl
  | @shortData lc data hpos hlc =>
    have hne : lc ≠ 0 := by
      rintro rfl
      exact absurd hpos (by decide)
    have hdata : data ≠ [] := List.ne_nil_of_length_pos (by omega)
    rw [decodeBody_short hne hdata]
    exact decodeData_eq_ok_iff.2 (.inl ⟨hlc, rfl⟩)
  | @shortDataLe lc b data n hpos hlc hb =>
    have hne : lc ≠ 0 := by
      rintro rfl
      exact absurd hpos (by decide)
    rw [decodeBody_short hne (by simp), shortLength_iff.1 hb]
    refine decodeData_eq_ok_iff.2 (.inr ⟨?_, shortLe b, ?_, ?_⟩)
    · simp [hlc]
    · rw [← hlc, List.drop_left]
      rfl
    · rw [← hlc, List.take_left]
  | extendedLe hb =>
    rw [extendedLength_iff.1 hb]
    rfl
  | @extendedData hi lo data hpos hlc =>
    have hvalue : data.length = wordValue hi lo := hlc
    have hdata : data ≠ [] := List.ne_nil_of_length_pos hpos
    rw [decodeBody_extended hdata, if_neg (by omega)]
    exact decodeData_eq_ok_iff.2 (.inl ⟨hvalue, rfl⟩)
  | @extendedDataLe hi lo b₁ b₂ data n hpos hlc hb =>
    have hvalue : data.length = wordValue hi lo := hlc
    rw [decodeBody_extended (by simp), if_neg (by omega), extendedLength_iff.1 hb]
    refine decodeData_eq_ok_iff.2 (.inr ⟨?_, extendedLe b₁ b₂, ?_, ?_⟩)
    · simp [hvalue]
    · rw [← hvalue, List.drop_left]
      rfl
    · rw [← hvalue, List.take_left]

/-- **The reader accepts exactly the frames that have one of the shapes**, and
returns the command that the frame carries. -/
theorem decode_eq_ok_iff : decode frame = .ok c ↔ ∃ s : Shape, s.Frame frame c := by
  constructor
  · intro h
    unfold decode at h
    split at h
    · next cla ins p1 p2 body =>
      obtain ⟨hheader, s, hbody⟩ := body_of_decodeBody rfl rfl h
      refine ⟨s, body, ?_, hbody⟩
      rw [hheader]
      rfl
    · cases h
  · rintro ⟨s, body, rfl, hbody⟩
    obtain ⟨cla, ins, p1, p2, data, le⟩ := c
    exact decodeBody_of_body rfl rfl hbody

/-- Data that are not as long as announced make a frame of no valid length. -/
theorem error_of_decodeData {size total : Nat} {tail : Bytes → Option UInt32} {e : ExchangeError}
    (h : decodeData c size total rest tail = .error e) : e = .commandLength total := by
  unfold decodeData at h
  split at h
  · cases h
  · split at h
    · cases h
    · exact (Except.error.inj h).symm

/-- A body is refused for wide data of no length, or for its own length. -/
theorem error_of_decodeBody {e : ExchangeError} (h : decodeBody c body = .error e) :
    ((∃ rest, rest ≠ [] ∧ body = 0 :: 0 :: 0 :: rest) ∧
        e = .commandData "extended Lc of zero") ∨
      e = .commandLength (4 + body.length) := by
  unfold decodeBody at h
  split at h
  · cases h
  · cases h
  · cases h
  · next hi lo rest hrest =>
    split at h
    · next hzero =>
      obtain ⟨rfl, rfl⟩ := wordValue_eq_zero_iff.1 hzero
      have hne : rest ≠ [] := fun h0 => hrest (by rw [h0])
      exact .inl ⟨⟨rest, hne, rfl⟩, (Except.error.inj h).symm⟩
    · exact .inr (error_of_decodeData h)
  · split at h
    · exact .inr (Except.error.inj h).symm
    · exact .inr (error_of_decodeData h)

/-- What the reader refuses is of no valid length, or has an invalid field. -/
theorem error_of_decode {e : ExchangeError} (h : decode frame = .error e) :
    (∃ length, e = .commandLength length) ∨ ∃ message, e = .commandData message := by
  unfold decode at h
  split at h
  · rcases error_of_decodeBody h with ⟨-, rfl⟩ | rfl
    · exact .inr ⟨_, rfl⟩
    · exact .inl ⟨_, rfl⟩
  · exact .inl ⟨_, (Except.error.inj h).symm⟩

/-- No field of a body holds more than its width. -/
theorem Shape.Body.bounds {s : Shape} {data : Option Bytes} {le : Option UInt32}
    (h : s.Body body data le) :
    data ≠ some [] ∧ (data.getD []).length ≤ 65535 ∧
      ∀ n, le = some n → 1 ≤ n.toNat ∧ n.toNat ≤ 65536 := by
  cases h with
  | header => simp
  | shortLe hb =>
    have hmem := hb.mem
    refine ⟨by simp, by simp, ?_⟩
    rintro n ⟨⟩
    omega
  | @shortData lc data hpos hlc =>
    have hlt := lc.toNat_lt
    have hne : data ≠ [] := List.ne_nil_of_length_pos (by omega)
    exact ⟨by simpa using hne, by simp; omega, by simp⟩
  | @shortDataLe lc b data n hpos hlc hb =>
    have hlt := lc.toNat_lt
    have hne : data ≠ [] := List.ne_nil_of_length_pos (by omega)
    have hmem := hb.mem
    refine ⟨by simpa using hne, by simp; omega, ?_⟩
    rintro n ⟨⟩
    omega
  | extendedLe hb =>
    refine ⟨by simp, by simp, ?_⟩
    rintro n ⟨⟩
    exact hb.mem
  | @extendedData hi lo data hpos hlc =>
    have hlt := wordValue_lt hi lo
    have hne : data ≠ [] := List.ne_nil_of_length_pos hpos
    unfold wordValue at hlt
    exact ⟨by simpa using hne, by simp; omega, by simp⟩
  | @extendedDataLe hi lo b₁ b₂ data n hpos hlc hb =>
    have hlt := wordValue_lt hi lo
    have hne : data ≠ [] := List.ne_nil_of_length_pos hpos
    unfold wordValue at hlt
    refine ⟨by simpa using hne, by simp; omega, ?_⟩
    rintro n ⟨⟩
    exact hb.mem

/-- What a frame carries is representable. -/
theorem Shape.Frame.representable {s : Shape} (h : s.Frame frame c) : c.Representable := by
  obtain ⟨body, -, hbody⟩ := h
  obtain ⟨hdata, hlength, hle⟩ := hbody.bounds
  exact ⟨hdata, hlength, hle⟩

end Command

end SmartCard
