import SmartCard.Status
import SmartCard.ExchangeError
/-!
# Response frames

A response is data followed by a status word. Taking a frame apart
(`Response.decode`) and putting it together (`Response.encode`) are inverse
to each other on every frame of at least two bytes.
-/

namespace SmartCard

/-- Data and the status word behind it. -/
structure Response where
  data : Bytes
  status : StatusWord
deriving DecidableEq

/-- What comes back from an exchange: the raw response, or why there is none. -/
abbrev Reply := Except ExchangeError Bytes

namespace Response

/-- A response with data that went well. -/
def success (data : Bytes) : Response := ⟨data, .success⟩

/-- A response without data. -/
def ofStatus (status : StatusWord) : Response := ⟨[], status⟩

/-- The frame: the data, then the status word. -/
def encode (r : Response) : Bytes :=
  r.data ++ r.status.bytes

/-- Takes a frame apart. A frame without room for a status word is incomplete. -/
def decode (raw : Bytes) : Except ExchangeError Response :=
  match raw.reverse with
  | sw2 :: sw1 :: data => .ok ⟨data.reverse, ⟨sw1, sw2⟩⟩
  | _ => .error (.incomplete raw.length)

/-- A frame is as long as the data and the status word together. -/
theorem length_encode (r : Response) : r.encode.length = r.data.length + 2 := by
  simp [encode, StatusWord.bytes]

/-- A frame comes apart into the response that it was made of. -/
theorem decode_encode (r : Response) : decode r.encode = .ok r := by
  simp [decode, encode, StatusWord.bytes]

/-- What a frame comes apart into makes the same frame again. -/
theorem encode_of_decode {raw : Bytes} {r : Response} (h : decode raw = .ok r) :
    r.encode = raw := by
  unfold decode at h
  split at h
  · next sw2 sw1 data heq =>
    cases h
    have := congrArg List.reverse heq
    simp only [List.reverse_reverse, List.reverse_cons, List.append_assoc] at this
    simp [encode, StatusWord.bytes, this]
  · cases h

/-- The one fault of a frame is that it is incomplete. -/
theorem error_of_decode {raw : Bytes} {e : ExchangeError} (h : decode raw = .error e) :
    e = .incomplete raw.length := by
  unfold decode at h
  split at h
  · cases h
  · exact (Except.error.inj h).symm

/-- A frame without room for a status word is incomplete. -/
theorem decode_of_short {raw : Bytes} (h : raw.length < 2) :
    decode raw = .error (.incomplete raw.length) := by
  cases hraw : decode raw with
  | error e => rw [error_of_decode hraw]
  | ok r =>
    have hlength := length_encode r
    rw [encode_of_decode hraw] at hlength
    omega

/-- A frame with room for a status word is that of a response. -/
theorem exists_eq_encode {raw : Bytes} (h : 2 ≤ raw.length) : ∃ r : Response, raw = r.encode := by
  rw [← List.length_reverse] at h
  rcases hraw : raw.reverse with _ | ⟨sw2, _ | ⟨sw1, data⟩⟩
  · simp [hraw] at h
  · simp [hraw] at h
  · refine ⟨⟨data.reverse, ⟨sw1, sw2⟩⟩, (encode_of_decode ?_).symm⟩
    unfold decode
    rw [hraw]

end Response

end SmartCard
