import SmartCard.Bench.Script
import SmartCard.Proofs.Layer.Conversation
/-!
# Correcting the expected length

The layer that repeats a command of a wrong length has seen all that it acts
on with the first reply: `feed_of_error` to `feed_of_readable` say what is left
of the exchange after each, and nothing in them depends on the data that stand
before `6C`. `corrects` puts that on a card: which commands reach it, what the
layer returns, and that the repeated command is the first one with its expected
length replaced.
-/

namespace SmartCard

open Exchange

/-- The command with the expected length that a second status byte names. -/
def Command.corrected (c : Command) (sw2 : UInt8) : Command :=
  { c with le := some (if sw2 = 0 then 256 else sw2.toUInt32) }

/-- What the layer makes of the reply to the repeated command: a response is taken
as it is, whatever its status. -/
def repeatedReply : Reply → Reply
  | .error e => .error (.context "Wrong length retry failed" e)
  | .ok raw => if raw.length < 2 then .error (.incomplete raw.length) else .ok raw

variable {command data raw : Bytes} {sw1 sw2 : UInt8} {c : Command} {e : ExchangeError}

/-- The last two bytes of a response are its status. -/
theorem decode_append_status (data : Bytes) (sw1 sw2 : UInt8) :
    Response.decode (data ++ [sw1, sw2]) = .ok ⟨data, ⟨sw1, sw2⟩⟩ :=
  Response.decode_encode ⟨data, ⟨sw1, sw2⟩⟩

/-- Correcting a command that was read keeps it in a frame of its own. -/
theorem decode_encode_corrected (h : Command.decode command = .ok c) (sw2 : UInt8) :
    Command.decode (c.corrected sw2).encode = .ok (c.corrected sw2) :=
  decode_encode_withLe h ⟨StatusWord.wrongLeSw1, sw2⟩

/-! ## The layer after the first reply -/

namespace Layer

/-- A failure is passed on. -/
theorem feed_of_error (command : Bytes) (e : ExchangeError) :
    (wrongLength.exchange command).feed [.error e] = .done (.error e) := rfl

/-- A response without room for a status word is a failure. -/
theorem feed_of_short (command : Bytes) (h : raw.length < 2) :
    (wrongLength.exchange command).feed [.ok raw] = .done (.error (.incomplete raw.length)) := by
  simp only [exchange, retryWrongLength, feed, Response.decode_of_short h]

/-- A response that corrects nothing is passed on. -/
theorem feed_of_plain (command data : Bytes) (sw2 : UInt8) (h : sw1 ≠ 0x6C) :
    (wrongLength.exchange command).feed [.ok (data ++ [sw1, sw2])] =
      .done (.ok (data ++ [sw1, sw2])) := by
  have hsw : sw1 ≠ StatusWord.wrongLeSw1 := h
  simp only [exchange, retryWrongLength, feed, decode_append_status, ne_eq, hsw,
    not_false_eq_true, if_true]

/-- A command that cannot be read is not repeated. -/
theorem feed_of_unreadable (data : Bytes) (sw2 : UInt8) (h : Command.decode command = .error e) :
    (wrongLength.exchange command).feed [.ok (data ++ [0x6C, sw2])] =
      .done (.error (.context "Failed to rebuild command for wrong length retry" e)) := by
  simp only [exchange, retryWrongLength, feed, decode_append_status, StatusWord.wrongLeSw1,
    ne_eq, not_true_eq_false, if_false, h, ExchangeError.withContext]

/-- **A command that can be read is repeated** with its expected length corrected. -/
theorem feed_of_readable (data : Bytes) (sw2 : UInt8) (h : Command.decode command = .ok c) :
    (wrongLength.exchange command).feed [.ok (data ++ [0x6C, sw2])] =
      .transmit (c.corrected sw2).encode fun reply => .done (repeatedReply reply) := by
  simp only [exchange, retryWrongLength, feed, decode_append_status, StatusWord.wrongLeSw1,
    ne_eq, not_true_eq_false, if_false, h]
  refine congrArg (Exchange.transmit _) (funext fun reply => ?_)
  cases reply with
  | error e => rfl
  | ok second =>
    by_cases hshort : second.length < 2
    · simp only [Response.decode_of_short hshort, repeatedReply, if_pos hshort]
    · obtain ⟨r, rfl⟩ := Response.exists_eq_encode (Nat.le_of_not_lt hshort)
      simp only [Response.decode_encode, repeatedReply, if_neg hshort]

/-! ## The layer on a card -/

variable {σ : Type}

/-- The command reaches the card as it is, and the reply decides how to go on. -/
theorem perform_wrongLength (card : Card σ) (s : σ) (command : Bytes) :
    (wrongLength.exchange command).perform card s =
      (((wrongLength.exchange command).feed [(card command s).1]).perform card
        (card command s).2).after ⟨command, (card command s).1⟩ := by
  simp only [exchange, retryWrongLength, perform, feed, feed_nil]

/-- If the first reply ends the exchange, the command is all that reaches the card. -/
theorem perform_of_done {card : Card σ} {s : σ} {reply result : Reply}
    (hcard : (card command s).1 = reply)
    (h : (wrongLength.exchange command).feed [reply] = .done result) :
    (wrongLength.exchange command).perform card s =
      ⟨result, [⟨command, reply⟩], (card command s).2⟩ := by
  rw [perform_wrongLength, hcard, h]
  rfl

/-- If the command is repeated, the card answers two frames and no more. -/
theorem perform_of_readable {card : Card σ} {s : σ}
    (hcard : (card command s).1 = .ok (data ++ [0x6C, sw2]))
    (h : Command.decode command = .ok c) :
    (wrongLength.exchange command).perform card s =
      let second := card (c.corrected sw2).encode (card command s).2
      ⟨repeatedReply second.1, [⟨command, .ok (data ++ [0x6C, sw2])⟩,
        ⟨(c.corrected sw2).encode, second.1⟩], second.2⟩ := by
  rw [perform_wrongLength, hcard, feed_of_readable data sw2 h]
  rfl

/-- **The correction of an expected length**, on a card in a state: a reply that
ends the exchange is the reply to the only command sent, and a correction is
followed by one frame more. -/
structure Corrects (card : Card σ) (s : σ) (command : Bytes) : Prop where
  /-- A first exchange that fails is returned as it failed. -/
  failed : ∀ e, (card command s).1 = .error e →
    (wrongLength.exchange command).perform card s =
      ⟨.error e, [⟨command, .error e⟩], (card command s).2⟩
  /-- A first answer without room for a status word is incomplete. -/
  short : ∀ raw, (card command s).1 = .ok raw → raw.length < 2 →
    (wrongLength.exchange command).perform card s =
      ⟨.error (.incomplete raw.length), [⟨command, .ok raw⟩], (card command s).2⟩
  /-- An answer with any other status is returned unchanged. -/
  plain : ∀ data sw1 sw2, (card command s).1 = .ok (data ++ [sw1, sw2]) → sw1 ≠ 0x6C →
    (wrongLength.exchange command).perform card s =
      ⟨.ok (data ++ [sw1, sw2]), [⟨command, .ok (data ++ [sw1, sw2])⟩], (card command s).2⟩
  /-- A command that cannot be read is not repeated. -/
  unreadable : ∀ data sw2 e, (card command s).1 = .ok (data ++ [0x6C, sw2]) →
    Command.decode command = .error e →
      (wrongLength.exchange command).perform card s =
        ⟨.error (.context "Failed to rebuild command for wrong length retry" e),
          [⟨command, .ok (data ++ [0x6C, sw2])⟩], (card command s).2⟩
  /-- A command that can be read is repeated in one frame, which reads as that
  command with its expected length corrected, and the second reply counts. On any
  card that corrects it alike and answers that frame alike, the result is the same,
  whatever data came with the correction. -/
  repeated : ∀ data sw2 c, (card command s).1 = .ok (data ++ [0x6C, sw2]) →
    Command.decode command = .ok c →
      let frame := (c.corrected sw2).encode
      Command.decode frame = .ok (c.corrected sw2) ∧
        (wrongLength.exchange command).perform card s =
          ⟨repeatedReply (card frame (card command s).2).1,
            [⟨command, .ok (data ++ [0x6C, sw2])⟩, ⟨frame, (card frame (card command s).2).1⟩],
            (card frame (card command s).2).2⟩ ∧
        ∀ {τ : Type} (card' : Card τ) (s' : τ) (data' : Bytes),
          (card' command s').1 = .ok (data' ++ [0x6C, sw2]) →
          (card' frame (card' command s').2).1 = (card frame (card command s).2).1 →
            ((wrongLength.exchange command).perform card' s').result =
              ((wrongLength.exchange command).perform card s).result

/-- **A refused length is corrected once.** On every card in every state, and for
every command, the layer does what `Corrects` says. -/
theorem corrects (card : Card σ) (s : σ) (command : Bytes) : Corrects card s command where
  failed e hcard := perform_of_done hcard (feed_of_error command e)
  short raw hcard hshort := perform_of_done hcard (feed_of_short command hshort)
  plain data _ sw2 hcard hsw := perform_of_done hcard (feed_of_plain command data sw2 hsw)
  unreadable data sw2 _ hcard hread := perform_of_done hcard (feed_of_unreadable data sw2 hread)
  repeated data sw2 c hcard hread := by
    have hperform := perform_of_readable hcard hread
    refine ⟨decode_encode_corrected hread sw2, hperform, ?_⟩
    intro τ card' s' data' hcard' hsecond
    rw [perform_of_readable hcard' hread, hperform]
    exact congrArg repeatedReply hsecond

/-- A wide command for 500 bytes is corrected to 16. It is repeated in a short frame,
and the second correction is returned as it is, with or without data before the first. -/
theorem corrects_to_short :
    (wrongLength.exchange [0x00, 0xB0, 0x00, 0x00, 0x00, 0x01, 0xF4]).perform Bench.scripted
        [.ok [0xAA, 0x6C, 0x10], .ok [0x6C, 0x08]] =
      ⟨.ok [0x6C, 0x08],
        [⟨[0x00, 0xB0, 0x00, 0x00, 0x00, 0x01, 0xF4], .ok [0xAA, 0x6C, 0x10]⟩,
          ⟨[0x00, 0xB0, 0x00, 0x00, 0x10], .ok [0x6C, 0x08]⟩], []⟩ ∧
    ((wrongLength.exchange [0x00, 0xB0, 0x00, 0x00, 0x00, 0x01, 0xF4]).perform Bench.scripted
        [.ok [0x6C, 0x10], .ok [0x6C, 0x08]]).result = .ok [0x6C, 0x08] := by
  have hcorrects := corrects Bench.scripted [.ok [0xAA, 0x6C, 0x10], .ok [0x6C, 0x08]]
    [0x00, 0xB0, 0x00, 0x00, 0x00, 0x01, 0xF4]
  obtain ⟨-, hperform, hblind⟩ := hcorrects.repeated [0xAA] 0x10
    { cla := 0x00, ins := 0xB0, p1 := 0x00, p2 := 0x00, le := some 500 } rfl (by decide)
  refine ⟨hperform, ?_⟩
  rw [hblind Bench.scripted [.ok [0x6C, 0x10], .ok [0x6C, 0x08]] [] rfl rfl, hperform]
  rfl

end Layer

end SmartCard
