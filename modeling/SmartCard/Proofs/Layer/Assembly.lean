import SmartCard.Exchange.Awaited
import SmartCard.Proofs.Layer.Conversation
/-!
# A chain layer assembles what the card answers

`Answers` follows a card through a chain without any layer: to the command and
then to what fetches each further part, it has answered with parts that announce
another one. A chain layer keeps to that (`perform_of_answers`): after the same
parts it sends the same command next, with the data of the parts kept. What it
does with the reply to that command is decided by the reply alone, and so is
where it stops.
-/

namespace SmartCard

open Exchange

/-- The exchange with other physical exchanges in front. -/
def Exchange.Performance.behind {α σ : Type} (p : Performance α σ) (earlier : List Physical) :
    Performance α σ :=
  { p with physical := earlier ++ p.physical }

namespace Chain

variable {σ : Type} {card : Card σ} {trigger : UInt8} {opening command : Bytes} {s s₁ : σ}
variable {parts : List Response} {done : List Physical} {limit : Nat} {doing : String}

/-! ## The answers of a card -/

/-- **The card has answered with these parts so far**, in these exchanges: to the
command of the chain, and to what fetched each further part. Each part announces
another one, with which `command` is to come next, and the card stands at `s₁`. -/
inductive Answers (card : Card σ) (trigger : UInt8) (opening : Bytes) (s : σ) :
    List Response → List Physical → Bytes → σ → Prop where
  | start : Answers card trigger opening s [] [] opening s
  | part {parts : List Response} {done : List Physical} {command : Bytes} {s₁ s₂ : σ}
      {r : Response} (h : Answers card trigger opening s parts done command s₁)
      (hcard : card command s₁ = (.ok r.encode, s₂)) (hsw : r.status.sw1 = trigger) :
      Answers card trigger opening s (parts ++ [r]) (done ++ [⟨command, .ok r.encode⟩])
        (getResponse opening r.status.sw2) s₂

/-- Nothing is sent but the command of the chain and what fetches each part. -/
theorem Answers.commands (h : Answers card trigger opening s parts done command s₁) :
    done.map Physical.command ++ [command] =
      opening :: parts.map fun r => getResponse opening r.status.sw2 := by
  induction h with
  | start => rfl
  | @part parts done command s₁ s₂ r _ _ _ ih =>
    rw [List.map_append, List.map_singleton, ih, List.map_append]
    rfl

/-- There is one exchange for each part. -/
theorem Answers.length_eq (h : Answers card trigger opening s parts done command s₁) :
    done.length = parts.length := by
  induction h with
  | start => rfl
  | part _ _ _ ih =>
    rw [List.length_append, List.length_append, ih, List.length_singleton, List.length_singleton]

/-- **The reply ends a chain**: a response that announces nothing, one without room
for a status word, or none. -/
inductive Ends (trigger : UInt8) : Reply → Prop where
  | last {r : Response} (hsw : r.status.sw1 ≠ trigger) : Ends trigger (.ok r.encode)
  | short {raw : Bytes} (h : raw.length < 2) : Ends trigger (.ok raw)
  | error (e : ExchangeError) : Ends trigger (.error e)

/-- A reply that does not end a chain announces another part. -/
theorem announces_or_ends (trigger : UInt8) (reply : Reply) :
    (∃ r : Response, reply = .ok r.encode ∧ r.status.sw1 = trigger) ∨ Ends trigger reply := by
  cases reply with
  | error e => exact .inr (.error e)
  | ok raw =>
    rcases Nat.lt_or_ge raw.length 2 with hshort | hroom
    · exact .inr (.short hshort)
    · obtain ⟨r, rfl⟩ := Response.exists_eq_encode hroom
      by_cases hsw : r.status.sw1 = trigger
      · exact .inl ⟨r, rfl, hsw⟩
      · exact .inr (.last hsw)

/-- A card answers with so many parts, or ends the chain before that. -/
theorem exists_answers (card : Card σ) (trigger : UInt8) (opening : Bytes) (s : σ) (n : Nat) :
    ∃ parts done command s₁, Answers card trigger opening s parts done command s₁ ∧
      (parts.length = n ∨ parts.length < n ∧ Ends trigger (card command s₁).1) := by
  induction n with
  | zero => exact ⟨[], [], opening, s, .start, .inl rfl⟩
  | succ n ih =>
    obtain ⟨parts, done, command, s₁, h, hlength | ⟨hlt, hends⟩⟩ := ih
    · rcases announces_or_ends trigger (card command s₁).1 with ⟨r, hcard, hsw⟩ | hends
      · refine ⟨_, _, _, _, h.part (Prod.ext hcard rfl) hsw, .inl ?_⟩
        rw [List.length_append, hlength, List.length_singleton]
      · exact ⟨parts, done, command, s₁, h, .inr ⟨by omega, hends⟩⟩
    · exact ⟨parts, done, command, s₁, h, .inr ⟨by omega, hends⟩⟩

/-! ## The layer after these answers -/

/-- **What the layer does with the reply that comes after these parts.** -/
def proceed (doing : String) (trigger : UInt8) (limit : Nat) (opening : Bytes)
    (parts : List Response) : Reply → Exchange Reply
  | .error e => .done (.error (if parts = [] then e else e.withContext doing))
  | .ok raw => follow doing opening (after trigger limit parts) raw

theorem exchange_eq (doing : String) (trigger : UInt8) (limit : Nat) (opening : Bytes) :
    exchange doing trigger limit opening =
      .transmit opening (proceed doing trigger limit opening []) := by
  refine congrArg (Exchange.transmit opening) (funext fun reply => ?_)
  cases reply <;> rfl

/-- A part that announces another one is kept, and the next one is fetched. -/
theorem proceed_part {r : Response} (hsw : r.status.sw1 = trigger)
    (hlt : parts.length + 1 < limit) :
    proceed doing trigger limit opening parts (.ok r.encode) =
      .transmit (getResponse opening r.status.sw2)
        (proceed doing trigger limit opening (parts ++ [r])) := by
  have hstep := step_of_trigger (c := after trigger limit parts) hsw hlt
  rw [after_concat] at hstep
  rw [proceed, follow_of_more hstep, continuation_announced]
  refine congrArg (Exchange.transmit _) (funext fun reply => ?_)
  cases reply with
  | error e => simp [proceed]
  | ok raw => rfl

/-- **The layer has done what the answers show**, and goes on from there. The
induction is on the answers, and each of them leaves room for the next before the
bound. -/
theorem perform_of_answers (h : Answers card trigger opening s parts done command s₁)
    (hlt : parts.length < max 1 limit) :
    (exchange doing trigger limit opening).perform card s =
      ((Exchange.transmit command (proceed doing trigger limit opening parts)).perform
        card s₁).behind done := by
  induction h with
  | start =>
    rw [exchange_eq]
    rfl
  | @part parts done command s₁ s₂ r _ hcard hsw ih =>
    rw [List.length_append, List.length_singleton] at hlt
    rw [ih (by omega), perform, hcard]
    dsimp only
    rw [proceed_part hsw (by omega)]
    simp only [Performance.behind, Performance.after, List.append_assoc, List.singleton_append]

/-- A reply that ends the chain is the last one. -/
theorem perform_of_done (h : Answers card trigger opening s parts done command s₁)
    (hlt : parts.length < max 1 limit) {reply result : Reply}
    (hcard : (card command s₁).1 = reply)
    (hdone : proceed doing trigger limit opening parts reply = .done result) :
    (exchange doing trigger limit opening).perform card s =
      ⟨result, done ++ [⟨command, reply⟩], (card command s₁).2⟩ := by
  rw [perform_of_answers h hlt, perform, hcard, hdone]
  rfl

/-- **A response that announces nothing completes the chain**: the data of all
parts and its own, and its status. -/
theorem perform_of_last (h : Answers card trigger opening s parts done command s₁)
    (hlt : parts.length < max 1 limit) {r : Response}
    (hcard : (card command s₁).1 = .ok r.encode) (hsw : r.status.sw1 ≠ trigger) :
    (exchange doing trigger limit opening).perform card s =
      ⟨.ok (parts.flatMap Response.data ++ r.data ++ r.status.bytes),
        done ++ [⟨command, .ok r.encode⟩], (card command s₁).2⟩ := by
  refine perform_of_done h hlt hcard ?_
  have hstep := step_of_ne_trigger (c := after trigger limit parts) hsw
  rw [proceed, follow_of_finished hstep, Response.encode, ← List.append_assoc]
  rfl

/-- A response without room for a status word ends the chain, under no context. -/
theorem perform_of_short (h : Answers card trigger opening s parts done command s₁)
    (hlt : parts.length < max 1 limit) {raw : Bytes} (hcard : (card command s₁).1 = .ok raw)
    (hshort : raw.length < 2) :
    (exchange doing trigger limit opening).perform card s =
      ⟨.error (.incomplete raw.length), done ++ [⟨command, .ok raw⟩], (card command s₁).2⟩ :=
  perform_of_done h hlt hcard (follow_of_error (step_of_short hshort))

/-- A failed exchange ends the chain, under a context unless it is the first. -/
theorem perform_of_error (h : Answers card trigger opening s parts done command s₁)
    (hlt : parts.length < max 1 limit) {e : ExchangeError}
    (hcard : (card command s₁).1 = .error e) :
    (exchange doing trigger limit opening).perform card s =
      ⟨.error (if parts = [] then e else e.withContext doing), done ++ [⟨command, .error e⟩],
        (card command s₁).2⟩ :=
  perform_of_done h hlt hcard rfl

/-- **The chain is given up after so many parts**, and nothing more is sent. -/
theorem perform_of_limit (h : Answers card trigger opening s parts done command s₁)
    (hlength : parts.length = max 1 limit) :
    (exchange doing trigger limit opening).perform card s =
      ⟨.error (.chainLimit limit), done, s₁⟩ := by
  cases h with
  | start =>
    rw [List.length_nil] at hlength
    omega
  | @part parts done command s₁ s₂ r h hcard hsw =>
    rw [List.length_append, List.length_singleton] at hlength
    have hstep : (after trigger limit parts).step r.encode = .error (.chainLimit limit) :=
      step_of_limit hsw (by simp only [after]; omega)
    rw [perform_of_done h (by omega) (congrArg Prod.fst hcard) (follow_of_error hstep), hcard]

end Chain

/-! ## Layers that assemble -/

namespace Layer

/-- **The layers that follow a chain**, each with the status that announces another
part, and with what an error of a later exchange is reported under. -/
inductive Collects (limit : Nat) : Layer → UInt8 → String → Prop where
  | getResponse : Collects limit (.getResponse limit) 0x61
      "Failed to transmit GET RESPONSE command"
  | moreData : Collects limit (.moreData limit) 0x9F "Failed to submit continuation command"

theorem Collects.exchange_eq {limit : Nat} {layer : Layer} {trigger : UInt8} {doing : String}
    (h : Collects limit layer trigger doing) :
    layer.exchange = Chain.exchange doing trigger limit := by
  cases h <;> rfl

/-- **A chain layer assembles exactly what the card answers.** Every card answers
with parts that announce another one, until their number reaches the bound (at
least one) or a reply ends the chain. In the first case the chain is given up for
its bound. In the second, a response that announces nothing completes it, with the
data of all parts in order and the last status; one without room for a status word
fails it under no context, and so does a failed exchange, under one context unless
it is the first. There is one physical exchange for each of these answers:
the command, and what fetches each part with the length that the part before it
names. The layer is done at the first poll if its exchange is waited for over the
card run inline. -/
theorem assembles {limit : Nat} {layer : Layer} {trigger : UInt8} {doing : String}
    (hlayer : Collects limit layer trigger doing) {σ : Type} (card : Card σ) (s : σ)
    (opening : Bytes) :
    (∃ parts done command s₁, Chain.Answers card trigger opening s parts done command s₁ ∧
      (parts.length = max 1 limit ∨
        parts.length < max 1 limit ∧ Chain.Ends trigger (card command s₁).1)) ∧
    (∀ parts done command s₁, Chain.Answers card trigger opening s parts done command s₁ →
      done.length = parts.length ∧
      done.map Physical.command ++ [command] =
        opening :: parts.map (fun r => [opening.headD 0, 0xC0, 0x00, 0x00, r.status.sw2]) ∧
      (parts.length = max 1 limit →
        (layer.exchange opening).perform card s = ⟨.error (.chainLimit limit), done, s₁⟩) ∧
      (parts.length < max 1 limit →
        (∀ r : Response, (card command s₁).1 = .ok r.encode → r.status.sw1 ≠ trigger →
          (layer.exchange opening).perform card s =
            ⟨.ok (parts.flatMap Response.data ++ r.data ++ r.status.bytes),
              done ++ [⟨command, .ok r.encode⟩], (card command s₁).2⟩ ∧
          Response.decode (parts.flatMap Response.data ++ r.data ++ r.status.bytes) =
            .ok ⟨parts.flatMap Response.data ++ r.data, r.status⟩) ∧
        (∀ raw, (card command s₁).1 = .ok raw → raw.length < 2 →
          (layer.exchange opening).perform card s =
            ⟨.error (.incomplete raw.length), done ++ [⟨command, .ok raw⟩],
              (card command s₁).2⟩) ∧
        (∀ e, (card command s₁).1 = .error e →
          (layer.exchange opening).perform card s =
            ⟨.error (if parts = [] then e else e.withContext doing),
              done ++ [⟨command, .error e⟩], (card command s₁).2⟩))) ∧
    (Future.ready (layer.exchange opening)).poll (.inline card) (none, s) =
      (.inl ((layer.exchange opening).perform card s).result,
        (none, ((layer.exchange opening).perform card s).card)) := by
  rw [hlayer.exchange_eq]
  refine ⟨Chain.exists_answers card trigger opening s _, fun parts done command s₁ h => ?_,
    Future.poll_inline card _ s⟩
  refine ⟨h.length_eq, h.commands, Chain.perform_of_limit h, fun hlt => ⟨?_, ?_, ?_⟩⟩
  · intro r hcard hsw
    refine ⟨Chain.perform_of_last h hlt hcard hsw, ?_⟩
    exact Response.decode_encode ⟨parts.flatMap Response.data ++ r.data, r.status⟩
  · intro raw hcard hshort
    exact Chain.perform_of_short h hlt hcard hshort
  · intro e hcard
    exact Chain.perform_of_error h hlt hcard

/-- Two parts, and then a warning. -/
def partedTwice : Bench.Script :=
  [.ok [0xAA, 0x61, 0x00], .ok [0xBB, 0x61, 0x02], .ok [0xCC, 0x62, 0x83]]

/-- A part, and then the card is gone. -/
def cutShort : Bench.Script := [.ok [0xAA, 0x9F, 0x01]]

/-- With room for three parts all data come out, and with room for two the chain is
given up at the second. A failure after a part is reported under a context. -/
theorem assembles_partedTwice :
    ((Layer.getResponse 3).exchange [0x84, 0xCA]).perform Bench.scripted partedTwice =
      ⟨.ok [0xAA, 0xBB, 0xCC, 0x62, 0x83],
        [⟨[0x84, 0xCA], .ok [0xAA, 0x61, 0x00]⟩,
          ⟨[0x84, 0xC0, 0x00, 0x00, 0x00], .ok [0xBB, 0x61, 0x02]⟩,
          ⟨[0x84, 0xC0, 0x00, 0x00, 0x02], .ok [0xCC, 0x62, 0x83]⟩], []⟩ ∧
    ((Layer.getResponse 2).exchange [0x84, 0xCA]).perform Bench.scripted partedTwice =
      ⟨.error (.chainLimit 2),
        [⟨[0x84, 0xCA], .ok [0xAA, 0x61, 0x00]⟩,
          ⟨[0x84, 0xC0, 0x00, 0x00, 0x00], .ok [0xBB, 0x61, 0x02]⟩], [.ok [0xCC, 0x62, 0x83]]⟩ ∧
    ((Layer.moreData 2).exchange []).perform Bench.scripted cutShort =
      ⟨.error (.context "Failed to submit continuation command" (.transport .transmission)),
        [⟨[], .ok [0xAA, 0x9F, 0x01]⟩,
          ⟨[0x00, 0xC0, 0x00, 0x00, 0x01], .error (.transport .transmission)⟩], []⟩ := by
  have hcollects : ∀ limit, Collects limit (.getResponse limit) 0x61
      "Failed to transmit GET RESPONSE command" := fun limit => .getResponse
  have hfirst : Chain.Answers Bench.scripted 0x61 [0x84, 0xCA] partedTwice
      ([] ++ [⟨[0xAA], ⟨0x61, 0x00⟩⟩]) _ _ _ := .part .start rfl rfl
  have hsecond := hfirst.part (r := ⟨[0xBB], ⟨0x61, 0x02⟩⟩) rfl rfl
  have hcut : Chain.Answers Bench.scripted 0x9F [] cutShort
      ([] ++ [⟨[0xAA], ⟨0x9F, 0x01⟩⟩]) _ _ _ := .part .start rfl rfl
  have hthree := assembles (hcollects 3) Bench.scripted partedTwice [0x84, 0xCA]
  have htwo := assembles (hcollects 2) Bench.scripted partedTwice [0x84, 0xCA]
  have hmore := assembles (Collects.moreData : Collects 2 _ _ _) Bench.scripted cutShort []
  obtain ⟨-, -, -, hroom⟩ := hthree.2.1 _ _ _ _ hsecond
  obtain ⟨-, -, hbound, -⟩ := htwo.2.1 _ _ _ _ hsecond
  obtain ⟨-, -, -, hfails⟩ := hmore.2.1 _ _ _ _ hcut
  obtain ⟨hlast, -, -⟩ := hroom (by decide)
  obtain ⟨-, -, hfailed⟩ := hfails (by decide)
  exact ⟨(hlast ⟨[0xCC], ⟨0x62, 0x83⟩⟩ rfl (by decide)).1, hbound rfl, hfailed _ rfl⟩

end Layer

end SmartCard
