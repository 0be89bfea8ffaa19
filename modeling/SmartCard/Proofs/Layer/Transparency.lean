import SmartCard.Exchange.Awaited
import SmartCard.Proofs.Layer.Endings
/-!
# Stacks are transparent to plain answers

A layer acts on one status only. An answer with another status it takes apart
and puts together again, and an error of the first exchange it reports as it
is. In both cases it is done after one transmission (`Settles`), and so is a
stack of such layers (`Stack.settles`): one that is not needed cannot be noticed.

What passes everything on cannot be noticed at all, as long as it does not start
an executor inside another (`Transport.Inserts.call_eq`), and waiting for an
exchange over an inline card is the exchange itself (`Future.poll_inline`).
-/

namespace SmartCard

namespace Exchange

variable {σ : Type} {command : Bytes} {reply : Reply} {x : Exchange Reply}

/-- **The first reply settles the exchange**: it opens with this command, and
this reply to it is its result. -/
def Settles (command : Bytes) (reply : Reply) (x : Exchange Reply) : Prop :=
  ∃ resume, x = .transmit command resume ∧ resume reply = .done reply

namespace Settles

/-- An exchange that a reply settles, over one that it settles. -/
theorem via {inner : Bytes → Exchange Reply} (hx : x.Settles command reply)
    (hinner : (inner command).Settles command reply) : (x.via inner).Settles command reply := by
  obtain ⟨resume, rfl, hresume⟩ := hx
  obtain ⟨below, hbelow, hreply⟩ := hinner
  refine ⟨fun reply => (below reply).bind fun reply => (resume reply).via inner, ?_, ?_⟩
  · rw [Exchange.via, hbelow]
    rfl
  · dsimp only
    rw [hreply, Exchange.bind, hresume]
    rfl

/-- On a card that gives this reply, nothing else happens. -/
theorem perform_eq (hx : x.Settles command reply) {card : Card σ} {s : σ}
    (hcard : (card command s).1 = reply) :
    x.perform card s = ⟨reply, [⟨command, reply⟩], (card command s).2⟩ := by
  obtain ⟨resume, rfl, hresume⟩ := hx
  rw [perform, hcard, hresume]
  rfl

end Settles

end Exchange

open Exchange

/-! ## Layers with nothing to do -/

/-- A response with another status ends a chain that has just started. -/
theorem Chain.isLast_encode {trigger : UInt8} {r : Response} (h : r.status.sw1 ≠ trigger) :
    IsLast trigger (.ok r.encode) := by
  rintro _ ⟨⟩
  exact ⟨r, Response.decode_encode r, h⟩

namespace Layer

/-- The first status byte that a layer acts on. -/
def trigger? : Layer → Option UInt8
  | .wrongLength => some 0x6C
  | .getResponse _ => some 0x61
  | .moreData _ => some 0x9F
  | .bridge | .boxed | .borrowed => none

/-- A first exchange that fails settles a layer. -/
theorem settles_error (layer : Layer) (command : Bytes) (e : ExchangeError) :
    (layer.exchange command).Settles command (.error e) := by
  cases layer <;> exact ⟨_, rfl, rfl⟩

/-- A first answer that the layer does not act on settles it. -/
theorem settles_plain {layer : Layer} {r : Response} (h : layer.trigger? ≠ some r.status.sw1)
    (command : Bytes) : (layer.exchange command).Settles command (.ok r.encode) := by
  cases layer with
  | wrongLength =>
    have hsw : r.status.sw1 ≠ StatusWord.wrongLeSw1 := fun heq => h (congrArg some heq.symm)
    refine ⟨_, rfl, ?_⟩
    dsimp only
    rw [Response.decode_encode]
    dsimp only
    rw [if_pos hsw]
  | getResponse limit =>
    have hsw : r.status.sw1 ≠ 0x61 := fun heq => h (congrArg some heq.symm)
    exact ⟨_, rfl, Chain.follow_of_isLast (Chain.isLast_encode hsw)⟩
  | moreData limit =>
    have hsw : r.status.sw1 ≠ 0x9F := fun heq => h (congrArg some heq.symm)
    exact ⟨_, rfl, Chain.follow_of_isLast (Chain.isLast_encode hsw)⟩
  | bridge => exact ⟨_, rfl, rfl⟩
  | boxed => exact ⟨_, rfl, rfl⟩
  | borrowed => exact ⟨_, rfl, rfl⟩

end Layer

/-! ## Stacks with nothing to do -/

namespace Stack

/-- **A reply that settles every layer settles the stack.** -/
theorem settles {stack : Stack} {reply : Reply}
    (h : ∀ layer ∈ stack, ∀ command, (layer.exchange command).Settles command reply)
    (command : Bytes) : (stack.exchange command).Settles command reply := by
  induction stack using List.reverseRecOn generalizing command with
  | nil => exact ⟨_, rfl, rfl⟩
  | append_singleton below outermost ih =>
    rw [exchange_concat]
    refine Settles.via (h outermost (by simp) command) (ih (fun layer hmem => ?_) command)
    exact h layer (List.mem_append_left _ hmem)

end Stack

/-! ## Transports with nothing to do -/

namespace Transport

/-- Every wrapper that continues an exchange, two of them with the lowest bounds. -/
def watchful : Transport .blocking :=
  (card.inline.moreData 1).waiting.wrongLength.getResponse 0

end Transport

end SmartCard
