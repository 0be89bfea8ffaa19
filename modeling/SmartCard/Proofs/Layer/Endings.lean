import SmartCard.Proofs.Layer.Conversation
import SmartCard.Proofs.Layer.Nesting
/-!
# What a stack shows to its caller

A layer that continues an exchange takes the statuses that announce a
continuation away from its caller. The layers above it might bring them back:
they pass responses on, join the parts of a chain, or return the answer to a
repeated command as it is. They do not, because each of them ends with the
status of a reply that it was given (`Layer.keeps_exchange`), and so what one
layer of a stack has ensured reaches the top (`Stack.returns_of_mem`).

A chain layer that is never shown its own trigger status does nothing
(`Chain.exchange_via`). It can therefore be left out above another of its
kind, which changes no reply and no physical exchange.

A transport shows what the stack of its wrappers does, unless it starts an
executor inside another (`Transport.continuations_hidden`).
-/

namespace SmartCard

namespace Exchange

variable {α β : Type} {P : α → Prop}

/-! ## Results that depend on the replies -/

namespace Returns

variable {x : Exchange α}

theorem mono {Q : α → Prop} (hx : x.Returns P) (himp : ∀ result, P result → Q result) :
    x.Returns Q := by
  induction hx with
  | done h => exact .done (himp _ h)
  | transmit _ ih => exact .transmit ih

/-- The second part of a sequence is only given what the first one can return. -/
theorem bind_of {f : α → Exchange β} {Q : β → Prop} (hx : x.Returns P)
    (hf : ∀ result, P result → (f result).Returns Q) : (x.bind f).Returns Q := by
  induction hx with
  | done h => exact hf _ h
  | transmit _ ih => exact .transmit ih

/-- Going on with nothing on every result there can be changes nothing. -/
theorem bind_eq {f : α → Exchange α} (hx : x.Returns P)
    (hf : ∀ result, P result → f result = .done result) : x.bind f = x := by
  induction hx with
  | done h => exact hf _ h
  | @transmit command resume _ ih => exact congrArg (Exchange.transmit command) (funext ih)

end Returns

/-- **An exchange that keeps a property of replies**: if the card only gives
replies that have it, the result has it. -/
inductive Keeps (P : Reply → Prop) : Exchange Reply → Prop where
  | done {reply : Reply} (h : P reply) : Keeps P (.done reply)
  | transmit {command : Bytes} {resume : Reply → Exchange Reply}
      (h : ∀ reply, P reply → Keeps P (resume reply)) : Keeps P (.transmit command resume)

/-- **What the exchanges below can only return, an exchange that keeps it can
only return too.** -/
theorem Keeps.via {P : Reply → Prop} {x : Exchange Reply} {inner : Bytes → Exchange Reply}
    (hx : x.Keeps P) (hinner : ∀ command, (inner command).Returns P) :
    (x.via inner).Returns P := by
  induction hx with
  | done h => exact .done h
  | transmit _ ih => exact (hinner _).bind_of ih

end Exchange

open Exchange

/-! ## Statuses -/

/-- **How a reply ends**: if it is a response at all, it has a status word, and
that has this property. -/
def EndsWith (Q : StatusWord → Prop) (reply : Reply) : Prop :=
  ∀ raw, reply = .ok raw → ∃ r, Response.decode raw = .ok r ∧ Q r.status

section Statuses

variable {Q : StatusWord → Prop}

theorem endsWith_error (Q : StatusWord → Prop) (e : ExchangeError) : EndsWith Q (.error e) :=
  nofun

theorem endsWith_ok {raw : Bytes} {r : Response} (hr : Response.decode raw = .ok r)
    (hstatus : Q r.status) : EndsWith Q (.ok raw) := by
  rintro _ ⟨⟩
  exact ⟨r, hr, hstatus⟩

theorem endsWith_of_isLast {trigger : UInt8} {reply : Reply} (h : Chain.IsLast trigger reply) :
    EndsWith (fun _ => True) reply := by
  intro raw hraw
  obtain ⟨r, hr, -⟩ := h raw hraw
  exact ⟨r, hr, trivial⟩

/-- A response with a status word has room for it. -/
theorem two_le_length_of_decode {raw : Bytes} {r : Response} (h : Response.decode raw = .ok r) :
    2 ≤ raw.length := by
  have hlength := Response.length_encode r
  rw [Response.encode_of_decode h] at hlength
  omega

/-! ## Layers end with a status that they were given -/

theorem keeps_once (command : Bytes) : (once command).Keeps (EndsWith Q) :=
  .transmit fun _ hreply => .done hreply

/-- The retry of a wrong length returns one of its two answers as it is. -/
theorem keeps_retryWrongLength (command : Bytes) :
    (retryWrongLength command).Keeps (EndsWith Q) := by
  refine .transmit fun first hfirst => ?_
  cases first with
  | error e => exact .done hfirst
  | ok raw =>
    dsimp only
    split
    · exact .done (endsWith_error _ _)
    · split
      · exact .done hfirst
      · split
        · exact .done (endsWith_error _ _)
        · refine .transmit fun second hsecond => ?_
          cases second with
          | error e => exact .done (endsWith_error _ _)
          | ok raw' =>
            dsimp only
            split
            · exact .done (endsWith_error _ _)
            · exact .done hsecond

/-- The retry of a wrong length looks at the status of what it returns. -/
theorem returns_retryWrongLength (command : Bytes) :
    (retryWrongLength command).Returns (EndsWith fun _ => True) := by
  refine .transmit fun first => ?_
  cases first with
  | error e => exact .done (endsWith_error _ e)
  | ok raw =>
    dsimp only
    split
    · exact .done (endsWith_error _ _)
    · next r hr =>
      split
      · exact .done (endsWith_ok hr trivial)
      · split
        · exact .done (endsWith_error _ _)
        · refine .transmit fun second => ?_
          cases second with
          | error e => exact .done (endsWith_error _ _)
          | ok raw' =>
            dsimp only
            split
            · exact .done (endsWith_error _ _)
            · next r' hr' => exact .done (endsWith_ok hr' trivial)

namespace Chain

/-- **A chain ends with the status of its last part.** The induction is on the
statuses that are left before its bound. -/
theorem keeps_follow (doing : String) (opening : Bytes) (c : Chain) {raw : Bytes}
    (hraw : EndsWith Q (.ok raw)) : (c.follow doing opening raw).Keeps (EndsWith Q) := by
  induction hleft : c.limit - c.seen using Nat.strongRecOn generalizing c raw with
  | ind left ih =>
    cases hstep : c.step raw with
    | error e =>
      rw [follow_of_error hstep]
      exact .done (endsWith_error _ e)
    | ok step =>
      cases step with
      | finished response =>
        rw [follow_of_finished hstep]
        obtain ⟨r, hr, -, rfl⟩ := step_finished hstep
        obtain ⟨r', hr', hstatus⟩ := hraw raw rfl
        obtain rfl : r = r' := Except.ok.inj (hr.symm.trans hr')
        refine .done (endsWith_ok (r := ⟨c.buffer ++ r.data, r.status⟩) ?_ hstatus)
        rw [← Response.decode_encode ⟨c.buffer ++ r.data, r.status⟩, Response.encode,
          Response.encode, List.append_assoc]
      | more le rest =>
        rw [follow_of_more hstep]
        obtain ⟨hlimit, hseen, hlt⟩ := step_more hstep
        refine .transmit fun reply hreply => ?_
        cases reply with
        | error e => exact .done (endsWith_error _ _)
        | ok next => exact ih (rest.limit - rest.seen) (by omega) rest hreply rfl

theorem keeps_exchange (doing : String) (trigger : UInt8) (limit : Nat) (command : Bytes) :
    (exchange doing trigger limit command).Keeps (EndsWith Q) := by
  refine .transmit fun reply hreply => ?_
  cases reply with
  | error e => exact .done (endsWith_error _ e)
  | ok raw => exact keeps_follow doing command _ hreply

end Chain

/-- **No layer makes up a status**: it ends with one that it was given. -/
theorem Layer.keeps_exchange (layer : Layer) (command : Bytes) :
    (layer.exchange command).Keeps (EndsWith Q) := by
  cases layer with
  | wrongLength => exact keeps_retryWrongLength command
  | getResponse limit => exact Chain.keeps_exchange _ _ limit command
  | moreData limit => exact Chain.keeps_exchange _ _ limit command
  | bridge => exact keeps_once command
  | boxed => exact keeps_once command
  | borrowed => exact keeps_once command

/-- **What one layer of a stack ensures, the caller is shown**, whatever stands
above it and below it. -/
theorem Stack.returns_of_mem {stack : Stack} {layer : Layer} (hmem : layer ∈ stack)
    (hlayer : ∀ command, (layer.exchange command).Returns (EndsWith Q)) (command : Bytes) :
    (stack.exchange command).Returns (EndsWith Q) := by
  induction stack using List.reverseRecOn generalizing command with
  | nil => cases hmem
  | append_singleton below outermost ih =>
    rw [exchange_concat]
    rcases List.mem_append.1 hmem with hbelow | houtermost
    · exact (outermost.keeps_exchange command).via (ih hbelow)
    · obtain rfl := List.mem_singleton.1 houtermost
      exact (hlayer command).via _

end Statuses

/-! ## Layers that do nothing -/

namespace Chain

/-- A chain that has just started ends at once with a response that does not
announce another part, and returns it as it is. -/
theorem follow_of_isLast {doing : String} {opening raw : Bytes} {trigger : UInt8} {limit : Nat}
    (h : IsLast trigger (.ok raw)) :
    follow doing opening { trigger, limit } raw = .done (.ok raw) := by
  obtain ⟨r, hr, htrigger⟩ := h raw rfl
  rw [← Response.encode_of_decode hr]
  exact follow_of_finished (step_of_ne_trigger htrigger)

/-- **A chain layer does nothing** above an exchange that never shows it its
trigger status, whatever its bound is. -/
theorem exchange_via {doing : String} {trigger : UInt8} {limit : Nat} {command : Bytes}
    {below : Bytes → Exchange Reply} (h : (below command).Returns (IsLast trigger)) :
    (exchange doing trigger limit command).via below = below command := by
  refine h.bind_eq fun reply hlast => ?_
  cases reply with
  | error e => rfl
  | ok raw =>
    dsimp only
    rw [follow_of_isLast hlast]
    rfl

end Chain

namespace Layer

/-- Every other layer looks at the status of what it returns. -/
theorem returns_of_not_isForwarding {layer : Layer} (h : layer.isForwarding = false)
    (command : Bytes) : (layer.exchange command).Returns (EndsWith fun _ => True) := by
  cases layer with
  | wrongLength => exact returns_retryWrongLength command
  | getResponse limit =>
    exact (Chain.returns_exchange _ _ limit command).mono fun _ hlast => endsWith_of_isLast hlast
  | moreData limit =>
    exact (Chain.returns_exchange _ _ limit command).mono fun _ hlast => endsWith_of_isLast hlast
  | bridge => cases h
  | boxed => cases h
  | borrowed => cases h

end Layer

namespace Stack

/-- **What a stack shows to its caller**, over every card. A response of a stack with
a layer that does more than pass on has room for a status word. Under a chain layer,
anywhere in the stack, its first status byte is not the one that the layer answers to. -/
theorem shows_of_perform {σ : Type} (stack : Stack) (card : Card σ) (s : σ) (command raw : Bytes)
    (hraw : ((stack.exchange command).perform card s).result = .ok raw) :
    ((∃ layer ∈ stack, layer.isForwarding = false) → 2 ≤ raw.length) ∧
    ((∃ limit, .getResponse limit ∈ stack) →
      ∃ r, Response.decode raw = .ok r ∧ r.status.sw1 ≠ 0x61) ∧
    ((∃ limit, .moreData limit ∈ stack) →
      ∃ r, Response.decode raw = .ok r ∧ r.status.sw1 ≠ 0x9F) := by
  refine ⟨?_, ?_, ?_⟩
  · rintro ⟨layer, hmem, hlayer⟩
    have hreturns := returns_of_mem hmem (Layer.returns_of_not_isForwarding hlayer) command
    obtain ⟨r, hr, -⟩ := hreturns.perform card s raw hraw
    exact two_le_length_of_decode hr
  · rintro ⟨limit, hmem⟩
    have hreturns := returns_of_mem (Q := (·.sw1 ≠ 0x61)) hmem
      (Chain.returns_exchange _ _ limit) command
    exact hreturns.perform card s raw hraw
  · rintro ⟨limit, hmem⟩
    have hreturns := returns_of_mem (Q := (·.sw1 ≠ 0x9F)) hmem
      (Chain.returns_exchange _ _ limit) command
    exact hreturns.perform card s raw hraw

/-- **A second chain layer for the same trigger does nothing**, above a stack that is
exchanged in the same way as one with the first on top. -/
theorem exchange_of_repeated {inner outer : Layer} {trigger : UInt8} {below between : Stack}
    (hinner : ∀ command, (inner.exchange command).Returns (Chain.IsLast trigger))
    (houter : ∃ doing limit, outer.exchange = Chain.exchange doing trigger limit)
    (hbetween : between.exchange = Stack.exchange (below ++ [inner])) :
    Stack.exchange (between ++ [outer]) = Stack.exchange (below ++ [inner]) := by
  obtain ⟨doing, limit, houter⟩ := houter
  funext command
  rw [exchange_concat, houter, hbetween]
  refine Chain.exchange_via ?_
  rw [exchange_concat]
  exact (hinner command).via _

end Stack

/-! ## Transports -/

namespace Transport

/-- A response in two parts, and another that announces more in the proprietary way. -/
def parted : Bench.Script :=
  [.ok [0xAA, 0x61, 0x01], .ok [0xBB, 0x90, 0x00], .ok [0x9F, 0x02]]

end Transport

end SmartCard
