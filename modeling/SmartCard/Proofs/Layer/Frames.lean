import SmartCard.Proofs.Layer.Conversation
/-!
# The frames that reach a card

Only the caller can send a frame that is not well formed. All others come from
the layers, which either fetch a part of a chain or repeat a command that they
could read, and a layer does so with whatever the layer above it sends. So the
property of the frames has to be one that passes from the command a layer is
given to those that it makes of it: `Admits` says which properties do, together
with a property of replies that layers keep. `Stack.sends` carries both through
a stack.
-/

namespace SmartCard

namespace Exchange

variable {σ : Type} {P : Bytes → Prop} {Q : Reply → Prop} {x : Exchange Reply}

/-- **What an exchange sends, and what it makes of the replies**: as long as the
replies have the property `Q`, its commands have `P`, and its result has `Q`. -/
inductive Sends (P : Bytes → Prop) (Q : Reply → Prop) : Exchange Reply → Prop where
  | done {reply : Reply} (h : Q reply) : Sends P Q (.done reply)
  | transmit {command : Bytes} {resume : Reply → Exchange Reply} (hcommand : P command)
      (hresume : ∀ reply, Q reply → Sends P Q (resume reply)) :
      Sends P Q (.transmit command resume)

namespace Sends

theorem bind {f : Reply → Exchange Reply} (hx : x.Sends P Q)
    (hf : ∀ reply, Q reply → (f reply).Sends P Q) : (x.bind f).Sends P Q := by
  induction hx with
  | done h => exact hf _ h
  | transmit hcommand _ ih => exact .transmit hcommand ih

/-- **An exchange over another one** that is only given the commands of the first. -/
theorem via {inner : Bytes → Exchange Reply} (hx : x.Sends P Q)
    (hinner : ∀ command, P command → (inner command).Sends P Q) : (x.via inner).Sends P Q := by
  induction hx with
  | done h => exact .done h
  | transmit hcommand _ ih => exact (hinner _ hcommand).bind ih

/-- On a card whose replies have the property. -/
theorem perform (hx : x.Sends P Q) (card : Card σ) (s : σ)
    (hreplies : ∀ p ∈ (x.perform card s).physical, Q p.reply) :
    (∀ p ∈ (x.perform card s).physical, P p.command) ∧ Q (x.perform card s).result := by
  induction hx generalizing s with
  | done h => exact ⟨nofun, h⟩
  | @transmit command resume hcommand _ ih =>
    obtain ⟨hreply, hrest⟩ := List.forall_mem_cons.1 hreplies
    obtain ⟨hcommands, hresult⟩ := ih _ hreply (card command s).2 hrest
    exact ⟨List.forall_mem_cons.2 ⟨hcommand, hcommands⟩, hresult⟩

end Sends

end Exchange

open Exchange

/-! ## What layers keep to -/

/-- **Properties that layers keep**: they pass from a command to those that a
layer makes of it, and from replies to what a layer makes of them. -/
structure Admits (P : Bytes → Prop) (Q : Reply → Prop) : Prop where
  /-- A part of a chain is fetched. -/
  fetch : ∀ opening length, P opening → P (getResponse opening length)
  /-- A command is repeated with the length that a status names. -/
  reissue : ∀ frame c status, P frame → Command.decode frame = .ok c →
    P (c.withLe (StatusWord.announced status)).encode
  ok : ∀ raw, Q (.ok raw)
  incomplete : ∀ length, Q (.error (.incomplete length))
  chainLimit : ∀ limit, Q (.error (.chainLimit limit))
  /-- A command that is to be repeated cannot be read. -/
  refused : ∀ frame e doing, P frame → Command.decode frame = .error e →
    Q (.error (e.withContext doing))
  context : ∀ e doing, Q (.error e) → Q (.error (e.withContext doing))

section Layers

variable {P : Bytes → Prop} {Q : Reply → Prop} {command : Bytes}

theorem sends_once (hcommand : P command) : (once command).Sends P Q :=
  .transmit hcommand fun _ hreply => .done hreply

theorem sends_retryWrongLength (h : Admits P Q) (hcommand : P command) :
    (retryWrongLength command).Sends P Q := by
  refine .transmit hcommand fun reply hreply => ?_
  cases reply with
  | error e => exact .done hreply
  | ok raw =>
    dsimp only
    split
    · next e hfirst =>
      rw [Response.error_of_decode hfirst]
      exact .done (h.incomplete _)
    · split
      · exact .done hreply
      · split
        · next e hrefused => exact .done (h.refused _ _ _ hcommand hrefused)
        · next c hc =>
          refine .transmit (h.reissue _ _ _ hcommand hc) fun second hsecond => ?_
          cases second with
          | error e => exact .done (h.context _ _ hsecond)
          | ok raw' =>
            dsimp only
            split
            · next e hshort =>
              rw [Response.error_of_decode hshort]
              exact .done (h.incomplete _)
            · exact .done hsecond

namespace Chain

/-- Following a chain. The induction is on the statuses that are left before
its bound. -/
theorem sends_follow (h : Admits P Q) (doing : String) {opening : Bytes} (hopening : P opening)
    (c : Chain) (raw : Bytes) : (c.follow doing opening raw).Sends P Q := by
  induction hleft : c.limit - c.seen using Nat.strongRecOn generalizing c raw with
  | ind left ih =>
    cases hstep : c.step raw with
    | error e =>
      rw [follow_of_error hstep]
      rcases error_of_step hstep with rfl | rfl
      · exact .done (h.incomplete _)
      · exact .done (h.chainLimit _)
    | ok step =>
      cases step with
      | finished response =>
        rw [follow_of_finished hstep]
        exact .done (h.ok response)
      | more le rest =>
        rw [follow_of_more hstep]
        obtain ⟨hlimit, hseen, hlt⟩ := step_more hstep
        obtain ⟨r, -, -, rfl, -⟩ := response_of_step_more hstep
        rw [continuation_announced]
        refine .transmit (h.fetch _ _ hopening) fun reply hreply => ?_
        cases reply with
        | error e => exact .done (h.context _ _ hreply)
        | ok next => exact ih (rest.limit - rest.seen) (by omega) rest next rfl

theorem sends_exchange (h : Admits P Q) (doing : String) (trigger : UInt8) (limit : Nat)
    (hcommand : P command) : (exchange doing trigger limit command).Sends P Q := by
  refine .transmit hcommand fun reply hreply => ?_
  cases reply with
  | error e => exact .done hreply
  | ok raw => exact sends_follow h doing hcommand _ raw

end Chain

theorem Layer.sends (h : Admits P Q) (layer : Layer) (hcommand : P command) :
    (layer.exchange command).Sends P Q := by
  cases layer with
  | wrongLength => exact sends_retryWrongLength h hcommand
  | getResponse limit => exact Chain.sends_exchange h _ _ limit hcommand
  | moreData limit => exact Chain.sends_exchange h _ _ limit hcommand
  | bridge => exact sends_once hcommand
  | boxed => exact sends_once hcommand
  | borrowed => exact sends_once hcommand

/-- **What layers keep, stacks keep**, in whatever order the layers stand. -/
theorem Stack.sends (h : Admits P Q) (stack : Stack) (hcommand : P command) :
    (stack.exchange command).Sends P Q := by
  induction stack using List.reverseRecOn generalizing command with
  | nil => exact sends_once hcommand
  | append_singleton below outermost ih =>
    rw [exchange_concat]
    exact (outermost.sends h hcommand).via fun command' hcommand' => ih hcommand'

end Layers

/-! ## Well-formed frames of one class -/

/-- **A well-formed frame in the class of a command**: it is the frame of the
command that it carries, and its class is that of `opening`. -/
def FrameOf (opening frame : Bytes) : Prop :=
  ∃ c, Command.decode frame = .ok c ∧ c.encode = frame ∧ frame.head? = some (opening.headD 0)

section Frames

variable {opening frame : Bytes} {c : Command}

/-- A frame that can be read starts with the class of its command. -/
theorem head?_of_decode (h : Command.decode frame = .ok c) : frame.head? = some c.cla := by
  obtain ⟨s, body, rfl, -⟩ := Command.decode_eq_ok_iff.1 h
  rfl

/-- A command to fetch a part of a chain is a frame in the class of the chain. -/
theorem frameOf_getResponse {command : Bytes} (length : UInt8)
    (hclass : command.headD 0 = opening.headD 0) :
    FrameOf opening (getResponse command length) := by
  refine ⟨_, rfl, encode_getResponse command ⟨0, length⟩ rfl rfl rfl, ?_⟩
  rw [← hclass]
  rfl

/-- A frame that can be read, repeated with a length that a status names, is a
frame in the same class. -/
theorem frameOf_withLe (status : StatusWord) (h : Command.decode frame = .ok c)
    (hclass : frame.headD 0 = opening.headD 0) :
    FrameOf opening (c.withLe status.announced).encode := by
  refine ⟨_, decode_encode_withLe h status, rfl, ?_⟩
  have hhead := head?_of_decode h
  rw [← hclass, List.headD_eq_head?_getD, hhead]
  rfl

/-- The command itself and the frames in its class are of its class. -/
theorem headD_of_frameOf (h : frame = opening ∨ FrameOf opening frame) :
    frame.headD 0 = opening.headD 0 := by
  rcases h with rfl | ⟨c, -, -, hhead⟩
  · rfl
  · rw [List.headD_eq_head?_getD, hhead]
    rfl

/-- Layers send the command and frames in its class. -/
theorem admits_frameOf (opening : Bytes) :
    Admits (fun frame => frame = opening ∨ FrameOf opening frame) fun _ => True where
  fetch _ length h := .inr (frameOf_getResponse length (headD_of_frameOf h))
  reissue _ _ status h hc := .inr (frameOf_withLe status hc (headD_of_frameOf h))
  ok _ := trivial
  incomplete _ := trivial
  chainLimit _ := trivial
  refused _ _ _ _ _ := trivial
  context _ _ _ := trivial

end Frames

/-! ## Errors about the command -/

/-- The error says that a command is not well formed. -/
def ExchangeError.BlamesCommand (e : ExchangeError) : Prop :=
  (∃ length, e.root = .commandLength length) ∨ ∃ message, e.root = .commandData message

/-- Layers that are given commands they can read do not say that one is not well
formed. -/
theorem admits_readable :
    Admits (fun frame => ∃ c, Command.decode frame = .ok c)
      fun reply => ∀ e, reply = .error e → ¬ e.BlamesCommand where
  fetch _ _ _ := ⟨_, rfl⟩
  reissue _ c status _ hc := ⟨c.withLe status.announced, decode_encode_withLe hc status⟩
  ok _ := nofun
  incomplete length := by
    rintro _ ⟨⟩ (⟨_, ⟨⟩⟩ | ⟨_, ⟨⟩⟩)
  chainLimit limit := by
    rintro _ ⟨⟩ (⟨_, ⟨⟩⟩ | ⟨_, ⟨⟩⟩)
  refused frame e doing hframe he := by
    obtain ⟨c, hc⟩ := hframe
    cases hc.symm.trans he
  context e doing h := by
    rintro _ ⟨⟩
    exact h e rfl

namespace Stack

/-- **Only well-formed frames in the class of the command reach the card**, besides
the command itself. If that is well formed too, the stack never fails because of a
command, unless the card does. -/
theorem sends_frames {σ : Type} (stack : Stack) (card : Card σ) (s : σ) (command : Bytes) :
    (∀ p ∈ ((stack.exchange command).perform card s).physical,
      p.command = command ∨
      ∃ c, Command.decode p.command = .ok c ∧ c.encode = p.command ∧
        p.command.head? = some (command.headD 0)) ∧
    ((∃ c, Command.decode command = .ok c) →
      (∀ p ∈ ((stack.exchange command).perform card s).physical,
        ∀ e, p.reply = .error e → ¬ e.BlamesCommand) →
      ∀ e, ((stack.exchange command).perform card s).result = .error e → ¬ e.BlamesCommand) := by
  refine ⟨?_, fun hcommand hcard => ?_⟩
  · exact ((stack.sends (admits_frameOf command) (.inl rfl)).perform card s fun _ _ => trivial).1
  · exact ((stack.sends admits_readable hcommand).perform card s hcard).2

/-- Two lengths are refused, that of the command and that of a part, which then
comes without a status word. -/
def fussy : Bench.Script :=
  [.ok [0x6C, 0x00], .ok [0x61, 0x02], .ok [0x6C, 0x05], .ok [0x90]]

/-- A command with one byte of data is sent again and its rest fetched, all in
frames of its class, and the error in the end is not about any of them. -/
theorem sends_frames_fussy :
    (∀ p ∈ (Bench.trial [.wrongLength, .getResponse 2] fussy
        [0x80, 0xD6, 0x00, 0x00, 0x01, 0xAA]).physical,
      p.command = [0x80, 0xD6, 0x00, 0x00, 0x01, 0xAA] ∨
      ∃ c, Command.decode p.command = .ok c ∧ c.encode = p.command ∧
        p.command.head? = some 0x80) ∧
    (Bench.trial [.wrongLength, .getResponse 2] fussy
        [0x80, 0xD6, 0x00, 0x00, 0x01, 0xAA]).physical.map Physical.command =
      [[0x80, 0xD6, 0x00, 0x00, 0x01, 0xAA], [0x80, 0xD6, 0x00, 0x00, 0x01, 0xAA, 0x00],
        [0x80, 0xC0, 0x00, 0x00, 0x02], [0x80, 0xC0, 0x00, 0x00, 0x05]] ∧
    ∃ e, (Bench.trial [.wrongLength, .getResponse 2] fussy
        [0x80, 0xD6, 0x00, 0x00, 0x01, 0xAA]).result = .error e ∧
      e.root = .incomplete 1 ∧ ¬ e.BlamesCommand := by
  have hframes := sends_frames [.wrongLength, .getResponse 2] Bench.scripted fussy
    [0x80, 0xD6, 0x00, 0x00, 0x01, 0xAA]
  have htrial : Bench.trial [.wrongLength, .getResponse 2] fussy
      [0x80, 0xD6, 0x00, 0x00, 0x01, 0xAA] =
      ⟨.error (.context "Failed to transmit GET RESPONSE command" (.incomplete 1)),
        [⟨[0x80, 0xD6, 0x00, 0x00, 0x01, 0xAA], .ok [0x6C, 0x00]⟩,
          ⟨[0x80, 0xD6, 0x00, 0x00, 0x01, 0xAA, 0x00], .ok [0x61, 0x02]⟩,
          ⟨[0x80, 0xC0, 0x00, 0x00, 0x02], .ok [0x6C, 0x05]⟩,
          ⟨[0x80, 0xC0, 0x00, 0x00, 0x05], .ok [0x90]⟩], []⟩ := by cbv
  refine ⟨hframes.1, by rw [htrial]; rfl, _, by rw [htrial], rfl, ?_⟩
  refine hframes.2 ⟨_, rfl⟩ (fun p hp e he => ?_) _ (by rw [← Bench.trial, htrial])
  -- the card reports no error at all
  rw [← Bench.trial, htrial] at hp
  simp only [List.mem_cons, List.not_mem_nil, or_false] at hp
  rcases hp with rfl | rfl | rfl | rfl <;> cases he

end Stack

end SmartCard
