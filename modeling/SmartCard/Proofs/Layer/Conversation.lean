import SmartCard.Runner.Config
import SmartCard.Proofs.Command.RoundTrip
import SmartCard.Proofs.Layer.Faults
/-!
# The conversation of a runner's layers with the card

A runner puts the retry of a wrong length under the chain of GET RESPONSE
commands. So a command with side effects is sent once, and once more only if
the card refuses its very first transmission for its expected length; a
length that is refused in the middle of a chain repeats the GET RESPONSE
command alone. `Follows` says which command may follow which answer,
`Onward` that an exchange keeps to it from some point on, and
`conversation_of_stack` that the layers of every runner do.
-/

namespace SmartCard

namespace Exchange

variable {α β σ : Type}

/-! ## What an exchange returns -/

/-- Whatever the card replies, the result has a property. -/
inductive Returns (P : α → Prop) : Exchange α → Prop where
  | done {result : α} (h : P result) : Returns P (.done result)
  | transmit {command : Bytes} {resume : Reply → Exchange α}
      (h : ∀ reply, Returns P (resume reply)) : Returns P (.transmit command resume)

namespace Returns

variable {P : α → Prop} {x : Exchange α}

/-- The result of a sequence is that of its second part. -/
theorem bind {y : Exchange β} {f : β → Exchange α} (h : ∀ b, (f b).Returns P) :
    (y.bind f).Returns P := by
  induction y with
  | done b => exact h b
  | transmit command resume ih => exact .transmit ih

/-- What is put under an exchange does not bear on what it can return. -/
theorem via (h : x.Returns P) (inner : Bytes → Exchange Reply) : (x.via inner).Returns P := by
  induction h with
  | done h => exact .done h
  | transmit _ ih => exact bind ih

/-- On a card, an exchange returns what it can return. -/
theorem perform (h : x.Returns P) (card : Card σ) (s : σ) : P (x.perform card s).result := by
  induction h generalizing s with
  | done h => exact h
  | transmit _ ih => exact ih (card _ s).1 (card _ s).2

end Returns

end Exchange

open Exchange

namespace Chain

/-- A reply that is no part of a chain: an error, or a response whose status
does not announce another part. -/
def IsLast (trigger : UInt8) (reply : Reply) : Prop :=
  ∀ raw, reply = .ok raw → ∃ r, Response.decode raw = .ok r ∧ r.status.sw1 ≠ trigger

theorem isLast_error (trigger : UInt8) (e : ExchangeError) : IsLast trigger (.error e) :=
  nofun

/-- The response of a finished chain has the status of its last part. -/
theorem isLast_of_finished {c : Chain} {raw response : Bytes}
    (h : c.step raw = .ok (.finished response)) : IsLast c.trigger (.ok response) := by
  obtain ⟨r, -, htrigger, rfl⟩ := step_finished h
  rintro _ ⟨⟩
  refine ⟨⟨c.buffer ++ r.data, r.status⟩, ?_, htrigger⟩
  rw [← Response.decode_encode ⟨c.buffer ++ r.data, r.status⟩, Response.encode, Response.encode,
    List.append_assoc]

/-- **Following a chain comes to its end.** The induction is on the statuses
that are left before its bound. -/
theorem returns_follow (doing : String) (opening : Bytes) (c : Chain) (raw : Bytes) :
    (c.follow doing opening raw).Returns (IsLast c.trigger) := by
  induction hleft : c.limit - c.seen using Nat.strongRecOn generalizing c raw with
  | ind left ih =>
    cases hstep : c.step raw with
    | error e =>
      rw [follow_of_error hstep]
      exact .done (isLast_error _ e)
    | ok step =>
      cases step with
      | finished response =>
        rw [follow_of_finished hstep]
        exact .done (isLast_of_finished hstep)
      | more le rest =>
        rw [follow_of_more hstep]
        obtain ⟨hlimit, hseen, hlt⟩ := step_more hstep
        obtain ⟨r, -, -, -, hrest⟩ := response_of_step_more hstep
        refine .transmit fun reply => ?_
        cases reply with
        | error e => exact .done (isLast_error _ _)
        | ok next =>
          have hnext := ih (rest.limit - rest.seen) (by omega) rest next rfl
          rwa [hrest] at hnext ⊢

/-- The result of a chain layer is no part of a chain. -/
theorem returns_exchange (doing : String) (trigger : UInt8) (limit : Nat) (command : Bytes) :
    (exchange doing trigger limit command).Returns (IsLast trigger) := by
  refine .transmit fun reply => ?_
  cases reply with
  | error e => exact .done (isLast_error _ e)
  | ok raw => exact returns_follow doing command { trigger, limit } raw

end Chain

/-! ## Conversations -/

/-- Why a command is sent to the card. -/
inductive Role where
  /-- It is the command that the exchange is about. -/
  | opening
  /-- It is that command again, with the expected length that the card named. -/
  | reissue
  /-- It fetches the next part of a chain. -/
  | fetch
  /-- It fetches that part again, with the length that the card named. -/
  | refetch
deriving DecidableEq

/-- The GET RESPONSE command for a length in one byte, in the class of the
command that the exchange is about. -/
def getResponse (opening : Bytes) (length : UInt8) : Bytes :=
  [opening.headD 0, 0xC0, 0x00, 0x00, length]

/-- **Which command may follow which answer.** The command that the exchange is
about is repeated only after its own first answer; a chain is continued after
any command; and a part of it is fetched again only once. -/
inductive Follows (opening : Bytes) : Role → Reply → Role → Bytes → Prop where
  | reissue {raw command : Bytes} {r : Response} {c : Command}
      (hr : Response.decode raw = .ok r) (hsw : r.status.sw1 = 0x6C)
      (hopening : Command.decode opening = .ok c)
      (hcommand : Command.decode command = .ok (c.withLe r.status.announced)) :
      Follows opening .opening (.ok raw) .reissue command
  | fetch (role : Role) {raw : Bytes} {r : Response}
      (hr : Response.decode raw = .ok r) (hsw : r.status.sw1 = 0x61) :
      Follows opening role (.ok raw) .fetch (getResponse opening r.status.sw2)
  | refetch {raw : Bytes} {r : Response}
      (hr : Response.decode raw = .ok r) (hsw : r.status.sw1 = 0x6C) :
      Follows opening .fetch (.ok raw) .refetch (getResponse opening r.status.sw2)

namespace Follows

variable {opening command : Bytes} {role role' : Role} {reply : Reply}

/-- The command that the exchange is about follows from no answer. -/
theorem ne_opening (h : Follows opening role reply role' command) : role' ≠ .opening := by
  cases h <;> decide

/-- That command is repeated only after its own first answer. -/
theorem opening_of_reissue (h : Follows opening role reply role' command)
    (hrole : role' = .reissue) : role = .opening := by
  cases h with
  | reissue => rfl
  | fetch => cases hrole
  | refetch => cases hrole

end Follows

/-- **A conversation about a command**: physical exchanges with the roles of
their commands, each of which follows from the answer before it. -/
structure Conversation (opening : Bytes) (parts : List (Role × Physical)) : Prop where
  opens : ∃ reply rest, parts = (.opening, ⟨opening, reply⟩) :: rest
  follows : parts.IsChain fun a b => Follows opening a.1 a.2.reply b.1 b.2.command

namespace Conversation

variable {opening : Bytes} {parts : List (Role × Physical)} {i : Nat} {part : Role × Physical}

/-- Each part but the first follows from the one before it. -/
theorem follows_of_succ (h : Conversation opening parts) (hi : parts[i + 1]? = some part) :
    ∃ before, parts[i]? = some before ∧
      Follows opening before.1 before.2.reply part.1 part.2.command := by
  obtain ⟨hlt, rfl⟩ := List.getElem?_eq_some_iff.1 hi
  have hchain := List.isChain_iff_getElem.1 h.follows i hlt
  exact ⟨parts[i], List.getElem?_eq_getElem (by omega), hchain⟩

/-- The command that the exchange is about comes first and not again. -/
theorem eq_zero_of_opening (h : Conversation opening parts) (hi : parts[i]? = some part)
    (hrole : part.1 = .opening) : i = 0 := by
  cases i with
  | zero => rfl
  | succ i =>
    obtain ⟨before, -, hfollows⟩ := h.follows_of_succ hi
    exact absurd hrole hfollows.ne_opening

/-- **If the command is repeated, then as the second one.** -/
theorem eq_one_of_reissue (h : Conversation opening parts) (hi : parts[i]? = some part)
    (hrole : part.1 = .reissue) : i = 1 := by
  cases i with
  | zero =>
    obtain ⟨reply, rest, rfl⟩ := h.opens
    cases hi
    cases hrole
  | succ i =>
    obtain ⟨before, hbefore, hfollows⟩ := h.follows_of_succ hi
    rw [h.eq_zero_of_opening hbefore (hfollows.opening_of_reissue hrole)]

end Conversation

/-! ## Exchanges that keep to it -/

/-- **What is left of an exchange keeps to the rules**, after a command in this
role had this answer. -/
inductive Onward (opening : Bytes) : Role → Reply → Exchange Reply → Prop where
  | done {role : Role} {reply result : Reply} : Onward opening role reply (.done result)
  | transmit {role role' : Role} {reply : Reply} {command : Bytes}
      {resume : Reply → Exchange Reply} (hfollows : Follows opening role reply role' command)
      (hresume : ∀ reply', Onward opening role' reply' (resume reply')) :
      Onward opening role reply (.transmit command resume)

namespace Onward

variable {opening : Bytes} {role : Role} {reply : Reply} {x : Exchange Reply} {σ : Type}

/-- On a card, what is left of an exchange continues the conversation. -/
theorem perform (h : Onward opening role reply x) (card : Card σ) (s : σ) (command : Bytes) :
    ∃ parts : List (Role × Physical), parts.map Prod.snd = (x.perform card s).physical ∧
      ((role, ⟨command, reply⟩) :: parts).IsChain
        fun a b => Follows opening a.1 a.2.reply b.1 b.2.command := by
  induction h generalizing s command with
  | done => exact ⟨[], rfl, .singleton _⟩
  | @transmit role role' reply command' resume hfollows hresume ih =>
    obtain ⟨parts, hparts, hchain⟩ :=
      ih (card command' s).1 (card command' s).2 command'
    refine ⟨(role', ⟨command', (card command' s).1⟩) :: parts, ?_, ?_⟩
    · rw [List.map_cons, hparts]
      rfl
    · exact .cons_cons hfollows hchain

end Onward

/-- The commands that a layer below may be given: the one that the exchange is
about, and those that fetch the parts of a chain. -/
inductive Given (opening : Bytes) : Role → Bytes → Prop where
  | opening : Given opening .opening opening
  | fetch (length : UInt8) : Given opening .fetch (getResponse opening length)

/-- **A layer that can stand below**: it transmits what it is given, and keeps
to the rules if that is done after it. -/
def Passes (opening : Bytes) (below : Bytes → Exchange Reply) : Prop :=
  ∀ (role : Role) (command : Bytes) (f : Reply → Exchange Reply), Given opening role command →
    GivesUp f → (∀ role' raw, Onward opening role' (.ok raw) (f (.ok raw))) →
      ∃ resume, (below command).bind f = .transmit command resume ∧
        ∀ reply, Onward opening role reply (resume reply)

section Below

variable {opening : Bytes} {below : Bytes → Exchange Reply}

/-- An exchange that gives up keeps to the rules. -/
theorem onward_of_givesUp {f : Reply → Exchange Reply} (hf : GivesUp f) (role : Role)
    (reply : Reply) (e : ExchangeError) : Onward opening role reply (f (.error e)) := by
  obtain ⟨doings, hdone⟩ := hf e
  rw [hdone]
  exact .done

/-- Passing commands on. -/
theorem passes_once (opening : Bytes) : Passes opening once := by
  intro role command f _ hf hok
  refine ⟨f, rfl, fun reply => ?_⟩
  cases reply with
  | error e => exact onward_of_givesUp hf role _ e
  | ok raw => exact hok role raw

/-- What a status announces fits a short field. -/
theorem announced_mem (status : StatusWord) :
    1 ≤ status.announced.toNat ∧ status.announced.toNat ≤ 256 :=
  Command.Shape.ShortLength.mem (Command.shortLength_iff.2 (Eq.refl status.announced))

/-- A GET RESPONSE command is written with the length that a status announces as
the status has it. -/
theorem encode_getResponse (opening : Bytes) (status : StatusWord) {c : Command}
    (hheader : c.header = [opening.headD 0, 0xC0, 0x00, 0x00]) (hdata : c.data = none)
    (hle : c.le = some status.announced) : c.encode = getResponse opening status.sw2 := by
  have hfield : UInt8.ofNat status.announced.toNat = status.sw2 := Command.ofNat_shortLe _
  rw [Command.encode_of_short_le hdata hle (announced_mem status).2, hheader, hfield]
  rfl

/-- The command that fetches what a status announces. -/
theorem continuation_announced (opening : Bytes) (status : StatusWord) :
    continuation opening status.announced = getResponse opening status.sw2 :=
  encode_getResponse opening status rfl rfl rfl

/-- The reader finds nothing in a GET RESPONSE command but its length, and that
is replaced. -/
theorem encode_withLe_getResponse {length : UInt8} {c : Command}
    (h : Command.decode (getResponse opening length) = .ok c) (status : StatusWord) :
    (c.withLe status.announced).encode = getResponse opening status.sw2 := by
  cases h
  exact encode_getResponse opening status rfl rfl rfl

/-- A command that was read keeps a frame of its own when its expected length is
replaced by one that a status names. -/
theorem decode_encode_withLe {frame : Bytes} {c : Command} (h : Command.decode frame = .ok c)
    (status : StatusWord) :
    Command.decode (c.withLe status.announced).encode = .ok (c.withLe status.announced) := by
  have hrep := Command.representable_of_decode h
  refine Command.decode_encode ⟨hrep.data_ne, hrep.data_le, ?_⟩
  rintro n ⟨⟩
  have hmem := announced_mem status
  omega

/-- An exchange that takes a reply as it is, or fails, does nothing more. -/
theorem onward_of_settled {f settle : Reply → Exchange Reply} (hf : GivesUp f)
    (hok : ∀ role raw, Onward opening role (.ok raw) (f (.ok raw))) (hfails : GivesUp settle)
    (hsettles : ∀ raw, settle (.ok raw) = .done (.ok raw) ∨
      ∃ e, settle (.ok raw) = .done (.error e)) (role : Role) (reply : Reply) :
    Onward opening role reply ((settle reply).bind f) := by
  cases reply with
  | error e =>
    obtain ⟨doings, hdone⟩ := hfails e
    rw [hdone]
    exact onward_of_givesUp hf role _ _
  | ok raw =>
    rcases hsettles raw with hdone | ⟨e, hdone⟩
    · rw [hdone]
      exact hok role raw
    · rw [hdone]
      exact onward_of_givesUp hf role _ e

/-- **Repeating a command of a wrong length.** The command that the exchange is
about becomes its reissue, and a fetched part is fetched again. -/
theorem passes_retryWrongLength (opening : Bytes) : Passes opening retryWrongLength := by
  intro role command f hgiven hf hok
  refine ⟨_, rfl, fun reply => ?_⟩
  cases reply with
  | error e => exact onward_of_givesUp hf role _ e
  | ok raw =>
    dsimp only
    split
    · next e _ => exact onward_of_givesUp hf role _ e
    · next first hfirst =>
      split
      · exact hok role raw
      · next hsw =>
        have hwrong : first.status.sw1 = 0x6C := Classical.not_not.1 hsw
        split
        · next e _ => exact onward_of_givesUp hf role _ _
        · next c hc =>
          have hnext : ∃ role', Follows opening role (.ok raw) role'
              (c.withLe first.status.announced).encode := by
            cases hgiven with
            | opening =>
              exact ⟨.reissue, .reissue hfirst hwrong hc (decode_encode_withLe hc first.status)⟩
            | fetch length =>
              rw [encode_withLe_getResponse hc]
              exact ⟨.refetch, .refetch hfirst hwrong⟩
          obtain ⟨role', hfollows⟩ := hnext
          -- whatever the second answer is, the retry does nothing more
          refine .transmit hfollows (onward_of_settled hf hok
            (fun e => ⟨["Wrong length retry failed"], rfl⟩) (fun second => ?_) role')
          dsimp only
          split
          · next e _ => exact .inr ⟨e, rfl⟩
          · exact .inl rfl

/-- A command over a layer that can stand below: it is transmitted, and what is
done with the reply keeps to the rules. -/
theorem Passes.via (hbelow : Passes opening below) {role : Role} {command : Bytes}
    {resume : Reply → Exchange Reply} (hgiven : Given opening role command)
    (hgives : GivesUp resume)
    (hok : ∀ role' raw, Onward opening role' (.ok raw) ((resume (.ok raw)).via below)) :
    ∃ resume', (Exchange.transmit command resume).via below = .transmit command resume' ∧
      ∀ reply, Onward opening role reply (resume' reply) := by
  refine hbelow role command (fun reply => (resume reply).via below) hgiven (fun e => ?_) hok
  obtain ⟨doings, hdone⟩ := hgives e
  refine ⟨doings, ?_⟩
  change (resume (.error e)).via below = _
  rw [hdone]
  rfl

/-- **Following a chain over a layer that can stand below.** The induction is on
the statuses that are left before the bound of the chain. -/
theorem onward_follow (hbelow : Passes opening below) (doing : String) (c : Chain)
    (htrigger : c.trigger = 0x61) (role : Role) (raw : Bytes) :
    Onward opening role (.ok raw) ((c.follow doing opening raw).via below) := by
  induction hleft : c.limit - c.seen using Nat.strongRecOn generalizing c role raw with
  | ind left ih =>
    cases hstep : c.step raw with
    | error e =>
      rw [Chain.follow_of_error hstep]
      exact .done
    | ok step =>
      cases step with
      | finished response =>
        rw [Chain.follow_of_finished hstep]
        exact .done
      | more le rest =>
        obtain ⟨hlimit, hseen, hlt⟩ := Chain.step_more hstep
        obtain ⟨r, hr, hsw, rfl, hrest⟩ := Chain.response_of_step_more hstep
        have hagain : ∀ role' next,
            Onward opening role' (.ok next) ((rest.follow doing opening next).via below) := by
          intro role' next
          exact ih (rest.limit - rest.seen) (by omega) rest (by rw [hrest, htrigger]) role' next rfl
        have hfetch : Given opening .fetch (getResponse opening r.status.sw2) := .fetch _
        rw [Chain.follow_of_more hstep, continuation_announced]
        suffices h : ∃ resume', Exchange.via below (.transmit _ _) = .transmit _ resume' ∧
            ∀ reply, Onward opening .fetch reply (resume' reply) by
          obtain ⟨resume', heq, hresume'⟩ := h
          rw [heq]
          exact .transmit (.fetch role hr (hsw.trans htrigger)) hresume'
        exact hbelow.via hfetch (fun e => ⟨[doing], rfl⟩) hagain

/-- A chain of GET RESPONSE commands over a layer that can stand below. -/
theorem onward_exchange (hbelow : Passes opening below) (doing : String) (limit : Nat) :
    ∃ resume, (Chain.exchange doing 0x61 limit opening).via below = .transmit opening resume ∧
      ∀ reply, Onward opening .opening reply (resume reply) := by
  refine hbelow.via .opening (fun e => ⟨[], rfl⟩) fun role raw => ?_
  exact onward_follow hbelow doing _ rfl role raw

/-- A layer that can stand below can stand alone. -/
theorem Passes.alone (hbelow : Passes opening below) :
    ∃ resume, below opening = .transmit opening resume ∧
      ∀ reply, Onward opening .opening reply (resume reply) := by
  obtain ⟨resume, heq, hresume⟩ :=
    hbelow .opening opening .done .opening (fun e => ⟨[], rfl⟩) fun _ _ => .done
  rw [bind_done] at heq
  exact ⟨resume, heq, hresume⟩

end Below

namespace Runner

variable {σ : Type}

/-- **The layers of every runner keep to the rules**, whichever of them it has. -/
theorem onward_stack (config : Config) (opening : Bytes) :
    ∃ resume, config.stack.exchange opening = .transmit opening resume ∧
      ∀ reply, Onward opening .opening reply (resume reply) := by
  have hbelow : Passes opening (Stack.exchange
      (if config.wrongLengthRetry then [.wrongLength] else [])) := by
    cases config.wrongLengthRetry with
    | false => exact passes_once opening
    | true =>
      have hretry : Stack.exchange [.wrongLength] = retryWrongLength := by
        funext command
        exact via_once _
      exact hretry ▸ passes_retryWrongLength opening
  unfold Config.stack
  cases config.getResponse with
  | false =>
    rw [if_neg Bool.false_ne_true, List.append_nil]
    exact hbelow.alone
  | true =>
    rw [if_pos rfl, Stack.exchange_concat]
    exact onward_exchange hbelow _ _

/-- With the chain of GET RESPONSE commands, no response announces another part. -/
theorem isLast_stack (config : Config) (h : config.getResponse = true) (opening : Bytes) :
    (config.stack.exchange opening).Returns (Chain.IsLast 0x61) := by
  unfold Config.stack
  rw [h, if_pos rfl, Stack.exchange_concat]
  exact (Chain.returns_exchange _ _ _ opening).via _

/-- **A runner never repeats a command in the middle of a chain.** The physical
exchanges of one command are a conversation about it: it comes first and
unchanged, is repeated at most once and then as the second command, and all
others are GET RESPONSE commands that follow from the answers before them. With
those, no response is left that announces another part. -/
theorem conversation_of_stack (config : Config) (card : Card σ) (s : σ) (opening : Bytes) :
    (∃ parts, parts.map Prod.snd = ((config.stack.exchange opening).perform card s).physical ∧
      Conversation opening parts ∧
      ∀ i part, parts[i]? = some part → part.1 = .reissue → i = 1) ∧
    (config.getResponse = true → ∀ raw,
      ((config.stack.exchange opening).perform card s).result = .ok raw →
        ∃ r, Response.decode raw = .ok r ∧ r.status.sw1 ≠ 0x61) := by
  obtain ⟨resume, hstack, hresume⟩ := onward_stack config opening
  refine ⟨?_, fun h => (isLast_stack config h opening).perform card s⟩
  obtain ⟨parts, hparts, hchain⟩ :=
    (hresume (card opening s).1).perform card (card opening s).2 opening
  have hconversation : Conversation opening
      ((.opening, ⟨opening, (card opening s).1⟩) :: parts) := ⟨⟨_, _, rfl⟩, hchain⟩
  refine ⟨_, ?_, hconversation, fun i part => hconversation.eq_one_of_reissue⟩
  rw [hstack, List.map_cons, hparts]
  rfl

/-- The card refuses the length of the command, and later that of a part. -/
def refusing : Bench.Script :=
  [.ok [0x6C, 0x02], .ok [0xAA, 0x61, 0x01], .ok [0x6C, 0x05], .ok [0xBB, 0x90, 0x00]]

/-- The command is repeated once, with its length, and then the part alone. -/
theorem conversation_of_refusing :
    (∃ parts : List (Role × Physical), Conversation [0x00, 0xB0, 0x00, 0x00] parts ∧
      parts.map (fun part => part.2.command) =
        [[0x00, 0xB0, 0x00, 0x00], [0x00, 0xB0, 0x00, 0x00, 0x02], [0x00, 0xC0, 0x00, 0x00, 0x01],
          [0x00, 0xC0, 0x00, 0x00, 0x05]] ∧
      ∀ i part, parts[i]? = some part → part.1 = .reissue → i = 1) ∧
    (Bench.trial ({} : Config).stack refusing [0x00, 0xB0, 0x00, 0x00]).result =
      .ok [0xAA, 0xBB, 0x90, 0x00] ∧
    ∃ r, Response.decode [0xAA, 0xBB, 0x90, 0x00] = .ok r ∧ r.status.sw1 ≠ 0x61 := by
  have hall := conversation_of_stack {} Bench.scripted refusing [0x00, 0xB0, 0x00, 0x00]
  have hresult : (Bench.trial ({} : Config).stack refusing [0x00, 0xB0, 0x00, 0x00]).result =
      .ok [0xAA, 0xBB, 0x90, 0x00] := by cbv
  obtain ⟨⟨parts, hparts, hconversation, hreissue⟩, hlast⟩ := hall
  refine ⟨⟨parts, hconversation, ?_, hreissue⟩, hresult, hlast rfl _ hresult⟩
  have hcommands := congrArg (List.map Physical.command) hparts
  rw [List.map_map] at hcommands
  refine hcommands.trans ?_
  cbv

end Runner

end SmartCard
