import SmartCard.Bench.Script
import SmartCard.Proofs.Command.Shapes
import SmartCard.Proofs.Error.Contexts
import Mathlib.Data.List.Permutation
/-!
# Faults under a stack of layers

A physical exchange that fails ends the logical exchange that it is part
of, whatever layers lie between, and its error comes out with contexts
around it and nothing else changed. `Candid` says so of an exchange before
it is carried out, for every reply that a card could give: that makes it
closed under putting one exchange on top of another (`Candid.via`), and a
stack is candid because each of its layers is. `Candid.perform` reads off
what happens on a card.
-/

namespace SmartCard

/-! ## What a layer finds -/

namespace ExchangeError

variable {e : ExchangeError}

/-- What a layer finds wrong by itself: an answer without a status word, a
chain without end, or a command that it cannot take apart. -/
inductive Found : ExchangeError → Prop where
  | incomplete (length : Nat) : Found (.incomplete length)
  | chainLimit (limit : Nat) : Found (.chainLimit limit)
  | commandLength (length : Nat) : Found (.commandLength length)
  | commandData (message : String) : Found (.commandData message)

/-- Such an error is a root. -/
theorem Found.root_eq (h : e.Found) : e.root = e := by
  cases h <;> rfl

theorem found_of_response {raw : Bytes} (h : Response.decode raw = .error e) : e.Found := by
  rw [Response.error_of_decode h]
  exact .incomplete _

theorem found_of_command {frame : Bytes} (h : Command.decode frame = .error e) : e.Found := by
  rcases Command.error_of_decode h with ⟨length, rfl⟩ | ⟨message, rfl⟩
  · exact .commandLength length
  · exact .commandData message

theorem found_of_chain {c : Chain} {raw : Bytes} (h : c.step raw = .error e) : e.Found := by
  rcases Chain.error_of_step h with rfl | rfl
  · exact .incomplete _
  · exact .chainLimit _

end ExchangeError

open ExchangeError

namespace Exchange

variable {σ : Type} {x : Exchange Reply} {f : Reply → Exchange Reply}

/-- Going on after a reply gives up at once on an error, which it returns
under contexts. -/
def GivesUp (f : Reply → Exchange Reply) : Prop :=
  ∀ e, ∃ doings, f (.error e) = .done (.error (e.withContexts doings))

/-- **An exchange that hides no fault.** It gives up on every failed
transmission, and an error that it returns without one is its own. -/
inductive Candid : Exchange Reply → Prop where
  | done {reply : Reply} (hown : ∀ e, reply = .error e → e.root.Found) : Candid (.done reply)
  | transmit {command : Bytes} {resume : Reply → Exchange Reply} (herror : GivesUp resume)
    (hok : ∀ raw, Candid (resume (.ok raw))) : Candid (.transmit command resume)

/-- An error that a layer found, under contexts. -/
theorem candid_of_found {e : ExchangeError} (he : e.Found) (doings : List String) :
    Candid (.done (.error (e.withContexts doings))) := by
  refine .done ?_
  rintro e' ⟨⟩
  rw [root_withContexts, he.root_eq]
  exact he

/-- A response that is returned. -/
theorem candid_of_ok (raw : Bytes) : Candid (.done (.ok raw)) :=
  .done nofun

namespace Candid

/-- Going on from a candid exchange in a candid way. -/
theorem bind (hx : x.Candid) (herror : GivesUp f) (hok : ∀ raw, (f (.ok raw)).Candid) :
    (x.bind f).Candid := by
  induction hx with
  | @done reply hown =>
    change (f reply).Candid
    cases reply with
    | ok raw => exact hok raw
    | error e =>
      -- an error of its own stays one under the contexts of what follows
      obtain ⟨doings, hf⟩ := herror e
      rw [hf]
      refine .done ?_
      rintro e' ⟨⟩
      rw [root_withContexts]
      exact hown e rfl
  | @transmit command resume hresume _ ih =>
    refine .transmit (fun e => ?_) ih
    obtain ⟨inner, hinner⟩ := hresume e
    obtain ⟨outer, houter⟩ := herror (e.withContexts inner)
    refine ⟨inner ++ outer, ?_⟩
    rw [hinner, withContexts_append, ← houter]
    rfl

/-- **A candid exchange over candid ones is candid.** -/
theorem via {inner : Bytes → Exchange Reply} (hx : x.Candid)
    (hinner : ∀ command, (inner command).Candid) : (x.via inner).Candid := by
  induction hx with
  | done hown => exact .done hown
  | @transmit command resume herror _ ih =>
    refine (hinner command).bind (fun e => ?_) ih
    obtain ⟨doings, hresume⟩ := herror e
    refine ⟨doings, ?_⟩
    rw [hresume]
    rfl

/-- **A failed physical exchange is the last**, and its error is the result,
under contexts. -/
theorem perform_of_error (hx : x.Candid) (card : Card σ) (s : σ) {i : Nat} {p : Physical}
    {e : ExchangeError} (hp : (x.perform card s).physical[i]? = some p)
    (he : p.reply = .error e) :
    i + 1 = (x.perform card s).physical.length ∧
      ∃ doings, (x.perform card s).result = .error (e.withContexts doings) := by
  induction hx generalizing s i with
  | done hown => cases hp
  | @transmit command resume herror _ ih =>
    unfold perform Performance.after at hp ⊢
    generalize card command s = answer at hp ⊢
    obtain ⟨reply, s'⟩ := answer
    dsimp only at hp ⊢
    cases reply with
    | ok raw =>
      cases i with
      | zero =>
        cases hp
        cases he
      | succ i =>
        obtain ⟨hlast, hresult⟩ := ih raw s' hp
        exact ⟨congrArg (· + 1) hlast, hresult⟩
    | error e' =>
      obtain ⟨doings, hresume⟩ := herror e'
      rw [hresume] at hp ⊢
      cases i with
      | zero =>
        cases hp
        cases he
        exact ⟨rfl, doings, rfl⟩
      | succ i => cases hp

/-- If no physical exchange fails, an error is one that a layer found. -/
theorem perform_of_ok (hx : x.Candid) (card : Card σ) (s : σ)
    (hok : ∀ p ∈ (x.perform card s).physical, ∃ raw, p.reply = .ok raw) {e : ExchangeError}
    (he : (x.perform card s).result = .error e) : e.root.Found := by
  induction hx generalizing s with
  | done hown => exact hown e he
  | @transmit command resume _ _ ih =>
    unfold perform Performance.after at hok he
    generalize card command s = answer at hok he
    obtain ⟨reply, s'⟩ := answer
    obtain ⟨⟨raw, hraw⟩, hrest⟩ := List.forall_mem_cons.1 hok
    obtain rfl : reply = .ok raw := hraw
    exact ih raw s' hrest he

end Candid

end Exchange

open Exchange

/-! ## The layers -/

/-- Passing a command on. -/
theorem candid_once (command : Bytes) : (once command).Candid := by
  refine .transmit (fun e => ⟨[], rfl⟩) ?_
  exact candid_of_ok

/-- Repeating a command with the expected length that the card names. -/
theorem candid_retryWrongLength (command : Bytes) : (retryWrongLength command).Candid := by
  refine .transmit (fun e => ⟨[], rfl⟩) fun raw => ?_
  dsimp only
  split
  · next e hfirst => exact candid_of_found (found_of_response hfirst) []
  · split
    · exact candid_of_ok raw
    · split
      · next e hcommand =>
        exact candid_of_found (found_of_command hcommand)
          ["Failed to rebuild command for wrong length retry"]
      · refine .transmit (fun e => ⟨["Wrong length retry failed"], rfl⟩) fun second => ?_
        dsimp only
        split
        · next e hsecond => exact candid_of_found (found_of_response hsecond) []
        · exact candid_of_ok second

namespace Chain

/-- Following a chain. The induction is on the statuses that are left before
its bound. -/
theorem candid_follow (doing : String) (opening : Bytes) (c : Chain) (raw : Bytes) :
    (c.follow doing opening raw).Candid := by
  induction hleft : c.limit - c.seen using Nat.strongRecOn generalizing c raw with
  | ind left ih =>
    cases hstep : c.step raw with
    | error e =>
      rw [follow_of_error hstep]
      exact candid_of_found (found_of_chain hstep) []
    | ok step =>
      cases step with
      | finished response =>
        rw [follow_of_finished hstep]
        exact candid_of_ok response
      | more le rest =>
        rw [follow_of_more hstep]
        obtain ⟨hlimit, hseen, hlt⟩ := step_more hstep
        refine .transmit (fun e => ⟨[doing], rfl⟩) fun next => ?_
        exact ih (rest.limit - rest.seen) (by omega) rest next rfl

/-- Transmitting a command and following the chain that its response starts. -/
theorem candid_exchange (doing : String) (trigger : UInt8) (limit : Nat) (command : Bytes) :
    (exchange doing trigger limit command).Candid := by
  refine .transmit (fun e => ⟨[], rfl⟩) fun raw => ?_
  exact candid_follow doing command _ raw

end Chain

/-- No layer hides a fault. -/
theorem Layer.candid (layer : Layer) (command : Bytes) : (layer.exchange command).Candid := by
  cases layer with
  | wrongLength => exact candid_retryWrongLength command
  | getResponse limit => exact Chain.candid_exchange _ _ limit command
  | moreData limit => exact Chain.candid_exchange _ _ limit command
  | bridge => exact candid_once command
  | boxed => exact candid_once command
  | borrowed => exact candid_once command

namespace Stack

/-- No stack of layers hides a fault, in whatever order they stand. -/
theorem candid (stack : Stack) (command : Bytes) : (stack.exchange command).Candid := by
  induction stack using List.reverseRecOn generalizing command with
  | nil => exact candid_once command
  | append_singleton below outermost ih =>
    rw [exchange_concat]
    exact (outermost.candid command).via ih

/-- **A fault stops a stack and keeps its kind.** A physical exchange that fails
is the last of its logical exchange, which fails with the same error under
contexts; and if none fails, the error of a stack is one that a layer found. -/
theorem faults_surface {σ : Type} (stack : Stack) (card : Card σ) (s : σ) (command : Bytes) :
    (∀ i p e, ((stack.exchange command).perform card s).physical[i]? = some p →
      p.reply = .error e →
        i + 1 = ((stack.exchange command).perform card s).physical.length ∧
        ∃ e', ((stack.exchange command).perform card s).result = .error e' ∧
          (∃ doings, e' = e.withContexts doings) ∧ e'.root = e.root ∧
          e'.transportFault? = e.transportFault? ∧ e'.isCardRemoved = e.isCardRemoved ∧
          e'.isProtocolViolation = e.isProtocolViolation) ∧
    ((∀ p ∈ ((stack.exchange command).perform card s).physical, ∃ raw, p.reply = .ok raw) →
      ∀ e, ((stack.exchange command).perform card s).result = .error e → e.root.Found) := by
  have hcandid := stack.candid command
  refine ⟨fun i p e hp he => ?_, fun hok e he => hcandid.perform_of_ok card s hok he⟩
  obtain ⟨hlast, doings, hresult⟩ := hcandid.perform_of_error card s hp he
  have hroot := root_withContexts e doings
  have hfault : (e.withContexts doings).transportFault? = e.transportFault? := by
    unfold transportFault?
    rw [hroot]
  refine ⟨hlast, _, hresult, ⟨doings, rfl⟩, hroot, hfault, ?_, ?_⟩
  · unfold isCardRemoved
    rw [hfault]
  · unfold isProtocolViolation
    rw [hroot]

/-- Layers of every kind that continues an exchange, and one between them that passes on. -/
def continuing : Stack := [.wrongLength, .getResponse 2, .boxed, .moreData 4]

/-- The card names another length, starts a chain, and is gone. -/
def departing : Bench.Script :=
  [.ok [0x6C, 0x02], .ok [0xAA, 0x61, 0x01], .error (.transport .cardRemoved)]

/-- The card announces more data again and again. -/
def announcing : Bench.Script := [.ok [0x61, 0x01], .ok [0x61, 0x01]]

/-- A removal in the middle of a chain comes out as a removal, and a chain
without end as an error of its own. -/
theorem faults_surface_continuing :
    (∃ p, (Bench.trial continuing departing [0x00, 0xB0, 0x00, 0x00]).physical[2]? = some p ∧
      p.reply = .error (.transport .cardRemoved) ∧
      ∃ e, (Bench.trial continuing departing [0x00, 0xB0, 0x00, 0x00]).result = .error e ∧
        e.isCardRemoved = true) ∧
    (∀ p ∈ (Bench.trial continuing announcing [0x00, 0xB0, 0x00, 0x00]).physical,
      ∃ raw, p.reply = .ok raw) ∧
    (Bench.trial continuing announcing [0x00, 0xB0, 0x00, 0x00]).result =
      .error (.chainLimit 2) ∧
    (chainLimit 2).root.Found := by
  have hbroken := faults_surface continuing Bench.scripted departing [0x00, 0xB0, 0x00, 0x00]
  have hwhole := faults_surface continuing Bench.scripted announcing [0x00, 0xB0, 0x00, 0x00]
  have hlast : (Bench.trial continuing departing [0x00, 0xB0, 0x00, 0x00]).physical[2]? =
      some ⟨[0x00, 0xC0, 0x00, 0x00, 0x01], .error (.transport .cardRemoved)⟩ := by cbv
  have hphysical : (Bench.trial continuing announcing [0x00, 0xB0, 0x00, 0x00]).physical =
      [⟨[0x00, 0xB0, 0x00, 0x00], .ok [0x61, 0x01]⟩,
        ⟨[0x00, 0xC0, 0x00, 0x00, 0x01], .ok [0x61, 0x01]⟩] := by cbv
  have hresult : (Bench.trial continuing announcing [0x00, 0xB0, 0x00, 0x00]).result =
      .error (.chainLimit 2) := by cbv
  have hok : ∀ p ∈ (Bench.trial continuing announcing [0x00, 0xB0, 0x00, 0x00]).physical,
      ∃ raw, p.reply = .ok raw := by
    rw [hphysical]
    simp
  obtain ⟨-, e, hfails, -, -, -, hremoved, -⟩ := hbroken.1 2 _ _ hlast rfl
  exact ⟨⟨_, hlast, rfl, e, hfails, hremoved⟩, hok, hresult, hwhole.2 hok _ hresult⟩

end Stack

end SmartCard
