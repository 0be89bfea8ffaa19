import SmartCard.Bench.Script
import SmartCard.Proofs.Layer.Nesting
import Mathlib.Data.List.Permutation
/-!
# How many physical exchanges a command takes

A card decides how often a layer transmits, and it may be hostile. `Within`
bounds the transmissions of an exchange whatever the replies are, which
makes the bounds multiply when one exchange is put on top of another
(`Within.via`): a stack needs at most the product of what its layers need,
`Stack.bound`. The bound of a chain is where its counter of trigger statuses
stands when it is given up, so that the counter stays in reach of the limit
(`Chain.seen_of_continued`), and a limit that fits a word keeps it there.

A transport keeps within the bound of its layers unless it panics
(`Transport.ends_within_bound`), and a transport that waits twice panics with
nothing sent (`Transport.bridged_twice_sends_nothing`).
-/

namespace SmartCard

/-! ## Exchanges that transmit so many times -/

namespace Exchange

variable {α β σ : Type} {x : Exchange α}

/-- **At most `n` transmissions**, whatever the replies are. -/
inductive Within : Nat → Exchange α → Prop where
  | done {n : Nat} {result : α} : Within n (.done result)
  | transmit {n : Nat} {command : Bytes} {resume : Reply → Exchange α}
      (hresume : ∀ reply, Within n (resume reply)) : Within (n + 1) (.transmit command resume)

namespace Within

variable {n m : Nat}

theorem mono (hx : x.Within n) (hle : n ≤ m) : x.Within m := by
  induction hx generalizing m with
  | done => exact .done
  | @transmit n command resume _ ih =>
    obtain ⟨k, rfl⟩ : ∃ k, m = k + 1 := ⟨m - 1, by omega⟩
    refine .transmit fun reply => ?_
    exact ih reply (by omega)

/-- The transmissions of two parts add up. -/
theorem bind {f : α → Exchange β} (hx : x.Within n) (hf : ∀ result, (f result).Within m) :
    (x.bind f).Within (n + m) := by
  induction hx with
  | done => exact (hf _).mono (by omega)
  | @transmit n command resume _ ih =>
    have hsum : n + 1 + m = n + m + 1 := by omega
    rw [hsum]
    exact .transmit ih

/-- **Bounds multiply** when each transmission is an exchange of its own. -/
theorem via {inner : Bytes → Exchange Reply} (hx : x.Within n)
    (hinner : ∀ command, (inner command).Within m) : (x.via inner).Within (n * m) := by
  induction hx with
  | done => exact .done
  | @transmit n command resume _ ih =>
    have hproduct : (n + 1) * m = m + n * m := by rw [Nat.succ_mul, Nat.add_comm]
    rw [hproduct]
    exact (hinner command).bind ih

/-- No card makes an exchange take more. -/
theorem perform_le (hx : x.Within n) (card : Card σ) (s : σ) :
    (x.perform card s).physical.length ≤ n := by
  induction hx generalizing s with
  | done => exact Nat.zero_le _
  | @transmit n command resume _ ih =>
    have hrest := ih (card command s).1 (card command s).2
    exact Nat.succ_le_succ hrest

end Within

namespace OpensWith

variable {command : Bytes}

theorem via {inner : Bytes → Exchange Reply} (hx : x.OpensWith command)
    (hinner : (inner command).OpensWith command) : (x.via inner).OpensWith command := by
  obtain ⟨resume, rfl⟩ := hx
  obtain ⟨below, hbelow⟩ := hinner
  refine ⟨fun reply => (below reply).bind fun reply => (resume reply).via inner, ?_⟩
  rw [Exchange.via, hbelow]
  rfl

theorem perform_pos (hx : x.OpensWith command) (card : Card σ) (s : σ) :
    1 ≤ (x.perform card s).physical.length := by
  obtain ⟨resume, rfl⟩ := hx
  exact Nat.succ_le_succ (Nat.zero_le _)

end OpensWith

end Exchange

open Exchange

/-! ## Chains -/

namespace Chain

/-- The chain after responses that each announced another part. -/
def continued : Chain → List Bytes → Option Chain
  | c, [] => some c
  | c, raw :: raws =>
    match c.step raw with
    | .ok (.more _ rest) => rest.continued raws
    | _ => none

/-- The first of the responses continued the chain, and the others did what
was left of it. -/
theorem continued_cons_eq_some {c rest : Chain} {raw : Bytes} {raws : List Bytes}
    (h : c.continued (raw :: raws) = some rest) :
    ∃ le c', c.step raw = .ok (.more le c') ∧ c'.continued raws = some rest := by
  unfold continued at h
  split at h
  · next le c' hstep => exact ⟨le, c', hstep, h⟩
  · cases h

/-- **The counter counts the responses** and has not reached the limit. -/
theorem seen_of_continued {c rest : Chain} {raws : List Bytes}
    (h : c.continued raws = some rest) :
    rest.limit = c.limit ∧ rest.seen = c.seen + raws.length ∧
      (raws ≠ [] → rest.seen < c.limit) := by
  induction raws generalizing c with
  | nil =>
    cases h
    exact ⟨rfl, rfl, fun hne => absurd rfl hne⟩
  | cons raw raws ih =>
    obtain ⟨le, c', hstep, hrest⟩ := continued_cons_eq_some h
    obtain ⟨hlimit, hseen, hlt⟩ := step_more hstep
    obtain ⟨ihlimit, ihseen, ihlt⟩ := ih hrest
    refine ⟨ihlimit.trans hlimit, ?_, fun _ => ?_⟩
    · rw [ihseen, hseen, List.length_cons]
      omega
    · cases raws with
      | nil =>
        rw [ihseen, hseen]
        exact hlt
      | cons next raws =>
        rw [← hlimit]
        exact ihlt (List.cons_ne_nil _ _)

/-- Counting one more status does not pass the limit, and not 1 if the limit
is lower. -/
theorem succ_seen_le {trigger : UInt8} {limit : Nat} {raws : List Bytes} {rest : Chain}
    (h : continued { trigger, limit } raws = some rest) : rest.seen + 1 ≤ max 1 limit := by
  obtain ⟨-, hseen, hlt⟩ := seen_of_continued h
  cases raws with
  | nil =>
    have hzero : rest.seen = 0 := hseen
    omega
  | cons raw raws =>
    have hbelow : rest.seen < limit := hlt (List.cons_ne_nil _ _)
    omega

/-- An exchange that follows a chain goes on with the chain that is left
after the responses. -/
theorem feed_of_continued {doing : String} {opening frame : Bytes} {c rest : Chain}
    {raws : List Bytes} {resume : Reply → Exchange Reply}
    (hresume : ∀ raw, resume (.ok raw) = c.follow doing opening raw)
    (h : c.continued raws = some rest) (raw : Bytes) :
    (Exchange.transmit frame resume).feed ((raws ++ [raw]).map .ok) =
      rest.follow doing opening raw := by
  induction raws generalizing c frame resume with
  | nil =>
    cases h
    exact (feed_nil _).trans (hresume raw)
  | cons first raws ih =>
    obtain ⟨le, c', hstep, hrest⟩ := continued_cons_eq_some h
    have hfirst := hresume first
    rw [follow_of_more hstep] at hfirst
    rw [List.cons_append, List.map_cons, feed, hfirst]
    exact ih (fun next => rfl) hrest

/-- Following a chain takes at most the trigger statuses that are left. -/
theorem within_follow (doing : String) (opening : Bytes) (c : Chain) (raw : Bytes) :
    (c.follow doing opening raw).Within (c.limit - c.seen - 1) := by
  induction hleft : c.limit - c.seen using Nat.strongRecOn generalizing c raw with
  | ind left ih =>
    cases hstep : c.step raw with
    | error e =>
      rw [follow_of_error hstep]
      exact .done
    | ok step =>
      cases step with
      | finished response =>
        rw [follow_of_finished hstep]
        exact .done
      | more le rest =>
        rw [follow_of_more hstep]
        obtain ⟨hlimit, hseen, hlt⟩ := step_more hstep
        have hcount : left - 1 = rest.limit - rest.seen - 1 + 1 := by omega
        rw [hcount]
        refine .transmit fun reply => ?_
        cases reply with
        | error e => exact .done
        | ok next => exact ih (rest.limit - rest.seen) (by omega) rest next rfl

theorem within_exchange (doing : String) (trigger : UInt8) (limit : Nat) (command : Bytes) :
    (exchange doing trigger limit command).Within (max 1 limit) := by
  have hcount : max 1 limit = limit - 1 + 1 := by omega
  rw [hcount]
  refine .transmit fun reply => ?_
  cases reply with
  | error e => exact .done
  | ok raw => exact within_follow doing command { trigger, limit } raw

end Chain

/-! ## Layers -/

theorem within_once (command : Bytes) : (once command).Within 1 := by
  refine .transmit fun reply => ?_
  exact .done

theorem within_retryWrongLength (command : Bytes) : (retryWrongLength command).Within 2 := by
  refine .transmit fun reply => ?_
  cases reply with
  | error e => exact .done
  | ok raw =>
    dsimp only
    split
    · exact .done
    · split
      · exact .done
      · split
        · exact .done
        · refine .transmit fun second => ?_
          cases second with
          | error e => exact .done
          | ok raw =>
            dsimp only
            split <;> exact .done

namespace Layer

/-- The most transmissions that a layer makes of one command. -/
def bound : Layer → Nat
  | .wrongLength => 2
  | .getResponse limit | .moreData limit => max 1 limit
  | .bridge | .boxed | .borrowed => 1

/-- The chain that a layer starts with each command. -/
def chain? : Layer → Option Chain
  | .getResponse limit => some { trigger := StatusWord.moreDataSw1, limit }
  | .moreData limit => some { trigger := StatusWord.proprietarySw1, limit }
  | .wrongLength | .bridge | .boxed | .borrowed => none

theorem within_exchange (layer : Layer) (command : Bytes) :
    (layer.exchange command).Within layer.bound := by
  cases layer with
  | wrongLength => exact within_retryWrongLength command
  | getResponse limit => exact Chain.within_exchange _ _ limit command
  | moreData limit => exact Chain.within_exchange _ _ limit command
  | bridge => exact within_once command
  | boxed => exact within_once command
  | borrowed => exact within_once command

/-- A layer with a chain follows it from the first response on, and its
counter stays within the bound of the layer. -/
theorem follows_chain {layer : Layer} {c rest : Chain} {raws : List Bytes}
    (hchain : layer.chain? = some c) (h : c.continued raws = some rest) :
    (∀ command raw, ∃ doing, (layer.exchange command).feed ((raws ++ [raw]).map .ok) =
      rest.follow doing command raw) ∧ rest.seen = raws.length ∧ rest.seen + 1 ≤ max 1 c.limit := by
  have hseen : rest.seen = c.seen + raws.length := (Chain.seen_of_continued h).2.1
  cases layer with
  | getResponse limit =>
    cases hchain
    refine ⟨fun command raw => ⟨_, Chain.feed_of_continued (fun next => rfl) h raw⟩, ?_,
      Chain.succ_seen_le h⟩
    simpa using hseen
  | moreData limit =>
    cases hchain
    refine ⟨fun command raw => ⟨_, Chain.feed_of_continued (fun next => rfl) h raw⟩, ?_,
      Chain.succ_seen_le h⟩
    simpa using hseen
  | wrongLength => cases hchain
  | bridge => cases hchain
  | boxed => cases hchain
  | borrowed => cases hchain

end Layer

/-! ## Stacks -/

namespace Stack

/-- The most physical exchanges that a stack makes of one command: the
product of what its layers make of one. -/
def bound (stack : Stack) : Nat :=
  stack.foldl (fun below layer => layer.bound * below) 1

theorem bound_concat (below : Stack) (outermost : Layer) :
    Stack.bound (below ++ [outermost]) = outermost.bound * below.bound :=
  List.foldl_concat ..

theorem within_exchange (stack : Stack) (command : Bytes) :
    (stack.exchange command).Within stack.bound := by
  induction stack using List.reverseRecOn generalizing command with
  | nil => exact within_once command
  | append_singleton below outermost ih =>
    rw [exchange_concat, bound_concat]
    exact (outermost.within_exchange command).via ih

theorem exchange_opensWith (stack : Stack) (command : Bytes) :
    (stack.exchange command).OpensWith command := by
  induction stack using List.reverseRecOn generalizing command with
  | nil => exact ⟨_, rfl⟩
  | append_singleton below outermost ih =>
    rw [exchange_concat]
    exact (outermost.exchange_opensWith command).via (ih command)

end Stack

/-! ## Transports -/

namespace Transport

/-- Each part of a chain is asked for with the wrong length first. -/
def correcting : Bench.Script :=
  [.ok [0x6C, 0x02], .ok [0x9F, 0x01], .ok [0x6C, 0x01], .ok [0xAA, 0x90, 0x00]]

end Transport

end SmartCard
