import SmartCard.Rendezvous.Sharing
import SmartCard.Proofs.Rendezvous.Closing
import Mathlib.Data.List.Permutation
/-!
# A pending exchange keeps to its own answers

An exchange under the proprietary chain is suspended between its commands,
and while it is, other clients of the session publish commands of their own
and get answers to them. `Standing` says how far the exchange has come, in
terms of its own commands and their answers alone: it waits for the answer to
the last of them, and what it does with it is to follow the chain of the
answers before. What others do to the rendezvous preserves that, because an
answer that was given stays (`Rendezvous.poll_apply_of_some`), and a poll
either publishes what the last answer asks for or leaves the rendezvous alone
(`Polled`).

Polls are atomic here. A session that answers a command while the poll that
published it still runs is one that answers it between that poll and another.
-/

namespace SmartCard

/-! ## Answers last -/

namespace Rendezvous

variable {r : Rendezvous} {t : Ticket} {a : Answer}

/-- **An answer that was given stays what it is**, whatever is done next. -/
theorem poll_apply_of_some (h : r.poll t = some a) (op : Op) :
    (r.apply op).2.poll t = some a := by
  cases op with
  | publish command =>
    rcases publish_cases r command with ⟨-, hr⟩ | ⟨-, e, hr⟩
    · simp only [apply, hr]
      exact h
    · simp only [apply, hr]
      exact h
  | next =>
    rcases next_cases r with ⟨command, t', -, hr⟩ | ⟨-, hr⟩ | ⟨-, hr⟩
    · simp only [apply, hr]
      exact h
    · simp only [apply, hr]
      exact h
    · simp only [apply, hr]
      exact h
  | complete answer =>
    rcases complete_cases r answer with ⟨t', -, hr⟩ | ⟨-, hr⟩
    · simp only [apply, hr]
      exact poll_resolve_of_some h
    · simp only [apply, hr]
      exact h
  | close reason => exact poll_close_of_some h reason
  | poll ticket => exact h
  | forget ticket => exact h

/-- These commands have these answers. -/
def Answered (r : Rendezvous) (commands : List (Ticket × Bytes)) (answers : List Answer) : Prop :=
  commands.map (fun entry => r.poll entry.1) = answers.map some

theorem Answered.length_eq {commands : List (Ticket × Bytes)} {answers : List Answer}
    (h : r.Answered commands answers) : commands.length = answers.length := by
  have hlength := congrArg List.length h
  rwa [List.length_map, List.length_map] at hlength

theorem Answered.apply {commands : List (Ticket × Bytes)} {answers : List Answer}
    (h : r.Answered commands answers) (op : Op) : (r.apply op).2.Answered commands answers := by
  unfold Answered at h ⊢
  rw [← h]
  refine List.map_congr_left fun entry hentry => ?_
  have hmem : r.poll entry.1 ∈ answers.map some := h ▸ List.mem_map_of_mem hentry
  obtain ⟨answer, -, hanswer⟩ := List.mem_map.1 hmem
  rw [← hanswer]
  exact poll_apply_of_some hanswer.symm op

theorem Answered.concat {commands : List (Ticket × Bytes)} {answers : List Answer}
    (h : r.Answered commands answers) {command : Bytes} (ha : r.poll t = some a) :
    r.Answered (commands ++ [(t, command)]) (answers ++ [a]) := by
  unfold Answered at h ⊢
  rw [List.map_append, List.map_append, h, List.map_singleton, ha]
  rfl

/-- A command that has been answered has an answer. -/
theorem Answered.poll_ne_none {commands : List (Ticket × Bytes)} {answers : List Answer}
    (h : r.Answered commands answers) {entry : Ticket × Bytes} (hentry : entry ∈ commands) :
    r.poll entry.1 ≠ none := by
  have hmem : r.poll entry.1 ∈ answers.map some := h ▸ List.mem_map_of_mem hentry
  obtain ⟨answer, -, hanswer⟩ := List.mem_map.1 hmem
  rw [← hanswer]
  exact Option.some_ne_none answer

end Rendezvous

open Rendezvous (Answered publish_cases)

/-! ## The chain of the answers so far -/

namespace Chain

/-- The proprietary chain after these parts. -/
def proprietary (limit : Nat) (parts : List Response) : Chain where
  trigger := StatusWord.proprietarySw1
  limit
  seen := parts.length
  buffer := parts.flatMap Response.data

theorem proprietary_concat (limit : Nat) (parts : List Response) (r : Response) :
    { proprietary limit parts with
      seen := (proprietary limit parts).seen + 1
      buffer := (proprietary limit parts).buffer ++ r.data } =
      proprietary limit (parts ++ [r]) :=
  after_concat StatusWord.proprietarySw1 limit parts r

end Chain

open Chain (proprietary)

/-- **What a chain makes of an answer** that comes after these parts: it goes
on from a response, and reports an error under a context unless it is the
first answer. -/
structure Resumes (limit : Nat) (command : Bytes) (parts : List Response)
    (resume : Reply → Exchange Reply) : Prop where
  ok : ∀ raw, resume (.ok raw) =
    Chain.follow "Failed to submit continuation command" command (proprietary limit parts) raw
  error : ∀ e, resume (.error e) = .done (.error
    (if parts = [] then e else e.withContext "Failed to submit continuation command"))

/-- The answers are the parts of a chain, and this is the response that they make. -/
def Joined (answers : List Answer) (raw : Bytes) : Prop :=
  ∃ parts last, answers = (parts ++ [last]).map (fun r => .ok r.encode) ∧
    (∀ r ∈ parts, r.status.sw1 = 0x9F) ∧ last.status.sw1 ≠ 0x9F ∧
    raw = (parts ++ [last]).flatMap Response.data ++ last.status.bytes

namespace Sharing

/-- An exchange under the proprietary chain before anything has happened. -/
def begun (limit : Nat) (command : Bytes) : Sharing where
  progress := .inr (.submitMoreData limit command)

/-! ## What the exchange wants -/

/-- **The command that the exchange has to publish next**, by its own commands
and their answers: the first one, or the continuation that the answer to the
last one announces. -/
inductive Wants (limit : Nat) (command : Bytes) (s : Sharing) : Bytes → Prop where
  | opening (hown : s.own = []) : Wants limit command s command
  | continuation {earlier : List (Ticket × Bytes)} {t : Ticket} {c : Bytes} {r : Response}
      (hown : s.own = earlier ++ [(t, c)]) (hpoll : s.rendezvous.poll t = some (.ok r.encode))
      (hsw : r.status.sw1 = 0x9F) (hlimit : s.own.length < limit) :
      Wants limit command s (SmartCard.continuation command r.status.announced)

/-- The reason for which the rendezvous accepts no command, if it does not. -/
def refusal? (r : Rendezvous) : Option String :=
  match r.slot with
  | .closed => some "no session is accepting commands"
  | .requested _ _ | .inFlight _ => some "an exchange is already pending"
  | .idle => none

/-- One of the commands of the exchange has been answered. -/
def hasAnswer (s : Sharing) : Bool :=
  s.own.any fun entry => (s.rendezvous.poll entry.1).isSome

/-- The error of an exchange whose command is refused: a context lies over it
once the exchange has had an answer. -/
def refusal (s : Sharing) (reason : String) : ExchangeError :=
  let e := ExchangeError.plain ("Configuration error: " ++ reason)
  if s.hasAnswer then .context "Failed to submit continuation command" e else e

/-- **What one poll can do.** It publishes the command that the exchange wants
if the slot is free, and ends the exchange if it is not. Else it leaves the
rendezvous alone. -/
inductive Polled (limit : Nat) (command : Bytes) (s : Sharing) : Sharing → Prop where
  | published {pending : Pending} {c : Bytes} {resume : Reply → Exchange Reply}
      (hpending : s.progress = .inr pending) (hwants : s.Wants limit command c)
      (hidle : s.rendezvous.slot = .idle) :
      Polled limit command s
        { rendezvous := (s.rendezvous.publish c).2
          progress := .inr (.awaiting s.rendezvous.issued resume)
          own := s.own ++ [(s.rendezvous.issued, c)] }
  | refused {pending : Pending} {c : Bytes} {reason : String}
      (hpending : s.progress = .inr pending) (hwants : s.Wants limit command c)
      (hreason : refusal? s.rendezvous = some reason) :
      Polled limit command s { s with progress := .inl (.error (s.refusal reason)) }
  | quiet {progress : Reply ⊕ Pending}
      (hquiet : (∃ reply, s.progress = .inl reply) ∨ ∀ c, ¬ s.Wants limit command c) :
      Polled limit command s { s with progress }

/-- An exchange that wants a command and is refused has the refusal as its
reply, and everything else is as it was. -/
theorem Polled.eq_of_refusal {limit : Nat} {command c : Bytes} {s s' : Sharing}
    {pending : Pending} {reason : String} (h : s.Polled limit command s')
    (hpending : s.progress = .inr pending) (hwants : s.Wants limit command c)
    (hreason : refusal? s.rendezvous = some reason) :
    s' = { s with progress := .inl (.error (s.refusal reason)) } := by
  cases h with
  | published hpending' hwants' hidle =>
    rw [refusal?, hidle] at hreason
    cases hreason
  | refused hpending' hwants' hreason' =>
    rw [hreason] at hreason'
    cases hreason'
    rfl
  | quiet hquiet =>
    rcases hquiet with ⟨reply, hreply⟩ | hnothing
    · rw [hpending] at hreply
      cases hreply
    · exact absurd hwants (hnothing c)

/-! ## Where the exchange stands -/

/-- The exchange waits for the answer to the last of its commands, after these
parts of a chain. -/
structure Awaits (limit : Nat) (command : Bytes) (s : Sharing) (parts : List Response) (t : Ticket)
    (resume : Reply → Exchange Reply) : Prop where
  progress : s.progress = .inr (.awaiting t resume)
  own : ∃ earlier c, s.own = earlier ++ [(t, c)] ∧
    s.rendezvous.Answered earlier (parts.map fun r => .ok r.encode)
  triggers : ∀ r ∈ parts, r.status.sw1 = 0x9F
  resume : Resumes limit command parts resume

/-- **Where an exchange stands**, by its own commands and their answers. -/
inductive Standing (limit : Nat) (command : Bytes) (s : Sharing) : Prop where
  /-- It was not polled. -/
  | unpolled (hown : s.own = []) (hprogress : s.progress = .inr (.submitMoreData limit command))
  /-- It waits for the answer to the last of its commands. -/
  | awaiting {parts : List Response} {t : Ticket} {resume : Reply → Exchange Reply}
      (hawaits : s.Awaits limit command parts t resume)
  /-- It has its reply, and all its commands were answered. -/
  | finished {reply : Reply} {answers : List Answer} (hprogress : s.progress = .inl reply)
      (hanswered : s.rendezvous.Answered s.own answers)
      (hok : ∀ raw, reply = .ok raw → Joined answers raw)

variable {limit : Nat} {command : Bytes} {s : Sharing}

theorem standing_begun (limit : Nat) (command : Bytes) :
    (begun limit command).Standing limit command :=
  .unpolled rfl rfl

/-- **What others do does not change where the exchange stands.** -/
theorem Standing.other (h : s.Standing limit command) (op : Rendezvous.Op) :
    (s.apply (.other op)).Standing limit command := by
  cases h with
  | unpolled hown hprogress => exact .unpolled hown hprogress
  | awaiting hawaits =>
    obtain ⟨earlier, c, hown, hanswered⟩ := hawaits.own
    exact .awaiting { hawaits with own := ⟨earlier, c, hown, hanswered.apply op⟩ }
  | finished hprogress hanswered hok => exact .finished hprogress (hanswered.apply op) hok

/-! ## Polls -/

theorem accepted_self (r : Rendezvous) : accepted r r = [] := by
  unfold accepted
  split
  · rw [if_pos rfl]
  · rfl
  · rfl
  · rfl

/-- A command that is accepted is seen to be. -/
theorem accepted_publish {r : Rendezvous} (hidle : r.slot = .idle) (c : Bytes) :
    accepted r (r.publish c).2 = [(r.issued, c)] := by
  simp only [Rendezvous.publish, hidle, accepted]
  rw [if_neg (Nat.ne_of_lt (Nat.lt_succ_self _))]

/-- A poll that leaves the rendezvous alone changes the progress only. -/
theorem apply_poll_of_same {pending : Pending} {progress : Reply ⊕ Pending}
    (hprogress : s.progress = .inr pending)
    (hpoll : pending.poll s.rendezvous = (progress, s.rendezvous)) :
    s.apply .poll = { s with progress } := by
  unfold apply
  simp only [hprogress, hpoll, accepted_self, List.append_nil]

/-- A poll that publishes a command adds it to those of the exchange. -/
theorem apply_poll_of_publish {pending : Pending} {c : Bytes} {resume : Reply → Exchange Reply}
    (hprogress : s.progress = .inr pending) (hidle : s.rendezvous.slot = .idle)
    (hpoll : pending.poll s.rendezvous = Pending.advance (.transmit c resume) s.rendezvous) :
    s.apply .poll =
      { rendezvous := (s.rendezvous.publish c).2
        progress := .inr (.awaiting s.rendezvous.issued resume)
        own := s.own ++ [(s.rendezvous.issued, c)] } := by
  have hadvance : Pending.advance (.transmit c resume) s.rendezvous =
      (.inr (.awaiting s.rendezvous.issued resume), (s.rendezvous.publish c).2) := by
    simp only [Pending.advance, Rendezvous.publish, hidle]
  unfold apply
  simp only [hprogress, hpoll, hadvance, accepted_publish hidle]

/-- A command is refused for the reason that the slot gives. -/
theorem publish_of_ne_idle {r : Rendezvous} (h : r.slot ≠ .idle) (c : Bytes) :
    ∃ reason, refusal? r = some reason ∧
      r.publish c = (.error (.configuration reason), r) := by
  unfold refusal? Rendezvous.publish
  cases hslot : r.slot with
  | idle => exact absurd hslot h
  | closed => exact ⟨_, rfl, rfl⟩
  | requested c' t => exact ⟨_, rfl, rfl⟩
  | inFlight t => exact ⟨_, rfl, rfl⟩

/-- A poll whose command is refused goes on with the refusal as its reply. -/
theorem advance_of_refused {r : Rendezvous} {c : Bytes} {e : SessionError}
    {resume : Reply → Exchange Reply} {reply : Reply} (hpublish : r.publish c = (.error e, r))
    (hresume : resume (.error e.toExchange) = .done reply) :
    Pending.advance (.transmit c resume) r = (.inl reply, r) := by
  simp only [Pending.advance, hpublish, hresume]

/-- The exchange has had an answer if it has parts of a chain. -/
theorem hasAnswer_iff {answers : List Answer} (h : s.rendezvous.Answered s.own answers) :
    s.hasAnswer = true ↔ answers ≠ [] := by
  have hany : s.hasAnswer = (answers.map some).any Option.isSome := by
    rw [← h, List.any_map]
    rfl
  rw [hany]
  cases answers with
  | nil => simp
  | cons answer answers => simp

/-- **The exchange publishes what it wants, or is refused**, when all its
commands were answered by parts of a chain. -/
theorem poll_of_wants {pending : Pending} {c : Bytes} {parts : List Response}
    {resume : Reply → Exchange Reply} (hpending : s.progress = .inr pending)
    (hwants : s.Wants limit command c)
    (hpoll : pending.poll s.rendezvous = Pending.advance (.transmit c resume) s.rendezvous)
    (hanswered : s.rendezvous.Answered s.own (parts.map fun r => .ok r.encode))
    (hparts : ∀ r ∈ parts, r.status.sw1 = 0x9F) (hresume : Resumes limit command parts resume) :
    s.Polled limit command (s.apply .poll) ∧ (s.apply .poll).Standing limit command := by
  by_cases hidle : s.rendezvous.slot = .idle
  · rw [apply_poll_of_publish hpending hidle hpoll]
    refine ⟨.published hpending hwants hidle, .awaiting ⟨rfl, ⟨_, c, rfl, ?_⟩, hparts, hresume⟩⟩
    exact hanswered.apply (.publish c)
  · obtain ⟨reason, hreason, hpublish⟩ := publish_of_ne_idle hidle c
    have herror : resume (.error (SessionError.configuration reason).toExchange) =
        .done (.error (s.refusal reason)) := by
      rw [hresume.error, refusal, if_congr (hasAnswer_iff hanswered) rfl rfl]
      by_cases hnil : parts = []
      · rw [if_pos hnil, if_neg (by simp [hnil])]
        rfl
      · rw [if_neg hnil, if_pos (by simpa using hnil)]
        rfl
    rw [apply_poll_of_same hpending (hpoll.trans (advance_of_refused hpublish herror))]
    refine ⟨.refused hpending hwants hreason, .finished rfl hanswered fun raw hraw => ?_⟩
    cases hraw

/-- A chain that is finished joins the parts so far and the last one. -/
theorem joined_of_finished {parts : List Response} {raw response : Bytes}
    (hparts : ∀ r ∈ parts, r.status.sw1 = 0x9F)
    (hstep : (proprietary limit parts).step raw = .ok (.finished response)) :
    Joined ((parts.map fun r => .ok r.encode) ++ [.ok raw]) response := by
  obtain ⟨last, hlast, htrigger, rfl⟩ := Chain.step_finished hstep
  refine ⟨parts, last, ?_, hparts, htrigger, ?_⟩
  · rw [List.map_append, List.map_singleton, Response.encode_of_decode hlast]
  · rw [List.flatMap_append, List.append_assoc]
    simp [proprietary, Response.encode]

namespace Awaits

variable {parts : List Response} {t : Ticket} {resume : Reply → Exchange Reply}

/-- **What the exchange wants is decided by the answer to the last of its
commands**, with which the chain of the answers before goes on. -/
theorem step_of_wants (h : s.Awaits limit command parts t resume) {c : Bytes}
    (hwants : s.Wants limit command c) :
    ∃ raw le rest, s.rendezvous.poll t = some (.ok raw) ∧
      (proprietary limit parts).step raw = .ok (.more le rest) := by
  obtain ⟨earlier, c', hown, hanswered⟩ := h.own
  cases hwants with
  | opening hnil =>
    rw [hown] at hnil
    exact absurd hnil (by simp)
  | @continuation earlier' t' c'' r hown' hpoll hsw hlimit =>
    obtain ⟨-, hlast⟩ := List.append_inj' (hown'.symm.trans hown) rfl
    obtain ⟨rfl, -⟩ : t' = t ∧ c'' = c' := by simpa using hlast
    have hlength := hanswered.length_eq
    rw [List.length_map] at hlength
    rw [hown, List.length_append, hlength] at hlimit
    exact ⟨_, _, _, hpoll, Chain.step_of_trigger hsw hlimit⟩

/-- A poll after which the exchange is done leaves the rendezvous alone. -/
theorem poll_of_done (h : s.Awaits limit command parts t resume) {answer : Answer} {reply : Reply}
    (hanswer : s.rendezvous.poll t = some answer) (hdone : resume answer.toReply = .done reply)
    (hquiet : ∀ c, ¬ s.Wants limit command c)
    (hok : ∀ raw, reply = .ok raw → Joined ((parts.map fun r => .ok r.encode) ++ [answer]) raw) :
    s.Polled limit command (s.apply .poll) ∧ (s.apply .poll).Standing limit command := by
  obtain ⟨earlier, c, hown, hanswered⟩ := h.own
  have hpoll : (Pending.awaiting t resume).poll s.rendezvous = (.inl reply, s.rendezvous) := by
    simp only [Pending.poll, hanswer, hdone, Pending.advance]
  rw [apply_poll_of_same h.progress hpoll]
  refine ⟨.quiet (.inr hquiet), .finished rfl ?_ hok⟩
  change s.rendezvous.Answered s.own _
  rw [hown]
  exact hanswered.concat hanswer

/-- A poll before the answer is there changes nothing. -/
theorem poll_of_none (h : s.Awaits limit command parts t resume)
    (hanswer : s.rendezvous.poll t = none) :
    s.Polled limit command (s.apply .poll) ∧ (s.apply .poll).Standing limit command := by
  have hpoll : (Pending.awaiting t resume).poll s.rendezvous =
      (.inr (.awaiting t resume), s.rendezvous) := by
    simp only [Pending.poll, hanswer]
  rw [apply_poll_of_same h.progress hpoll]
  refine ⟨.quiet (.inr fun c hwants => ?_), .awaiting { h with progress := rfl }⟩
  obtain ⟨raw, le, rest, hraw, -⟩ := h.step_of_wants hwants
  rw [hanswer] at hraw
  cases hraw

/-- **A poll that finds another part** goes on with the command that the part
announces. -/
theorem poll_of_more (h : s.Awaits limit command parts t resume) {raw : Bytes} {le : UInt32}
    {rest : Chain} (hanswer : s.rendezvous.poll t = some (.ok raw))
    (hstep : (proprietary limit parts).step raw = .ok (.more le rest)) :
    s.Polled limit command (s.apply .poll) ∧ (s.apply .poll).Standing limit command := by
  obtain ⟨earlier, c, hown, hanswered⟩ := h.own
  obtain ⟨-, -, hlt⟩ := Chain.step_more hstep
  obtain ⟨r, hr, hsw, rfl, rfl⟩ := Chain.response_of_step_more hstep
  obtain rfl := Response.encode_of_decode hr
  have hlength : s.own.length < limit := by
    have hearlier := hanswered.length_eq
    rw [List.length_map] at hearlier
    rw [hown, List.length_append, hearlier]
    exact hlt
  have hfollow := h.resume.ok r.encode
  rw [Chain.follow_of_more hstep, Chain.proprietary_concat] at hfollow
  have hpoll : (Pending.awaiting t resume).poll s.rendezvous =
      Pending.advance (resume (.ok r.encode)) s.rendezvous := by
    simp only [Pending.poll, hanswer]
    rfl
  rw [hfollow] at hpoll
  have hall : s.rendezvous.Answered s.own ((parts ++ [r]).map fun r => .ok r.encode) := by
    rw [hown, List.map_append]
    exact hanswered.concat hanswer
  refine poll_of_wants h.progress (.continuation hown hanswer hsw hlength) hpoll hall ?_
    ⟨fun raw => rfl, fun e => ?_⟩
  · intro r' hr'
    rcases List.mem_append.1 hr' with hold | hnew
    · exact h.triggers r' hold
    · rw [List.mem_singleton.1 hnew]
      exact hsw
  · rw [if_neg (by simp)]

/-- **A poll while the exchange waits**, by what the answer is. -/
theorem poll (h : s.Awaits limit command parts t resume) :
    s.Polled limit command (s.apply .poll) ∧ (s.apply .poll).Standing limit command := by
  cases hanswer : s.rendezvous.poll t with
  | none => exact h.poll_of_none hanswer
  | some answer =>
    cases answer with
    | error e =>
      refine h.poll_of_done hanswer (h.resume.error _) (fun c hwants => ?_) (fun raw hraw => ?_)
      · obtain ⟨raw, le, rest, hraw, -⟩ := h.step_of_wants hwants
        rw [hanswer] at hraw
        cases hraw
      · cases hraw
    | ok raw =>
      have hgoes : ∀ c, s.Wants limit command c → ∃ le rest,
          (proprietary limit parts).step raw = .ok (.more le rest) := by
        intro c hwants
        obtain ⟨raw', le, rest, hraw', hstep⟩ := h.step_of_wants hwants
        rw [hanswer] at hraw'
        cases hraw'
        exact ⟨le, rest, hstep⟩
      have hfollow := h.resume.ok raw
      cases hstep : (proprietary limit parts).step raw with
      | error e =>
        rw [Chain.follow_of_error hstep] at hfollow
        refine h.poll_of_done hanswer hfollow (fun c hwants => ?_) (fun raw' hraw => ?_)
        · obtain ⟨le, rest, hmore⟩ := hgoes c hwants
          rw [hstep] at hmore
          cases hmore
        · cases hraw
      | ok step =>
        cases step with
        | finished response =>
          rw [Chain.follow_of_finished hstep] at hfollow
          refine h.poll_of_done hanswer hfollow (fun c hwants => ?_) (fun raw' hraw => ?_)
          · obtain ⟨le, rest, hmore⟩ := hgoes c hwants
            rw [hstep] at hmore
            cases hmore
          · cases hraw
            exact joined_of_finished h.triggers hstep
        | more le rest => exact h.poll_of_more hanswer hstep

end Awaits

/-- **What one poll does, and where the exchange stands after it.** -/
theorem Standing.poll (h : s.Standing limit command) :
    s.Polled limit command (s.apply .poll) ∧ (s.apply .poll).Standing limit command := by
  cases h with
  | unpolled hown hprogress =>
    have hnone : s.rendezvous.Answered s.own (([] : List Response).map fun r => .ok r.encode) := by
      rw [hown]
      rfl
    exact poll_of_wants hprogress (.opening hown) rfl hnone (by simp)
      ⟨fun raw => rfl, fun e => rfl⟩
  | awaiting hawaits => exact hawaits.poll
  | finished hprogress hanswered hok =>
    have hsame : s.apply .poll = { s with progress := s.progress } := by
      simp only [apply, hprogress]
    rw [hsame]
    exact ⟨.quiet (.inl ⟨_, hprogress⟩), .finished hprogress hanswered hok⟩

/-! ## Runs -/

theorem run_concat (s : Sharing) (moves : List Move) (move : Move) :
    s.run (moves ++ [move]) = (s.run moves).apply move :=
  List.foldl_concat ..

/-- The exchange stands somewhere after any moves. -/
theorem standing_of_run (limit : Nat) (command : Bytes) (moves : List Move) :
    ((begun limit command).run moves).Standing limit command := by
  induction moves using List.reverseRecOn with
  | nil => exact standing_begun limit command
  | append_singleton moves move ih =>
    rw [run_concat]
    cases move with
    | poll => exact ih.poll.2
    | other op => exact ih.other op

/-- An exchange that is not polled publishes nothing. -/
theorem own_of_unpolled {moves : List Move} (h : .poll ∉ moves) : (s.run moves).own = s.own := by
  induction moves generalizing s with
  | nil => rfl
  | cons move moves ih =>
    rw [List.mem_cons, not_or] at h
    obtain ⟨hmove, hmoves⟩ := h
    cases move with
    | poll => exact absurd rfl hmove
    | other op => exact ih hmoves

/-- Only the last command of the exchange can be without an answer. -/
theorem Standing.outstanding (h : s.Standing limit command) {i : Nat} {entry : Ticket × Bytes}
    (hi : s.own[i]? = some entry) (hnone : s.rendezvous.poll entry.1 = none) :
    i + 1 = s.own.length := by
  cases h with
  | unpolled hown hprogress =>
    rw [hown] at hi
    cases hi
  | awaiting hawaits =>
    obtain ⟨earlier, c, hown, hanswered⟩ := hawaits.own
    rw [hown] at hi ⊢
    rcases Nat.lt_trichotomy i earlier.length with hlt | heq | hgt
    · rw [List.getElem?_append_left hlt] at hi
      exact absurd hnone (hanswered.poll_ne_none (List.mem_of_getElem? hi))
    · rw [heq, List.length_append, List.length_singleton]
    · rw [List.getElem?_eq_none (by simp; omega)] at hi
      cases hi
  | finished hprogress hanswered hok =>
    exact absurd hnone (hanswered.poll_ne_none (List.mem_of_getElem? hi))

/-- An exchange that has no reply waits for the answer to its last command. -/
theorem Standing.waits (h : s.Standing limit command) {pending : Pending}
    {earlier : List (Ticket × Bytes)} {t : Ticket} {c : Bytes}
    (hpending : s.progress = .inr pending) (hown : s.own = earlier ++ [(t, c)]) :
    ∃ resume, pending = .awaiting t resume := by
  cases h with
  | unpolled hnil hprogress =>
    rw [hnil] at hown
    exact absurd hown (by simp)
  | @awaiting parts t' resume hawaits =>
    obtain ⟨earlier', c', hown', -⟩ := hawaits.own
    obtain ⟨-, hlast⟩ := List.append_inj' (hown.symm.trans hown') rfl
    obtain ⟨rfl, -⟩ : t = t' ∧ c = c' := by simpa using hlast
    exact ⟨resume, Sum.inr.inj (hpending.symm.trans hawaits.progress)⟩
  | finished hprogress hanswered hok =>
    rw [hprogress] at hpending
    cases hpending

/-! ## What a run leaves behind -/

/-- What the moves of a run contribute, each in the state in which it is made. -/
def along {α : Type} (f : Sharing → Move → List α) (s : Sharing) : List Move → List α
  | [] => []
  | move :: moves => f s move ++ along f (s.apply move) moves

theorem along_concat {α : Type} (f : Sharing → Move → List α) (s : Sharing) (moves : List Move)
    (move : Move) : along f s (moves ++ [move]) = along f s moves ++ f (s.run moves) move := by
  induction moves generalizing s with
  | nil => exact List.append_nil _
  | cons first moves ih =>
    rw [List.cons_append, along, ih, along, List.append_assoc]
    rfl

/-- The operations that a move comes to: a poll publishes a command or does
nothing to the rendezvous. -/
def operations (s : Sharing) : Move → List Rendezvous.Op
  | .other op => [op]
  | .poll => (accepted s.rendezvous (s.apply .poll).rendezvous).map fun entry => .publish entry.2

/-- The command that a move has accepted for somebody else, with its ticket. -/
def foreign (s : Sharing) : Move → List (Ticket × Bytes)
  | .other op => accepted s.rendezvous (s.rendezvous.apply op).2
  | .poll => []

section Record

open Rendezvous (Op accepted? acceptedIn after history history_concat after_concat
  acceptedIn_concat next_cases complete_cases close_cases Traced fate)

theorem accepted_of_issued_eq {r r' : Rendezvous} (h : r'.issued = r.issued) :
    accepted r r' = [] := by
  unfold accepted
  split
  · rw [if_pos h.symm]
  · rfl
  · rfl
  · rfl

/-- **An operation gives out a ticket for the command that it has accepted**,
and none if it has accepted none. -/
theorem accepted_apply (r : Rendezvous) (op : Op) :
    (∃ c, accepted r (r.apply op).2 = [(r.issued, c)] ∧
      accepted? (op, (r.apply op).1) = some c ∧ (r.apply op).2.issued = r.issued + 1) ∨
    (accepted r (r.apply op).2 = [] ∧ accepted? (op, (r.apply op).1) = none ∧
      (r.apply op).2.issued = r.issued) := by
  have hnothing : accepted? (op, (r.apply op).1) = none → (r.apply op).2.issued = r.issued →
      accepted r (r.apply op).2 = [] ∧ accepted? (op, (r.apply op).1) = none ∧
        (r.apply op).2.issued = r.issued :=
    fun hentry hissued => ⟨accepted_of_issued_eq hissued, hentry, hissued⟩
  cases op with
  | publish command =>
    rcases publish_cases r command with ⟨hidle, hr⟩ | ⟨-, e, hr⟩
    · refine .inl ⟨command, accepted_publish hidle command, ?_, ?_⟩
      · simp only [Rendezvous.apply, hr, accepted?]
      · simp only [Rendezvous.apply, hr]
    · refine .inr (hnothing ?_ ?_)
      · simp only [Rendezvous.apply, hr, accepted?]
      · simp only [Rendezvous.apply, hr]
  | next =>
    refine .inr (hnothing rfl ?_)
    rcases next_cases r with ⟨c, t, -, hr⟩ | ⟨-, hr⟩ | ⟨-, hr⟩
    · simp only [Rendezvous.apply, hr]
    · simp only [Rendezvous.apply, hr]
    · simp only [Rendezvous.apply, hr]
  | complete answer =>
    refine .inr (hnothing rfl ?_)
    rcases complete_cases r answer with ⟨t, -, hr⟩ | ⟨-, hr⟩
    · simp only [Rendezvous.apply, hr, Rendezvous.resolve]
    · simp only [Rendezvous.apply, hr]
  | close reason =>
    refine .inr (hnothing rfl ?_)
    rcases close_cases r reason with ⟨t, -, hr⟩ | ⟨-, hr⟩
    · simp only [Rendezvous.apply, hr, Rendezvous.resolve]
    · simp only [Rendezvous.apply, hr]
  | poll t => exact .inr (hnothing rfl rfl)
  | forget t => exact .inr (hnothing rfl rfl)

/-- **What is left behind by operations**: the rendezvous after them, in which
every ticket belongs to a command of the exchange or of somebody else. -/
structure Recorded (s : Sharing) (others : List (Ticket × Bytes)) (ops : List Op) : Prop where
  rendezvous : s.rendezvous = after {} ops
  tickets : ((s.own ++ others).map Prod.fst).Perm (List.range s.rendezvous.issued)
  commands : ∀ entry ∈ s.own ++ others, (acceptedIn (history {} ops))[entry.1]? = some entry.2

namespace Recorded

variable {s' : Sharing} {others others' : List (Ticket × Bytes)} {ops : List Op}

/-- **One more operation** gives a command that it has accepted to somebody. -/
theorem apply (h : s.Recorded others ops) (op : Op)
    (hrendezvous : s'.rendezvous = (s.rendezvous.apply op).2)
    (hcommands : (s'.own ++ others').Perm
      ((s.own ++ others) ++ accepted s.rendezvous s'.rendezvous)) :
    s'.Recorded others' (ops ++ [op]) := by
  have hlength : (acceptedIn (history {} ops)).length = s.rendezvous.issued := by
    rw [h.rendezvous]
    exact (Traced.poll_eq_fate ops).1.hands.1
  have htickets : ((s'.own ++ others').map Prod.fst).Perm ((s.own ++ others).map Prod.fst ++
      (accepted s.rendezvous (s.rendezvous.apply op).2).map Prod.fst) := by
    rw [← hrendezvous, ← List.map_append]
    exact hcommands.map Prod.fst
  have hentry : acceptedIn (history {} (ops ++ [op])) =
      acceptedIn (history {} ops) ++ (accepted? (op, (s.rendezvous.apply op).1)).toList := by
    rw [history_concat, acceptedIn_concat, h.rendezvous]
  have hold : ∀ entry ∈ s.own ++ others,
      (acceptedIn (history {} (ops ++ [op])))[entry.1]? = some entry.2 := by
    intro entry hmem
    have hget := h.commands entry hmem
    obtain ⟨hlt, -⟩ := List.getElem?_eq_some_iff.1 hget
    rw [hentry, List.getElem?_append_left hlt]
    exact hget
  refine ⟨by rw [hrendezvous, after_concat, h.rendezvous], ?_, ?_⟩
  · rw [hrendezvous]
    rcases accepted_apply s.rendezvous op with ⟨c, haccepted, -, hissued⟩ | ⟨haccepted, -, hissued⟩
    · rw [haccepted] at htickets
      rw [hissued, List.range_succ]
      exact htickets.trans (h.tickets.append_right _)
    · rw [haccepted, List.map_nil, List.append_nil] at htickets
      rw [hissued]
      exact htickets.trans h.tickets
  · intro entry hmem
    rcases List.mem_append.1 (hcommands.subset hmem) with hmem | hmem
    · exact hold entry hmem
    · rw [hrendezvous] at hmem
      rcases accepted_apply s.rendezvous op with ⟨c, haccepted, hc, -⟩ | ⟨haccepted, -, -⟩
      · rw [haccepted, List.mem_singleton] at hmem
        rw [hmem, hentry, hc, ← hlength]
        exact List.getElem?_concat_length
      · rw [haccepted] at hmem
        cases hmem

/-- **One move** adds what it has done. -/
theorem move (h : s.Recorded others ops) (hstanding : s.Standing limit command) (move : Move) :
    (s.apply move).Recorded (others ++ s.foreign move) (ops ++ s.operations move) := by
  cases move with
  | other op =>
    refine h.apply op rfl ?_
    rw [List.append_assoc]
    exact .refl _
  | poll =>
    obtain ⟨hpolled, -⟩ := hstanding.poll
    have hnothing : ∀ {s' : Sharing}, s'.rendezvous = s.rendezvous → s'.own = s.own →
        s'.Recorded (others ++ []) (ops ++
          (accepted s.rendezvous s'.rendezvous).map fun entry => .publish entry.2) := by
      intro s' hrendezvous hown
      rw [hrendezvous, accepted_self, List.map_nil, List.append_nil, List.append_nil]
      exact ⟨hrendezvous.trans h.rendezvous, by rw [hown, hrendezvous]; exact h.tickets,
        by rw [hown]; exact h.commands⟩
    unfold operations foreign
    generalize s.apply .poll = s' at hpolled ⊢
    cases hpolled with
    | quiet hquiet => exact hnothing rfl rfl
    | refused hpending hwants hreason => exact hnothing rfl rfl
    | @published pending c resume hpending hwants hidle =>
      rw [accepted_publish hidle, List.append_nil]
      refine h.apply (.publish c) rfl ?_
      rw [accepted_publish hidle, List.append_assoc, List.append_assoc]
      exact List.perm_append_comm.append_left _

end Recorded

theorem recorded_of_run (limit : Nat) (command : Bytes) (moves : List Move) :
    ((begun limit command).run moves).Recorded
      (along foreign (begun limit command) moves)
      (along operations (begun limit command) moves) := by
  induction moves using List.reverseRecOn with
  | nil => exact ⟨rfl, .refl _, by simp [along, begun, run]⟩
  | append_singleton moves move ih =>
    rw [run_concat, along_concat, along_concat]
    exact ih.move (standing_of_run limit command moves) move

/-! ## Among other clients -/

/-- **An exchange that keeps to its own answers**, after these moves. -/
structure Secluded (limit : Nat) (command : Bytes) (moves : List Move) (s : Sharing) : Prop where
  /-- Nothing is published before the first poll. -/
  unpolled : .poll ∉ moves → s.own = []
  /-- At most one command of the exchange has no answer, and it is the last one. -/
  outstanding : ∀ i entry, s.own[i]? = some entry → s.rendezvous.poll entry.1 = none →
    i + 1 = s.own.length
  /-- As long as it has no reply, it waits for the answer to that one. -/
  waits : ∀ pending earlier t c, s.progress = .inr pending → s.own = earlier ++ [(t, c)] →
    ∃ resume, pending = .awaiting t resume
  /-- A poll publishes what the last own answer asks for, ends the exchange if
  that is refused, and does nothing else to the rendezvous. -/
  polled : s.Polled limit command (s.apply .poll)
  /-- A response is made of the answers to all commands of the exchange, in order. -/
  joined : ∀ raw, s.progress = .inl (.ok raw) →
    ∃ answers, s.rendezvous.Answered s.own answers ∧ Joined answers raw
  /-- Every ticket belongs to the exchange or to somebody else, and to one of them only. -/
  tickets : ((s.own ++ along foreign (begun limit command) moves).map Prod.fst).Perm
    (List.range s.rendezvous.issued)
  /-- The command of a ticket is the one that was accepted with it, and its
  answer is the one that it is due by what was done with the rendezvous. -/
  due : ∀ entry ∈ s.own ++ along foreign (begun limit command) moves,
    (acceptedIn (history {} (along operations (begun limit command) moves)))[entry.1]? =
        some entry.2 ∧
      s.rendezvous.poll entry.1 =
        fate entry.1 (history {} (along operations (begun limit command) moves))

/-- **A chain over a shared handle only ever uses its own answers**, however its
polls are interleaved with what other clients and the session do. -/
theorem secluded (limit : Nat) (command : Bytes) (moves : List Move) :
    Secluded limit command moves ((begun limit command).run moves) := by
  have hstanding := standing_of_run limit command moves
  have hrecorded := recorded_of_run limit command moves
  refine ⟨fun h => own_of_unpolled h, fun i entry hi hnone => hstanding.outstanding hi hnone,
    fun pending earlier t c hpending hown => hstanding.waits hpending hown, hstanding.poll.1,
    fun raw hraw => ?_, hrecorded.tickets, fun entry hentry => ?_⟩
  · cases hstanding with
    | unpolled hown hprogress =>
      rw [hprogress] at hraw
      cases hraw
    | awaiting hawaits =>
      rw [hawaits.progress] at hraw
      cases hraw
    | finished hprogress hanswered hok =>
      rw [hprogress] at hraw
      exact ⟨_, hanswered, hok raw (Sum.inl.inj hraw)⟩
  · have hcommand := hrecorded.commands entry hentry
    obtain ⟨htraced, hfate⟩ := Traced.poll_eq_fate (along operations (begun limit command) moves)
    obtain ⟨hlt, -⟩ := List.getElem?_eq_some_iff.1 hcommand
    rw [htraced.hands.1] at hlt
    refine ⟨hcommand, ?_⟩
    rw [hrecorded.rendezvous]
    exact hfate entry.1 hlt

end Record

/-- Another client has a command answered between two parts of the chain. -/
def interleaved : List Move :=
  [.poll, .other (.publish [0x07]), .other .next, .other (.complete (.ok [0xAA, 0x9F, 0x01])),
    .other (.publish [0x07]), .other .next, .other (.complete (.ok [0xCC, 0x90, 0x00])),
    .poll, .other .next, .other (.complete (.ok [0xBB, 0x90, 0x00])), .poll]

/-- The response has the two parts and nothing of the other client's. -/
theorem secluded_interleaved :
    ((begun 4 [0x00]).run interleaved).progress = .inl (.ok [0xAA, 0xBB, 0x90, 0x00]) ∧
    ((begun 4 [0x00]).run interleaved).own = [(0, [0x00]), (2, [0x00, 0xC0, 0x00, 0x00, 0x01])] ∧
    along foreign (begun 4 [0x00]) interleaved = [(1, [0x07])] ∧
    (∃ answers, ((begun 4 [0x00]).run interleaved).rendezvous.Answered
        ((begun 4 [0x00]).run interleaved).own answers ∧
      Joined answers [0xAA, 0xBB, 0x90, 0x00]) ∧
    -- the slot is taken when the continuation is to be published
    ((begun 4 [0x00]).run (interleaved.take 5)).apply .poll =
      { (begun 4 [0x00]).run (interleaved.take 5) with
        progress := .inl (.error (((begun 4 [0x00]).run (interleaved.take 5)).refusal
          "an exchange is already pending")) } := by
  have hall := secluded 4 [0x00] interleaved
  have hbusy := secluded 4 [0x00] (interleaved.take 5)
  have hprogress : ((begun 4 [0x00]).run interleaved).progress =
      .inl (.ok [0xAA, 0xBB, 0x90, 0x00]) := by cbv
  have hown : ((begun 4 [0x00]).run (interleaved.take 5)).own = [] ++ [(0, [0x00])] := by cbv
  have hlimit : ((begun 4 [0x00]).run (interleaved.take 5)).own.length < 4 := by
    rw [hown]
    decide
  have hpoll : ((begun 4 [0x00]).run (interleaved.take 5)).rendezvous.poll 0 =
      some (.ok (Response.encode ⟨[0xAA], ⟨0x9F, 0x01⟩⟩)) := by cbv
  have hwants : ((begun 4 [0x00]).run (interleaved.take 5)).Wants 4 [0x00]
      (SmartCard.continuation [0x00] (StatusWord.announced ⟨0x9F, 0x01⟩)) :=
    .continuation (r := ⟨[0xAA], ⟨0x9F, 0x01⟩⟩) hown hpoll rfl hlimit
  exact ⟨hprogress, by cbv, by cbv, hall.joined _ hprogress,
    hbusy.polled.eq_of_refusal rfl hwants rfl⟩

end Sharing

end SmartCard
