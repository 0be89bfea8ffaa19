import SmartCard.Proofs.Runner.Turns
/-!
# What a session has come to

A session of a runner is used by three parties at once: the runner's thread,
the watch, and the clients that publish commands. `Sound` is what holds of
it at every moment, for the stage at which the runner's thread stands in it.
Its first part, `Orderly`, is about the latch, the tickets and the answers,
and does not look at the stage; the others say what the log of transmissions
has to do with the stage.

`Sound.turn`, `Sound.watch` and `Sound.publish` are the steps of the three
parties.
-/

namespace SmartCard

/-- What a failed exchange makes of its session. -/
def Outcome.ofError (e : ExchangeError) : Outcome :=
  if e.isCardRemoved then .removed else .fault (.transport e)

theorem Outcome.ofError_ne_cancelled (e : ExchangeError) :
    Outcome.ofError e ≠ .fault .cancelled := by
  unfold ofError
  split <;> nofun

namespace Runner

open Conclusion

/-! ## Transmissions -/

namespace Transmission

/-- Why a transmission failed, if it did. A response without room for a
status word is a failure. -/
def failure? (t : Transmission) : Option ExchangeError :=
  match t.result with
  | none => none
  | some (.error e) => some e
  | some (.ok raw) => if raw.length < 2 then some (.incomplete raw.length) else none

/-- A transmission that has come back with a response. -/
def Succeeded (t : Transmission) : Prop :=
  ∃ raw, t.result = some (.ok raw) ∧ 2 ≤ raw.length

theorem Succeeded.failure?_eq_none {t : Transmission} (h : t.Succeeded) : t.failure? = none := by
  obtain ⟨raw, hresult, hlength⟩ := h
  rw [failure?, hresult]
  exact if_neg (Nat.not_lt.2 hlength)

end Transmission

/-- A response of two bytes has a status word, and a shorter one has none. -/
theorem decode_eq (raw : Bytes) :
    (raw.length < 2 ∧ Response.decode raw = .error (.incomplete raw.length)) ∨
      (2 ≤ raw.length ∧ ∃ r, Response.decode raw = .ok r) := by
  unfold Response.decode
  have hlength := raw.length_reverse
  cases hraw : raw.reverse with
  | nil =>
    rw [hraw] at hlength
    exact .inl ⟨by simp [← hlength], rfl⟩
  | cons sw2 rest =>
    cases rest with
    | nil =>
      rw [hraw] at hlength
      exact .inl ⟨by simp [← hlength], rfl⟩
    | cons sw1 data =>
      rw [hraw] at hlength
      exact .inr ⟨by simp [← hlength], _, rfl⟩

/-- **What a runner makes of a result**: a response is the answer, and a
failure is lifted out of the exchange. -/
theorem answerOf_cases (t : Transmission) {result : Reply} (hresult : t.result = some result) :
    (∃ raw, Machine.answerOf result = .ok raw ∧ t.result = some (.ok raw) ∧ 2 ≤ raw.length) ∨
      ∃ e, t.failure? = some e ∧ Machine.answerOf result = .error (.ofExchange e) := by
  unfold Machine.answerOf Transmission.failure?
  rw [hresult]
  cases result with
  | error e => exact .inr ⟨e, rfl, rfl⟩
  | ok raw =>
    rcases decode_eq raw with ⟨hshort, hdecode⟩ | ⟨hlong, r, hdecode⟩
    · exact .inr ⟨_, if_pos hshort, by simp only [hdecode]⟩
    · exact .inl ⟨raw, by simp only [hdecode], rfl, hlong⟩

/-- A failure ends its session as the failure says. -/
theorem outcomeOf_ofExchange (e : ExchangeError) :
    Machine.outcomeOf (.ofExchange e) = .ofError e := by
  unfold SessionError.ofExchange Outcome.ofError
  split <;> rfl

/-- An outcome that a watch gives is a removal or a failure of the reader. -/
theorem watch_outcome_ne_cancelled {answer : Except ExchangeError Bool} {o : Outcome}
    (h : Watch.outcome? answer = some o) : o ≠ .fault .cancelled := by
  unfold Watch.outcome? at h
  split at h
  · cases h
  · cases h
    nofun
  · cases h
    exact Outcome.ofError_ne_cancelled _

/-! ## The latch, the tickets and the answers -/

/-- The call that the runner's thread makes in a stage. -/
def Stage.calls : Option Stage → List Conclusion
  | some (.concluding call) => [call]
  | _ => []

/-- The ticket that the runner's thread is about to resolve in a stage. -/
def Stage.loose : Option Stage → List Ticket
  | some (.resolving ticket _) => [ticket]
  | _ => []

/-- Where the runner's thread can panic, it concludes nothing and has a ticket of nobody. -/
theorem Stage.idle_of_canPanic {stage : Stage} (h : stage.canPanic = true) :
    Stage.calls (some stage) = [] ∧ Stage.loose (some stage) = [] := by
  rcases Stage.cases_of_canPanic h with ⟨slice, rfl⟩ | ⟨command, resume, rfl⟩ <;>
    exact ⟨rfl, rfl⟩

/-- The call that a watch makes at a point. -/
def Watch.Point.calls : Watch.Point → List Conclusion
  | .concluding call => [call]
  | _ => []

namespace Sitting

/-- The call that the watch makes to conclude the session. -/
def watching (x : Sitting) : List Conclusion :=
  x.watch.elim [] fun w => w.point.calls

/-- The calls that are being made to conclude the session. -/
def calls (x : Sitting) (stage : Option Stage) : List Conclusion :=
  Stage.calls stage ++ x.watching

/-- **What the answer to a ticket has to be**: the response that its own
transmission brought, or the reason of the verdict. -/
def Due (x : Sitting) (calls : List Conclusion) (t : Ticket) : Answer → Prop
  | .ok raw => ∃ T, x.transmissions[t]? = some T ∧ T.result = some (.ok raw) ∧ 2 ≤ raw.length
  | .error e => ∃ o, x.session.verdict calls = some o ∧ e = o.reason

/-- A session with the calls made and the tickets that are about to be resolved. -/
structure Orderly (x : Sitting) (calls : List Conclusion) (loose : List Ticket) : Prop where
  lawful : x.session.Lawful calls
  /-- Nobody takes a cancellation for a failure. -/
  plain : ∀ call ∈ calls, call.outcome ≠ .fault .cancelled
  recorded : x.session.outcome ≠ some (.fault .cancelled)
  accounted : x.session.rendezvous.Accounted (calls.flatMap outstanding ++ loose)
  hands : x.session.rendezvous.Hands x.accepted (x.transmissions.map Transmission.command)
  answers : ∀ t a, x.session.rendezvous.poll t = some a → x.Due calls t a

variable {x : Sitting} {calls others : List Conclusion} {loose : List Ticket}
variable {call call' : Conclusion} {s' : Session} {queued : List Event} {t : Ticket} {a : Answer}

/-- What is due stays due when the log grows and the verdict stays. -/
theorem Due.mono {x' : Sitting} {calls' : List Conclusion} (h : x.Due calls t a)
    (hlog : ∀ T raw, x.transmissions[t]? = some T → T.result = some (.ok raw) →
      ∃ T', x'.transmissions[t]? = some T' ∧ T'.result = some (.ok raw))
    (hverdict : ∀ o, x.session.verdict calls = some o → x'.session.verdict calls' = some o) :
    x'.Due calls' t a := by
  cases a with
  | ok raw =>
    obtain ⟨T, hT, hresult, hlength⟩ := h
    obtain ⟨T', hT', hresult'⟩ := hlog T raw hT hresult
    exact ⟨T', hT', hresult', hlength⟩
  | error e =>
    obtain ⟨o, ho, he⟩ := h
    exact ⟨o, hverdict o ho, he⟩

namespace Orderly

/-- The order in which the calls were made does not matter. -/
theorem perm (h : x.Orderly calls loose) {calls' : List Conclusion} (hp : calls.Perm calls') :
    x.Orderly calls' loose where
  lawful := h.lawful.perm hp
  plain := fun call hcall => h.plain call (hp.mem_iff.2 hcall)
  recorded := h.recorded
  accounted := h.accounted.congr ((hp.flatMap_right outstanding).append_right loose)
  hands := h.hands
  answers := fun t a ha => (h.answers t a ha).mono (fun T _ hT hresult => ⟨T, hT, hresult⟩)
    fun _ ho => (h.lawful.verdict_perm hp).trans ho

/-- Of the watch only its call matters. -/
theorem rewatch (h : x.Orderly calls loose) (watch : Option Watch) :
    Orderly { x with watch } calls loose :=
  ⟨h.lawful, h.plain, h.recorded, h.accounted, h.hands, h.answers⟩

/-- A call that seeks the latch changes nothing yet. -/
theorem seek (h : x.Orderly calls loose) {o : Outcome} (ho : o ≠ .fault .cancelled) :
    x.Orderly (.seeking o :: calls) loose where
  lawful := h.lawful.seek o
  plain := List.forall_mem_cons.2 ⟨ho, h.plain⟩
  recorded := h.recorded
  accounted := h.accounted
  hands := h.hands
  answers := h.answers

/-- A call that has returned can be forgotten. -/
theorem forget {o : Outcome} (h : x.Orderly (.returned o :: calls) loose) :
    x.Orderly calls loose where
  lawful := h.lawful.forget
  plain := (List.forall_mem_cons.1 h.plain).2
  recorded := h.recorded
  accounted := h.accounted
  hands := h.hands
  answers := h.answers

/-- **A step of a call** keeps everything in order. -/
theorem advance (h : x.Orderly (call :: others) loose)
    (hs : x.session.Advances call s' call' queued) :
    Orderly { x with session := s' } (call' :: others) loose := by
  obtain ⟨hcall, hothers⟩ := List.forall_mem_cons.1 h.plain
  have hverdict := h.lawful.verdict_advance hs
  refine ⟨h.lawful.advance hs, List.forall_mem_cons.2 ⟨?_, hothers⟩, ?_, ?_, hs.hands h.hands, ?_⟩
  · rcases hs.outcome_eq with heq | ⟨r, hr, rfl⟩
    · rwa [heq]
    · exact fun heq => h.recorded (heq ▸ hr)
  · rcases hs.recorded with heq | heq
    · exact heq ▸ h.recorded
    · exact heq ▸ fun heq' => hcall (Option.some.inj heq')
  · have haccounted := h.accounted
    rw [List.flatMap_cons, List.append_assoc] at haccounted ⊢
    exact hs.accounted haccounted
  · -- a step answers a ticket only with the reason of its own call
    intro t a ha
    rcases hs.poll t with heq | ⟨o, rfl, -, hanswer⟩
    · refine (h.answers t a (heq ▸ ha)).mono (fun T _ hT hresult => ⟨T, hT, hresult⟩) ?_
      intro o ho
      rw [hverdict, ho, Option.some_or]
    · obtain rfl : a = .error o.reason := Option.some.inj (ha.symm.trans hanswer)
      refine ⟨o, ?_, rfl⟩
      rw [hverdict, (h.lawful.verdict_of_closing List.mem_cons_self).1, Option.some_or]

/-- A client publishes a command. -/
theorem publish (h : x.Orderly calls loose) (command : Bytes) :
    (x.publish command).Orderly calls loose := by
  have hclosed := x.session.rendezvous.publish_slot_closed command
  have haccounted := h.accounted.publish command
  unfold Sitting.publish
  rcases x.session.rendezvous.publish_cases command with ⟨hidle, hr⟩ | ⟨-, e, hr⟩
  · rw [hr] at hclosed haccounted ⊢
    exact ⟨h.lawful.onRendezvous hclosed, h.plain, h.recorded, haccounted,
      h.hands.publish_ok hidle command, h.answers⟩
  · rw [hr]
    exact h

/-- The runner takes a command. -/
theorem take (h : x.Orderly calls loose) {command : Bytes}
    (hslot : x.session.rendezvous.slot = .requested command t) :
    (x.take command { x.session.rendezvous with slot := .inFlight t }).Orderly calls loose := by
  have hclosed := x.session.rendezvous.next_slot_closed
  have haccounted := h.accounted.next
  have hnext : x.session.rendezvous.next.2 = { x.session.rendezvous with slot := .inFlight t } := by
    simp only [Rendezvous.next, hslot]
  rw [hnext] at hclosed haccounted
  refine ⟨h.lawful.onRendezvous hclosed, h.plain, h.recorded, haccounted, ?_, ?_⟩
  · have hhands := h.hands.next_command hslot
    simpa [Sitting.take, Slot.ticket?, onRendezvous] using hhands
  · intro t' a ha
    refine (h.answers t' a ha).mono (fun T _ hT hresult => ⟨T, ?_, hresult⟩) fun _ ho => ho
    obtain ⟨hlt, -⟩ := List.getElem?_eq_some_iff.1 hT
    exact (List.getElem?_append_left hlt).trans hT

/-- The runner frees the slot of the command that it took. -/
theorem release (h : x.Orderly calls []) (hslot : x.session.rendezvous.slot = .inFlight t) :
    (x.onRendezvous fun r => { r with slot := .idle }).Orderly calls [t] := by
  have hclosed := x.session.rendezvous.release_slot_closed
  have hrelease : x.session.rendezvous.release =
      (some t, { x.session.rendezvous with slot := .idle }) := by
    simp only [Rendezvous.release, hslot]
  have haccounted := h.accounted.release hrelease
  rw [hrelease] at hclosed
  refine ⟨h.lawful.onRendezvous hclosed, h.plain, h.recorded, ?_, h.hands.idle hslot, h.answers⟩
  refine haccounted.congr ?_
  rw [List.append_nil]
  exact (List.perm_append_singleton _ _).symm

/-- The runner resolves a ticket with what is due. -/
theorem resolve (h : x.Orderly calls [t]) (hdue : x.Due calls t a) :
    (x.onRendezvous fun r => r.resolve t a).Orderly calls [] := by
  refine ⟨h.lawful.onRendezvous Iff.rfl, h.plain, h.recorded, ?_, h.hands.resolve t a, ?_⟩
  · rw [List.append_nil]
    refine Rendezvous.Accounted.resolve (h.accounted.congr ?_) a
    exact List.perm_append_singleton _ _
  · intro t' a' ha'
    change (x.session.rendezvous.resolve t a).poll t' = some a' at ha'
    cases hpoll : x.session.rendezvous.poll t' with
    | some a'' =>
      rw [Rendezvous.poll_resolve_of_some hpoll] at ha'
      exact h.answers t' a' (hpoll.trans ha')
    | none =>
      rw [Rendezvous.poll_resolve, hpoll, Option.none_or] at ha'
      split at ha'
      · next heq =>
        cases ha'
        exact heq ▸ hdue
      · cases ha'

/-- The log of a transmission that is under way goes on. -/
theorem onLast (h : x.Orderly calls loose) {earlier : List Transmission} {T : Transmission}
    (hlast : x.transmissions = earlier ++ [T]) (hresult : T.result = none)
    {change : Transmission → Transmission} (hcommand : (change T).command = T.command) :
    (x.onLast change).Orderly calls loose := by
  have hlog : (x.onLast change).transmissions = earlier ++ [change T] := by
    simp [Sitting.onLast, hlast]
  refine ⟨h.lawful, h.plain, h.recorded, h.accounted, ?_, ?_⟩
  · have hcommands : (x.onLast change).transmissions.map Transmission.command =
        x.transmissions.map Transmission.command := by
      rw [hlog, hlast, List.map_append, List.map_append, List.map_singleton, List.map_singleton,
        hcommand]
    exact hcommands ▸ h.hands
  · intro t a ha
    refine (h.answers t a ha).mono (fun T' raw hT' hresult' => ⟨T', ?_, hresult'⟩) fun _ ho => ho
    rw [hlast] at hT'
    rw [hlog]
    rcases Nat.lt_or_ge t earlier.length with hlt | hge
    · rw [List.getElem?_append_left hlt] at hT' ⊢
      exact hT'
    · -- the last transmission has no result yet
      rw [List.getElem?_append_right hge] at hT'
      rw [List.mem_singleton.1 (List.mem_of_getElem? hT'), hresult] at hresult'
      cases hresult'

end Orderly

/-! ## The stage of the runner -/

/-- All of these transmissions have come back with a response. -/
def Clean (transmissions : List Transmission) : Prop :=
  ∀ T ∈ transmissions, T.Succeeded

/-- An outcome is the one that a failed transmission makes of the session, if
there is one. -/
def Blames (x : Sitting) (o : Outcome) : Prop :=
  ∀ T ∈ x.transmissions, ∀ e, T.failure? = some e → o = .ofError e

/-- **What the stage of the runner's thread says of the session.** Commands
are taken only while all transmissions so far have succeeded; the one under
way is the last; and one that has failed is what the runner concludes the
session with. -/
def Fits (config : Config) (x : Sitting) : Option Stage → Prop
  | none => True
  | some .opened | some .announcing | some .hiring =>
    x.watch = none ∧ x.session.outcome = none ∧ x.transmissions = []
  | some .looping | some .timing | some (.listening _) | some (.asleep _) => Clean x.transmissions
  | some .inquiring => Clean x.transmissions ∧ x.session.rendezvous.slot = .closed
  | some (.exchanging rest) => ∃ earlier T, x.transmissions = earlier ++ [T] ∧ Clean earlier ∧
      T.result = none ∧ (config.stack.exchange T.command).feed T.replies = rest
  | some (.answering answer) => ∃ earlier T result, x.transmissions = earlier ++ [T] ∧
      Clean earlier ∧ T.result = some result ∧ Machine.answerOf result = answer
  | some (.resolving t answer) => Clean x.transmissions ∧ ∃ raw T, answer = .ok raw ∧
      x.transmissions[t]? = some T ∧ T.result = some (.ok raw) ∧ 2 ≤ raw.length
  | some (.concluding call) => x.Blames call.outcome
  | some (.dismissing o) | some (.interrupting o) | some (.joining o) =>
    x.session.outcome = some o
  | some (.served o) => x.session.outcome = some o ∧ ∀ w, x.watch = some w → w.point = .gone

/-- The runner's thread has not taken the latch of the session. -/
def Unclaimed : Option Stage → Prop
  | none | some (.dismissing _) | some (.interrupting _) | some (.joining _)
  | some (.served _) => False
  | some (.concluding call) => ∃ o, call = .seeking o
  | _ => True

/-- **What holds of a session at every moment**, for the stage at which the
runner's thread stands in it. Whether the watch was the first to take the
latch is `preempted`. -/
structure Sound (config : Config) (preempted : Prop) (stage : Option Stage) (x : Sitting) :
    Prop where
  orderly : x.Orderly (x.calls stage) (Stage.loose stage)
  /-- Commands are taken in the order of their tickets. -/
  tickets : x.transmissions.map Transmission.ticket = List.range x.transmissions.length
  /-- A result is what the layers make of the replies. -/
  carried : ∀ T ∈ x.transmissions, ∀ result, T.result = some result →
    (config.stack.exchange T.command).feed T.replies = .done result
  /-- Only the last transmission can be without a response. -/
  clean : Clean x.transmissions.dropLast
  fits : x.Fits config stage
  quiet : ¬ preempted → Unclaimed stage → x.session.verdict (x.calls stage) = none
  blame : ¬ preempted → ∀ o, x.session.verdict (x.calls stage) = some o → x.Blames o

namespace Sound

variable {config : Config} {preempted : Prop} {stage stage' : Option Stage} {x' : Sitting}

/-- Nothing has failed among transmissions that have succeeded. -/
theorem blames_of_clean (h : Clean x.transmissions) (o : Outcome) : x.Blames o := by
  intro T hT e he
  rw [(h T hT).failure?_eq_none] at he
  cases he

/-- A session that was just opened. -/
theorem opened (config : Config) (card : CardData) :
    Sound config False (some .opened) { session := { card } } where
  orderly :=
    { lawful := .opened card
      plain := nofun
      recorded := nofun
      accounted := Rendezvous.accounted_new
      hands := Rendezvous.hands_new
      answers := nofun }
  tickets := rfl
  carried := nofun
  clean := nofun
  fits := ⟨rfl, rfl, rfl⟩
  quiet := fun _ _ => rfl
  blame := fun _ _ ho => nomatch ho

/-- The commands sent are a log that nothing reads. -/
theorem send (h : x.Sound config preempted stage) (rest : Exchange Reply) :
    (x.send rest).Sound config preempted stage := by
  cases rest with
  | done result => exact h
  | transmit command resume =>
    obtain ⟨⟨hlawful, hplain, hrecorded, haccounted, hhands, hanswers⟩, htickets, hcarried, hclean,
      hfits, hquiet, hblame⟩ := h
    exact ⟨⟨hlawful, hplain, hrecorded, haccounted, hhands, hanswers⟩, htickets, hcarried, hclean,
      hfits, hquiet, hblame⟩

/-- A step that changes nothing but the stage, and of the watch nothing but
its flags. -/
theorem rewatch (h : x.Sound config preempted stage) (watch : Option Watch)
    (hwatching : watching { x with watch } = x.watching)
    (hcalls : Stage.calls stage' = Stage.calls stage)
    (hloose : Stage.loose stage' = Stage.loose stage) (hfits : Fits config { x with watch } stage')
    (hunclaimed : Unclaimed stage' → Unclaimed stage) :
    Sound config preempted stage' { x with watch } := by
  have hsame : Sitting.calls { x with watch } stage' = x.calls stage := by
    rw [Sitting.calls, Sitting.calls, hcalls, hwatching]
  refine ⟨?_, h.tickets, h.carried, h.clean, hfits, ?_, ?_⟩
  · rw [hsame, hloose]
    exact h.orderly.rewatch watch
  · rw [hsame]
    exact fun hp hu => h.quiet hp (hunclaimed hu)
  · rw [hsame]
    exact h.blame

/-- A step that changes nothing but the stage. -/
theorem stay (h : x.Sound config preempted stage) (hcalls : Stage.calls stage' = Stage.calls stage)
    (hloose : Stage.loose stage' = Stage.loose stage) (hfits : x.Fits config stage')
    (hunclaimed : Unclaimed stage' → Unclaimed stage) : x.Sound config preempted stage' :=
  h.rewatch x.watch rfl hcalls hloose hfits hunclaimed

/-- The runner goes on to conclude the session. -/
theorem claim (h : x.Sound config preempted stage) (hcalls : Stage.calls stage = [])
    (hloose : Stage.loose stage = []) (hunclaimed : Unclaimed stage) {o : Outcome}
    (ho : o ≠ .fault .cancelled) (hblames : x.Blames o) :
    x.Sound config preempted (some (.concluding (.seeking o))) := by
  -- the call of the runner joins that of the watch
  have hnew : x.calls (some (.concluding (.seeking o))) = .seeking o :: x.calls stage := by
    rw [Sitting.calls, Sitting.calls, hcalls]
    rfl
  have horderly := h.orderly
  rw [hloose] at horderly
  refine ⟨?_, h.tickets, h.carried, h.clean, hblames, ?_, ?_⟩
  · rw [hnew]
    exact horderly.seek ho
  · rw [hnew]
    exact fun hp _ => h.quiet hp hunclaimed
  · rw [hnew]
    exact h.blame

/-- What a step of the runner's call makes the verdict is what a failed
transmission says. -/
theorem blames_of_advance (h : x.Sound config preempted (some (.concluding call)))
    (hs : x.session.Advances call s' call' queued) (hp : ¬ preempted) {o : Outcome}
    (ho : s'.verdict (call' :: x.watching) = some o) : x.Blames o := by
  have hlawful : x.session.Lawful (call :: x.watching) := h.orderly.lawful
  rw [hlawful.verdict_advance hs, Option.or_eq_some_iff] at ho
  rcases ho with hv | ⟨-, hclaim⟩
  · exact h.blame hp o hv
  · -- a new verdict comes only with the latch
    cases call with
    | seeking o' =>
      cases hclaim
      exact h.fits
    | _ => cases hclaim

/-- **The runner's call takes a step.** -/
theorem conclude (h : x.Sound config preempted (some (.concluding call)))
    (hs : x.session.Advances call s' call' queued) (hcall' : ∀ o, call' ≠ .returned o) :
    Sound config preempted (some (.concluding call')) { x with session := s' } where
  orderly := h.orderly.advance hs
  tickets := h.tickets
  carried := h.carried
  clean := h.clean
  fits := by
    rcases hs.outcome_eq with heq | ⟨r, -, heq⟩
    · change x.Blames call'.outcome
      rw [heq]
      exact h.fits
    · exact absurd heq (hcall' r)
  quiet := fun _ ⟨o, ho⟩ => absurd ho (hs.ne_seeking o)
  blame := fun hp _ ho => h.blames_of_advance hs hp ho

/-- **The runner's call returns.** -/
theorem concluded {o : Outcome} (h : x.Sound config preempted (some (.concluding call)))
    (hs : x.session.Advances call s' (.returned o) queued) :
    Sound config preempted (some (.dismissing o)) { x with session := s' } where
  orderly := (h.orderly.advance hs).forget
  tickets := h.tickets
  carried := h.carried
  clean := h.clean
  fits := (h.orderly.advance hs).lawful.returned o List.mem_cons_self
  quiet := nofun
  blame := fun hp _ ho => h.blames_of_advance hs hp ho

/-- The runner takes a command and begins to exchange it. -/
theorem take (h : x.Sound config preempted stage) (hcalls : Stage.calls stage = [])
    (hloose : Stage.loose stage = []) (hunclaimed : Unclaimed stage)
    (hclean : Clean x.transmissions) {command : Bytes}
    (hslot : x.session.rendezvous.slot = .requested command t) :
    Sound config preempted (some (.exchanging (config.stack.exchange command)))
      (x.take command { x.session.rendezvous with slot := .inFlight t }) := by
  have hsame : x.calls stage = x.watching := by
    rw [Sitting.calls, hcalls]
    rfl
  have horderly := h.orderly
  rw [hsame, hloose] at horderly
  have hquiet := h.quiet
  have hblame := h.blame
  rw [hsame] at hquiet hblame
  refine ⟨horderly.take hslot, ?_, ?_, ?_, ⟨x.transmissions, _, rfl, hclean, rfl, ?_⟩,
    fun hp _ => hquiet hp hunclaimed, ?_⟩
  · -- tickets count the commands, and all before this one were taken
    have hlength : t = x.transmissions.length := by
      rw [(horderly.hands.of_requested hslot).1, List.length_map]
    simp [Sitting.take, Slot.ticket?, h.tickets, hlength, List.range_succ]
  · intro T hT result hresult
    rcases List.mem_append.1 hT with hT | hT
    · exact h.carried T hT result hresult
    · rw [List.mem_singleton.1 hT] at hresult
      cases hresult
  · have hlog : (x.transmissions ++ [({ ticket := t, command } : Transmission)]).dropLast =
        x.transmissions := List.dropLast_concat
    exact hlog ▸ hclean
  · exact Exchange.feed_nil _
  · intro hp o ho T hT e he
    rcases List.mem_append.1 hT with hT | hT
    · exact hblame hp o ho T hT e he
    · rw [List.mem_singleton.1 hT] at he
      cases he

/-- The log of the transmission under way goes on. -/
theorem onLast (h : x.Sound config preempted stage) (stage' : Option Stage)
    (hcalls : Stage.calls stage' = Stage.calls stage)
    (hloose : Stage.loose stage' = Stage.loose stage) (hunclaimed : Unclaimed stage)
    {earlier : List Transmission} {T : Transmission} (hlog : x.transmissions = earlier ++ [T])
    (hearlier : Clean earlier) (hresult : T.result = none) (change : Transmission → Transmission)
    (hcommand : (change T).command = T.command) (hticket : (change T).ticket = T.ticket)
    (hcarried : ∀ result, (change T).result = some result →
      (config.stack.exchange (change T).command).feed (change T).replies = .done result)
    (hfits : (x.onLast change).transmissions = earlier ++ [change T] →
      (x.onLast change).Fits config stage') :
    (x.onLast change).Sound config preempted stage' := by
  have hlog' : (x.onLast change).transmissions = earlier ++ [change T] := by
    simp [Sitting.onLast, hlog]
  have hsame : (x.onLast change).calls stage' = x.calls stage := by
    rw [Sitting.calls, Sitting.calls, hcalls]
    rfl
  refine ⟨?_, ?_, ?_, ?_, hfits hlog', ?_, ?_⟩
  · rw [hsame, hloose]
    exact h.orderly.onLast hlog hresult hcommand
  · have htickets := h.tickets
    rw [hlog] at htickets
    rw [hlog']
    simpa [hticket] using htickets
  · rw [hlog']
    intro T' hT'
    rcases List.mem_append.1 hT' with hT' | hT'
    · exact h.carried T' (hlog ▸ List.mem_append_left _ hT')
    · rw [List.mem_singleton.1 hT']
      exact hcarried
  · rw [hlog', List.dropLast_concat]
    exact hearlier
  · rw [hsame]
    exact fun hp _ => h.quiet hp hunclaimed
  · rw [hsame]
    intro hp o ho
    -- nobody has concluded the session while a command is exchanged
    have hnone := h.quiet hp hunclaimed
    exact absurd (hnone.symm.trans ho) nofun

/-- The card replies to a command of the exchange. -/
theorem hear {command : Bytes} {resume : Reply → Exchange Reply}
    (h : x.Sound config preempted (some (.exchanging (.transmit command resume)))) (reply : Reply) :
    (x.hear reply).Sound config preempted (some (.exchanging (resume reply))) := by
  obtain ⟨earlier, T, hlog, hearlier, hresult, hfeed⟩ := h.fits
  refine h.onLast (some (.exchanging (resume reply))) rfl rfl trivial hlog hearlier hresult
    (fun T => { T with replies := T.replies ++ [reply] }) rfl rfl ?_ ?_
  · intro result hresult'
    rw [hresult] at hresult'
    cases hresult'
  · exact fun hlog' => ⟨earlier, _, hlog', hearlier, hresult, Exchange.feed_concat hfeed reply⟩

/-- The layers return. -/
theorem settle {result : Reply} (h : x.Sound config preempted (some (.exchanging (.done result)))) :
    (x.settle result).Sound config preempted
      (some (.answering (Machine.answerOf result))) := by
  obtain ⟨earlier, T, hlog, hearlier, hresult, hfeed⟩ := h.fits
  refine h.onLast (some (.answering _)) rfl rfl trivial hlog hearlier hresult
    (fun T => { T with result := some result }) rfl rfl ?_ ?_
  · intro result' hresult'
    cases hresult'
    exact hfeed
  · exact fun hlog' => ⟨earlier, _, result, hlog', hearlier, rfl, rfl⟩

/-- After a response all transmissions have succeeded. -/
theorem clean_of_answering {raw : Bytes}
    (h : x.Sound config preempted (some (.answering (.ok raw)))) :
    Clean x.transmissions ∧ ∃ earlier T, x.transmissions = earlier ++ [T] ∧
      T.result = some (.ok raw) ∧ 2 ≤ raw.length := by
  obtain ⟨earlier, T, result, hlog, hearlier, hresult, hanswer⟩ := h.fits
  rcases answerOf_cases T hresult with ⟨raw', hraw', hresult', hlength⟩ | ⟨e, -, he⟩
  · rw [hanswer] at hraw'
    cases hraw'
    refine ⟨?_, earlier, T, hlog, hresult', hlength⟩
    rw [hlog]
    intro T' hT'
    rcases List.mem_append.1 hT' with hT' | hT'
    · exact hearlier T' hT'
    · exact List.mem_singleton.1 hT' ▸ ⟨raw, hresult', hlength⟩
  · rw [hanswer] at he
    cases he

/-- The runner frees the slot after a response. -/
theorem release {raw : Bytes} (h : x.Sound config preempted (some (.answering (.ok raw))))
    (hslot : x.session.rendezvous.slot = .inFlight t) :
    (x.onRendezvous fun r => { r with slot := .idle }).Sound config preempted
      (some (.resolving t (.ok raw))) := by
  obtain ⟨hclean, earlier, T, hlog, hresult, hlength⟩ := h.clean_of_answering
  refine ⟨h.orderly.release hslot, h.tickets, h.carried, h.clean,
    ⟨hclean, raw, T, rfl, ?_, hresult, hlength⟩, h.quiet, h.blame⟩
  -- the command in flight is the one that was taken last
  have ht := (h.orderly.hands.of_inFlight hslot).1
  rw [List.length_map, hlog, List.length_append, List.length_singleton] at ht
  obtain rfl : t = earlier.length := Nat.succ.inj ht
  exact (congrArg (·[earlier.length]?) hlog).trans List.getElem?_concat_length

/-- The runner resolves the ticket of the command that it took. -/
theorem resolve (h : x.Sound config preempted (some (.resolving t a))) :
    (x.onRendezvous fun r => r.resolve t a).Sound config preempted (some .looping) := by
  obtain ⟨hclean, raw, T, rfl, hT, hresult, hlength⟩ := h.fits
  exact ⟨h.orderly.resolve ⟨T, hT, hresult, hlength⟩, h.tickets, h.carried, h.clean, hclean,
    h.quiet, h.blame⟩

/-- The runner goes on to conclude the session with a failure. -/
theorem fail {e : SessionError} (h : x.Sound config preempted (some (.answering (.error e)))) :
    x.Sound config preempted (some (.concluding (.seeking (Machine.outcomeOf e)))) := by
  obtain ⟨earlier, T, result, hlog, hearlier, hresult, hanswer⟩ := h.fits
  rcases answerOf_cases T hresult with ⟨raw, hraw, -, -⟩ | ⟨e', hfailure, he'⟩
  · rw [hanswer] at hraw
    cases hraw
  · obtain rfl : e = .ofExchange e' := Except.error.inj (hanswer.symm.trans he')
    rw [outcomeOf_ofExchange]
    refine h.claim rfl rfl trivial (Outcome.ofError_ne_cancelled e') ?_
    -- only the last transmission has failed
    intro T' hT' e'' he''
    rw [hlog] at hT'
    rcases List.mem_append.1 hT' with hT' | hT'
    · rw [(hearlier T' hT').failure?_eq_none] at he''
      cases he''
    · rw [List.mem_singleton.1 hT', hfailure] at he''
      cases he''
      rfl

/-- A closed slot that nobody has latched belongs to a session that has ended. -/
theorem inquire (h : x.Sound config preempted (some .inquiring))
    (hfree : x.session.latched = false) :
    x.Sound config preempted (some (.dismissing (x.session.outcome.getD .cancelled))) := by
  refine h.stay rfl rfl ?_ nofun
  -- whoever closed the slot has recorded an outcome by the time the latch is free
  obtain ⟨o, ho⟩ := h.orderly.lawful.verdict_of_closed h.fits.2
  have houtcome := (h.orderly.lawful.outcome_of_free hfree).trans ho
  change x.session.outcome = some (x.session.outcome.getD .cancelled)
  rw [houtcome]
  rfl

/-! ## The steps of the three parties -/

/-- A stage in which the runner listens has no call and no ticket of its own,
and comes before the latch. -/
theorem of_isListening {stage : Stage} (hstage : stage.isListening = true) :
    Stage.calls (some stage) = [] ∧ Stage.loose (some stage) = [] ∧ Unclaimed (some stage) ∧
      ∀ x : Sitting, x.Fits config (some stage) ↔ Clean x.transmissions := by
  cases stage with
  | listening deadline => exact ⟨rfl, rfl, trivial, fun _ => Iff.rfl⟩
  | asleep deadline => exact ⟨rfl, rfl, trivial, fun _ => Iff.rfl⟩
  | _ => cases hstage

/-- **A step of the runner's thread** inside the session. -/
theorem turn {number : Nat} {stage stage' : Stage}
    (h : x.Sound config preempted (some stage))
    (hturn : Turn config number x stage stage' x' queued) :
    x'.Sound config preempted (some stage') := by
  have hnothing : x.transmissions = [] → Clean x.transmissions := fun heq => heq ▸ nofun
  cases hturn with
  | enter => exact h.stay rfl rfl h.fits id
  | announce => exact h.stay rfl rfl h.fits id
  | hire =>
    obtain ⟨hwatch, -, hlog⟩ := h.fits
    refine h.rewatch _ ?_ rfl rfl (hnothing hlog) id
    rw [watching, watching, hwatch]
    rfl
  | unwatched problem =>
    exact h.claim rfl rfl trivial nofun (blames_of_clean (hnothing h.fits.2.2) _)
  | cancel => exact h.claim rfl rfl trivial nofun (blames_of_clean h.fits _)
  | go => exact h.stay rfl rfl h.fits id
  | idle limit => exact h.claim rfl rfl trivial nofun (blames_of_clean h.fits _)
  | listen slice => exact h.stay rfl rfl h.fits id
  | take command t hstage hslot =>
    obtain ⟨hcalls, hloose, hunclaimed, hfits⟩ := of_isListening hstage
    exact (h.take hcalls hloose hunclaimed ((hfits x).1 h.fits) hslot).send _
  | shut hstage hslot =>
    obtain ⟨hcalls, hloose, hunclaimed, hfits⟩ := of_isListening hstage
    exact h.stay hcalls.symm hloose.symm ⟨(hfits x).1 h.fits, hslot⟩ fun _ => hunclaimed
  | wait stage' hstage hstage' =>
    obtain ⟨hcalls, hloose, hunclaimed, hfits⟩ := of_isListening hstage
    rcases hstage' with rfl | ⟨deadline, rfl⟩ <;>
      exact h.stay hcalls.symm hloose.symm ((hfits x).1 h.fits) fun _ => hunclaimed
  | inquire hfree => exact h.inquire hfree
  | hear command resume reply => exact (h.hear reply).send _
  | settle result => exact h.settle
  | release raw t hslot => exact h.release hslot
  | stray raw hslot => exact h.stay rfl rfl h.clean_of_answering.1 id
  | fail e => exact h.fail
  | resolve t answer => exact h.resolve
  | conclude hs hcall' => exact h.conclude hs hcall'
  | concluded hs => exact h.concluded hs
  | alone o hwatch =>
    refine h.stay rfl rfl ⟨h.fits, fun w hw => ?_⟩ id
    rw [hwatch] at hw
    cases hw
  | dismiss o w status stage' hwatch hstage' =>
    have hwatching : watching { x with watch := some { w with status } } = x.watching := by
      rw [watching, watching, hwatch]
      rfl
    rcases hstage' with rfl | rfl
    · exact h.rewatch _ hwatching rfl rfl h.fits id
    · exact h.rewatch _ hwatching rfl rfl h.fits id
  | interrupt o =>
    refine h.rewatch _ ?_ rfl rfl h.fits id
    rw [watching, watching]
    cases x.watch <;> rfl
  | join o hgone => exact h.stay rfl rfl ⟨h.fits, hgone⟩ id

/-- **A client publishes a command.** -/
theorem publish (h : x.Sound config preempted stage) (command : Bytes) :
    (x.publish command).Sound config preempted stage := by
  have horderly := h.orderly.publish command
  unfold Sitting.publish at horderly ⊢
  rcases x.session.rendezvous.publish_cases command with ⟨hidle, hr⟩ | ⟨-, e, hr⟩
  · rw [hr] at horderly ⊢
    refine ⟨horderly, h.tickets, h.carried, h.clean, ?_, h.quiet, h.blame⟩
    cases stage with
    | none => trivial
    | some stage =>
      cases stage with
      | inquiring =>
        -- a slot that is free is not closed
        exact absurd (hidle.symm.trans h.fits.2) nofun
      | _ => exact h.fits
  · rw [hr]
    exact h

/-- What the stage says of the session does not depend on the watch, which
acts only while it is there. -/
theorem fits_of_watch {w w' : Watch} (h : x.Fits config stage) (hwatch : x.watch = some w)
    (hpoint : w.point ≠ .gone)
    (hclosed : x.session.rendezvous.slot = .closed → s'.rendezvous.slot = .closed)
    (hrecorded : ∀ o, x.session.outcome = some o → s'.outcome = some o) :
    Fits config { x with session := s', watch := some w' } stage := by
  have hsome : x.watch ≠ none := by
    rw [hwatch]
    nofun
  cases stage with
  | none => trivial
  | some stage =>
    cases stage with
    | opened => exact absurd h.1 hsome
    | announcing => exact absurd h.1 hsome
    | hiring => exact absurd h.1 hsome
    | inquiring => exact ⟨h.1, hclosed h.2⟩
    | dismissing o => exact hrecorded o h
    | interrupting o => exact hrecorded o h
    | joining o => exact hrecorded o h
    | served o => exact absurd (h.2 w hwatch) hpoint
    | _ => exact h

/-- A watch that was the first to take the latch stays so. -/
theorem mono {preempted' : Prop} (h : x.Sound config preempted stage)
    (hp : ¬ preempted' → ¬ preempted) : x.Sound config preempted' stage :=
  ⟨h.orderly, h.tickets, h.carried, h.clean, h.fits, fun hp' => h.quiet (hp hp'),
    fun hp' => h.blame (hp hp')⟩

/-- A session whose calls are known up to their order. -/
theorem of_perm (hp : calls.Perm (x.calls stage)) (horderly : x.Orderly calls (Stage.loose stage))
    (htickets : x.transmissions.map Transmission.ticket = List.range x.transmissions.length)
    (hcarried : ∀ T ∈ x.transmissions, ∀ result, T.result = some result →
      (config.stack.exchange T.command).feed T.replies = .done result)
    (hclean : Clean x.transmissions.dropLast) (hfits : x.Fits config stage)
    (hquiet : ¬ preempted → Unclaimed stage → x.session.verdict calls = none)
    (hblame : ¬ preempted → ∀ o, x.session.verdict calls = some o → x.Blames o) :
    x.Sound config preempted stage := by
  have hverdict := horderly.lawful.verdict_perm hp
  refine ⟨horderly.perm hp, htickets, hcarried, hclean, hfits, ?_, ?_⟩
  · rwa [hverdict]
  · rwa [hverdict]

/-- A step of the watch that changes nothing of the session, but by which the
watch may come to make a call. -/
theorem watch_stay {preempted' : Prop} {w w' : Watch} (h : x.Sound config preempted stage)
    (hwatch : x.watch = some w) (hgone : w.point ≠ .gone) (hp : ¬ preempted' → ¬ preempted)
    (hperm : calls.Perm (Stage.calls stage ++ w'.point.calls))
    (horderly : x.Orderly calls (Stage.loose stage))
    (hverdict : x.session.verdict calls = x.session.verdict (x.calls stage)) :
    Sound config preempted' stage { x with watch := some w' } := by
  refine of_perm hperm (horderly.rewatch _) h.tickets h.carried h.clean
    (fits_of_watch h.fits hwatch hgone id fun _ ho => ho) ?_ ?_
  · intro hp' hunclaimed
    exact hverdict.trans (h.quiet (hp hp') hunclaimed)
  · intro hp' o ho
    exact h.blame (hp hp') o (hverdict ▸ ho)

/-- A step of the watch's call. Unless the call was the first to take the
latch, the verdict stays what it was. -/
theorem watch_call {preempted' : Prop} {w w' : Watch} (h : x.Sound config preempted stage)
    (hwatch : x.watch = some w) (hpoint : w.point = .concluding call)
    (hs : x.session.Advances call s' call' queued)
    (hpreempted : ¬ preempted' →
      ¬ preempted ∧ ∀ o, w.point = .concluding (.seeking o) → x.session.outcome ≠ none)
    (hperm : calls.Perm (Stage.calls stage ++ w'.point.calls))
    (horderly : Orderly { x with session := s' } (call' :: Stage.calls stage) (Stage.loose stage) →
      Orderly { x with session := s' } calls (Stage.loose stage))
    (hverdict : s'.verdict calls = s'.verdict (call' :: Stage.calls stage)) :
    Sound config preempted' stage { x with session := s', watch := some w' } := by
  have hp : (x.calls stage).Perm (call :: Stage.calls stage) := by
    rw [Sitting.calls, watching, hwatch, Option.elim_some, hpoint]
    exact List.perm_append_singleton _ _
  have hbefore := h.orderly.perm hp
  have hsame : ¬ preempted' → s'.verdict calls = x.session.verdict (x.calls stage) := by
    intro hp'
    rw [hverdict, hbefore.lawful.verdict_advance hs, h.orderly.lawful.verdict_perm hp]
    cases call with
    | seeking o =>
      obtain ⟨r, hr⟩ := Option.ne_none_iff_exists'.1 ((hpreempted hp').2 o hpoint)
      rw [Session.verdict, hr, Option.some_or, Option.some_or]
    | _ => exact Option.or_none
  refine of_perm hperm ((horderly (hbefore.advance hs)).rewatch _) h.tickets h.carried h.clean
    (fits_of_watch h.fits hwatch (by simp [hpoint]) hs.closed fun _ ho =>
      hbefore.lawful.outcome_advance hs ho) ?_ ?_
  · intro hp' hunclaimed
    exact (hsame hp').trans (h.quiet (hpreempted hp').1 hunclaimed)
  · intro hp' o ho
    exact h.blame (hpreempted hp').1 o (hsame hp' ▸ ho)

/-- **A step of the watch.** -/
theorem watch {preempted' : Prop} {w w' : Watch} (h : x.Sound config preempted stage)
    (hwatch : x.watch = some w) (hturn : Watch.Turn x.session w.point w'.point s' queued)
    (hpreempted : ¬ preempted' →
      ¬ preempted ∧ ∀ o, w.point = .concluding (.seeking o) → x.session.outcome ≠ none) :
    Sound config preempted' stage { x with session := s', watch := some w' } := by
  have hcalls : x.calls stage = Stage.calls stage ++ w.point.calls := by
    rw [Sitting.calls, watching, hwatch]
    rfl
  have hp : ¬ preempted' → ¬ preempted := fun hp' => (hpreempted hp').1
  generalize hpoint : w.point = point at hturn
  generalize hpoint' : w'.point = point' at hturn
  rw [hpoint] at hcalls
  -- a step between two points without a call
  have hstay : point ≠ .gone → point'.calls = point.calls → s' = x.session →
      Sound config preempted' stage { x with session := s', watch := some w' } := by
    intro hgone hsame hsession
    subst hsession
    refine h.watch_stay hwatch (hpoint ▸ hgone) hp ?_ h.orderly rfl
    rw [hcalls, hpoint', hsame]
  cases hturn with
  | check point' hpoint' =>
    refine hstay nofun ?_ rfl
    rcases hpoint' with rfl | rfl <;> rfl
  | heed point' hpoint' =>
    refine hstay nofun ?_ rfl
    rcases hpoint' with rfl | rfl <;> rfl
  | still => exact hstay nofun rfl rfl
  | leave => exact hstay nofun rfl rfl
  | seek answer o ho =>
    refine h.watch_stay hwatch (hpoint ▸ nofun) hp ?_
      (h.orderly.seek (watch_outcome_ne_cancelled ho)) rfl
    have hnone : x.calls stage = Stage.calls stage := hcalls.trans (List.append_nil _)
    rw [hnone, hpoint']
    exact (List.perm_append_singleton _ _).symm
  | conclude hs hcall' =>
    refine h.watch_call hwatch hpoint hs hpreempted ?_ id rfl
    rw [hpoint']
    exact (List.perm_append_singleton _ _).symm
  | concluded hs =>
    refine h.watch_call hwatch hpoint hs hpreempted ?_ Orderly.forget rfl
    rw [hpoint']
    exact (List.append_nil _).symm ▸ List.Perm.refl _

/-- The runner's thread leaves the session, between two calls. -/
theorem leave (h : x.Sound config preempted stage) (hcalls : Stage.calls stage = [])
    (hloose : Stage.loose stage = []) : x.Sound config preempted none :=
  h.stay hcalls.symm hloose.symm trivial nofun

end Sound

/-- **The session is over**: it has an outcome, and its watch is gone. -/
def Over (x : Sitting) (o : Outcome) : Prop :=
  x.session.outcome = some o ∧ ∀ w, x.watch = some w → w.point = .gone

namespace Over

variable {o : Outcome}

/-- Nobody opens a session again by publishing. -/
theorem publish (h : x.Over o) (command : Bytes) : (x.publish command).Over o := by
  unfold Sitting.publish
  rcases x.session.rendezvous.publish_cases command with ⟨-, hr⟩ | ⟨-, e, hr⟩
  · rw [hr]
    exact h
  · rw [hr]
    exact h

/-- The watch of a session that is over takes no step. -/
theorem not_turn (h : x.Over o) {w : Watch} {point : Watch.Point} (hwatch : x.watch = some w)
    (hturn : Watch.Turn x.session w.point point s' queued) : False := by
  rw [h.2 w hwatch] at hturn
  cases hturn

/-- No call is being made to conclude a session that is over. -/
theorem calls_eq_nil (h : x.Over o) : x.calls none = [] := by
  rw [Sitting.calls, watching]
  cases hwatch : x.watch with
  | none => rfl
  | some w =>
    rw [Option.elim_some, h.2 w hwatch]
    rfl

/-- **Every ticket of a session that is over has its answer.** -/
theorem answered (h : x.Over o) {config : Config} {preempted : Prop}
    (hs : x.Sound config preempted none) {t : Ticket} (ht : t < x.session.rendezvous.issued) :
    ∃ a, x.session.rendezvous.poll t = some a := by
  have haccounted := hs.orderly.accounted
  rw [h.calls_eq_nil] at haccounted
  have hclosed := (hs.orderly.lawful.of_recorded h.1).2.2
  rw [← Option.ne_none_iff_exists']
  intro hnone
  have hmem := (haccounted.unanswered_iff t).1 ⟨ht, hnone⟩
  rw [hclosed] at hmem
  cases hmem

end Over

end Sitting

end Runner

end SmartCard
