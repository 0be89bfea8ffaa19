import SmartCard.Proofs.Layer.Faults
import SmartCard.Proofs.Runner.Barrier
import SmartCard.Proofs.Runner.Isolation
/-!
# Attempts to get a card

The calls of the runner's thread to its reader are attempts to get a card, one
after the other. A full one is a `Round`: the reader is seen empty if a touch is
required, then a card is seen, then there is a connection, or the card was
gone again and the thread pauses. `Stand` says how the attempts stand at each
point: the last has begun (`Begun`), was broken off by an error of the reader
(`Broken`) or by the interrupt, or a session came of it. `Paced.step` is one
move, `paced_of_run` a whole run.

`Paused` follows the thread from a card that was gone to the next attempt, and
`filter_stories` finds the connections in what the application was told.
-/

namespace SmartCard

namespace Runner

variable {p : Parameters}

/-! ## The calls of an attempt -/

/-- Waits for a card, or for its absence, that came to nothing. -/
def vain (present : Bool) (n : Nat) : List Call :=
  List.replicate n (.presence present (.ok false))

/-- Waits that came to nothing, and then one that did not. -/
def reached (present : Bool) (n : Nat) : List Call :=
  vain present n ++ [.presence present (.ok true)]

/-- The calls until the reader may be watched for a card: if a touch is required,
it has to be seen empty. -/
def clears (p : Parameters) (absent : Nat) : List Call :=
  if p.touchRequired then reached false absent else []

/-- The calls until a card is there. -/
def finds (p : Parameters) (absent present : Nat) : List Call :=
  clears p absent ++ reached true present

/-- **A full attempt.** -/
structure Round where
  /-- How many waits for an empty reader came to nothing, if there were any. -/
  absent : Nat
  /-- How many waits for a card came to nothing. -/
  present : Nat
  /-- The answer to the request to connect. -/
  answer : Except ExchangeError CardData
  /-- The only error that the runner gets over is that the card is gone. -/
  removed : ∀ e, answer = .error e → e.isCardRemoved = true

/-- The calls of a full attempt: after a card that was gone, there is a pause. -/
def Round.calls (p : Parameters) (r : Round) : List Call :=
  finds p r.absent r.present ++ .connect p.protocol r.answer ::
    match r.answer with
    | .ok _ => []
    | .error _ => [.rest]

/-- **An attempt that has begun**: the calls made in it so far, at each of its points. -/
inductive Begun (p : Parameters) : Attempt → List Call → Prop where
  | arriving : Begun p .arriving []
  | clearing (absent : Nat) {a : Attempt} (htouch : p.touchRequired = true)
    (ha : a = .polling false ∨ a = .waiting false) : Begun p a (vain false absent)
  | cleared (absent : Nat) (htouch : p.touchRequired = true) :
    Begun p .cleared (reached false absent)
  | seeking (absent present : Nat) {a : Attempt} (ha : a = .polling true ∨ a = .waiting true) :
    Begun p a (clears p absent ++ vain true present)
  | found (absent present : Nat) {a : Attempt} (ha : a = .found ∨ a = .connecting) :
    Begun p a (finds p absent present)
  | resting (absent present deadline : Nat) {sleep : Interrupt.Sleep} (e : ExchangeError)
    (he : e.isCardRemoved = true) (hsleep : ∀ result, sleep ≠ .ended result) :
    Begun p (.resting deadline sleep)
      (finds p absent present ++ [.connect p.protocol (.error e)])

/-- **An attempt that an error of the reader broke off.** A card that was gone when
the connection was made is no such error. -/
inductive Broken (p : Parameters) : List Call → Prop where
  | absent (absent : Nat) (e : ExchangeError) (htouch : p.touchRequired = true) :
    Broken p (vain false absent ++ [.presence false (.error e)])
  | present (absent present : Nat) (e : ExchangeError) :
    Broken p (clears p absent ++ vain true present ++ [.presence true (.error e)])
  | refused (absent present : Nat) (e : ExchangeError) (he : e.isCardRemoved = false) :
    Broken p (finds p absent present ++ [.connect p.protocol (.error e)])

/-- A session came of the last attempt. -/
def Connected (rounds : List Round) : Prop :=
  ∃ earlier last card, rounds = earlier ++ [last] ∧ last.answer = .ok card

/-- One more wait that came to nothing. -/
theorem vain_succ (present : Bool) (n : Nat) :
    vain present n ++ [.presence present (.ok false)] = vain present (n + 1) :=
  List.replicate_succ'.symm

theorem clears_of_touch (h : p.touchRequired = true) (absent : Nat) :
    clears p absent = reached false absent :=
  if_pos h

theorem clears_of_not_touch (h : p.touchRequired = false) (absent : Nat) :
    clears p absent = [] :=
  if_neg (Bool.eq_false_iff.1 h)

/-- What a step towards a card makes of an attempt: it goes on, leads to a
session, is broken off by an error or by the interrupt, or has no instant for
the end of its pause. -/
inductive Advances (p : Parameters) : List Call → Point → Prop where
  | on {current : List Call} {a : Attempt} (hbegun : Begun p a current) :
    Advances p current (.attempting p a)
  | session {s : Service} (r : Round) (card : CardData) (hanswer : r.answer = .ok card) :
    Advances p (r.calls p) (.serving p s)
  | broken {current : List Call} (e : SessionError) (hbroken : Broken p current) :
    Advances p current (.stopping (.fault e))
  | stopped {current : List Call} {a : Attempt} (hbegun : Begun p a current) :
    Advances p current (.stopping .cancelled)
  | overflowed (absent present : Nat) (e : ExchangeError) (he : e.isCardRemoved = true) :
    Advances p (finds p absent present ++ [.connect p.protocol (.error e)])
      (.ending (.panicked (some Instant.overflow)))

/-- **A step towards a card**, outside of a pause. -/
theorem advances_of_approaches {a : Attempt} {point : Point} {call : Option Call}
    {current : List Call} (hbegun : Begun p a current)
    (hresting : ∀ deadline sleep, a ≠ .resting deadline sleep)
    (happroaches : Approaches p a point call) : Advances p (current ++ call.toList) point := by
  cases hbegun with
  | arriving =>
    cases happroaches with
    | arrive =>
      refine .on ?_
      cases htouch : p.touchRequired with
      | true => exact .clearing 0 htouch (.inl rfl)
      | false =>
        -- without a touch the reader is watched for a card at once
        have hbegun : Begun p (.polling true) (clears p 0 ++ vain true 0) :=
          .seeking 0 0 (.inl rfl)
        rwa [clears_of_not_touch htouch] at hbegun
    | stop ha => simp at ha
  | clearing n htouch ha =>
    rcases ha with rfl | rfl
    · cases happroaches with
      | poll =>
        rw [Option.toList_none, List.append_nil]
        exact .on (.clearing n htouch (.inr rfl))
      | stop ha =>
        rw [Option.toList_none, List.append_nil]
        exact .stopped (.clearing n htouch (.inl rfl))
    · cases happroaches with
      | reach => exact .on (.cleared n htouch)
      | miss =>
        rw [Option.toList_some, vain_succ]
        exact .on (.clearing (n + 1) htouch (.inl rfl))
      | fail _ e => exact .broken _ (.absent n e htouch)
      | stop ha => simp at ha
  | cleared n htouch =>
    cases happroaches with
    | clear =>
      refine .on ?_
      have hbegun : Begun p (.polling true) (clears p n ++ vain true 0) :=
        .seeking n 0 (.inl rfl)
      rwa [clears_of_touch htouch] at hbegun
    | stop ha => simp at ha
  | seeking n j ha =>
    rcases ha with rfl | rfl
    · cases happroaches with
      | poll =>
        rw [Option.toList_none, List.append_nil]
        exact .on (.seeking n j (.inr rfl))
      | stop ha =>
        rw [Option.toList_none, List.append_nil]
        exact .stopped (.seeking n j (.inl rfl))
    · cases happroaches with
      | reach =>
        rw [Option.toList_some, List.append_assoc]
        exact .on (.found n j (.inl rfl))
      | miss =>
        rw [Option.toList_some, List.append_assoc, vain_succ]
        exact .on (.seeking n (j + 1) (.inl rfl))
      | fail _ e => exact .broken _ (.present n j e)
      | stop ha => simp at ha
  | found n j ha =>
    rcases ha with rfl | rfl
    · cases happroaches with
      | find =>
        rw [Option.toList_none, List.append_nil]
        exact .on (.found n j (.inr rfl))
      | stop ha => simp at ha
    · cases happroaches with
      | connect s card hstage => exact .session ⟨n, j, .ok card, by simp⟩ card rfl
      | leave deadline e he => exact .on (.resting n j deadline e he (by simp))
      | overflow e he => exact .overflowed n j e he
      | refuse e he => exact .broken _ (.refused n j e he)
      | stop ha => simp at ha
  | resting n j deadline e he hsleep => exact absurd rfl (hresting deadline _)

/-! ## Pauses -/

/-- The runner's thread is on its way out, and uses its reader no more. -/
def Point.isClosing : Point → Bool
  | .stopping _ | .failing _ | .terminating _ | .ending _ | .gone _ => true
  | _ => false

/-- A session was opened, and the application has not been told of it yet. -/
def Point.isUnannounced : Point → Bool
  | .serving _ ⟨_, _, .opened⟩ | .serving _ ⟨_, _, .announcing⟩ => true
  | _ => false

/-- The events that hand sessions with these cards to the application. -/
def presents (cards : List CardData) : List Event :=
  cards.mapIdx .cardPresent

theorem isClosing_of_isNegotiating {point : Point} (h : point.isNegotiating = true) :
    point.isClosing = false := by
  cases point with
  | opening | negotiating | receiving => rfl
  | _ => cases h

theorem isClosing_of_isBroken {point : Point} (h : Machine.IsBroken point) :
    point.isClosing = true := by
  cases point with
  | ending | gone => rfl
  | _ => exact h.elim

namespace Machine

variable {first m m' : Machine} {move : Move} {moves : List Move} {input : Input}
variable {rounds : List Round} {current : List Call}

/-- **The steps of a pause** up to a deadline, from where its sleep stands. -/
inductive Rests (m : Machine) (p : Parameters) (deadline : Nat) :
    Interrupt.Sleep → Machine → Prop where
  | wake (w : Wake) (hclock : w = .timedOut → deadline ≤ m.clock) :
    Rests m p deadline .asleep (m.goto (.attempting p (.resting deadline (.woken w))))
  | sleep {sleep : Interrupt.Sleep} (hsleep : sleep = .entering ∨ sleep = .woken .notified) :
    Rests m p deadline sleep (m.goto (.attempting p (.resting deadline .asleep)))
  | rest (hraised : m.interrupted = false) :
    Rests m p deadline (.woken .timedOut) ((m.log .rest).goto (.attempting p .arriving))
  | stop {sleep : Interrupt.Sleep} (hraised : m.interrupted = true) :
    Rests m p deadline sleep (m.goto (.stopping .cancelled))

/-- A step of the thread in a pause is one of those listed. -/
theorem rests_of_runner {deadline : Nat} {sleep : Interrupt.Sleep}
    (hpoint : m.point = .attempting p (.resting deadline sleep))
    (hsleep : ∀ result, sleep ≠ .ended result) (h : m.runner input = some m') :
    m.Rests p deadline sleep m' := by
  unfold runner at h
  rw [hpoint] at h
  cases sleep with
  | entering =>
    cases input with
    | go =>
      cases hraised : m.interrupted with
      | true =>
        simp only [attempt, Interrupt.Sleep.step, hraised] at h
        cases h
        exact .stop hraised
      | false =>
        simp only [attempt, Interrupt.Sleep.step, hraised] at h
        cases h
        exact .sleep (.inl rfl)
    | _ => cases h
  | asleep =>
    cases input with
    | wake w =>
      simp only [attempt] at h
      split at h
      · cases h
      · next hearly =>
        cases h
        exact .wake w fun hw => Nat.le_of_not_lt fun hlt => hearly ⟨hw, hlt⟩
    | _ => cases h
  | woken w =>
    cases input with
    | go =>
      cases w with
      | notified =>
        cases hraised : m.interrupted with
        | true =>
          simp only [attempt, Interrupt.Sleep.step, hraised] at h
          cases h
          exact .stop hraised
        | false =>
          simp only [attempt, Interrupt.Sleep.step, hraised] at h
          cases h
          exact .sleep (.inr rfl)
      | timedOut =>
        cases hraised : m.interrupted with
        | true =>
          simp only [attempt, Interrupt.Sleep.step, hraised] at h
          cases h
          exact .stop hraised
        | false =>
          simp only [attempt, Interrupt.Sleep.step, hraised] at h
          cases h
          exact .rest hraised
    | _ => cases h
  | ended result => exact absurd rfl (hsleep result)

/-! ## One attempt after the other -/

/-- **How the attempts stand** after some full ones, with these calls in the last. -/
inductive Stand (p : Parameters) (m : Machine) : List Round → List Call → Prop where
  | early (hpoint : m.point.isNegotiating = true) : Stand p m [] []
  | attempting (rounds : List Round) {a : Attempt} {current : List Call}
    (hpoint : m.point = .attempting p a) (hbegun : Begun p a current) : Stand p m rounds current
  | serving {rounds : List Round} (s : Service) (hpoint : m.point = .serving p s)
    (hlast : Connected rounds) : Stand p m rounds []
  | served {rounds : List Round} (hpoint : m.point.isClosing = true) (hlast : Connected rounds) :
    Stand p m rounds []
  | broken (rounds : List Round) {current : List Call} (hpoint : m.point.isClosing = true)
    (hbroken : Broken p current) : Stand p m rounds current
  | stopped (rounds : List Round) {a : Attempt} {current : List Call}
    (hpoint : m.point.isClosing = true) (hbegun : Begun p a current)
    (hraised : m.interrupted = true) : Stand p m rounds current
  /-- The end of the pause after a card that was gone would be no instant. -/
  | overflowed (rounds : List Round) (absent present : Nat) (e : ExchangeError)
    (he : e.isCardRemoved = true) (hpoint : IsBroken m.point) (hlast : Instant.last < m.horizon) :
    Stand p m rounds (finds p absent present ++ [.connect p.protocol (.error e)])

/-- **The calls of the runner's thread are attempts to get a card.** -/
def Attempts (m : Machine) (p : Parameters) : Prop :=
  ∃ rounds current, m.calls = rounds.flatMap (Round.calls p) ++ current ∧ m.Stand p rounds current

/-- A move that does not touch what the thread does. -/
theorem Stand.same (h : m.Stand p rounds current) (hpoint : m'.point = m.point)
    (hraised : m.interrupted = true → m'.interrupted = true) (hhorizon : m.horizon ≤ m'.horizon) :
    m'.Stand p rounds current := by
  cases h with
  | early hpoint₁ => exact .early (hpoint ▸ hpoint₁)
  | attempting rounds hpoint₁ hbegun => exact .attempting rounds (hpoint.trans hpoint₁) hbegun
  | serving s hpoint₁ hlast => exact .serving s (hpoint.trans hpoint₁) hlast
  | served hpoint₁ hlast => exact .served (hpoint ▸ hpoint₁) hlast
  | broken rounds hpoint₁ hbroken => exact .broken rounds (hpoint ▸ hpoint₁) hbroken
  | stopped rounds hpoint₁ hbegun hraised₁ =>
    exact .stopped rounds (hpoint ▸ hpoint₁) hbegun (hraised hraised₁)
  | overflowed rounds n j e he hpoint₁ hlast =>
    exact .overflowed rounds n j e he (hpoint ▸ hpoint₁) (Nat.lt_of_lt_of_le hlast hhorizon)

/-- The thread looks at its interrupt on the way to a card, and stops if it is raised. -/
theorem interrupted_of_stopping {a : Attempt} (hpoint : m.point = .attempting p a)
    (hresting : ∀ deadline sleep, a ≠ .resting deadline sleep) (hstep : m.runner input = some m')
    (hpoint' : m'.point = .stopping .cancelled) : m.interrupted = true := by
  obtain ⟨call, happroaches, -, -⟩ := towards_of_runner hpoint hstep
  rw [hpoint'] at happroaches
  cases happroaches with
  | stop ha =>
    rcases ha with ⟨present, rfl⟩ | ⟨deadline, sleep, rfl⟩
    · by_contra hraised
      unfold runner at hstep
      rw [hpoint] at hstep
      cases input with
      | go =>
        simp only [attempt, if_neg hraised] at hstep
        cases hstep
        cases hpoint'
      | _ => cases hstep
    · exact absurd rfl (hresting deadline sleep)

/-- A step towards a card, outside of a pause. -/
theorem attempts_of_approach {a : Attempt}
    (hcalls : m.calls = rounds.flatMap (Round.calls p) ++ current)
    (hpoint : m.point = .attempting p a) (hbegun : Begun p a current)
    (hresting : ∀ deadline sleep, a ≠ .resting deadline sleep) (hstep : m.runner input = some m') :
    m'.Attempts p := by
  obtain ⟨call, happroaches, hcalls', -⟩ := towards_of_runner hpoint hstep
  have hadvances := advances_of_approaches hbegun hresting happroaches
  rw [hcalls, List.append_assoc] at hcalls'
  generalize hpoint' : m'.point = point' at hadvances
  generalize current ++ call.toList = made at hadvances hcalls'
  cases hadvances with
  | on hbegun' => exact ⟨rounds, _, hcalls', .attempting rounds hpoint' hbegun'⟩
  | @session s r card hanswer =>
    refine ⟨rounds ++ [r], [], ?_, .serving s hpoint' ⟨rounds, r, card, rfl, hanswer⟩⟩
    rw [hcalls', List.flatMap_append, List.flatMap_singleton, List.append_nil]
  | broken e hbroken => exact ⟨rounds, _, hcalls', .broken rounds (hpoint' ▸ rfl) hbroken⟩
  | stopped hbegun' =>
    have hraised := interrupted_of_stopping hpoint hresting hstep hpoint'
    exact ⟨rounds, _, hcalls', .stopped rounds (hpoint' ▸ rfl) hbegun'
      ((interrupted_of_runner hstep).trans hraised)⟩
  | overflowed n j e he =>
    have hbroken : IsBroken m'.point := hpoint' ▸ trivial
    have hmove : m.step (.runner input) = some m' := hstep
    have hlast := Nat.lt_of_lt_of_le (last_lt_of_attempting hpoint hstep hbroken)
      (horizon_of_step hmove)
    exact ⟨rounds, _, hcalls', .overflowed rounds n j e he hbroken hlast⟩

/-- A step in a pause. The attempt is a full one when the pause is over. -/
theorem attempts_of_resting {n j deadline : Nat} {sleep : Interrupt.Sleep} {e : ExchangeError}
    (hcalls : m.calls = rounds.flatMap (Round.calls p) ++
      (finds p n j ++ [.connect p.protocol (.error e)]))
    (hpoint : m.point = .attempting p (.resting deadline sleep)) (he : e.isCardRemoved = true)
    (hsleep : ∀ result, sleep ≠ .ended result) (hstep : m.runner input = some m') :
    m'.Attempts p := by
  have hrests := rests_of_runner hpoint hsleep hstep
  cases hrests with
  | wake w hclock =>
    exact ⟨rounds, _, hcalls, .attempting rounds rfl (.resting n j deadline e he (by simp))⟩
  | sleep hasleep =>
    exact ⟨rounds, _, hcalls, .attempting rounds rfl (.resting n j deadline e he (by simp))⟩
  | rest hraised =>
    -- with the pause, the attempt that came to nothing is a full one
    let r : Round := ⟨n, j, .error e, by simp [he]⟩
    have hround : r.calls p = finds p n j ++ [.connect p.protocol (.error e)] ++ [.rest] := by
      rw [List.append_assoc]
      rfl
    refine ⟨rounds ++ [r], [], ?_, .attempting _ rfl .arriving⟩
    rw [List.flatMap_append, List.flatMap_singleton, List.append_nil, hround, ← List.append_assoc,
      ← hcalls]
    rfl
  | stop hraised =>
    exact ⟨rounds, _, hcalls, .stopped rounds rfl (.resting n j deadline e he hsleep) hraised⟩

/-- A step inside a session, or out of it. -/
theorem attempts_of_serving {s : Service} (hcalls : m.calls = rounds.flatMap (Round.calls p) ++ [])
    (hpoint : m.point = .serving p s) (hlast : Connected rounds)
    (hstep : m.runner input = some m') : m'.Attempts p := by
  have hsilent := silent_of_runner (by simp [hpoint]) hstep
  have hcalls' := hsilent.calls.trans hcalls
  obtain ⟨queued, hgoes, -, -⟩ := leads_of_runner hstep
  rw [hpoint] at hgoes
  generalize hpoint' : m'.point = point' at hgoes
  generalize m'.sessions = sessions at hgoes
  cases hgoes with
  | turn hs' hx hturn => exact ⟨rounds, [], hcalls', .serving _ hpoint' hlast⟩
  | finish o hstage =>
    cases o with
    | removed =>
      by_cases hmulti : p.multiSession = true
      · rw [onward, if_pos hmulti] at hpoint'
        exact ⟨rounds, [], hcalls', .attempting rounds hpoint' .arriving⟩
      · rw [onward, if_neg hmulti] at hpoint'
        exact ⟨rounds, [], hcalls', .served (hpoint' ▸ rfl) hlast⟩
    | _ => exact ⟨rounds, [], hcalls', .served (hpoint' ▸ rfl) hlast⟩
  | panic => exact ⟨rounds, [], hcalls', .served (hpoint' ▸ rfl) hlast⟩

/-- A thread on its way out stays on it, and asks the reader for nothing. -/
theorem closing_of_runner (hpoint : m.point.isClosing = true) (hstep : m.runner input = some m') :
    m'.point.isClosing = true ∧ m'.calls = m.calls := by
  have hnot : ∀ p a, m.point ≠ .attempting p a := by
    intro p a hattempting
    rw [hattempting] at hpoint
    cases hpoint
  refine ⟨?_, (silent_of_runner hnot hstep).calls⟩
  obtain ⟨queued, hgoes, -, -⟩ := leads_of_runner hstep
  generalize m.point = point at hgoes hpoint
  generalize m'.point = point' at hgoes ⊢
  generalize m'.sessions = sessions at hgoes
  cases hgoes with
  | cancelled | failed | tell | terminate | exit => rfl
  | _ => cases hpoint

/-- A step on the way out. -/
theorem attempts_of_closing (hcalls : m.calls = rounds.flatMap (Round.calls p) ++ current)
    (hstand : m.Stand p rounds current) (hpoint : m.point.isClosing = true)
    (hstep : m.runner input = some m') : m'.Attempts p := by
  obtain ⟨hpoint', hcalls'⟩ := closing_of_runner hpoint hstep
  refine ⟨rounds, current, hcalls'.trans hcalls, ?_⟩
  cases hstand with
  | early hearly =>
    rw [isClosing_of_isNegotiating hearly] at hpoint
    cases hpoint
  | attempting rounds hattempting hbegun =>
    rw [hattempting] at hpoint
    cases hpoint
  | serving s hserving hlast =>
    rw [hserving] at hpoint
    cases hpoint
  | served _ hlast => exact .served hpoint' hlast
  | broken rounds _ hbroken => exact .broken rounds hpoint' hbroken
  | stopped rounds _ hbegun hraised =>
    exact .stopped rounds hpoint' hbegun ((interrupted_of_runner hstep).trans hraised)
  | overflowed rounds n j e he hbroken hlast =>
    have hmove : m.step (.runner input) = some m' := hstep
    exact .overflowed rounds n j e he (isBroken_of_step hbroken hmove)
      (Nat.lt_of_lt_of_le hlast (horizon_of_step hmove))

/-- **A step of the runner's thread** once the application has answered. -/
theorem attempts_of_runner (h : m.Attempts p) (hsent : m.point.isNegotiating = true →
    m.start.sent = some p) (hnothing : m.point.isNegotiating = true → m.calls = [])
    (hstep : m.runner input = some m') : m'.Attempts p := by
  obtain ⟨rounds, current, hcalls, hstand⟩ := h
  cases hstand with
  | early hpoint =>
    have hnone := hnothing hpoint
    cases negotiates_of_runner hpoint hstep with
    | ask | await | again => exact ⟨[], [], hnone, .early rfl⟩
    | giveUp hnegotiating hraised => exact ⟨[], [], hnone, .stopped [] rfl .arriving hraised⟩
    | receive deadline q hreceiving hfound =>
      -- what is found in the channel is the answer that was given
      rw [hsent hpoint] at hfound
      cases hfound
      exact ⟨[], [], hnone, .attempting [] rfl .arriving⟩
    | abort deadline hreceiving hmissing hdropped =>
      rw [hsent hpoint] at hmissing
      cases hmissing
  | @attempting rounds a current hpoint hbegun =>
    by_cases hresting : ∀ deadline sleep, a ≠ .resting deadline sleep
    · exact attempts_of_approach hcalls hpoint hbegun hresting hstep
    · cases hbegun with
      | resting n j deadline e he hsleep =>
        exact attempts_of_resting hcalls hpoint he hsleep hstep
      | arriving | cleared => simp at hresting
      | clearing n htouch ha => rcases ha with rfl | rfl <;> simp at hresting
      | seeking n j ha => rcases ha with rfl | rfl <;> simp at hresting
      | found n j ha => rcases ha with rfl | rfl <;> simp at hresting
  | serving s hpoint hlast => exact attempts_of_serving hcalls hpoint hlast hstep
  | served hpoint hlast => exact attempts_of_closing hcalls (.served hpoint hlast) hpoint hstep
  | broken rounds hpoint hbroken =>
    exact attempts_of_closing hcalls (.broken rounds hpoint hbroken) hpoint hstep
  | stopped rounds hpoint hbegun hraised =>
    exact attempts_of_closing hcalls (.stopped rounds hpoint hbegun hraised) hpoint hstep
  | overflowed rounds n j e he hbroken hlast =>
    exact attempts_of_closing hcalls (.overflowed rounds n j e he hbroken hlast)
      (isClosing_of_isBroken hbroken) hstep

/-- The thread waits for its parameters, or stops without them: it was stopped, or
the request was let go of. -/
def Idle (m : Machine) : Prop :=
  m.calls = [] ∧ (m.point.isNegotiating = true ∨
    m.point.isClosing = true ∧ (m.start.held = true → m.interrupted = true))

/-- A step of the thread while nobody has answered. -/
theorem idle_of_runner (h : m.Idle) (hsent : m.point.isNegotiating = true → m.start.sent = none)
    (hstep : m.runner input = some m') : m'.Idle := by
  obtain ⟨hcalls, hpoint | ⟨hpoint, hraised⟩⟩ := h
  · cases negotiates_of_runner hpoint hstep with
    | ask | await | again => exact ⟨hcalls, .inl rfl⟩
    | giveUp hnegotiating hraised => exact ⟨hcalls, .inr ⟨rfl, fun _ => hraised⟩⟩
    | receive deadline q hreceiving hfound =>
      rw [hsent hpoint] at hfound
      cases hfound
    | abort deadline hreceiving hmissing hdropped =>
      refine ⟨hcalls, .inr ⟨rfl, fun hheld => ?_⟩⟩
      have hlost : m.start.held = true := hheld
      rw [hdropped] at hlost
      cases hlost
  · obtain ⟨hpoint', hcalls'⟩ := closing_of_runner hpoint hstep
    obtain ⟨-, -, -, hkeeps⟩ := leads_of_runner hstep
    refine ⟨hcalls'.trans hcalls, .inr ⟨hpoint', fun hheld => ?_⟩⟩
    rw [interrupted_of_runner hstep]
    exact hraised (hkeeps.held ▸ hheld)

/-- **What holds of the attempts at every moment.** -/
inductive Paced (moves : List Move) (m : Machine) : Prop where
  | unanswered (hnobody : choices moves = []) (hidle : m.Idle)
  | answered (p : Parameters) (hchosen : choices moves = [p]) (hattempts : m.Attempts p)

/-- The application answers. -/
theorem Paced.resolve (h : Paced moves m) (hbarrier : Barrier first moves m)
    (hstep : m.step (.resolve p) = some m') : Paced (moves ++ [.resolve p]) m' := by
  have hheld := (attends_of_step hstep).resolve p rfl
  have hnobody := hbarrier.held hheld
  rcases runner_or_idles hstep with ⟨input, hmove, -⟩ | ⟨-, hidles⟩
  · cases hmove
  cases h with
  | unanswered _ hidle =>
    refine .answered p (by rw [choices_concat, hnobody]; rfl)
      ⟨[], [], hidles.calls.trans hidle.1, ?_⟩
    rcases hidle.2 with hpoint | ⟨hpoint, hraised⟩
    · exact .early (hidles.point ▸ hpoint)
    · exact .stopped [] (hidles.point ▸ hpoint) .arriving
        (interrupted_of_step (hraised hheld) hstep)
  | answered q hchosen hattempts =>
    -- the request was still held, so nobody had answered it
    rw [hnobody] at hchosen
    cases hchosen

/-- **One move** keeps it. -/
theorem Paced.step (h : Paced moves m) (hbarrier : Barrier first moves m)
    (hstep : m.step move = some m') : Paced (moves ++ [move]) m' := by
  by_cases hresolve : ∃ p, move = .resolve p
  · obtain ⟨p, rfl⟩ := hresolve
    exact h.resolve hbarrier hstep
  have hchoices : choices (moves ++ [move]) = choices moves := by
    refine choices_concat_of_none ?_ moves
    cases move with
    | resolve p => exact absurd ⟨p, rfl⟩ hresolve
    | _ => rfl
  rcases runner_or_idles hstep with ⟨input, rfl, hrunner⟩ | ⟨-, hidles⟩
  · have hsent := fun hpoint => (hbarrier.waiting hpoint).2.2
    cases h with
    | unanswered hnobody hidle =>
      rw [hnobody] at hsent
      exact .unanswered (hchoices.trans hnobody) (idle_of_runner hidle hsent hrunner)
    | answered p hchosen hattempts =>
      rw [hchosen] at hsent
      exact .answered p (hchoices.trans hchosen) (attempts_of_runner hattempts hsent
        (fun hpoint => (hbarrier.waiting hpoint).1) hrunner)
  · have hraised : m.interrupted = true → m'.interrupted = true :=
      fun hraised => interrupted_of_step hraised hstep
    cases h with
    | unanswered hnobody hidle =>
      refine .unanswered (hchoices.trans hnobody) ⟨hidles.calls.trans hidle.1, ?_⟩
      rw [hidles.point]
      exact hidle.2.imp_right fun ⟨hpoint, hstopped⟩ =>
        ⟨hpoint, fun hheld => hraised (hstopped ((attends_of_step hstep).held hheld).1)⟩
    | answered p hchosen hattempts =>
      obtain ⟨rounds, current, hcalls, hstand⟩ := hattempts
      exact .answered p (hchoices.trans hchosen)
        ⟨rounds, current, hidles.calls.trans hcalls,
          hstand.same hidles.point hraised (horizon_of_step hstep)⟩

/-- **A whole run** keeps it. -/
theorem paced_of_run {config : Config} {reader : String}
    (hrun : (initial config reader).run moves = some m) : Paced moves m :=
  induction_of_run (.unanswered rfl ⟨rfl, .inl rfl⟩)
    (fun _ _ _ _ hrun h hstep => h.step (barrier_of_run hrun) hstep) hrun

/-! ## A card that was gone -/

/-- **What follows a card that was gone** when the thread asked for a connection: a
pause, by which it can only be stopped, and the next call when a poll interval has passed.
The thread does not come to the pause if the clock cannot show its end. -/
inductive Paused (p : Parameters) (e : ExchangeError) (asked m : Machine) : Prop where
  | resting (deadline : Nat) (sleep : Interrupt.Sleep)
    (hpoint : m.point = .attempting p (.resting deadline sleep))
    (hcalls : m.calls = asked.calls ++ [.connect p.protocol (.error e)])
    (hdeadline : deadline = asked.horizon)
    (hsleep : ∀ result, sleep ≠ .ended result)
    (hwoken : sleep = .woken .timedOut → deadline ≤ m.clock)
  | stopped (hpoint : m.point.isClosing = true) (hraised : m.interrupted = true)
    (hcalls : m.calls = asked.calls ++ [.connect p.protocol (.error e)])
  | overflowed (hpoint : IsBroken m.point) (hlast : Instant.last < asked.horizon)
    (hcalls : m.calls = asked.calls ++ [.connect p.protocol (.error e)])
  | rested (more : List Call)
    (hcalls : m.calls = asked.calls ++ .connect p.protocol (.error e) :: .rest :: more)
    (hclock : asked.horizon ≤ m.clock)

/-- The log of the calls only grows. -/
theorem calls_of_step (hstep : m.step move = some m') : ∃ made, m'.calls = m.calls ++ made := by
  have hsame : m'.calls = m.calls → ∃ made, m'.calls = m.calls ++ made :=
    fun hcalls => ⟨[], hcalls.trans (List.append_nil _).symm⟩
  rcases runner_or_idles hstep with ⟨input, rfl, hrunner⟩ | ⟨-, hidles⟩
  · rcases towards_or_silent hrunner with ⟨p, a, -, call, -, hcalls, -⟩ | ⟨-, hsilent⟩
    · exact ⟨_, hcalls⟩
    · exact hsame hsilent.calls
  · exact hsame hidles.calls

namespace Paused

variable {asked : Machine} {e : ExchangeError}

/-- The thread is told that the card is gone. -/
theorem of_connection (hpoint : m.point = .attempting p .connecting)
    (he : e.isCardRemoved = true)
    (hstep : m.step (.runner (.connection (.error e))) = some m') : Paused p e m m' := by
  have hrunner : m.runner (.connection (.error e)) = some m' := hstep
  simp only [runner, hpoint, attempt, he, if_true] at hrunner
  split at hrunner
  · next deadline hdeadline =>
    cases hrunner
    exact .resting deadline .entering rfl rfl (Instant.after?_eq_some hdeadline) (by simp) (by simp)
  · next hnone =>
    cases hrunner
    exact .overflowed trivial (Instant.after?_eq_none_iff.1 hnone) rfl

/-- A step of the runner's thread. -/
theorem runner (h : Paused p e asked m) (hstep : m.runner input = some m') :
    Paused p e asked m' := by
  cases h with
  | resting deadline sleep hpoint hcalls hdeadline hsleep hwoken =>
    cases rests_of_runner hpoint hsleep hstep with
    | wake w hclock =>
      refine .resting deadline _ rfl hcalls hdeadline (by simp) fun hw => hclock ?_
      cases hw
      rfl
    | sleep hasleep => exact .resting deadline _ rfl hcalls hdeadline (by simp) (by simp)
    | rest hraised =>
      -- the sleep can only be over because its deadline had passed when it was woken
      refine .rested [] ?_ (hdeadline ▸ hwoken rfl)
      simp [goto, log, hcalls]
    | stop hraised => exact .stopped rfl hraised hcalls
  | stopped hpoint hraised hcalls =>
    obtain ⟨hpoint', hcalls'⟩ := closing_of_runner hpoint hstep
    exact .stopped hpoint' ((interrupted_of_runner hstep).trans hraised) (hcalls'.trans hcalls)
  | overflowed hbroken hlast hcalls =>
    obtain ⟨-, hcalls'⟩ := closing_of_runner (isClosing_of_isBroken hbroken) hstep
    have hmove : m.step (.runner input) = some m' := hstep
    exact .overflowed (isBroken_of_step hbroken hmove) hlast (hcalls'.trans hcalls)
  | rested more hcalls hclock =>
    have hmove : m.step (.runner input) = some m' := hstep
    obtain ⟨made, hcalls'⟩ := calls_of_step hmove
    refine .rested (more ++ made) ?_ (Nat.le_trans hclock (clock_of_step hmove))
    rw [hcalls', hcalls, List.append_assoc, List.cons_append, List.cons_append]

/-- **One move.** Others cannot shorten the pause. -/
theorem step (h : Paused p e asked m) (hstep : m.step move = some m') : Paused p e asked m' := by
  rcases runner_or_idles hstep with ⟨input, rfl, hrunner⟩ | ⟨-, hpoint', -, -, hcalls'⟩
  · exact h.runner hrunner
  · have hclock' := clock_of_step hstep
    cases h with
    | resting deadline sleep hpoint hcalls hdeadline hsleep hwoken =>
      exact .resting deadline sleep (hpoint'.trans hpoint) (hcalls'.trans hcalls) hdeadline hsleep
        fun hw => Nat.le_trans (hwoken hw) hclock'
    | stopped hpoint hraised hcalls =>
      exact .stopped (hpoint' ▸ hpoint) (interrupted_of_step hraised hstep) (hcalls'.trans hcalls)
    | overflowed hbroken hlast hcalls =>
      exact .overflowed (hpoint' ▸ hbroken) hlast (hcalls'.trans hcalls)
    | rested more hcalls hclock =>
      exact .rested more (hcalls'.trans hcalls) (Nat.le_trans hclock hclock')

/-- **Whatever follows** in a run. -/
theorem of_run {before after : List Move} (hbefore : first.run before = some asked)
    (hpoint : asked.point = .attempting p .connecting) (he : e.isCardRemoved = true)
    (hrun : first.run (before ++ .runner (.connection (.error e)) :: after) = some m) :
    Paused p e asked m := by
  rw [run_append hbefore] at hrun
  obtain ⟨m₁, hstep, hrun⟩ := run_cons_eq_some.1 hrun
  exact invariant_of_run (P := Paused p e asked) (fun _ _ _ h hstep => h.step hstep)
    (of_connection hpoint he hstep) hrun

end Paused

/-! ## What is told of the connections -/

/-- The session that is being served is there. -/
theorem exists_sitting {preempted : Nat → Prop} (hkept : m.Kept preempted) {s : Service}
    (hpoint : m.point = .serving p s) : ∃ x, m.sessions[s.session]? = some x :=
  ⟨_, List.getElem?_eq_getElem (Nat.lt_of_succ_le (Nat.le_of_eq (hkept.current p s hpoint)))⟩

/-- One session more is presented with its number. -/
theorem presents_concat (cards : List CardData) (card : CardData) :
    presents (cards ++ [card]) = presents cards ++ [.cardPresent cards.length card] :=
  List.mapIdx_concat

/-- Of what is told of a session, the announcement hands it over. -/
theorem filter_story {stage : Option Stage} (h : Sitting.Announced stage) (x : Sitting)
    (number : Nat) : (x.story number stage).filter isPresent =
      [.cardPresent number x.session.card] := by
  rw [Sitting.story_eq h]
  rcases x.session.told_cases (x.calls stage) with htold | ⟨o, -, htold⟩
  · rw [htold]
    rfl
  · rw [htold]
    cases o <;> rfl

/-- The first sessions, when all of them were announced. -/
theorem filter_storyAt {n : Nat} (hn : n ≤ m.sessions.length)
    (h : ∀ k < n, Sitting.Announced (m.stage? k)) :
    ((List.range n).flatMap m.storyAt).filter isPresent = presents (m.cards.take n) := by
  induction n with
  | zero => rfl
  | succ n ih =>
    have hx : m.sessions[n]? = some m.sessions[n] := List.getElem?_eq_getElem hn
    have hcard : m.cards[n]? = some m.sessions[n].session.card := by
      rw [cards, List.getElem?_map, hx]
      rfl
    have hlength : (m.cards.take n).length = n := by
      rw [List.length_take, cards, List.length_map]
      omega
    rw [List.range_succ, List.flatMap_append, List.flatMap_singleton, List.filter_append,
      ih (by omega) fun k hk => h k (by omega), storyAt_of_getElem? hx,
      filter_story (h n (Nat.lt_succ_self n)), List.take_add_one, hcard, Option.toList_some,
      presents_concat, hlength]

/-- **All sessions are handed over** but one that was just opened. -/
theorem filter_stories {preempted : Nat → Prop} (hkept : m.Kept preempted) :
    m.stories.filter isPresent =
      presents (if m.point.isUnannounced then m.cards.dropLast else m.cards) := by
  cases hpoint : m.point.isUnannounced with
  | true =>
    -- the last session has no story yet
    have hserving : ∃ p s, m.point = .serving p s ∧ ∀ x : Sitting,
        x.story s.session (some s.stage) = [] := by
      unfold Point.isUnannounced at hpoint
      split at hpoint
      · next p number idleSince hserving => exact ⟨p, _, hserving, fun x => rfl⟩
      · next p number idleSince hserving => exact ⟨p, _, hserving, fun x => rfl⟩
      · cases hpoint
    obtain ⟨p, s, hserving, hnothing⟩ := hserving
    have hcurrent := hkept.current p s hserving
    have hlength : m.cards.length = s.session + 1 := by rw [cards, List.length_map, hcurrent]
    obtain ⟨x, hx⟩ := exists_sitting hkept hserving
    have hstage : m.stage? s.session = some s.stage :=
      (stage?_of_serving hserving s.session).trans (if_pos rfl)
    have hfirst := filter_storyAt (n := s.session) (m := m) (by omega) fun k hk => by
      rw [stage?_eq_none_of_lt hkept (by omega)]
      trivial
    rw [stories, ← hcurrent, List.range_succ, List.flatMap_append, List.flatMap_singleton,
      storyAt_of_getElem? hx, hstage, hnothing, List.append_nil, hfirst, if_pos rfl,
      List.dropLast_eq_take, hlength, Nat.add_sub_cancel]
  | false =>
    have hannounced : ∀ k < m.sessions.length, Sitting.Announced (m.stage? k) := by
      intro k hk
      unfold stage?
      split
      · next p s hserving =>
        rw [hserving] at hpoint
        split
        · obtain ⟨number, idleSince, stage⟩ := s
          cases stage with
          | opened => cases hpoint
          | announcing => cases hpoint
          | _ => trivial
        · trivial
      · trivial
    have hlength : m.cards.length = m.sessions.length := List.length_map _
    rw [stories, filter_storyAt (Nat.le_refl _) hannounced, ← hlength, List.take_length]
    rfl

/-- Beside the stories of the sessions, nothing that was queued hands one over. -/
theorem filter_of_placed {chosen : Option Parameters} {sessions : List Sitting}
    {stories events : List Event} {point : Point}
    (h : Placed chosen sessions stories events point) (hnil : sessions = [] → stories = []) :
    events.filter isPresent = stories.filter isPresent := by
  rcases events_of_placed h with ⟨hsessions, rfl⟩ | ⟨outside, -, rfl⟩
  · rw [hnil hsessions]
  · have hfailed : (outside.map Event.failed).filter isPresent = [] := by
      rw [List.filter_eq_nil_iff]
      intro event hmem
      obtain ⟨e, -, rfl⟩ := List.mem_map.1 hmem
      exact Bool.false_ne_true
    rw [List.filter_cons_of_neg (by exact Bool.false_ne_true), List.filter_append, hfailed,
      List.append_nil]

/-- **A run hands over a session for each connection**, in order. The last may
still have to be handed over. -/
theorem presents_of_run {config : Config} {reader : String}
    (hrun : (initial config reader).run moves = some m) :
    m.events.filter isPresent =
      presents (if m.point.isUnannounced then m.connected.dropLast else m.connected) := by
  obtain ⟨chosen, hstoried, -⟩ := storied_of_run (.initial config reader) hrun
  obtain ⟨preempted, hkept⟩ := hstoried.kept
  obtain ⟨-, hmatched⟩ := matched_of_run (.initial config reader)
    (fun k x hx => by simp [initial] at hx) rfl hrun
  rw [filter_of_placed hstoried.placed fun hnil => by rw [stories, hnil]; rfl,
    filter_stories hkept, hmatched]

/-- From where the thread is about to hand the session over, it does. -/
theorem exists_told {number idleSince : Nat} {x : Sitting}
    (hserving : m.point = .serving p ⟨number, idleSince, .announcing⟩)
    (hx : m.sessions[number]? = some x) :
    ∃ m', m.step (.runner .go) = some m' ∧ m'.point.isUnannounced = false ∧
      m'.calls = m.calls := by
  simp only [step, runner, hserving, hx, serve]
  exact ⟨_, rfl, rfl, rfl⟩

/-- The thread is not held up before that. -/
theorem exists_presented {preempted : Nat → Prop} (hkept : m.Kept preempted)
    (hpoint : m.point.isUnannounced = true) : ∃ n m', n ≤ 2 ∧
      m.run (List.replicate n (.runner .go)) = some m' ∧ m'.point.isUnannounced = false ∧
        m'.calls = m.calls := by
  unfold Point.isUnannounced at hpoint
  split at hpoint
  · next p number idleSince hserving =>
    obtain ⟨x, hx⟩ := exists_sitting hkept hserving
    obtain ⟨m₁, hstep, hserving₁, hsessions, hcalls⟩ : ∃ m₁, m.step (.runner .go) = some m₁ ∧
        m₁.point = .serving p ⟨number, idleSince, .announcing⟩ ∧ m₁.sessions = m.sessions ∧
          m₁.calls = m.calls := by
      obtain ⟨states, heq⟩ := m.enter_eq .active
      simp only [step, runner, hserving, hx, serve, heq]
      exact ⟨_, rfl, rfl, rfl, rfl⟩
    obtain ⟨m₂, hstep₂, hpoint₂, hcalls₂⟩ := exists_told hserving₁ (hsessions ▸ hx)
    refine ⟨2, m₂, Nat.le_refl 2, ?_, hpoint₂, hcalls₂.trans hcalls⟩
    exact run_cons_eq_some.2 ⟨m₁, hstep, run_cons_eq_some.2 ⟨m₂, hstep₂, rfl⟩⟩
  · next p number idleSince hserving =>
    obtain ⟨x, hx⟩ := exists_sitting hkept hserving
    obtain ⟨m₁, hstep, hpoint₁, hcalls⟩ := exists_told hserving hx
    exact ⟨1, m₁, Nat.le_succ 1, run_cons_eq_some.2 ⟨m₁, hstep, rfl⟩, hpoint₁, hcalls⟩
  · cases hpoint

/-! ## Every run -/

/-- **A runner that uses its reader as it should.** -/
structure Disciplined (first : Machine) (moves : List Move) (m : Machine) : Prop where
  /-- Before the application has answered, the reader is asked for nothing. -/
  waiting : (∀ p, .resolve p ∉ moves) → m.calls = []
  /-- With the parameters chosen, the calls are full attempts and what was made
  of the last one. -/
  attempts : ∀ p, .resolve p ∈ moves → m.Attempts p
  /-- After a card that was gone, whatever the error says of how that was
  noticed, a poll interval passes before the next call. -/
  paused : ∀ before after asked p (e : ExchangeError) doings,
    moves = before ++ .runner (.connection (.error (e.withContexts doings))) :: after →
    first.run before = some asked → asked.point = .attempting p .connecting →
    e.isCardRemoved = true → Paused p (e.withContexts doings) asked m
  /-- A session is handed to the application for each connection that was made,
  and for no other call. The last one may have to be handed over yet. -/
  presented : m.events.filter isPresent =
    presents (if m.point.isUnannounced then m.connected.dropLast else m.connected)
  /-- Then nothing keeps the thread from handing it over. -/
  announces : m.point.isUnannounced = true → ∃ n m', n ≤ 2 ∧
    m.run (List.replicate n (.runner .go)) = some m' ∧
      m'.events.filter isPresent = presents m.connected
  /-- The sessions are those of the connections. -/
  sessions : m.cards = m.connected
  /-- When the thread tries to get a card, all sessions before were ended by
  a removal, and if there were any, the application wants several. -/
  further : ∀ p a, m.point = .attempting p a → ∀ (k : Nat) (x : Sitting),
    m.sessions[k]? = some x → p.multiSession = true ∧ x.session.outcome = some .removed

/-- The reader has to be seen empty, and the first card is gone before it is
connected to. -/
def vanishing : List Move :=
  let go : Move := .runner .go
  let absent (seen : Bool) : Move := .runner (.presence (.ok seen))
  let gone : ExchangeError := .context "connecting" (.context "powering" (.transport .cardRemoved))
  [go, .deliver false, go, .resolve { touchRequired := true }, go, go, go, absent false, go,
    absent true, go, go, absent false, go, absent true, go, .runner (.connection (.error gone)), go,
    .tick 1000000000, .runner (.wake .timedOut), go, go, go, absent true, go, go, absent true, go,
    .runner (.connection (.ok ⟨"Reader 0", [], .t1⟩)), go, go]

end Machine

end Runner

end SmartCard
