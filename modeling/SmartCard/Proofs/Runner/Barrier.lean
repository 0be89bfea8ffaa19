import SmartCard.Proofs.Runner.Callbacks
import SmartCard.Proofs.Runner.Stopping
import Mathlib.Data.List.Induction
/-!
# The start barrier

A runner asks its application for permission to start and does nothing until
it has an answer. `Negotiates` lists the steps of its thread up to there, and
`Barrier` says what they preserve: nothing was asked of the reader, and the
channel holds exactly what the application has chosen, so that an answer that
was given is received however late the thread looks for it. From there on the
thread only works with parameters that it has received (`Received`).

An application that lets go of the request without an answer is told so.
`Unanswered` says what has been shown and told at each point of such a run,
which is left in one way only: by a stop that the thread finds before it finds
the channel abandoned (`StoppedFirst`).
-/

namespace SmartCard

namespace Runner

/-- The runner's thread has not received its parameters. -/
def Point.isNegotiating : Point → Bool
  | .opening | .negotiating | .receiving _ => true
  | _ => false

/-- The parameters that the runner's thread works with. -/
def Point.parameters? : Point → Option Parameters
  | .attempting p _ | .serving p _ => some p
  | _ => none

/-- The states entered and the events queued in a run that comes to this result
before it has parameters. -/
def unansweredBefore? : Except TaskError Exit → Option (List State × List Event)
  | .ok (.fault .startAborted) => some ([.fault], [.start, .failed .startAborted])
  | .error .cancelled => some ([], [.start])
  | _ => none

/-- The states entered and the events queued at each point of a run whose start
request nobody answers. -/
def Point.unanswered? : Point → Option (List State × List Event)
  | .opening => some ([], [])
  | .negotiating | .receiving _ | .stopping .cancelled | .stopping (.fault .startAborted) =>
    some ([], [.start])
  | .failing .startAborted => some ([.fault], [.start])
  | .terminating result => unansweredBefore? result
  | .ending (.returned result) | .gone (.returned result) =>
    (unansweredBefore? result).map fun log => (log.1 ++ [.terminated], log.2)
  | _ => none

/-- How many steps of its own the thread is away from its end, once its start
request is abandoned. -/
def Point.stepsLeft : Point → Nat
  | .opening => 7
  | .negotiating => 6
  | .receiving _ => 5
  | .stopping _ => 4
  | .failing _ => 3
  | .terminating _ => 2
  | .ending _ => 1
  | _ => 0

theorem Point.stepsLeft_le (point : Point) : point.stepsLeft ≤ 7 := by
  cases point <;> exact Nat.le_of_ble_eq_true rfl

/-- The result is that of a runner that was interrupted. -/
def isCancellation : Except TaskError Exit → Bool
  | .error .cancelled => true
  | _ => false

/-- The runner's thread stops because it was interrupted. -/
def Point.isCancelled : Point → Bool
  | .stopping .cancelled => true
  | .terminating result | .ending (.returned result) | .gone (.returned result) =>
    isCancellation result
  | _ => false

theorem parameters_of_isNegotiating {point : Point} (h : point.isNegotiating = true) :
    point.parameters? = none := by
  cases point with
  | attempting p a => cases h
  | serving p s => cases h
  | _ => rfl

namespace Machine

/-- The parameters that a move sends to the runner. -/
def Move.choice? : Move → Option Parameters
  | .resolve p => some p
  | _ => none

/-- The answers to the start request that are given in a run. -/
def choices (moves : List Move) : List Parameters :=
  moves.filterMap Move.choice?

variable {first m m' : Machine} {move : Move} {moves : List Move} {input : Input}
variable {p : Parameters}

/-! ## Runs and their last moves -/

/-- A run goes on to where its last move leads. -/
theorem run_concat_eq_some : first.run (moves ++ [move]) = some m' ↔
    ∃ m, first.run moves = some m ∧ m.step move = some m' := by
  induction moves generalizing first with
  | nil =>
    rw [List.nil_append, run_cons_eq_some]
    constructor
    · rintro ⟨m₁, hstep, ⟨⟩⟩
      exact ⟨first, rfl, hstep⟩
    · rintro ⟨m, ⟨⟩, hstep⟩
      exact ⟨m', hstep, rfl⟩
  | cons move' moves ih =>
    rw [List.cons_append, run_cons_eq_some]
    constructor
    · rintro ⟨m₁, hstep, hrun⟩
      obtain ⟨m, hrun', hlast⟩ := ih.1 hrun
      exact ⟨m, run_cons_eq_some.2 ⟨m₁, hstep, hrun'⟩, hlast⟩
    · rintro ⟨m, hrun, hlast⟩
      obtain ⟨m₁, hstep, hrun'⟩ := run_cons_eq_some.1 hrun
      exact ⟨m₁, hstep, ih.2 ⟨m, hrun', hlast⟩⟩

/-- **What a machine has and every further move keeps, a run has.** The induction
is from the end of the moves, so that what is kept can be about all of them. -/
theorem induction_of_run {P : List Move → Machine → Prop} (hfirst : P [] first)
    (hkeeps : ∀ moves m move m', first.run moves = some m → P moves m → m.step move = some m' →
      P (moves ++ [move]) m') (hrun : first.run moves = some m) : P moves m := by
  induction moves using List.reverseRecOn generalizing m with
  | nil =>
    cases hrun
    exact hfirst
  | append_singleton moves move ih =>
    obtain ⟨m₁, hrun₁, hstep⟩ := run_concat_eq_some.1 hrun
    exact hkeeps moves m₁ move m hrun₁ (ih hrun₁) hstep

theorem choices_concat (moves : List Move) (move : Move) :
    choices (moves ++ [move]) = choices moves ++ move.choice?.toList := by
  unfold choices
  rw [List.filterMap_append]
  cases hchoice : move.choice? <;> simp [hchoice]

/-- A move that answers nothing leaves the answers. -/
theorem choices_concat_of_none (h : move.choice? = none) (moves : List Move) :
    choices (moves ++ [move]) = choices moves := by
  rw [choices_concat, h]
  exact List.append_nil _

/-- An answer was given if it is among the moves. -/
theorem mem_choices : p ∈ choices moves ↔ .resolve p ∈ moves := by
  unfold choices
  rw [List.mem_filterMap]
  constructor
  · rintro ⟨move, hmem, hchoice⟩
    cases move with
    | resolve q =>
      cases hchoice
      exact hmem
    | _ => cases hchoice
  · exact fun hmem => ⟨_, hmem, rfl⟩

/-! ## The negotiation -/

/-- **The steps of the runner's thread before it has its parameters.** -/
inductive Negotiates (m : Machine) : Input → Machine → Prop where
  | ask (hpoint : m.point = .opening) :
    Negotiates m .go ((m.queue [.start]).goto .negotiating)
  | giveUp (hpoint : m.point = .negotiating) (hraised : m.interrupted = true) :
    Negotiates m .go { m with start := m.start.stopListening, point := .stopping .cancelled }
  | await (deadline : Nat) (hpoint : m.point = .negotiating) (hraised : m.interrupted = false) :
    Negotiates m .go (m.goto (.receiving deadline))
  | again (deadline : Nat) (hpoint : m.point = .receiving deadline) :
    Negotiates m (.wake .timedOut) (m.goto .negotiating)
  | receive (deadline : Nat) (p : Parameters) (hpoint : m.point = .receiving deadline)
    (hsent : m.start.sent = some p) :
    Negotiates m .go
      { m with start := m.start.stopListening, point := .attempting p .arriving }
  | abort (deadline : Nat) (hpoint : m.point = .receiving deadline)
    (hsent : m.start.sent = none) (hheld : m.start.held = false) :
    Negotiates m .go
      { m with start := m.start.stopListening, point := .stopping (.fault .startAborted) }

/-- A step of the thread there is one of those listed. -/
theorem negotiates_of_runner (hpoint : m.point.isNegotiating = true)
    (h : m.runner input = some m') : m.Negotiates input m' := by
  unfold runner at h
  cases hp : m.point with
  | opening =>
    rw [hp] at h
    cases input with
    | go =>
      cases h
      exact .ask hp
    | _ => cases h
  | negotiating =>
    rw [hp] at h
    cases input with
    | go =>
      simp only at h
      split at h
      · next hraised =>
        cases h
        exact .giveUp hp hraised
      · next hraised =>
        cases h
        exact .await _ hp (Bool.eq_false_iff.2 hraised)
    | _ => cases h
  | receiving deadline =>
    rw [hp] at h
    cases input with
    | go =>
      unfold StartRequest.receive at h
      cases hsent : m.start.sent with
      | some p =>
        simp only [hsent] at h
        cases h
        exact .receive deadline p hp hsent
      | none =>
        cases hheld : m.start.held with
        | true =>
          simp only [hsent, hheld, if_true] at h
          cases h
        | false =>
          simp only [hsent, hheld] at h
          cases h
          exact .abort deadline hp hsent hheld
    | wake w =>
      cases w with
      | timedOut =>
        simp only at h
        split at h
        · cases h
        · cases h
          exact .again deadline hp
      | notified => cases h
    | _ => cases h
  | _ =>
    rw [hp] at hpoint
    cases hpoint

/-- Later steps do not lead back there, and keep the parameters. -/
theorem parameters_of_goes {point point' : Point} {sessions : List Sitting} {queued : List Event}
    (hgoes : m.Goes point point' sessions queued) (hpoint : point.isNegotiating = false) :
    point'.isNegotiating = false ∧
      ∀ p, point'.parameters? = some p → point.parameters? = some p := by
  cases hgoes with
  | ask => cases hpoint
  | giveUp => cases hpoint
  | await => cases hpoint
  | again => cases hpoint
  | begin => cases hpoint
  | aborted => cases hpoint
  | attempt => exact ⟨rfl, fun p hp => hp⟩
  | connect => exact ⟨rfl, fun p hp => hp⟩
  | turn => exact ⟨rfl, fun p hp => hp⟩
  | @finish p s o hstage =>
    cases o with
    | removed =>
      unfold onward
      cases p.multiSession with
      | true => exact ⟨rfl, fun p hp => hp⟩
      | false => exact ⟨rfl, by simp [Point.parameters?]⟩
    | idleTimeout limit => exact ⟨rfl, by simp [onward, Point.parameters?]⟩
    | fault e => exact ⟨rfl, by simp [onward, Point.parameters?]⟩
    | cancelled => exact ⟨rfl, by simp [onward, Point.parameters?]⟩
  | _ => exact ⟨rfl, by simp [Point.parameters?]⟩

/-- Nor do they lead to where the request is found abandoned. -/
theorem not_aborted_of_runner (hpoint : m.point.isNegotiating = false)
    (h : m.runner input = some m') : m'.point ≠ .stopping (.fault .startAborted) := by
  intro haborted
  rcases towards_or_silent h with ⟨p, a, hattempting, call, happroaches, -⟩ | ⟨hnot, -⟩
  · rw [haborted] at happroaches
    cases happroaches
  · obtain ⟨queued, hgoes, -⟩ := leads_of_runner h
    generalize hpoint₁ : m.point = point at hgoes hpoint hnot
    rw [haborted] at hgoes
    generalize hpoint' : Point.stopping (.fault .startAborted) = point' at hgoes
    generalize m'.sessions = sessions at hgoes
    cases hgoes with
    | aborted => cases hpoint
    | leave p a why hwhy => exact hnot p a rfl
    | @finish p s o hstage =>
      cases o with
      | removed => cases hmulti : p.multiSession <;> simp [onward, hmulti] at hpoint'
      | _ => simp [onward] at hpoint'
    | _ => cases hpoint'

/-- The protocols asked for are those of the calls to connect. -/
theorem mem_connects {protocol : Protocol} :
    protocol ∈ m.connects ↔ ∃ answer, .connect protocol answer ∈ m.calls := by
  unfold connects
  rw [List.mem_filterMap]
  constructor
  · rintro ⟨call, hmem, hcall⟩
    cases call with
    | connect protocol' answer =>
      cases hcall
      exact ⟨answer, hmem⟩
    | presence present answer => cases hcall
    | rest => cases hcall
  · rintro ⟨answer, hmem⟩
    exact ⟨_, hmem, rfl⟩

/-- On the way to a card, the thread connects with the protocol of its parameters. -/
theorem connects_of_approaches {a : Attempt} {point : Point} {call : Option Call}
    (happroaches : Approaches p a point call) (hcalls : m'.calls = m.calls ++ call.toList)
    {protocol : Protocol} (h : protocol ∈ m'.connects) :
    protocol ∈ m.connects ∨ protocol = p.protocol := by
  obtain ⟨answer, hmem⟩ := mem_connects.1 h
  rw [hcalls, List.mem_append] at hmem
  rcases hmem with hold | hnew
  · exact .inl (mem_connects.2 ⟨answer, hold⟩)
  · right
    rw [Option.mem_toList] at hnew
    cases happroaches with
    | connect s card hstage =>
      cases hnew
      rfl
    | leave deadline e he =>
      cases hnew
      rfl
    | overflow e he =>
      cases hnew
      rfl
    | refuse e he =>
      cases hnew
      rfl
    | _ => cases hnew

/-! ## What is known of the parameters -/

/-- **The thread has received these parameters**: it found them in the channel,
when it had asked nothing of the reader, and the application had sent them. -/
def Received (first : Machine) (moves : List Move) (p : Parameters) : Prop :=
  ∃ before after m deadline, moves = before ++ .runner .go :: after ∧
    first.run before = some m ∧ m.point = .receiving deadline ∧ m.start.sent = some p ∧
    m.calls = [] ∧ .resolve p ∈ before

theorem Received.mono (h : Received first moves p) (later : List Move) :
    Received first (moves ++ later) p := by
  obtain ⟨before, after, m, deadline, rfl, hfound⟩ := h
  exact ⟨before, after ++ later, m, deadline, by simp, hfound⟩

theorem Received.resolved (h : Received first moves p) : .resolve p ∈ moves := by
  obtain ⟨before, after, m, deadline, rfl, -, -, -, -, hmem⟩ := h
  exact List.mem_append_left _ hmem

/-- **What holds of the start at every moment.** -/
structure Barrier (first : Machine) (moves : List Move) (m : Machine) : Prop where
  /-- As long as the request is held, it is not answered. -/
  held : m.start.held = true → choices moves = []
  /-- It is answered once at most. -/
  single : (choices moves).length ≤ 1
  /-- Before the parameters are received, the channel has what was sent. -/
  waiting : m.point.isNegotiating = true →
    m.calls = [] ∧ m.start.listening = true ∧ m.start.sent = (choices moves).head?
  /-- The thread works with parameters that it has received. -/
  used : ∀ p, m.point.parameters? = some p → Received first moves p
  /-- It asks the reader for nothing before, and connects with their protocol. -/
  called : m.calls ≠ [] → ∃ p, Received first moves p ∧ ∀ protocol ∈ m.connects,
    protocol = p.protocol
  /-- The request is found abandoned only if it was let go of without an answer. -/
  aborted : m.point = .stopping (.fault .startAborted) →
    choices moves = [] ∧ m.start.held = false

namespace Barrier

theorem initial (config : Config) (reader : String) :
    Barrier (initial config reader) [] (initial config reader) where
  held := fun _ => rfl
  single := Nat.zero_le 1
  waiting := fun _ => ⟨rfl, rfl, rfl⟩
  used := by simp [Machine.initial, Point.parameters?]
  called := fun h => absurd rfl h
  aborted := by simp [Machine.initial]

/-- An answer that was given is the only one. -/
theorem choices_eq (h : Barrier first moves m) (hp : .resolve p ∈ moves) :
    choices moves = [p] := by
  have hsingle := h.single
  have hmem := mem_choices.2 hp
  generalize choices moves = chosen at hsingle hmem
  cases chosen with
  | nil => cases hmem
  | cons q rest =>
    have hrest : rest.length ≤ 0 := Nat.le_of_succ_le_succ hsingle
    obtain rfl : rest = [] := List.eq_nil_of_length_eq_zero (Nat.le_zero.1 hrest)
    rw [List.mem_singleton.1 hmem]

/-- A move that answers nothing, and leaves what the thread does and the channel. -/
theorem same (h : Barrier first moves m) (hchoice : move.choice? = none)
    (hpoint : m'.point = m.point) (hcalls : m'.calls = m.calls)
    (hheld : m'.start.held = true → m.start.held = true)
    (hlistening : m'.start.listening = m.start.listening) (hsent : m'.start.sent = m.start.sent) :
    Barrier first (moves ++ [move]) m' := by
  have hchoices := choices_concat_of_none hchoice moves
  have hconnects : m'.connects = m.connects := by rw [connects, hcalls, connects]
  refine ⟨?_, ?_, ?_, ?_, ?_, ?_⟩
  · exact fun hheld' => hchoices.trans (h.held (hheld hheld'))
  · exact hchoices ▸ h.single
  · rw [hpoint, hcalls, hlistening, hsent, hchoices]
    exact h.waiting
  · rw [hpoint]
    exact fun p hp => (h.used p hp).mono _
  · rw [hcalls, hconnects]
    intro hne
    obtain ⟨p, hreceived, hprotocol⟩ := h.called hne
    exact ⟨p, hreceived.mono _, hprotocol⟩
  · rw [hpoint, hchoices]
    intro haborted
    obtain ⟨hnone, hdropped⟩ := h.aborted haborted
    refine ⟨hnone, Bool.eq_false_iff.2 fun hheld' => ?_⟩
    rw [hheld hheld'] at hdropped
    cases hdropped

/-- The application answers. -/
theorem resolve (h : Barrier first moves m) (hheld : m.start.held = true) (p : Parameters) :
    Barrier first (moves ++ [.resolve p]) { m with start := m.start.resolve p } := by
  have hchoices : choices (moves ++ [.resolve p]) = [p] := by
    rw [choices_concat, h.held hheld]
    rfl
  refine ⟨?_, ?_, ?_, ?_, ?_, ?_⟩
  · simp [StartRequest.resolve]
  · exact hchoices ▸ Nat.le_refl 1
  · intro hpoint
    obtain ⟨hcalls, hlistening, -⟩ := h.waiting hpoint
    rw [hchoices]
    refine ⟨hcalls, hlistening, ?_⟩
    simp only [StartRequest.resolve, hlistening, if_true, List.head?_cons]
  · exact fun q hq => (h.used q hq).mono _
  · intro hne
    obtain ⟨q, hreceived, hprotocol⟩ := h.called hne
    exact ⟨q, hreceived.mono _, hprotocol⟩
  · intro hpoint
    obtain ⟨-, hdropped⟩ := h.aborted hpoint
    rw [hheld] at hdropped
    cases hdropped

/-- The steps of the thread before it has its parameters. -/
theorem negotiates (h : Barrier first moves m) (hrun : first.run moves = some m)
    (hpoint : m.point.isNegotiating = true) (hsteps : m.Negotiates input m') :
    Barrier first (moves ++ [.runner input]) m' := by
  have hchoices : choices (moves ++ [.runner input]) = choices moves :=
    choices_concat_of_none rfl moves
  obtain ⟨hcalls, hlistening, hsent⟩ := h.waiting hpoint
  have hstay : ∀ {m' : Machine}, m'.calls = m.calls → m'.start = m.start →
      m'.point.isNegotiating = true → Barrier first (moves ++ [.runner input]) m' := by
    intro m' hcalls' hstart' hpoint'
    refine ⟨?_, hchoices ▸ h.single, fun _ => ?_, fun p hp => ?_, ?_, fun haborted => ?_⟩
    · rw [hstart', hchoices]
      exact h.held
    · rw [hcalls', hstart', hchoices]
      exact ⟨hcalls, hlistening, hsent⟩
    · rw [parameters_of_isNegotiating hpoint'] at hp
      cases hp
    · exact fun hne => absurd (hcalls'.trans hcalls) hne
    · rw [haborted] at hpoint'
      cases hpoint'
  cases hsteps with
  | ask hopening => exact hstay rfl rfl rfl
  | await deadline hnegotiating hraised => exact hstay rfl rfl rfl
  | again deadline hreceiving => exact hstay rfl rfl rfl
  | giveUp hnegotiating hraised =>
    exact ⟨fun hheld => hchoices.trans (h.held hheld), hchoices ▸ h.single,
      by simp [Point.isNegotiating], by simp [Point.parameters?],
      fun hne => absurd hcalls hne, by simp⟩
  | receive deadline p hreceiving hfound =>
    have hmem : .resolve p ∈ moves := by
      rw [hfound] at hsent
      exact mem_choices.1 (List.mem_of_head? hsent.symm)
    refine ⟨fun hheld => hchoices.trans (h.held hheld), hchoices ▸ h.single,
      by simp [Point.isNegotiating], ?_, fun hne => absurd hcalls hne, by simp⟩
    rintro q ⟨⟩
    exact ⟨moves, [], m, deadline, rfl, hrun, hreceiving, hfound, hcalls, hmem⟩
  | abort deadline hreceiving hnothing hdropped =>
    refine ⟨fun hheld => hchoices.trans (h.held hheld), hchoices ▸ h.single,
      by simp [Point.isNegotiating], by simp [Point.parameters?],
      fun hne => absurd hcalls hne, fun _ => ⟨?_, hdropped⟩⟩
    rw [hnothing] at hsent
    rw [hchoices, List.head?_eq_none_iff.1 hsent.symm]

/-- The steps of the thread once it has its parameters. -/
theorem works (h : Barrier first moves m) (hpoint : m.point.isNegotiating = false)
    (hrunner : m.runner input = some m') : Barrier first (moves ++ [.runner input]) m' := by
  have hchoices : choices (moves ++ [.runner input]) = choices moves :=
    choices_concat_of_none rfl moves
  obtain ⟨queued, hgoes, -, hkeeps⟩ := leads_of_runner hrunner
  obtain ⟨hpoint', hparameters⟩ := parameters_of_goes hgoes hpoint
  refine ⟨?_, hchoices ▸ h.single, ?_, fun p hp => (h.used p (hparameters p hp)).mono _, ?_, ?_⟩
  · rw [hkeeps.held, hchoices]
    exact h.held
  · rw [hpoint']
    intro hwaiting
    cases hwaiting
  · intro hne
    rcases towards_or_silent hrunner with
      ⟨p, a, hattempting, call, happroaches, hcalls, -⟩ | ⟨-, hsilent⟩
    · have hreceived := h.used p (by rw [hattempting]; rfl)
      refine ⟨p, hreceived.mono _, fun protocol hprotocol => ?_⟩
      rcases connects_of_approaches happroaches hcalls hprotocol with hold | hnew
      · have hcalled : m.calls ≠ [] := by
          intro hnil
          rw [connects, hnil] at hold
          cases hold
        obtain ⟨q, hreceived', hprotocols⟩ := h.called hcalled
        have hchosen := h.choices_eq hreceived.resolved
        rw [h.choices_eq hreceived'.resolved] at hchosen
        cases hchosen
        exact hprotocols protocol hold
      · exact hnew
    · have hconnects : m'.connects = m.connects := by rw [connects, hsilent.calls, connects]
      rw [hsilent.calls] at hne
      obtain ⟨p, hreceived, hprotocols⟩ := h.called hne
      rw [hconnects]
      exact ⟨p, hreceived.mono _, hprotocols⟩
  · exact fun haborted => absurd haborted (not_aborted_of_runner hpoint hrunner)

/-- **One move** keeps it. -/
theorem step (h : Barrier first moves m) (hrun : first.run moves = some m)
    (hstep : m.step move = some m') : Barrier first (moves ++ [move]) m' := by
  cases happens_of_step hstep with
  | aside haside =>
    cases haside with
    | tick nanos => exact h.same rfl rfl rfl id rfl rfl
    | deliver panics event hget =>
      by_cases hpanics : panics ∧ event = .start
      · rw [if_pos hpanics]
        exact h.same rfl rfl rfl (by simp [StartRequest.abandon]) rfl rfl
      · rw [if_neg hpanics]
        exact h.same rfl rfl rfl id rfl rfl
    | resolve p hheld => exact h.resolve hheld p
    | abandon hheld => exact h.same rfl rfl rfl (by simp [StartRequest.abandon]) rfl rfl
    | stop => exact h.same rfl rfl rfl id rfl rfl
    | raise hraising => exact h.same rfl rfl rfl id rfl rfl
  | publish number command hx => exact h.same rfl rfl rfl id rfl rfl
  | watch number input hx hwatch hturn => exact h.same rfl rfl rfl id rfl rfl
  | runner input hleads =>
    cases hpoint : m.point.isNegotiating with
    | true => exact h.negotiates hrun hpoint (negotiates_of_runner hpoint hstep)
    | false => exact h.works hpoint hstep

end Barrier

/-- **A whole run** keeps it. -/
theorem barrier_of_run {config : Config} {reader : String}
    (hrun : (initial config reader).run moves = some m) :
    Barrier (initial config reader) moves m :=
  induction_of_run (.initial config reader) (fun _ _ _ _ hrun h hstep => h.step hrun hstep) hrun

/-! ## A request that nobody answers -/

/-- The thread found the interrupt raised while it still waited for its
parameters. -/
def StoppedFirst (first : Machine) (moves : List Move) : Prop :=
  ∃ before after m, moves = before ++ .runner .go :: after ∧ first.run before = some m ∧
    m.point = .negotiating ∧ m.interrupted = true

theorem StoppedFirst.mono (h : StoppedFirst first moves) (later : List Move) :
    StoppedFirst first (moves ++ later) := by
  obtain ⟨before, after, m, rfl, hfound⟩ := h
  exact ⟨before, after ++ later, m, by simp, hfound⟩

/-- An interrupt that was found raised is raised. -/
theorem StoppedFirst.interrupted (h : StoppedFirst first moves) (hrun : first.run moves = some m) :
    m.interrupted = true := by
  obtain ⟨before, after, m₁, rfl, hbefore, -, hraised⟩ := h
  rw [run_append hbefore] at hrun
  exact invariant_of_run (P := fun m => m.interrupted = true)
    (fun _ _ _ hraised hstep => interrupted_of_step hraised hstep) hraised hrun

/-- The steps of the thread while nobody has answered show and tell what is
listed, and lead to a cancellation only from where it looks at its interrupt. -/
theorem unanswered_of_goes {point point' : Point} {sessions : List Sitting} {queued : List Event}
    {states : List State} {events : List Event} (hgoes : m.Goes point point' sessions queued)
    (hsent : point.isNegotiating = true → m.start.sent = none)
    (h : point.unanswered? = some (states, events)) :
    point'.unanswered? = some (states ++ point.shows.toList, events ++ queued) ∧
      (point'.isCancelled = true → point.isCancelled = true ∨ point = .negotiating) := by
  cases hgoes with
  | ask =>
    cases h
    exact ⟨rfl, by simp [Point.isCancelled]⟩
  | giveUp =>
    cases h
    exact ⟨rfl, fun _ => .inr rfl⟩
  | await deadline =>
    cases h
    exact ⟨rfl, by simp [Point.isCancelled]⟩
  | again deadline =>
    cases h
    exact ⟨rfl, by simp [Point.isCancelled]⟩
  | begin deadline p hfound =>
    rw [hsent rfl] at hfound
    cases hfound
  | aborted deadline =>
    cases h
    exact ⟨rfl, by simp [Point.isCancelled]⟩
  | attempt => cases h
  | connect => cases h
  | leave => cases h
  | turn => cases h
  | finish => cases h
  | panic => cases h
  | overflow => cases h
  | cancelled =>
    cases h
    exact ⟨rfl, fun _ => .inl rfl⟩
  | failed e =>
    cases e with
    | startAborted =>
      cases h
      exact ⟨rfl, by simp [Point.isCancelled]⟩
    | _ => cases h
  | tell e =>
    cases e with
    | startAborted =>
      cases h
      exact ⟨rfl, by simp [Point.isCancelled, isCancellation]⟩
    | _ => cases h
  | terminate result =>
    refine ⟨?_, .inl⟩
    simp only [Point.unanswered?] at h ⊢
    rw [h, Option.map_some, List.append_nil]
    rfl
  | exit ending =>
    cases ending with
    | panicked message => cases h
    | returned result =>
      refine ⟨?_, .inl⟩
      simp only [Point.shows, Option.toList_none, List.append_nil]
      exact h

/-- Nor do they open a session. -/
theorem sessions_of_goes {point point' : Point} {sessions : List Sitting} {queued : List Event}
    {log : List State × List Event} (hgoes : m.Goes point point' sessions queued)
    (h : point.unanswered? = some log) (hsessions : m.sessions = []) : sessions = [] := by
  cases hgoes with
  | connect => cases h
  | turn => cases h
  | _ => exact hsessions

/-- **What is known of a start request that nobody has answered.** -/
structure Unanswered (first : Machine) (moves : List Move) (m : Machine) : Prop where
  sessions : m.sessions = []
  logs : m.point.unanswered? = some (m.states, m.events)
  shown : m.state = m.states.getLast?.getD .starting
  cancelled : m.point.isCancelled = true → StoppedFirst first moves

/-- A step that shows a state leaves it the last one. -/
theorem Shows.last {shown : Option State} (h : m.Shows shown m')
    (hlast : m.state = m.states.getLast?.getD .starting) :
    m'.state = m'.states.getLast?.getD .starting := by
  rw [h.state, h.states]
  cases shown with
  | none => exact hlast
  | some s =>
    rw [Option.elim_some, enter]
    split
    · exact hlast
    · simp

/-- While nobody has answered, no step shows a state that is shown already. -/
theorem shows_ne_of_unanswered {states : List State} {events : List Event} {point : Point}
    (h : point.unanswered? = some (states, events)) {s : State} (hs : point.shows = some s) :
    states.getLast?.getD .starting ≠ s := by
  cases point with
  | stopping why =>
    cases why with
    | cancelled => cases hs
    | fault e =>
      cases e with
      | startAborted =>
        cases h
        cases hs
        decide
      | _ => cases h
  | terminating result =>
    cases hs
    cases result with
    | error e =>
      cases e with
      | cancelled =>
        cases h
        decide
      | _ => cases h
    | ok exit =>
      cases exit with
      | fault e =>
        cases e with
        | startAborted =>
          cases h
          decide
        | _ => cases h
      | _ => cases h
  | attempting p a => cases h
  | serving p s => cases h
  | _ => cases hs

namespace Unanswered

theorem initial (config : Config) (reader : String) :
    Unanswered (initial config reader) [] (initial config reader) where
  sessions := rfl
  logs := rfl
  shown := rfl
  cancelled := by simp [Machine.initial, Point.isCancelled]

/-- **One move** that does not answer keeps it. -/
theorem step (h : Unanswered first moves m) (hbarrier : Barrier first moves m)
    (hrun : first.run moves = some m) (hnobody : choices moves = [])
    (hstep : m.step move = some m') : Unanswered first (moves ++ [move]) m' := by
  have hsame : m'.point = m.point → m'.sessions = m.sessions → m'.state = m.state →
      m'.states = m.states → m'.events = m.events → Unanswered first (moves ++ [move]) m' := by
    intro hpoint hsessions hstate hstates hevents
    refine ⟨hsessions.trans h.sessions, ?_, ?_, ?_⟩
    · rw [hpoint, hstates, hevents]
      exact h.logs
    · rw [hstate, hstates]
      exact h.shown
    · rw [hpoint]
      exact fun hcancelled => (h.cancelled hcancelled).mono _
  have hnone : ∀ number : Nat, m.sessions[number]? = none := by
    rw [h.sessions]
    exact fun number => rfl
  cases happens_of_step hstep with
  | aside haside =>
    cases haside <;> exact hsame rfl rfl rfl rfl rfl
  | publish number command hx =>
    rw [hnone number] at hx
    cases hx
  | watch number input hx hwatch hturn =>
    rw [hnone number] at hx
    cases hx
  | runner input hleads =>
    obtain ⟨queued, hgoes, hevents, -⟩ := hleads
    have hsent : m.point.isNegotiating = true → m.start.sent = none := by
      intro hpoint
      rw [(hbarrier.waiting hpoint).2.2, hnobody]
      rfl
    obtain ⟨hlogs, hcancelled⟩ := unanswered_of_goes hgoes hsent h.logs
    have hshows := shows_of_runner hstep
    obtain ⟨-, hstates⟩ := hshows.eq fun s hs => by
      rw [h.shown]
      exact shows_ne_of_unanswered h.logs hs
    refine ⟨?_, by rw [hstates, hevents]; exact hlogs, hshows.last h.shown, fun hpoint' => ?_⟩
    · exact sessions_of_goes hgoes h.logs h.sessions
    · rcases hcancelled hpoint' with hpoint | hpoint
      · exact (h.cancelled hpoint).mono _
      · have hsteps := negotiates_of_runner (by rw [hpoint]; rfl) hstep
        cases hsteps with
        | giveUp hnegotiating hraised => exact ⟨moves, [], m, rfl, hrun, hnegotiating, hraised⟩
        | ask hopening => cases hpoint'
        | await deadline hnegotiating hraised => cases hpoint'
        | again deadline hreceiving => cases hpoint'
        | receive deadline p hreceiving hfound => cases hpoint'
        | abort deadline hreceiving hnothing hdropped => cases hpoint'

/-- **A whole run** in which nobody answers keeps it. -/
theorem of_run {config : Config} {reader : String} (hnobody : choices moves = [])
    (hrun : (Machine.initial config reader).run moves = some m) :
    Unanswered (Machine.initial config reader) moves m := by
  refine induction_of_run (P := fun moves m => choices moves = [] →
    Unanswered (Machine.initial config reader) moves m) (fun _ => .initial config reader) ?_
    hrun hnobody
  intro moves m move m' hrun h hstep hnobody
  rw [choices_concat] at hnobody
  have hbefore := (List.append_eq_nil_iff.1 hnobody).1
  exact (h hbefore).step (barrier_of_run hrun) hrun hbefore hstep

/-- **How it ends**: with the failure that nobody answered, unless the runner
was stopped first. -/
theorem ended (h : Unanswered first moves m) (hstopped : ¬ StoppedFirst first moves)
    {ending : Task.Ending Exit} (hpoint : m.point = .gone ending) :
    ending = .returned (.ok (.fault .startAborted)) ∧ m.states = [.fault, .terminated] ∧
      m.events = [.start, .failed .startAborted] := by
  have hlogs := h.logs
  have hcancelled := h.cancelled
  rw [hpoint] at hlogs hcancelled
  cases ending with
  | panicked message => cases hlogs
  | returned result =>
    cases result with
    | error e =>
      cases e with
      | cancelled => exact absurd (hcancelled rfl) hstopped
      | _ => cases hlogs
    | ok exit =>
      cases exit with
      | removed n => cases hlogs
      | cancelled => cases hlogs
      | fault e =>
        cases e with
        | startAborted =>
          obtain ⟨hstates, hevents⟩ := Prod.mk.inj (Option.some.inj hlogs)
          exact ⟨rfl, hstates.symm, hevents.symm⟩
        | _ => cases hlogs

/-- **The thread is not held up** once the request is abandoned: it takes a step
of its own until it is gone. -/
theorem exists_step (h : Unanswered first moves m) (hbarrier : Barrier first moves m)
    (hnobody : choices moves = []) (hdropped : m.start.held = false)
    (hgoing : m.isFinished = false) :
    ∃ m', m.step (.runner .go) = some m' ∧ m'.point.stepsLeft < m.point.stepsLeft := by
  have hlogs := h.logs
  have hsent := hbarrier.waiting
  simp only [Machine.step, runner]
  cases hpoint : m.point with
  | opening => exact ⟨_, rfl, by simp [goto, Point.stepsLeft]⟩
  | negotiating =>
    cases hraised : m.interrupted with
    | true => exact ⟨_, rfl, by simp [Point.stepsLeft]⟩
    | false => exact ⟨_, rfl, by simp [goto, Point.stepsLeft]⟩
  | receiving deadline =>
    rw [hpoint, hnobody] at hsent
    obtain ⟨-, -, hnothing⟩ := hsent rfl
    have hreceive : m.start.receive = (.disconnected, m.start) := by
      simp [StartRequest.receive, hnothing, hdropped]
    rw [hreceive]
    exact ⟨_, rfl, by simp [Point.stepsLeft]⟩
  | attempting p a =>
    rw [hpoint] at hlogs
    cases hlogs
  | serving p s =>
    rw [hpoint] at hlogs
    cases hlogs
  | stopping why =>
    cases why with
    | cancelled => exact ⟨_, rfl, by simp [goto, Point.stepsLeft]⟩
    | fault e => exact ⟨_, rfl, by simp [goto, Point.stepsLeft]⟩
  | failing e => exact ⟨_, rfl, by simp [goto, Point.stepsLeft]⟩
  | terminating result => exact ⟨_, rfl, by simp [goto, Point.stepsLeft]⟩
  | ending ending => exact ⟨_, rfl, by simp [Point.stepsLeft]⟩
  | gone ending =>
    rw [isFinished, hpoint] at hgoing
    cases hgoing

/-- Left to itself, the thread comes to its end. The induction is on the steps
that it is away from it. -/
theorem exists_end (config : Config) (reader : String)
    (hrun : (Machine.initial config reader).run moves = some m) (hnobody : choices moves = [])
    (hdropped : m.start.held = false) :
    ∃ n m', n ≤ m.point.stepsLeft ∧ m.run (List.replicate n (.runner .go)) = some m' ∧
      m'.isFinished = true ∧ m'.interrupted = m.interrupted := by
  induction hleft : m.point.stepsLeft using Nat.strongRecOn generalizing m moves with
  | ind left ih =>
    cases hfinished : m.isFinished with
    | true => exact ⟨0, m, Nat.zero_le _, rfl, hfinished, rfl⟩
    | false =>
      have hunanswered := of_run hnobody hrun
      obtain ⟨m₁, hstep, hlt⟩ :=
        hunanswered.exists_step (barrier_of_run hrun) hnobody hdropped hfinished
      have hrun₁ := run_concat_eq_some.2 ⟨m, hrun, hstep⟩
      have hnobody₁ : choices (moves ++ [.runner .go]) = [] := by
        rw [choices_concat, hnobody]
        rfl
      obtain ⟨-, -, -, hkeeps⟩ := leads_of_runner hstep
      obtain ⟨n, m', hn, hrest, hend, hinterrupted⟩ :=
        ih m₁.point.stepsLeft (hleft ▸ hlt) hrun₁ hnobody₁ (hkeeps.held.trans hdropped) rfl
      refine ⟨n + 1, m', by omega, ?_, hend, hinterrupted.trans (interrupted_of_runner hstep)⟩
      rw [List.replicate_succ, run_cons_eq_some]
      exact ⟨m₁, hstep, hrest⟩

end Unanswered

/-! ## The barrier -/

/-- **A runner that guards its start.** -/
structure GuardsStart (first : Machine) (moves : List Move) (m : Machine) : Prop where
  /-- The start request is answered once at most. -/
  single : (choices moves).length ≤ 1
  /-- Before the parameters are received, the reader is asked for nothing. -/
  silent : m.point.isNegotiating = true → m.calls = []
  /-- Once the reader was asked for something, parameters had been received,
  and the connections are made with their protocol. -/
  called : m.calls ≠ [] →
    ∃ p, Received first moves p ∧ ∀ protocol ∈ m.connects, protocol = p.protocol
  /-- The thread works with the parameters that it has received, which are
  those that were sent. -/
  used : ∀ p, m.point.parameters? = some p → Received first moves p ∧ choices moves = [p]
  /-- An answer that was given is received when the thread looks for it. -/
  answered : ∀ p, .resolve p ∈ moves →
    (∀ deadline, m.point = .receiving deadline →
      ∃ m', m.step (.runner .go) = some m' ∧ m'.point = .attempting p .arriving) ∧
    m.point ≠ .stopping (.fault .startAborted)
  /-- Without an answer, the reader is asked for nothing, and a runner that was
  not stopped first ends with the failure that there was none. -/
  unanswered : (∀ p, .resolve p ∉ moves) → m.calls = [] ∧
    ∀ ending, m.point = .gone ending → ¬ StoppedFirst first moves →
      ending = .returned (.ok (.fault .startAborted)) ∧
      (m.task ≠ .cancelled → m.exit? = some (.ok (.fault .startAborted))) ∧
      .starting :: m.states = [.starting, .fault, .terminated] ∧
      m.events = [.start, .failed .startAborted]
  /-- It comes to an end by itself once the request is abandoned. -/
  abandoned : (∀ p, .resolve p ∉ moves) → m.start.held = false →
    ∃ n m', n ≤ 7 ∧ m.run (List.replicate n (.runner .go)) = some m' ∧ m'.isFinished = true ∧
      (m.interrupted = false →
        m'.point = .gone (.returned (.ok (.fault .startAborted))) ∧ m'.calls = [] ∧
        .starting :: m'.states = [.starting, .fault, .terminated] ∧
        m'.events = [.start, .failed .startAborted])

/-- While nobody has answered, the reader is asked for nothing. -/
theorem Barrier.calls_eq_nil (h : Barrier first moves m) (hnobody : ∀ p, .resolve p ∉ moves) :
    m.calls = [] := by
  by_contra hne
  obtain ⟨p, hreceived, -⟩ := h.called hne
  exact hnobody p hreceived.resolved

theorem choices_eq_nil (hnobody : ∀ p, .resolve p ∉ moves) : choices moves = [] :=
  List.eq_nil_iff_forall_not_mem.2 fun p hp => hnobody p (mem_choices.1 hp)

/-- **The start is a barrier**, whatever the application does with its request and
whoever stops the runner meanwhile. -/
theorem starts_guarded (config : Config) (reader : String) (moves : List Move) (m : Machine)
    (hrun : (initial config reader).run moves = some m) :
    GuardsStart (initial config reader) moves m := by
  have hbarrier := barrier_of_run hrun
  refine ⟨hbarrier.single, fun hpoint => (hbarrier.waiting hpoint).1, hbarrier.called,
    fun p hp => ?_, fun p hp => ⟨fun deadline hpoint => ?_, fun haborted => ?_⟩,
    fun hnobody => ⟨hbarrier.calls_eq_nil hnobody, fun ending hpoint hstopped => ?_⟩,
    fun hnobody hdropped => ?_⟩
  · have hreceived := hbarrier.used p hp
    exact ⟨hreceived, hbarrier.choices_eq hreceived.resolved⟩
  · obtain ⟨-, -, hsent⟩ := hbarrier.waiting (hpoint ▸ rfl)
    rw [hbarrier.choices_eq hp] at hsent
    simp only [step, runner, hpoint, StartRequest.receive, hsent, List.head?_cons]
    exact ⟨_, rfl, rfl⟩
  · have hmem := mem_choices.2 hp
    rw [(hbarrier.aborted haborted).1] at hmem
    cases hmem
  · have hunanswered := Unanswered.of_run (choices_eq_nil hnobody) hrun
    obtain ⟨rfl, hstates, hevents⟩ := hunanswered.ended hstopped hpoint
    refine ⟨rfl, fun htask => ?_, congrArg (.starting :: ·) hstates, hevents⟩
    rw [exit?, result?, hpoint]
    simp [htask, Task.Ending.result]
  · have hnone := choices_eq_nil hnobody
    obtain ⟨n, m', hn, hrest, hend, hinterrupted⟩ :=
      Unanswered.exists_end config reader hrun hnone hdropped
    refine ⟨n, m', Nat.le_trans hn m.point.stepsLeft_le, hrest, hend, fun hcalm => ?_⟩
    have hrun' : (initial config reader).run (moves ++ List.replicate n (.runner .go)) = some m' :=
      (run_append hrun).trans hrest
    have hnobody' : ∀ p, .resolve p ∉ moves ++ List.replicate n (.runner .go) := by
      intro p hmem
      rcases List.mem_append.1 hmem with hmem | hmem
      · exact hnobody p hmem
      · cases List.eq_of_mem_replicate hmem
    have hstopped : ¬ StoppedFirst (initial config reader)
        (moves ++ List.replicate n (.runner .go)) := by
      intro hstopped
      have hraised := hstopped.interrupted hrun'
      rw [hinterrupted, hcalm] at hraised
      cases hraised
    have hunanswered := Unanswered.of_run (choices_eq_nil hnobody') hrun'
    have hcalls := (barrier_of_run hrun').calls_eq_nil hnobody'
    unfold isFinished at hend
    split at hend
    · next ending hpoint =>
      obtain ⟨rfl, hstates, hevents⟩ := hunanswered.ended hstopped hpoint
      exact ⟨hpoint, hcalls, congrArg (.starting :: ·) hstates, hevents⟩
    · cases hend

/-- The application answers when the runner has already waited in vain once. -/
def late : List Move :=
  [.runner .go, .runner .go, .deliver false, .tick 1000000000, .runner (.wake .timedOut),
    .resolve { touchRequired := true }, .runner .go, .runner .go, .runner .go, .runner .go,
    .runner (.presence (.ok true))]

/-- The callback that is given the start request panics. -/
def panicking : List Move :=
  [.runner .go, .runner .go, .deliver true]

/-- The answer is used, and the panic ends the runner. -/
theorem starts_guarded_late :
    (∃ m p, (initial {} "Reader 0").run late = some m ∧ m.calls.length = 1 ∧
      Received (initial {} "Reader 0") late p ∧ p.touchRequired = true) ∧
    (∃ m m' n, (initial {} "Reader 0").run panicking = some m ∧
      m.run (List.replicate n (.runner .go)) = some m' ∧ m'.calls = [] ∧
      m'.point = .gone (.returned (.ok (.fault .startAborted))) ∧
      m'.events = [.start, .failed .startAborted]) := by
  obtain ⟨m, hlate⟩ : ∃ m, (initial {} "Reader 0").run late = some m := ⟨_, rfl⟩
  obtain ⟨m₁, hpanic⟩ : ∃ m, (initial {} "Reader 0").run panicking = some m := ⟨_, rfl⟩
  have hguards := starts_guarded {} "Reader 0" late m hlate
  have hdropped := (starts_guarded {} "Reader 0" panicking m₁ hpanic).abandoned
  refine ⟨⟨m, { touchRequired := true }, hlate, ?_, ?_, rfl⟩, ?_⟩
  · cases hlate
    rfl
  · refine (hguards.used _ ?_).1
    cases hlate
    rfl
  · obtain ⟨n, m', -, hrest, -, hends⟩ := hdropped (by simp [panicking]) (by cases hpanic; rfl)
    obtain ⟨hpoint, hcalls, -, hevents⟩ := hends (by cases hpanic; rfl)
    exact ⟨m₁, m', n, hpanic, hrest, hcalls, hpoint, hevents⟩

end Machine

end Runner

end SmartCard
