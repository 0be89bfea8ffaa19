import SmartCard.Proofs.Runner.Barrier
import SmartCard.Proofs.Runner.Giving
/-!
# The idle clock

A session that is without a command for too long ends. Its time starts with the loop of
the runner's thread, and anew at the end of every exchange; a wait that ends without a
command does not start it (`idleOrigin`). Before each wait the thread reads the clock, and
has what is left of the limit computed anew (`Measured`). The wait begins with a second
reading.
-/

namespace SmartCard

namespace Runner

/-! ## The steps of the thread and the time -/

/-- From the first of these stages to the second, the time of a session starts: the loop
begins, or an exchange is over. -/
def Stage.restarts : Option Stage → Option Stage → Bool
  | some .hiring, some .looping => true
  | some (.exchanging _), some (.answering _) => true
  | _, _ => false

/-- The session is in the loop, and its time has started. -/
def Stage.isInLoop : Stage → Bool
  | .looping | .timing | .listening _ | .asleep _ | .exchanging _ | .answering _
  | .resolving _ _ => true
  | _ => false

theorem Stage.restarts_self (stage : Option Stage) : Stage.restarts stage stage = false := by
  cases stage with
  | none => rfl
  | some stage => cases stage <;> rfl

/-- **What a step inside a session does to the time.** -/
structure Times (c : Config) (clock : Nat) (s s' : Service) : Prop where
  since : s'.idleSince =
    if Stage.restarts (some s.stage) (some s'.stage) then clock else s.idleSince
  /-- What is left of the limit is taken from the clock. -/
  slice : ∀ slice, s'.stage = .listening slice →
    s.stage = .timing ∧ Machine.slice c (clock - s.idleSince) = some slice
  /-- A wait has its deadline from the clock, which is read once more when it begins. -/
  deadline : ∀ deadline, s'.stage = .asleep deadline →
    s.stage = .asleep deadline ∨ ∃ slice, s.stage = .listening slice ∧ deadline = clock + slice
  /-- The session is given up for idleness when nothing is left of the limit. -/
  idle : ∀ limit, s'.stage = .concluding (.seeking (.idleTimeout limit)) →
    s.stage = .timing ∧ c.idleTimeout = some limit ∧ limit.nanos ≤ clock - s.idleSince

namespace Machine

variable {m m' : Machine} {p p' : Parameters} {s s' : Service} {x : Sitting} {input : Input}
variable {stage stage' : Stage}

/-- A step to a stage that is none of those at which the time matters. -/
theorem times_of_plain {c : Config} {clock : Nat} (hstage : s.stage = stage)
    (hrestarts : Stage.restarts (some stage) (some stage') = false)
    (hlisten : stage'.isListening = false)
    (hidle : ∀ limit, stage' ≠ .concluding (.seeking (.idleTimeout limit))) :
    Times c clock s { s with stage := stage' } where
  since := by rw [hstage, if_neg (by rw [hrestarts]; exact Bool.false_ne_true)]
  slice := fun slice h =>
    absurd (hlisten.symm.trans (congrArg Stage.isListening h)) Bool.false_ne_true
  deadline := fun deadline h =>
    absurd (hlisten.symm.trans (congrArg Stage.isListening h)) Bool.false_ne_true
  idle := fun limit h => absurd h (hidle limit)

/-- A step at which the time of the session starts. -/
theorem times_of_restart {c : Config} {clock : Nat} (hstage : s.stage = stage)
    (hrestarts : Stage.restarts (some stage) (some stage') = true)
    (hlisten : stage'.isListening = false)
    (hidle : ∀ limit, stage' ≠ .concluding (.seeking (.idleTimeout limit))) :
    Times c clock s { s with stage := stage', idleSince := clock } where
  since := by rw [hstage, if_pos hrestarts]
  slice := fun slice h =>
    absurd (hlisten.symm.trans (congrArg Stage.isListening h)) Bool.false_ne_true
  deadline := fun deadline h =>
    absurd (hlisten.symm.trans (congrArg Stage.isListening h)) Bool.false_ne_true
  idle := fun limit h => absurd h (hidle limit)

/-- A look for a command leaves the time as it is. The wait has its deadline from the look, or
goes on to it. -/
theorem times_of_look {deadline : Nat} {timedOut : Bool}
    (hdeadline : s.stage = .asleep deadline ∨
      ∃ slice, s.stage = .listening slice ∧ deadline = m.clock + slice)
    (hpoint' : (m.look p s deadline timedOut x).point = .serving p' s') :
    Times m.config m.clock s s' := by
  have hplain : ∀ stage', Stage.restarts (some s.stage) (some stage') = false := by
    intro stage'
    rcases hdeadline with heq | ⟨slice, heq, -⟩ <;> rw [heq] <;> rfl
  unfold look at hpoint'
  split at hpoint'
  · cases hpoint'
    exact times_of_plain rfl (hplain _) rfl (by simp)
  · cases hpoint'
    exact times_of_plain rfl (hplain _) rfl (by simp)
  · cases timedOut <;> cases hpoint'
    · refine ⟨by simp [hplain], fun slice h => (by cases h), fun d hd => ?_,
        fun limit h => (by cases h)⟩
      cases hd
      exact hdeadline
    · exact times_of_plain rfl (hplain _) rfl (by simp)

/-- **A step inside a session** does to the time what `Times` says. -/
theorem times_of_serve (hstage : s.stage = stage) (h : m.serve p s x stage input = some m')
    (hpoint' : m'.point = .serving p' s') : Times m.config m.clock s s' := by
  unfold serve at h
  split at h
  · cases h
    cases hpoint'
    exact times_of_plain hstage rfl rfl (by simp)
  · cases h
    cases hpoint'
    exact times_of_plain hstage rfl rfl (by simp)
  · -- the loop begins
    cases h
    cases hpoint'
    exact times_of_restart hstage rfl rfl (by simp)
  · cases h
    cases hpoint'
    exact times_of_plain hstage rfl rfl (by simp)
  · split at h <;> cases h <;> cases hpoint' <;>
      exact times_of_plain hstage rfl rfl (by simp)
  · -- the clock is read
    split at h
    · next limit hlimit hslice =>
      cases h
      cases hpoint'
      obtain ⟨limit', hlimit', hover⟩ := slice_eq_none_iff.1 hslice
      obtain rfl : limit = limit' := Option.some.inj (hlimit.symm.trans hlimit')
      refine ⟨by rw [hstage]; rfl, fun slice h => (by cases h), fun d hd => (by cases hd),
        fun limit' heq => ?_⟩
      cases heq
      exact ⟨hstage, hlimit, hover⟩
    · next slice hslice =>
      cases h
      cases hpoint'
      refine ⟨by rw [hstage]; rfl, fun slice' h => ?_, fun d hd => (by cases hd),
        fun limit heq => (by cases heq)⟩
      cases h
      exact ⟨hstage, hslice⟩
    · cases h
  · -- the clock is read once more
    split at h
    · next deadline hdeadline =>
      cases h
      exact times_of_look (.inr ⟨_, hstage, Instant.after?_eq_some hdeadline⟩) hpoint'
    · cases h
      cases hpoint'
  · split at h <;> cases h
    exact times_of_look (.inl hstage) hpoint'
  · split at h <;> cases h
    cases hpoint'
    exact times_of_plain hstage rfl rfl (by simp)
  · cases h
    cases hpoint'
    exact times_of_plain hstage rfl rfl (by simp)
  · cases h
    cases hpoint'
  · -- an exchange is over
    cases h
    cases hpoint'
    exact times_of_restart hstage rfl rfl (by simp)
  · split at h <;> cases h <;> cases hpoint' <;>
      exact times_of_plain hstage rfl rfl (by simp)
  · next e =>
    -- a failed exchange is no idleness
    cases h
    cases hpoint'
    refine times_of_plain hstage rfl rfl fun limit heq => ?_
    cases e <;> cases heq
  · cases h
    cases hpoint'
    exact times_of_plain hstage rfl rfl (by simp)
  · -- a call goes on, and never comes back to seeking the latch
    split at h
    · cases h
    · next session call' queued hadvance =>
      have hseeking := (Session.advances_of_advance hadvance).ne_seeking
      cases h
      cases call' with
      | returned o =>
        cases hpoint'
        exact times_of_plain hstage rfl rfl (by simp)
      | _ =>
        cases hpoint'
        refine times_of_plain hstage rfl rfl fun limit heq => ?_
        exact hseeking _ (Stage.concluding.inj heq)
  · split at h <;> cases h <;> cases hpoint'
    · exact times_of_plain hstage rfl rfl (by simp)
    · next w hwatch =>
      cases w.status.cancel.1 <;> exact times_of_plain hstage rfl rfl (by simp)
  · cases h
    cases hpoint'
    exact times_of_plain hstage rfl rfl (by simp)
  · split at h <;> cases h
    cases hpoint'
    exact times_of_plain hstage rfl rfl (by simp)
  · simp only at h
    split at h <;> cases h <;> cases hpoint'
  · cases h
    cases hpoint'
  · cases h
    cases hpoint'
  · cases h
    cases hpoint'
  · cases h

end Machine

/-- **What is left of the limit** by a reading of the clock between the origin and now, and no
more than one wait may take. -/
structure Measured (c : Config) (since clock slice : Nat) : Prop where
  poll : slice ≤ c.pollInterval.nanos
  limit : ∃ reading, since ≤ reading ∧ reading ≤ clock ∧ ∀ limit, c.idleTimeout = some limit →
    reading - since < limit.nanos ∧ reading + slice ≤ since + limit.nanos

/-- Time passes. -/
theorem Measured.mono {c : Config} {since clock clock' slice : Nat}
    (h : Measured c since clock slice) (hclock : clock ≤ clock') :
    Measured c since clock' slice := by
  obtain ⟨reading, hsince, hle, hlimit⟩ := h.limit
  exact ⟨h.poll, reading, hsince, Nat.le_trans hle hclock, hlimit⟩

/-- What is left at a reading of the clock. -/
theorem measured_of_slice {c : Config} {since clock slice : Nat} (hsince : since ≤ clock)
    (h : Machine.slice c (clock - since) = some slice) : Measured c since clock slice := by
  obtain ⟨hpoll, hlimits⟩ := le_of_slice h
  refine ⟨hpoll, clock, hsince, Nat.le_refl _, fun limit hlimit => ?_⟩
  obtain ⟨hlt, hle⟩ := hlimits limit hlimit
  exact ⟨hlt, by omega⟩

/-- **The time of a session that is served** has its origin. The wait for a command is as long
as was left before it began. -/
structure Timed (c : Config) (clock : Nat) (origin : Option Nat) (s : Service) : Prop where
  origin : s.stage.isInLoop = true → origin = some s.idleSince ∧ s.idleSince ≤ clock
  slice : ∀ slice, s.stage = .listening slice → Measured c s.idleSince clock slice
  deadline : ∀ deadline, s.stage = .asleep deadline → ∃ begun slice, begun ≤ clock ∧
    deadline = begun + slice ∧ Measured c s.idleSince begun slice

theorem Stage.isInLoop_of_isListening {stage : Stage} (h : stage.isListening = true) :
    stage.isInLoop = true := by
  cases stage <;> first | rfl | cases h

/-- A session comes into the loop where its time starts, and not later. -/
theorem isInLoop_of_turn {config : Config} {number : Nat} {x x' : Sitting} {stage stage' : Stage}
    {queued : List Event} (hturn : Turn config number x stage stage' x' queued)
    (h : stage'.isInLoop = true) :
    Stage.restarts (some stage) (some stage') = true ∨ stage.isInLoop = true := by
  cases hturn with
  | hire => exact .inl rfl
  | take command ticket hlisten hslot => exact .inr (Stage.isInLoop_of_isListening hlisten)
  | wait stage' hlisten hstage' => exact .inr (Stage.isInLoop_of_isListening hlisten)
  | dismiss o w status stage' hwatch hstage' => rcases hstage' with rfl | rfl <;> cases h
  | _ => first | exact .inr rfl | cases h

namespace Timed

variable {c : Config} {clock : Nat} {origin : Option Nat} {s s' : Service}

/-- Time passes. -/
theorem mono {clock' : Nat} (h : Timed c clock origin s) (hclock : clock ≤ clock') :
    Timed c clock' origin s where
  origin := fun hs => ⟨(h.origin hs).1, Nat.le_trans (h.origin hs).2 hclock⟩
  slice := fun slice hs => (h.slice slice hs).mono hclock
  deadline := fun d hd => by
    obtain ⟨begun, slice, hbegun, hwait⟩ := h.deadline d hd
    exact ⟨begun, slice, Nat.le_trans hbegun hclock, hwait⟩

/-- **A step inside a session** keeps the time. -/
theorem step (h : Timed c clock origin s) (ht : Times c clock s s')
    (hstage : s'.stage.isInLoop = true →
      Stage.restarts (some s.stage) (some s'.stage) = true ∨ s.stage.isInLoop = true) :
    Timed c clock
      (if Stage.restarts (some s.stage) (some s'.stage) then some clock else origin) s' := by
  have hsince := ht.since
  -- between the readings of the clock the time does not start
  have hkeeps : s.stage = .timing ∨ s.stage.isListening = true → s'.idleSince = s.idleSince := by
    intro hbefore
    rw [hsince, if_neg]
    rcases hbefore with heq | hlisten
    · rw [heq]
      exact Bool.false_ne_true
    · cases hs : s.stage <;> simp [hs, Stage.isListening, Stage.restarts] at hlisten ⊢
  refine ⟨fun hs' => ?_, fun slice hs' => ?_, fun d hd => ?_⟩
  · rcases Bool.eq_false_or_eq_true (Stage.restarts (some s.stage) (some s'.stage)) with hr | hr
    · rw [if_pos hr] at hsince ⊢
      exact ⟨by rw [hsince], Nat.le_of_eq hsince⟩
    · rw [if_neg (by simp [hr])] at hsince ⊢
      rw [hsince]
      exact h.origin ((hstage hs').resolve_left (by simp [hr]))
  · obtain ⟨htiming, hslice⟩ := ht.slice slice hs'
    obtain ⟨-, hle⟩ := h.origin (by rw [htiming]; rfl)
    rw [hkeeps (.inl htiming)]
    exact measured_of_slice hle hslice
  · rcases ht.deadline d hd with hasleep | ⟨slice, hlistening, rfl⟩
    · rw [hkeeps (.inr (by rw [hasleep]; rfl))]
      exact h.deadline d hasleep
    · -- the wait begins now
      rw [hkeeps (.inr (by rw [hlistening]; rfl))]
      exact ⟨clock, slice, Nat.le_refl _, rfl, h.slice slice hlistening⟩

end Timed

namespace Machine

variable {m m' first : Machine} {move : Move} {moves : List Move} {number : Nat}
variable {x : Sitting} {o : Outcome}

/-- **When the time of a session started last** in a run: at the start of its loop or at
the end of an exchange, whichever was later. -/
def idleOrigin (m : Machine) (number : Nat) : List Move → Option Nat
  | [] => none
  | move :: moves =>
    match m.step move with
    | none => none
    | some m' => (m'.idleOrigin number moves).or
        (if Stage.restarts (m.stage? number) (m'.stage? number) then some m'.clock else none)

/-- A further move starts the time, or leaves it as it was. -/
theorem idleOrigin_concat (hrun : first.run moves = some m) (hstep : m.step move = some m')
    (number : Nat) : first.idleOrigin number (moves ++ [move]) =
      if Stage.restarts (m.stage? number) (m'.stage? number) then some m'.clock
      else first.idleOrigin number moves := by
  induction moves generalizing first with
  | nil =>
    cases hrun
    simp [idleOrigin, hstep]
  | cons move' moves ih =>
    obtain ⟨m₁, hstep', hrun⟩ := run_cons_eq_some.1 hrun
    simp only [List.cons_append, idleOrigin, hstep', ih hrun]
    split <;> rfl

/-- **A step of the runner's thread** that leads into a session opens it, or does to its
time what `Times` says. -/
theorem times_of_runner {input : Input} (h : m.runner input = some m') {p' : Parameters}
    {s' : Service} (hpoint' : m'.point = .serving p' s') :
    s'.stage = .opened ∨ ∃ p s, m.point = .serving p s ∧ s'.session = s.session ∧
      Times m.config m.clock s s' ∧ (s'.stage.isInLoop = true →
        Stage.restarts (some s.stage) (some s'.stage) = true ∨ s.stage.isInLoop = true) := by
  obtain ⟨queued, hgoes, -, -⟩ := leads_of_runner h
  have hpoint'' := hpoint'
  generalize hpoint : m.point = point at hgoes
  generalize m'.point = point' at hgoes hpoint''
  generalize m'.sessions = sessions at hgoes
  cases hgoes with
  | connect p a card =>
    cases hpoint''
    exact .inl rfl
  | @turn p s s₁ x x' _ hs' hx hturn =>
    cases hpoint''
    simp only [runner, hpoint, hx] at h
    exact .inr ⟨_, s, rfl, hs', times_of_serve rfl h hpoint', isInLoop_of_turn hturn⟩
  | @finish p s o hstage =>
    have hserving := isServing_onward p m.sessions.length o
    rw [hpoint''] at hserving
    cases hserving
  | _ => cases hpoint''

/-! ## The time in a run -/

/-- **The time of every session**, with the origins that the sessions' times have. -/
structure Clocked (m : Machine) (origin : Nat → Option Nat) : Prop where
  served : ∀ p s, m.point = .serving p s → Timed m.config m.clock (origin s.session) s
  idle : ∀ number (x : Sitting) limit, m.sessions[number]? = some x →
    x.Gives (m.stage? number) (.idleTimeout limit) →
      Stage.isParting (m.stage? number) = true ∧ m.config.idleTimeout = some limit ∧
        ∃ since, origin number = some since ∧ since + limit.nanos ≤ m.clock

namespace Clocked

variable {origin : Nat → Option Nat}

/-- A runner that is about to start. -/
theorem initial (config : Config) (reader : String) : (initial config reader).Clocked origin where
  served := fun p s hs => by cases hs
  idle := fun number x limit hx => by simp [Machine.initial] at hx

/-- **One move** keeps the time of the session that is served. -/
theorem served_step (h : m.Clocked origin) (hstep : m.step move = some m') {p' : Parameters}
    {s' : Service} (hpoint' : m'.point = .serving p' s') :
    Timed m'.config m'.clock
      (if Stage.restarts (m.stage? s'.session) (m'.stage? s'.session) then some m'.clock
        else origin s'.session) s' := by
  have hstage' := (stage?_of_serving hpoint' s'.session).trans (if_pos rfl)
  rw [config_of_step hstep]
  rcases runner_or_idles hstep with ⟨input, rfl, hrunner⟩ | ⟨-, hidles⟩
  · have hclock : m'.clock = m.clock := congrArg Prod.fst (given_of_runner hrunner)
    rcases times_of_runner hrunner hpoint' with hopened | ⟨p, s, hpoint, hs', htimes, hstage⟩
    · refine ⟨fun htimed => ?_, fun slice hs => ?_, fun d hd => ?_⟩
      · rw [hopened] at htimed
        cases htimed
      · rw [hopened] at hs
        cases hs
      · rw [hopened] at hd
        cases hd
    · have hbefore := (stage?_of_serving hpoint s'.session).trans (if_pos hs'.symm)
      rw [hbefore, hstage', hclock, hs']
      exact (h.served p s hpoint).step htimes hstage
  · have hpoint := hidles.point.symm.trans hpoint'
    have hbefore := (stage?_of_serving hpoint s'.session).trans (if_pos rfl)
    rw [hbefore, hstage', Stage.restarts_self, if_neg Bool.false_ne_true]
    exact (h.served p' s' hpoint).mono (clock_of_step hstep)

/-- **One move** keeps all of it. -/
theorem step (h : m.Clocked origin) (hstep : m.step move = some m') :
    m'.Clocked fun number =>
      if Stage.restarts (m.stage? number) (m'.stage? number) then some m'.clock
      else origin number where
  served := fun p' s' hpoint' => h.served_step hstep hpoint'
  idle := fun number x' limit hx' hgives => by
    have hclock := clock_of_step hstep
    rw [config_of_step hstep]
    rcases gives_of_step hstep hx' hgives with ⟨x, hx, hbefore⟩ | ⟨input, hrunner, hstage'⟩ |
      ⟨answer, hanswer⟩
    · obtain ⟨hparting, hlimit, since, hsince, hover⟩ := h.idle number x limit hx hbefore
      obtain ⟨-, -, hparting', -⟩ := parting_of_step hstep hx hparting
      refine ⟨hparting', hlimit, since, ?_, Nat.le_trans hover hclock⟩
      rw [if_neg, hsince]
      cases hstage : m.stage? number with
      | none => exact Bool.false_ne_true
      | some stage =>
        rw [hstage] at hparting
        cases stage <;> first | exact Bool.false_ne_true | cases hparting
    · -- the thread has just read the clock
      obtain ⟨p', s', hpoint', rfl, hs'⟩ := serving_of_stage? hstage'
      rcases times_of_runner hrunner hpoint' with hopened | ⟨p, s, hpoint, hnumber, htimes, -⟩
      · rw [hs'] at hopened
        cases hopened
      · obtain ⟨htiming, hlimit, hover⟩ := htimes.idle limit hs'
        obtain ⟨hsince, hle⟩ := (h.served p s hpoint).origin (by rw [htiming]; rfl)
        have hbefore := (stage?_of_serving hpoint s'.session).trans (if_pos hnumber.symm)
        refine ⟨by rw [hstage']; rfl, hlimit, s.idleSince, ?_, by omega⟩
        rw [hbefore, hstage', htiming, hnumber, hsince]
        rfl
    · exact absurd hanswer watch_outcome_ne_idleTimeout

end Clocked

/-- **A whole run.** -/
theorem clocked_of_run (config : Config) (reader : String)
    (hrun : (Machine.initial config reader).run moves = some m) :
    m.Clocked fun number => (Machine.initial config reader).idleOrigin number moves := by
  refine induction_of_run
    (P := fun moves m => m.Clocked fun number =>
      (Machine.initial config reader).idleOrigin number moves)
    (.initial config reader) (fun moves m move m' hrun h hstep => ?_) hrun
  have hconcat := fun number => idleOrigin_concat hrun hstep number
  simp only [hconcat]
  exact h.step hstep

/-- **The thread reads the clock**: it gives the session up if the limit has passed, and
else listens for what is left of it, or for as long as one wait may take. -/
theorem step_of_timing {p : Parameters} {s : Service} (hpoint : m.point = .serving p s)
    (hx : m.sessions[s.session]? = some x) (htiming : s.stage = .timing) :
    ∃ stage', m.step (.runner .go) = some (m.goto (.serving p { s with stage := stage' })) ∧
      ((∃ limit, m.config.idleTimeout = some limit ∧ limit.nanos ≤ m.clock - s.idleSince ∧
          stage' = .concluding (.seeking (.idleTimeout limit))) ∨
        ∃ slice, Machine.slice m.config (m.clock - s.idleSince) = some slice ∧
          stage' = .listening slice) := by
  simp only [Machine.step, runner, hpoint, hx, htiming, serve]
  cases hslice : Machine.slice m.config (m.clock - s.idleSince) with
  | none =>
    obtain ⟨limit, hlimit, hover⟩ := slice_eq_none_iff.1 hslice
    simp only [hlimit]
    exact ⟨_, rfl, .inl ⟨limit, rfl, hover, rfl⟩⟩
  | some slice =>
    cases m.config.idleTimeout <;> exact ⟨_, rfl, .inr ⟨slice, rfl, rfl⟩⟩

/-- **The idle clock** of a runner that was led to a machine by these moves. -/
structure TimesOut (config : Config) (first : Machine) (moves : List Move) (m : Machine) :
    Prop where
  /-- Whenever the thread reads the clock, it gives the session up if the limit has passed
  since the origin. Else the limit has not passed, and the thread listens: for no longer
  than one wait may take, and not beyond the limit. -/
  reading : ∀ number, m.stage? number = some .timing → ∃ since m',
    first.idleOrigin number moves = some since ∧ since ≤ m.clock ∧
    m.step (.runner .go) = some m' ∧
    ((∃ limit, config.idleTimeout = some limit ∧ since + limit.nanos ≤ m.clock ∧
        m'.stage? number = some (.concluding (.seeking (.idleTimeout limit)))) ∨
      ∃ slice, m'.stage? number = some (.listening slice) ∧
        slice ≤ config.pollInterval.nanos ∧ ∀ limit, config.idleTimeout = some limit →
          m.clock - since < limit.nanos ∧ m.clock + slice ≤ since + limit.nanos)
  /-- It may be held up before it waits, and what was left is what it goes by. -/
  listening : ∀ number slice, m.stage? number = some (.listening slice) → ∃ since,
    first.idleOrigin number moves = some since ∧ Measured config since m.clock slice
  /-- The wait begins with another reading of the clock. It lasts for what was left at the
  first, so it is over so much later than the limit as the thread was held up. -/
  waiting : ∀ number deadline, m.stage? number = some (.asleep deadline) → ∃ since begun slice,
    first.idleOrigin number moves = some since ∧ begun ≤ m.clock ∧ deadline = begun + slice ∧
      Measured config since begun slice
  /-- A session ends for idleness, or is about to, only if its limit has passed since the
  origin, and then the thread takes no command from it any more. -/
  idle : ∀ number (x : Sitting) limit, m.sessions[number]? = some x →
    x.Gives (m.stage? number) (.idleTimeout limit) → config.idleTimeout = some limit ∧
      (∃ since, first.idleOrigin number moves = some since ∧ since + limit.nanos ≤ m.clock) ∧
      ∀ later m', m.run later = some m' → ∃ x', m'.sessions[number]? = some x' ∧
        x'.transmissions = x.transmissions ∧ x'.sent = x.sent
  /-- Without a limit no session ends for idleness. -/
  unlimited : config.idleTimeout = none → ∀ (number : Nat) (x : Sitting) o,
    m.sessions[number]? = some x → x.session.outcome = some o →
      ∀ limit, o.reason ≠ .idleTimeout limit

/-- The settings stay what they are. -/
theorem config_of_run (hrun : m.run moves = some m') : m'.config = m.config :=
  invariant_of_run (P := fun m₁ => m₁.config = m.config)
    (fun _ _ _ heq hstep => (config_of_step hstep).trans heq) rfl hrun

/-- What the thread makes of the clock that it reads. -/
theorem Clocked.reading {origin : Nat → Option Nat} {preempted : Nat → Prop}
    (h : m.Clocked origin) (hkept : m.Kept preempted) (htiming : m.stage? number = some .timing) :
    ∃ since m', origin number = some since ∧ since ≤ m.clock ∧
      m.step (.runner .go) = some m' ∧
      ((∃ limit, m.config.idleTimeout = some limit ∧ since + limit.nanos ≤ m.clock ∧
          m'.stage? number = some (.concluding (.seeking (.idleTimeout limit)))) ∨
        ∃ slice, m'.stage? number = some (.listening slice) ∧
          slice ≤ m.config.pollInterval.nanos ∧ ∀ limit, m.config.idleTimeout = some limit →
            m.clock - since < limit.nanos ∧ m.clock + slice ≤ since + limit.nanos) := by
  obtain ⟨p, s, hpoint, rfl, hs⟩ := serving_of_stage? htiming
  have hlength := hkept.current p s hpoint
  have hx := List.getElem?_eq_getElem (l := m.sessions) (i := s.session) (by omega)
  obtain ⟨hsince, hle⟩ := (h.served p s hpoint).origin (by rw [hs]; rfl)
  obtain ⟨stage', hstep, hcases⟩ := step_of_timing hpoint hx hs
  have hstage' : (m.goto (.serving p { s with stage := stage' })).stage? s.session =
      some stage' := (stage?_of_serving rfl _).trans (if_pos rfl)
  refine ⟨s.idleSince, _, hsince, hle, hstep, ?_⟩
  rw [hstage']
  rcases hcases with ⟨limit, hlimit, hover, rfl⟩ | ⟨slice, hslice, rfl⟩
  · exact .inl ⟨limit, hlimit, by omega, rfl⟩
  · obtain ⟨hpoll, hlimits⟩ := le_of_slice hslice
    refine .inr ⟨slice, rfl, hpoll, fun limit hlimit => ?_⟩
    obtain ⟨hlt, hfits⟩ := hlimits limit hlimit
    exact ⟨hlt, by omega⟩

/-- **Sessions end by the idle clock** and in time, whatever the clock shows, the commands
and replies are, and the limit and the length of a wait have to do with each other. -/
theorem idle_clock_kept (config : Config) (reader : String) (moves : List Move) (m : Machine)
    (hrun : (initial config reader).run moves = some m) :
    TimesOut config (initial config reader) moves m := by
  have hclocked := clocked_of_run config reader hrun
  have hkept := kept_of_run (.initial config reader) hrun
  have hlifts := (Lifts.initial config reader).run (.initial config reader) hrun
  obtain rfl : m.config = config := config_of_run hrun
  refine
    { reading := fun number => hclocked.reading hkept
      listening := fun number slice hstage => ?_
      waiting := fun number deadline hstage => ?_
      idle := fun number x limit hx hgives => ?_
      unlimited := fun hnone number x o hx ho limit hreason => ?_ }
  · obtain ⟨p, s, hpoint, rfl, hs⟩ := serving_of_stage? hstage
    have htimed := hclocked.served p s hpoint
    exact ⟨s.idleSince, (htimed.origin (by rw [hs]; rfl)).1, htimed.slice slice hs⟩
  · obtain ⟨p, s, hpoint, rfl, hs⟩ := serving_of_stage? hstage
    have htimed := hclocked.served p s hpoint
    obtain ⟨begun, slice, hbegun, hdeadline, hmeasured⟩ := htimed.deadline deadline hs
    exact ⟨s.idleSince, begun, slice, (htimed.origin (by rw [hs]; rfl)).1, hbegun, hdeadline,
      hmeasured⟩
  · obtain ⟨hparting, hlimit, horigin⟩ := hclocked.idle number x limit hx hgives
    refine ⟨hlimit, horigin, fun later m' hlater => ?_⟩
    obtain ⟨x', hx', -, hsame⟩ := parting_of_run hlater hx hparting
    exact ⟨x', hx', hsame⟩
  · obtain rfl := ((hlifts.sessions number x hx).recorded o ho).eq_idleTimeout hreason
    have hlimit := (hclocked.idle number x limit hx (.inr ho)).2.1
    rw [hnone] at hlimit
    cases hlimit

/-- A session may be without a command for two seconds, and waits for one second at a time. -/
def impatient : Config :=
  { idleTimeout := some ⟨2000000000⟩, wrongLengthRetry := false, getResponse := false }

/-- A client submits one command, after a first wait that brought none, and no other: the
exchange takes a second, and two seconds later the limit has passed. -/
def lapsed : List Move :=
  let go : Move := .runner .go
  let late : Move := .runner (.wake .timedOut)
  [go, .deliver false, .resolve {}, go, go, go, go, .runner (.presence (.ok true)), go,
    .runner (.connection (.ok ⟨"Reader 0", [], .t1⟩)), go, go, .runner (.spawned none),
    go, go, go, .tick 1000000000, late, .publish 0 [0x00], go, go, go, .tick 1000000000,
    .runner (.reply (.ok [0x90, 0x00])), go, go, go, go, go, go, .tick 2000000000, late, go, go]

/-- The limit is counted from the end of the exchange, and one command was taken. -/
theorem idle_clock_kept_lapsed : ∃ m x,
    (initial impatient "Reader 0").run lapsed = some m ∧ m.sessions[0]? = some x ∧
    m.stage? 0 = some (.concluding (.seeking (.idleTimeout ⟨2000000000⟩))) ∧
    (initial impatient "Reader 0").idleOrigin 0 lapsed = some 2000000000 ∧
    m.clock = 4000000000 ∧ x.transmissions.length = 1 ∧
    TimesOut impatient (initial impatient "Reader 0") lapsed m :=
  ⟨_, _, rfl, rfl, rfl, rfl, rfl, rfl, idle_clock_kept _ _ lapsed _ rfl⟩

end Machine

end Runner

end SmartCard
