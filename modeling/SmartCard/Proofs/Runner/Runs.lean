import SmartCard.Proofs.Runner.Sittings
/-!
# The sessions of a run

A machine runs one session after the other, and the parties of all of them
take their steps in any order. `Kept` is what holds of the machine at every
moment: of each session what `Sitting.Sound` says for the stage at which the
runner's thread stands in it, and of the sessions that the thread has left
that they are over. `Kept.step` is one move, and `kept_of_run` a whole run.
-/

namespace SmartCard

namespace Runner

namespace Machine

variable {m m' : Machine} {number : Nat} {x : Sitting}

/-- The stage at which the runner's thread stands in a session, if it does. -/
def stage? (m : Machine) (number : Nat) : Option Stage :=
  match m.point with
  | .serving _ s => if s.session = number then some s.stage else none
  | _ => none

/-- The session is over, whoever saw to that. -/
def IsOver (m : Machine) (number : Nat) : Prop :=
  ∃ x o, m.sessions[number]? = some x ∧ x.Over o

theorem IsOver.exists_over (h : m.IsOver number) (hx : m.sessions[number]? = some x) :
    ∃ o, x.Over o := by
  obtain ⟨y, o, hy, ho⟩ := h
  obtain rfl : y = x := Option.some.inj (hy.symm.trans hx)
  exact ⟨o, ho⟩

/-- The runner's thread has served the session to its end. A panic breaks off the
session that is being served, which is the last: that counts only if it is over. -/
def HasServed (m : Machine) (number : Nat) : Prop :=
  number < m.sessions.length ∧
    match m.point with
    | .serving _ s => s.session = number → ∃ o, s.stage = .served o
    | .ending (.panicked _) | .gone (.panicked _) =>
      number + 1 < m.sessions.length ∨ m.IsOver number
    | _ => True

/-- The watch takes the latch of a session by this move, and nobody has taken
it before. A move that seeks the latch is possible only while it is free. -/
def Preempts (m : Machine) (number : Nat) : Move → Prop
  | .watch k _ => k = number ∧ ∃ x w o, m.sessions[number]? = some x ∧ x.watch = some w ∧
      w.point = .concluding (.seeking o) ∧ x.session.outcome = none
  | _ => False

/-- **The watch was the first to take the latch of a session**, in this run. -/
def Preempted (m : Machine) (number : Nat) : List Move → Prop
  | [] => False
  | move :: moves => m.Preempts number move ∨
      ∃ m', m.step move = some m' ∧ m'.Preempted number moves

/-- A point outside of all sessions, none of which was broken off. -/
def IsOutside : Point → Prop
  | .serving _ _ | .ending (.panicked _) | .gone (.panicked _) => False
  | _ => True

/-- From outside, the runner's thread has served all sessions. -/
theorem hasServed_of_isOutside (h : IsOutside m.point) (hlt : number < m.sessions.length) :
    m.HasServed number := by
  refine ⟨hlt, ?_⟩
  split
  · next hpoint =>
    rw [hpoint] at h
    exact h.elim
  · next hpoint =>
    rw [hpoint] at h
    exact h.elim
  · next hpoint =>
    rw [hpoint] at h
    exact h.elim
  · trivial

/-- While the runner's thread stays where it is, it serves no session. One that it
was broken off in can come to be over. -/
theorem hasServed_of_same (hpoint : m'.point = m.point)
    (hlength : m'.sessions.length = m.sessions.length) (h : m'.HasServed number) :
    m.HasServed number ∨ m'.IsOver number := by
  unfold HasServed at h ⊢
  rw [hpoint, hlength] at h
  obtain ⟨hlt, h⟩ := h
  split at h
  · exact .inl ⟨hlt, h⟩
  · exact h.imp (fun hearlier => ⟨hlt, .inl hearlier⟩) id
  · exact h.imp (fun hearlier => ⟨hlt, .inl hearlier⟩) id
  · exact .inl ⟨hlt, trivial⟩

/-- The runner's thread is inside a session. -/
def isServing : Point → Bool
  | .serving _ _ => true
  | _ => false

/-- A thread that serves no session stands at no stage of one. -/
theorem stage?_eq_none (h : isServing m.point = false) (number : Nat) :
    m.stage? number = none := by
  unfold stage?
  split
  · next hpoint =>
    rw [hpoint] at h
    cases h
  · rfl

/-- In a session that was served, the thread stands at its end or not at all. -/
theorem stage?_of_hasServed (h : m.HasServed number) :
    Stage.calls (m.stage? number) = [] ∧ Stage.loose (m.stage? number) = [] := by
  obtain ⟨-, h⟩ := h
  unfold stage?
  split
  · next p s hpoint =>
    rw [hpoint] at h
    split
    · next heq =>
      obtain ⟨o, ho⟩ := h heq
      rw [ho]
      exact ⟨rfl, rfl⟩
    · exact ⟨rfl, rfl⟩
  · exact ⟨rfl, rfl⟩

/-- From a session the thread does not go into the next one at once. -/
theorem isServing_onward (p : Parameters) (sessions : Nat) (o : Outcome) :
    isServing (onward p sessions o) = false := by
  cases o with
  | removed => cases hmulti : p.multiSession <;> simp [onward, hmulti, isServing]
  | _ => rfl

/-! ## The waits of the runner's thread -/

/-- The end of the longest wait that can begin now. -/
def horizon (m : Machine) : Nat :=
  m.clock + m.config.pollInterval.nanos

/-- No wait for a command is longer than one wait may be. -/
def KeepsInterval (m : Machine) : Prop :=
  ∀ p s slice, m.point = .serving p s → s.stage = .listening slice →
    slice ≤ m.config.pollInterval.nanos

/-- A runner that is about to start. -/
theorem keepsInterval_initial (config : Config) (reader : String) :
    (initial config reader).KeepsInterval :=
  fun p s slice hs => by cases hs

/-- The thread begins to listen for no longer than one wait may take. -/
theorem slice_le_of_turn {config : Config} {stage : Stage} {slice : Nat} {x' : Sitting}
    {queued : List Event} (h : Turn config number x stage (.listening slice) x' queued) :
    slice ≤ config.pollInterval.nanos := by
  cases h with
  | listen _ hslice => exact hslice
  | wait _ _ hstage' => rcases hstage' with heq | ⟨deadline, heq⟩ <;> cases heq
  | dismiss _ _ _ _ _ hstage' => rcases hstage' with heq | heq <;> cases heq

/-- A step of the runner's thread makes no wait too long. -/
theorem keepsInterval_of_leads (hleads : m.Leads m') : m'.KeepsInterval := by
  obtain ⟨queued, hgoes, -, hkeeps⟩ := hleads
  intro p' s' slice hpoint' hs'
  rw [hkeeps.config]
  rw [hpoint'] at hgoes
  generalize hafter : Point.serving p' s' = point' at hgoes
  generalize m.point = point, m'.sessions = sessions at hgoes
  cases hgoes with
  | connect p a card =>
    cases hafter
    cases hs'
  | turn hsame hx hturn =>
    cases hafter
    rw [hs'] at hturn
    exact slice_le_of_turn hturn
  | @finish p s o hstage =>
    have hserving := isServing_onward p m.sessions.length o
    rw [← hafter] at hserving
    cases hserving
  | _ => cases hafter

/-- **One move** makes no wait too long. -/
theorem KeepsInterval.step (h : m.KeepsInterval) {move : Move} (hstep : m.step move = some m') :
    m'.KeepsInterval := by
  cases happens_of_step hstep with
  | aside haside =>
    obtain ⟨hpoint, -, -, hconfig, -⟩ := haside.same
    intro p s slice hs
    rw [hconfig]
    exact h p s slice (hpoint ▸ hs)
  | publish | watch => exact h
  | runner input hleads => exact keepsInterval_of_leads hleads

/-! ## The invariant -/

/-- **What holds of a machine at every moment.** -/
structure Kept (m : Machine) (preempted : Nat → Prop) : Prop where
  sound : ∀ number (x : Sitting), m.sessions[number]? = some x →
    x.Sound m.config (preempted number) (m.stage? number)
  /-- The session that is being served is the last. -/
  current : ∀ p s, m.point = .serving p s → s.session + 1 = m.sessions.length
  isOver : ∀ number (x : Sitting), m.sessions[number]? = some x → m.HasServed number → ∃ o, x.Over o

namespace Kept

variable {preempted : Nat → Prop}

/-- A runner that is about to start. -/
theorem initial (config : Config) (reader : String) :
    (initial config reader).Kept fun _ => False where
  sound := fun number x hx => by simp [Machine.initial] at hx
  current := fun p s hs => by cases hs
  isOver := fun number x hx => by simp [Machine.initial] at hx

/-- A session that a watch has preempted stays so. -/
theorem mono {preempted' : Nat → Prop} (h : m.Kept preempted)
    (hp : ∀ number, preempted number → preempted' number) : m.Kept preempted' where
  sound := fun number x hx => (h.sound number x hx).mono fun hn hp' => hn (hp number hp')
  current := h.current
  isOver := h.isOver

/-- Changing one session, while the runner's thread stays where it is. -/
theorem set (h : m.Kept preempted) {preempted' : Nat → Prop} {x' : Sitting} {events : List Event}
    (hx : m.sessions[number]? = some x)
    (hsound : x'.Sound m.config (preempted' number) (m.stage? number))
    (hp : ∀ number, preempted number → preempted' number)
    (hover : ∀ o, x.Over o → x'.Over o) :
    Kept { m with events, sessions := m.sessions.set number x' } preempted' := by
  refine ⟨fun k y hy => ?_, fun p s hs => ?_, fun k y hy hk => ?_⟩
  · rw [List.getElem?_set] at hy
    split at hy
    · next heq =>
      subst heq
      split at hy
      · cases hy
        exact hsound
      · cases hy
    · exact (h.sound k y hy).mono fun hn hp' => hn (hp k hp')
  · rw [List.length_set]
    exact h.current p s hs
  · rcases hasServed_of_same (m := m) (by exact rfl) (by exact List.length_set) hk with
      hserved | hover'
    · rw [List.getElem?_set] at hy
      split at hy
      · next heq =>
        subst heq
        split at hy
        · cases hy
          obtain ⟨o, ho⟩ := h.isOver number x hx hserved
          exact ⟨o, hover o ho⟩
        · cases hy
      · exact h.isOver k y hy hserved
    · exact hover'.exists_over hy

/-- The runner's thread goes from one point outside of a session to another. -/
theorem goto (h : m.Kept preempted) (hconfig : m'.config = m.config)
    (hsessions : m'.sessions = m.sessions) (hserving : isServing m.point = false)
    (hserving' : isServing m'.point = false)
    (hserved : ∀ k, m'.HasServed k → m.HasServed k ∨ m'.IsOver k) : m'.Kept preempted where
  sound := fun k y hy => by
    rw [stage?_eq_none hserving', hconfig, ← stage?_eq_none hserving k]
    exact h.sound k y (hsessions ▸ hy)
  current := fun p s hs => by
    rw [hs] at hserving'
    cases hserving'
  isOver := fun k y hy hk =>
    (hserved k hk).elim (h.isOver k y (hsessions ▸ hy)) fun hover => hover.exists_over hy

/-- The runner's thread leaves a session, to a point outside of all. -/
theorem leave (h : m.Kept preempted) {p : Parameters} {s : Service}
    (hpoint : m.point = .serving p s) (hcalls : Stage.calls (some s.stage) = [])
    (hloose : Stage.loose (some s.stage) = []) (hconfig : m'.config = m.config)
    (hsessions : m'.sessions = m.sessions) (hserving' : isServing m'.point = false)
    (hserved : ∀ k, m'.HasServed k → m.HasServed k ∨ m'.IsOver k) : m'.Kept preempted where
  sound := fun k y hy => by
    have hs := h.sound k y (hsessions ▸ hy)
    rw [stage?_eq_none hserving', hconfig]
    unfold stage? at hs
    rw [hpoint] at hs
    simp only at hs
    split at hs
    · exact hs.leave hcalls hloose
    · exact hs
  current := fun p s hs => by
    rw [hs] at hserving'
    cases hserving'
  isOver := fun k y hy hk =>
    (hserved k hk).elim (h.isOver k y (hsessions ▸ hy)) fun hover => hover.exists_over hy

/-- A new session is opened. -/
theorem connect (h : m.Kept preempted) {p : Parameters} {a : Attempt} {card : CardData}
    (hpoint : m.point = .attempting p a) (hconfig : m'.config = m.config)
    (hpoint' : m'.point = .serving p { session := m.sessions.length })
    (hsessions : m'.sessions = m.sessions ++ [{ session := { card } }]) : m'.Kept preempted := by
  refine ⟨fun k y hy => ?_, fun p' s hs => ?_, fun k y hy hk => ?_⟩
  · rw [hsessions] at hy
    rw [hconfig, stage?, hpoint']
    rcases Nat.lt_or_ge k m.sessions.length with hlt | hge
    · rw [List.getElem?_append_left hlt] at hy
      have hs := h.sound k y hy
      rw [stage?, hpoint] at hs
      simpa only [if_neg (Nat.ne_of_gt hlt)] using hs
    · -- the session is the new one
      rw [List.getElem?_append_right hge] at hy
      have hk : m.sessions.length = k := by
        have hlt := (List.getElem?_eq_some_iff.1 hy).1
        rw [List.length_singleton] at hlt
        omega
      rw [List.mem_singleton.1 (List.mem_of_getElem? hy)]
      simp only [hk, if_true]
      exact (Sitting.Sound.opened m.config card).mono fun _ => not_false
  · rw [hpoint'] at hs
    cases hs
    rw [hsessions, List.length_append, List.length_singleton]
  · rw [hsessions] at hy
    obtain ⟨hlt, hserved⟩ := hk
    rw [hpoint'] at hserved
    rw [hsessions, List.length_append, List.length_singleton] at hlt
    rcases Nat.lt_or_ge k m.sessions.length with hlt' | hge
    · rw [List.getElem?_append_left hlt'] at hy
      refine h.isOver k y hy ⟨hlt', ?_⟩
      rw [hpoint]
      trivial
    · obtain ⟨o, ho⟩ := hserved (Nat.le_antisymm hge (Nat.le_of_lt_succ hlt))
      cases ho

/-- The runner's thread takes a step inside the session that it serves. -/
theorem turn (h : m.Kept preempted) {p : Parameters} {s s' : Service} {x x' : Sitting}
    {queued : List Event} (hpoint : m.point = .serving p s) (hs' : s'.session = s.session)
    (hx : m.sessions[s.session]? = some x)
    (hturn : Turn m.config s.session x s.stage s'.stage x' queued)
    (hconfig : m'.config = m.config) (hpoint' : m'.point = .serving p s')
    (hsessions : m'.sessions = m.sessions.set s.session x') : m'.Kept preempted := by
  have hsound := h.sound s.session x hx
  rw [stage?, hpoint] at hsound
  simp only [if_true] at hsound
  have hsound' := hsound.turn hturn
  obtain ⟨hlt, -⟩ := List.getElem?_eq_some_iff.1 hx
  refine ⟨fun k y hy => ?_, fun p' t ht => ?_, fun k y hy hk => ?_⟩
  · rw [hconfig, stage?, hpoint']
    simp only [hs']
    rw [hsessions, List.getElem?_set] at hy
    split at hy
    · next heq =>
      subst heq
      cases hy
      rwa [if_pos rfl]
    · next hne =>
      rw [if_neg hne]
      have hother := h.sound k y hy
      rw [stage?, hpoint] at hother
      simpa only [if_neg hne] using hother
  · rw [hpoint'] at ht
    cases ht
    rw [hs', hsessions, List.length_set]
    exact h.current p s hpoint
  · obtain ⟨hk, hserved⟩ := hk
    rw [hpoint'] at hserved
    simp only [hs'] at hserved
    rw [hsessions, List.length_set] at hk
    rw [hsessions, List.getElem?_set] at hy
    split at hy
    · next heq =>
      subst heq
      cases hy
      obtain ⟨o, ho⟩ := hserved rfl
      rw [ho] at hsound'
      exact ⟨o, hsound'.fits⟩
    · next hne =>
      refine h.isOver k y hy ⟨hk, ?_⟩
      rw [hpoint]
      exact fun heq => absurd heq hne

/-- **A step of the runner's thread** keeps everything. -/
theorem runner (h : m.Kept preempted) (hleads : m.Leads m') : m'.Kept preempted := by
  obtain ⟨queued, hgoes, -, hkeeps⟩ := hleads
  generalize hpoint : m.point = point at hgoes
  generalize hpoint' : m'.point = point' at hgoes
  generalize hsessions : m'.sessions = sessions at hgoes
  -- a step from outside of all sessions, by which none is opened
  have hgoto : sessions = m.sessions → IsOutside point → isServing point' = false →
      m'.Kept preempted := by
    intro hsame houtside hserving'
    have hserving : isServing m.point = false := by
      rw [hpoint]
      cases point with
      | serving p s => exact houtside.elim
      | _ => rfl
    refine h.goto hkeeps.config (hsessions.trans hsame) hserving (hpoint' ▸ hserving')
      fun k hk => ?_
    exact .inl (hasServed_of_isOutside (hpoint ▸ houtside) (hsame ▸ hsessions ▸ hk.1))
  cases hgoes with
  | connect p a card => exact h.connect hpoint hkeeps.config hpoint' hsessions
  | turn hs' hx hturn => exact h.turn hpoint hs' hx hturn hkeeps.config hpoint' hsessions
  | @finish p s o hstage =>
    refine h.leave hpoint (by rw [hstage]; rfl) (by rw [hstage]; rfl) hkeeps.config hsessions
      (hpoint' ▸ isServing_onward p m.sessions.length o)
      fun k hk => .inl ⟨hsessions ▸ hk.1, ?_⟩
    rw [hpoint]
    exact fun _ => ⟨o, hstage⟩
  | @panic p s message hstage =>
    have hidle := Stage.idle_of_canPanic hstage
    refine h.leave hpoint hidle.1 hidle.2 hkeeps.config hsessions (hpoint' ▸ rfl) fun k hk => ?_
    -- the session that is broken off is the last
    have hcurrent := h.current p s hpoint
    obtain ⟨hlt, hk⟩ := hk
    rw [hpoint'] at hk
    refine hk.imp (fun hearlier => ⟨hsessions ▸ hlt, ?_⟩) id
    rw [hsessions] at hearlier
    rw [hpoint]
    intro heq
    omega
  | exit ending =>
    refine h.goto hkeeps.config hsessions (hpoint ▸ rfl) (hpoint' ▸ rfl) fun k hk => ?_
    unfold HasServed at hk ⊢
    rw [hpoint'] at hk
    rw [hpoint, ← hsessions]
    cases ending with
    | returned result => exact .inl hk
    | panicked message => exact hk.2.imp (fun hearlier => ⟨hk.1, .inl hearlier⟩) id
  | _ => exact hgoto rfl trivial rfl

/-- **One move** keeps everything. -/
theorem step (h : m.Kept preempted) {move : Move} (hstep : m.step move = some m') :
    m'.Kept fun number => preempted number ∨ m.Preempts number move := by
  have hmono : ∀ number, preempted number → preempted number ∨ m.Preempts number move :=
    fun _ => .inl
  cases happens_of_step hstep with
  | aside haside =>
    obtain ⟨hpoint, hsessions, -, hconfig, -⟩ := haside.same
    refine mono ?_ hmono
    refine ⟨fun k y hy => ?_, fun p s hs => ?_, fun k y hy hk => ?_⟩
    · rw [hconfig, stage?, hpoint]
      exact h.sound k y (hsessions ▸ hy)
    · rw [hsessions]
      exact h.current p s (hpoint ▸ hs)
    · exact (hasServed_of_same hpoint (by rw [hsessions]) hk).elim
        (h.isOver k y (hsessions ▸ hy)) fun hover => hover.exists_over hy
  | publish number command hx =>
    exact h.set hx (((h.sound number _ hx).publish command).mono fun hn hp => hn (.inl hp)) hmono
      fun o ho => ho.publish command
  | watch number input hx hwatch hturn =>
    refine h.set hx ((h.sound number _ hx).watch hwatch hturn fun hn => ?_) hmono fun o ho =>
      (ho.not_turn hwatch hturn).elim
    refine ⟨fun hp => hn (.inl hp), fun o hpoint houtcome => hn (.inr ?_)⟩
    exact ⟨rfl, _, _, o, hx, hwatch, hpoint, houtcome⟩
  | runner input hleads => exact (h.runner hleads).mono hmono

end Kept

/-- **A whole run** keeps everything. -/
theorem kept_of_run {preempted : Nat → Prop} (h : m.Kept preempted) {moves : List Move}
    (hrun : m.run moves = some m') :
    m'.Kept fun number => preempted number ∨ m.Preempted number moves := by
  induction moves generalizing m preempted with
  | nil =>
    cases hrun
    exact h.mono fun _ => .inl
  | cons move moves ih =>
    obtain ⟨m₁, hstep, hrun⟩ := run_cons_eq_some.1 hrun
    refine (ih (h.step hstep) hrun).mono fun number hp => ?_
    rcases hp with (hp | hp) | hp
    · exact .inl hp
    · exact .inr (.inl hp)
    · exact .inr (.inr ⟨m₁, hstep, hp⟩)

end Machine

end Runner

end SmartCard
