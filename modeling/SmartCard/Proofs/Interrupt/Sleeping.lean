import SmartCard.Proofs.Interrupt.Tokens
/-!
# Interrupts are not slept through

A sleep has no result but by a look under the lock. What an action does to a
thread that sleeps is said once (`Moves`), and so is what a step of such a thread
comes to (`Looks`). Together they give what is known of a thread wherever it
stands (`Slept`): while it waits its token is not raised, because raising wakes
all who wait, and when its sleep is over there was a last look, which decided.

Whether its deadline or a raise has woken the thread does not matter to what that
look finds. So a raise that comes just as the deadline passes is not lost.
-/

namespace SmartCard

namespace Interrupts

open Interrupt (Sleep)

variable {i : Interrupts} {action : Action} {actions : List Action}

/-! ## Threads that sleep -/

/-- **What an action does to a thread** with this number that sleeps on this token. -/
inductive Moves (i : Interrupts) (number token : Nat) (s : Sleep) : Action → Sleep → Prop
  /-- It looks. -/
  | look : Moves i number token s (.step number) (s.step (i.isRaised token))
  /-- It is woken, for no reason or by its deadline, -/
  | wake (w : Wake) (hs : s = .asleep) : Moves i number token s (.wake number w) (.woken w)
  /-- or by a raise of its interrupt. -/
  | notify (source : Nat) {interrupt : Nat} (hs : s = .asleep)
    (hsource : i.tokens[source]? = some interrupt) (htoken : i.tokens[token]? = some interrupt) :
    Moves i number token s (.raise source) (.woken .notified)
  /-- Nothing else is done to it, and while it waits its interrupt is not raised. -/
  | keep (action : Action) (hstep : action ≠ .step number)
    (hraise : s = .asleep → ∀ source interrupt : Nat, action = .raise source →
      i.tokens[source]? = some interrupt → i.tokens[token]? ≠ some interrupt) :
    Moves i number token s action s

theorem sleepers_onSleeper_self {number token : Nat} {s : Sleep}
    (h : i.sleepers[number]? = some (token, s)) (change : Nat → Sleep → Sleep) :
    (i.onSleeper number change).sleepers[number]? = some (token, change token s) := by
  simp only [onSleeper, h]
  exact List.getElem?_set_self (List.getElem?_eq_some_iff.1 h).1

theorem sleepers_onSleeper_ne {number other : Nat} (h : number ≠ other)
    (change : Nat → Sleep → Sleep) :
    (i.onSleeper number change).sleepers[other]? = i.sleepers[other]? := by
  unfold onSleeper
  split
  · exact List.getElem?_set_ne h
  · rfl

/-- A thread that does not wait cannot be woken. -/
theorem wake_of_ne_asleep {s : Sleep} (h : s ≠ .asleep) (w : Wake) : s.wake w = s := by
  cases s with
  | asleep => exact absurd rfl h
  | _ => rfl

/-- **A thread goes on sleeping on its token**, and an action does one of these things
to it. -/
theorem moves_of_apply {number token : Nat} {s : Sleep}
    (h : i.sleepers[number]? = some (token, s)) (action : Action) :
    ∃ s', (i.apply action).sleepers[number]? = some (token, s') ∧
      Moves i number token s action s' := by
  obtain ⟨hlt, -⟩ := List.getElem?_eq_some_iff.1 h
  cases action with
  | fresh => exact ⟨s, h, .keep _ (by simp) (by simp)⟩
  | clone source =>
    refine ⟨s, ?_, .keep _ (by simp) (by simp)⟩
    simp only [apply, Interrupts.clone]
    split <;> exact h
  | raise source =>
    cases hsource : i.tokens[source]? with
    | none =>
      refine ⟨s, by simpa only [apply, Interrupts.raise, hsource] using h, .keep _ (by simp) ?_⟩
      rintro - _ interrupt ⟨⟩ hsome
      rw [hsource] at hsome
      cases hsome
    | some interrupt =>
      simp only [apply, Interrupts.raise, hsource, List.getElem?_map, h, Option.map_some, notified]
      refine ⟨_, rfl, ?_⟩
      split
      · next htoken =>
        by_cases hs : s = .asleep
        · subst hs
          exact .notify source rfl hsource htoken
        · rw [wake_of_ne_asleep hs]
          exact .keep _ (by simp) (fun hasleep => absurd hasleep hs)
      · next htoken =>
        refine .keep _ (by simp) ?_
        rintro - _ other ⟨⟩ hother
        rw [hsource] at hother
        cases hother
        exact htoken
  | sleep source =>
    refine ⟨s, ?_, .keep _ (by simp) (by simp)⟩
    simp only [apply, Interrupts.sleep]
    split
    · exact (List.getElem?_append_left hlt).trans h
    · exact h
  | step other =>
    rcases eq_or_ne other number with rfl | hne
    · exact ⟨_, sleepers_onSleeper_self h _, .look⟩
    · exact ⟨s, (sleepers_onSleeper_ne hne _).trans h, .keep _ (by simp [hne]) (by simp)⟩
  | wake other w =>
    rcases eq_or_ne other number with rfl | hne
    · refine ⟨_, sleepers_onSleeper_self h _, ?_⟩
      by_cases hs : s = .asleep
      · subst hs
        exact .wake w rfl
      · rw [wake_of_ne_asleep hs]
        exact .keep _ (by simp) (by simp)
    · exact ⟨s, (sleepers_onSleeper_ne hne _).trans h, .keep _ (by simp) (by simp)⟩

/-- A thread that was not there has just started to sleep on a token that is. -/
theorem entering_of_apply {number token : Nat} {s : Sleep} (hnone : i.sleepers[number]? = none)
    (h : (i.apply action).sleepers[number]? = some (token, s)) :
    s = .entering ∧ ∃ interrupt, i.tokens[token]? = some interrupt := by
  have hold : i.sleepers[number]? ≠ some (token, s) := by simp [hnone]
  cases action with
  | fresh => exact absurd h hold
  | clone source =>
    simp only [apply, Interrupts.clone] at h
    split at h <;> exact absurd h hold
  | raise source =>
    simp only [apply, Interrupts.raise] at h
    split at h
    · rw [List.getElem?_map, hnone] at h
      cases h
    · exact absurd h hold
  | sleep source =>
    cases hsource : i.tokens[source]? with
    | none =>
      simp only [apply, Interrupts.sleep, hsource] at h
      exact absurd h hold
    | some interrupt =>
      simp only [apply, Interrupts.sleep, hsource] at h
      rcases getElem?_concat_eq_some.1 h with hearlier | ⟨-, hnew⟩
      · exact absurd hearlier hold
      · cases hnew
        exact ⟨rfl, interrupt, hsource⟩
  | step other =>
    rcases eq_or_ne other number with rfl | hne
    · simp only [apply, step, onSleeper, hnone] at h
      cases h
    · exact absurd ((sleepers_onSleeper_ne hne _).symm.trans h) hold
  | wake other w =>
    rcases eq_or_ne other number with rfl | hne
    · simp only [apply, wake, onSleeper, hnone] at h
      cases h
    · exact absurd ((sleepers_onSleeper_ne hne _).symm.trans h) hold

/-- What a thread that takes a step comes to, by what it finds. -/
inductive Looks (s : Sleep) (raised : Bool) : Sleep → Prop
  /-- It takes no step while it waits, -/
  | waits (hs : s = .asleep) : Looks s raised .asleep
  /-- nor when its sleep is over. -/
  | done (result : Except TaskError Unit) (hs : s = .ended result) : Looks s raised (.ended result)
  /-- It goes on waiting, -/
  | goesOn (hraised : raised = false) : Looks s raised .asleep
  /-- or returns with what it finds: without an interrupt only after its deadline. -/
  | returns (hawake : s ≠ .asleep) (hgoing : ∀ result, s ≠ .ended result)
    (hdeadline : raised = false → s = .woken .timedOut) :
    Looks s raised (.ended (Interrupt.check raised))

theorem looks_of_step (s : Sleep) (raised : Bool) : Looks s raised (s.step raised) := by
  cases s with
  | asleep => exact .waits rfl
  | ended result => exact .done result rfl
  | entering =>
    cases raised with
    | true => exact .returns (by simp) (by simp) (by simp)
    | false => exact .goesOn rfl
  | woken w =>
    cases w with
    | timedOut => exact .returns (by simp) (by simp) (fun _ => rfl)
    | notified =>
      cases raised with
      | true => exact .returns (by simp) (by simp) (by simp)
      | false => exact .goesOn rfl

theorem slept?_eq_some_iff {number : Nat} {result : Except TaskError Unit} :
    i.slept? number = some result ↔ ∃ token, i.sleepers[number]? = some (token, .ended result) := by
  unfold slept?
  split
  · next token found h => simp [h]
  · next hnone =>
    refine iff_of_false (by simp) ?_
    rintro ⟨token, h⟩
    exact hnone token result h

/-- The sleep of a thread that stands elsewhere is not over. -/
theorem slept?_eq_none {number token : Nat} {s : Sleep}
    (h : i.sleepers[number]? = some (token, s)) (hgoing : ∀ result, s ≠ .ended result) :
    i.slept? number = none := by
  refine Option.eq_none_iff_forall_ne_some.2 fun result hresult => ?_
  obtain ⟨_, hended⟩ := slept?_eq_some_iff.1 hresult
  rw [h] at hended
  exact hgoing result (congrArg Prod.snd (Option.some.inj hended))

/-- **The last look of a thread**, by which its sleep on this token came to this result,
in a family where it stood so. -/
structure LastLook (actions : List Action) (number token : Nat) (result : Except TaskError Unit)
    (i : Interrupts) (s : Sleep) : Prop where
  /-- The look is an action of the run, -/
  mem : (i, .step number) ∈ met {} actions
  stands : i.sleepers[number]? = some (token, s)
  /-- and ends the sleep, -/
  before : i.slept? number = none
  after : (i.step number).slept? number = some result
  /-- which fails exactly if the token is raised at that moment, -/
  result_eq : result = if i.isRaised token then .error .cancelled else .ok ()
  /-- and else was woken by its deadline. -/
  deadline : i.isRaised token = false → s = .woken .timedOut ∧ .wake number .timedOut ∈ actions

theorem LastLook.concat {number token : Nat} {result : Except TaskError Unit} {s : Sleep}
    (h : LastLook actions number token result i s) (action : Action) :
    LastLook (actions ++ [action]) number token result i s where
  mem := by
    rw [met_concat]
    exact List.mem_append_left _ h.mem
  stands := h.stands
  before := h.before
  after := h.after
  result_eq := h.result_eq
  deadline hfalse := (h.deadline hfalse).imp_right (List.mem_append_left _)

/-- **How a thread sleeps** on a token. -/
structure Slept (actions : List Action) (i : Interrupts) (number token : Nat) (s : Sleep) :
    Prop where
  /-- The token is there. -/
  held : ∃ interrupt, i.tokens[token]? = some interrupt
  /-- While the thread waits, its token is not raised. -/
  asleep : s = .asleep → i.isRaised token = false
  /-- If its deadline has woken it, that was an action of the run, -/
  overdue : s = .woken .timedOut → .wake number .timedOut ∈ actions
  /-- and if its sleep is over, it has returned with a look. -/
  ended : ∀ result, s = .ended result → ∃ j s₀, LastLook actions number token result j s₀

namespace Slept

variable {number token : Nat} {s s' : Sleep}

/-- A look at the token. -/
theorem look (h : Slept actions i number token s) (hi : run {} actions = i)
    (hstands : i.sleepers[number]? = some (token, s)) :
    Slept (actions ++ [.step number]) (i.apply (.step number)) number token
      (s.step (i.isRaised token)) := by
  obtain ⟨interrupt, htoken⟩ := h.held
  have hstep : (i.apply (.step number)).sleepers[number]? =
      some (token, s.step (i.isRaised token)) := sleepers_onSleeper_self hstands _
  have hheld := (changes_of_apply i (.step number)).keeps.1 token interrupt htoken
  have hasleep : i.isRaised token = false →
      (i.apply (.step number)).isRaised token = false :=
    fun hfalse => isRaised_apply_of_false hi htoken hfalse (by simp)
  have hlooks := looks_of_step s (i.isRaised token)
  generalize s.step (i.isRaised token) = s' at hlooks hstep
  cases hlooks with
  | waits hs => exact ⟨⟨interrupt, hheld⟩, fun _ => hasleep (h.asleep hs), by simp, by simp⟩
  | goesOn hfalse => exact ⟨⟨interrupt, hheld⟩, fun _ => hasleep hfalse, by simp, by simp⟩
  | done result hs =>
    refine ⟨⟨interrupt, hheld⟩, by simp, by simp, ?_⟩
    rintro _ ⟨⟩
    obtain ⟨j, s₀, hlook⟩ := h.ended result hs
    exact ⟨j, s₀, hlook.concat _⟩
  | returns hawake hgoing hdeadline =>
    -- this look is the last one
    refine ⟨⟨interrupt, hheld⟩, by simp, by simp, ?_⟩
    rintro _ ⟨⟩
    refine ⟨i, s, ?_, hstands, slept?_eq_none hstands hgoing,
      slept?_eq_some_iff.2 ⟨token, hstep⟩, rfl, fun hfalse => ?_⟩
    · rw [met_concat, hi]
      exact List.mem_append_right _ (List.mem_singleton_self _)
    · have hs := hdeadline hfalse
      exact ⟨hs, List.mem_append_left _ (h.overdue hs)⟩

/-- One action more. -/
theorem step (h : Slept actions i number token s) (hi : run {} actions = i)
    (hstands : i.sleepers[number]? = some (token, s)) (hmoves : Moves i number token s action s') :
    Slept (actions ++ [action]) (i.apply action) number token s' := by
  obtain ⟨interrupt, htoken⟩ := h.held
  have hheld := (changes_of_apply i action).keeps.1 token interrupt htoken
  cases hmoves with
  | look => exact h.look hi hstands
  | wake w hs =>
    refine ⟨⟨interrupt, hheld⟩, by simp, ?_, by simp⟩
    rintro ⟨⟩
    exact List.mem_append_right _ (List.mem_singleton_self _)
  | notify source hs hsource htoken => exact ⟨⟨interrupt, hheld⟩, by simp, by simp, by simp⟩
  | keep action hstep hraise =>
    -- a raise of its interrupt would have woken the thread
    refine ⟨⟨interrupt, hheld⟩, fun hs => ?_, fun hs => List.mem_append_left _ (h.overdue hs),
      fun result hs => ?_⟩
    · refine isRaised_apply_of_false hi htoken (h.asleep hs) fun source haction hsource => ?_
      exact hraise hs source interrupt haction hsource htoken
    · obtain ⟨j, s₀, hlook⟩ := h.ended result hs
      exact ⟨j, s₀, hlook.concat action⟩

end Slept

theorem slept_of_run (actions : List Action) {number token : Nat} {s : Sleep}
    (h : (run {} actions).sleepers[number]? = some (token, s)) :
    Slept actions (run {} actions) number token s := by
  induction actions using List.reverseRecOn generalizing s with
  | nil => cases h
  | append_singleton actions action ih =>
    rw [run_concat] at h ⊢
    cases hbefore : (run {} actions).sleepers[number]? with
    | none =>
      obtain ⟨rfl, interrupt, htoken⟩ := entering_of_apply hbefore h
      have hheld := (changes_of_apply _ action).keeps.1 token interrupt htoken
      exact ⟨⟨interrupt, hheld⟩, by simp, by simp, by simp⟩
    | some sleeper =>
      obtain ⟨token', s₀⟩ := sleeper
      obtain ⟨s', hs', hmoves⟩ := moves_of_apply hbefore action
      rw [hs'] at h
      cases h
      exact (ih hbefore).step rfl hbefore hmoves

/-! ## What interrupts are good for -/

/-- A sleep from its beginning to its end, with what others do meanwhile, is a run. -/
theorem sleepThrough_eq (i : Interrupts) (token : Nat) (meanwhile : List Action) :
    let number := i.sleepers.length
    let j := i.run ([.sleep token, .step number] ++ meanwhile ++
      [.wake number .notified, .step number, .wake number .timedOut, .step number])
    i.sleepThrough token (·.run meanwhile) = ((j.slept? number).getD (.ok ()), j) := by
  simp only [run_append]
  rfl

/-- A thread that looks at a raised token returns at once. -/
theorem slept?_step_of_raised {number token : Nat} {s : Sleep}
    (hstands : i.sleepers[number]? = some (token, s)) (hraised : i.isRaised token = true)
    (hawake : s ≠ .asleep) (hgoing : i.slept? number = none) :
    (i.step number).slept? number = some (.error .cancelled) := by
  have hstep : (i.step number).sleepers[number]? = some (token, s.step (i.isRaised token)) :=
    sleepers_onSleeper_self hstands _
  have hlooks := looks_of_step s (i.isRaised token)
  rw [hraised] at hstep hlooks
  generalize s.step true = s' at hstep hlooks
  cases hlooks with
  | waits hs => exact absurd hs hawake
  | goesOn hfalse => cases hfalse
  | done result hs =>
    rw [slept?_eq_some_iff.2 ⟨token, hs ▸ hstands⟩] at hgoing
    cases hgoing
  | returns => exact slept?_eq_some_iff.2 ⟨token, hstep⟩

/-- **A sleep on a raised token never waits**: it returns with the first look. -/
theorem sleepers_run_of_raised {token : Nat} (h : i.isRaised token = true) (later : List Action) :
    (.step i.sleepers.length ∉ later →
      ((i.sleep token).run later).sleepers[i.sleepers.length]? = some (token, .entering)) ∧
    (.step i.sleepers.length ∈ later →
      ((i.sleep token).run later).sleepers[i.sleepers.length]? =
        some (token, .ended (.error .cancelled))) := by
  have hraised : ∀ later, ((i.sleep token).run later).isRaised token = true :=
    isRaised_run (isRaised_apply h (.sleep token))
  induction later using List.reverseRecOn with
  | nil =>
    obtain ⟨interrupt, htoken, -⟩ := isRaised_iff.1 h
    refine ⟨fun _ => ?_, by simp⟩
    simp only [run, List.foldl_nil, Interrupts.sleep, htoken]
    exact List.getElem?_concat_length
  | append_singleton later action ih =>
    rw [run_concat]
    by_cases hmem : .step i.sleepers.length ∈ later
    · obtain ⟨s', hs', hmoves⟩ := moves_of_apply (ih.2 hmem) action
      refine ⟨fun hnot => absurd (List.mem_append_left _ hmem) hnot, fun _ => ?_⟩
      rw [hs']
      cases hmoves with
      | look => rfl
      | wake w hs => cases hs
      | notify source hs => cases hs
      | keep => rfl
    · obtain ⟨s', hs', hmoves⟩ := moves_of_apply (ih.1 hmem) action
      rw [hs']
      cases hmoves with
      | look =>
        rw [hraised]
        exact ⟨fun hnot => absurd (List.mem_append_right _ (List.mem_singleton_self _)) hnot,
          fun _ => rfl⟩
      | wake w hs => cases hs
      | notify source hs => cases hs
      | keep action hstep =>
        refine ⟨fun _ => rfl, fun hnew => ?_⟩
        rcases List.mem_append.1 hnew with hold | hlast
        · exact absurd hold hmem
        · exact absurd (List.mem_singleton.1 hlast).symm hstep

/-- What a sleep came to does not change. -/
theorem slept?_run {number : Nat} {result : Except TaskError Unit}
    (h : i.slept? number = some result) (later : List Action) :
    (i.run later).slept? number = some result := by
  obtain ⟨token, hstands⟩ := slept?_eq_some_iff.1 h
  refine slept?_eq_some_iff.2 ⟨token, ?_⟩
  induction later using List.reverseRecOn with
  | nil => exact hstands
  | append_singleton later action ih =>
    obtain ⟨s', hs', hmoves⟩ := moves_of_apply ih action
    rw [run_concat, hs']
    cases hmoves with
    | look => rfl
    | wake w hs => cases hs
    | notify source hs => cases hs
    | keep => rfl

/-- **What can be relied on** in a family of interrupts after these actions. -/
structure Dependable (actions : List Action) (i : Interrupts) : Prop where
  /-- A token is interrupted exactly if it was raised, or one that it is connected with by
  cloning was, -/
  raised_iff : ∀ token, i.isRaised token = true ↔
    ∃ source, Connected actions token source ∧ RaisedIn actions source
  /-- which is what a check of it finds, -/
  check_eq : ∀ token, i.check token = if i.isRaised token then .error .cancelled else .ok ()
  /-- and remains so for ever. -/
  lasts : ∀ token, i.isRaised token = true → ∀ later, (i.run later).isRaised token = true
  /-- Nobody waits on a token that is raised. -/
  awake : ∀ number token : Nat, i.sleepers[number]? = some (token, .asleep) →
    i.isRaised token = false
  /-- Whoever sleeps on it returns with the next look, -/
  returns : ∀ number token s, i.sleepers[number]? = some (token, s) →
    i.isRaised token = true → i.slept? number = none →
    (i.step number).slept? number = some (.error .cancelled)
  /-- and so does anybody whose deadline has passed, with what is found then. -/
  elapses : ∀ number token : Nat, i.sleepers[number]? = some (token, .woken .timedOut) →
    (i.step number).slept? number = some (i.check token)
  /-- A sleep is over by a last look, which decides how it came out, -/
  lastLook : ∀ number result, i.slept? number = some result →
    ∃ token j s, LastLook actions number token result j s
  /-- once and for all. -/
  stays : ∀ number result, i.slept? number = some result →
    ∀ later, (i.run later).slept? number = some result
  /-- A sleep on a token that is raised already has one look, and does not wait for it. -/
  unwaiting : ∀ token, i.isRaised token = true → ∀ later,
    (.step i.sleepers.length ∉ later →
      ((i.sleep token).run later).sleepers[i.sleepers.length]? = some (token, .entering)) ∧
    (.step i.sleepers.length ∈ later →
      ((i.sleep token).run later).sleepers[i.sleepers.length]? =
        some (token, .ended (.error .cancelled)))

/-- **Interrupts are permanent, shared by clones, and never slept through**, whatever was
made, cloned, raised and slept on, and however the sleeping threads were woken. -/
theorem never_slept_through (actions : List Action) : Dependable actions (run {} actions) where
  raised_iff := isRaised_run_iff actions
  check_eq token := rfl
  lasts token := isRaised_run
  awake number token hstands := (slept_of_run actions hstands).asleep rfl
  returns number token s hstands hraised hgoing := by
    refine slept?_step_of_raised hstands hraised (fun hs => ?_) hgoing
    rw [(slept_of_run actions hstands).asleep hs] at hraised
    cases hraised
  elapses number token hstands :=
    slept?_eq_some_iff.2 ⟨token, sleepers_onSleeper_self hstands _⟩
  lastLook number result hresult := by
    obtain ⟨token, hstands⟩ := slept?_eq_some_iff.1 hresult
    obtain ⟨j, s, hlook⟩ := (slept_of_run actions hstands).ended result rfl
    exact ⟨token, j, s, hlook⟩
  stays number result := slept?_run
  unwaiting token := sleepers_run_of_raised

/-- A thread sleeps on a token, its deadline passes, and before it has the lock again a
clone of the token is raised. -/
def raisedAtDeadline : List Action :=
  [.fresh, .clone 0, .sleep 0, .step 0, .wake 0 .timedOut, .raise 1]

/-- The raise is not lost: the sleep fails. -/
theorem never_slept_through_deadline :
    (∃ source, Connected raisedAtDeadline 0 source ∧ RaisedIn raisedAtDeadline source) ∧
    (run {} (raisedAtDeadline ++ [.step 0])).slept? 0 = some (.error .cancelled) := by
  have hdependable := never_slept_through raisedAtDeadline
  have hraised : (run {} raisedAtDeadline).isRaised 0 = true := rfl
  refine ⟨(hdependable.raised_iff 0).1 hraised, ?_⟩
  rw [run_concat]
  exact hdependable.returns 0 0 (.woken .timedOut) rfl hraised rfl

end Interrupts

end SmartCard
