import Mathlib.Data.List.Chain
import SmartCard.Proofs.Runner.Lifting
/-!
# The state diagram of a runner

`Edge` is the diagram: which state can follow which, where the application's
choice decides about touching and about further sessions. `Displayed` says
for each point of the runner's thread what the states have come to, given the
outcomes of the sessions. `Drawn` is what is kept: the states are a path
through the diagram, and fit the point. A step of the runner's thread on the
way to a card (`draws_of_approaches`), inside a session (`draws_of_turn`), out
of it (`draws_of_finish`) and to the end (`draws_of_terminate`) follows the
diagram, so a run does (`drawn_of_run`).
-/

namespace SmartCard

namespace Runner

/-! ## The diagram -/

/-- The runner is outside of all sessions, and still to get a card. -/
def State.isEarly : State → Bool
  | .starting | .waitAbsent | .waitPresent | .connecting => true
  | _ => false

/-- A new attempt begins, as the application chose. -/
def Arrives (chosen : Option Parameters) (s : State) : Prop :=
  ∃ p, chosen = some p ∧ s = p.arrival

/-- **The state diagram**: which states can follow a state. The application's
choice is `chosen`. -/
def Edge (chosen : Option Parameters) : State → State → Prop
  | .starting, s => Arrives chosen s ∨ s = .fault ∨ s = .terminated
  | .waitAbsent, s => s = .waitPresent ∨ s = .fault ∨ s = .terminated
  | .waitPresent, s => s = .connecting ∨ s = .fault ∨ s = .terminated
  | .connecting, s => s = .active ∨ Arrives chosen s ∨ s = .fault ∨ s = .terminated
  | .active, s => s = .removed ∨ s = .fault ∨ s = .idleTimeout ∨ s = .terminated
  | .removed, s => ∃ p, chosen = some p ∧ s = if p.multiSession then p.arrival else .terminated
  | .fault, s | .idleTimeout, s => s = .terminated
  | .terminated, _ => False

section Edge

variable {chosen chosen' : Option Parameters} {s s' : State}

theorem arrival_eq (p : Parameters) : p.arrival = .waitAbsent ∨ p.arrival = .waitPresent := by
  unfold Parameters.arrival
  split
  · exact .inl rfl
  · exact .inr rfl

/-- A new attempt polls for the absence of a card if that is to be seen first. -/
theorem arrival_eq_of_touch (p : Parameters) :
    p.arrival = if !p.touchRequired then .waitPresent else .waitAbsent := by
  unfold Parameters.arrival
  cases p.touchRequired <;> rfl

theorem Arrives.mono (hgrows : ∀ p, chosen = some p → chosen' = some p) (h : Arrives chosen s) :
    Arrives chosen' s := by
  obtain ⟨p, hp, hs⟩ := h
  exact ⟨p, hgrows p hp, hs⟩

/-- A choice that is made only adds edges. -/
theorem Edge.mono (hgrows : ∀ p, chosen = some p → chosen' = some p) (h : Edge chosen s s') :
    Edge chosen' s s' := by
  cases s with
  | starting => exact h.imp_left (.mono hgrows)
  | connecting => exact h.imp_right (Or.imp_left (.mono hgrows))
  | removed =>
    obtain ⟨p, hp, hs'⟩ := h
    exact ⟨p, hgrows p hp, hs'⟩
  | _ => exact h

/-- No state follows itself. -/
theorem Edge.ne (h : Edge chosen s s') : s ≠ s' := by
  have harrives : ∀ {s}, Arrives chosen s → s = .waitAbsent ∨ s = .waitPresent := by
    rintro s ⟨p, -, rfl⟩
    exact arrival_eq p
  rintro rfl
  cases s with
  | starting =>
    rcases h with h | h | h
    · simpa using harrives h
    · cases h
    · cases h
  | connecting =>
    rcases h with h | h | h | h
    · cases h
    · simpa using harrives h
    · cases h
    · cases h
  | removed =>
    obtain ⟨p, -, hs⟩ := h
    split at hs
    · have hp := arrival_eq p
      rw [← hs] at hp
      simp at hp
    · cases hs
  | terminated => exact h
  | _ => simp [Edge] at h

/-- After a failure only the end is left. -/
theorem Edge.eq_terminated (hs : s = .fault ∨ s = .idleTimeout) (h : Edge chosen s s') :
    s' = .terminated := by
  rcases hs with rfl | rfl <;> exact h

/-- A runner that is still to get a card can fail. -/
theorem edge_fault_of_isEarly (hs : s.isEarly = true) : Edge chosen s .fault := by
  cases s with
  | starting => exact .inr (.inl rfl)
  | waitAbsent => exact .inr (.inl rfl)
  | waitPresent => exact .inr (.inl rfl)
  | connecting => exact .inr (.inr (.inl rfl))
  | _ => cases hs

/-- A runner that is still to get a card can stop. -/
theorem edge_terminated_of_isEarly (hs : s.isEarly = true) : Edge chosen s .terminated := by
  cases s with
  | starting => exact .inr (.inr rfl)
  | waitAbsent => exact .inr (.inr rfl)
  | waitPresent => exact .inr (.inr rfl)
  | connecting => exact .inr (.inr (.inr rfl))
  | _ => cases hs

/-- On a path to the end, a state that only the end can follow is the last but one. -/
theorem not_mem_of_path {before : List State} {last : State}
    (hpath : (before ++ [last, .terminated]).IsChain (Edge chosen))
    (hs : ∀ s', Edge chosen s s' → s' = .terminated) : s ∉ before := by
  intro hmem
  obtain ⟨u, v, rfl⟩ := List.append_of_mem hmem
  -- two states at least follow, and the first of them would be the end
  obtain ⟨y, z, w, hyz⟩ : ∃ y z w, v ++ [last, .terminated] = y :: z :: w := by
    cases v with
    | nil => exact ⟨_, _, _, rfl⟩
    | cons y v =>
      obtain ⟨z, w, hzw⟩ := List.exists_cons_of_ne_nil
        (List.append_ne_nil_of_right_ne_nil v (List.cons_ne_nil last [.terminated]))
      exact ⟨y, z, w, congrArg (y :: ·) hzw⟩
  rw [List.append_assoc, List.cons_append, hyz] at hpath
  obtain ⟨-, hsy, hrest⟩ := List.isChain_append_cons_cons.1 hpath
  obtain rfl := hs y hsy
  exact (List.isChain_cons_cons.1 hrest).1

/-- On a path to the end, the last step is the only one that leads there. -/
theorem infix_iff_of_path {before : List State} {last : State}
    (hpath : (before ++ [last, .terminated]).IsChain (Edge chosen)) :
    [s, .terminated] <:+: before ++ [last, .terminated] ↔ last = s := by
  constructor
  · rintro ⟨u, v, heq⟩
    have hbefore : .terminated ∉ before := not_mem_of_path hpath fun _ h => h.elim
    have hlast : last ≠ .terminated :=
      (List.isChain_append_cons_cons.1 hpath).2.1.ne
    rw [List.append_cons before last] at heq
    rcases List.eq_nil_or_concat v with rfl | ⟨v, x, rfl⟩
    · rw [List.append_nil, List.append_cons u s] at heq
      have hsame := List.append_inj_right' (List.append_inj_left' heq rfl) rfl
      exact (List.singleton_inj.1 hsame).symm
    · rw [List.concat_eq_append, ← List.append_assoc] at heq
      have hmem : .terminated ∈ before ++ [last] := by
        rw [← List.append_inj_left' heq rfl]
        simp
      rcases List.mem_append.1 hmem with hmem | hmem
      · exact absurd hmem hbefore
      · exact absurd (List.mem_singleton.1 hmem).symm hlast
  · rintro rfl
    exact (List.suffix_append before _).isInfix

end Edge

/-! ## What the states have come to -/

/-- The outcomes of the sessions, as far as they are recorded. -/
def outcomes (sessions : List Sitting) : List (Option Outcome) :=
  sessions.map fun x => x.session.outcome

section Outcomes

variable {chosen : Option Parameters} {sessions : List Sitting} {o : Outcome}

/-- Sessions that all ended with the removal of their cards. -/
theorem outcomes_of_rested (h : Rested chosen sessions) :
    outcomes sessions = List.replicate sessions.length (some .removed) := by
  refine List.eq_replicate_iff.2 ⟨List.length_map _, fun r hr => ?_⟩
  obtain ⟨x, hx, rfl⟩ := List.mem_map.1 hr
  obtain ⟨k, hk⟩ := List.mem_iff_getElem?.1 hx
  exact (h.removed k x hk).1

/-- Sessions of which the last ended with this outcome, and the others with the
removal of their cards. -/
theorem outcomes_of_ended (h : Ended chosen sessions o) : ∃ n, n + 1 = sessions.length ∧
    outcomes sessions = List.replicate n (some .removed) ++ [some o] := by
  rcases List.eq_nil_or_concat sessions with rfl | ⟨earlier, x, rfl⟩
  · exact absurd h.nonempty (Nat.lt_irrefl 0)
  · rw [List.concat_eq_append] at h ⊢
    have hlength : (earlier ++ [x]).length = earlier.length + 1 := by simp
    have hlast : x.session.outcome = some o :=
      (h.last earlier.length x List.getElem?_concat_length hlength.symm).1
    refine ⟨earlier.length, hlength.symm, ?_⟩
    rw [outcomes, List.map_append, List.map_singleton, hlast]
    refine congrArg (· ++ [some o]) ?_
    refine List.eq_replicate_iff.2 ⟨List.length_map _, fun r hr => ?_⟩
    obtain ⟨y, hy, rfl⟩ := List.mem_map.1 hr
    obtain ⟨k, hk⟩ := List.mem_iff_getElem?.1 hy
    have hlt : k < earlier.length := (List.getElem?_eq_some_iff.1 hk).1
    exact (h.earlier.removed k y ((List.getElem?_append_left hlt).trans hk) (by omega)).1

theorem length_outcomes_set (sessions : List Sitting) (number : Nat) (x : Sitting) :
    (outcomes (sessions.set number x)).length = (outcomes sessions).length := by
  rw [outcomes, outcomes, List.length_map, List.length_map, List.length_set]

/-- No client concludes a session. -/
theorem outcomes_publish {number : Nat} {x : Sitting} (hx : sessions[number]? = some x)
    (command : Bytes) : outcomes (sessions.set number (x.publish command)) = outcomes sessions := by
  have hsame : (x.publish command).session.outcome = x.session.outcome := by
    unfold Sitting.publish
    split <;> rfl
  obtain ⟨hlt, rfl⟩ := List.getElem?_eq_some_iff.1 hx
  rw [outcomes, List.map_set, hsame]
  refine List.ext_getElem (List.length_set) fun k hk hk' => ?_
  rw [List.getElem_set]
  split
  · next heq =>
    subst heq
    simp [outcomes]
  · rfl

end Outcomes

/-- **The states fit the sessions**: each was entered, and those that ended with
the removal of their cards were left that way. -/
structure Tally (os : List (Option Outcome)) (states : List State) : Prop where
  entered : states.count .active = os.length
  left : states.count .removed = os.count (some .removed)

/-- The runner stands in a session that it will not go on from only if that was cancelled. -/
def Halts (os : List (Option Outcome)) (s : State) : Prop :=
  s = .active ↔ some .cancelled ∈ os

/-- The state that shows a failure. -/
def faultState : SessionError → State
  | .idleTimeout _ => .idleTimeout
  | _ => .fault

/-- The last state before the end fits the result. -/
def Concludes (s : State) : Except TaskError Exit → Prop
  | .ok (.removed _) => s = .removed
  | .ok (.fault e) => s = faultState e
  | .ok .cancelled => False
  | .error _ => s.isEarly = true ∨ s = .active

/-- A failure that is shown last is the result. -/
theorem Concludes.failed {s : State} {result : Except TaskError Exit} (h : Concludes s result)
    (hs : s = .fault ∨ s = .idleTimeout) : ∃ e, result = .ok (.fault e) ∧ s = faultState e := by
  cases result with
  | ok exit =>
    cases exit with
    | removed n =>
      obtain rfl : s = .removed := h
      rcases hs with hs | hs <;> cases hs
    | fault e => exact ⟨e, rfl, h⟩
    | cancelled => exact h.elim
  | error e => rcases hs with rfl | rfl <;> rcases h with h | h <;> cases h

/-- And only such a result is shown as a failure. -/
theorem Concludes.fault_iff {s : State} {result : Except TaskError Exit}
    (h : Concludes s result) : s = .fault ∨ s = .idleTimeout ↔ ∃ e, result = .ok (.fault e) := by
  constructor
  · intro hs
    obtain ⟨e, he, -⟩ := h.failed hs
    exact ⟨e, he⟩
  · rintro ⟨e, rfl⟩
    obtain rfl : s = faultState e := h
    cases e <;> simp [faultState]

/-- A session that waited for too long is shown as such, and nothing else is. -/
theorem Concludes.idleTimeout_iff {s : State} {result : Except TaskError Exit}
    (h : Concludes s result) :
    s = .idleTimeout ↔ ∃ limit, result = .ok (.fault (.idleTimeout limit)) := by
  constructor
  · intro hs
    obtain ⟨e, he, hshown⟩ := h.failed (.inr hs)
    rw [hs] at hshown
    cases e with
    | idleTimeout limit => exact ⟨limit, he⟩
    | _ => cases hshown
  · rintro ⟨limit, rfl⟩
    exact h

/-- How the state fits an attempt to get a card. -/
def Attempt.Displayed (chosen : Option Parameters) (p : Parameters) (s : State) : Attempt → Prop
  | .arriving => Edge chosen s p.arrival
  | .polling present | .waiting present => s = if present then .waitPresent else .waitAbsent
  | .cleared => s = .waitAbsent
  | .found => s = .waitPresent
  | .connecting | .resting _ _ => s = .connecting

section Attempt

variable {chosen : Option Parameters} {p : Parameters} {a : Attempt} {s s' : State}

/-- On the way to a card, the next state is one that the diagram allows. -/
theorem Attempt.Displayed.edge (h : a.Displayed chosen p s) (hshows : a.shows p = some s') :
    Edge chosen s s' := by
  cases a with
  | arriving =>
    cases hshows
    exact h
  | cleared =>
    cases hshows
    obtain rfl : s = .waitAbsent := h
    exact .inl rfl
  | found =>
    cases hshows
    obtain rfl : s = .waitPresent := h
    exact .inl rfl
  | _ => cases hshows

/-- Once an attempt has begun, the runner shows that it is still to get a card. -/
theorem Attempt.Displayed.isEarly (h : a.Displayed chosen p s) (ha : a ≠ .arriving) :
    s.isEarly = true := by
  cases a with
  | arriving => exact absurd rfl ha
  | polling present | waiting present =>
    obtain rfl : s = if present then .waitPresent else .waitAbsent := h
    cases present <;> rfl
  | cleared | found | connecting | resting =>
    obtain rfl : s = _ := h
    rfl

end Attempt

/-- How the states fit the stage of the last of so many sessions. -/
def Stage.Displayed (sessions : Nat) (states : List State) (s : State) : Stage → Prop
  | .opened => s = .connecting ∧ states.count .active + 1 = sessions ∧
      states.count .removed + 1 = sessions
  | _ => s = .active ∧ states.count .active = sessions ∧ states.count .removed + 1 = sessions

/-- **What the states have come to** at each point of the runner's thread. -/
def Displayed (chosen : Option Parameters) (os : List (Option Outcome)) (states : List State)
    (s : State) : Point → Prop
  | .opening | .negotiating | .receiving _ => s = .starting ∧ Tally os states
  | .attempting p a => a.Displayed chosen p s ∧ Tally os states
  | .serving _ service => service.stage.Displayed os.length states s
  | .stopping .cancelled => (s.isEarly = true ∨ s = .active) ∧ Halts os s ∧ Tally os states
  | .stopping (.fault e) => s.isEarly = true ∧ faultState e = .fault ∧ Tally os states
  | .failing e => s = .fault ∧ faultState e = .fault ∧ Tally os states
  | .terminating result => Concludes s result ∧ Halts os s ∧ Tally os states
  | .ending (.returned result) | .gone (.returned result) => ∃ before last,
      .starting :: states = before ++ [last, .terminated] ∧ Concludes last result ∧
        Halts os last ∧ Tally os states
  | .ending (.panicked _) | .gone (.panicked _) => (s = .connecting ∨ s = .active) ∧
      states.count .active = os.length

section Displayed

variable {chosen chosen' : Option Parameters} {os : List (Option Outcome)} {states : List State}
variable {s s' : State} {o : Outcome} {sessions : List Sitting}

/-- Any other state leaves the counts. -/
theorem Tally.concat (h : Tally os states) (hactive : s ≠ .active) (hremoved : s ≠ .removed) :
    Tally os (states ++ [s]) where
  entered := by
    rw [List.count_append, List.count_singleton, beq_false_of_ne hactive]
    exact h.entered
  left := by
    rw [List.count_append, List.count_singleton, beq_false_of_ne hremoved]
    exact h.left

/-- On the way to a card no session is counted. -/
theorem Tally.approach (h : Tally os states) (p : Parameters) (a : Attempt) :
    Tally os (states ++ (a.shows p).toList) := by
  cases a with
  | arriving =>
    have hp := arrival_eq p
    refine h.concat ?_ ?_ <;> rcases hp with hp | hp <;> rw [hp] <;> decide
  | cleared => exact h.concat (by decide) (by decide)
  | found => exact h.concat (by decide) (by decide)
  | _ =>
    change Tally os (states ++ [])
    rw [List.append_nil]
    exact h

/-- Outside of the sessions nobody was cancelled in one. -/
theorem halts_of_rested (h : Rested chosen sessions) (hs : s ≠ .active) :
    Halts (outcomes sessions) s := by
  rw [outcomes_of_rested h]
  refine ⟨fun heq => absurd heq hs, fun hmem => ?_⟩
  cases List.eq_of_mem_replicate hmem

/-- The state that the runner shows after a session tells whether it was cancelled. -/
theorem halts_of_ended (h : Ended chosen sessions o) :
    Halts (outcomes sessions) (o.shows.getD .active) := by
  obtain ⟨n, -, hos⟩ := outcomes_of_ended h
  rw [hos]
  constructor
  · intro heq
    cases o with
    | cancelled => exact List.mem_append_right _ List.mem_cons_self
    | _ => cases heq
  · intro hmem
    rcases List.mem_append.1 hmem with hmem | hmem
    · cases List.eq_of_mem_replicate hmem
    · cases List.mem_singleton.1 hmem
      rfl

/-- What a session leads to counts it as its outcome does. -/
theorem tally_of_ended (h : Ended chosen sessions o)
    (hactive : states.count .active = (outcomes sessions).length)
    (hremoved : states.count .removed + 1 = (outcomes sessions).length) :
    Tally (outcomes sessions) (states ++ o.shows.toList) := by
  obtain ⟨n, -, hos⟩ := outcomes_of_ended h
  rw [hos] at hactive hremoved ⊢
  have hn : (List.replicate n (some Outcome.removed)).count (some .removed) = n :=
    List.count_replicate_self
  rw [List.length_append, List.length_replicate, List.length_singleton] at hactive hremoved
  constructor
  · rw [List.count_append, hactive, List.length_append, List.length_replicate]
    cases o <;> rfl
  · rw [List.count_append, List.count_append, hn]
    cases o with
    | removed =>
      simp only [Outcome.shows, Option.toList_some, List.count_singleton_self]
      exact hremoved
    | _ => exact Nat.succ.inj hremoved

/-- After its first step a session is active. -/
theorem Stage.displayed_of_ne {stage : Stage} (hstage : stage ≠ .opened) {n : Nat} :
    stage.Displayed n states s ↔
      s = .active ∧ states.count .active = n ∧ states.count .removed + 1 = n := by
  cases stage with
  | opened => exact absurd rfl hstage
  | _ => exact Iff.rfl

/-- A choice that is made changes nothing of what was shown. -/
theorem Displayed.mono (hgrows : ∀ p, chosen = some p → chosen' = some p) {point : Point}
    (h : Displayed chosen os states s point) : Displayed chosen' os states s point := by
  cases point with
  | attempting p a =>
    cases a with
    | arriving => exact ⟨h.1.mono hgrows, h.2⟩
    | _ => exact h
  | stopping why => cases why <;> exact h
  | ending ending | gone ending => cases ending <;> exact h
  | _ => exact h

end Displayed

namespace Machine

variable {m m' : Machine} {chosen chosen' : Option Parameters} {preempted : Nat → Prop}
variable {point' : Point} {sessions : List Sitting} {queued : List Event}

/-- **What is shown of a machine** is a path, and fits the point and the sessions. -/
structure Drawn (m : Machine) (chosen : Option Parameters) : Prop where
  path : (.starting :: m.states).IsChain (Edge chosen)
  shown : (.starting :: m.states).getLast? = some m.state
  displayed : Displayed chosen (outcomes m.sessions) m.states m.state m.point

/-- A step of the runner's thread that follows the diagram. -/
structure Draws (m : Machine) (chosen : Option Parameters) (sessions : List Sitting)
    (point' : Point) : Prop where
  edge : ∀ s, m.point.shows = some s → Edge chosen m.state s
  displayed : Displayed chosen (outcomes sessions) (m.states ++ m.point.shows.toList)
    (m.point.shows.getD m.state) point'

/-- A step that shows nothing. -/
theorem Draws.stay (hshows : m.point.shows = none)
    (h : Displayed chosen (outcomes sessions) m.states m.state point') :
    m.Draws chosen sessions point' := by
  refine ⟨fun s hs => ?_, ?_⟩
  · rw [hshows] at hs
    cases hs
  · rw [hshows, Option.toList_none, List.append_nil]
    exact h

/-- A step that shows a state. -/
theorem Draws.move {s : State} (hshows : m.point.shows = some s) (hedge : Edge chosen m.state s)
    (h : Displayed chosen (outcomes sessions) (m.states ++ [s]) s point') :
    m.Draws chosen sessions point' := by
  refine ⟨fun s' hs' => ?_, ?_⟩
  · rw [hshows] at hs'
    cases hs'
    exact hedge
  · rw [hshows]
    exact h

/-! ## The steps on the way to a card -/

/-- Towards a card, only a connection makes a session. -/
theorem outcomes_of_attempt {p : Parameters} {a : Attempt}
    (hgoes : m.Goes (.attempting p a) point' sessions queued) :
    outcomes sessions = outcomes m.sessions ++ if isServing point' then [none] else [] := by
  cases hgoes with
  | connect p a card =>
    rw [outcomes, List.map_append]
    rfl
  | attempt | leave | overflow => exact (List.append_nil _).symm

/-- **A step towards a card** follows the diagram. -/
theorem draws_of_approaches (h : m.Drawn chosen) {p : Parameters} {a : Attempt}
    {call : Option Call} (hpoint : m.point = .attempting p a) (hchosen : chosen = some p)
    (hrested : Rested chosen m.sessions) (happroaches : Approaches p a point' call)
    (hsessions : outcomes sessions =
      outcomes m.sessions ++ if isServing point' then [none] else []) :
    m.Draws chosen sessions point' := by
  have hdisplayed := h.displayed
  rw [hpoint] at hdisplayed
  obtain ⟨hstate, htally⟩ := hdisplayed
  have hshows : m.point.shows = a.shows p := congrArg Point.shows hpoint
  refine ⟨fun s hs => hstate.edge (hshows ▸ hs), ?_⟩
  rw [hshows]
  have hentered := htally.approach p a
  -- but for a connection, the sessions stay
  have hsame : isServing point' = false →
      Tally (outcomes sessions) (m.states ++ (a.shows p).toList) := by
    intro hserving
    rw [hsessions, hserving]
    simpa using hentered
  cases happroaches with
  | arrive => exact ⟨arrival_eq_of_touch p, hsame rfl⟩
  | clear => exact ⟨rfl, hsame rfl⟩
  | poll present => exact ⟨hstate, hsame rfl⟩
  | reach present =>
    refine ⟨?_, hsame rfl⟩
    cases present <;> exact hstate
  | miss present => exact ⟨hstate, hsame rfl⟩
  | fail present e => exact ⟨hstate.isEarly (by simp), rfl, hsame rfl⟩
  | find => exact ⟨rfl, hsame rfl⟩
  | connect s card hstage =>
    have hlength : (outcomes sessions).length = (outcomes m.sessions).length + 1 := by
      rw [hsessions, List.length_append]
      rfl
    have hleft : (outcomes m.sessions).count (some .removed) = (outcomes m.sessions).length := by
      rw [outcomes_of_rested hrested, List.count_replicate_self, List.length_replicate]
    rw [Displayed, hstage, Stage.Displayed, hlength, hentered.entered, hentered.left, hleft]
    exact ⟨hstate, rfl, rfl⟩
  | leave deadline e he => exact ⟨hstate, hsame rfl⟩
  | overflow e he => exact ⟨.inl hstate, (hsame rfl).entered⟩
  | refuse e he => exact ⟨hstate.isEarly (by simp), rfl, hsame rfl⟩
  | sleep deadline sleep sleep' => exact ⟨hstate, hsame rfl⟩
  | rest deadline sleep =>
    refine ⟨?_, hsame rfl⟩
    rw [show m.state = .connecting from hstate]
    exact .inr (.inl ⟨p, hchosen, rfl⟩)
  | stop ha =>
    have hnone : a.shows p = none ∧ a ≠ .arriving := by
      rcases ha with ⟨present, rfl⟩ | ⟨deadline, sleep, rfl⟩ <;> exact ⟨rfl, by simp⟩
    have hearly := hstate.isEarly hnone.2
    have hhalts : Halts (outcomes m.sessions) m.state :=
      halts_of_rested hrested fun heq => by rw [heq] at hearly; cases hearly
    rw [hnone.1] at hsame ⊢
    refine ⟨.inl hearly, ?_, hsame rfl⟩
    rw [hsessions]
    simpa [isServing] using hhalts

/-! ## The steps everywhere else -/

/-- Only the first step inside a session shows something, before it is served. -/
theorem shows_of_turn {config : Config} {number : Nat} {x x' : Sitting} {stage stage' : Stage}
    (h : Turn config number x stage stage' x' queued) : stage' ≠ .opened ∧
      (stage ≠ .opened → stage.shows = none) := by
  refine ⟨?_, fun hstage => ?_⟩
  · rintro rfl
    cases h with
    | wait _ _ hstage' => rcases hstage' with h | ⟨deadline, h⟩ <;> cases h
    | dismiss _ _ _ _ _ hstage' => rcases hstage' with h | h <;> cases h
  · cases h with
    | enter => exact absurd rfl hstage
    | take _ _ hlistening | shut hlistening | wait _ hlistening =>
      cases stage <;> first | rfl | cases hlistening
    | _ => rfl

/-- **A step inside a session** follows the diagram. -/
theorem draws_of_turn (h : m.Drawn chosen) {p : Parameters} {s s' : Service} {x x' : Sitting}
    (hpoint : m.point = .serving p s)
    (hturn : Turn m.config s.session x s.stage s'.stage x' queued) :
    m.Draws chosen (m.sessions.set s.session x') (.serving p s') := by
  obtain ⟨hstage', hsilent⟩ := shows_of_turn hturn
  have hshows : m.point.shows = s.stage.shows := congrArg Point.shows hpoint
  have hlength := length_outcomes_set m.sessions s.session x'
  have hdisplayed := h.displayed
  rw [hpoint, Displayed] at hdisplayed
  by_cases hstage : s.stage = .opened
  · rw [hstage] at hdisplayed hshows
    obtain ⟨hstate, hactive, hremoved⟩ := hdisplayed
    refine .move hshows ?_ ?_
    · rw [hstate]
      exact .inl rfl
    · rw [Displayed, Stage.displayed_of_ne hstage', hlength]
      refine ⟨rfl, ?_, ?_⟩
      · rw [List.count_append]
        exact hactive
      · rw [List.count_append]
        exact hremoved
  · rw [Stage.displayed_of_ne hstage] at hdisplayed
    refine .stay (hshows.trans (hsilent hstage)) ?_
    rw [Displayed, Stage.displayed_of_ne hstage', hlength]
    exact hdisplayed

/-- **The step out of a session** follows the diagram. -/
theorem draws_of_finish (h : m.Drawn chosen) {p : Parameters} {s : Service} {o : Outcome}
    (hpoint : m.point = .serving p s) (hstage : s.stage = .served o) (hchosen : chosen = some p)
    (hended : Ended chosen m.sessions o) (hlifted : o.IsLifted) :
    m.Draws chosen m.sessions (onward p m.sessions.length o) := by
  have hshows : m.point.shows = o.shows := by rw [hpoint, Point.shows, hstage, Stage.shows]
  have hdisplayed := h.displayed
  rw [hpoint, Displayed, hstage] at hdisplayed
  obtain ⟨hstate, hactive, hremoved⟩ := hdisplayed
  have htally := tally_of_ended hended hactive hremoved
  have hhalts := halts_of_ended hended
  cases o with
  | removed =>
    have hedge : Edge chosen m.state .removed := by
      rw [hstate]
      exact .inl rfl
    refine .move hshows hedge ?_
    by_cases hmulti : p.multiSession = true
    · rw [onward, if_pos hmulti]
      exact ⟨⟨p, hchosen, (if_pos hmulti).symm⟩, htally⟩
    · rw [onward, if_neg hmulti]
      exact ⟨rfl, hhalts, htally⟩
  | idleTimeout limit =>
    refine .move hshows ?_ ⟨rfl, hhalts, htally⟩
    rw [hstate]
    exact .inr (.inr (.inl rfl))
  | fault e =>
    obtain ⟨cause, rfl, -⟩ := hlifted
    refine .move hshows ?_ ⟨rfl, hhalts, htally⟩
    rw [hstate]
    exact .inr (.inl rfl)
  | cancelled =>
    rw [Outcome.shows, Option.toList_none, List.append_nil] at htally
    refine .stay hshows ⟨.inr hstate, ?_, htally⟩
    rw [hstate]
    exact hhalts

/-- **A step to the end** follows the diagram. -/
theorem draws_of_terminate (h : m.Drawn chosen) {result : Except TaskError Exit}
    (hpoint : m.point = .terminating result)
    (hfinished : Finished chosen m.sessions m.stories m.events result) :
    m.Draws chosen m.sessions (.ending (.returned result)) := by
  have hshows : m.point.shows = some .terminated := congrArg Point.shows hpoint
  have hdisplayed := h.displayed
  rw [hpoint] at hdisplayed
  obtain ⟨hconcludes, hhalts, htally⟩ := hdisplayed
  obtain ⟨before, hbefore⟩ := List.getLast?_eq_some_iff.1 h.shown
  refine .move hshows ?_
    ⟨before, m.state, ?_, hconcludes, hhalts, htally.concat (by decide) (by decide)⟩
  · cases result with
    | ok exit =>
      cases exit with
      | removed n =>
        obtain ⟨-, -, -, ⟨p, hp, hsingle⟩, -⟩ := hfinished
        rw [show m.state = .removed from hconcludes]
        exact ⟨p, hp, by rw [hsingle]; rfl⟩
      | fault e =>
        rw [show m.state = faultState e from hconcludes]
        cases e <;> exact rfl
      | cancelled => exact hfinished.elim
    | error e =>
      rcases hconcludes with hearly | hactive
      · exact edge_terminated_of_isEarly hearly
      · rw [hactive]
        exact .inr (.inr (.inr rfl))
  · rw [← List.cons_append, hbefore, List.append_assoc]
    rfl

/-- **A step of the runner's thread outside of the attempts** follows the diagram. -/
theorem draws_of_goes (h : m.Drawn chosen) (hkept : m.Kept preempted)
    (hplaced : Placed chosen m.sessions m.stories m.events m.point) (hlifts : m.Lifts)
    (hattempt : ∀ p a, m.point ≠ .attempting p a)
    (hsent : ∀ p, m.start.sent = some p → chosen = some p)
    (hgoes : m.Goes m.point point' sessions queued) : m.Draws chosen sessions point' := by
  have hdisplayed := h.displayed
  generalize hpoint : m.point = point at hgoes hplaced hdisplayed hattempt
  cases hgoes with
  | ask => exact .stay (congrArg Point.shows hpoint) hdisplayed
  | giveUp =>
    obtain ⟨hstate, htally⟩ := hdisplayed
    have hrested : Rested chosen m.sessions := rested_nil hplaced.1
    have hhalts := halts_of_rested (s := m.state) hrested (by rw [hstate]; decide)
    exact .stay (congrArg Point.shows hpoint) ⟨.inl (by rw [hstate]; rfl), hhalts, htally⟩
  | await deadline => exact .stay (congrArg Point.shows hpoint) hdisplayed
  | again deadline => exact .stay (congrArg Point.shows hpoint) hdisplayed
  | begin deadline p hp =>
    obtain ⟨hstate, htally⟩ := hdisplayed
    refine .stay (congrArg Point.shows hpoint) ⟨?_, htally⟩
    rw [hstate]
    exact .inl ⟨p, hsent p hp, rfl⟩
  | aborted deadline =>
    obtain ⟨hstate, htally⟩ := hdisplayed
    refine .stay (congrArg Point.shows hpoint) ⟨?_, rfl, htally⟩
    rw [hstate]
    rfl
  | attempt p a a' => exact absurd rfl (hattempt p a)
  | connect p a card => exact absurd rfl (hattempt p a)
  | leave p a why => exact absurd rfl (hattempt p a)
  | turn hs' hx hturn => exact draws_of_turn h hpoint hturn
  | @finish p s o hstage =>
    obtain ⟨hchosen, hearlier, -⟩ := hplaced
    have hended := ended_of_served hkept hpoint hstage hearlier
    exact draws_of_finish h hpoint hstage hchosen hended (hlifts.ofEnded hended)
  | @panic p s message hstage =>
    have hplain := Stage.plain_of_canPanic hstage
    obtain ⟨hstate, hactive, -⟩ := (Stage.displayed_of_ne hplain.2).1 hdisplayed
    refine .stay ?_ ⟨.inr hstate, hactive⟩
    rw [hpoint, Point.shows, hplain.1]
  | overflow p => exact absurd rfl (hattempt p .connecting)
  | cancelled =>
    obtain ⟨hstate, hhalts, htally⟩ := hdisplayed
    exact .stay (congrArg Point.shows hpoint) ⟨hstate, hhalts, htally⟩
  | failed e =>
    obtain ⟨hearly, he, htally⟩ := hdisplayed
    exact .move (congrArg Point.shows hpoint) (edge_fault_of_isEarly hearly)
      ⟨rfl, he, htally.concat (by decide) (by decide)⟩
  | tell e =>
    obtain ⟨hstate, he, htally⟩ := hdisplayed
    obtain ⟨-, hrested, -⟩ := hplaced
    have hhalts := halts_of_rested (s := m.state) hrested (by rw [hstate]; decide)
    exact .stay (congrArg Point.shows hpoint) ⟨hstate.trans he.symm, hhalts, htally⟩
  | terminate result => exact draws_of_terminate h hpoint hplaced
  | exit ending =>
    refine .stay (congrArg Point.shows hpoint) ?_
    cases ending <;> exact hdisplayed

/-! ## The steps of a machine -/

/-- A runner that is about to start. -/
theorem Drawn.initial (config : Config) (reader : String) : (initial config reader).Drawn none where
  path := List.isChain_singleton _
  shown := rfl
  displayed := ⟨rfl, rfl, rfl⟩

/-- A choice that is made changes nothing of what was shown. -/
theorem Drawn.mono (h : m.Drawn chosen) (hgrows : ∀ p, chosen = some p → chosen' = some p) :
    m.Drawn chosen' where
  path := h.path.imp fun _ _ hedge => hedge.mono hgrows
  shown := h.shown
  displayed := h.displayed.mono hgrows

/-- A step that follows the diagram. -/
theorem Drawn.draws (h : m.Drawn chosen) (hdraws : m.Draws chosen m'.sessions m'.point)
    (hshows : m.Shows m.point.shows m') : m'.Drawn chosen := by
  obtain ⟨hstate, hstates⟩ := hshows.eq fun s hs => (hdraws.edge s hs).ne
  refine ⟨?_, ?_, by rw [hstate, hstates]; exact hdraws.displayed⟩
  · rw [hstates, ← List.cons_append, List.isChain_append]
    refine ⟨h.path, ?_, fun s hs s' hs' => ?_⟩
    · cases m.point.shows <;> simp
    · rw [h.shown] at hs
      cases hs
      refine hdraws.edge s' ?_
      cases hshown : m.point.shows with
      | none => simp [hshown] at hs'
      | some s => simpa [hshown] using hs'
  · rw [hstates, hstate, ← List.cons_append, List.getLast?_append]
    cases m.point.shows with
    | none => exact h.shown
    | some s => rfl

/-- **A step of the runner's thread** follows the diagram. -/
theorem Drawn.runner (h : m.Drawn chosen) (hstoried : m.Storied chosen) (hlifts : m.Lifts)
    {input : Input} (hstep : m.runner input = some m') : m'.Drawn chosen := by
  obtain ⟨preempted, hkept⟩ := hstoried.kept
  have hplaced := hstoried.placed
  obtain ⟨queued, hgoes, -, -⟩ := leads_of_runner hstep
  refine h.draws ?_ (shows_of_runner hstep)
  rcases towards_or_silent hstep with ⟨p, a, hpoint, call, happroaches, -, -⟩ | ⟨hnot, -⟩
  · rw [hpoint] at hgoes hplaced
    obtain ⟨hchosen, hrested, -⟩ := hplaced
    exact draws_of_approaches h hpoint hchosen hrested happroaches (outcomes_of_attempt hgoes)
  · exact draws_of_goes h hkept hplaced hlifts hnot hstoried.sent hgoes

/-- A step of a watch leaves what was shown, and the number of the sessions. -/
theorem displayed_of_watch (h : m.Drawn chosen) (hkept : m.Kept preempted) {number : Nat}
    {x : Sitting} {w w' : Watch} {s' : Session} (hx : m.sessions[number]? = some x)
    (hwatch : x.watch = some w) (hturn : Watch.Turn x.session w.point w'.point s' queued)
    (x' : Sitting) : Displayed chosen (outcomes (m.sessions.set number x')) m.states m.state
      m.point := by
  have hlength := length_outcomes_set m.sessions number x'
  have hdisplayed := h.displayed
  obtain ⟨-, ⟨p, s, hpoint⟩ | ⟨message, hpoint | hpoint⟩⟩ := watch_last hkept hx hwatch hturn
  · rw [hpoint, Displayed] at hdisplayed ⊢
    rw [hlength]
    exact hdisplayed
  · rw [hpoint] at hdisplayed ⊢
    exact ⟨hdisplayed.1, hdisplayed.2.trans hlength.symm⟩
  · rw [hpoint] at hdisplayed ⊢
    exact ⟨hdisplayed.1, hdisplayed.2.trans hlength.symm⟩

/-- **One move** follows the diagram. -/
theorem Drawn.step (h : m.Drawn chosen) (hstoried : m.Storied chosen) (hlifts : m.Lifts)
    {move : Move} (hstep : m.step move = some m') : m'.Drawn chosen := by
  rcases runner_or_idles hstep with ⟨input, rfl, hrunner⟩ | ⟨hother, hidles⟩
  · exact h.runner hstoried hlifts hrunner
  · refine ⟨hidles.states ▸ h.path, hidles.states ▸ hidles.state ▸ h.shown, ?_⟩
    rw [hidles.state, hidles.states]
    cases happens_of_step hstep with
    | aside haside =>
      obtain ⟨hpoint, hsessions, -⟩ := haside.same
      rw [hpoint, hsessions]
      exact h.displayed
    | publish number command hx =>
      rw [outcomes_publish hx command]
      exact h.displayed
    | watch number input hx hwatch hturn =>
      obtain ⟨preempted, hkept⟩ := hstoried.kept
      exact displayed_of_watch h hkept hx hwatch hturn _
    | runner input => exact absurd rfl (hother input)

/-- **A whole run** follows the diagram. -/
theorem drawn_of_run {moves : List Move} (h : m.Drawn chosen) (hstoried : m.Storied chosen)
    (hlifts : m.Lifts) (hrun : m.run moves = some m') : ∃ chosen', m'.Drawn chosen' ∧
      m'.Storied chosen' ∧ ∀ p, chosen' = some p ↔ chosen = some p ∨ .resolve p ∈ moves := by
  induction moves generalizing m chosen with
  | nil =>
    cases hrun
    exact ⟨chosen, h, hstoried, fun p => ⟨.inl, fun hor => hor.resolve_right List.not_mem_nil⟩⟩
  | cons move moves ih =>
    obtain ⟨m₁, hstep, hrun⟩ := run_cons_eq_some.1 hrun
    obtain ⟨chosen₁, hstoried₁, hchosen₁⟩ := hstoried.step hstep
    have h₁ := (h.step hstoried hlifts hstep).mono fun p hp => (hchosen₁ p).2 (.inl hp)
    obtain ⟨chosen', h', hstoried', hchosen'⟩ := ih h₁ hstoried₁ (hlifts.step hstoried hstep) hrun
    refine ⟨chosen', h', hstoried', fun p => ?_⟩
    rw [hchosen' p, hchosen₁ p, List.mem_cons, or_assoc, eq_comm (a := move)]

end Machine

end Runner

end SmartCard
