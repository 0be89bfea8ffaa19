import SmartCard.Proofs.Runner.Placing
/-!
# The words of a runner

The events of a run spell a word. `Removals` are sessions one after the
other, each of which ended with the removal of its card; a `Story` is the
start with such sessions, and then nothing, a failure, or a session that
fails; and `Closing` is the word of a run that came to an end, with the
result that goes with it. What `Placed` says of the sessions is read off as
such words: `begun_of_placed` at every moment, `closing_of_finished` at the
end.
-/

namespace SmartCard

namespace Runner

/-! ## The language of events -/

/-- So many sessions, counted from zero, that ended with the removal of their
cards. -/
inductive Removals : Nat → List Event → Prop where
  | nil : Removals 0 []
  | concat {n : Nat} {word : List Event} (card : CardData) (h : Removals n word) :
    Removals (n + 1) (word ++ [.cardPresent n card, .cardRemoved])

/-- **What a runner tells its application**, from the start to the end. -/
inductive Story : List Event → Prop where
  | quiet {n : Nat} {word : List Event} (h : Removals n word) : Story (.start :: word)
  | outside {n : Nat} {word : List Event} (e : SessionError) (h : Removals n word) :
    Story (.start :: (word ++ [.failed e]))
  | inside {n : Nat} {word : List Event} (card : CardData) (e : SessionError)
    (h : Removals n word) : Story (.start :: (word ++ [.cardPresent n card, .failed e]))

/-- The event hands a session to the application. -/
def isPresent : Event → Bool
  | .cardPresent _ _ => true
  | _ => false

/-- Nothing fails in a session that ends with the removal of its card. -/
theorem Removals.not_failed {n : Nat} {word : List Event} (h : Removals n word)
    (e : SessionError) : .failed e ∉ word := by
  induction h with
  | nil => exact List.not_mem_nil
  | concat card h ih =>
    intro hmem
    rcases List.mem_append.1 hmem with hmem | hmem
    · exact ih hmem
    · simp at hmem

/-- Each of them has two events. -/
theorem Removals.length_eq {n : Nat} {word : List Event} (h : Removals n word) :
    word.length = 2 * n := by
  induction h with
  | nil => rfl
  | concat card h ih =>
    rw [List.length_append, ih]
    rfl

/-- A card that was announced, and nothing after it, is no story. -/
theorem not_story_cardPresent {card : CardData} : ¬ Story [.start, .cardPresent 0 card] := by
  intro hstory
  generalize hevents : [Event.start, .cardPresent 0 card] = events at hstory
  cases hstory with
  | quiet h | inside _ _ h =>
    -- an odd number of events
    have hlength := congrArg List.length hevents
    simp only [List.length_cons, List.length_append, List.length_nil, h.length_eq] at hlength
    omega
  | outside e h =>
    have hlast := congrArg List.getLast? hevents
    rw [← List.cons_append, List.getLast?_concat] at hlast
    cases hlast

/-- **A failure is the last word of a story.** -/
theorem Story.failed_last {word : List Event} (h : Story word) {i : Nat} {e : SessionError}
    (hi : word[i]? = some (.failed e)) : i + 1 = word.length := by
  -- what comes before the last event does not fail
  have hlast : ∀ (w : List Event) (last : Event), (∀ e', .failed e' ∉ w) →
      (w ++ [last])[i]? = some (.failed e) → i + 1 = (w ++ [last]).length := by
    intro w last hw hget
    rcases Nat.lt_trichotomy i w.length with hlt | heq | hgt
    · rw [List.getElem?_append_left hlt] at hget
      exact absurd (List.mem_of_getElem? hget) (hw e)
    · rw [heq, List.length_append, List.length_singleton]
    · rw [List.getElem?_eq_none (by simp; omega)] at hget
      cases hget
  cases h with
  | @quiet n word h =>
    have hmem := List.mem_of_getElem? hi
    rcases List.mem_cons.1 hmem with heq | hmem
    · cases heq
    · exact absurd hmem (h.not_failed e)
  | @outside n word e' h =>
    refine hlast (.start :: word) (.failed e') (fun e'' hmem => ?_) hi
    rcases List.mem_cons.1 hmem with heq | hmem
    · cases heq
    · exact h.not_failed e'' hmem
  | @inside n word card e' h =>
    have hword : .start :: (word ++ [.cardPresent n card, .failed e']) =
        (.start :: (word ++ [.cardPresent n card])) ++ [.failed e'] := by simp
    rw [hword] at hi ⊢
    refine hlast _ _ (fun e'' hmem => ?_) hi
    rcases List.mem_cons.1 hmem with heq | hmem
    · cases heq
    · rcases List.mem_append.1 hmem with hmem | hmem
      · exact h.not_failed e'' hmem
      · simp at hmem

/-- A story with a failure outside of the sessions ends with it. -/
theorem getLast?_outside (word : List Event) (e : SessionError) :
    (Event.start :: (word ++ [.failed e])).getLast? = some (.failed e) := by
  rw [← List.cons_append, List.getLast?_concat]

/-- A story with a failure inside of a session ends with it. -/
theorem getLast?_inside (n : Nat) (word : List Event) (card : CardData) (e : SessionError) :
    (Event.start :: (word ++ [.cardPresent n card, .failed e])).getLast? = some (.failed e) := by
  rw [List.append_cons word (.cardPresent n card) [.failed e], getLast?_outside]

/-- A story that ends with a failure is not that of one removal. -/
theorem ne_removal_of_failed {events : List Event} {e : SessionError}
    (h : events.getLast? = some (.failed e)) (card : CardData) :
    events ≠ [.start, .cardPresent 0 card, .cardRemoved] := by
  rintro rfl
  cases h

/-- The last word of a quiet story is no failure. -/
theorem Removals.getLast?_ne {n : Nat} {word : List Event} (h : Removals n word)
    (e : SessionError) : (Event.start :: word).getLast? ≠ some (.failed e) := by
  intro hlast
  rcases List.mem_cons.1 (List.mem_of_getLast? hlast) with heq | hmem
  · cases heq
  · exact h.not_failed e hmem

/-- **The word of a run that came to an end**, and its result. The
application's choice is `chosen`. -/
inductive Closing (chosen : Option Parameters) : List Event → Except TaskError Exit → Prop where
  | removed (p : Parameters) (card : CardData) (hchosen : chosen = some p)
    (hsingle : p.multiSession = false) :
    Closing chosen [.start, .cardPresent 0 card, .cardRemoved] (.ok (.removed 1))
  | outside {n : Nat} {word : List Event} (e : SessionError) (h : Removals n word)
    (he : e ≠ .cancelled) : Closing chosen (.start :: (word ++ [.failed e])) (.ok (.fault e))
  | inside {n : Nat} {word : List Event} (card : CardData) (e : SessionError)
    (h : Removals n word) (he : e ≠ .cancelled) :
    Closing chosen (.start :: (word ++ [.cardPresent n card, .failed e])) (.ok (.fault e))
  | quiet {n : Nat} {word : List Event} (h : Removals n word) (hn : n = 0 ∨ Many chosen) :
    Closing chosen (.start :: word) (.error .cancelled)
  | stopped {n : Nat} {word : List Event} (card : CardData) (h : Removals n word) :
    Closing chosen (.start :: (word ++ [.cardPresent n card, .failed .cancelled]))
      (.error .cancelled)

namespace Closing

variable {chosen : Option Parameters} {events : List Event} {result : Except TaskError Exit}

/-- The word of a run is a story. -/
theorem story (h : Closing chosen events result) : Story events := by
  cases h with
  | removed p card hchosen hsingle => exact .quiet (.concat card .nil)
  | outside e h he => exact .outside e h
  | inside card e h he => exact .inside card e h
  | quiet h hn => exact .quiet h
  | stopped card h => exact .inside card .cancelled h

/-- **A fault is the failure that was told last**, unless that is the cancellation. -/
theorem fault_iff (h : Closing chosen events result) (e : SessionError) :
    result = .ok (.fault e) ↔ events.getLast? = some (.failed e) ∧ e ≠ .cancelled := by
  cases h with
  | removed p card hchosen hsingle => exact ⟨nofun, fun h => nomatch h.1⟩
  | @outside n word e' h he =>
    rw [getLast?_outside]
    constructor
    · rintro ⟨⟩
      exact ⟨rfl, he⟩
    · rintro ⟨⟨⟩, -⟩
      rfl
  | @inside n word card e' h he =>
    rw [getLast?_inside]
    constructor
    · rintro ⟨⟩
      exact ⟨rfl, he⟩
    · rintro ⟨⟨⟩, -⟩
      rfl
  | quiet h hn => exact ⟨nofun, fun hlast => absurd hlast.1 (h.getLast?_ne e)⟩
  | @stopped n word card h =>
    rw [getLast?_inside]
    refine ⟨nofun, ?_⟩
    rintro ⟨⟨⟩, he⟩
    exact absurd rfl he

/-- **A removal is the end of a run** when the application wanted one session,
and that was the whole story. -/
theorem removed_iff (h : Closing chosen events result) (n : Nat) :
    result = .ok (.removed n) ↔ n = 1 ∧ (∃ p, chosen = some p ∧ p.multiSession = false) ∧
      ∃ card, events = [.start, .cardPresent 0 card, .cardRemoved] := by
  cases h with
  | removed p card hchosen hsingle =>
    constructor
    · rintro ⟨⟩
      exact ⟨rfl, ⟨p, hchosen, hsingle⟩, card, rfl⟩
    · rintro ⟨rfl, -⟩
      rfl
  | @outside k word e h he =>
    refine ⟨nofun, ?_⟩
    rintro ⟨-, -, card, heq⟩
    exact absurd heq (ne_removal_of_failed (getLast?_outside word e) card)
  | @inside k word card' e h he =>
    refine ⟨nofun, ?_⟩
    rintro ⟨-, -, card, heq⟩
    exact absurd heq (ne_removal_of_failed (getLast?_inside k word card' e) card)
  | @quiet k word h hn =>
    refine ⟨nofun, ?_⟩
    rintro ⟨-, ⟨p, hp, hsingle⟩, card, heq⟩
    -- a cancelled runner has served no session, or was to serve more than one
    rcases hn with rfl | ⟨q, hq, hmulti⟩
    · cases h
      cases heq
    · rw [hp] at hq
      cases hq
      exact absurd hmulti (Bool.eq_false_iff.1 hsingle)
  | @stopped k word card' h =>
    refine ⟨nofun, ?_⟩
    rintro ⟨-, -, card, heq⟩
    exact absurd heq (ne_removal_of_failed (getLast?_inside k word card' .cancelled) card)

/-- All that is left is a cancellation. -/
theorem cancelled (h : Closing chosen events result) (hfault : ∀ e, result ≠ .ok (.fault e))
    (hremoved : ∀ n, result ≠ .ok (.removed n)) : result = .error .cancelled := by
  cases h with
  | removed p card hchosen hsingle => exact absurd rfl (hremoved 1)
  | outside e h he => exact absurd rfl (hfault e)
  | inside card e h he => exact absurd rfl (hfault e)
  | quiet h hn => rfl
  | stopped card h => rfl

end Closing

namespace Machine

variable {m : Machine} {preempted : Nat → Prop} {chosen : Option Parameters}

/-! ## The words of the sessions -/

/-- Sessions that are over by the removal of their cards. -/
theorem removals_of_over {n : Nat} (h : ∀ k < n, ∃ x, m.sessions[k]? = some x ∧ x.Over .removed ∧
    m.stage? k = none) : Removals n ((List.range n).flatMap m.storyAt) := by
  induction n with
  | zero => exact .nil
  | succ n ih =>
    obtain ⟨x, hx, hover, hstage⟩ := h n (Nat.lt_succ_self n)
    rw [List.range_succ, List.flatMap_append, List.flatMap_singleton, storyAt_of_getElem? hx,
      hstage, Sitting.story_of_over hover]
    exact .concat x.session.card (ih fun k hk => h k (Nat.lt_succ_of_lt hk))

/-- Between two sessions, all of them were removals. -/
theorem removals_of_rested (h : Rested chosen m.sessions) (hserving : isServing m.point = false) :
    Removals m.sessions.length m.stories := by
  refine removals_of_over fun k hk => ?_
  have hx := List.getElem?_eq_getElem hk
  exact ⟨_, hx, h.removed k _ hx, stage?_eq_none hserving k⟩

/-- The runner's thread stands in the last session or in none. -/
theorem stage?_eq_none_of_lt (hkept : m.Kept preempted) {k : Nat}
    (hk : k + 1 < m.sessions.length) : m.stage? k = none := by
  unfold stage?
  split
  · next p s hpoint =>
    have hcurrent := hkept.current p s hpoint
    rw [if_neg (by omega)]
  · rfl

/-- All sessions but the last were removals. -/
theorem stories_of_earlier (hkept : m.Kept preempted) (h : Earlier chosen m.sessions)
    (hnonempty : 0 < m.sessions.length) :
    ∃ n word x, n + 1 = m.sessions.length ∧ m.sessions[n]? = some x ∧ Removals n word ∧
      m.stories = word ++ x.story n (m.stage? n) := by
  obtain ⟨n, hn⟩ := Nat.exists_eq_add_of_lt hnonempty
  rw [Nat.zero_add] at hn
  obtain ⟨x, hx⟩ : ∃ x, m.sessions[n]? = some x := ⟨_, List.getElem?_eq_getElem (by omega)⟩
  refine ⟨n, (List.range n).flatMap m.storyAt, x, hn.symm, hx, ?_, ?_⟩
  · refine removals_of_over fun k hk => ?_
    obtain ⟨y, hy⟩ : ∃ y, m.sessions[k]? = some y := ⟨_, List.getElem?_eq_getElem (by omega)⟩
    exact ⟨y, hy, h.removed k y hy (by omega), stage?_eq_none_of_lt hkept (by omega)⟩
  · rw [stories, hn, List.range_succ, List.flatMap_append, List.flatMap_singleton,
      storyAt_of_getElem? hx]

/-- The last session ended with this outcome, the others were removals. -/
theorem stories_of_ended (hkept : m.Kept preempted) {o : Outcome} (h : Ended chosen m.sessions o)
    (hserving : isServing m.point = false) : ∃ n word card, n + 1 = m.sessions.length ∧
      Removals n word ∧ m.stories = word ++ [.cardPresent n card, o.event] := by
  obtain ⟨n, word, x, hn, hx, hword, hstories⟩ := stories_of_earlier hkept h.earlier h.nonempty
  refine ⟨n, word, x.session.card, hn, hword, ?_⟩
  rw [hstories, stage?_eq_none hserving, Sitting.story_of_over (h.last n x hx hn)]
  rfl

/-- **What is told of the sessions begins a story.** -/
theorem begun_of_earlier (hkept : m.Kept preempted) (h : Earlier chosen m.sessions) :
    ∃ word, Story word ∧ .start :: m.stories <+: word := by
  rcases Nat.eq_zero_or_pos m.sessions.length with hzero | hnonempty
  · rw [stories, hzero]
    exact ⟨_, .quiet .nil, List.prefix_rfl⟩
  · obtain ⟨n, word, x, -, -, hword, hstories⟩ := stories_of_earlier hkept h hnonempty
    rw [hstories]
    rcases x.story_cases n (m.stage? n) with hx | hx | ⟨o, -, hx⟩
    · rw [hx, List.append_nil]
      exact ⟨_, .quiet hword, List.prefix_rfl⟩
    · -- a session that has not ended yet may still fail
      rw [hx]
      refine ⟨_, .inside x.session.card .cancelled hword, ?_⟩
      rw [List.append_cons word (.cardPresent n x.session.card) [.failed .cancelled],
        ← List.cons_append]
      exact List.prefix_append _ _
    · rw [hx]
      cases o with
      | removed => exact ⟨_, .quiet (.concat x.session.card hword), List.prefix_rfl⟩
      | idleTimeout limit => exact ⟨_, .inside x.session.card _ hword, List.prefix_rfl⟩
      | fault e => exact ⟨_, .inside x.session.card e hword, List.prefix_rfl⟩
      | cancelled => exact ⟨_, .inside x.session.card _ hword, List.prefix_rfl⟩

/-- At most one session is announced in the story of a session. -/
theorem countP_story_le (x : Sitting) (number : Nat) (stage : Option Stage) :
    (x.story number stage).countP isPresent ≤ 1 := by
  rcases x.story_cases number stage with hx | hx | ⟨o, -, hx⟩
  · rw [hx]
    exact Nat.zero_le 1
  · rw [hx]
    exact Nat.le_refl 1
  · rw [hx]
    cases o <;> exact Nat.le_refl 1

/-- No more sessions are announced than there are. -/
theorem countP_stories_le (m : Machine) : m.stories.countP isPresent ≤ m.sessions.length := by
  unfold stories
  induction m.sessions.length with
  | zero => exact Nat.le_refl 0
  | succ n ih =>
    rw [List.range_succ, List.flatMap_append, List.flatMap_singleton, List.countP_append]
    refine Nat.add_le_add ih ?_
    unfold storyAt
    cases m.sessions[n]? with
    | none => exact Nat.zero_le 1
    | some x => exact countP_story_le x n _

/-! ## The words of a run -/

/-- Wherever the runner's thread stands, all sessions but the last were
removals, and what was queued are the stories of the sessions with a failure
outside of them at most. -/
theorem earlier_of_placed {sessions : List Sitting} {stories events : List Event} {point : Point}
    (h : Placed chosen sessions stories events point) : Earlier chosen sessions ∧
      (events <+: .start :: stories ∨ isServing point = false ∧ Rested chosen sessions ∧
        ∃ e, events = .start :: (stories ++ [.failed e])) := by
  have hrested : Rested chosen sessions → Earlier chosen sessions := fun h =>
    ⟨fun k x hx _ => h.removed k x hx, h.next.imp_left fun hzero => by omega⟩
  have hwhole : events = .start :: stories → events <+: .start :: stories :=
    fun heq => heq ▸ List.prefix_rfl
  have hfinished : ∀ result, Finished chosen sessions stories events result →
      Earlier chosen sessions ∧ (events <+: .start :: stories ∨ Rested chosen sessions ∧
        ∃ e, events = .start :: (stories ++ [.failed e])) := by
    intro result h
    unfold Finished at h
    split at h
    · obtain ⟨-, -, hended, -, hevents⟩ := h
      exact ⟨hended.earlier, .inl (hwhole hevents)⟩
    · next e =>
      obtain ⟨-, ⟨hr, hevents⟩ | ⟨o, -, -, hended, hevents⟩⟩ := h
      · exact ⟨hrested hr, .inr ⟨hr, e, hevents⟩⟩
      · exact ⟨hended.earlier, .inl (hwhole hevents)⟩
    · exact h.elim
    · obtain ⟨-, hr | hended, hevents⟩ := h
      · exact ⟨hrested hr, .inl (hwhole hevents)⟩
      · exact ⟨hended.earlier, .inl (hwhole hevents)⟩
  unfold Placed at h
  split at h
  · exact ⟨hrested (rested_nil h.1), .inl (h.2 ▸ List.nil_prefix)⟩
  · exact ⟨hrested (rested_nil h.1), .inl (hwhole h.2)⟩
  · exact ⟨hrested (rested_nil h.1), .inl (hwhole h.2)⟩
  · exact ⟨hrested h.2.1, .inl (hwhole h.2.2)⟩
  · exact ⟨h.2.1, .inl (hwhole h.2.2)⟩
  · exact ⟨h.1.elim hrested Ended.earlier, .inl (hwhole h.2)⟩
  · exact ⟨hrested h.2.1, .inl (hwhole h.2.2)⟩
  · exact ⟨hrested h.2.1, .inl (hwhole h.2.2)⟩
  · exact (hfinished _ h).imp_right (Or.imp_right fun h => ⟨rfl, h⟩)
  · exact (hfinished _ h).imp_right (Or.imp_right fun h => ⟨rfl, h⟩)
  · exact (hfinished _ h).imp_right (Or.imp_right fun h => ⟨rfl, h⟩)
  · exact ⟨h.1, .inl (hwhole h.2)⟩
  · exact ⟨h.1, .inl (hwhole h.2)⟩

section Placed

variable (hkept : m.Kept preempted)
variable (hplaced : Placed chosen m.sessions m.stories m.events m.point)

include hplaced

/-- Without a choice to go on, one session is announced at most. -/
theorem countP_of_placed (hchosen : ¬ Many chosen) : m.events.countP isPresent ≤ 1 := by
  obtain ⟨hearlier, hevents⟩ := earlier_of_placed hplaced
  have hfew : m.sessions.length ≤ 1 := hearlier.few.resolve_right hchosen
  have hstories : (Event.start :: m.stories).countP isPresent ≤ m.sessions.length := by
    rw [List.countP_cons_of_neg (by exact Bool.false_ne_true)]
    exact countP_stories_le m
  rcases hevents with hevents | ⟨-, -, e, hevents⟩
  · exact Nat.le_trans hevents.sublist.countP_le (Nat.le_trans hstories hfew)
  · rw [hevents, ← List.cons_append, List.countP_append]
    exact Nat.le_trans hstories hfew

include hkept

/-- **At every moment the events begin a story.** -/
theorem begun_of_placed : ∃ word, Story word ∧ m.events <+: word := by
  obtain ⟨hearlier, hevents | ⟨hserving, hrested, e, hevents⟩⟩ := earlier_of_placed hplaced
  · obtain ⟨word, hword, hbegun⟩ := begun_of_earlier hkept hearlier
    exact ⟨word, hword, hevents.trans hbegun⟩
  · rw [hevents]
    exact ⟨_, .outside e (removals_of_rested hrested hserving), List.prefix_rfl⟩

end Placed

/-- **In the end the events are a story**, and the result goes with it. -/
theorem closing_of_finished (hkept : m.Kept preempted) (hserving : isServing m.point = false)
    {result : Except TaskError Exit}
    (h : Finished chosen m.sessions m.stories m.events result) :
    Closing chosen m.events result := by
  unfold Finished at h
  split at h
  · obtain ⟨rfl, hlength, hended, ⟨p, hp, hsingle⟩, hevents⟩ := h
    obtain ⟨n, word, card, hn, hword, hstories⟩ := stories_of_ended hkept hended hserving
    obtain rfl : n = 0 := by omega
    cases hword
    rw [hevents, hstories]
    exact .removed p card hp hsingle
  · next e =>
    obtain ⟨he, ⟨hrested, hevents⟩ | ⟨o, ho, rfl, hended, hevents⟩⟩ := h
    · rw [hevents]
      exact .outside e (removals_of_rested hrested hserving) he
    · obtain ⟨n, word, card, -, hword, hstories⟩ := stories_of_ended hkept hended hserving
      have hevent : o.event = .failed o.reason := by
        cases o with
        | removed => exact absurd rfl ho
        | _ => rfl
      rw [hevents, hstories, hevent]
      exact .inside card o.reason hword he
  · exact h.elim
  · obtain ⟨rfl, hrested | hended, hevents⟩ := h
    · rw [hevents]
      exact .quiet (removals_of_rested hrested hserving) hrested.next
    · obtain ⟨n, word, card, -, hword, hstories⟩ := stories_of_ended hkept hended hserving
      rw [hevents, hstories]
      exact .stopped card hword

end Machine

end Runner

end SmartCard
