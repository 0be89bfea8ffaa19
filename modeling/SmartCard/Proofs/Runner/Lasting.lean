import SmartCard.Proofs.Runner.Phases
/-!
# What lasts of a session

Sessions are opened one after the other and never go away, and whatever is
done in a session, by whomever, it keeps its card and its end. `Lasts` says
so of one move (`lasts_of_step`) and of a run (`lasts_of_run`), for all
sessions that are there.
-/

namespace SmartCard

/-- A call that concludes a session does not undo its end. -/
theorem Session.Advances.isConcluded {s s' : Session} {call call' : Conclusion}
    {queued : List Event} (h : s.Advances call s' call' queued) (hs : s.isConcluded = true) :
    s'.isConcluded = true := by
  rcases h.recorded with heq | heq
  · rwa [Session.isConcluded, heq]
  · rw [Session.isConcluded, heq]
    rfl

namespace Runner

/-- Sending a command adds to the commands sent, and to nothing else. -/
theorem Sitting.send_eq (x : Sitting) (rest : Exchange Reply) :
    ∃ sent, x.send rest = { x with sent } := by
  cases rest with
  | done result => exact ⟨x.sent, rfl⟩
  | transmit command resume => exact ⟨x.sent ++ [command], rfl⟩

/-- It leaves the log of the commands taken. -/
theorem Sitting.transmissions_send (x : Sitting) (rest : Exchange Reply) :
    (x.send rest).transmissions = x.transmissions := by
  obtain ⟨sent, heq⟩ := x.send_eq rest
  rw [heq]

/-- **What a session keeps**: its card, and that it has ended. -/
structure Sitting.Lasts (x x' : Sitting) : Prop where
  card : x'.session.card = x.session.card
  concluded : x.session.isConcluded = true → x'.session.isConcluded = true

namespace Sitting.Lasts

variable {x x' x'' : Sitting}

theorem refl (x : Sitting) : x.Lasts x := ⟨rfl, id⟩

theorem trans (h : x.Lasts x') (h' : x'.Lasts x'') : x.Lasts x'' :=
  ⟨h'.card.trans h.card, h'.concluded ∘ h.concluded⟩

/-- A step that does not touch the session, or only its rendezvous. -/
theorem of_eq (hcard : x'.session.card = x.session.card)
    (houtcome : x'.session.outcome = x.session.outcome) : x.Lasts x' :=
  ⟨hcard, fun h => by rwa [Session.isConcluded, houtcome]⟩

/-- A step of a call that concludes the session. -/
theorem advance {call call' : Conclusion} {queued : List Event}
    (hs : x.session.Advances call x'.session call' queued) : x.Lasts x' :=
  ⟨hs.card, hs.isConcluded⟩

/-- Sending a command does not touch the session. -/
theorem send (x : Sitting) (rest : Exchange Reply) : x.Lasts (x.send rest) := by
  obtain ⟨sent, heq⟩ := x.send_eq rest
  rw [heq]
  exact of_eq rfl rfl

theorem publish (x : Sitting) (command : Bytes) : x.Lasts (x.publish command) := by
  unfold Sitting.publish
  split <;> exact of_eq rfl rfl

/-- A step of the runner's thread inside the session. -/
theorem turn {config : Config} {number : Nat} {stage stage' : Stage} {queued : List Event}
    (hturn : Turn config number x stage stage' x' queued) : x.Lasts x' := by
  cases hturn with
  | take command ticket hstage hslot =>
    refine trans ?_ (send _ _)
    exact of_eq rfl rfl
  | hear command resume reply =>
    refine trans ?_ (send _ _)
    exact of_eq rfl rfl
  | conclude hs hcall' => exact advance hs
  | concluded hs => exact advance hs
  | _ => exact of_eq rfl rfl

/-- A step of the watch. -/
theorem watch {w' : Watch} {point : Watch.Point} {s' : Session} {queued : List Event}
    (hturn : Watch.Turn x.session point w'.point s' queued) :
    x.Lasts { x with session := s', watch := some w' } := by
  generalize w'.point = point' at hturn
  cases hturn with
  | conclude hs hcall' => exact advance hs
  | concluded hs => exact advance hs
  | _ => exact of_eq rfl rfl

end Sitting.Lasts

namespace Machine

variable {m m' : Machine} {number : Nat} {x : Sitting}

/-- **One move** leaves every session where it is, with its card and its end. -/
theorem lasts_of_step {move : Move} (hstep : m.step move = some m')
    (hx : m.sessions[number]? = some x) :
    ∃ x', m'.sessions[number]? = some x' ∧ x.Lasts x' := by
  have hsees := sees_of_step hstep number
  generalize m'.sessions[number]? = after, m'.stage? number = stage' at hsees
  cases hsees with
  | apart => exact ⟨x, hx, .refl x⟩
  | connect input card hnone => exact nomatch hx.symm.trans hnone
  | publish command hx' =>
    cases hx.symm.trans hx'
    exact ⟨_, rfl, .publish x command⟩
  | watch input hx' hwatch hturn =>
    cases hx.symm.trans hx'
    exact ⟨_, rfl, .watch hturn⟩
  | turn input hx' hstage hturn =>
    cases hx.symm.trans hx'
    exact ⟨_, rfl, .turn hturn⟩
  | leave => exact ⟨x, hx, .refl x⟩
  | panic => exact ⟨x, hx, .refl x⟩

/-- **A run** leaves them so. -/
theorem lasts_of_run {moves : List Move} (hrun : m.run moves = some m')
    (hx : m.sessions[number]? = some x) :
    ∃ x', m'.sessions[number]? = some x' ∧ x.Lasts x' := by
  refine invariant_of_run (P := fun m₁ => ∃ x', m₁.sessions[number]? = some x' ∧ x.Lasts x') ?_
    ⟨x, hx, .refl x⟩ hrun
  rintro m₁ m₂ move ⟨x₁, hx₁, hlasts⟩ hstep
  obtain ⟨x₂, hx₂, hlasts'⟩ := lasts_of_step hstep hx₁
  exact ⟨x₂, hx₂, hlasts.trans hlasts'⟩

end Machine

end Runner

end SmartCard
