import SmartCard.Proofs.Runner.Runs
/-!
# The fate of a command

A command that a session accepts is given to the layers at most once, and
its client gets the response of that transmission, or the reason for which
the session ended. `commands_fated` says so of every run of a machine: of
every order in which the runner's thread, the watches and the clients take
their steps, whatever the reader and the card answer, and whenever the
runner is stopped. A transmission that fails is the last, and it is what the
session ends with unless the watch was there before.
-/

namespace SmartCard

namespace Runner

namespace Machine

/-- **The fate of the commands of a session.** Tickets are counted from zero,
so a ticket is the place of its command among those accepted. -/
structure Fated (m : Machine) (number : Nat) (x : Sitting) (preempted : Prop) : Prop where
  /-- Every accepted command has a ticket. -/
  accepted : x.accepted.length = x.session.rendezvous.issued
  /-- The layers are given the accepted commands in order, unchanged, each at most once. -/
  order : x.transmissions.map Transmission.command <+: x.accepted
  tickets : x.transmissions.map Transmission.ticket = List.range x.transmissions.length
  /-- Once the session has been served, it has an outcome and every ticket an answer. -/
  served : m.HasServed number → ∃ o, x.session.outcome = some o ∧
    ∀ t < x.accepted.length, ∃ a, x.session.rendezvous.poll t = some a
  /-- No ticket is resolved twice. -/
  once : x.session.rendezvous.answered.Nodup
  /-- A response is that of the ticket's own transmission, and has room for a status word. -/
  response : ∀ t raw, x.session.rendezvous.poll t = some (.ok raw) →
    ∃ T, x.transmissions[t]? = some T ∧ T.result = some (.ok raw) ∧ 2 ≤ raw.length
  /-- The result of a transmission is what the layers make of the card's replies. -/
  carried : ∀ T ∈ x.transmissions, ∀ result, T.result = some result →
    (m.config.stack.exchange T.command).feed T.replies = .done result
  /-- An error is the reason of the outcome that the session has or is about to get. -/
  reason : ∀ t e, x.session.rendezvous.poll t = some (.error e) →
    ∃ o, e = o.reason ∧ (x.session.outcome = none ∨ x.session.outcome = some o)
  /-- A failed transmission is what the session ends with, unless the watch
  was the first to conclude it. -/
  failure : ¬ preempted → ∀ T ∈ x.transmissions, ∀ e, T.failure? = some e →
    ∀ o, x.session.outcome = some o →
      o = if e.isCardRemoved then .removed else .fault (.transport e)
  /-- After a failed transmission, the layers are given no other command. -/
  last : ∀ i T e, x.transmissions[i]? = some T → T.failure? = some e →
    i + 1 = x.transmissions.length

/-- **Every accepted command has its fate**, in every run. -/
theorem commands_fated (config : Config) (reader : String) (moves : List Move) (m : Machine)
    (hrun : (initial config reader).run moves = some m) (number : Nat) (x : Sitting)
    (hx : m.sessions[number]? = some x) :
    m.Fated number x ((initial config reader).Preempted number moves) := by
  have hkept := kept_of_run (Kept.initial config reader) hrun
  have hs := hkept.sound number x hx
  have hlawful := hs.orderly.lawful
  refine ⟨hs.orderly.hands.1, hs.orderly.hands.isPrefix, hs.tickets, ?_,
    hs.orderly.accounted.answered_nodup, ?_, hs.carried, ?_, ?_, ?_⟩
  · intro hserved
    obtain ⟨o, ho⟩ := hkept.isOver number x hx hserved
    obtain ⟨hcalls, hloose⟩ := stage?_of_hasServed hserved
    refine ⟨o, ho.1, fun t ht => ho.answered (hs.leave hcalls hloose) ?_⟩
    rwa [← hs.orderly.hands.1]
  · exact fun t raw hpoll => hs.orderly.answers t (.ok raw) hpoll
  · intro t e hpoll
    obtain ⟨o, ho, he⟩ := hs.orderly.answers t (.error e) hpoll
    refine ⟨o, he, ?_⟩
    cases houtcome : x.session.outcome with
    | none => exact .inl rfl
    | some r => exact .inr ((hlawful.of_recorded houtcome).1.symm.trans ho)
  · intro hp T hT e he o ho
    exact hs.blame (fun hor => hor.elim id hp) o (hlawful.of_recorded ho).1 T hT e he
  · intro i T e hT he
    obtain ⟨hlt, rfl⟩ := List.getElem?_eq_some_iff.1 hT
    by_contra hne
    have hlt' : i < x.transmissions.dropLast.length := by
      rw [List.length_dropLast]
      omega
    have hmem : x.transmissions[i] ∈ x.transmissions.dropLast := by
      rw [← List.getElem_dropLast hlt']
      exact List.getElem_mem hlt'
    rw [(hs.clean _ hmem).failure?_eq_none] at he
    cases he

/-- A session whose second command finds the card gone. -/
def removal : List Move :=
  let go : Move := .runner .go
  [go, .deliver false, .resolve {}, go, go, go, go, .runner (.presence (.ok true)), go,
    .runner (.connection (.ok ⟨"Reader 0", [], .t1⟩)), go, go, .runner (.spawned none),
    .publish 0 [0x00], go, go, go, .runner (.reply (.ok [0x90, 0x00])), go, go, go,
    .publish 0 [0x01], go, go, go, .runner (.reply (.error (.transport .cardRemoved))), go, go,
    go, go, go, go, go, go, go, go, .watch 0 .go, .watch 0 .go, go]

/-- The first command has its response, and the second the reason for the end. -/
theorem commands_fated_removal : ∃ m x,
    (initial { idleTimeout := none, wrongLengthRetry := false, getResponse := false }
      "Reader 0").run removal = some m ∧ m.sessions[0]? = some x ∧ m.HasServed 0 ∧
    x.accepted = [[0x00], [0x01]] ∧ x.session.outcome = some .removed ∧
    x.session.rendezvous.poll 0 = some (.ok [0x90, 0x00]) ∧
    x.session.rendezvous.poll 1 = some (.error .cardRemoved) ∧
    m.Fated 0 x ((initial { idleTimeout := none, wrongLengthRetry := false, getResponse := false }
      "Reader 0").Preempted 0 removal) :=
  ⟨_, _, rfl, rfl, ⟨Nat.zero_lt_one, fun _ => ⟨.removed, rfl⟩⟩, rfl, rfl, rfl, rfl,
    commands_fated _ _ _ _ rfl 0 _ rfl⟩

end Machine

end Runner

end SmartCard
