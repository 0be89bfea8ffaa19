import SmartCard.Exchange
import SmartCard.Command.Encoding
/-!
# Continuation chains

A card with more data than one response holds sends it in a chain: each
response but the last carries a trigger status that says how much comes
next, and a continuation command fetches it. `Chain` is what is known of a
chain while it is followed, `Chain.step` takes one response in, and
`Chain.follow` fetches the rest. The bound on the trigger statuses seen
makes every chain end.
-/

namespace SmartCard

/-- The bound on a chain when none is chosen. -/
def defaultChainLimit : Nat := 32

/-- The command that fetches the next part, in the class of the command that
started the chain. -/
def continuation (opening : Bytes) (le : UInt32) : Bytes :=
  Command.encode { cla := opening.headD 0, ins := 0xC0, p1 := 0, p2 := 0, le := some le }

/-- A chain that is being followed. -/
structure Chain where
  /-- The first status byte that announces another part. -/
  trigger : UInt8
  /-- The number of trigger statuses at which the chain is given up. -/
  limit : Nat
  /-- The trigger statuses seen so far. -/
  seen : Nat := 0
  /-- The data received so far. -/
  buffer : Bytes := []

namespace Chain

/-- What one response means for the chain. -/
inductive Step where
  /-- It was the last part: the response of the whole chain. -/
  | finished (response : Bytes)
  /-- Another part of this length is to be fetched. -/
  | more (le : UInt32) (rest : Chain)

/-- Takes one response in: its data are kept, and its status ends the chain,
continues it, or is one trigger status too many. -/
def step (c : Chain) (raw : Bytes) : Except ExchangeError Step :=
  match Response.decode raw with
  | .error e => .error e
  | .ok r =>
    let buffer := c.buffer ++ r.data
    if r.status.sw1 ≠ c.trigger then
      .ok (.finished (buffer ++ r.status.bytes))
    else if c.seen + 1 ≥ c.limit then
      .error (.chainLimit c.limit)
    else
      .ok (.more r.status.announced { c with seen := c.seen + 1, buffer })

/-- A continued chain is one status nearer to its bound. -/
theorem step_more {c rest : Chain} {raw : Bytes} {le : UInt32}
    (h : c.step raw = .ok (.more le rest)) :
    rest.limit = c.limit ∧ rest.seen = c.seen + 1 ∧ c.seen + 1 < c.limit := by
  unfold step at h
  split at h
  · cases h
  · split at h
    · cases h
    · split at h
      · cases h
      · cases h
        exact ⟨rfl, rfl, by omega⟩

/-- A chain is continued by a response with the trigger status, whose data it
keeps. -/
theorem response_of_step_more {c rest : Chain} {raw : Bytes} {le : UInt32}
    (h : c.step raw = .ok (.more le rest)) :
    ∃ r, Response.decode raw = .ok r ∧ r.status.sw1 = c.trigger ∧ le = r.status.announced ∧
      rest = { c with seen := c.seen + 1, buffer := c.buffer ++ r.data } := by
  unfold step at h
  split at h
  · cases h
  · next r hr =>
    split at h
    · cases h
    · next htrigger =>
      split at h
      · cases h
      · cases h
        exact ⟨r, hr, Classical.not_not.1 htrigger, rfl, rfl⟩

/-- A finished chain has the data of all its parts and the status of the last one. -/
theorem step_finished {c : Chain} {raw response : Bytes}
    (h : c.step raw = .ok (.finished response)) :
    ∃ r, Response.decode raw = .ok r ∧ r.status.sw1 ≠ c.trigger ∧
      response = c.buffer ++ r.encode := by
  unfold step at h
  split at h
  · cases h
  · next r hr =>
    split at h
    · next htrigger =>
      cases h
      exact ⟨r, hr, htrigger, List.append_assoc ..⟩
    · split at h <;> cases h

/-- The chain after these parts. -/
def after (trigger : UInt8) (limit : Nat) (parts : List Response) : Chain where
  trigger
  limit
  seen := parts.length
  buffer := parts.flatMap Response.data

theorem after_concat (trigger : UInt8) (limit : Nat) (parts : List Response) (r : Response) :
    { after trigger limit parts with
      seen := (after trigger limit parts).seen + 1
      buffer := (after trigger limit parts).buffer ++ r.data } =
      after trigger limit (parts ++ [r]) := by
  simp [after]

/-- A response that ends the chain is joined to the data before it. -/
theorem step_of_ne_trigger {c : Chain} {r : Response} (hsw : r.status.sw1 ≠ c.trigger) :
    c.step r.encode = .ok (.finished (c.buffer ++ r.encode)) := by
  unfold step
  rw [Response.decode_encode]
  dsimp only
  rw [if_pos hsw, Response.encode, List.append_assoc]

/-- A response with the trigger status continues a chain that is not at its bound. -/
theorem step_of_trigger {c : Chain} {r : Response} (hsw : r.status.sw1 = c.trigger)
    (hlt : c.seen + 1 < c.limit) :
    c.step r.encode = .ok (.more r.status.announced
      { c with seen := c.seen + 1, buffer := c.buffer ++ r.data }) := by
  unfold step
  rw [Response.decode_encode]
  simp only [ne_eq, hsw, not_true_eq_false, if_false]
  rw [if_neg (Nat.not_le.2 hlt)]

/-- A response with the trigger status gives up a chain that is at its bound. -/
theorem step_of_limit {c : Chain} {r : Response} (hsw : r.status.sw1 = c.trigger)
    (hle : c.limit ≤ c.seen + 1) : c.step r.encode = .error (.chainLimit c.limit) := by
  unfold step
  rw [Response.decode_encode]
  simp only [ne_eq, hsw, not_true_eq_false, if_false]
  rw [if_pos hle]

/-- A response without room for a status word gives up a chain. -/
theorem step_of_short {c : Chain} {raw : Bytes} (h : raw.length < 2) :
    c.step raw = .error (.incomplete raw.length) := by
  unfold step
  rw [Response.decode_of_short h]

/-- A chain is given up for a response without room for a status word, or for one
trigger status too many. -/
theorem error_of_step {c : Chain} {raw : Bytes} {e : ExchangeError}
    (h : c.step raw = .error e) : e = .incomplete raw.length ∨ e = .chainLimit c.limit := by
  unfold step at h
  split at h
  · next hr =>
    cases h
    exact .inl (Response.error_of_decode hr)
  · split at h
    · cases h
    · split at h
      · cases h
        exact .inr rfl
      · cases h

/-- Follows a chain from a response to its end. An error of a later exchange
is reported in the context `doing`. -/
def follow (doing : String) (opening : Bytes) (c : Chain) (raw : Bytes) : Exchange Reply :=
  match _h : c.step raw with
  | .error e => .done (.error e)
  | .ok (.finished response) => .done (.ok response)
  | .ok (.more le rest) =>
    .transmit (continuation opening le) fun
      | .error e => .done (.error (e.withContext doing))
      | .ok next => rest.follow doing opening next
termination_by c.limit - c.seen
decreasing_by
  obtain ⟨hlimit, hseen, hlt⟩ := step_more _h
  omega

/-- A chain that fails ends the exchange. -/
theorem follow_of_error {doing : String} {opening raw : Bytes} {c : Chain} {e : ExchangeError}
    (h : c.step raw = .error e) : follow doing opening c raw = .done (.error e) := by
  rw [follow]
  split <;> simp_all

/-- A chain that is finished ends the exchange with the response of all of it. -/
theorem follow_of_finished {doing : String} {opening raw response : Bytes} {c : Chain}
    (h : c.step raw = .ok (.finished response)) :
    follow doing opening c raw = .done (.ok response) := by
  rw [follow]
  split <;> simp_all

/-- A chain that goes on fetches the next part, and goes on from its response. -/
theorem follow_of_more {doing : String} {opening raw : Bytes} {c rest : Chain} {le : UInt32}
    (h : c.step raw = .ok (.more le rest)) :
    follow doing opening c raw = .transmit (continuation opening le) fun
      | .error e => .done (.error (e.withContext doing))
      | .ok next => follow doing opening rest next := by
  rw [follow]
  split
  · simp_all
  · simp_all
  · next le' rest' h' =>
    obtain ⟨rfl, rfl⟩ : le' = le ∧ rest' = rest := by simpa [h] using h'.symm
    rfl

/-- Transmits a command and follows the chain that its response may start.
An error of the first exchange is reported as it is. -/
def exchange (doing : String) (trigger : UInt8) (limit : Nat) (command : Bytes) :
    Exchange Reply :=
  .transmit command fun
    | .error e => .done (.error e)
    | .ok raw => follow doing command { trigger, limit } raw

end Chain

end SmartCard
