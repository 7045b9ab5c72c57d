import ForMqttClient.PacketIds

/-!
# Requests on an empty pool

A request that waits for an acknowledgement needs a packet id. When the hub
takes one while 65535 others are in flight, `request_id` fails, the error
leaves `run`, and the loop of `connect` enters `run` again. The hub goes on as
before, and nothing tells the user that the request is gone.
-/

namespace Requests

open MqttData BoundedRing TaskHub HubSteps GuardedRuns PacketIds

/-- The entry of a request under a packet id; a QoS 0 publish has none. -/
def requestEntry (packetId : PacketId) : ClientData → Option UnacknowledgedClientData
  | .PublishQoS0 _ => none
  | .PublishQoS1 packet => some (.PublishQoS1 { packet with packetId := packetId })
  | .PublishQoS2 packet => some (.PublishQoS2 { packet with packetId := packetId })
  | .Subscribe trace =>
    some (.Subscribe { trace with subscribe := trace.subscribe.setPacketId packetId })
  | .Unsubscribe trace =>
    some (.Unsubscribe { trace with unsubscribe := trace.unsubscribe.setPacketId packetId })

/-- The kinds of a request that wait for an acknowledgement. -/
def Acknowledged : ClientData → Prop
  | .PublishQoS0 _ => False
  | _ => True

/-- The events that tell the user of a request that failed. -/
def FailureOf : ClientData → MqttEvent → Prop
  | .PublishQoS1 _, .PublishFail _ => True
  | .PublishQoS2 _, .PublishFail _ => True
  | .Subscribe _, .SubscribeFail _ => True
  | .Unsubscribe _, .UnsubscribeFail _ => True
  | _, _ => False

/-- The request has an entry under an id that was just taken, or the user is told
of its failure. The rest of the hub is as before, and `run` goes on. -/
structure Answered (hub : Hub) (data : ClientData) (outcome : Outcome) : Prop where
  kept_or_reported :
    (∃ packetId pool entry, hub.pool.pop = some (packetId, pool) ∧
      requestEntry packetId data = some entry ∧ outcome.hub.pool = pool ∧
      outcome.hub.clientData = hub.clientData ++ [entry]) ∨
    ∃ event, FailureOf data event ∧ .dispatch event ∈ outcome.outputs
  others : entryIds hub <+: entryIds outcome.hub
  state : outcome.hub.state = hub.state
  running : At outcome.hub .Connected .loop

/-! ## One request -/

theorem accepted_outcome {hub : Hub} {data : ClientData} {packetId : PacketId}
    {pool : Ring PacketId poolCapacity} {entry : UnacknowledgedClientData}
    (hpop : hub.pool.pop = some (packetId, pool))
    (hentry : requestEntry packetId data = some entry) :
    hub.dealClientDataWhenConnected data =
      ⟨{ hub with pool := pool, clientData := hub.clientData ++ [entry] },
        [.accepted entry, .start entry.toAcknowledge], .ok ()⟩ := by
  have taken : hub.requestId = some (packetId, { hub with pool := pool }) := by
    rw [Hub.requestId, hpop]
  cases data with
  | PublishQoS0 packet => cases hentry
  | _ =>
    cases hentry
    simp only [Hub.dealClientDataWhenConnected, Hub.acceptRequest, taken]
    rfl

theorem refused_outcome {hub : Hub} {data : ClientData} (hack : Acknowledged data)
    (hempty : hub.pool.items = []) :
    hub.dealClientDataWhenConnected data =
      ⟨hub, [], .error (.PacketIdErr "buffer of packet id is empty")⟩ := by
  have refused := requestId_none hempty
  cases data with
  | PublishQoS0 packet => exact hack.elim
  | _ => simp only [Hub.dealClientDataWhenConnected, Hub.acceptRequest, refused]

theorem requestEntry_isSome {data : ClientData} (hack : Acknowledged data) (packetId : PacketId) :
    ∃ entry, requestEntry packetId data = some entry := by
  cases data with
  | PublishQoS0 packet => exact hack.elim
  | _ => exact ⟨_, rfl⟩

/-- A request is answered exactly if the pool has an id for it. -/
theorem answered_iff {hub : Hub} {data : ClientData} (hack : Acknowledged data)
    (hat : At hub .Connected .loop) :
    Answered hub data (hub.dealClientDataWhenConnected data) ↔ hub.pool.items ≠ [] := by
  constructor
  · intro answered hempty
    rcases answered.kept_or_reported with ⟨packetId, pool, entry, hpop, _⟩ | ⟨event, _, reported⟩
    · rw [Ring.pop_eq_none.mpr hempty] at hpop
      cases hpop
    · rw [refused_outcome hack hempty] at reported
      cases reported
  · intro some
    cases hpop : hub.pool.pop with
    | none => exact absurd (Ring.pop_eq_none.mp hpop) some
    | some popped =>
      obtain ⟨packetId, pool⟩ := popped
      obtain ⟨entry, hentry⟩ := requestEntry_isSome hack packetId
      rw [accepted_outcome hpop hentry]
      refine ⟨.inl ⟨packetId, pool, entry, hpop, hentry, rfl, rfl⟩, ?_, rfl, hat.draw, hat.state,
        hat.position⟩
      rw [entryIds, entryIds, List.map_append]
      exact List.prefix_append _ _

/-- The pool has an id exactly while fewer than 65535 requests are in flight. -/
theorem pool_iff_room {hub : Hub} (h : IdsConserved hub) :
    hub.pool.items ≠ [] ↔ hub.clientData.length < 65535 := by
  have sizes : (hub.pool.items ++ entryIds hub).length = allIds.length := List.Perm.length_eq h
  rw [List.length_append, allIds_length, entryIds, List.length_map] at sizes
  change _ = 65535 at sizes
  rw [← List.length_pos_iff]
  omega

/-! ## Runs -/

/-- What the hub makes of a request that it takes from its queue. -/
theorem step_clientData {hub : Hub} {keepAliveId : Nat} {data : ClientData} {outcome : Outcome}
    (hstep : hub.step keepAliveId (.clientData data) = some outcome) :
    At hub .Connected .loop ∧ outcome = hub.dealClientDataWhenConnected data := by
  unfold Hub.step at hstep
  by_cases hdraw : hub.drawing = true
  · rw [if_pos hdraw] at hstep
    cases hstep
  · rw [if_neg hdraw] at hstep
    have idle : hub.drawing = false := by simpa using hdraw
    split at hstep
    case h_6 hstate hpos hinput =>
      cases hinput
      exact ⟨⟨idle, hstate, hpos⟩, (Option.some.inj hstep).symm⟩
    case h_9 => cases hstep
    all_goals
      next hinput => cases hinput

/-- Every request that the hub takes in this step is answered. -/
def AnswersRequest (hub : Hub) (action : Nat × HubInput) : Prop :=
  ∀ data outcome, action.2 = .clientData data → Acknowledged data →
    hub.step action.1 action.2 = some outcome → Answered hub data outcome

/-- A request is taken only while fewer than 65535 others are in flight. -/
def HasRoom (hub : Hub) (action : Nat × HubInput) : Prop :=
  ∀ data, action.2 = .clientData data → Acknowledged data → hub.clientData.length < 65535

/-- A run answers all its requests exactly if each of them finds room. -/
theorem requests_answered_iff (options : MqttOptions) (protocol : Protocol)
    (actions : List (Nat × HubInput)) :
    AllSteps hubStep AnswersRequest (Hub.init options protocol) actions ↔
      AllSteps hubStep HasRoom (Hub.init options protocol) actions := by
  refine allSteps_iff (J := IdsConserved) (fun _ _ _ h hstep => conserved_of_hubStep h hstep) ?_
    actions (initial_conserved options protocol)
  intro hub action hub' conserved hstep
  obtain ⟨outcome, ho, rfl⟩ := Option.map_eq_some_iff.mp hstep
  constructor
  · intro answers data hdata hack
    have answered := answers data outcome hdata hack ho
    rw [hdata] at ho
    obtain ⟨hat, rfl⟩ := step_clientData ho
    exact (pool_iff_room conserved).mp ((answered_iff hack hat).mp answered)
  · intro room data outcome' hdata hack ho'
    rw [hdata] at ho'
    obtain ⟨hat, rfl⟩ := step_clientData ho'
    exact (answered_iff hack hat).mpr ((pool_iff_room conserved).mpr (room data hdata hack))

/-! ## A request that vanishes -/

def filler : ClientData := .Subscribe ⟨0, .V4 0 []⟩

/-- Connected for the first time, with nothing to resend. -/
def connects : List (Nat × HubInput) :=
  [(0, .connect []), (0, .connecting (.Connected false)), (1, .load), (1, .resend)]

theorem filler_acknowledged : Acknowledged filler := trivial

theorem clientData_step {hub : Hub} (hat : At hub .Connected .loop) (keepAliveId : Nat)
    (data : ClientData) : hub.step keepAliveId (.clientData data) =
      some (hub.dealClientDataWhenConnected data) := by
  simp [Hub.step, hat.draw, hat.state, hat.position]

/-- As many requests as there are ids use up the pool. -/
theorem pool_emptied (n : Nat) :
    ∀ hub : Hub, At hub .Connected .loop → hub.pool.items.length = n →
      ∃ hub', run hubStep hub (List.replicate n (1, .clientData filler)) = some hub' ∧
        At hub' .Connected .loop ∧ hub'.pool.items = [] := by
  induction n with
  | zero =>
    intro hub hat hlength
    exact ⟨hub, rfl, hat, List.length_eq_zero_iff.mp hlength⟩
  | succ n ih =>
    intro hub hat hlength
    cases hpop : hub.pool.pop with
    | none =>
      rw [Ring.pop_eq_none.mp hpop] at hlength
      cases hlength
    | some popped =>
      obtain ⟨packetId, pool⟩ := popped
      have rest : pool.items.length = n := by
        rw [Ring.pop_eq_some hpop, List.length_cons] at hlength
        omega
      have accepted := accepted_outcome hpop (rfl : requestEntry packetId filler = some _)
      obtain ⟨hub', hrun, hat', hempty⟩ := ih (hub.dealClientDataWhenConnected filler).hub
        (by rw [accepted]; exact ⟨hat.draw, hat.state, hat.position⟩) (by rw [accepted]; exact rest)
      refine ⟨hub', ?_, hat', hempty⟩
      rw [List.replicate_succ, run, hubStep, clientData_step hat]
      exact hrun

/-- Behind requests that used up the pool, another one leaves no trace. -/
theorem vanishes_behind {start hub : Hub} {actions : List (Nat × HubInput)}
    (reached : run hubStep start actions = some hub) (hat : At hub .Connected .loop)
    (hempty : hub.pool.items = []) :
    hub.step 1 (.clientData filler) =
        some ⟨hub, [], .error (.PacketIdErr "buffer of packet id is empty")⟩ ∧
      ¬AllSteps hubStep AnswersRequest start (actions ++ [(1, .clientData filler)]) := by
  have last : hub.step 1 (.clientData filler) =
      some ⟨hub, [], .error (.PacketIdErr "buffer of packet id is empty")⟩ := by
    rw [clientData_step hat, refused_outcome filler_acknowledged hempty]
  refine ⟨last, fun answers => ?_⟩
  have stepped : hubStep hub (1, .clientData filler) = some hub := by
    rw [hubStep, last]
    rfl
  have answered := (answers.behind reached hub stepped).1 filler _ rfl filler_acknowledged last
  rcases answered.kept_or_reported with ⟨_, _, _, hpop, _⟩ | ⟨_, _, reported⟩
  · rw [Ring.pop_eq_none.mpr hempty] at hpop
    cases hpop
  · cases reported

/-- The request behind 65535 others changes nothing in the hub and tells the user
nothing. -/
theorem request_vanishes :
    ∃ hub, run hubStep (Hub.init ⟨60, true⟩ .V4)
        (connects ++ List.replicate 65535 (1, .clientData filler)) = some hub ∧
      hub.step 1 (.clientData filler) =
        some ⟨hub, [], .error (.PacketIdErr "buffer of packet id is empty")⟩ ∧
      ¬AllSteps hubStep AnswersRequest (Hub.init ⟨60, true⟩ .V4)
        (connects ++ List.replicate 65535 (1, .clientData filler) ++
          [(1, .clientData filler)]) := by
  let connected : Hub := { Hub.init ⟨60, true⟩ .V4 with state := .Connected }
  have first : run hubStep (Hub.init ⟨60, true⟩ .V4) connects = some connected := rfl
  obtain ⟨hub, filled, hat, hempty⟩ := pool_emptied 65535 connected ⟨rfl, rfl, rfl⟩
    List.length_range'
  have reached : run hubStep (Hub.init ⟨60, true⟩ .V4)
      (connects ++ List.replicate 65535 (1, .clientData filler)) = some hub := by
    rw [run_append, first, Option.bind_some]
    exact filled
  exact ⟨hub, reached, vanishes_behind reached hat hempty⟩

end Requests
