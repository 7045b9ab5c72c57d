import ForMqttClient.Connect
import ForMqttClient.PacketIds

/-!
# Sessions across connections

A connection with a clean session should start with nothing of the one before.
The hub never reads `clean_session`: it keeps the unacknowledged requests and
the received publishes, and resends and drops by them on the next connection.
They are empty there exactly if they were when the connection before was lost.
-/

namespace Sessions

open MqttData TaskHub HubSteps GuardedRuns PacketIds

/-- The collections of the session hold nothing. -/
structure Clean (hub : Hub) : Prop where
  client_data : hub.clientData = []
  rx_publish : ∀ packetId, hub.rxPublish packetId = none
  rx_publish_id : ∀ packetId, hub.rxPublishId packetId = none

/-- A received publish with this id is given to the hub. -/
def Receives (packetId : PacketId) (action : Nat × HubInput) : Prop :=
  ∃ publish, action.2 = .hubMsg (.RxPublish publish) ∧ publish.qos.packetId = some packetId

/-- A connection that starts here owes nothing to an earlier one: nothing is there
to be resent, and every id that a publish may be dropped for came in since. -/
structure FreshStart (hub : Hub) : Prop where
  clean : Clean hub
  nothing_resent : ∀ next, (hub.resend next).outputs = []
  drops_own : ∀ actions later packetId, run hubStep hub actions = some later →
    (later.rxPublishId packetId).isSome = true → ∃ action ∈ actions, Receives packetId action

/-- Where the step enters `Connected`, the connection has a fresh start. -/
def StartsFresh (hub : Hub) (action : Nat × HubInput) : Prop :=
  ∀ hub', hubStep hub action = some hub' → hub.state ≠ .Connected → hub'.state = .Connected →
    FreshStart hub'

/-- Every connection that is followed by another one was lost with nothing in the
collections; `left` says so of the one before. -/
def LostClean : Prop → Hub → List (Nat × HubInput) → Prop
  | _, _, [] => True
  | left, hub, action :: rest =>
    ∀ hub', hubStep hub action = some hub' →
      (hub.state ≠ .Connected → hub'.state = .Connected → left) ∧
        LostClean (if hub.state = .Connected ∧ hub'.state ≠ .Connected then Clean hub else left)
          hub' rest

/-! ## One step -/

/-- The collections change only within a connection. -/
theorem frozen_of_move {keepAliveId : Nat} {hub hub' : Hub} {input : HubInput}
    {outputs : List Output} (move : Move keepAliveId hub input hub' outputs)
    (off : hub.state ≠ .Connected ∨ hub'.state ≠ .Connected) :
    hub'.clientData = hub.clientData ∧ hub'.rxPublish = hub.rxPublish ∧
      hub'.rxPublishId = hub.rxPublishId := by
  cases move with
  | accept hat _ _ _ => exact absurd hat.state (off.elim id id)
  | recoverDone hat _ _ _ _ => exact absurd hat.state (off.elim id id)
  | recoverRel hat _ _ => exact absurd hat.state (off.elim id id)
  | rxAccept hat _ _ => exact absurd hat.state (off.elim id id)
  | affirmRxId hat => exact absurd hat.state (off.elim id id)
  | affirmRxPublish hat _ => exact absurd hat.state (off.elim id id)
  | _ => exact ⟨rfl, rfl, rfl⟩

theorem clean_iff_of_step {hub hub' : Hub} {action : Nat × HubInput}
    (hstep : hubStep hub action = some hub')
    (off : hub.state ≠ .Connected ∨ hub'.state ≠ .Connected) : Clean hub' ↔ Clean hub := by
  obtain ⟨outputs, move⟩ := move_of_hubStep hstep
  obtain ⟨data, publishes, ids⟩ := frozen_of_move move off
  constructor
  · intro clean
    exact ⟨data ▸ clean.client_data, publishes ▸ clean.rx_publish, ids ▸ clean.rx_publish_id⟩
  · intro clean
    exact ⟨data ▸ clean.client_data, publishes ▸ clean.rx_publish, ids ▸ clean.rx_publish_id⟩

/-- An id is held only after a publish with it came in. -/
theorem received_of_move {keepAliveId : Nat} {hub hub' : Hub} {input : HubInput}
    {outputs : List Output} {packetId : PacketId}
    (move : Move keepAliveId hub input hub' outputs)
    (held : (hub'.rxPublishId packetId).isSome = true) :
    (hub.rxPublishId packetId).isSome = true ∨ Receives packetId (keepAliveId, input) := by
  cases move with
  | @rxAccept publish id protocol spec hat hfree hspec =>
    by_cases same : packetId = id
    · subst same
      refine .inr ⟨publish, rfl, ?_⟩
      rcases hspec with ⟨hqos, _⟩ | ⟨hqos, _⟩ <;> rw [hqos] <;> rfl
    · change (Function.update hub.rxPublishId id (some id) packetId).isSome = true at held
      rw [Function.update_of_ne same] at held
      exact .inl held
  | @affirmRxId id hat =>
    change (Function.update hub.rxPublishId id none packetId).isSome = true at held
    by_cases same : packetId = id
    · rw [same, Function.update_self] at held
      cases held
    · rw [Function.update_of_ne same] at held
      exact .inl held
  | _ => exact .inl held

theorem received_of_step {hub hub' : Hub} {action : Nat × HubInput} {packetId : PacketId}
    (hstep : hubStep hub action = some hub') (held : (hub'.rxPublishId packetId).isSome = true) :
    (hub.rxPublishId packetId).isSome = true ∨ Receives packetId action := by
  obtain ⟨outputs, move⟩ := move_of_hubStep hstep
  exact received_of_move move held

/-! ## Runs -/

theorem received_of_run {actions : List (Nat × HubInput)} {later : Hub} {packetId : PacketId} :
    ∀ hub, run hubStep hub actions = some later →
      (later.rxPublishId packetId).isSome = true →
      (hub.rxPublishId packetId).isSome = true ∨
        ∃ action ∈ actions, Receives packetId action := by
  induction actions with
  | nil =>
    intro hub hrun held
    cases hrun
    exact .inl held
  | cons action rest ih =>
    intro hub hrun held
    obtain ⟨next, hstep, htail⟩ := Option.bind_eq_some_iff.mp hrun
    rcases ih next htail held with held | ⟨a, member, receives⟩
    · exact (received_of_step hstep held).imp_right fun receives =>
        ⟨action, List.mem_cons_self, receives⟩
    · exact .inr ⟨a, List.mem_cons_of_mem _ member, receives⟩

/-- Empty collections are all that a fresh start needs. -/
theorem freshStart_iff {hub : Hub} : FreshStart hub ↔ Clean hub := by
  refine ⟨FreshStart.clean, fun clean => ⟨clean, fun next => ?_, ?_⟩⟩
  · rw [Hub.resend, clean.client_data]
    rfl
  · intro actions later packetId hrun held
    refine (received_of_run hub hrun held).resolve_left ?_
    rw [clean.rx_publish_id packetId]
    exact Bool.false_ne_true

theorem startsFresh_iff {hub hub' : Hub} {action : Nat × HubInput}
    (hstep : hubStep hub action = some hub') :
    StartsFresh hub action ↔ (hub.state ≠ .Connected → hub'.state = .Connected → Clean hub) := by
  constructor
  · intro starts off enters
    exact (clean_iff_of_step hstep (.inl off)).mp (starts hub' hstep off enters).clean
  · intro clean later hlater off enters
    cases hstep.symm.trans hlater
    exact freshStart_iff.mpr ((clean_iff_of_step hstep (.inl off)).mpr (clean off enters))

/-- Off `Connected`, `left` says what the collections are. -/
theorem starts_fresh_of_left (actions : List (Nat × HubInput)) :
    ∀ left hub, (hub.state ≠ .Connected → (left ↔ Clean hub)) →
      (AllSteps hubStep StartsFresh hub actions ↔ LostClean left hub actions) := by
  induction actions with
  | nil => exact fun _ _ _ => Iff.rfl
  | cons action rest ih =>
    intro left hub known
    refine forall_congr' fun hub' => forall_congr' fun hstep => and_congr ?_ (ih _ hub' ?_)
    · rw [startsFresh_iff hstep]
      exact forall_congr' fun off => imp_congr_right fun _ => (known off).symm
    · intro off'
      have frozen := clean_iff_of_step hstep (.inr off')
      by_cases connected : hub.state = .Connected
      · rw [if_pos ⟨connected, off'⟩]
        exact frozen.symm
      · rw [if_neg fun both => connected both.1]
        exact (known connected).trans frozen.symm

theorem LostClean.cons {left : Prop} {hub next : Hub} {action : Nat × HubInput}
    {rest : List (Nat × HubInput)} (hstep : hubStep hub action = some next)
    (enters : hub.state ≠ .Connected → next.state = .Connected → left)
    (tail : LostClean (if hub.state = .Connected ∧ next.state ≠ .Connected then Clean hub else left)
      next rest) : LostClean left hub (action :: rest) := by
  intro hub' hstep'
  cases hstep.symm.trans hstep'
  exact ⟨enters, tail⟩

/-- With a clean session and automatic reconnection, every connection of a run
starts fresh exactly if each one before it was lost with nothing left. -/
theorem starts_fresh_iff_lost_clean {option : Codec.ConnectOptions} {protocol : Protocol}
    (_ : option.cleanSession = true) (_ : option.autoReconnect = true)
    (actions : List (Nat × HubInput)) :
    AllSteps hubStep StartsFresh (Hub.init option.toMqttOptions protocol) actions ↔
      LostClean True (Hub.init option.toMqttOptions protocol) actions :=
  starts_fresh_of_left actions True _ fun _ => iff_of_true trivial ⟨rfl, fun _ => rfl, fun _ => rfl⟩

/-- A clean session with automatic reconnection. -/
def cleanReconnect : Codec.ConnectOptions where
  keepAlive := 60
  autoReconnect := true
  cleanSession := true
  clientId := "c"
  credentials := none
  lastWill := none
  keepAlive_lt := Codec.defaultKeepAlive_lt

/-- The broker ends a connection on which nothing happened, and another one starts. -/
def quietReconnect : List (Nat × HubInput) :=
  [(0, .connect []), (0, .connecting (.Connected false)), (1, .load), (1, .resend),
    (1, .network (.BrokerDisconnect "")), (1, .connect []),
    (1, .connecting (.Connected false)), (2, .load)]

theorem quiet_reconnect_starts_fresh :
    AllSteps hubStep StartsFresh (Hub.init cleanReconnect.toMqttOptions .V4) quietReconnect := by
  refine (starts_fresh_iff_lost_clean rfl rfl quietReconnect).mpr ?_
  refine .cons rfl (fun _ _ => trivial) ?_
  refine .cons rfl (fun _ _ => trivial) ?_
  refine .cons rfl (fun _ _ => trivial) ?_
  refine .cons rfl (fun _ _ => trivial) ?_
  refine .cons rfl (fun _ _ => trivial) ?_
  refine .cons rfl (fun _ _ => ⟨rfl, fun _ => rfl, fun _ => rfl⟩) ?_
  refine .cons rfl (fun _ _ => ⟨rfl, fun _ => rfl, fun _ => rfl⟩) ?_
  exact .cons rfl (fun _ _ => ⟨rfl, fun _ => rfl, fun _ => rfl⟩) trivial

/-- The broker ends a connection while a request and a received publish are in
flight, and another one starts. -/
def busyReconnect : List (Nat × HubInput) :=
  [(0, .connect []), (0, .connecting (.Connected false)), (1, .load), (1, .resend),
    (1, .clientData (.PublishQoS1 (.init .AtLeastOnce "a" [] false .V4 7))),
    (1, .hubMsg (.RxPublish (.new "b" (.AtLeastOnce 5) [1] false .V4))),
    (1, .network (.BrokerDisconnect "")), (1, .connect [])]

/-- The second connection resends the request of the first, and drops a new
publish for the id of the one received before. -/
theorem busy_reconnect_not_fresh :
    cleanReconnect.cleanSession = true ∧ cleanReconnect.autoReconnect = true ∧
      ¬AllSteps hubStep StartsFresh (Hub.init cleanReconnect.toMqttOptions .V4)
        (busyReconnect ++ [(1, .connecting (.Connected false))]) ∧
      ∃ hub, run hubStep (Hub.init cleanReconnect.toMqttOptions .V4)
          (busyReconnect ++ [(1, .connecting (.Connected false)), (2, .load)]) = some hub ∧
        (hub.step 2 .resend).map Outcome.outputs =
          some [.start (.PublishQos1 ⟨.V4, 7, "a", 1, [], false⟩)] ∧
        ∃ later, run hubStep hub [(2, .resend), (2, .resend)] = some later ∧
          (later.step 2 (.hubMsg (.RxPublish (.new "x" (.AtLeastOnce 5) [2] false .V4)))).map
            Outcome.outputs = some [.rxDup (.new "x" (.AtLeastOnce 5) [2] false .V4)] := by
  refine ⟨rfl, rfl, fun starts => ?_, _, rfl, rfl, _, rfl, rfl⟩
  have reconnects := starts.behind
    (rfl : run hubStep (Hub.init cleanReconnect.toMqttOptions .V4) busyReconnect = some _)
  have fresh := (reconnects _ rfl).1 _ rfl nofun rfl
  cases fresh.clean.client_data

end Sessions
