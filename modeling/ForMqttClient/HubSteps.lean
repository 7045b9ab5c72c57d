import ForMqttClient.TaskHub

/-!
# What one hub step can do

`Move` lists the branches of the hub's handlers: the input, the hub after the
step and the outputs, with the conditions under which the branch is taken.
Every step of the hub is one of them, so later proofs split on `Move` and
never open a handler.
-/

namespace HubSteps

open MqttData TaskHub BoundedRing

/-- Where the hub's task stands when no token is being drawn. -/
structure At (hub : Hub) (state : HubState) (position : RunPosition) : Prop where
  draw : hub.drawing = false
  state : hub.state = state
  position : hub.position = position

inductive Move (keepAliveId : Nat) (hub : Hub) : HubInput → Hub → List Output → Prop where
  | load (hdraw : hub.drawing = true) :
      Move keepAliveId hub .load { hub with drawing := false } [.sleep keepAliveId]
  | commandsStop {command : ClientCommand} {rest : List ClientCommand}
      (hat : At hub .ToConnect .loop) :
      Move keepAliveId hub (.connect (command :: rest)) { hub with state := .Disconnected } []
  | startNetwork (hat : At hub .ToConnect .loop) :
      Move keepAliveId hub (.connect []) { hub with position := .connecting } [.startNetwork]
  | connected {sessionPresent : Bool} (hat : At hub .ToConnect .connecting) :
      Move keepAliveId hub (.connecting (.Connected sessionPresent))
        { hub with state := .Connected, position := .resending 0, drawing := true }
        [.fetchAdd, .dispatch (.ConnectSuccess sessionPresent)]
  | turnErr {msg : String} (hat : At hub .ToConnect .connecting) :
      Move keepAliveId hub (.connecting (.ConnectedErr msg)) { hub with position := .loop } []
  | turnFail {reason : ToConnectError} (hat : At hub .ToConnect .connecting)
      (hauto : hub.options.autoReconnect = true) :
      Move keepAliveId hub (.connecting (.ConnectFail reason)) { hub with position := .loop }
        [.dispatch (.ConnectFail reason)]
  | turnDisconnect {packet : String} (hat : At hub .ToConnect .connecting)
      (hauto : hub.options.autoReconnect = true) :
      Move keepAliveId hub (.connecting (.BrokerDisconnect packet)) { hub with position := .loop }
        [.dispatch (.ConnectedErr packet)]
  | giveUpFail {reason : ToConnectError} (hat : At hub .ToConnect .connecting)
      (hauto : hub.options.autoReconnect = false) :
      Move keepAliveId hub (.connecting (.ConnectFail reason))
        { hub with state := .Disconnected, position := .loop } [.dispatch (.ConnectFail reason)]
  | giveUpDisconnect {packet : String} (hat : At hub .ToConnect .connecting)
      (hauto : hub.options.autoReconnect = false) :
      Move keepAliveId hub (.connecting (.BrokerDisconnect packet))
        { hub with state := .Disconnected, position := .loop } [.dispatch (.ConnectedErr packet)]
  | resendEntry {next : Nat} {entry : UnacknowledgedClientData}
      (hat : At hub .Connected (.resending next)) (hentry : hub.clientData[next]? = some entry) :
      Move keepAliveId hub .resend { hub with position := .resending (next + 1) }
        [.start entry.toAcknowledge]
  | resendEnd {next : Nat} (hat : At hub .Connected (.resending next))
      (hnone : hub.clientData[next]? = none) :
      Move keepAliveId hub .resend { hub with position := .loop } []
  | commandDrop (hat : At hub .Connected .loop) :
      Move keepAliveId hub (.command .DisconnectAndDrop)
        { hub with state := .ToDisconnect .ClientCommand } []
  | commandViolence (hat : At hub .Connected .loop) :
      Move keepAliveId hub (.command .ViolenceDisconnectAndDrop)
        { hub with state := .Disconnected } []
  | connectedErr {msg : String} (hat : At hub .Connected .loop) :
      Move keepAliveId hub (.network (.ConnectedErr msg))
        { hub with state := .ToDisconnect (.NetworkErr msg) } [.dispatch (.ConnectedErr msg)]
  | lateConnected {sessionPresent : Bool} (hat : At hub .Connected .loop) :
      Move keepAliveId hub (.network (.Connected sessionPresent)) hub []
  | lateFail {reason : ToConnectError} (hat : At hub .Connected .loop) :
      Move keepAliveId hub (.network (.ConnectFail reason)) hub []
  | brokerDisconnect {packet : String} (hat : At hub .Connected .loop) :
      Move keepAliveId hub (.network (.BrokerDisconnect packet))
        { hub with state := if hub.options.autoReconnect then .ToConnect else .Disconnected }
        [.dispatch (.ConnectedErr packet)]
  | publishQoS0 {packet : TracePublishQos .AtMostOnce} (hat : At hub .Connected .loop) :
      Move keepAliveId hub (.clientData (.PublishQoS0 packet)) hub [.start (.PublishQos0 packet)]
  | accept {data : ClientData} {entry : UnacknowledgedClientData}
      {pool : Ring PacketId poolCapacity} (hat : At hub .Connected .loop)
      (hid : entry.id = data.id) (hpop : hub.pool.pop = some (entry.packetId, pool))
      (hfresh : ∀ packetId id protocol, entry ≠ .PubRel packetId id protocol) :
      Move keepAliveId hub (.clientData data)
        { hub with pool := pool, clientData := hub.clientData ++ [entry] }
        [.accepted entry, .start entry.toAcknowledge]
  | refuse {data : ClientData} (hat : At hub .Connected .loop)
      (hpop : hub.pool.pop = none) :
      Move keepAliveId hub (.clientData data) hub []
  | recoverNone {packetId : PacketId} (hat : At hub .Connected .loop)
      (hnone : ∀ entry ∈ hub.clientData, entry.packetId ≠ packetId) :
      Move keepAliveId hub (.hubMsg (.RecoverId packetId)) hub []
  | recoverDone {packetId : PacketId} {index : Nat} {entry : UnacknowledgedClientData}
      {pool : Ring PacketId poolCapacity} (hat : At hub .Connected .loop)
      (hfind : hub.clientData.findIdx? (fun obj => obj.packetId = packetId) = some index)
      (hentry : hub.clientData[index]? = some entry)
      (hdone : entry.acknowledge.2 = true)
      (hpush : hub.pool.push packetId = some pool ∨
        hub.pool.push packetId = none ∧ pool = hub.pool) :
      Move keepAliveId hub (.hubMsg (.RecoverId packetId))
        { hub with
          clientData := hub.clientData.eraseIdx index
          drawing := true
          pool := pool }
        [.fetchAdd]
  | recoverRel {packetId : PacketId} {index : Nat} {packet : TracePublishQos .ExactlyOnce}
      (hat : At hub .Connected .loop)
      (hfind : hub.clientData.findIdx? (fun obj => obj.packetId = packetId) = some index)
      (hentry : hub.clientData[index]? = some (.PublishQoS2 packet)) :
      Move keepAliveId hub (.hubMsg (.RecoverId packetId))
        { hub with
          clientData :=
            hub.clientData.set index (.PubRel packet.packetId packet.id packet.protocol) }
        [.start (.PublishQos2Rel packet.packetId packet.id packet.protocol)]
  | pingSuccess (hat : At hub .Connected .loop) :
      Move keepAliveId hub (.hubMsg .PingSuccess) { hub with drawing := true } [.fetchAdd]
  | pingFail (hat : At hub .Connected .loop) :
      Move keepAliveId hub (.hubMsg .PingFail) { hub with state := .ToDisconnect .PingFail }
        [.dispatch (.ConnectedErr "ping fail")]
  | keepAlive (hat : At hub .Connected .loop) :
      Move keepAliveId hub (.hubMsg (.KeepAlive keepAliveId)) hub [.startPing]
  | keepAliveOld {time : Nat} (hat : At hub .Connected .loop)
      (hold : time ≠ keepAliveId) :
      Move keepAliveId hub (.hubMsg (.KeepAlive time)) hub []
  | rxQos0 {publish : Publish} (hat : At hub .Connected .loop)
      (hqos : publish.qos = .AtMostOnce) :
      Move keepAliveId hub (.hubMsg (.RxPublish publish)) hub [.dispatch (.Publish publish)]
  | rxDup {publish : Publish} {packetId : PacketId} (hat : At hub .Connected .loop)
      (hid : publish.qos.packetId = some packetId)
      (hheld : (hub.rxPublishId packetId).isSome = true) :
      Move keepAliveId hub (.hubMsg (.RxPublish publish)) hub [.rxDup publish]
  | rxAccept {publish : Publish} {packetId : PacketId} {protocol : Protocol} {spec : TaskSpec}
      (hat : At hub .Connected .loop)
      (hfree : hub.rxPublishId packetId = none)
      (hspec : publish.qos = .AtLeastOnce packetId ∧ spec = .PublishRxQos1 packetId protocol ∨
        publish.qos = .ExactlyOnce packetId ∧ spec = .PublishRxQos2 packetId protocol) :
      Move keepAliveId hub (.hubMsg (.RxPublish publish))
        { hub with
          rxPublish := Function.update hub.rxPublish packetId (some publish)
          rxPublishId := Function.update hub.rxPublishId packetId (some packetId) }
        [.rxAccepted publish, .start spec]
  | affirmRxId {packetId : PacketId} (hat : At hub .Connected .loop) :
      Move keepAliveId hub (.hubMsg (.AffirmRxId packetId))
        { hub with rxPublishId := Function.update hub.rxPublishId packetId none } []
  | affirmRxPublish {packetId : PacketId} {publish : Publish} (hat : At hub .Connected .loop)
      (hheld : hub.rxPublish packetId = some publish) :
      Move keepAliveId hub (.hubMsg (.AffirmRxPublish packetId))
        { hub with rxPublish := Function.update hub.rxPublish packetId none }
        [.dispatch (.Publish publish)]
  | affirmRxPublishNone {packetId : PacketId} (hat : At hub .Connected .loop)
      (hheld : hub.rxPublish packetId = none) :
      Move keepAliveId hub (.hubMsg (.AffirmRxPublish packetId)) hub []
  | disconnect {reason : ToDisconnectReason} {next : HubState}
      (hat : At hub (.ToDisconnect reason) .loop) (hnext : next = .ToConnect ∨ next = .Disconnected) :
      Move keepAliveId hub .disconnect { hub with state := next } [.disconnect]

/-- What the search of the `RecoverId` branch finds. -/
theorem findEntry_spec {hub : Hub} {packetId : PacketId} {index : Nat}
    (h : hub.clientData.findIdx? (fun obj => obj.packetId = packetId) = some index) :
    ∃ obj, hub.clientData[index]? = some obj ∧ obj.packetId = packetId := by
  obtain ⟨hlt, hp, _⟩ := List.findIdx?_eq_some_iff_getElem.mp h
  exact ⟨hub.clientData[index], List.getElem?_eq_getElem hlt, by simpa using hp⟩

theorem found_packetId {hub : Hub} {packetId : PacketId} {index : Nat}
    {entry : UnacknowledgedClientData}
    (h : hub.clientData.findIdx? (fun obj => obj.packetId = packetId) = some index)
    (hentry : hub.clientData[index]? = some entry) : entry.packetId = packetId := by
  obtain ⟨obj, hobj, hid⟩ := findEntry_spec h
  cases hentry.symm.trans hobj
  exact hid

/-- Where the hub stands when it takes an input. -/
def Awaits (hub : Hub) : HubInput → Prop
  | .load => hub.drawing = true
  | .connect _ => At hub .ToConnect .loop
  | .connecting _ => At hub .ToConnect .connecting
  | .resend => ∃ next, At hub .Connected (.resending next)
  | .command _ | .network _ | .clientData _ | .hubMsg _ => At hub .Connected .loop
  | .disconnect => ∃ reason, At hub (.ToDisconnect reason) .loop

theorem Move.awaits {keepAliveId : Nat} {hub hub' : Hub} {input : HubInput}
    {outputs : List Output} (h : Move keepAliveId hub input hub' outputs) : Awaits hub input := by
  cases h with
  | load hdraw => exact hdraw
  | resendEntry hat _ => exact ⟨_, hat⟩
  | resendEnd hat _ => exact ⟨_, hat⟩
  | disconnect hat _ => exact ⟨_, hat⟩
  | _ => assumption

section Handlers

variable {keepAliveId : Nat} {hub : Hub}

/-- The branch of a handler, read off the outcome. -/
def Took (keepAliveId : Nat) (hub : Hub) (input : HubInput) (outcome : Outcome) : Prop :=
  Move keepAliveId hub input outcome.hub outcome.outputs

theorem acceptRequest_took (hat : At hub .Connected .loop) {data : ClientData}
    (entry : PacketId → UnacknowledgedClientData) (spec : PacketId → TaskSpec)
    (hpacketId : ∀ packetId, (entry packetId).packetId = packetId)
    (hid : ∀ packetId, (entry packetId).id = data.id)
    (hfresh : ∀ packetId packetId' id protocol, entry packetId ≠ .PubRel packetId' id protocol)
    (hspec : ∀ packetId, spec packetId = (entry packetId).toAcknowledge) :
    Took keepAliveId hub (.clientData data) (hub.acceptRequest entry spec) := by
  cases hpop : hub.pool.pop with
  | none =>
    have : hub.acceptRequest entry spec =
        ⟨hub, [], .error (.PacketIdErr "buffer of packet id is empty")⟩ := by
      simp [Hub.acceptRequest, Hub.requestId, hpop]
    rw [this]
    exact .refuse hat hpop
  | some popped =>
    obtain ⟨packetId, pool⟩ := popped
    have : hub.acceptRequest entry spec =
        ⟨{ hub with pool := pool, clientData := hub.clientData ++ [entry packetId] },
          [.accepted (entry packetId), .start (entry packetId).toAcknowledge], .ok ()⟩ := by
      simp [Hub.acceptRequest, Hub.requestId, hpop, hspec]
    rw [this]
    refine .accept hat (hid packetId) ?_ (hfresh packetId)
    rw [hpacketId, hpop]

theorem dealClientData_took (hat : At hub .Connected .loop) (data : ClientData) :
    Took keepAliveId hub (.clientData data) (hub.dealClientDataWhenConnected data) := by
  cases data with
  | PublishQoS0 packet => exact .publishQoS0 hat
  | PublishQoS1 packet =>
    apply acceptRequest_took hat <;> intros <;> first | rfl | exact nofun
  | PublishQoS2 packet =>
    apply acceptRequest_took hat <;> intros <;> first | rfl | exact nofun
  | Subscribe trace =>
    apply acceptRequest_took hat <;> intros <;>
      first | rfl | exact Subscribe.packetId_setPacketId _ _ | exact nofun
  | Unsubscribe trace =>
    apply acceptRequest_took hat <;> intros <;>
      first | rfl | exact Unsubscribe.packetId_setPacketId _ _ | exact nofun

theorem recoverId_took (hat : At hub .Connected .loop) (packetId : PacketId) :
    Took keepAliveId hub (.hubMsg (.RecoverId packetId)) (hub.recoverId packetId) := by
  cases hfind : hub.clientData.findIdx? (fun obj => obj.packetId = packetId) with
  | none =>
    have : hub.recoverId packetId = ⟨hub, [], .ok ()⟩ := by simp [Hub.recoverId, hfind]
    rw [this]
    refine .recoverNone hat ?_
    intro entry hentry
    simpa using List.findIdx?_eq_none_iff.mp hfind entry hentry
  | some index =>
    obtain ⟨entry, hentry, hid⟩ := findEntry_spec hfind
    by_cases hdone : entry.acknowledge.2 = true
    · cases hpush : hub.pool.push packetId with
      | some pool =>
        simp only [Took, Hub.recoverId, hfind, hentry, hdone, hpush, if_true]
        exact .recoverDone hat hfind hentry hdone (.inl hpush)
      | none =>
        simp only [Took, Hub.recoverId, hfind, hentry, hdone, hpush, if_true]
        exact .recoverDone hat hfind hentry hdone (.inr ⟨hpush, rfl⟩)
    · cases entry with
      | PublishQoS2 packet =>
        simp only [Took, Hub.recoverId, hfind, hentry]
        exact .recoverRel hat hfind hentry
      | PublishQoS1 _ => exact absurd rfl hdone
      | PubRel _ _ _ => exact absurd rfl hdone
      | Subscribe _ => exact absurd rfl hdone
      | Unsubscribe _ => exact absurd rfl hdone

theorem rxPublishMsg_took (hat : At hub .Connected .loop) (publish : Publish) :
    Took keepAliveId hub (.hubMsg (.RxPublish publish)) (hub.rxPublishMsg publish) := by
  cases hqos : publish.qos with
  | AtMostOnce =>
    simp only [Took, Hub.rxPublishMsg, hqos]
    exact .rxQos0 hat hqos
  | AtLeastOnce packetId =>
    cases hheld : hub.rxPublishId packetId with
    | none =>
      simp only [Took, Hub.rxPublishMsg, hqos, hheld, Option.isSome_none, Bool.false_eq_true,
        if_false]
      exact .rxAccept hat hheld (.inl ⟨hqos, rfl⟩)
    | some _ =>
      simp only [Took, Hub.rxPublishMsg, hqos, hheld, Option.isSome_some, if_true]
      exact .rxDup hat (by rw [hqos]; rfl) (by rw [hheld]; rfl)
  | ExactlyOnce packetId =>
    cases hheld : hub.rxPublishId packetId with
    | none =>
      simp only [Took, Hub.rxPublishMsg, hqos, hheld, Option.isSome_none, Bool.false_eq_true,
        if_false]
      exact .rxAccept hat hheld (.inr ⟨hqos, rfl⟩)
    | some _ =>
      simp only [Took, Hub.rxPublishMsg, hqos, hheld, Option.isSome_some, if_true]
      exact .rxDup hat (by rw [hqos]; rfl) (by rw [hheld]; rfl)

theorem dealHubMsg_took (hat : At hub .Connected .loop) (msg : HubMsg) :
    Took keepAliveId hub (.hubMsg msg) (hub.dealHubMsg keepAliveId msg) := by
  cases msg with
  | RecoverId packetId => exact recoverId_took hat packetId
  | PingSuccess => exact .pingSuccess hat
  | PingFail => exact .pingFail hat
  | KeepAlive time =>
    by_cases htime : time = keepAliveId
    · subst htime
      simp only [Took, Hub.dealHubMsg, if_true]
      exact .keepAlive hat
    · simp only [Took, Hub.dealHubMsg, htime, if_false]
      exact .keepAliveOld hat htime
  | RxPublish publish => exact rxPublishMsg_took hat publish
  | AffirmRxId packetId => exact .affirmRxId hat
  | AffirmRxPublish packetId =>
    cases hheld : hub.rxPublish packetId with
    | some publish =>
      simp only [Took, Hub.dealHubMsg, hheld]
      exact .affirmRxPublish hat hheld
    | none =>
      simp only [Took, Hub.dealHubMsg, hheld]
      exact .affirmRxPublishNone hat hheld

/-- A command seen before an attempt ends the hub. -/
theorem tryDealClientCommand_cons (hub : Hub) (command : ClientCommand)
    (rest : List ClientCommand) :
    (hub.tryDealClientCommandWhenToConnect (command :: rest)).1 =
      { hub with state := .Disconnected } := by
  induction rest generalizing hub command with
  | nil => cases command <;> rfl
  | cons next rest ih =>
    cases command with
    | DisconnectAndDrop => exact ih { hub with state := .Disconnected } next
    | ViolenceDisconnectAndDrop => rfl

theorem runToConnect_took (hat : At hub .ToConnect .loop) (commands : List ClientCommand) :
    Took keepAliveId hub (.connect commands) (hub.runToConnect commands) := by
  cases commands with
  | nil =>
    have : hub.runToConnect [] =
        ⟨{ hub with position := .connecting }, [.startNetwork], .ok ()⟩ := by
      simp only [Hub.runToConnect, Hub.tryDealClientCommandWhenToConnect]
      exact if_pos hat.state
    rw [this]
    exact .startNetwork hat
  | cons command rest =>
    have stopped := tryDealClientCommand_cons hub command rest
    have : (hub.runToConnect (command :: rest)).hub = { hub with state := .Disconnected } ∧
        (hub.runToConnect (command :: rest)).outputs = [] := by
      cases hres : hub.tryDealClientCommandWhenToConnect (command :: rest) with
      | mk after result =>
        obtain rfl : after = { hub with state := .Disconnected } := by rw [← stopped, hres]
        cases result <;> simp [Hub.runToConnect, hres]
    rw [Took, this.1, this.2]
    exact .commandsStop hat

theorem runToConnectEvent_took (hat : At hub .ToConnect .connecting) (event : NetworkEvent) :
    Took keepAliveId hub (.connecting event) (hub.runToConnectEvent event) := by
  cases event with
  | Connected sessionPresent => exact .connected hat
  | ConnectedErr msg => exact .turnErr hat
  | ConnectFail reason =>
    cases hauto : hub.options.autoReconnect with
    | true =>
      simp only [Took, Hub.runToConnectEvent, Hub.connectAgain, hauto, if_true]
      exact .turnFail hat hauto
    | false =>
      simp only [Took, Hub.runToConnectEvent, Hub.connectAgain, hauto, Bool.false_eq_true, if_false]
      exact .giveUpFail hat hauto
  | BrokerDisconnect packet =>
    cases hauto : hub.options.autoReconnect with
    | true =>
      simp only [Took, Hub.runToConnectEvent, Hub.connectAgain, hauto, if_true]
      exact .turnDisconnect hat hauto
    | false =>
      simp only [Took, Hub.runToConnectEvent, Hub.connectAgain, hauto, Bool.false_eq_true, if_false]
      exact .giveUpDisconnect hat hauto

theorem resend_took {next : Nat} (hat : At hub .Connected (.resending next)) :
    Took keepAliveId hub .resend (hub.resend next) := by
  cases hentry : hub.clientData[next]? with
  | some entry =>
    simp only [Took, Hub.resend, hentry]
    exact .resendEntry hat hentry
  | none =>
    simp only [Took, Hub.resend, hentry]
    exact .resendEnd hat hentry

theorem command_took (hat : At hub .Connected .loop) (command : ClientCommand) :
    Took keepAliveId hub (.command command) (hub.dealClientCommandWhenConnected command) := by
  cases command with
  | DisconnectAndDrop => exact .commandDrop hat
  | ViolenceDisconnectAndDrop => exact .commandViolence hat

theorem network_took (hat : At hub .Connected .loop) (event : NetworkEvent) :
    Took keepAliveId hub (.network event) (hub.updateConnectedStateByNetworkStatus event) := by
  cases event with
  | Connected sessionPresent => exact .lateConnected hat
  | ConnectFail reason => exact .lateFail hat
  | ConnectedErr msg => exact .connectedErr hat
  | BrokerDisconnect packet => exact .brokerDisconnect hat

theorem runToDisconnect_took {reason : ToDisconnectReason}
    (hat : At hub (.ToDisconnect reason) .loop) :
    Took keepAliveId hub .disconnect (hub.runToDisconnect reason) := by
  refine .disconnect hat ?_
  cases reason with
  | ClientCommand => exact .inr rfl
  | PingFail =>
    by_cases hauto : hub.options.autoReconnect = true
    · exact .inl (if_pos hauto)
    · exact .inr (if_neg hauto)
  | NetworkErr msg =>
    by_cases hauto : hub.options.autoReconnect = true
    · exact .inl (if_pos hauto)
    · exact .inr (if_neg hauto)

end Handlers

/-- Every step of the hub is one of the moves. -/
theorem move_of_step {keepAliveId : Nat} {hub : Hub} {input : HubInput} {outcome : Outcome}
    (h : hub.step keepAliveId input = some outcome) :
    Move keepAliveId hub input outcome.hub outcome.outputs := by
  unfold Hub.step at h
  by_cases hdraw : hub.drawing = true
  · rw [if_pos hdraw] at h
    split at h
    · exact Option.some.inj h ▸ .load hdraw
    · cases h
  · rw [if_neg hdraw] at h
    have idle : hub.drawing = false := by simpa using hdraw
    split at h
    · next hstate hpos => exact Option.some.inj h ▸ runToConnect_took ⟨idle, hstate, hpos⟩ _
    · next hstate hpos => exact Option.some.inj h ▸ runToConnectEvent_took ⟨idle, hstate, hpos⟩ _
    · next hstate hpos => exact Option.some.inj h ▸ resend_took ⟨idle, hstate, hpos⟩
    · next hstate hpos => exact Option.some.inj h ▸ command_took ⟨idle, hstate, hpos⟩ _
    · next hstate hpos => exact Option.some.inj h ▸ network_took ⟨idle, hstate, hpos⟩ _
    · next hstate hpos => exact Option.some.inj h ▸ dealClientData_took ⟨idle, hstate, hpos⟩ _
    · next hstate hpos => exact Option.some.inj h ▸ dealHubMsg_took ⟨idle, hstate, hpos⟩ _
    · next hstate hpos => exact Option.some.inj h ▸ runToDisconnect_took ⟨idle, hstate, hpos⟩
    · cases h

end HubSteps
