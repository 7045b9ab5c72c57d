import ForMqttClient.BoundedRing
import ForMqttClient.MqttData
import Mathlib.Logic.Function.Basic

/-!
# The hub

`TaskHub` owns the session state: the requests that wait for an
acknowledgement, the pool of packet ids and the ids of received publishes. Its
handlers are pure functions; what a handler puts on the bus or spawns is the
list of its outputs, in order. The hub is an open system here: every input may
come at any moment at which `run` waits for it.
-/

namespace TaskHub

open MqttData BoundedRing

/-- `u16::MAX`, the capacity of the packet id ring. -/
def poolCapacity : Nat := 65535

inductive HubMsg where
  | RecoverId (packetId : PacketId)
  | PingSuccess
  | PingFail
  | KeepAlive (time : Nat)
  | RxPublish (publish : Publish)
  | AffirmRxId (packetId : PacketId)
  | AffirmRxPublish (packetId : PacketId)
  deriving DecidableEq, Repr

inductive NetworkEvent where
  | Connected (sessionPresent : Bool)
  | ConnectFail (reason : ToConnectError)
  | ConnectedErr (msg : String)
  | BrokerDisconnect (packet : String)
  deriving DecidableEq, Repr

inductive ToDisconnectReason where
  | PingFail
  | NetworkErr (msg : String)
  | ClientCommand
  deriving DecidableEq, Repr

inductive HubState where
  | ToConnect
  | Connected
  | ToDisconnect (reason : ToDisconnectReason)
  | Disconnected
  deriving DecidableEq, Repr

inductive HubError where
  | ChannelAbnormal
  | PacketIdErr (msg : String)
  | ViolenceDisconnectAndDrop
  | Other (msg : String)
  deriving DecidableEq, Repr

/-- The tasks that the hub spawns, with the arguments of their `init`. -/
inductive TaskSpec where
  | PublishQos0 (trace : TracePublishQos .AtMostOnce)
  | PublishQos1 (trace : TracePublishQos .AtLeastOnce)
  | PublishQos2 (trace : TracePublishQos .ExactlyOnce)
  | PublishQos2Rel (packetId : PacketId) (id : TraceId) (protocol : Protocol)
  | Subscribe (trace : TraceSubscribe)
  | Unsubscribe (trace : TraceUnubscribe)
  | PublishRxQos1 (packetId : PacketId) (protocol : Protocol)
  | PublishRxQos2 (packetId : PacketId) (protocol : Protocol)
  deriving DecidableEq, Repr

inductive UnacknowledgedClientData where
  | PublishQoS1 (packet : TracePublishQos .AtLeastOnce)
  | PublishQoS2 (packet : TracePublishQos .ExactlyOnce)
  | PubRel (packetId : PacketId) (id : TraceId) (protocol : Protocol)
  | Subscribe (packet : TraceSubscribe)
  | Unsubscribe (packet : TraceUnubscribe)
  deriving DecidableEq, Repr

namespace UnacknowledgedClientData

def packetId : UnacknowledgedClientData → PacketId
  | .PubRel packetId _ _ => packetId
  | .Subscribe packet => packet.packetId
  | .Unsubscribe packet => packet.packetId
  | .PublishQoS1 packet => packet.packetId
  | .PublishQoS2 packet => packet.packetId

/-- The trace id of the request. -/
def id : UnacknowledgedClientData → TraceId
  | .PubRel _ id _ => id
  | .Subscribe packet => packet.id
  | .Unsubscribe packet => packet.id
  | .PublishQoS1 packet => packet.id
  | .PublishQoS2 packet => packet.id

/-- The entry after `acknowledge`, with the `is_completed` that it returns. -/
def acknowledge : UnacknowledgedClientData → UnacknowledgedClientData × Bool
  | .PublishQoS2 packet => (.PubRel packet.packetId packet.id packet.protocol, false)
  | entry => (entry, true)

/-- The task that `to_acknowledge` starts. -/
def toAcknowledge : UnacknowledgedClientData → TaskSpec
  | .PublishQoS1 packet => .PublishQos1 packet
  | .PublishQoS2 packet => .PublishQos2 packet
  | .PubRel packetId id protocol => .PublishQos2Rel packetId id protocol
  | .Subscribe packet => .Subscribe packet
  | .Unsubscribe packet => .Unsubscribe packet

end UnacknowledgedClientData

/-- Where `run` stands: at one of its two loops, in `run_to_connect` waiting
for a network event, or in the resend loop after a connect. -/
inductive RunPosition where
  | loop
  | connecting
  | resending (next : Nat)
  deriving DecidableEq, Repr

structure Hub where
  protocol : Protocol
  options : MqttOptions
  state : HubState
  position : RunPosition
  /-- `KeepAliveTime::default()` stands between its `fetch_add` and its `load`. -/
  drawing : Bool
  rxPublish : PacketId → Option Publish
  rxPublishId : PacketId → Option PacketId
  clientData : List UnacknowledgedClientData
  pool : Ring PacketId poolCapacity

/-- The ring after `for i in 1..=u16::MAX { a.push(i) }`. -/
def initialPool : Ring PacketId poolCapacity where
  items := List.range' 1 poolCapacity
  bounded := by simp

def Hub.init (options : MqttOptions) (protocol : Protocol) : Hub where
  protocol := protocol
  options := options
  state := .ToConnect
  position := .loop
  drawing := false
  rxPublish := fun _ => none
  rxPublishId := fun _ => none
  clientData := []
  pool := initialPool

/-- What a handler does on the bus or spawns. `accepted` and `rxAccepted` only
mark in the history that a request or a received publish was taken in. -/
inductive Output where
  | dispatch (event : MqttEvent)
  | disconnect
  | start (spec : TaskSpec)
  | startPing
  | startNetwork
  | fetchAdd
  | sleep (time : Nat)
  | accepted (entry : UnacknowledgedClientData)
  | rxAccepted (publish : Publish)
  | rxDup (publish : Publish)
  deriving DecidableEq, Repr

structure Outcome where
  hub : Hub
  outputs : List Output
  result : Except HubError Unit

namespace Hub

/-- First half of `init_keep_alive_check`: the `fetch_add`. -/
def initKeepAliveCheck (hub : Hub) : Hub := { hub with drawing := true }

/-- `request_id`. -/
def requestId (hub : Hub) : Option (PacketId × Hub) :=
  match hub.pool.pop with
  | some (packetId, pool) => some (packetId, { hub with pool := pool })
  | none => none

/-- The shape that the four acknowledged request kinds share: take an id,
append the entry, start the task. -/
def acceptRequest (hub : Hub) (entry : PacketId → UnacknowledgedClientData)
    (spec : PacketId → TaskSpec) : Outcome :=
  match hub.requestId with
  | none => ⟨hub, [], .error (.PacketIdErr "buffer of packet id is empty")⟩
  | some (packetId, hub) =>
    ⟨{ hub with clientData := hub.clientData ++ [entry packetId] },
      [.accepted (entry packetId), .start (spec packetId)], .ok ()⟩

def dealClientDataWhenConnected (hub : Hub) : ClientData → Outcome
  | .Subscribe trace =>
    let set packetId : TraceSubscribe :=
      { trace with subscribe := trace.subscribe.setPacketId packetId }
    hub.acceptRequest (fun packetId => .Subscribe (set packetId))
      (fun packetId => .Subscribe (set packetId))
  | .Unsubscribe trace =>
    let set packetId : TraceUnubscribe :=
      { trace with unsubscribe := trace.unsubscribe.setPacketId packetId }
    hub.acceptRequest (fun packetId => .Unsubscribe (set packetId))
      (fun packetId => .Unsubscribe (set packetId))
  | .PublishQoS0 packet => ⟨hub, [.start (.PublishQos0 packet)], .ok ()⟩
  | .PublishQoS1 packet =>
    let set packetId : TracePublishQos .AtLeastOnce := { packet with packetId := packetId }
    hub.acceptRequest (fun packetId => .PublishQoS1 (set packetId))
      (fun packetId => .PublishQos1 (set packetId))
  | .PublishQoS2 packet =>
    let set packetId : TracePublishQos .ExactlyOnce := { packet with packetId := packetId }
    hub.acceptRequest (fun packetId => .PublishQoS2 (set packetId))
      (fun packetId => .PublishQos2 (set packetId))

/-- The `RecoverId` branch of `deal_hub_msg`. -/
def recoverId (hub : Hub) (packetId : PacketId) : Outcome :=
  match hub.clientData.findIdx? (fun obj => obj.packetId = packetId) with
  | none => ⟨hub, [], .ok ()⟩
  | some index =>
    match hub.clientData[index]? with
    | none => ⟨hub, [], .ok ()⟩
    | some obj =>
      if obj.acknowledge.2 then
        let hub := { hub with clientData := hub.clientData.eraseIdx index }
        match hub.pool.push packetId with
        | some pool =>
          ⟨{ hub.initKeepAliveCheck with pool := pool }, [.fetchAdd], .ok ()⟩
        | none =>
          ⟨hub.initKeepAliveCheck, [.fetchAdd], .error (.PacketIdErr "RecoverId Err")⟩
      else
        ⟨{ hub with clientData := hub.clientData.set index obj.acknowledge.1 },
          [.start obj.acknowledge.1.toAcknowledge], .ok ()⟩

/-- The `RxPublish` branch. The two acknowledged QoS levels differ in the
protocol that their task is given. -/
def rxPublishMsg (hub : Hub) (publish : Publish) : Outcome :=
  match publish.qos with
  | .AtMostOnce => ⟨hub, [.dispatch (.Publish publish)], .ok ()⟩
  | .AtLeastOnce packetId =>
    if (hub.rxPublishId packetId).isSome then ⟨hub, [.rxDup publish], .ok ()⟩
    else
      ⟨{ hub with
          rxPublish := Function.update hub.rxPublish packetId (some publish)
          rxPublishId := Function.update hub.rxPublishId packetId (some packetId) },
        [.rxAccepted publish, .start (.PublishRxQos1 packetId hub.protocol)], .ok ()⟩
  | .ExactlyOnce packetId =>
    if (hub.rxPublishId packetId).isSome then ⟨hub, [.rxDup publish], .ok ()⟩
    else
      ⟨{ hub with
          rxPublish := Function.update hub.rxPublish packetId (some publish)
          rxPublishId := Function.update hub.rxPublishId packetId (some packetId) },
        [.rxAccepted publish, .start (.PublishRxQos2 packetId publish.protocol)], .ok ()⟩

/-- `deal_hub_msg`; `keepAliveId` is the value of `KEEP_ALIVE_ID`, read by
`latest()`. -/
def dealHubMsg (keepAliveId : Nat) (hub : Hub) : HubMsg → Outcome
  | .RecoverId packetId => hub.recoverId packetId
  | .PingSuccess => ⟨hub.initKeepAliveCheck, [.fetchAdd], .ok ()⟩
  | .PingFail =>
    ⟨{ hub with state := .ToDisconnect .PingFail },
      [.dispatch (.ConnectedErr "ping fail")], .ok ()⟩
  | .KeepAlive time =>
    if time = keepAliveId then ⟨hub, [.startPing], .ok ()⟩ else ⟨hub, [], .ok ()⟩
  | .RxPublish publish => hub.rxPublishMsg publish
  | .AffirmRxId packetId =>
    ⟨{ hub with rxPublishId := Function.update hub.rxPublishId packetId none }, [], .ok ()⟩
  | .AffirmRxPublish packetId =>
    match hub.rxPublish packetId with
    | some publish =>
      ⟨{ hub with rxPublish := Function.update hub.rxPublish packetId none },
        [.dispatch (.Publish publish)], .ok ()⟩
    | none => ⟨hub, [], .ok ()⟩

def updateConnectedStateByNetworkStatus (hub : Hub) : NetworkEvent → Outcome
  | .ConnectedErr msg =>
    ⟨{ hub with state := .ToDisconnect (.NetworkErr msg) },
      [.dispatch (.ConnectedErr msg)], .ok ()⟩
  | .Connected _ => ⟨hub, [], .ok ()⟩
  | .ConnectFail _ => ⟨hub, [], .ok ()⟩
  | .BrokerDisconnect packet =>
    ⟨{ hub with state := if hub.options.autoReconnect then .ToConnect else .Disconnected },
      [.dispatch (.ConnectedErr packet)], .ok ()⟩

def dealClientCommandWhenConnected (hub : Hub) : ClientCommand → Outcome
  | .DisconnectAndDrop => ⟨{ hub with state := .ToDisconnect .ClientCommand }, [], .ok ()⟩
  | .ViolenceDisconnectAndDrop =>
    ⟨{ hub with state := .Disconnected }, [], .error .ViolenceDisconnectAndDrop⟩

/-- `commands` are those that `try_recv` finds in the queue. -/
def tryDealClientCommandWhenToConnect (hub : Hub) :
    List ClientCommand → Hub × Except HubError Unit
  | [] => (hub, .ok ())
  | .DisconnectAndDrop :: rest =>
    { hub with state := .Disconnected }.tryDealClientCommandWhenToConnect rest
  | .ViolenceDisconnectAndDrop :: _ =>
    ({ hub with state := .Disconnected }, .error .ViolenceDisconnectAndDrop)

/-- One turn of the loop of `run_to_connect`, up to the wait for an event. -/
def runToConnect (hub : Hub) (commands : List ClientCommand) : Outcome :=
  match hub.tryDealClientCommandWhenToConnect commands with
  | (hub, .error e) => ⟨hub, [], .error e⟩
  | (hub, .ok ()) =>
    if hub.state = .ToConnect then
      ⟨{ hub with position := .connecting }, [.startNetwork], .ok ()⟩
    else ⟨hub, [], .ok ()⟩

/-- The two branches of `run_to_connect` after a failed attempt. -/
def connectAgain (hub : Hub) (event : MqttEvent) : Outcome :=
  if hub.options.autoReconnect then
    ⟨{ hub with position := .loop }, [.dispatch event], .ok ()⟩
  else
    ⟨{ hub with state := .Disconnected, position := .loop }, [.dispatch event],
      .error .ChannelAbnormal⟩

/-- The event match of `run_to_connect`. -/
def runToConnectEvent (hub : Hub) : NetworkEvent → Outcome
  | .Connected sessionPresent =>
    ⟨{ hub.initKeepAliveCheck with state := .Connected, position := .resending 0 },
      [.fetchAdd, .dispatch (.ConnectSuccess sessionPresent)], .ok ()⟩
  | .ConnectedErr _ => ⟨{ hub with position := .loop }, [], .ok ()⟩
  | .ConnectFail reason => hub.connectAgain (.ConnectFail reason)
  | .BrokerDisconnect packet => hub.connectAgain (.ConnectedErr packet)

/-- One turn of `for data in self.client_data.iter()`. -/
def resend (hub : Hub) (next : Nat) : Outcome :=
  match hub.clientData[next]? with
  | some data =>
    ⟨{ hub with position := .resending (next + 1) }, [.start data.toAcknowledge], .ok ()⟩
  | none => ⟨{ hub with position := .loop }, [], .ok ()⟩

/-- The `ToDisconnect` arm of `run`. -/
def runToDisconnect (hub : Hub) (reason : ToDisconnectReason) : Outcome :=
  let next : HubState :=
    match reason with
    | .ClientCommand => .Disconnected
    | .PingFail | .NetworkErr _ =>
      if hub.options.autoReconnect then .ToConnect else .Disconnected
  ⟨{ hub with state := next }, [.disconnect], .ok ()⟩

end Hub

/-- What the hub can be given next. -/
inductive HubInput where
  | connect (commands : List ClientCommand)
  | connecting (event : NetworkEvent)
  | resend
  | command (command : ClientCommand)
  | network (event : NetworkEvent)
  | clientData (data : ClientData)
  | hubMsg (msg : HubMsg)
  | disconnect
  | load
  deriving DecidableEq, Repr

/-- One await-to-await stretch of the hub's task. Whether `run` returns `Ok` or
`Err`, the loop of `connect` enters it again at the `match`, unless the state
is `Disconnected`. -/
def Hub.step (keepAliveId : Nat) (hub : Hub) (input : HubInput) : Option Outcome :=
  if hub.drawing then
    match input with
    | .load => some ⟨{ hub with drawing := false }, [.sleep keepAliveId], .ok ()⟩
    | _ => none
  else
    match hub.state, hub.position, input with
    | .ToConnect, .loop, .connect commands => some (hub.runToConnect commands)
    | .ToConnect, .connecting, .connecting event => some (hub.runToConnectEvent event)
    | .Connected, .resending next, .resend => some (hub.resend next)
    | .Connected, .loop, .command command =>
      some (hub.dealClientCommandWhenConnected command)
    | .Connected, .loop, .network event =>
      some (hub.updateConnectedStateByNetworkStatus event)
    | .Connected, .loop, .clientData data => some (hub.dealClientDataWhenConnected data)
    | .Connected, .loop, .hubMsg msg => some (hub.dealHubMsg keepAliveId msg)
    | .ToDisconnect reason, .loop, .disconnect => some (hub.runToDisconnect reason)
    | _, _, _ => none

end TaskHub
