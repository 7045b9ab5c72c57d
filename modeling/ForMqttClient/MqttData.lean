import Mathlib.Logic.Basic

/-!
# Packets and client requests

The values that pass between the client, the hub, the tasks and the network.
Packet ids and trace ids are unsigned integers with which the program never
computes, so they are natural numbers. A packet on its way to the broker is
kept as the packet instead of its bytes.
-/

namespace MqttData

/-- `u16` in the source. -/
abbrev PacketId := Nat

/-- `u32` in the source; chosen by the caller or drawn from `Id`. -/
abbrev TraceId := Nat

abbrev Bytes := List UInt8

inductive Protocol where
  | V4
  | V5
  deriving DecidableEq, Repr

inductive QoS where
  | AtMostOnce
  | AtLeastOnce
  | ExactlyOnce
  deriving DecidableEq, Repr

inductive QoSWithPacketId where
  | AtMostOnce
  | AtLeastOnce (packetId : PacketId)
  | ExactlyOnce (packetId : PacketId)
  deriving DecidableEq, Repr

def QoSWithPacketId.packetId : QoSWithPacketId → Option PacketId
  | .AtMostOnce => none
  | .AtLeastOnce packetId => some packetId
  | .ExactlyOnce packetId => some packetId

structure PublishProperties where
  payloadFormatIndicator : Option UInt8
  messageExpiryInterval : Option UInt32
  topicAlias : Option UInt16
  responseTopic : Option String
  correlationData : Option Bytes
  userProperties : List (String × String)
  subscriptionIdentifiers : List Nat
  contentType : Option String
  deriving DecidableEq, Repr

structure Publish where
  protocol : Protocol
  dup : Bool
  qos : QoSWithPacketId
  retain : Bool
  topic : String
  payload : Bytes
  properties : Option PublishProperties
  deriving DecidableEq, Repr

def Publish.new (topic : String) (qos : QoSWithPacketId) (payload : Bytes)
    (retain : Bool) (protocol : Protocol) : Publish where
  dup := false
  qos := qos
  retain := retain
  topic := topic
  payload := payload
  properties := none
  protocol := protocol

inductive SubscribeReasonCode where
  | QoS0 | QoS1 | QoS2 | Unspecified | ImplementationSpecific | NotAuthorized
  | TopicFilterInvalid | PkidInUse | QuotaExceeded
  | SharedSubscriptionsNotSupported | SubscriptionIdNotSupported
  | WildcardSubscriptionsNotSupported
  deriving DecidableEq, Repr

inductive UnsubAckReason where
  | Success | NoSubscriptionExisted | UnspecifiedError
  | ImplementationSpecificError | NotAuthorized | TopicFilterInvalid
  | PacketIdentifierInUse
  deriving DecidableEq, Repr

inductive AckType where
  | PubAck | PubRec | PubRel | PubComp | SubAck | UnsubAck
  deriving DecidableEq, Repr

/-- The acknowledgement packets, with the parts that a task reads. The list of
a V4 UNSUBACK is empty. -/
inductive Ack where
  | PubAck (packetId : PacketId)
  | PubRec (packetId : PacketId)
  | PubRel (packetId : PacketId)
  | PubComp (packetId : PacketId)
  | SubAck (packetId : PacketId) (returnCodes : List SubscribeReasonCode)
  | UnsubAck (packetId : PacketId) (returnCodes : List UnsubAckReason)
  deriving DecidableEq, Repr

namespace Ack

def type : Ack → AckType
  | .PubAck _ => .PubAck
  | .PubRec _ => .PubRec
  | .PubRel _ => .PubRel
  | .PubComp _ => .PubComp
  | .SubAck _ _ => .SubAck
  | .UnsubAck _ _ => .UnsubAck

def packetId : Ack → PacketId
  | .PubAck packetId => packetId
  | .PubRec packetId => packetId
  | .PubRel packetId => packetId
  | .PubComp packetId => packetId
  | .SubAck packetId _ => packetId
  | .UnsubAck packetId _ => packetId

/-- `PacketRel::is_rel`, the same test for all six types. -/
def isRel (ack : Ack) (packetId : PacketId) : Bool := ack.packetId = packetId

end Ack

inductive Subscribe where
  | V4 (packetId : PacketId) (payload : Bytes)
  | V5 (packetId : PacketId) (properties : Bytes) (filters : Bytes)
  deriving DecidableEq, Repr

namespace Subscribe

def setPacketId : Subscribe → PacketId → Subscribe
  | .V4 _ payload, packetId => .V4 packetId payload
  | .V5 _ properties filters, packetId => .V5 packetId properties filters

def packetId : Subscribe → PacketId
  | .V4 packetId _ => packetId
  | .V5 packetId _ _ => packetId

@[simp] theorem packetId_setPacketId (s : Subscribe) (packetId : PacketId) :
    (s.setPacketId packetId).packetId = packetId := by
  cases s <;> rfl

end Subscribe

inductive Unsubscribe where
  | V4 (packetId : PacketId) (payload : Bytes)
  | V5 (packetId : PacketId) (properties : Bytes) (filters : Bytes)
  deriving DecidableEq, Repr

namespace Unsubscribe

def setPacketId : Unsubscribe → PacketId → Unsubscribe
  | .V4 _ payload, packetId => .V4 packetId payload
  | .V5 _ properties filters, packetId => .V5 packetId properties filters

def packetId : Unsubscribe → PacketId
  | .V4 packetId _ => packetId
  | .V5 packetId _ _ => packetId

@[simp] theorem packetId_setPacketId (u : Unsubscribe) (packetId : PacketId) :
    (u.setPacketId packetId).packetId = packetId := by
  cases u <;> rfl

end Unsubscribe

/-- A publish request; the phantom type of the source is the index `qos`. -/
structure TracePublishQos (qos : QoS) where
  protocol : Protocol
  id : TraceId
  topic : String
  packetId : PacketId
  payload : Bytes
  retain : Bool
  deriving DecidableEq, Repr

def TracePublishQos.init (qos : QoS) (topic : String) (payload : Bytes) (retain : Bool)
    (protocol : Protocol) (id : TraceId) : TracePublishQos qos where
  id := id
  packetId := 0
  topic := topic
  payload := payload
  retain := retain
  protocol := protocol

structure TraceSubscribe where
  id : TraceId
  subscribe : Subscribe
  deriving DecidableEq, Repr

def TraceSubscribe.packetId (trace : TraceSubscribe) : PacketId :=
  trace.subscribe.packetId

structure TraceUnubscribe where
  id : TraceId
  unsubscribe : Unsubscribe
  deriving DecidableEq, Repr

def TraceUnubscribe.packetId (trace : TraceUnubscribe) : PacketId :=
  trace.unsubscribe.packetId

inductive ClientCommand where
  | DisconnectAndDrop
  | ViolenceDisconnectAndDrop
  deriving DecidableEq, Repr

inductive ClientData where
  | PublishQoS0 (packet : TracePublishQos .AtMostOnce)
  | PublishQoS1 (packet : TracePublishQos .AtLeastOnce)
  | PublishQoS2 (packet : TracePublishQos .ExactlyOnce)
  | Subscribe (packet : TraceSubscribe)
  | Unsubscribe (packet : TraceUnubscribe)
  deriving DecidableEq, Repr

def ClientData.id : ClientData → TraceId
  | .PublishQoS0 packet => packet.id
  | .PublishQoS1 packet => packet.id
  | .PublishQoS2 packet => packet.id
  | .Subscribe packet => packet.id
  | .Unsubscribe packet => packet.id

inductive PacketType where
  | Connect | ConnAck | Publish | PubAck | PubRec | PubRel | PubComp
  | Subscribe | SubAck | Unsubscribe | UnsubAck | PingReq | PingResp
  | Disconnect
  deriving DecidableEq, Repr

inductive PacketParseError where
  | InvalidConnectReturnCode (code : UInt8)
  | InvalidProtocol
  | InvalidProtocolLevel (level : UInt8)
  | IncorrectPacketFormat
  | InvalidPacketType (num : UInt8)
  | InvalidPropertyType (num : UInt8)
  | InvalidQoS (num : UInt8)
  | InvalidSubscribeReasonCode (code : UInt8)
  | PacketIdZero
  | PayloadSizeIncorrect
  | PayloadTooLong
  | PayloadSizeLimitExceeded (size : Nat)
  | PayloadRequired
  | TopicNotUtf8
  | BoundaryCrossed (size : Nat)
  | MalformedPacket
  | EmptySubscription
  | InsufficientBytes (size : Nat)
  | MalformedRemainingLength
  deriving DecidableEq, Repr

inductive ConnectReturnFailCodeV3 where
  | RefusedProtocolVersion | BadClientId | ServiceUnavailable
  | BadUserNamePassword | NotAuthorized
  deriving DecidableEq, Repr

inductive ConnectReturnCodeV5 where
  | RefusedProtocolVersion | BadClientId | ServiceUnavailable
  | UnspecifiedError | MalformedPacket | ProtocolError
  | ImplementationSpecificError | UnsupportedProtocolVersion
  | ClientIdentifierNotValid | BadUserNamePassword | NotAuthorized
  | ServerUnavailable | ServerBusy | Banned | BadAuthenticationMethod
  | TopicNameInvalid | PacketTooLarge | QuotaExceeded | PayloadFormatInvalid
  | RetainNotSupported | QoSNotSupported | UseAnotherServer | ServerMoved
  | ConnectionRateExceeded
  deriving DecidableEq, Repr

inductive ConnectReturnFailCode where
  | FailV3 (code : ConnectReturnFailCodeV3)
  | FailV5 (code : ConnectReturnCodeV5)
  deriving DecidableEq, Repr

inductive ToConnectError where
  | NotConnAck (type : PacketType)
  | NetworkError (msg : String)
  | PacketError (error : PacketParseError)
  | BrokerRefuse (code : ConnectReturnFailCode)
  | ChannelAbnormal
  | RustlsConnectError (msg : String)
  deriving DecidableEq, Repr

structure SubscribeAck where
  id : TraceId
  acks : List SubscribeReasonCode
  deriving DecidableEq, Repr

structure UnsubscribeAck where
  id : TraceId
  acks : List UnsubAckReason
  deriving DecidableEq, Repr

/-- What the user receives. -/
inductive MqttEvent where
  | ConnectSuccess (sessionPresent : Bool)
  | ConnectFail (reason : ToConnectError)
  | Publish (publish : Publish)
  | PublishSuccess (id : TraceId)
  | PublishFail (reason : String)
  | SubscribeAck (ack : SubscribeAck)
  | SubscribeFail (reason : String)
  | UnsubscribeAck (ack : UnsubscribeAck)
  | UnsubscribeFail (reason : String)
  | ConnectedErr (reason : String)
  | Disconnected
  deriving DecidableEq, Repr

/-- The packets that the tasks and `TaskNetwork` write to the broker. -/
inductive Outgoing where
  | Publish (publish : Publish)
  | PubAck (packetId : PacketId)
  | PubRec (packetId : PacketId)
  | PubRel (packetId : PacketId)
  | PubComp (packetId : PacketId)
  | Subscribe (subscribe : Subscribe)
  | Unsubscribe (unsubscribe : Unsubscribe)
  | PingReq
  | Disconnect
  deriving DecidableEq, Repr

/-- The packets that `TaskNetwork` acts on once it is connected. DISCONNECT is
carried as its Debug text, the only part of it that the hub uses. -/
inductive Packet where
  | ConnAck
  | Publish (publish : Publish)
  | Ack (ack : Ack)
  | PingResp
  | Disconnect (text : String)
  deriving DecidableEq, Repr

structure MqttOptions where
  keepAlive : Nat
  autoReconnect : Bool
  deriving DecidableEq, Repr

end MqttData
