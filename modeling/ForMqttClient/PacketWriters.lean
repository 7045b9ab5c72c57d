import ForMqttClient.PacketReaders

/-!
# The packets that the client writes

`len` and `write` of PUBLISH, of the four acknowledgements and of DISCONNECT. A
writer takes a buffer and returns it with the packet behind it, and with the
number of bytes that it claims to have written.
-/

namespace Codec

open MqttData ByteReader

/-- `if let Some(value) = …`. -/
def putSome {α : Type} (put : Bytes → α → Bytes) (buffer : Bytes) : Option α → Bytes
  | some value => put buffer value
  | none => buffer

def someLen {α : Type} (size : α → Nat) : Option α → Nat
  | some value => size value
  | none => 0

/-- A property number in front of its value. -/
def putProperty {α : Type} (type : PropertyType) (put : Bytes → α → Bytes) (buffer : Bytes)
    (value : α) : Bytes :=
  put (putU8 buffer type.toU8) value

def writeUserProperty (buffer : Bytes) (pair : String × String) : Bytes :=
  writeMqttString (writeMqttString buffer pair.1) pair.2

def userPropertyLen (pair : String × String) : Nat :=
  1 + 2 + strLen pair.1 + 2 + strLen pair.2

/-! ## PUBLISH -/

namespace PublishProperties

def len (p : PublishProperties) : Nat :=
  someLen (fun _ => 1 + 1) p.payloadFormatIndicator +
  someLen (fun _ => 1 + 4) p.messageExpiryInterval +
  someLen (fun _ => 1 + 2) p.topicAlias +
  someLen (fun topic => 1 + 2 + strLen topic) p.responseTopic +
  someLen (fun data => 1 + 2 + data.length) p.correlationData +
  (p.userProperties.map userPropertyLen).sum +
  (p.subscriptionIdentifiers.map fun id => 1 + lenLen id).sum +
  someLen (fun typ => 1 + 2 + strLen typ) p.contentType

def write (p : PublishProperties) (buffer : Bytes) : Bytes :=
  let buffer := (writeRemainingLength buffer (len p)).1
  let buffer := putSome (putProperty .PayloadFormatIndicator putU8) buffer
    p.payloadFormatIndicator
  let buffer := putSome (putProperty .MessageExpiryInterval putU32) buffer
    p.messageExpiryInterval
  let buffer := putSome (putProperty .TopicAlias putU16) buffer p.topicAlias
  let buffer := putSome (putProperty .ResponseTopic writeMqttString) buffer p.responseTopic
  let buffer := putSome (putProperty .CorrelationData writeMqttBytes) buffer p.correlationData
  let buffer := p.userProperties.foldl (putProperty .UserProperty writeUserProperty) buffer
  let buffer := p.subscriptionIdentifiers.foldl (putProperty .SubscriptionIdentifier
    fun buffer id => (writeRemainingLength buffer id).1) buffer
  putSome (putProperty .ContentType writeMqttString) buffer p.contentType

end PublishProperties

/-- `QoSWithPacketId::qos`. -/
def qosNum : QoSWithPacketId → UInt8
  | .AtMostOnce => 0
  | .AtLeastOnce _ => 1
  | .ExactlyOnce _ => 2

namespace Publish

def propertiesLen : Option PublishProperties → Nat
  | some p => lenLen (PublishProperties.len p) + PublishProperties.len p
  | none => 1

def len (p : Publish) : Nat :=
  let len := 2 + strLen p.topic + p.payload.length
  let len := if p.qos ≠ .AtMostOnce then len + 2 else len
  if p.protocol = .V5 then len + propertiesLen p.properties else len

def writeProperties (p : Publish) (buffer : Bytes) : Bytes :=
  match p.protocol with
  | .V4 => buffer
  | .V5 =>
    match p.properties with
    | some properties => PublishProperties.write properties buffer
    | none => (writeRemainingLength buffer 0).1

def byte1 (p : Publish) : UInt8 :=
  (0b00110000 : UInt8) ||| p.retain.toUInt8 ||| qosNum p.qos <<< 1 ||| p.dup.toUInt8 <<< 3

def write (p : Publish) (buffer : Bytes) : Bytes × Nat :=
  let len := len p
  let buffer := putU8 buffer (byte1 p)
  let (buffer, count) := writeRemainingLength buffer len
  let buffer := writeMqttString buffer p.topic
  let buffer := putSome (fun buffer pkid => putU16 buffer (.ofNat pkid)) buffer p.qos.packetId
  let buffer := writeProperties p buffer
  (buffer ++ p.payload, 1 + count + len)

end Publish

/-! ## PUBACK, PUBREC, PUBREL, PUBCOMP -/

namespace PubCommon

variable {Reason : Type} [Common Reason]

def new (packetId : PacketId) : Protocol → PubCommon Reason
  | .V4 => .V4 packetId
  | .V5 => .V5WriteMode packetId Common.default false false []

/-- The flag `hadReasonString` is looked at and never set. -/
def setReasonString (packet : PubCommon Reason) (reasonString : String) :
    Except String (PubCommon Reason) :=
  match packet with
  | .V4 .. => .error "should not be reached"
  | .V5 .. => .error "should not be reached"
  | .V5WriteMode packetId reason hadReasonString hadUserProperties properties =>
    if hadReasonString then .error "should not be reached"
    else .ok (.V5WriteMode packetId reason hadReasonString hadUserProperties
      (putProperty .ReasonString writeMqttString properties reasonString))

def addUserProperty (packet : PubCommon Reason) (key val : String) :
    Except String (PubCommon Reason) :=
  match packet with
  | .V4 .. => .error "should not be reached"
  | .V5 .. => .error "should not be reached"
  | .V5WriteMode packetId reason hadReasonString _ properties =>
    .ok (.V5WriteMode packetId reason hadReasonString true
      (putProperty .UserProperty writeUserProperty properties (key, val)))

/-- `none` where the source is `unreachable!()`. -/
def len (packet : PubCommon Reason) : Option Nat :=
  match packet with
  | .V4 .. => some 2
  | .V5 .. => none
  | .V5WriteMode _ reason hadReasonString hadUserProperties properties =>
    if Common.isSuccess reason ∧ !hadReasonString ∧ !hadUserProperties then some 2
    else if hadReasonString ∧ hadUserProperties then
      some (2 + 1 + (lenLen properties.length + properties.length))
    else some (2 + 1)

def write (packet : PubCommon Reason) (buffer : Bytes) : Option (Bytes × Nat) :=
  match packet with
  | .V4 packetId =>
    let buffer := putU8 buffer (Common.ty Reason)
    let (buffer, _) := writeRemainingLength buffer 2
    some (putU16 buffer (.ofNat packetId), 4)
  | .V5 .. => none
  | .V5WriteMode packetId reason _ _ properties => do
    let len ← len packet
    let buffer := putU8 buffer (Common.ty Reason)
    let (buffer, count) := writeRemainingLength buffer len
    let buffer := putU16 buffer (.ofNat packetId)
    if len = 2 then return (buffer, 4)
    else
      let buffer := putU8 buffer (Common.asU8 reason)
      return (writeMqttBytes buffer properties, len + 1 + count)

end PubCommon

/-! ## DISCONNECT -/

/-- `reason_code as u8`. -/
def DisconnectReasonCode.toU8 : DisconnectReasonCode → UInt8
  | .NormalDisconnection => 0x00
  | .DisconnectWithWillMessage => 0x04
  | .UnspecifiedError => 0x80
  | .MalformedPacket => 0x81
  | .ProtocolError => 0x82
  | .ImplementationSpecificError => 0x83
  | .NotAuthorized => 0x87
  | .ServerBusy => 0x89
  | .ServerShuttingDown => 0x8B
  | .KeepAliveTimeout => 0x8D
  | .SessionTakenOver => 0x8E
  | .TopicFilterInvalid => 0x8F
  | .TopicNameInvalid => 0x90
  | .ReceiveMaximumExceeded => 0x93
  | .TopicAliasInvalid => 0x94
  | .PacketTooLarge => 0x95
  | .MessageRateTooHigh => 0x96
  | .QuotaExceeded => 0x97
  | .AdministrativeAction => 0x98
  | .PayloadFormatInvalid => 0x99
  | .RetainNotSupported => 0x9A
  | .QoSNotSupported => 0x9B
  | .UseAnotherServer => 0x9C
  | .ServerMoved => 0x9D
  | .SharedSubscriptionNotSupported => 0x9E
  | .ConnectionRateExceeded => 0x9F
  | .MaximumConnectTime => 0xA0
  | .SubscriptionIdentifiersNotSupported => 0xA1
  | .WildcardSubscriptionsNotSupported => 0xA2

namespace DisconnectProperties

def len (p : DisconnectProperties) : Nat :=
  someLen (fun _ => 1 + 4) p.sessionExpiryInterval +
  someLen (fun reason => 1 + 2 + strLen reason) p.reasonString +
  (p.userProperties.map userPropertyLen).sum +
  someLen (fun reference => 1 + 2 + strLen reference) p.serverReference

def write (p : DisconnectProperties) (buffer : Bytes) : Bytes :=
  let buffer := (writeRemainingLength buffer p.len).1
  let buffer := putSome (putProperty .SessionExpiryInterval putU32) buffer
    p.sessionExpiryInterval
  let buffer := putSome (putProperty .ReasonString writeMqttString) buffer p.reasonString
  let buffer := p.userProperties.foldl (putProperty .UserProperty writeUserProperty) buffer
  putSome (putProperty .ServerReference writeMqttString) buffer p.serverReference

end DisconnectProperties

namespace Disconnect

def new : Protocol → Disconnect
  | .V4 => .V4
  | .V5 => .V5 .NormalDisconnection none

def len : Disconnect → Nat
  | .V4 => 2
  | .V5 reasonCode properties =>
    if reasonCode = .NormalDisconnection ∧ properties.isNone then 2
    else
      match properties with
      | some properties => 1 + (lenLen properties.len + properties.len)
      | none => 1

def write (packet : Disconnect) (buffer : Bytes) : Bytes × Nat :=
  match packet with
  | .V4 => (putU8 (putU8 buffer 0xE0) 0x00, 2)
  | .V5 reasonCode properties =>
    let buffer := putU8 buffer 0xE0
    let length := packet.len
    if length = 2 then (putU8 buffer 0x00, length)
    else
      let (buffer, lenLen) := writeRemainingLength buffer length
      let buffer := putU8 buffer reasonCode.toU8
      let buffer := match properties with
        | some properties => properties.write buffer
        | none => (writeRemainingLength buffer 0).1
      (buffer, 1 + lenLen + length)

def data (packet : Disconnect) : Bytes := (packet.write []).1

@[simp] theorem data_new (version : Protocol) : (new version).data = [0xE0, 0x00] := by
  cases version <;> rfl

end Disconnect

end Codec
