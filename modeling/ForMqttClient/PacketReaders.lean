import ForMqttClient.Codec

/-!
# The packets and their readers

The packets that a broker sends, with all that the readers take from the wire,
and `readFromNetwork`, which cuts one frame off a buffer and reads it. The six
property readers are one loop, `readProperties`, with a turn of their own each.
-/

namespace Codec

open MqttData ByteReader

/-! ## Property loops -/

def takeU8 {α : Type} (set : UInt8 → α) (cursor : Nat) : Parser (α × Nat) := do
  let value ← readU8
  let cursor ← Reader.add cursor 1
  return (set value, cursor)

def takeU16 {α : Type} (set : UInt16 → α) (cursor : Nat) : Parser (α × Nat) := do
  let value ← readU16
  let cursor ← Reader.add cursor 2
  return (set value, cursor)

def takeU32 {α : Type} (set : UInt32 → α) (cursor : Nat) : Parser (α × Nat) := do
  let value ← readU32
  let cursor ← Reader.add cursor 4
  return (set value, cursor)

def takeBytes {α : Type} (set : Bytes → α) (cursor : Nat) : Parser (α × Nat) := do
  let data ← readMqttBytes
  let cursor ← Reader.add cursor (← Reader.add 2 data.length)
  return (set data, cursor)

def takeString {α : Type} (set : String → α) (cursor : Nat) : Parser (α × Nat) := do
  let s ← readMqttString
  let cursor ← Reader.add cursor (← Reader.add 2 (strLen s))
  return (set s, cursor)

def takeUserProperty {α : Type} (set : String × String → α) (cursor : Nat) :
    Parser (α × Nat) := do
  let key ← readMqttString
  let value ← readMqttString
  let cursor ← Reader.add cursor (← Reader.add (← Reader.add (← Reader.add 2 (strLen key)) 2) (strLen value))
  return (set (key, value), cursor)

def propertyTurn {α : Type} (turn : UInt8 → α → Nat → Parser (α × Nat)) (acc : α)
    (cursor : Nat) : Parser (α × Nat) := do
  let prop ← readU8
  let cursor ← Reader.add cursor 1
  turn prop acc cursor

def readProperties {α : Type} (turn : UInt8 → α → Nat → Parser (α × Nat)) (empty : α) :
    Parser (Option α) := do
  let (propertiesLenLen, propertiesLen) ← peekLength
  advance propertiesLenLen
  if propertiesLen = 0 then return none
  else return some (← whileBelow (propertyTurn turn) propertiesLen empty 0)

/-! ## PUBLISH -/

def qos (num : UInt8) : Outcome PacketParseError QoS :=
  match num.toNat with
  | 0 => .ok .AtMostOnce
  | 1 => .ok .AtLeastOnce
  | 2 => .ok .ExactlyOnce
  | _ => fail (.InvalidQoS num)

namespace PublishProperties

def empty : PublishProperties where
  payloadFormatIndicator := none
  messageExpiryInterval := none
  topicAlias := none
  responseTopic := none
  correlationData := none
  userProperties := []
  subscriptionIdentifiers := []
  contentType := none

/-- The cursor counts one byte more than the identifier takes. -/
def takeSubscriptionIdentifier (p : PublishProperties) (cursor : Nat) :
    Parser (PublishProperties × Nat) := do
  let (idLen, id) ← peekLength
  let cursor ← Reader.add cursor (← Reader.add 1 idLen)
  advance idLen
  return ({ p with subscriptionIdentifiers := p.subscriptionIdentifiers ++ [id] }, cursor)

def turn (prop : UInt8) (p : PublishProperties) (cursor : Nat) :
    Parser (PublishProperties × Nat) := do
  match ← property prop with
  | .PayloadFormatIndicator =>
    takeU8 (fun value => { p with payloadFormatIndicator := some value }) cursor
  | .MessageExpiryInterval =>
    takeU32 (fun value => { p with messageExpiryInterval := some value }) cursor
  | .TopicAlias => takeU16 (fun value => { p with topicAlias := some value }) cursor
  | .ResponseTopic => takeString (fun topic => { p with responseTopic := some topic }) cursor
  | .CorrelationData => takeBytes (fun data => { p with correlationData := some data }) cursor
  | .UserProperty =>
    takeUserProperty (fun pair => { p with userProperties := p.userProperties ++ [pair] })
      cursor
  | .SubscriptionIdentifier => takeSubscriptionIdentifier p cursor
  | .ContentType => takeString (fun typ => { p with contentType := some typ }) cursor
  | _ => reject (.InvalidPropertyType prop)

def read : Parser (Option PublishProperties) := readProperties turn empty

end PublishProperties

namespace Publish

/-- The packet identifier is there where the QoS is above 0. -/
def readPacketId : QoS → Parser QoSWithPacketId
  | .AtMostOnce => return .AtMostOnce
  | .AtLeastOnce => return .AtLeastOnce (← readU16).toNat
  | .ExactlyOnce => return .ExactlyOnce (← readU16).toNat

def readProperties : Protocol → Parser (Option PublishProperties)
  | .V4 => return none
  | .V5 => PublishProperties.read

def read (fixedHeader : FixedHeader) (protocol : Protocol) : Parser Publish := do
  let qos ← qos ((fixedHeader.byte1 &&& 0b0110) >>> 1)
  let dup := fixedHeader.byte1 &&& 0b1000 ≠ 0
  let retain := fixedHeader.byte1 &&& 0b0001 ≠ 0
  advance fixedHeader.fixedHeaderLen
  let topic ← readMqttString
  let qos ← readPacketId qos
  let properties ← readProperties protocol
  return {
    protocol := protocol
    dup := dup
    retain := retain
    qos := qos
    topic := topic
    payload := ← peek
    properties := properties }

end Publish

/-! ## CONNACK -/

inductive ConnectReturnCode where
  | Success
  | Fail (code : ConnectReturnFailCode)
  deriving DecidableEq, Repr

def connectReturnV3 (num : UInt8) : Outcome PacketParseError ConnectReturnCode :=
  match num.toNat with
  | 0 => .ok .Success
  | 1 => .ok (.Fail (.FailV3 .RefusedProtocolVersion))
  | 2 => .ok (.Fail (.FailV3 .BadClientId))
  | 3 => .ok (.Fail (.FailV3 .ServiceUnavailable))
  | 4 => .ok (.Fail (.FailV3 .BadUserNamePassword))
  | 5 => .ok (.Fail (.FailV3 .NotAuthorized))
  | _ => fail (.InvalidConnectReturnCode num)

def connectReturnV5 (num : UInt8) : Outcome PacketParseError ConnectReturnCode :=
  match num.toNat with
  | 0 => .ok .Success
  | 128 => .ok (.Fail (.FailV5 .UnspecifiedError))
  | 129 => .ok (.Fail (.FailV5 .MalformedPacket))
  | 130 => .ok (.Fail (.FailV5 .ProtocolError))
  | 131 => .ok (.Fail (.FailV5 .ImplementationSpecificError))
  | 132 => .ok (.Fail (.FailV5 .UnsupportedProtocolVersion))
  | 133 => .ok (.Fail (.FailV5 .ClientIdentifierNotValid))
  | 134 => .ok (.Fail (.FailV5 .BadUserNamePassword))
  | 135 => .ok (.Fail (.FailV5 .NotAuthorized))
  | 136 => .ok (.Fail (.FailV5 .ServerUnavailable))
  | 137 => .ok (.Fail (.FailV5 .ServerBusy))
  | 138 => .ok (.Fail (.FailV5 .Banned))
  | 140 => .ok (.Fail (.FailV5 .BadAuthenticationMethod))
  | 144 => .ok (.Fail (.FailV5 .TopicNameInvalid))
  | 149 => .ok (.Fail (.FailV5 .PacketTooLarge))
  | 151 => .ok (.Fail (.FailV5 .QuotaExceeded))
  | 153 => .ok (.Fail (.FailV5 .PayloadFormatInvalid))
  | 154 => .ok (.Fail (.FailV5 .RetainNotSupported))
  | 155 => .ok (.Fail (.FailV5 .QoSNotSupported))
  | 156 => .ok (.Fail (.FailV5 .UseAnotherServer))
  | 157 => .ok (.Fail (.FailV5 .ServerMoved))
  | 159 => .ok (.Fail (.FailV5 .ConnectionRateExceeded))
  | _ => fail (.InvalidConnectReturnCode num)

structure ConnAckProperties where
  sessionExpiryInterval : Option UInt32
  receiveMax : Option UInt16
  maxQos : Option UInt8
  retainAvailable : Option UInt8
  maxPacketSize : Option UInt32
  assignedClientIdentifier : Option String
  topicAliasMax : Option UInt16
  reasonString : Option String
  userProperties : List (String × String)
  wildcardSubscriptionAvailable : Option UInt8
  subscriptionIdentifiersAvailable : Option UInt8
  sharedSubscriptionAvailable : Option UInt8
  serverKeepAlive : Option UInt16
  responseInformation : Option String
  serverReference : Option String
  authenticationMethod : Option String
  authenticationData : Option Bytes
  deriving DecidableEq, Repr

namespace ConnAckProperties

def empty : ConnAckProperties where
  sessionExpiryInterval := none
  receiveMax := none
  maxQos := none
  retainAvailable := none
  maxPacketSize := none
  assignedClientIdentifier := none
  topicAliasMax := none
  reasonString := none
  userProperties := []
  wildcardSubscriptionAvailable := none
  subscriptionIdentifiersAvailable := none
  sharedSubscriptionAvailable := none
  serverKeepAlive := none
  responseInformation := none
  serverReference := none
  authenticationMethod := none
  authenticationData := none

def turn (prop : UInt8) (p : ConnAckProperties) (cursor : Nat) :
    Parser (ConnAckProperties × Nat) := do
  match ← property prop with
  | .SessionExpiryInterval =>
    takeU32 (fun value => { p with sessionExpiryInterval := some value }) cursor
  | .ReceiveMaximum => takeU16 (fun value => { p with receiveMax := some value }) cursor
  | .MaximumQos => takeU8 (fun value => { p with maxQos := some value }) cursor
  | .RetainAvailable => takeU8 (fun value => { p with retainAvailable := some value }) cursor
  | .AssignedClientIdentifier =>
    takeString (fun id => { p with assignedClientIdentifier := some id }) cursor
  | .MaximumPacketSize => takeU32 (fun value => { p with maxPacketSize := some value }) cursor
  | .TopicAliasMaximum => takeU16 (fun value => { p with topicAliasMax := some value }) cursor
  | .ReasonString => takeString (fun reason => { p with reasonString := some reason }) cursor
  | .UserProperty =>
    takeUserProperty (fun pair => { p with userProperties := p.userProperties ++ [pair] })
      cursor
  | .WildcardSubscriptionAvailable =>
    takeU8 (fun value => { p with wildcardSubscriptionAvailable := some value }) cursor
  | .SubscriptionIdentifierAvailable =>
    takeU8 (fun value => { p with subscriptionIdentifiersAvailable := some value }) cursor
  | .SharedSubscriptionAvailable =>
    takeU8 (fun value => { p with sharedSubscriptionAvailable := some value }) cursor
  | .ServerKeepAlive => takeU16 (fun value => { p with serverKeepAlive := some value }) cursor
  | .ResponseInformation =>
    takeString (fun info => { p with responseInformation := some info }) cursor
  | .ServerReference =>
    takeString (fun reference => { p with serverReference := some reference }) cursor
  | .AuthenticationMethod =>
    takeString (fun method => { p with authenticationMethod := some method }) cursor
  | .AuthenticationData =>
    takeBytes (fun data => { p with authenticationData := some data }) cursor
  | _ => reject (.InvalidPropertyType prop)

def read : Parser (Option ConnAckProperties) := readProperties turn empty

end ConnAckProperties

structure ConnAck where
  sessionPresent : Bool
  code : ConnectReturnCode
  properties : Option ConnAckProperties
  deriving DecidableEq, Repr

def ConnAck.read (fixedHeader : FixedHeader) (version : Protocol) : Parser ConnAck := do
  advance fixedHeader.fixedHeaderLen
  let flags ← readU8
  let returnCode ← readU8
  match version with
  | .V4 =>
    let sessionPresent := flags &&& 0x01 = 1
    let code ← connectReturnV3 returnCode
    return { sessionPresent := sessionPresent, code := code, properties := none }
  | .V5 =>
    let properties ← ConnAckProperties.read
    let sessionPresent := flags &&& 0x01 = 1
    let code ← connectReturnV5 returnCode
    return { sessionPresent := sessionPresent, code := code, properties := properties }

/-! ## PUBACK, PUBREC, PUBREL, PUBCOMP -/

/-- `PubCommonProperties`, `SubAckProperties` and `UnsubAckProperties`. -/
structure AckProperties where
  reasonString : Option String
  userProperties : List (String × String)
  deriving DecidableEq, Repr

def AckProperties.empty : AckProperties := { reasonString := none, userProperties := [] }

inductive PubCommon (Reason : Type) where
  | V4 (packetId : PacketId)
  | V5 (packetId : PacketId) (reason : Reason) (reasonString : Option String)
      (userProperties : List (String × String))
  | V5WriteMode (packetId : PacketId) (reason : Reason) (hadReasonString : Bool)
      (hadUserProperties : Bool) (properties : Bytes)
  deriving DecidableEq, Repr

/-- The traits `Common` and `Reason` of the source, for the reason code that
tells the four packet types apart. -/
class Common (Reason : Type) where
  ty : UInt8
  reason : UInt8 → Outcome PacketParseError Reason
  default : Reason
  isSuccess : Reason → Bool
  asU8 : Reason → UInt8

namespace PubCommon

def packetId {Reason : Type} : PubCommon Reason → PacketId
  | .V4 packetId => packetId
  | .V5 packetId _ _ _ => packetId
  | .V5WriteMode packetId _ _ _ _ => packetId

/-- The property numbers are matched without `property`. -/
def turn (prop : UInt8) (p : AckProperties) (cursor : Nat) : Parser (AckProperties × Nat) :=
  match prop.toNat with
  | 31 => takeString (fun reason => { p with reasonString := some reason }) cursor
  | 38 =>
    takeUserProperty (fun pair => { p with userProperties := p.userProperties ++ [pair] })
      cursor
  | _ => reject (.InvalidPropertyType prop)

def readProperties : Parser (Option AckProperties) := Codec.readProperties turn .empty

def read {Reason : Type} [Common Reason] (fixedHeader : FixedHeader) (protocol : Protocol) :
    Parser (PubCommon Reason) := do
  advance fixedHeader.fixedHeaderLen
  let packetId := (← readU16).toNat
  match protocol with
  | .V4 =>
    if fixedHeader.remainingLen = 2 then return .V4 packetId
    else reject .MalformedRemainingLength
  | .V5 =>
    if fixedHeader.remainingLen = 2 then return .V5 packetId Common.default none []
    else
      let ackReason ← readU8
      if fixedHeader.remainingLen < 4 then
        return .V5 packetId (← Common.reason ackReason) none []
      else
        match ← readProperties with
        | none => return .V5 packetId (← Common.reason ackReason) none []
        | some properties =>
          return .V5 packetId (← Common.reason ackReason) properties.reasonString
            properties.userProperties

end PubCommon

inductive PubAckReason where
  | Success | NoMatchingSubscribers | UnspecifiedError | ImplementationSpecificError
  | NotAuthorized | TopicNameInvalid | PacketIdentifierInUse | QuotaExceeded
  | PayloadFormatInvalid
  deriving DecidableEq, Repr

instance : Common PubAckReason where
  ty := 0x40
  reason num := match num.toNat with
    | 0 => .ok .Success
    | 16 => .ok .NoMatchingSubscribers
    | 128 => .ok .UnspecifiedError
    | 131 => .ok .ImplementationSpecificError
    | 135 => .ok .NotAuthorized
    | 144 => .ok .TopicNameInvalid
    | 145 => .ok .PacketIdentifierInUse
    | 151 => .ok .QuotaExceeded
    | 153 => .ok .PayloadFormatInvalid
    | _ => fail (.InvalidConnectReturnCode num)
  default := .Success
  isSuccess reason := reason = .Success
  asU8 reason := .ofNat reason.ctorIdx

inductive PubRecReason where
  | Success | NoMatchingSubscribers | UnspecifiedError | ImplementationSpecificError
  | NotAuthorized | TopicNameInvalid | PacketIdentifierInUse | QuotaExceeded
  | PayloadFormatInvalid
  deriving DecidableEq, Repr

instance : Common PubRecReason where
  ty := 0x50
  reason num := match num.toNat with
    | 0 => .ok .Success
    | 16 => .ok .NoMatchingSubscribers
    | 128 => .ok .UnspecifiedError
    | 131 => .ok .ImplementationSpecificError
    | 135 => .ok .NotAuthorized
    | 144 => .ok .TopicNameInvalid
    | 145 => .ok .PacketIdentifierInUse
    | 151 => .ok .QuotaExceeded
    | 153 => .ok .PayloadFormatInvalid
    | _ => fail (.InvalidConnectReturnCode num)
  default := .Success
  isSuccess reason := reason = .Success
  asU8 reason := .ofNat reason.ctorIdx

inductive PubRelReason where
  | Success | PacketIdentifierNotFound
  deriving DecidableEq, Repr

instance : Common PubRelReason where
  ty := 0x62
  reason num := match num.toNat with
    | 0 => .ok .Success
    | 146 => .ok .PacketIdentifierNotFound
    | _ => fail (.InvalidConnectReturnCode num)
  default := .Success
  isSuccess reason := reason = .Success
  asU8 reason := .ofNat reason.ctorIdx

inductive PubCompReason where
  | Success | PacketIdentifierNotFound
  deriving DecidableEq, Repr

instance : Common PubCompReason where
  ty := 0x70
  reason num := match num.toNat with
    | 0 => .ok .Success
    | 146 => .ok .PacketIdentifierNotFound
    | _ => fail (.InvalidConnectReturnCode num)
  default := .Success
  isSuccess reason := reason = .Success
  asU8 reason := .ofNat reason.ctorIdx

/-! ## SUBACK, UNSUBACK -/

inductive SubAck where
  | V4 (packetId : PacketId) (returnCodes : List SubscribeReasonCode)
  | V5ReadMode (packetId : PacketId) (properties : Option AckProperties)
      (returnCodes : List SubscribeReasonCode)
  deriving DecidableEq, Repr

inductive UnsubAck where
  | V4 (packetId : PacketId)
  | V5ReadMode (packetId : PacketId) (properties : Option AckProperties)
      (returnCodes : List UnsubAckReason)
  deriving DecidableEq, Repr

/-- The turn of `SubAckProperties` and `UnsubAckProperties`. -/
def AckProperties.turn (prop : UInt8) (p : AckProperties) (cursor : Nat) :
    Parser (AckProperties × Nat) := do
  match ← property prop with
  | .ReasonString => takeString (fun reason => { p with reasonString := some reason }) cursor
  | .UserProperty =>
    takeUserProperty (fun pair => { p with userProperties := p.userProperties ++ [pair] })
      cursor
  | _ => reject (.InvalidPropertyType prop)

def SubAckProperties.read : Parser (Option AckProperties) :=
  readProperties AckProperties.turn .empty

def UnsubAckProperties.read : Parser (Option AckProperties) :=
  readProperties AckProperties.turn .empty

/-- One code at least, to the end of the packet. -/
def readReturnCodes {α : Type} (reason : UInt8 → Outcome PacketParseError α) :
    Parser (List α) := do
  if (← remaining) = 0 then reject .MalformedPacket
  else whileRemaining (fun codes => do
    let returnCode ← readU8
    return codes ++ [← reason returnCode]) []

namespace SubAck

def reasonForV5 (code : UInt8) : Outcome PacketParseError SubscribeReasonCode :=
  match code.toNat with
  | 0 => .ok .QoS0
  | 1 => .ok .QoS1
  | 2 => .ok .QoS2
  | 128 => .ok .Unspecified
  | 131 => .ok .ImplementationSpecific
  | 135 => .ok .NotAuthorized
  | 143 => .ok .TopicFilterInvalid
  | 145 => .ok .PkidInUse
  | 151 => .ok .QuotaExceeded
  | 158 => .ok .SharedSubscriptionsNotSupported
  | 161 => .ok .SubscriptionIdNotSupported
  | 162 => .ok .WildcardSubscriptionsNotSupported
  | _ => fail (.InvalidSubscribeReasonCode code)

def reasonForV4 (code : UInt8) : Outcome PacketParseError SubscribeReasonCode :=
  match code.toNat with
  | 0 => .ok .QoS0
  | 1 => .ok .QoS1
  | 2 => .ok .QoS2
  | 128 => .ok .Unspecified
  | _ => fail (.InvalidSubscribeReasonCode code)

def read (fixedHeader : FixedHeader) (protocol : Protocol) : Parser SubAck := do
  advance fixedHeader.fixedHeaderLen
  let packetId := (← readU16).toNat
  match protocol with
  | .V4 => return .V4 packetId (← readReturnCodes reasonForV4)
  | .V5 =>
    let properties ← SubAckProperties.read
    return .V5ReadMode packetId properties (← readReturnCodes reasonForV5)

end SubAck

namespace UnsubAck

def reasonForV5 (num : UInt8) : Outcome PacketParseError UnsubAckReason :=
  match num.toNat with
  | 0x00 => .ok .Success
  | 0x11 => .ok .NoSubscriptionExisted
  | 0x80 => .ok .UnspecifiedError
  | 0x83 => .ok .ImplementationSpecificError
  | 0x87 => .ok .NotAuthorized
  | 0x8F => .ok .TopicFilterInvalid
  | 0x91 => .ok .PacketIdentifierInUse
  | _ => fail (.InvalidSubscribeReasonCode num)

def read (fixedHeader : FixedHeader) (protocol : Protocol) : Parser UnsubAck := do
  advance fixedHeader.fixedHeaderLen
  let packetId := (← readU16).toNat
  match protocol with
  | .V4 => return .V4 packetId
  | .V5 =>
    let properties ← UnsubAckProperties.read
    return .V5ReadMode packetId properties (← readReturnCodes reasonForV5)

end UnsubAck

/-! ## DISCONNECT -/

inductive DisconnectReasonCode where
  | NormalDisconnection | DisconnectWithWillMessage | UnspecifiedError | MalformedPacket
  | ProtocolError | ImplementationSpecificError | NotAuthorized | ServerBusy
  | ServerShuttingDown | KeepAliveTimeout | SessionTakenOver | TopicFilterInvalid
  | TopicNameInvalid | ReceiveMaximumExceeded | TopicAliasInvalid | PacketTooLarge
  | MessageRateTooHigh | QuotaExceeded | AdministrativeAction | PayloadFormatInvalid
  | RetainNotSupported | QoSNotSupported | UseAnotherServer | ServerMoved
  | SharedSubscriptionNotSupported | ConnectionRateExceeded | MaximumConnectTime
  | SubscriptionIdentifiersNotSupported | WildcardSubscriptionsNotSupported
  deriving DecidableEq, Repr

/-- `TryFrom<u8>`. -/
def DisconnectReasonCode.tryFrom (value : UInt8) :
    Outcome PacketParseError DisconnectReasonCode :=
  match value.toNat with
  | 0x00 => .ok .NormalDisconnection
  | 0x04 => .ok .DisconnectWithWillMessage
  | 0x80 => .ok .UnspecifiedError
  | 0x81 => .ok .MalformedPacket
  | 0x82 => .ok .ProtocolError
  | 0x83 => .ok .ImplementationSpecificError
  | 0x87 => .ok .NotAuthorized
  | 0x89 => .ok .ServerBusy
  | 0x8B => .ok .ServerShuttingDown
  | 0x8D => .ok .KeepAliveTimeout
  | 0x8E => .ok .SessionTakenOver
  | 0x8F => .ok .TopicFilterInvalid
  | 0x90 => .ok .TopicNameInvalid
  | 0x93 => .ok .ReceiveMaximumExceeded
  | 0x94 => .ok .TopicAliasInvalid
  | 0x95 => .ok .PacketTooLarge
  | 0x96 => .ok .MessageRateTooHigh
  | 0x97 => .ok .QuotaExceeded
  | 0x98 => .ok .AdministrativeAction
  | 0x99 => .ok .PayloadFormatInvalid
  | 0x9A => .ok .RetainNotSupported
  | 0x9B => .ok .QoSNotSupported
  | 0x9C => .ok .UseAnotherServer
  | 0x9D => .ok .ServerMoved
  | 0x9E => .ok .SharedSubscriptionNotSupported
  | 0x9F => .ok .ConnectionRateExceeded
  | 0xA0 => .ok .MaximumConnectTime
  | 0xA1 => .ok .SubscriptionIdentifiersNotSupported
  | 0xA2 => .ok .WildcardSubscriptionsNotSupported
  | _ => fail (.InvalidConnectReturnCode value)

structure DisconnectProperties where
  sessionExpiryInterval : Option UInt32
  reasonString : Option String
  userProperties : List (String × String)
  serverReference : Option String
  deriving DecidableEq, Repr

namespace DisconnectProperties

def empty : DisconnectProperties where
  sessionExpiryInterval := none
  reasonString := none
  userProperties := []
  serverReference := none

def turn (prop : UInt8) (p : DisconnectProperties) (cursor : Nat) :
    Parser (DisconnectProperties × Nat) := do
  match ← property prop with
  | .SessionExpiryInterval =>
    takeU32 (fun value => { p with sessionExpiryInterval := some value }) cursor
  | .ReasonString => takeString (fun reason => { p with reasonString := some reason }) cursor
  | .UserProperty =>
    takeUserProperty (fun pair => { p with userProperties := p.userProperties ++ [pair] })
      cursor
  | .ServerReference =>
    takeString (fun reference => { p with serverReference := some reference }) cursor
  | _ => reject (.InvalidPropertyType prop)

def extract : Parser (Option DisconnectProperties) := readProperties turn empty

end DisconnectProperties

inductive Disconnect where
  | V4
  | V5 (reasonCode : DisconnectReasonCode) (properties : Option DisconnectProperties)
  deriving DecidableEq, Repr

def Disconnect.read (fixedHeader : FixedHeader) (protocol : Protocol) :
    Parser Disconnect := do
  let packetType := fixedHeader.byte1 >>> 4
  let flags := fixedHeader.byte1 &&& 0b00001111
  advance fixedHeader.fixedHeaderLen
  if packetType ≠ PacketType.toU8 .Disconnect then reject (.InvalidPacketType packetType)
  else if flags ≠ 0x00 then reject .MalformedPacket
  else
    match protocol with
    | .V4 => return .V4
    | .V5 =>
      if fixedHeader.remainingLen = 0 then return .V5 .NormalDisconnection none
      else
        let reasonCode ← readU8
        let reasonCode ← DisconnectReasonCode.tryFrom reasonCode
        return .V5 reasonCode (← DisconnectProperties.extract)

/-! ## One packet from the buffer -/

/-- The packets that the reader can return. -/
inductive Packet where
  | ConnAck (packet : ConnAck)
  | Publish (packet : Publish)
  | PubAck (packet : PubCommon PubAckReason)
  | PubRec (packet : PubCommon PubRecReason)
  | PubRel (packet : PubCommon PubRelReason)
  | PubComp (packet : PubCommon PubCompReason)
  | SubAck (packet : SubAck)
  | UnsubAck (packet : UnsubAck)
  | PingResp
  | Disconnect (packet : Disconnect)
  deriving DecidableEq, Repr

def Packet.packetTy : Packet → PacketType
  | .ConnAck _ => .ConnAck
  | .Publish _ => .Publish
  | .PubAck _ => .PubAck
  | .PubRec _ => .PubRec
  | .PubRel _ => .PubRel
  | .PubComp _ => .PubComp
  | .SubAck _ => .SubAck
  | .UnsubAck _ => .UnsubAck
  | .PingResp => .PingResp
  | .Disconnect _ => .Disconnect

/-- The body of `read_from_network` on a frame that is cut off. -/
def readPacket (fixedHeader : FixedHeader) (version : Protocol) : Parser Packet := do
  let packetType ← fixedHeader.packetType
  match packetType with
  | .ConnAck => return .ConnAck (← ConnAck.read fixedHeader version)
  | .Publish => return .Publish (← Publish.read fixedHeader version)
  | .PubAck => return .PubAck (← PubCommon.read fixedHeader version)
  | .PubRec => return .PubRec (← PubCommon.read fixedHeader version)
  | .PubRel => return .PubRel (← PubCommon.read fixedHeader version)
  | .PubComp => return .PubComp (← PubCommon.read fixedHeader version)
  | .SubAck => return .SubAck (← SubAck.read fixedHeader version)
  | .UnsubAck => return .UnsubAck (← UnsubAck.read fixedHeader version)
  | .PingResp => return .PingResp
  | .Disconnect =>
    match version with
    | .V4 => reject (.InvalidPacketType (PacketType.toU8 packetType))
    | .V5 => return .Disconnect (← Disconnect.read fixedHeader version)
  | _ => reject (.InvalidPacketType (PacketType.toU8 packetType))

/-- The packet, if the buffer holds a whole one, and what is left of the buffer. -/
def readFromNetwork (stream : Bytes) (version : Protocol) :
    Outcome PacketParseError (Option Packet) × Bytes :=
  match parseFixedHeaderBySlice stream with
  | .error (.fault fault) => (faultAt fault, stream)
  | .error (.error err) =>
    if err.toDiscard then
      match splitTo stream.length stream with
      | .ok (_, stream) => (fail err.into, stream)
      | .error failure => (.error failure, stream)
    else (fail err.into, stream)
  | .ok fixedHeader =>
    match fixedHeader.frameLength with
    | .error failure => (.error failure, stream)
    | .ok frameLength =>
      if frameLength > stream.length then (.ok none, stream)
      else
        match splitTo frameLength stream with
        | .error failure => (.error failure, stream)
        | .ok (packet, stream) =>
          match readPacket fixedHeader version packet with
          | .ok (packet, _) => (.ok (some packet), stream)
          | .error failure => (.error failure, stream)

end Codec
