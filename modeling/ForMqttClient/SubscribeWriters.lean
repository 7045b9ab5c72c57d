import ForMqttClient.Connect

/-!
# SUBSCRIBE and UNSUBSCRIBE

What a user asks for is put together by a builder. `into` encodes filters and
properties with packet id 0, the hub sets the id, and `write` frames the packet.
The phantom type of a builder is its index `protocol`.
-/

namespace Codec

open MqttData ByteReader

/-! ## Builders -/

inductive RetainForwardRule where
  | OnEverySubscribe
  | OnNewSubscribe
  | Never
  deriving DecidableEq, Repr

def RetainForwardRule.mergeToU8 (rule : RetainForwardRule) (val : UInt8) : UInt8 :=
  match rule with
  | .OnEverySubscribe => val
  | .OnNewSubscribe => val ||| (1 : UInt8) <<< 4
  | .Never => val ||| (2 : UInt8) <<< 4

structure FilterBuilder (protocol : Protocol) where
  path : String
  qos : QoS
  noLocal : Bool
  preserveRetain : Bool
  retainForwardRule : RetainForwardRule
  deriving DecidableEq, Repr

structure SubscribeId where
  datas : Bytes
  deriving DecidableEq, Repr

structure SubscribeBuilder (protocol : Protocol) where
  traceId : TraceId
  id : Option SubscribeId
  userProperties : List (String × String)
  filters : List (FilterBuilder protocol)
  deriving DecidableEq, Repr

namespace FilterBuilder

def new (protocol : Protocol) (path : String) (qos : QoS) : FilterBuilder protocol where
  path := path
  qos := qos
  noLocal := false
  preserveRetain := false
  retainForwardRule := .OnEverySubscribe

def build {protocol : Protocol} (filter : FilterBuilder protocol) (traceId : TraceId) :
    SubscribeBuilder protocol where
  traceId := traceId
  id := none
  userProperties := []
  filters := [filter]

/-- The option byte of `write_filter`. Only version 5 has more than the QoS. -/
def options {protocol : Protocol} (value : FilterBuilder protocol) : UInt8 :=
  match protocol with
  | .V4 => QoS.toU8 value.qos
  | .V5 =>
    let options := QoS.toU8 value.qos
    let options := if value.noLocal then options ||| (1 : UInt8) <<< 2 else options
    let options := if value.preserveRetain then options ||| (1 : UInt8) <<< 3 else options
    value.retainForwardRule.mergeToU8 options

end FilterBuilder

structure UnsubscribeFilterBuilder (protocol : Protocol) where
  path : String
  deriving DecidableEq, Repr

structure UnsubscribeBuilder (protocol : Protocol) where
  traceId : TraceId
  userProperties : List (String × String)
  filters : List (UnsubscribeFilterBuilder protocol)
  deriving DecidableEq, Repr

def UnsubscribeFilterBuilder.build {protocol : Protocol}
    (filter : UnsubscribeFilterBuilder protocol) (traceId : TraceId) :
    UnsubscribeBuilder protocol where
  traceId := traceId
  userProperties := []
  filters := [filter]

/-! ## Conversion -/

/-- The loop that both conversions share. -/
def writeUserProperties (buffer : Bytes) (userProperties : List (String × String)) : Bytes :=
  userProperties.foldl (putProperty .UserProperty writeUserProperty) buffer

namespace SubscribeBuilder

variable {protocol : Protocol}

def writeProperties (id : Option SubscribeId) (userProperties : List (String × String)) : Bytes :=
  let buffer := putSome (putProperty .SubscriptionIdentifier
    fun buffer (id : SubscribeId) => writeMqttBytes buffer id.datas) [] id
  writeUserProperties buffer userProperties

def writeFilter (buffer : Bytes) (value : FilterBuilder protocol) : Bytes :=
  putU8 (writeMqttString buffer value.path) value.options

/-- `From<SubscribeBuilder> for TraceSubscribe`. -/
def into (value : SubscribeBuilder protocol) : TraceSubscribe :=
  let buffer := value.filters.foldl writeFilter []
  { id := value.traceId
    subscribe :=
      match protocol with
      | .V4 => .V4 0 buffer
      | .V5 => .V5 0 (writeProperties value.id value.userProperties) buffer }

end SubscribeBuilder

namespace UnsubscribeBuilder

variable {protocol : Protocol}

def writeFilter (buffer : Bytes) (value : UnsubscribeFilterBuilder protocol) : Bytes :=
  writeMqttString buffer value.path

/-- `From<UnsubscribeBuilder> for TraceUnubscribe`. -/
def into (value : UnsubscribeBuilder protocol) : TraceUnubscribe :=
  let buffer := value.filters.foldl writeFilter []
  { id := value.traceId
    unsubscribe :=
      match protocol with
      | .V4 => .V4 0 buffer
      | .V5 => .V5 0 (writeUserProperties [] value.userProperties) buffer }

end UnsubscribeBuilder

/-! ## The packets -/

/-- The V4 arm of `write`, which differs in the first byte only. -/
def writeV4 (byte1 : UInt8) (packetId : PacketId) (filters buffer : Bytes) : Bytes × Nat :=
  let buffer := putU8 buffer byte1
  let remainingLen := filters.length + 2
  let (buffer, remainingLenBytes) := writeRemainingLength buffer remainingLen
  let buffer := putU16 buffer (.ofNat packetId)
  (buffer ++ filters, 1 + remainingLenBytes + remainingLen)

/-- The V5 arm of `write`. -/
def writeV5 (byte1 : UInt8) (packetId : PacketId) (properties filters buffer : Bytes) :
    Bytes × Nat :=
  let buffer := putU8 buffer byte1
  let propertiesLen := lenLen properties.length
  let remainingLen := 2 + propertiesLen + properties.length + filters.length
  let (buffer, remainingLenBytes) := writeRemainingLength buffer remainingLen
  let buffer := putU16 buffer (.ofNat packetId)
  let (buffer, _) := writeRemainingLength buffer properties.length
  let buffer := if properties.length > 0 then buffer ++ properties else buffer
  (buffer ++ filters, 1 + remainingLen + remainingLenBytes)

def Subscribe.write (packet : Subscribe) (buffer : Bytes) : Bytes × Nat :=
  match packet with
  | .V4 packetId filters => writeV4 0x82 packetId filters buffer
  | .V5 packetId properties filters => writeV5 0x82 packetId properties filters buffer

def Unsubscribe.write (packet : Unsubscribe) (buffer : Bytes) : Bytes × Nat :=
  match packet with
  | .V4 packetId filters => writeV4 0xA2 packetId filters buffer
  | .V5 packetId properties filters => writeV5 0xA2 packetId properties filters buffer

end Codec
