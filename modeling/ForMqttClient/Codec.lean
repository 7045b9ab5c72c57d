import ForMqttClient.ByteReader
import ForMqttClient.MqttData

/-!
# The parts that the packet codecs share

The fixed header, the variable byte integer, integers, strings and binary data
of the protocol, with the checks under which the readers use the stream. What
the source appends to a buffer is appended to a list of bytes here.
-/

namespace Codec

open MqttData ByteReader

abbrev Parser (α : Type) := Reader PacketParseError α

/-! ## Numbers of the protocol -/

/-- `packet_type as u8`. -/
def PacketType.toU8 : PacketType → UInt8
  | .Connect => 1
  | .ConnAck => 2
  | .Publish => 3
  | .PubAck => 4
  | .PubRec => 5
  | .PubRel => 6
  | .PubComp => 7
  | .Subscribe => 8
  | .SubAck => 9
  | .Unsubscribe => 10
  | .UnsubAck => 11
  | .PingReq => 12
  | .PingResp => 13
  | .Disconnect => 14

inductive PropertyType where
  | PayloadFormatIndicator | MessageExpiryInterval | ContentType
  | ResponseTopic | CorrelationData | SubscriptionIdentifier
  | SessionExpiryInterval | AssignedClientIdentifier | ServerKeepAlive
  | AuthenticationMethod | AuthenticationData | RequestProblemInformation
  | WillDelayInterval | RequestResponseInformation | ResponseInformation
  | ServerReference | ReasonString | ReceiveMaximum | TopicAliasMaximum
  | TopicAlias | MaximumQos | RetainAvailable | UserProperty
  | MaximumPacketSize | WildcardSubscriptionAvailable
  | SubscriptionIdentifierAvailable | SharedSubscriptionAvailable
  deriving DecidableEq, Repr

def PropertyType.toU8 : PropertyType → UInt8
  | .PayloadFormatIndicator => 1
  | .MessageExpiryInterval => 2
  | .ContentType => 3
  | .ResponseTopic => 8
  | .CorrelationData => 9
  | .SubscriptionIdentifier => 11
  | .SessionExpiryInterval => 17
  | .AssignedClientIdentifier => 18
  | .ServerKeepAlive => 19
  | .AuthenticationMethod => 21
  | .AuthenticationData => 22
  | .RequestProblemInformation => 23
  | .WillDelayInterval => 24
  | .RequestResponseInformation => 25
  | .ResponseInformation => 26
  | .ServerReference => 28
  | .ReasonString => 31
  | .ReceiveMaximum => 33
  | .TopicAliasMaximum => 34
  | .TopicAlias => 35
  | .MaximumQos => 36
  | .RetainAvailable => 37
  | .UserProperty => 38
  | .MaximumPacketSize => 39
  | .WildcardSubscriptionAvailable => 40
  | .SubscriptionIdentifierAvailable => 41
  | .SharedSubscriptionAvailable => 42

def property (num : UInt8) : Outcome PacketParseError PropertyType :=
  match num.toNat with
  | 1 => .ok .PayloadFormatIndicator
  | 2 => .ok .MessageExpiryInterval
  | 3 => .ok .ContentType
  | 8 => .ok .ResponseTopic
  | 9 => .ok .CorrelationData
  | 11 => .ok .SubscriptionIdentifier
  | 17 => .ok .SessionExpiryInterval
  | 18 => .ok .AssignedClientIdentifier
  | 19 => .ok .ServerKeepAlive
  | 21 => .ok .AuthenticationMethod
  | 22 => .ok .AuthenticationData
  | 23 => .ok .RequestProblemInformation
  | 24 => .ok .WillDelayInterval
  | 25 => .ok .RequestResponseInformation
  | 26 => .ok .ResponseInformation
  | 28 => .ok .ServerReference
  | 31 => .ok .ReasonString
  | 33 => .ok .ReceiveMaximum
  | 34 => .ok .TopicAliasMaximum
  | 35 => .ok .TopicAlias
  | 36 => .ok .MaximumQos
  | 37 => .ok .RetainAvailable
  | 38 => .ok .UserProperty
  | 39 => .ok .MaximumPacketSize
  | 40 => .ok .WildcardSubscriptionAvailable
  | 41 => .ok .SubscriptionIdentifierAvailable
  | 42 => .ok .SharedSubscriptionAvailable
  | _ => fail (.InvalidPropertyType num)

/-! ## The fixed header -/

inductive FixedHeaderError where
  | InsufficientBytes (size : Nat)
  | MalformedRemainingLength
  deriving DecidableEq, Repr

def FixedHeaderError.toDiscard (err : FixedHeaderError) : Bool :=
  err = .MalformedRemainingLength

/-- `From<FixedHeaderError> for PacketParseError`. -/
def FixedHeaderError.into : FixedHeaderError → PacketParseError
  | .InsufficientBytes size => .InsufficientBytes size
  | .MalformedRemainingLength => .MalformedRemainingLength

structure FixedHeader where
  byte1 : UInt8
  fixedHeaderLen : Nat
  remainingLen : Nat
  deriving DecidableEq, Repr

namespace FixedHeader

def new (byte1 : UInt8) (remainingLenLen remainingLen : Nat) :
    Outcome FixedHeaderError FixedHeader := do
  let fixedHeaderLen ← add remainingLenLen 1
  return { byte1 := byte1, fixedHeaderLen := fixedHeaderLen, remainingLen := remainingLen }

def packetType (header : FixedHeader) : Outcome PacketParseError PacketType :=
  let num := header.byte1 >>> 4
  match num.toNat with
  | 1 => .ok .Connect
  | 2 => .ok .ConnAck
  | 3 => .ok .Publish
  | 4 => .ok .PubAck
  | 5 => .ok .PubRec
  | 6 => .ok .PubRel
  | 7 => .ok .PubComp
  | 8 => .ok .Subscribe
  | 9 => .ok .SubAck
  | 10 => .ok .Unsubscribe
  | 11 => .ok .UnsubAck
  | 12 => .ok .PingReq
  | 13 => .ok .PingResp
  | 14 => .ok .Disconnect
  | _ => fail (.InvalidPacketType num)

def frameLength {ε : Type} (header : FixedHeader) : Outcome ε Nat :=
  add header.fixedHeaderLen header.remainingLen

end FixedHeader

def lengthLoop : Bytes → Nat → Nat → Nat → Outcome FixedHeaderError (Nat × Nat)
  | [], _, _, _ => fail (.InsufficientBytes 1)
  | byte :: stream, lenLen, len, shift => do
    let lenLen ← add lenLen 1
    let low ← shiftLeft (byte.toNat &&& 0x7F) shift
    let len ← add len low
    if byte.toNat &&& 0x80 = 0 then return (lenLen, len)
    let shift ← add shift 7
    if shift > 21 then fail .MalformedRemainingLength
    else lengthLoop stream lenLen len shift

/-- A variable byte integer at the front of the stream, as the number of its
bytes and its value. -/
def length (stream : Bytes) : Outcome FixedHeaderError (Nat × Nat) :=
  lengthLoop stream 0 0 0

def parseFixedHeaderBySlice (stream : Bytes) : Outcome FixedHeaderError FixedHeader := do
  if stream.length < 2 then fail (.InsufficientBytes (← sub 2 stream.length))
  else
    let byte1 ← index stream 0
    let (lenLen, len) ← length (← sliceFrom stream 1)
    FixedHeader.new byte1 lenLen len

/-! ## Reading -/

/-- `?` at a `FixedHeaderError`. -/
def orParseError {α : Type} : Outcome FixedHeaderError α → Outcome PacketParseError α
  | .ok value => .ok value
  | .error (.error err) => fail err.into
  | .error (.fault fault) => faultAt fault

def peekLength : Parser (Nat × Nat) := do
  orParseError (length (← peek))

def readU8 : Parser UInt8 := do
  if (← remaining) = 0 then reject .MalformedPacket else getU8

def readU16 : Parser UInt16 := do
  if (← remaining) < 2 then reject .MalformedPacket else getU16

def readU32 : Parser UInt32 := do
  if (← remaining) < 4 then reject .MalformedPacket else getU32

def readMqttBytes : Parser Bytes := do
  let len := (← readU16).toNat
  if len > (← remaining) then reject (.BoundaryCrossed len) else splitTo len

/-- `String::as_bytes`. -/
def asBytes (s : String) : Bytes := s.toByteArray.data.toList

/-- `String::len`. -/
def strLen (s : String) : Nat := (asBytes s).length

def fromUtf8 (bytes : Bytes) : Option String := String.fromUTF8? ⟨bytes.toArray⟩

theorem asBytes_fromUtf8 {bytes : Bytes} {s : String} (valid : fromUtf8 bytes = some s) :
    asBytes s = bytes := by
  rw [fromUtf8, String.fromUTF8?] at valid
  split at valid
  · cases valid
    rfl
  · cases valid

def readMqttString : Parser String := do
  match fromUtf8 (← readMqttBytes) with
  | some s => return s
  | none => reject .TopicNotUtf8

/-! ## Writing -/

def putU8 (buffer : Bytes) (n : UInt8) : Bytes := buffer ++ [n]

def putU16 (buffer : Bytes) (n : UInt16) : Bytes :=
  buffer ++ [.ofNat (n.toNat / 256), .ofNat n.toNat]

def putU32 (buffer : Bytes) (n : UInt32) : Bytes :=
  buffer ++ [.ofNat (n.toNat / 16777216), .ofNat (n.toNat / 65536),
    .ofNat (n.toNat / 256), .ofNat n.toNat]

/-- The length is cut to a `u16`. -/
def writeMqttBytes (buffer bytes : Bytes) : Bytes :=
  putU16 buffer (.ofNat bytes.length) ++ bytes

def writeMqttString (buffer : Bytes) (s : String) : Bytes :=
  writeMqttBytes buffer (asBytes s)

/-- The buffer, and how many bytes the length took. -/
def writeRemainingLength (buffer : Bytes) (len : Nat) : Bytes × Nat :=
  let byte := UInt8.ofNat (len % 128)
  if len / 128 > 0 then
    let (buffer, count) := writeRemainingLength (putU8 buffer (byte ||| 128)) (len / 128)
    (buffer, count + 1)
  else
    (putU8 buffer byte, 1)
termination_by len

/-- The number of bytes of an encoded length. -/
def lenLen (len : Nat) : Nat :=
  if len ≥ 2097152 then 4
  else if len ≥ 16384 then 3
  else if len ≥ 128 then 2
  else 1

end Codec
