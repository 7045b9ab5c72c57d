import ForMqttClient.PacketWriters

/-!
# CONNECT

The packet that opens a connection, with its last will and its login. One writer
serves both protocol versions: it writes the flags as a placeholder, lets will
and login append to the payload and say which flags they need, and then sets the
byte. Will and login also have readers.
-/

namespace Codec

open MqttData ByteReader

/-! ## The last will -/

structure LastWillProperties where
  delayInterval : Option UInt32
  payloadFormatIndicator : Option UInt8
  messageExpiryInterval : Option UInt32
  contentType : Option String
  responseTopic : Option String
  correlationData : Option Bytes
  userProperties : List (String × String)
  deriving DecidableEq, Repr

namespace LastWillProperties

def empty : LastWillProperties where
  delayInterval := none
  payloadFormatIndicator := none
  messageExpiryInterval := none
  contentType := none
  responseTopic := none
  correlationData := none
  userProperties := []

def len (p : LastWillProperties) : Nat :=
  someLen (fun _ => 1 + 4) p.delayInterval +
  someLen (fun _ => 1 + 1) p.payloadFormatIndicator +
  someLen (fun _ => 1 + 4) p.messageExpiryInterval +
  someLen (fun typ => 1 + 2 + strLen typ) p.contentType +
  someLen (fun topic => 1 + 2 + strLen topic) p.responseTopic +
  someLen (fun data => 1 + 2 + data.length) p.correlationData +
  (p.userProperties.map userPropertyLen).sum

def turn (prop : UInt8) (p : LastWillProperties) (cursor : Nat) :
    Parser (LastWillProperties × Nat) := do
  match ← property prop with
  | .WillDelayInterval => takeU32 (fun value => { p with delayInterval := some value }) cursor
  | .PayloadFormatIndicator =>
    takeU8 (fun value => { p with payloadFormatIndicator := some value }) cursor
  | .MessageExpiryInterval =>
    takeU32 (fun value => { p with messageExpiryInterval := some value }) cursor
  | .ContentType => takeString (fun typ => { p with contentType := some typ }) cursor
  | .ResponseTopic => takeString (fun topic => { p with responseTopic := some topic }) cursor
  | .CorrelationData => takeBytes (fun data => { p with correlationData := some data }) cursor
  | .UserProperty =>
    takeUserProperty (fun pair => { p with userProperties := p.userProperties ++ [pair] })
      cursor
  | _ => reject (.InvalidPropertyType prop)

def read : Parser (Option LastWillProperties) := readProperties turn empty

/-- `Ok` in every case. -/
def write (p : LastWillProperties) (buffer : Bytes) : Bytes :=
  let buffer := (writeRemainingLength buffer p.len).1
  let buffer := putSome (putProperty .WillDelayInterval putU32) buffer p.delayInterval
  let buffer := putSome (putProperty .PayloadFormatIndicator putU8) buffer
    p.payloadFormatIndicator
  let buffer := putSome (putProperty .MessageExpiryInterval putU32) buffer
    p.messageExpiryInterval
  let buffer := putSome (putProperty .ContentType writeMqttString) buffer p.contentType
  let buffer := putSome (putProperty .ResponseTopic writeMqttString) buffer p.responseTopic
  let buffer := putSome (putProperty .CorrelationData writeMqttBytes) buffer p.correlationData
  p.userProperties.foldl (putProperty .UserProperty writeUserProperty) buffer

end LastWillProperties

/-- `qos as u8`. -/
def QoS.toU8 : QoS → UInt8
  | .AtMostOnce => 0
  | .AtLeastOnce => 1
  | .ExactlyOnce => 2

structure LastWill where
  topic : String
  message : Bytes
  qos : QoS
  retain : Bool
  properties : Option LastWillProperties
  deriving DecidableEq, Repr

namespace LastWill

def len (w : LastWill) : Nat :=
  let len := match w.properties with
    | some p => lenLen p.len + p.len
    | none => 1
  len + (2 + strLen w.topic + 2 + w.message.length)

def read (connectFlags : UInt8) : Parser (Option LastWill) := do
  if connectFlags &&& 0b100 = 0 then
    if connectFlags &&& 0b00111000 ≠ 0 then reject .IncorrectPacketFormat
    else return none
  else
    let properties ← LastWillProperties.read
    let willTopic ← readMqttString
    let willMessage ← readMqttBytes
    let willQos ← Codec.qos ((connectFlags &&& 0b11000) >>> 3)
    return some {
      topic := willTopic
      message := willMessage
      qos := willQos
      retain := connectFlags &&& 0b00100000 ≠ 0
      properties := properties }

/-- The buffer, and the flags of the will; `Ok` in every case. -/
def write (w : LastWill) (buffer : Bytes) : Bytes × UInt8 :=
  let connectFlags := (0x04 : UInt8) ||| QoS.toU8 w.qos <<< 3
  let connectFlags := if w.retain then connectFlags ||| 0x20 else connectFlags
  let buffer := match w.properties with
    | some p => p.write buffer
    | none => (writeRemainingLength buffer 0).1
  (writeMqttBytes (writeMqttString buffer w.topic) w.message, connectFlags)

end LastWill

/-! ## The login -/

structure Login where
  username : String
  password : String
  deriving DecidableEq, Repr

namespace Login

/-- A string is there if its flag is set. -/
def readString (flag : UInt8) : Parser String :=
  if flag = 0 then return "" else readMqttString

def read (connectFlags : UInt8) : Parser (Option Login) := do
  let username ← readString (connectFlags &&& 0b10000000)
  let password ← readString (connectFlags &&& 0b01000000)
  if username = "" ∧ password = "" then return none
  else return some { username := username, password := password }

/-- The length of a string that is left out if it is empty. -/
def stringLen (s : String) : Nat := if s = "" then 0 else 2 + strLen s

def len (l : Login) : Nat := stringLen l.username + stringLen l.password

/-- The buffer, and the flags of the login. -/
def write (l : Login) (buffer : Bytes) : Bytes × UInt8 :=
  let (buffer, connectFlags) :=
    if l.username = "" then (buffer, (0 : UInt8))
    else (writeMqttString buffer l.username, 0 ||| 0x80)
  if l.password = "" then (buffer, connectFlags)
  else (writeMqttString buffer l.password, connectFlags ||| 0x40)

end Login

/-! ## Properties of CONNECT -/

structure ConnectProperties where
  sessionExpiryInterval : Option UInt32
  receiveMaximum : Option UInt16
  maxPacketSize : Option UInt32
  topicAliasMax : Option UInt16
  requestResponseInfo : Option UInt8
  requestProblemInfo : Option UInt8
  userProperties : List (String × String)
  authenticationMethod : Option String
  authenticationData : Option Bytes
  deriving DecidableEq, Repr

namespace ConnectProperties

def len (p : ConnectProperties) : Nat :=
  someLen (fun _ => 1 + 4) p.sessionExpiryInterval +
  someLen (fun _ => 1 + 2) p.receiveMaximum +
  someLen (fun _ => 1 + 4) p.maxPacketSize +
  someLen (fun _ => 1 + 2) p.topicAliasMax +
  someLen (fun _ => 1 + 1) p.requestResponseInfo +
  someLen (fun _ => 1 + 1) p.requestProblemInfo +
  (p.userProperties.map userPropertyLen).sum +
  someLen (fun method => 1 + 2 + strLen method) p.authenticationMethod +
  someLen (fun data => 1 + 2 + data.length) p.authenticationData

/-- `Ok` in every case. -/
def write (p : ConnectProperties) (buffer : Bytes) : Bytes :=
  let buffer := (writeRemainingLength buffer p.len).1
  let buffer := putSome (putProperty .SessionExpiryInterval putU32) buffer
    p.sessionExpiryInterval
  let buffer := putSome (putProperty .ReceiveMaximum putU16) buffer p.receiveMaximum
  let buffer := putSome (putProperty .MaximumPacketSize putU32) buffer p.maxPacketSize
  let buffer := putSome (putProperty .TopicAliasMaximum putU16) buffer p.topicAliasMax
  let buffer := putSome (putProperty .RequestResponseInformation putU8) buffer
    p.requestResponseInfo
  let buffer := putSome (putProperty .RequestProblemInformation putU8) buffer
    p.requestProblemInfo
  let buffer := p.userProperties.foldl (putProperty .UserProperty writeUserProperty) buffer
  let buffer := putSome (putProperty .AuthenticationMethod writeMqttString) buffer
    p.authenticationMethod
  putSome (putProperty .AuthenticationData writeMqttBytes) buffer p.authenticationData

end ConnectProperties

/-! ## The packet -/

/-- The part of `MqttOptions` that `Connect::new` reads. -/
structure ConnectOptions extends MqttOptions where
  cleanSession : Bool
  clientId : String
  credentials : Option (String × String)
  lastWill : Option LastWill
  /-- The keep alive time is a `u16`. -/
  keepAlive_lt : keepAlive < 65536
  deriving DecidableEq, Repr

/-- The keep alive time that `MqttOptions::new` sets. -/
theorem defaultKeepAlive_lt : 60 < 65536 := by decide

structure Connect where
  protocol : Protocol
  keepAlive : Nat
  clientId : String
  cleanSession : Bool
  lastWill : Option LastWill
  login : Option Login
  connectProperties : Option ConnectProperties
  deriving DecidableEq, Repr

/-- `buffer[index] = byte`. -/
def setByte {ε : Type} (buffer : Bytes) (index : Nat) (byte : UInt8) : Outcome ε Bytes :=
  if index < buffer.length then .ok (buffer.set index byte) else faultAt .index

namespace Connect

def propertiesLen : Option ConnectProperties → Nat
  | some p => lenLen p.len + p.len
  | none => 1

def len (packet : Connect) : Nat :=
  let len := 2 + strLen "MQTT" + 1 + 1 + 2
  let len := match packet.protocol with
    | .V4 => len
    | .V5 => len + propertiesLen packet.connectProperties
  let len := len + (2 + strLen packet.clientId)
  let len := len + someLen LastWill.len packet.lastWill
  len + someLen Login.len packet.login

/-- A part of the payload that may be missing, and the flags with its own. -/
def writePart {α : Type} (write : α → Bytes → Bytes × UInt8) (buffer : Bytes)
    (connectFlags : UInt8) : Option α → Bytes × UInt8
  | some part => ((write part buffer).1, connectFlags ||| (write part buffer).2)
  | none => (buffer, connectFlags)

def write (packet : Connect) (buffer : Bytes) : Outcome PacketParseError (Bytes × Nat) := do
  let len := packet.len
  let buffer := putU8 buffer 0b00010000
  let (buffer, count) := writeRemainingLength buffer len
  let buffer := writeMqttString buffer "MQTT"
  let flagsIndex := 1 + count + 2 + 4 + 1
  let connectFlags : UInt8 := if packet.cleanSession then 0x02 else 0
  let buffer := match packet.protocol with
    | .V4 => putU16 (putU8 (putU8 buffer 0x04) connectFlags) (.ofNat packet.keepAlive)
    | .V5 =>
      let buffer := putU16 (putU8 (putU8 buffer 0x05) connectFlags) (.ofNat packet.keepAlive)
      match packet.connectProperties with
      | some p => p.write buffer
      | none => (writeRemainingLength buffer 0).1
  let buffer := writeMqttString buffer packet.clientId
  let (buffer, connectFlags) := writePart LastWill.write buffer connectFlags packet.lastWill
  let (buffer, connectFlags) := writePart Login.write buffer connectFlags packet.login
  return (← setByte buffer flagsIndex connectFlags, len)

/-- The packet that `new` writes. -/
def ofOptions (option : ConnectOptions) (protocol : Protocol) : Connect :=
  let login := option.credentials.map fun credentials =>
    { username := credentials.1, password := credentials.2 }
  { protocol := protocol
    keepAlive := option.keepAlive
    clientId := option.clientId
    cleanSession := option.cleanSession
    lastWill := option.lastWill
    login := login
    connectProperties := none }

def new (option : ConnectOptions) (protocol : Protocol) : Outcome PacketParseError Bytes := do
  let packet := ofOptions option protocol
  return (← packet.write []).1

end Connect

end Codec
