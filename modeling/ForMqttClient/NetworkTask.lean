import ForMqttClient.DecoderSafety
import ForMqttClient.GuardedRuns
import ForMqttClient.PacketWriters

/-!
# The network task

`TaskNetwork` on the level of bytes: the handshake, the loop that takes packets
off the receive buffer, and the life of the task from its start to its end. The
results of its calls to the stream, to the mailbox and to the bus are the
actions of a step function; what it does in turn is kept in a log.
-/

namespace NetworkTask

open MqttData Codec ByteReader

/-! ## Events and mailbox -/

/-- What the task dispatches on the bus. -/
inductive Event where
  | Connected (sessionPresent : Bool)
  | ConnectFail (reason : ToConnectError)
  | ConnectedErr (msg : String)
  | BrokerDisconnect (packet : Disconnect)
  | RxPublish (packet : Publish)
  | PubAck (packet : PubCommon PubAckReason)
  | PubRec (packet : PubCommon PubRecReason)
  | PubRel (packet : PubCommon PubRelReason)
  | PubComp (packet : PubCommon PubCompReason)
  | SubAck (packet : SubAck)
  | UnsubAck (packet : UnsubAck)
  | PingResp
  deriving DecidableEq, Repr

/-- An unexpected CONNACK is only logged. -/
def eventOf : Codec.Packet → Option Event
  | .ConnAck _ => none
  | .Publish packet => some (.RxPublish packet)
  | .PubAck packet => some (.PubAck packet)
  | .PubRec packet => some (.PubRec packet)
  | .PubRel packet => some (.PubRel packet)
  | .PubComp packet => some (.PubComp packet)
  | .SubAck packet => some (.SubAck packet)
  | .UnsubAck packet => some (.UnsubAck packet)
  | .PingResp => some .PingResp
  | .Disconnect packet => some (.BrokerDisconnect packet)

/-- The receipt is the number of a `Receipter`. -/
structure DataWaitingToBeSend where
  data : Bytes
  receipter : Option Nat
  deriving DecidableEq, Repr

/-- `NetworkData`; the only hub command is `Disconnect`. -/
inductive NetworkData where
  | Disconnect
  | Data (data : DataWaitingToBeSend)
  deriving DecidableEq, Repr

/-! ## The packet loop -/

/-- `deal_connected_network_packet` while the bus takes every event: the events
in their order, and the buffer. -/
def dealLoop (version : Protocol) : Nat → Bytes → Except Fault (List Event × Bytes)
  | 0, _ => .error .hang
  | fuel + 1, buf =>
    match readFromNetwork buf version with
    | (.ok none, buf) => .ok ([], buf)
    | (.ok (some packet), buf) =>
      let event := (eventOf packet).toList
      if buf.length ≥ 2 then do
        let (events, buf) ← dealLoop version fuel buf
        return (event ++ events, buf)
      else .ok (event, buf)
    | (.error (.error _), buf) => .ok ([], buf)
    | (.error (.fault fault), _) => .error fault

/-- A turn that goes on has taken a frame off the buffer. -/
def dealConnectedNetworkPacket (version : Protocol) (buf : Bytes) :
    Except Fault (List Event × Bytes) :=
  dealLoop version (buf.length + 1) buf

/-! ## The handshake -/

inductive Handshake where
  | waiting (buf : Bytes)
  | connected (sessionPresent : Bool) (buf : Bytes)
  | failed (reason : ToConnectError)
  | panicked (fault : Fault)
  deriving DecidableEq, Repr

def checkConnAck (packet : Codec.Packet) (buf : Bytes) : Handshake :=
  match packet with
  | .ConnAck ack =>
    match ack.code with
    | .Success => .connected ack.sessionPresent buf
    | .Fail code => .failed (.BrokerRefuse code)
  | packet => .failed (.NotConnAck packet.packetTy)

/-- `_run_to_connect` after `read_buf`: one turn of its loop and what follows. -/
def handshakeTurn (version : Protocol) (buf : Bytes) : Handshake :=
  match readFromNetwork buf version with
  | (.ok none, buf) => .waiting buf
  | (.ok (some packet), buf) => checkConnAck packet buf
  | (.error (.error err), _) => .failed (.PacketError err)
  | (.error (.fault fault), _) => .panicked fault

/-- `_run_to_connect` behind the CONNECT packet, on the chunks that `read_buf`
appends one after the other; an empty chunk is the end of the stream. -/
def runToConnect (version : Protocol) (buf : Bytes) : List Bytes → Handshake
  | [] => .waiting buf
  | chunk :: chunks =>
    if chunk = [] then .failed (.NetworkError "TimeOut")
    else
      match handshakeTurn version (buf ++ chunk) with
      | .waiting buf => runToConnect version buf chunks
      | result => result

/-! ## The task -/

inductive Phase where
  | toInit
  | toWriteConnect
  /-- Waits in `_run_to_connect` for bytes. -/
  | toConnect (buf : Bytes)
  /-- Waits in the `select!` of `run_connected`. -/
  | connected (buf : Bytes)
  | toDisconnect
  | disconnected
  /-- Ended by an error. -/
  | dropped
  | panicked (fault : Fault)
  deriving DecidableEq, Repr

/-- What the task has done and taken in. -/
inductive Entry where
  | read (chunk : Bytes)
  | wrote (bytes : Bytes)
  | received (data : NetworkData)
  | done (receipter : Nat)
  | dispatched (event : Event)
  deriving DecidableEq, Repr

structure Task where
  version : Protocol
  connectPacket : Bytes
  phase : Phase
  log : List Entry

/-- How the call ends for which the task waits. -/
inductive CallResult where
  | init (result : Except ToConnectError Unit)
  | write (result : Except String Unit)
  | read (result : Except String Bytes)
  /-- A mailbox item, with the outcome of the write that it asks for. -/
  | recv (data : NetworkData) (written : Except String Unit)
  | recvError

/-- With how many dispatches the bus takes before it closes, if it does. -/
structure Action where
  result : CallResult
  accepted : Option Nat

/-- The bus takes this number of dispatches. -/
def takes (accepted : Option Nat) (count : Nat) : Bool :=
  match accepted with
  | none => true
  | some limit => count ≤ limit

def Task.init (version : Protocol) (connectPacket : Bytes) : Task where
  version := version
  connectPacket := connectPacket
  phase := .toInit
  log := []

namespace Task

def record (t : Task) (entries : List Entry) : Task :=
  { t with log := t.log ++ entries }

/-- The events one after the other; the first one that the bus refuses ends the task. -/
def dispatch (t : Task) (accepted : Option Nat) (events : List Event) (next : Phase) : Task :=
  if takes accepted events.length then
    { t.record (events.map .dispatched) with phase := next }
  else
    { t.record ((events.take (accepted.getD 0)).map .dispatched) with phase := .dropped }

/-- The end of `run` for `NetworkError`. -/
def networkError (t : Task) (accepted : Option Nat) (msg : String) : Task :=
  t.dispatch accepted [.ConnectedErr msg] .dropped

/-- The end of `run` for `ConnectFail`. -/
def connectFail (t : Task) (accepted : Option Nat) (reason : ToConnectError) : Task :=
  t.dispatch accepted [.ConnectFail reason] .dropped

/-- `DataWaitingToBeSend::done`. -/
def done (t : Task) (data : DataWaitingToBeSend) : Task :=
  t.record (data.receipter.toList.map .done)

def afterHandshake (t : Task) (accepted : Option Nat) : Handshake → Task
  | .waiting buf => { t with phase := .toConnect buf }
  | .connected sessionPresent buf =>
    t.dispatch accepted [.Connected sessionPresent] (.connected buf)
  | .failed reason => t.connectFail accepted reason
  | .panicked fault => { t with phase := .panicked fault }

/-- `run_to_connect` while it waits for bytes. -/
def readToConnect (t : Task) (accepted : Option Nat) (buf : Bytes) :
    Except String Bytes → Task
  | .error msg => t.connectFail accepted (.NetworkError msg)
  | .ok chunk =>
    if chunk = [] then t.connectFail accepted (.NetworkError "TimeOut")
    else
      (t.record [.read chunk]).afterHandshake accepted (handshakeTurn t.version (buf ++ chunk))

def afterPackets (t : Task) (accepted : Option Nat) : Except Fault (List Event × Bytes) → Task
  | .ok (events, buf) => t.dispatch accepted events (.connected buf)
  | .error fault => { t with phase := .panicked fault }

/-- The branch of `run_connected` that reads. -/
def readConnected (t : Task) (accepted : Option Nat) (buf : Bytes) :
    Except String Bytes → Task
  | .error msg => t.networkError accepted msg
  | .ok chunk =>
    if chunk = [] then t.networkError accepted "read 0 byte from network"
    else
      (t.record [.read chunk]).afterPackets accepted
        (dealConnectedNetworkPacket t.version (buf ++ chunk))

/-- `deal_network_data`. -/
def dealNetworkData (t : Task) (accepted : Option Nat) (data : NetworkData)
    (written : Except String Unit) : Task :=
  let t := t.record [.received data]
  match data with
  | .Disconnect => { t with phase := .toDisconnect }
  | .Data data =>
    match written with
    | .ok () => (t.record [.wrote data.data]).done data
    | .error msg => t.networkError accepted msg

/-- The task goes on with the outcome of its call; other outcomes are not due. -/
def step (t : Task) (action : Action) : Option Task :=
  match t.phase, action.result with
  | .toInit, .init (.ok ()) => some { t with phase := .toWriteConnect }
  | .toInit, .init (.error reason) => some (t.connectFail action.accepted reason)
  | .toWriteConnect, .write (.ok ()) =>
    some { t.record [.wrote t.connectPacket] with phase := .toConnect [] }
  | .toWriteConnect, .write (.error msg) =>
    some (t.connectFail action.accepted (.NetworkError msg))
  | .toConnect buf, .read result => some (t.readToConnect action.accepted buf result)
  | .connected buf, .read result => some (t.readConnected action.accepted buf result)
  | .connected _, .recv data written =>
    some (t.dealNetworkData action.accepted data written)
  | .connected _, .recvError => some { t with phase := .dropped }
  | .toDisconnect, .write (.ok ()) =>
    some { t.record [.wrote (Disconnect.new t.version).data] with phase := .disconnected }
  | .toDisconnect, .write (.error msg) => some (t.networkError action.accepted msg)
  | _, _ => none

/-- The steps by their kind, each with the phase in which it is due. -/
inductive Move (t : Task) (accepted : Option Nat) : CallResult → Task → Prop where
  | opened (phase : t.phase = .toInit) :
      Move t accepted (.init (.ok ())) { t with phase := .toWriteConnect }
  | notOpened {reason : ToConnectError} (phase : t.phase = .toInit) :
      Move t accepted (.init (.error reason)) (t.connectFail accepted reason)
  | connectWritten (phase : t.phase = .toWriteConnect) :
      Move t accepted (.write (.ok ()))
        { t.record [.wrote t.connectPacket] with phase := .toConnect [] }
  | connectUnwritten {msg : String} (phase : t.phase = .toWriteConnect) :
      Move t accepted (.write (.error msg)) (t.connectFail accepted (.NetworkError msg))
  | readToConnect {buf : Bytes} {result : Except String Bytes} (phase : t.phase = .toConnect buf) :
      Move t accepted (.read result) (t.readToConnect accepted buf result)
  | readConnected {buf : Bytes} {result : Except String Bytes} (phase : t.phase = .connected buf) :
      Move t accepted (.read result) (t.readConnected accepted buf result)
  | dealNetworkData {buf : Bytes} {data : NetworkData} {written : Except String Unit}
      (phase : t.phase = .connected buf) :
      Move t accepted (.recv data written) (t.dealNetworkData accepted data written)
  | mailboxClosed {buf : Bytes} (phase : t.phase = .connected buf) :
      Move t accepted .recvError { t with phase := .dropped }
  | disconnectWritten (phase : t.phase = .toDisconnect) :
      Move t accepted (.write (.ok ()))
        { t.record [.wrote (Disconnect.new t.version).data] with phase := .disconnected }
  | disconnectUnwritten {msg : String} (phase : t.phase = .toDisconnect) :
      Move t accepted (.write (.error msg)) (t.networkError accepted msg)

theorem step_move {t t' : Task} {action : Action} (stepped : t.step action = some t') :
    Move t action.accepted action.result t' := by
  obtain ⟨result, accepted⟩ := action
  unfold Task.step at stepped
  split at stepped
  all_goals try injection stepped with stepped; subst stepped
  · next phase due => exact due ▸ .opened phase
  · next phase due => exact due ▸ .notOpened phase
  · next phase due => exact due ▸ .connectWritten phase
  · next phase due => exact due ▸ .connectUnwritten phase
  · next phase due => exact due ▸ .readToConnect phase
  · next phase due => exact due ▸ .readConnected phase
  · next phase due => exact due ▸ .dealNetworkData phase
  · next phase due => exact due ▸ .mailboxClosed phase
  · next phase due => exact due ▸ .disconnectWritten phase
  · next phase due => exact due ▸ .disconnectUnwritten phase
  · cases stepped

end Task

end NetworkTask
