import ForMqttClient.TaskHub

/-!
# The spawned tasks

The `run` of a sender or receive task is a straight line of awaits, each of
which ends the task when it fails. It is kept as the list of the awaits still
to do. `TaskPing` has two loops over one counter and is a state machine of its
own. `TaskNetwork` is the third kind of task.
-/

namespace Tasks

open MqttData TaskHub

/-- What a task hands to `tx_to_user`. The lists of return codes come from the
acknowledgement that the task has taken. -/
inductive UserMsg where
  | PublishSuccess (id : TraceId)
  | SubscribeAck (id : TraceId)
  | UnsubscribeAck (id : TraceId)
  deriving DecidableEq, Repr

def UserMsg.id : UserMsg → TraceId
  | .PublishSuccess id => id
  | .SubscribeAck id => id
  | .UnsubscribeAck id => id

def UserMsg.event (ack : Option Ack) : UserMsg → MqttEvent
  | .PublishSuccess id => .PublishSuccess id
  | .SubscribeAck id =>
    .SubscribeAck ⟨id, match ack with | some (.SubAck _ codes) => codes | _ => []⟩
  | .UnsubscribeAck id =>
    .UnsubscribeAck ⟨id, match ack with | some (.UnsubAck _ codes) => codes | _ => []⟩

/-- One await of a `run`. `transmit` is `complete_to_tx_packet` with the bytes
of `data()` and of `dup_data()`, `send` is `tx_network_default`. -/
inductive Instr where
  | transmit (data dupData : Outgoing) (packetId : PacketId)
  | send (data : Outgoing)
  | dispatch (msg : HubMsg)
  | txToUser (msg : UserMsg)
  deriving DecidableEq, Repr

/-- `PacketDup for Publish`: only the DUP flag differs. -/
def transmitPublish (publish : Publish) (packetId : PacketId) : Instr :=
  .transmit (.Publish publish) (.Publish { publish with dup := true }) packetId

end Tasks

namespace TaskHub.TaskSpec

open MqttData Tasks

/-- The awaits of `run`, for each task. -/
def run : TaskSpec → List Instr
  | .PublishQos0 trace =>
    [.send (.Publish (.new trace.topic .AtMostOnce trace.payload trace.retain trace.protocol)),
      .txToUser (.PublishSuccess trace.id)]
  | .PublishQos1 trace =>
    [transmitPublish (.new trace.topic (.AtLeastOnce trace.packetId) trace.payload
        trace.retain trace.protocol) trace.packetId,
      .dispatch (.RecoverId trace.packetId),
      .dispatch (.RecoverId trace.packetId),
      .txToUser (.PublishSuccess trace.id)]
  | .PublishQos2 trace =>
    [transmitPublish (.new trace.topic (.ExactlyOnce trace.packetId) trace.payload
        trace.retain trace.protocol) trace.packetId,
      .dispatch (.RecoverId trace.packetId)]
  | .PublishQos2Rel packetId id _ =>
    [.transmit (.PubRel packetId) (.PubRel packetId) packetId,
      .dispatch (.RecoverId packetId),
      .txToUser (.PublishSuccess id)]
  | .Subscribe trace =>
    [.transmit (.Subscribe trace.subscribe) (.Subscribe trace.subscribe) trace.packetId,
      .dispatch (.RecoverId trace.packetId),
      .txToUser (.SubscribeAck trace.id)]
  | .Unsubscribe trace =>
    [.transmit (.Unsubscribe trace.unsubscribe) (.Unsubscribe trace.unsubscribe) trace.packetId,
      .dispatch (.RecoverId trace.packetId),
      .txToUser (.UnsubscribeAck trace.id)]
  | .PublishRxQos1 packetId _ =>
    [.send (.PubAck packetId),
      .dispatch (.AffirmRxPublish packetId),
      .dispatch (.AffirmRxId packetId)]
  | .PublishRxQos2 packetId _ =>
    [.transmit (.PubRec packetId) (.PubRec packetId) packetId,
      .dispatch (.AffirmRxPublish packetId),
      .send (.PubComp packetId),
      .dispatch (.AffirmRxId packetId)]

/-- The event type that `init` subscribes to. -/
def rx : TaskSpec → Option AckType
  | .PublishQos0 _ => none
  | .PublishQos1 _ => some .PubAck
  | .PublishQos2 _ => some .PubRec
  | .PublishQos2Rel _ _ _ => some .PubComp
  | .Subscribe _ => some .SubAck
  | .Unsubscribe _ => some .UnsubAck
  | .PublishRxQos1 _ _ => none
  | .PublishRxQos2 _ _ => some .PubRel

end TaskHub.TaskSpec

namespace Tasks

open MqttData TaskHub

/-- Progress inside the first await of `prog`: not begun, waiting for the
receipt of a send, or waiting for the acknowledgement. -/
inductive Phase where
  | ready
  | sending (receipt : Nat)
  | waiting
  deriving DecidableEq, Repr

/-- A task has ended when nothing is left of its `run`; an error empties it. -/
structure Task where
  spec : TaskSpec
  prog : List Instr
  phase : Phase
  ack : Option Ack
  deriving DecidableEq, Repr

def Task.init (spec : TaskSpec) : Task where
  spec := spec
  prog := spec.run
  phase := .ready
  ack := none

def Task.live (task : Task) : Bool := !task.prog.isEmpty

/-- `TaskPing::run`, with `timeout_time` where it matters. -/
inductive Ping where
  | send (timeoutTime : Nat)
  | sending (timeoutTime : Nat) (receipt : Nat)
  | failing
  | wait (timeoutTime : Nat)
  | succeed
  | finalFail
  | ended
  deriving DecidableEq, Repr

/-- After a send that failed or timed out. -/
def Ping.sendFailed (timeoutTime : Nat) : Ping :=
  if timeoutTime - 1 ≤ 0 then .failing else .send (timeoutTime - 1)

/-- After a receive that failed or timed out. -/
def Ping.waitFailed (timeoutTime : Nat) : Ping :=
  if timeoutTime - 1 ≤ 0 then .finalFail else .wait (timeoutTime - 1)

/-- `NetworkState`. A task that ended by an error is recorded as
`Disconnected` too. -/
inductive NetworkState where
  | ToConnect
  | Connected
  | ToDisconnect
  | Disconnected
  deriving DecidableEq, Repr

/-- A `TaskNetwork` with the two directions of its stream. What the broker
sends carries the number that the broker gave the application message; it is
bookkeeping of the model, which no part of the client reads. -/
structure Network where
  state : NetworkState
  toBroker : List Outgoing
  fromBroker : List (Packet × Nat)
  deriving DecidableEq, Repr

def Network.init : Network where
  state := .ToConnect
  toBroker := []
  fromBroker := []

def Network.live (network : Network) : Bool := network.state ≠ .Disconnected

end Tasks
