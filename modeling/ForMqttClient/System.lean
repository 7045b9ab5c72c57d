import ForMqttClient.PairFifo
import ForMqttClient.Tasks

/-!
# The whole client with its broker

Hub, tasks, timers, network tasks and bus in one state. A step is one
await-to-await stretch of one party, and any party may take the next one. An
event put on the bus is delivered to every worker that is subscribed to its
type at that moment, first-in first-out for each pair of sender and receiver
and in no fixed order otherwise. Bus operations do not fail.
-/

namespace System

open MqttData TaskHub Tasks

/-- A login on the bus. The hub has three of them. -/
inductive Worker where
  | client
  | hub
  | hubCommand
  | hubNetwork
  | task (index : Nat)
  | ping (index : Nat)
  | timer (index : Nat)
  | network (index : Nat)
  deriving DecidableEq, Repr

inductive BusEvent where
  | clientData (data : ClientData)
  | hubMsg (msg : HubMsg)
  | command (command : ClientCommand)
  | networkEvent (event : NetworkEvent)
  | mqtt (event : MqttEvent)
  | disconnect
  | data (packet : Outgoing) (receipt : Nat)
  | ack (ack : Ack)
  | pingResp
  deriving DecidableEq, Repr

/-- An event in flight. `message` is the broker's number of a received
publish, 0 for everything else. -/
structure Envelope where
  sender : Worker
  receiver : Worker
  event : BusEvent
  message : Nat
  deriving DecidableEq, Repr

def Envelope.channel (envelope : Envelope) : Worker × Worker :=
  (envelope.sender, envelope.receiver)

/-- History of a run, newest first. Nothing in the client reads it. -/
inductive Event where
  | started (task : Nat) (spec : TaskSpec)
  | pingStarted (ping : Nat)
  | accepted (entry : UnacknowledgedClientData)
  | rxAccepted (task : Nat) (publish : Publish) (message : Nat)
  | rxDup (publish : Publish) (message : Nat)
  | requested (data : ClientData)
  | hubTook (sender : Worker) (msg : HubMsg)
  | acked (task : Nat) (ack : Ack)
  | user (event : MqttEvent)
  | brokerSent (network : Nat) (packet : Packet) (message : Nat)
  | brokerGot (network : Nat) (packet : Outgoing)
  deriving DecidableEq, Repr

/-- 2^32: `KEEP_ALIVE_ID` is an `AtomicU32`, whose `fetch_add` wraps. -/
def u32Size : Nat := 4294967296

structure World where
  /-- `KEEP_ALIVE_ID`, shared by all hubs of the process. -/
  keepAliveId : Nat
  hub : Hub
  tasks : List Task
  pings : List Ping
  /-- The token of each timer of `init_keep_alive_check` until it wakes. -/
  timers : List (Option Nat)
  networks : List Network
  /-- How often each receipt was signalled by `done()`. -/
  receipts : List Nat
  bus : List Envelope
  log : List Event

def World.init (options : MqttOptions) (protocol : Protocol) : World where
  keepAliveId := 0
  hub := .init options protocol
  tasks := []
  pings := []
  timers := []
  networks := []
  receipts := []
  bus := []
  log := []

namespace World

def taskLive (w : World) (index : Nat) (type : AckType) : Bool :=
  match w.tasks[index]? with
  | some task => task.live && task.spec.rx == some type
  | none => false

def pingLive (w : World) (index : Nat) : Bool :=
  match w.pings[index]? with
  | some ping => ping != .ended
  | none => false

def networkLive (w : World) (index : Nat) : Bool :=
  match w.networks[index]? with
  | some network => network.live
  | none => false

/-- The workers that are subscribed to the type of an event. -/
def subscribers (w : World) : BusEvent → List Worker
  | .clientData _ => [.hub]
  | .hubMsg _ => [.hub]
  | .command _ => [.hubCommand]
  | .networkEvent _ => [.hubNetwork]
  | .mqtt _ => [.client]
  | .disconnect =>
    ((List.range w.networks.length).filter w.networkLive).map .network
  | .data _ _ =>
    ((List.range w.networks.length).filter w.networkLive).map .network
  | .ack ack =>
    ((List.range w.tasks.length).filter (fun i => w.taskLive i ack.type)).map .task
  | .pingResp => ((List.range w.pings.length).filter w.pingLive).map .ping

/-- `dispatch_event`. -/
@[simps] def dispatch (w : World) (sender : Worker) (event : BusEvent) (message : Nat) : World :=
  { w with
    bus := w.bus ++
      (w.subscribers event).map (fun receiver => ⟨sender, receiver, event, message⟩) }

@[simps] def record (w : World) (event : Event) : World := { w with log := event :: w.log }

/-- The first half of `tx_network_default`: a fresh receipt, then the dispatch. -/
@[simps!] def send (w : World) (sender : Worker) (packet : Outgoing) : World :=
  { w with receipts := w.receipts ++ [0] }.dispatch sender
    (.data packet w.receipts.length) 0

/-- A worker takes the envelope at position `j` of the bus. -/
def receive (w : World) (receiver : Worker) (j : Nat) : Option (Envelope × World) :=
  match PairFifo.take Envelope.channel w.bus j with
  | some (envelope, bus) =>
    if envelope.receiver = receiver then some (envelope, { w with bus := bus }) else none
  | none => none

/-- `rx.recv()` of a receipt returns `Ok`. -/
def receiptDone (w : World) (receipt : Nat) : Bool := w.receipts[receipt]? == some 1

def holdsReceipt (w : World) (receipt : Nat) (envelope : Envelope) : Bool :=
  match envelope.receiver, envelope.event with
  | .network index, .data _ r => r == receipt && w.networkLive index
  | _, _ => false

/-- `rx.recv()` of a receipt returns an error: every copy of the data was
dropped unsignalled, or the one-place channel was overrun by a second signal. -/
def receiptLost (w : World) (receipt : Nat) : Bool :=
  match w.receipts[receipt]? with
  | some 0 => !w.bus.any (w.holdsReceipt receipt)
  | some 1 => false
  | _ => true

@[simps] def setTask (w : World) (index : Nat) (task : Task) : World :=
  { w with tasks := w.tasks.set index task }

@[simps] def setPing (w : World) (index : Nat) (ping : Ping) : World :=
  { w with pings := w.pings.set index ping }

@[simps] def setNetwork (w : World) (index : Nat) (network : Network) : World :=
  { w with networks := w.networks.set index network }

/-- Carry out one output of the hub. -/
def applyOutput (message : Nat) (w : World) : Output → World
  | .dispatch event => (w.record (.user event)).dispatch .hub (.mqtt event) 0
  | .disconnect => w.dispatch .hub .disconnect 0
  | .start spec =>
    { w.record (.started w.tasks.length spec) with tasks := w.tasks ++ [.init spec] }
  | .startPing =>
    { w.record (.pingStarted w.pings.length) with pings := w.pings ++ [.send 3] }
  | .startNetwork => { w with networks := w.networks ++ [.init] }
  | .fetchAdd => { w with keepAliveId := (w.keepAliveId + 1) % u32Size }
  | .sleep time => { w with timers := w.timers ++ [some time] }
  | .accepted entry => w.record (.accepted entry)
  | .rxAccepted publish => w.record (.rxAccepted w.tasks.length publish message)
  | .rxDup publish => w.record (.rxDup publish message)

def applyOutputs (message : Nat) (w : World) (outputs : List Output) : World :=
  outputs.foldl (applyOutput message) w

def runHub (w : World) (input : HubInput) (message : Nat) : Option World :=
  match w.hub.step w.keepAliveId input with
  | some outcome => some (applyOutputs message { w with hub := outcome.hub } outcome.outputs)
  | none => none

/-- A message waits in the queue of the hub. -/
def queued (w : World) (msg : HubMsg) : Prop :=
  ∃ envelope ∈ w.bus, envelope.receiver = .hub ∧ envelope.event = .hubMsg msg

instance (w : World) (msg : HubMsg) : Decidable (w.queued msg) :=
  inferInstanceAs (Decidable (∃ envelope ∈ w.bus, _ ∧ _))

/-- The client commands in the queue of the hub, oldest first. -/
def commands (w : World) : List ClientCommand :=
  w.bus.filterMap (fun envelope =>
    match envelope.event with
    | .command command => some command
    | _ => none)

end World

inductive HubAction where
  | connect (seen : Nat)
  | connecting (j : Nat)
  | resend
  | command (j : Nat)
  | network (j : Nat)
  | recv (j : Nat)
  | disconnect
  | load
  deriving DecidableEq, Repr

inductive TaskAction where
  | run
  | receipt
  | receiptErr
  | ack (j : Nat)
  | timeout
  deriving DecidableEq, Repr

inductive PingAction where
  | send
  | receipt
  | sendFail
  | recv (j : Nat)
  | timeout
  | dispatch
  deriving DecidableEq, Repr

inductive NetworkAction where
  | connected (sessionPresent : Bool)
  | connectFail (reason : ToConnectError)
  | read
  | readErr (msg : String)
  | take (j : Nat) (writeErr : Option String)
  | writeDisconnect (writeErr : Option String)
  deriving DecidableEq, Repr

inductive BrokerAction where
  | recv
  | send (packet : Packet) (message : Nat)
  deriving DecidableEq, Repr

inductive Action where
  | request (data : ClientData)
  | command (command : ClientCommand)
  | hub (action : HubAction)
  | task (index : Nat) (action : TaskAction)
  | ping (index : Nat) (action : PingAction)
  | timer (index : Nat)
  | network (index : Nat) (action : NetworkAction)
  | broker (index : Nat) (action : BrokerAction)
  deriving DecidableEq, Repr

namespace World

/-- The hub takes what it waits for. Commands are seen in the order of the
queue; some of them may still be on their way. -/
def stepHub (w : World) : HubAction → Option World
  | .connect seen =>
    if seen ≤ w.commands.length then w.runHub (.connect (w.commands.take seen)) 0 else none
  | .connecting j =>
    match w.receive .hubNetwork j with
    | some (⟨_, _, .networkEvent event, _⟩, w) => w.runHub (.connecting event) 0
    | _ => none
  | .resend => w.runHub .resend 0
  | .command j =>
    match w.receive .hubCommand j with
    | some (⟨_, _, .command command, _⟩, w) => w.runHub (.command command) 0
    | _ => none
  | .network j =>
    match w.receive .hubNetwork j with
    | some (⟨_, _, .networkEvent event, _⟩, w) => w.runHub (.network event) 0
    | _ => none
  | .recv j =>
    match w.receive .hub j with
    | some (⟨_, _, .clientData data, _⟩, w) =>
      (w.record (.requested data)).runHub (.clientData data) 0
    | some (⟨sender, _, .hubMsg msg, message⟩, w) =>
      (w.record (.hubTook sender msg)).runHub (.hubMsg msg) message
    | _ => none
  | .disconnect => w.runHub .disconnect 0
  | .load => w.runHub .load 0

/-- One step of the awaits of a sender or receive task. -/
def stepTask (w : World) (i : Nat) (task : Task) : TaskAction → Option World
  | .run =>
    match task.phase, task.prog with
    | .ready, .transmit data _ _ :: _ =>
      some ((w.send (.task i) data).setTask i { task with phase := .sending w.receipts.length })
    | .ready, .send data :: _ =>
      some ((w.send (.task i) data).setTask i { task with phase := .sending w.receipts.length })
    | .ready, .dispatch msg :: rest =>
      some ((w.dispatch (.task i) (.hubMsg msg) 0).setTask i { task with prog := rest })
    | .ready, .txToUser msg :: rest =>
      some (((w.record (.user (msg.event task.ack))).dispatch (.task i)
        (.mqtt (msg.event task.ack)) 0).setTask i { task with prog := rest })
    | _, _ => none
  | .receipt =>
    match task.phase, task.prog with
    | .sending receipt, .transmit _ _ _ :: _ =>
      if w.receiptDone receipt then some (w.setTask i { task with phase := .waiting }) else none
    | .sending receipt, .send _ :: rest =>
      if w.receiptDone receipt then some (w.setTask i { task with prog := rest, phase := .ready })
      else none
    | _, _ => none
  | .receiptErr =>
    match task.phase with
    | .sending receipt =>
      if w.receiptLost receipt then some (w.setTask i { task with prog := [], phase := .ready })
      else none
    | _ => none
  | .ack j =>
    match task.phase, task.prog with
    | .waiting, .transmit _ _ packetId :: rest =>
      match w.receive (.task i) j with
      | some (⟨_, _, .ack ack, _⟩, w) =>
        if ack.isRel packetId then
          some ((w.record (.acked i ack)).setTask i
            { task with prog := rest, phase := .ready, ack := some ack })
        else some w
      | _ => none
    | _, _ => none
  | .timeout =>
    match task.phase, task.prog with
    | .waiting, .transmit _ dupData _ :: _ =>
      some ((w.send (.task i) dupData).setTask i
        { task with phase := .sending w.receipts.length })
    | _, _ => none

/-- One step of `TaskPing::run`. A timeout may come at any moment of a wait. -/
def stepPing (w : World) (i : Nat) (ping : Ping) : PingAction → Option World
  | .send =>
    match ping with
    | .send timeoutTime =>
      some ((w.send (.ping i) .PingReq).setPing i (.sending timeoutTime w.receipts.length))
    | _ => none
  | .receipt =>
    match ping with
    | .sending timeoutTime receipt =>
      if w.receiptDone receipt then some (w.setPing i (.wait timeoutTime)) else none
    | _ => none
  | .sendFail =>
    match ping with
    | .sending timeoutTime _ => some (w.setPing i (.sendFailed timeoutTime))
    | _ => none
  | .recv j =>
    match ping with
    | .wait _ =>
      match w.receive (.ping i) j with
      | some (_, w) => some (w.setPing i .succeed)
      | none => none
    | _ => none
  | .timeout =>
    match ping with
    | .wait timeoutTime => some (w.setPing i (.waitFailed timeoutTime))
    | _ => none
  | .dispatch =>
    match ping with
    | .failing => some ((w.dispatch (.ping i) (.hubMsg .PingFail) 0).setPing i .finalFail)
    | .succeed => some ((w.dispatch (.ping i) (.hubMsg .PingSuccess) 0).setPing i .ended)
    | .finalFail => some ((w.dispatch (.ping i) (.hubMsg .PingFail) 0).setPing i .ended)
    | _ => none

/-- The timer of `init_keep_alive_check` wakes. -/
def stepTimer (w : World) (i : Nat) (time : Nat) : World :=
  { w.dispatch (.timer i) (.hubMsg (.KeepAlive time)) 0 with timers := w.timers.set i none }

/-- What `deal_connected_network_packet` does with one packet. -/
def dealPacket (w : World) (n : Nat) (packet : Packet) (message : Nat) : World :=
  match packet with
  | .ConnAck => w
  | .Publish publish => w.dispatch (.network n) (.hubMsg (.RxPublish publish)) message
  | .Ack ack => w.dispatch (.network n) (.ack ack) 0
  | .PingResp => w.dispatch (.network n) .pingResp 0
  | .Disconnect text => w.dispatch (.network n) (.networkEvent (.BrokerDisconnect text)) 0

/-- A `TaskNetwork` ends; `event` is what `run` reports of the error. -/
def endNetwork (w : World) (n : Nat) (network : Network) (event : NetworkEvent) : World :=
  (w.dispatch (.network n) (.networkEvent event) 0).setNetwork n
    { network with state := .Disconnected }

def stepNetwork (w : World) (n : Nat) (network : Network) : NetworkAction → Option World
  | .connected sessionPresent =>
    match network.state with
    | .ToConnect =>
      some ((w.dispatch (.network n) (.networkEvent (.Connected sessionPresent)) 0).setNetwork n
        { network with state := .Connected })
    | _ => none
  | .connectFail reason =>
    match network.state with
    | .ToConnect => some (w.endNetwork n network (.ConnectFail reason))
    | _ => none
  | .read =>
    match network.state, network.fromBroker with
    | .Connected, (packet, message) :: rest =>
      some ((w.setNetwork n { network with fromBroker := rest }).dealPacket n packet message)
    | _, _ => none
  | .readErr msg =>
    match network.state with
    | .Connected => some (w.endNetwork n network (.ConnectedErr msg))
    | _ => none
  | .take j writeErr =>
    match network.state with
    | .Connected =>
      match w.receive (.network n) j with
      | some (⟨_, _, .disconnect, _⟩, w) =>
        some (w.setNetwork n { network with state := .ToDisconnect })
      | some (⟨_, _, .data packet receipt, _⟩, w) =>
        match writeErr with
        | none =>
          some ({ w with receipts := w.receipts.modify receipt (· + 1) }.setNetwork n
            { network with toBroker := network.toBroker ++ [packet] })
        | some msg => some (w.endNetwork n network (.ConnectedErr msg))
      | _ => none
    | _ => none
  | .writeDisconnect writeErr =>
    match network.state with
    | .ToDisconnect =>
      match writeErr with
      | none =>
        some (w.setNetwork n
          { network with
            state := .Disconnected
            toBroker := network.toBroker ++ [.Disconnect] })
      | some msg => some (w.endNetwork n network (.ConnectedErr msg))
    | _ => none

/-- The far end of one connection. The broker is free to send anything. -/
def stepBroker (w : World) (n : Nat) (network : Network) : BrokerAction → Option World
  | .recv =>
    match network.toBroker with
    | packet :: rest =>
      some ((w.record (.brokerGot n packet)).setNetwork n { network with toBroker := rest })
    | [] => none
  | .send packet message =>
    some ((w.record (.brokerSent n packet message)).setNetwork n
      { network with fromBroker := network.fromBroker ++ [(packet, message)] })

def step (w : World) : Action → Option World
  | .request data => some (w.dispatch .client (.clientData data) 0)
  | .command command => some (w.dispatch .client (.command command) 0)
  | .hub action => w.stepHub action
  | .task i action =>
    match w.tasks[i]? with
    | some task => w.stepTask i task action
    | none => none
  | .ping i action =>
    match w.pings[i]? with
    | some ping => w.stepPing i ping action
    | none => none
  | .timer i =>
    match w.timers[i]? with
    | some (some time) => some (w.stepTimer i time)
    | _ => none
  | .network n action =>
    match w.networks[n]? with
    | some network => w.stepNetwork n network action
    | none => none
  | .broker n action =>
    match w.networks[n]? with
    | some network => w.stepBroker n network action
    | none => none

end World

end System
