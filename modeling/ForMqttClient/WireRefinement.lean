import ForMqttClient.Lifecycle
import ForMqttClient.SystemSteps

/-!
# From bytes to the packets of the system

A `TaskNetwork` on the level of bytes does what the network task of the whole
system does: each of its steps is a run of steps of that task and of its broker,
with the same events on the bus in the same order, and the packets that it
writes are those that the broker of the system receives.
-/

namespace NetworkTask

open MqttData Codec ByteReader GuardedRuns System Tasks TaskHub SystemSteps

/-! ## Packets and events -/

def subAck : SubAck → Ack
  | .V4 packetId returnCodes => .SubAck packetId returnCodes
  | .V5ReadMode packetId _ returnCodes => .SubAck packetId returnCodes

def unsubAck : UnsubAck → Ack
  | .V4 packetId => .UnsubAck packetId []
  | .V5ReadMode packetId _ returnCodes => .UnsubAck packetId returnCodes

section Translation

variable (text : Disconnect → String)

/-- A packet as the broker of the system sends it. -/
def sentAs : Codec.Packet → MqttData.Packet
  | .ConnAck _ => .ConnAck
  | .Publish packet => .Publish packet
  | .PubAck packet => .Ack (.PubAck packet.packetId)
  | .PubRec packet => .Ack (.PubRec packet.packetId)
  | .PubRel packet => .Ack (.PubRel packet.packetId)
  | .PubComp packet => .Ack (.PubComp packet.packetId)
  | .SubAck packet => .Ack (subAck packet)
  | .UnsubAck packet => .Ack (unsubAck packet)
  | .PingResp => .PingResp
  | .Disconnect packet => .Disconnect (text packet)

/-- An event as the bus of the system carries it. -/
def onBus : Event → BusEvent
  | .Connected sessionPresent => .networkEvent (.Connected sessionPresent)
  | .ConnectFail reason => .networkEvent (.ConnectFail reason)
  | .ConnectedErr msg => .networkEvent (.ConnectedErr msg)
  | .BrokerDisconnect packet => .networkEvent (.BrokerDisconnect (text packet))
  | .RxPublish packet => .hubMsg (.RxPublish packet)
  | .PubAck packet => .ack (.PubAck packet.packetId)
  | .PubRec packet => .ack (.PubRec packet.packetId)
  | .PubRel packet => .ack (.PubRel packet.packetId)
  | .PubComp packet => .ack (.PubComp packet.packetId)
  | .SubAck packet => .ack (subAck packet)
  | .UnsubAck packet => .ack (unsubAck packet)
  | .PingResp => .pingResp

/-- The envelopes of one event. -/
def envelopes (w : World) (n : Nat) (event : Event) : List Envelope :=
  (w.subscribers (onBus text event)).map fun receiver =>
    ⟨.network n, receiver, onBus text event, 0⟩

theorem dealPacket_sentAs (w : World) (n : Nat) (packet : Codec.Packet) :
    w.dealPacket n (sentAs text packet) 0 =
      { w with bus := w.bus ++ (eventOf packet).toList.flatMap (envelopes text w n) } := by
  cases packet with
  | ConnAck packet => simp [eventOf, World.dealPacket, sentAs]
  | _ => simp [eventOf, World.dealPacket, sentAs, envelopes, onBus, World.dispatch]

/-! ## Steps of the system in the place of a task -/

/-- The packets that the broker of network task `n` has taken. -/
def gotBy (n : Nat) : System.Event → Option Outgoing
  | .brokerGot m packet => if m = n then some packet else none
  | _ => none

def takenBy (n : Nat) (log : List System.Event) : List Outgoing :=
  log.reverse.filterMap (gotBy n)

theorem takenBy_cons (n : Nat) (event : System.Event) (log : List System.Event) :
    takenBy n (event :: log) = takenBy n log ++ (gotBy n event).toList := by
  rw [takenBy, List.reverse_cons, List.filterMap_append]
  cases got : gotBy n event with
  | none => simp [takenBy, got]
  | some packet => simp [takenBy, got]

/-- The world after steps of network task `n` that put these events on the bus
and signal these receipts; `left` is the bus without what the task has taken. -/
structure Shows (n : Nat) (w w' : World) (left : List Envelope) (events : List Event)
    (receipts : List Nat) : Prop where
  hub : w'.hub = w.hub
  tasks : w'.tasks = w.tasks
  pings : w'.pings = w.pings
  timers : w'.timers = w.timers
  taken : takenBy n w'.log = takenBy n w.log
  bus : w'.bus = left ++ events.flatMap (envelopes text w n)
  receipts : w'.receipts =
    receipts.foldl (fun counts receipt => counts.modify receipt (· + 1)) w.receipts

theorem envelopes_same {w w' : World} (tasks : w'.tasks = w.tasks) (pings : w'.pings = w.pings)
    (n : Nat) (event : Event) : envelopes text w' n event = envelopes text w n event := by
  have tasksLive : w'.taskLive = w.taskLive := by
    funext i type
    simp only [World.taskLive, tasks]
  have pingsLive : w'.pingLive = w.pingLive := by
    funext i
    simp only [World.pingLive, pings]
  have same : w'.subscribers (onBus text event) = w.subscribers (onBus text event) := by
    cases event <;> simp only [onBus, World.subscribers, tasksLive, pingsLive, tasks, pings]
  rw [envelopes, same]
  rfl

theorem Shows.trans {n : Nat} {w w₁ w₂ : World} {left : List Envelope} {first second : List Event}
    {receipts : List Nat} (here : Shows text n w w₁ left first receipts)
    (there : Shows text n w₁ w₂ w₁.bus second []) :
    Shows text n w w₂ left (first ++ second) receipts where
  hub := there.hub.trans here.hub
  tasks := there.tasks.trans here.tasks
  pings := there.pings.trans here.pings
  timers := there.timers.trans here.timers
  taken := there.taken.trans here.taken
  bus := by
    have same : envelopes text w₁ n = envelopes text w n :=
      funext (envelopes_same text here.tasks here.pings n)
    rw [there.bus, here.bus, same, List.flatMap_append, List.append_assoc]
  receipts := there.receipts.trans here.receipts

theorem Shows.refl (n : Nat) (w : World) : Shows text n w w w.bus [] [] where
  hub := rfl
  tasks := rfl
  pings := rfl
  timers := rfl
  taken := rfl
  bus := (List.append_nil _).symm
  receipts := rfl

theorem getElem?_set_of_some {α : Type} {l : List α} {n : Nat} {a : α} (here : l[n]? = some a)
    (b : α) : (l.set n b)[n]? = some b :=
  List.getElem?_set_self (List.getElem?_eq_some_iff.mp here).1

/-- The broker sends a packet, and the network task reads it. -/
def exchange (n : Nat) (packet : Codec.Packet) : List System.Action :=
  [.broker n (.send (sentAs text packet) 0), .network n .read]

theorem run_exchange {n : Nat} {w : World} {network : Network}
    (here : w.networks[n]? = some network) (connected : network.state = .Connected)
    (quiet : network.fromBroker = []) (packet : Codec.Packet) :
    ∃ w', run World.step w (exchange text n packet) = some w' ∧
      w'.networks[n]? = some network ∧
      Shows text n w w' w.bus (eventOf packet).toList [] := by
  obtain ⟨state, toBroker, fromBroker⟩ := network
  simp only at connected quiet
  subst connected quiet
  let full : Network := ⟨.Connected, toBroker, [(sentAs text packet, 0)]⟩
  let sent := (w.record (.brokerSent n (sentAs text packet) 0)).setNetwork n full
  let read := sent.setNetwork n ⟨.Connected, toBroker, []⟩
  have sentHere : sent.networks[n]? = some full := getElem?_set_of_some here full
  have sends : w.step (.broker n (.send (sentAs text packet) 0)) = some sent := by
    simp only [World.step, here, World.stepBroker, List.nil_append]
    rfl
  have reads : sent.step (.network n .read) = some (read.dealPacket n (sentAs text packet) 0) := by
    simp only [World.step, sentHere, World.stepNetwork, full]
    rfl
  have runs : run World.step w (exchange text n packet) =
      some (read.dealPacket n (sentAs text packet) 0) := by
    simp only [exchange, run, sends, reads, Option.bind_some]
  rw [dealPacket_sentAs] at runs
  refine ⟨_, runs, getElem?_set_of_some sentHere _, ?_⟩
  have tasks : read.tasks = w.tasks := rfl
  have pings : read.pings = w.pings := rfl
  have same := funext (envelopes_same text tasks pings n)
  constructor
  case taken => exact (takenBy_cons n _ w.log).trans (List.append_nil _)
  case bus => exact congrArg (fun each => w.bus ++ (eventOf packet).toList.flatMap each) same
  all_goals rfl

/-- The broker sends packets one after the other, and the network task reads each. -/
theorem run_exchanges {n : Nat} {network : Network} (connected : network.state = .Connected)
    (quiet : network.fromBroker = []) (packets : List Codec.Packet) :
    ∀ {w : World}, w.networks[n]? = some network →
      ∃ w', run World.step w (packets.flatMap (exchange text n)) = some w' ∧
        w'.networks[n]? = some network ∧
        Shows text n w w' w.bus (packets.flatMap fun packet => (eventOf packet).toList) [] := by
  induction packets with
  | nil => exact fun {w} here => ⟨w, rfl, here, .refl text n w⟩
  | cons packet packets ih =>
    intro w here
    obtain ⟨w₁, first, here₁, shows₁⟩ := run_exchange text here connected quiet packet
    obtain ⟨w₂, later, here₂, shows₂⟩ := ih here₁
    refine ⟨w₂, ?_, here₂, shows₁.trans text shows₂⟩
    rw [List.flatMap_cons, run_append, first]
    exact later

theorem shows_endNetwork (n : Nat) (w : World) (left : List Envelope) (network : Network)
    {event : Event} {reported : NetworkEvent} (same : onBus text event = .networkEvent reported) :
    Shows text n w ({ w with bus := left }.endNetwork n network reported) left [event] [] := by
  constructor
  case bus =>
    simp only [List.flatMap_cons, List.flatMap_nil, List.append_nil, envelopes, same]
    rfl
  all_goals rfl

/-! ## The simulation -/

def stateOf : Phase → NetworkState
  | .toInit => .ToConnect
  | .toWriteConnect => .ToConnect
  | .toConnect _ => .ToConnect
  | .connected _ => .Connected
  | .toDisconnect => .ToDisconnect
  | .disconnected => .Disconnected
  | .dropped => .Disconnected
  | .panicked _ => .Disconnected

def writeIn : Entry → Option Bytes
  | .wrote bytes => some bytes
  | _ => none

def receiptIn : Entry → Option Nat
  | .done receipter => some receipter
  | _ => none

def writesIn (log : List Entry) : List Bytes := log.filterMap writeIn

def receiptsIn (log : List Entry) : List Nat := log.filterMap receiptIn

section Simulation

variable (encode : Outgoing → Bytes) (n : Nat)

/-- Network task `n` of the system stands where the task stands. Behind the
CONNECT packet the task has written what that one has sent to its broker. -/
structure Mirrors (t : Task) (w : World) (network : Network) : Prop where
  here : w.networks[n]? = some network
  state : network.state = stateOf t.phase
  quiet : network.fromBroker = []
  wire : (writesIn t.log).tail = (takenBy n w.log ++ network.toBroker).map encode

/-- What the task takes from its mailbox is on the bus, and the bus without it. -/
inductive Offered (w : World) : CallResult → List Envelope → Prop where
  | init {result : Except ToConnectError Unit} : Offered w (.init result) w.bus
  | write {result : Except String Unit} : Offered w (.write result) w.bus
  | read {result : Except String Bytes} : Offered w (.read result) w.bus
  | command {j : Nat} {sender : Worker} {message : Nat} {left : List Envelope}
      {written : Except String Unit}
      (taken : PairFifo.take Envelope.channel w.bus j =
        some (⟨sender, .network n, .disconnect, message⟩, left)) :
      Offered w (.recv .Disconnect written) left
  | data {j : Nat} {sender : Worker} {message receipt : Nat} {packet : Outgoing}
      {left : List Envelope} {written : Except String Unit}
      (taken : PairFifo.take Envelope.channel w.bus j =
        some (⟨sender, .network n, .data packet receipt, message⟩, left)) :
      Offered w (.recv (.Data ⟨encode packet, some receipt⟩) written) left

/-- The steps of network task `n`, with those of its broker that send. -/
def OfNetwork : System.Action → Prop
  | .network m _ => m = n
  | .broker m (.send _ _) => m = n
  | _ => False

/-- Steps of network task `n` that lead to where `t'` stands, and that show the
same on the bus and at the receipts as the new entries of the log. -/
def Simulated (t t' : Task) (w : World) (left : List Envelope) : Prop :=
  ∃ actions w' network' entries, (∀ action ∈ actions, OfNetwork n action) ∧
    run World.step w actions = some w' ∧ Mirrors encode n t' w' network' ∧
    t'.log = t.log ++ entries ∧
    Shows text n w w' left (eventsIn entries) (receiptsIn entries)

variable {encode n} {t t' : Task} {w : World} {network : Network} {left : List Envelope}

theorem writesIn_append (a b : List Entry) : writesIn (a ++ b) = writesIn a ++ writesIn b :=
  List.filterMap_append

theorem of_one {action : System.Action} (own : OfNetwork n action) :
    ∀ other ∈ [action], OfNetwork n other := by
  intro other listed
  rw [List.mem_singleton.mp listed]
  exact own

/-- The task does nothing that the system knows of. -/
theorem simulated_silent (mirrors : Mirrors encode n t w network) {entries : List Entry}
    (log : t'.log = t.log ++ entries) (state : stateOf t'.phase = stateOf t.phase)
    (noEvent : eventsIn entries = []) (noReceipt : receiptsIn entries = [])
    (wire : (writesIn t'.log).tail = (writesIn t.log).tail) :
    Simulated text encode n t t' w w.bus := by
  refine ⟨[], w, network, entries, by simp, rfl, ?_, log, ?_⟩
  · exact ⟨mirrors.here, mirrors.state.trans state.symm, mirrors.quiet, wire.trans mirrors.wire⟩
  · rw [noEvent, noReceipt]
    exact .refl text n w

/-- The task ends with an event. -/
theorem simulated_end (mirrors : Mirrors encode n t w network) {entries : List Entry}
    (event : Event) {reported : NetworkEvent} {action : NetworkAction}
    (stepped : w.step (.network n action) =
      some ({ w with bus := left }.endNetwork n network reported))
    (log : t'.log = t.log ++ entries) (state : stateOf t'.phase = .Disconnected)
    (events : eventsIn entries = [event]) (same : onBus text event = .networkEvent reported)
    (noReceipt : receiptsIn entries = []) (noWrite : writesIn entries = []) :
    Simulated text encode n t t' w left := by
  refine ⟨[.network n action], _, { network with state := .Disconnected }, entries,
    of_one rfl, run_one stepped, ⟨?_, state.symm, mirrors.quiet, ?_⟩, log, ?_⟩
  · exact getElem?_set_of_some mirrors.here _
  · rw [log, writesIn_append, noWrite, List.append_nil]
    exact mirrors.wire
  · rw [events, noReceipt]
    exact shows_endNetwork text n w left network same

/-- The connection opens. -/
theorem simulated_connected (mirrors : Mirrors encode n t w network) {entries : List Entry}
    {sessionPresent : Bool} (connecting : stateOf t.phase = .ToConnect)
    (log : t'.log = t.log ++ entries) (state : stateOf t'.phase = .Connected)
    (events : eventsIn entries = [.Connected sessionPresent])
    (noReceipt : receiptsIn entries = []) (noWrite : writesIn entries = []) :
    Simulated text encode n t t' w w.bus := by
  have stepped : w.step (.network n (.connected sessionPresent)) =
      some ((w.dispatch (.network n) (.networkEvent (.Connected sessionPresent)) 0).setNetwork n
        { network with state := .Connected }) := by
    simp only [World.step, mirrors.here, World.stepNetwork, mirrors.state, connecting]
  refine ⟨[.network n (.connected sessionPresent)], _, { network with state := .Connected },
    entries, of_one rfl, run_one stepped, ⟨?_, state.symm, mirrors.quiet, ?_⟩, log, ?_⟩
  · exact getElem?_set_of_some mirrors.here _
  · rw [log, writesIn_append, noWrite, List.append_nil]
    exact mirrors.wire
  · rw [events, noReceipt]
    constructor
    case bus =>
      rw [List.flatMap_singleton]
      rfl
    all_goals rfl

/-- Packets come in. -/
theorem simulated_read (mirrors : Mirrors encode n t w network) {entries : List Entry}
    (packets : List Codec.Packet) (connected : stateOf t.phase = .Connected)
    (log : t'.log = t.log ++ entries) (state : stateOf t'.phase = .Connected)
    (events : eventsIn entries = packets.flatMap fun packet => (eventOf packet).toList)
    (noReceipt : receiptsIn entries = []) (noWrite : writesIn entries = []) :
    Simulated text encode n t t' w w.bus := by
  obtain ⟨w', ran, here, shows⟩ := run_exchanges text (mirrors.state.trans connected)
    mirrors.quiet packets mirrors.here
  refine ⟨_, w', network, entries, ?_, ran, ⟨here, ?_, mirrors.quiet, ?_⟩, log, ?_⟩
  · intro action listed
    obtain ⟨packet, _, inExchange⟩ := List.mem_flatMap.mp listed
    simp only [exchange, List.mem_cons, List.not_mem_nil, or_false] at inExchange
    rcases inExchange with rfl | rfl
    · rfl
    · rfl
  · rw [mirrors.state, connected, state]
  · rw [log, writesIn_append, noWrite, List.append_nil, shows.taken]
    exact mirrors.wire
  · rw [events, noReceipt]
    exact shows

/-- The command to disconnect is taken. -/
theorem simulated_command (mirrors : Mirrors encode n t w network) {entries : List Entry}
    {j : Nat} {sender : Worker} {message : Nat} (connected : stateOf t.phase = .Connected)
    (taken : PairFifo.take Envelope.channel w.bus j =
      some (⟨sender, .network n, .disconnect, message⟩, left))
    (log : t'.log = t.log ++ entries) (state : stateOf t'.phase = .ToDisconnect)
    (noEvent : eventsIn entries = []) (noReceipt : receiptsIn entries = [])
    (noWrite : writesIn entries = []) : Simulated text encode n t t' w left := by
  have stepped : w.step (.network n (.take j none)) =
      some ({ w with bus := left }.setNetwork n { network with state := .ToDisconnect }) := by
    simp only [World.step, mirrors.here, World.stepNetwork, mirrors.state, connected,
      receive_of_take taken]
  refine ⟨[.network n (.take j none)], _, { network with state := .ToDisconnect }, entries,
    of_one rfl, run_one stepped, ⟨?_, state.symm, mirrors.quiet, ?_⟩, log, ?_⟩
  · exact getElem?_set_of_some mirrors.here _
  · rw [log, writesIn_append, noWrite, List.append_nil]
    exact mirrors.wire
  · rw [noEvent, noReceipt]
    constructor
    case bus => exact (List.append_nil left).symm
    all_goals rfl

/-- An item is written. -/
theorem simulated_write (mirrors : Mirrors encode n t w network) {j : Nat} {sender : Worker}
    {message receipt : Nat} {packet : Outgoing} {entries : List Entry}
    (connected : stateOf t.phase = .Connected)
    (taken : PairFifo.take Envelope.channel w.bus j =
      some (⟨sender, .network n, .data packet receipt, message⟩, left))
    (log : t'.log = t.log ++ entries) (state : stateOf t'.phase = .Connected)
    (noEvent : eventsIn entries = []) (receipts : receiptsIn entries = [receipt])
    (writes : writesIn entries = [encode packet]) (opened : writesIn t.log ≠ []) :
    Simulated text encode n t t' w left := by
  have stepped : w.step (.network n (.take j none)) =
      some ({ w with bus := left, receipts := w.receipts.modify receipt (· + 1) }.setNetwork n
        { network with toBroker := network.toBroker ++ [packet] }) := by
    simp only [World.step, mirrors.here, World.stepNetwork, mirrors.state, connected,
      receive_of_take taken]
  refine ⟨[.network n (.take j none)], _, { network with toBroker := network.toBroker ++ [packet] },
    entries, of_one rfl, run_one stepped, ⟨?_, ?_, mirrors.quiet, ?_⟩, log, ?_⟩
  · exact getElem?_set_of_some mirrors.here _
  · rw [mirrors.state, connected, state]
  · rw [log, writesIn_append, writes, List.tail_append_of_ne_nil opened, mirrors.wire]
    simp
  · rw [noEvent, receipts]
    constructor
    case bus => exact (List.append_nil left).symm
    all_goals rfl

/-- DISCONNECT is written. -/
theorem simulated_farewell (mirrors : Mirrors encode n t w network) {entries : List Entry}
    (disconnecting : stateOf t.phase = .ToDisconnect) (log : t'.log = t.log ++ entries)
    (state : stateOf t'.phase = .Disconnected) (noEvent : eventsIn entries = [])
    (noReceipt : receiptsIn entries = []) (writes : writesIn entries = [encode .Disconnect])
    (opened : writesIn t.log ≠ []) : Simulated text encode n t t' w w.bus := by
  have stepped : w.step (.network n (.writeDisconnect none)) =
      some (w.setNetwork n
        { network with
          state := .Disconnected
          toBroker := network.toBroker ++ [.Disconnect] }) := by
    simp only [World.step, mirrors.here, World.stepNetwork, mirrors.state, disconnecting]
  refine ⟨[.network n (.writeDisconnect none)], _, _, entries, of_one rfl, run_one stepped,
    ⟨getElem?_set_of_some mirrors.here _, state.symm, mirrors.quiet, ?_⟩, log, ?_⟩
  · rw [log, writesIn_append, writes, List.tail_append_of_ne_nil opened, mirrors.wire]
    simp
  · rw [noEvent, noReceipt]
    constructor
    case bus => exact (List.append_nil w.bus).symm
    all_goals rfl

/-! ## Every step -/

theorem writes_of_connected {version : Protocol} {connectPacket : Bytes}
    {ending log : List Entry} (connected : Connected version connectPacket ending log) :
    writesIn log ≠ [] := by
  obtain ⟨chunks, sessionPresent, turns, rfl, _, _⟩ := connected.parts
  exact List.cons_ne_nil _ _

theorem eventsIn_dispatched (events : List Event) :
    eventsIn (events.map .dispatched) = events ∧ receiptsIn (events.map .dispatched) = [] ∧
      writesIn (events.map .dispatched) = [] := by
  induction events with
  | nil => exact ⟨rfl, rfl, rfl⟩
  | cons event events ih => exact ⟨congrArg (event :: ·) ih.1, ih.2.1, ih.2.2⟩

/-- The handshake gives up. -/
theorem simulated_connectFail (mirrors : Mirrors encode n t w network)
    (connecting : stateOf t.phase = .ToConnect) (entries : List Entry) (reason : ToConnectError)
    (log : t'.log = t.log ++ (entries ++ [.dispatched (.ConnectFail reason)]))
    (state : stateOf t'.phase = .Disconnected) (noEvent : eventsIn entries = [])
    (noReceipt : receiptsIn entries = []) (noWrite : writesIn entries = []) :
    Simulated text encode n t t' w w.bus := by
  have stepped : w.step (.network n (.connectFail reason)) =
      some (w.endNetwork n network (.ConnectFail reason)) := by
    simp only [World.step, mirrors.here, World.stepNetwork, mirrors.state, connecting]
  refine simulated_end text mirrors (.ConnectFail reason) stepped log state ?_ rfl ?_ ?_
  · rw [eventsIn_append, noEvent]
    rfl
  · rw [receiptsIn, List.filterMap_append]
    exact congrArg (· ++ []) noReceipt
  · rw [writesIn_append, noWrite]
    rfl

theorem readToConnect_simulated (mirrors : Mirrors encode n t w network) {buf : Bytes}
    (phase : t.phase = .toConnect buf) (result : Except String Bytes) :
    Simulated text encode n t (t.readToConnect none buf result) w w.bus := by
  have connecting : stateOf t.phase = .ToConnect := by rw [phase]; rfl
  have failed (msg : String) : Simulated text encode n t
      (t.connectFail none (.NetworkError msg)) w w.bus :=
    simulated_connectFail text mirrors connecting [] _ rfl rfl rfl rfl rfl
  cases result with
  | error msg => exact failed msg
  | ok chunk =>
    rw [Task.readToConnect]
    by_cases empty : chunk = []
    · rw [if_pos empty]
      exact failed _
    · rw [if_neg empty]
      cases turn : handshakeTurn t.version (buf ++ chunk) with
      | waiting left =>
        refine simulated_silent text mirrors rfl connecting.symm rfl rfl ?_
        exact congrArg List.tail ((writesIn_append t.log _).trans (List.append_nil _))
      | connected sessionPresent left =>
        exact simulated_connected text mirrors connecting (List.append_assoc _ _ _) rfl rfl rfl rfl
      | failed reason =>
        exact simulated_connectFail text mirrors connecting [.read chunk] reason
          (List.append_assoc _ _ _) rfl rfl rfl rfl
      | panicked fault => exact absurd turn (handshakeTurn_no_fault _ _ fault)

/-- The connection breaks, for the task as it was told. -/
theorem simulated_networkError (mirrors : Mirrors encode n t w network) {action : NetworkAction}
    (entries : List Entry) (msg : String)
    (stepped : w.step (.network n action) =
      some ({ w with bus := left }.endNetwork n network (.ConnectedErr msg)))
    (log : t'.log = t.log ++ (entries ++ [.dispatched (.ConnectedErr msg)]))
    (state : stateOf t'.phase = .Disconnected) (noEvent : eventsIn entries = [])
    (noReceipt : receiptsIn entries = []) (noWrite : writesIn entries = []) :
    Simulated text encode n t t' w left := by
  refine simulated_end text mirrors (.ConnectedErr msg) stepped log state ?_ rfl ?_ ?_
  · rw [eventsIn_append, noEvent]
    rfl
  · rw [receiptsIn, List.filterMap_append]
    exact congrArg (· ++ []) noReceipt
  · rw [writesIn_append, noWrite]
    rfl

theorem eventsOf_packets (frames : List (Bytes × Codec.Packet)) :
    eventsOf frames =
      (frames.map Prod.snd).flatMap fun packet => (eventOf packet).toList := by
  induction frames with
  | nil => rfl
  | cons frame frames ih => rw [eventsOf_cons, ih, List.map_cons, List.flatMap_cons]

theorem readConnected_simulated (mirrors : Mirrors encode n t w network) {buf : Bytes}
    (phase : t.phase = .connected buf) (result : Except String Bytes) :
    Simulated text encode n t (t.readConnected none buf result) w w.bus := by
  have connected : stateOf t.phase = .Connected := by rw [phase]; rfl
  have lost (msg : String) : Simulated text encode n t (t.networkError none msg) w w.bus := by
    have stepped : w.step (.network n (.readErr msg)) =
        some (w.endNetwork n network (.ConnectedErr msg)) := by
      simp only [World.step, mirrors.here, World.stepNetwork, mirrors.state, connected]
    exact simulated_networkError text mirrors [] msg stepped rfl rfl rfl rfl rfl
  cases result with
  | error msg => exact lost msg
  | ok chunk =>
    rw [Task.readConnected]
    by_cases empty : chunk = []
    · rw [if_pos empty]
      exact lost _
    · rw [if_neg empty]
      obtain ⟨frames, left, dealt⟩ := dealConnectedNetworkPacket_ok t.version (buf ++ chunk)
      rw [dealt]
      obtain ⟨events, receipts, writes⟩ := eventsIn_dispatched (eventsOf frames)
      refine simulated_read text mirrors (frames.map Prod.snd) connected
        (List.append_assoc t.log [.read chunk] ((eventsOf frames).map .dispatched)) rfl
        ?_ receipts writes
      exact events.trans (eventsOf_packets frames)

theorem dealNetworkData_simulated (mirrors : Mirrors encode n t w network) {buf : Bytes}
    (phase : t.phase = .connected buf) (opened : writesIn t.log ≠ []) {data : NetworkData}
    {written : Except String Unit} (offered : Offered encode n w (.recv data written) left) :
    Simulated text encode n t (t.dealNetworkData none data written) w left := by
  have connected : stateOf t.phase = .Connected := by rw [phase]; rfl
  cases offered with
  | command taken => exact simulated_command text mirrors connected taken rfl rfl rfl rfl rfl
  | @data j sender message receipt packet _ _ taken =>
    cases written with
    | ok _ =>
      have log : (t.dealNetworkData none (.Data ⟨encode packet, some receipt⟩) (.ok ())).log =
          t.log ++ [.received (.Data ⟨encode packet, some receipt⟩), .wrote (encode packet),
            .done receipt] := by
        simp [Task.dealNetworkData, Task.done, Task.record]
      exact simulated_write text mirrors connected taken log connected rfl rfl rfl opened
    | error msg =>
      have stepped : w.step (.network n (.take j (some msg))) =
          some ({ w with bus := left }.endNetwork n network (.ConnectedErr msg)) := by
        simp only [World.step, mirrors.here, World.stepNetwork, mirrors.state, connected,
          receive_of_take taken]
      exact simulated_networkError text mirrors
        [.received (.Data ⟨encode packet, some receipt⟩)] msg stepped (List.append_assoc _ _ _)
        rfl rfl rfl rfl

/-- Over an open bus every step of a task is a run of the network task that
mirrors it, with the same events, receipts and writes. -/
theorem step_simulated {version : Protocol} {connectPacket : Bytes} {action : Action}
    (farewell : encode .Disconnect = (Disconnect.new version).data)
    (told : Told version connectPacket t) (mirrors : Mirrors encode n t w network)
    (offered : Offered encode n w action.result left) (bus : busOpen t action)
    (stepped : t.step action = some t') : Simulated text encode n t t' w left := by
  obtain ⟨result, accepted⟩ := action
  have accepts : accepted = none := bus
  subst accepts
  obtain ⟨sameVersion, _, log⟩ := id told
  cases Task.step_move stepped with
  | opened phase =>
    cases offered
    refine simulated_silent text mirrors (List.append_nil _).symm ?_ rfl rfl rfl
    rw [phase]
    rfl
  | @notOpened reason phase =>
    cases offered
    have connecting : stateOf t.phase = .ToConnect := by rw [phase]; rfl
    exact simulated_connectFail text mirrors connecting [] reason rfl rfl rfl rfl rfl
  | connectWritten phase =>
    cases offered
    rw [phase] at log
    have start : t.log = [] := log
    refine simulated_silent text mirrors rfl ?_ rfl rfl ?_
    · rw [phase]
      rfl
    · rw [start]
      change (writesIn (t.log ++ [.wrote t.connectPacket])).tail = _
      rw [start]
      rfl
  | @connectUnwritten msg phase =>
    cases offered
    have connecting : stateOf t.phase = .ToConnect := by rw [phase]; rfl
    exact simulated_connectFail text mirrors connecting [] (.NetworkError msg) rfl rfl rfl rfl rfl
  | readToConnect phase =>
    cases offered
    exact readToConnect_simulated text mirrors phase _
  | readConnected phase =>
    cases offered
    exact readConnected_simulated text mirrors phase _
  | dealNetworkData phase =>
    rw [phase] at log
    exact dealNetworkData_simulated text mirrors phase (writes_of_connected log) offered
  | mailboxClosed phase => cases offered
  | disconnectWritten phase =>
    cases offered
    have disconnecting : stateOf t.phase = .ToDisconnect := by rw [phase]; rfl
    rw [phase] at log
    refine simulated_farewell text mirrors disconnecting rfl rfl rfl rfl ?_
      (writes_of_connected log)
    rw [farewell, ← sameVersion]
    rfl
  | @disconnectUnwritten msg phase =>
    cases offered
    have disconnecting : stateOf t.phase = .ToDisconnect := by rw [phase]; rfl
    have ends : w.step (.network n (.writeDisconnect (some msg))) =
        some (w.endNetwork n network (.ConnectedErr msg)) := by
      simp only [World.step, mirrors.here, World.stepNetwork, mirrors.state, disconnecting]
    exact simulated_networkError text mirrors [] msg ends rfl rfl rfl rfl rfl

/-! ## Steps of the others -/

theorem mirrors_of_same {w' : World} (mirrors : Mirrors encode n t w network)
    (networks : w'.networks[n]? = w.networks[n]?) (taken : takenBy n w'.log = takenBy n w.log) :
    Mirrors encode n t w' network := by
  refine ⟨networks.trans mirrors.here, mirrors.state, mirrors.quiet, ?_⟩
  rw [taken]
  exact mirrors.wire

theorem takenBy_append {events : List System.Event} (none : ∀ event ∈ events, gotBy n event = none)
    (log : List System.Event) : takenBy n (events ++ log) = takenBy n log := by
  have nothing : takenBy n events = [] := by
    refine List.filterMap_eq_nil_iff.mpr fun event listed => ?_
    exact none event (List.mem_reverse.mp listed)
  rw [takenBy, List.reverse_append, List.filterMap_append]
  exact (congrArg (takenBy n log ++ ·) nothing).trans (List.append_nil _)

theorem takenBy_other {event : System.Event} (elsewhere : gotBy n event = none)
    (log : List System.Event) : takenBy n (event :: log) = takenBy n log := by
  rw [takenBy_cons, elsewhere, Option.toList_none, List.append_nil]

theorem hub_keeps {w' : World} {action : HubAction} (here : w.networks[n]? = some network)
    (h : HubMoved w action w') :
    w'.networks[n]? = w.networks[n]? ∧ takenBy n w'.log = takenBy n w.log := by
  constructor
  · rcases networks_of_hub h with same | ⟨added, _⟩
    · rw [same]
    · rw [added]
      exact List.getElem?_append_left (List.getElem?_eq_some_iff.mp here).1
  · obtain ⟨htakes, hmove⟩ := h
    obtain ⟨events, log, inside⟩ := log_of_takes htakes _ _
    rw [log]
    refine takenBy_append (fun event listed => ?_) w.log
    cases inside event listed <;> rfl

theorem network_keeps {w' : World} {m : Nat} {acting : Network} {action : NetworkAction}
    (different : m ≠ n) (h : NetworkMoved w m acting action w') :
    w'.networks[n]? = w.networks[n]? ∧ w'.log = w.log := by
  have untouched (changed : Network) : (w.networks.set m changed)[n]? = w.networks[n]? :=
    List.getElem?_set_ne different
  cases h with
  | @read packet => cases packet <;> exact ⟨untouched _, rfl⟩
  | _ => exact ⟨untouched _, rfl⟩

/-- A step of any other party leaves the network task where it stands, and its
broker takes the packets in their order. -/
theorem mirrors_of_others {w' : World} {action : System.Action} (moved : Moved w action w')
    (other : ¬OfNetwork n action) (mirrors : Mirrors encode n t w network) :
    ∃ network', Mirrors encode n t w' network' := by
  cases moved with
  | request => exact ⟨network, mirrors_of_same mirrors rfl rfl⟩
  | command => exact ⟨network, mirrors_of_same mirrors rfl rfl⟩
  | hub h =>
    obtain ⟨networks, taken⟩ := hub_keeps mirrors.here h
    exact ⟨network, mirrors_of_same mirrors networks taken⟩
  | task hget h =>
    refine ⟨network, mirrors_of_same mirrors ?_ ?_⟩
    · cases h <;> rfl
    · cases h with
      | txToUser hphase hprog => exact takenBy_other rfl w.log
      | acked hphase hprog htake hrel => exact takenBy_other rfl w.log
      | _ => rfl
  | ping hget h => cases h <;> exact ⟨network, mirrors_of_same mirrors rfl rfl⟩
  | timer hget => exact ⟨network, mirrors_of_same mirrors rfl rfl⟩
  | network hget h =>
    obtain ⟨networks, log⟩ := network_keeps other h
    exact ⟨network, mirrors_of_same mirrors networks (congrArg (takenBy n) log)⟩
  | @brokerRecv m acting packet rest hget hto =>
    by_cases same : m = n
    · subst same
      cases hget.symm.trans mirrors.here
      refine ⟨{ network with toBroker := rest }, getElem?_set_of_some mirrors.here _,
        mirrors.state, mirrors.quiet, ?_⟩
      have got : takenBy m (System.Event.brokerGot m packet :: w.log) =
          takenBy m w.log ++ [packet] := by
        rw [takenBy_cons, gotBy, if_pos rfl]
        rfl
      rw [mirrors.wire, hto]
      change _ = List.map encode (takenBy m (System.Event.brokerGot m packet :: w.log) ++ rest)
      rw [got, List.append_assoc]
      rfl
    · have elsewhere : gotBy n (System.Event.brokerGot m packet) = none := if_neg same
      exact ⟨network, mirrors_of_same mirrors (List.getElem?_set_ne same)
        (takenBy_other elsewhere w.log)⟩
  | brokerSend hget =>
    exact ⟨network, mirrors_of_same mirrors (List.getElem?_set_ne other)
      (takenBy_other rfl w.log)⟩

/-- A task that starts is mirrored by a network task that starts. -/
theorem mirrors_init {version : Protocol} {connectPacket : Bytes}
    (here : w.networks[n]? = some .init) (fresh : takenBy n w.log = []) :
    Mirrors encode n (.init version connectPacket) w .init := by
  refine ⟨here, rfl, rfl, ?_⟩
  rw [fresh]
  rfl

/-! ## Whole runs -/

variable (encode n)

/-- A task in the place of network task `n`: the other parties step as in the
system, and a step of the task goes with steps of the network task that show the
same. -/
inductive Joint (version : Protocol) (connectPacket : Bytes) (start : World) :
    Task → World → Prop
  | start {w : World} (reached : Reachable World.step free start w)
      (here : w.networks[n]? = some .init) (fresh : takenBy n w.log = []) :
      Joint version connectPacket start (.init version connectPacket) w
  | others {t : Task} {w w' : World} {action : System.Action}
      (joint : Joint version connectPacket start t w) (other : ¬OfNetwork n action)
      (stepped : w.step action = some w') : Joint version connectPacket start t w'
  | own {t t' : Task} {w w' : World} {network' : Network} {left : List Envelope}
      {action : Action} {actions : List System.Action} {entries : List Entry}
      (joint : Joint version connectPacket start t w)
      (offered : Offered encode n w action.result left) (bus : busOpen t action)
      (stepped : t.step action = some t') (ran : run World.step w actions = some w')
      (mirrors : Mirrors encode n t' w' network') (log : t'.log = t.log ++ entries)
      (shows : Shows text n w w' left (eventsIn entries) (receiptsIn entries)) :
      Joint version connectPacket start t' w'

section Runs

variable {encode n} {version : Protocol} {connectPacket : Bytes} {start : World}

/-- A joint run is a run of the system and a run of the task, and the two mirror
each other at its end. -/
theorem joint_mirrors (joint : Joint text encode n version connectPacket start t w) :
    Reachable World.step free start w ∧
      Reachable Task.step busOpen (.init version connectPacket) t ∧
      ∃ network, Mirrors encode n t w network := by
  induction joint with
  | start reached here fresh =>
    exact ⟨reached, .start, .init, mirrors_init here fresh⟩
  | others joint other stepped ih =>
    obtain ⟨system, task, network, mirrors⟩ := ih
    exact ⟨system.next trivial stepped, task,
      mirrors_of_others (moved_of_step stepped) other mirrors⟩
  | own joint offered bus stepped ran mirrors log shows ih =>
    obtain ⟨system, task, _⟩ := ih
    exact ⟨reachable_of_run system ran, task.next bus stepped, _, mirrors⟩

end Runs

end Simulation

end Translation

end NetworkTask
