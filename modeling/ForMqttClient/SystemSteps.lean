import ForMqttClient.GuardedRuns
import ForMqttClient.HubSteps
import ForMqttClient.System

/-!
# What one step of the whole client can do

The branches of each party's step, with the world after it. The proofs about
runs split on these and never open `World.step`.
-/

namespace SystemSteps

open MqttData TaskHub HubSteps Tasks System

/-! ## Receivers of an event -/

section Subscribers

variable {w : World} {receiver : Worker}

@[simp] theorem mem_subscribers_disconnect :
    receiver ∈ w.subscribers .disconnect ↔
      ∃ n, (n < w.networks.length ∧ w.networkLive n = true) ∧ .network n = receiver := by
  simp [World.subscribers]

@[simp] theorem mem_subscribers_data {packet : Outgoing} {receipt : Nat} :
    receiver ∈ w.subscribers (.data packet receipt) ↔
      ∃ n, (n < w.networks.length ∧ w.networkLive n = true) ∧ .network n = receiver := by
  simp [World.subscribers]

@[simp] theorem mem_subscribers_ack {ack : Ack} :
    receiver ∈ w.subscribers (.ack ack) ↔
      ∃ i, (i < w.tasks.length ∧ w.taskLive i ack.type = true) ∧ .task i = receiver := by
  simp [World.subscribers]

@[simp] theorem mem_subscribers_pingResp :
    receiver ∈ w.subscribers .pingResp ↔
      ∃ i, (i < w.pings.length ∧ w.pingLive i = true) ∧ .ping i = receiver := by
  simp [World.subscribers]

end Subscribers

/-! ## The hub -/

/-- What the hub takes off the bus for its next input, and the world that its
handler then runs in. -/
inductive Takes (w : World) : HubAction → HubInput → Nat → World → Prop where
  | connect {seen : Nat} {commands : List ClientCommand} (hseen : seen ≤ w.commands.length)
      (hcommands : w.commands.take seen = commands) :
      Takes w (.connect seen) (.connect commands) 0 w
  | connecting {j : Nat} {sender : Worker} {event : NetworkEvent} {message : Nat}
      {rest : List Envelope}
      (htake : PairFifo.take Envelope.channel w.bus j =
        some (⟨sender, .hubNetwork, .networkEvent event, message⟩, rest)) :
      Takes w (.connecting j) (.connecting event) 0 { w with bus := rest }
  | resend : Takes w .resend .resend 0 w
  | command {j : Nat} {sender : Worker} {command : ClientCommand} {message : Nat}
      {rest : List Envelope}
      (htake : PairFifo.take Envelope.channel w.bus j =
        some (⟨sender, .hubCommand, .command command, message⟩, rest)) :
      Takes w (.command j) (.command command) 0 { w with bus := rest }
  | network {j : Nat} {sender : Worker} {event : NetworkEvent} {message : Nat}
      {rest : List Envelope}
      (htake : PairFifo.take Envelope.channel w.bus j =
        some (⟨sender, .hubNetwork, .networkEvent event, message⟩, rest)) :
      Takes w (.network j) (.network event) 0 { w with bus := rest }
  | clientData {j : Nat} {sender : Worker} {data : ClientData} {message : Nat}
      {rest : List Envelope}
      (htake : PairFifo.take Envelope.channel w.bus j =
        some (⟨sender, .hub, .clientData data, message⟩, rest)) :
      Takes w (.recv j) (.clientData data) 0 { w with bus := rest, log := .requested data :: w.log }
  | hubMsg {j : Nat} {sender : Worker} {msg : HubMsg} {message : Nat} {rest : List Envelope}
      (htake : PairFifo.take Envelope.channel w.bus j =
        some (⟨sender, .hub, .hubMsg msg, message⟩, rest)) :
      Takes w (.recv j) (.hubMsg msg) message
        { w with bus := rest, log := .hubTook sender msg :: w.log }
  | disconnect : Takes w .disconnect .disconnect 0 w
  | load : Takes w .load .load 0 w

/-- A step of the hub: it takes an input, and a branch of its handlers acts. -/
inductive HubMoved (w : World) (action : HubAction) : World → Prop where
  | intro {input : HubInput} {message : Nat} {taken : World} {hub : Hub} {outputs : List Output}
      (htakes : Takes w action input message taken)
      (hmove : Move w.keepAliveId w.hub input hub outputs) :
      HubMoved w action (World.applyOutputs message { taken with hub := hub } outputs)

theorem receive_spec {w taken : World} {receiver : Worker} {j : Nat} {envelope : Envelope}
    (h : w.receive receiver j = some (envelope, taken)) :
    ∃ rest, PairFifo.take Envelope.channel w.bus j = some (envelope, rest) ∧
      envelope.receiver = receiver ∧ taken = { w with bus := rest } := by
  unfold World.receive at h
  split at h
  · next envelope' rest htake =>
    split at h
    · next hreceiver =>
      obtain ⟨rfl, rfl⟩ := Prod.mk.inj (Option.some.inj h)
      exact ⟨rest, htake, hreceiver, rfl⟩
    · cases h
  · cases h

theorem receive_of_take {w : World} {receiver sender : Worker} {j message : Nat}
    {event : BusEvent} {rest : List Envelope}
    (htake : PairFifo.take Envelope.channel w.bus j =
      some (⟨sender, receiver, event, message⟩, rest)) :
    w.receive receiver j =
      some (⟨sender, receiver, event, message⟩, { w with bus := rest }) := by
  simp [World.receive, htake]

theorem runHub_of_outcome {w : World} {input : HubInput} {outcome : Outcome}
    (h : w.hub.step w.keepAliveId input = some outcome) (message : Nat) :
    w.runHub input message =
      some (World.applyOutputs message { w with hub := outcome.hub } outcome.outputs) := by
  rw [World.runHub, h]

/-- The hub takes a message in its loop. -/
theorem step_recv {w : World} (hat : At w.hub .Connected .loop) {j message : Nat}
    {sender : Worker} {msg : HubMsg} {rest : List Envelope}
    (htake : PairFifo.take Envelope.channel w.bus j =
      some (⟨sender, .hub, .hubMsg msg, message⟩, rest)) :
    w.step (.hub (.recv j)) = some (World.applyOutputs message
      { w with
        bus := rest
        log := .hubTook sender msg :: w.log
        hub := (w.hub.dealHubMsg w.keepAliveId msg).hub }
      (w.hub.dealHubMsg w.keepAliveId msg).outputs) := by
  have hstep : Hub.step w.keepAliveId w.hub (.hubMsg msg) =
      some (w.hub.dealHubMsg w.keepAliveId msg) := by
    simp [Hub.step, hat.draw, hat.state, hat.position]
  simp only [World.step, World.stepHub, receive_of_take htake]
  exact runHub_of_outcome (w := { w with bus := rest, log := .hubTook sender msg :: w.log })
    hstep message

theorem runHub_spec {w taken w' : World} {action : HubAction} {input : HubInput} {message : Nat}
    (htakes : Takes w action input message taken) (hhub : taken.hub = w.hub)
    (hid : taken.keepAliveId = w.keepAliveId) (h : taken.runHub input message = some w') :
    HubMoved w action w' := by
  unfold World.runHub at h
  split at h
  · next outcome hstep =>
    rw [hhub, hid] at hstep
    exact Option.some.inj h ▸ .intro htakes (move_of_step hstep)
  · cases h

theorem hubMoved_of_step {w w' : World} {action : HubAction} (h : w.stepHub action = some w') :
    HubMoved w action w' := by
  cases action with
  | connect seen =>
    simp only [World.stepHub] at h
    split at h
    · next hseen => exact runHub_spec (.connect hseen rfl) rfl rfl h
    · cases h
  | connecting j =>
    simp only [World.stepHub] at h
    split at h
    · next hreceive =>
      obtain ⟨rest, htake, hreceiver, rfl⟩ := receive_spec hreceive
      cases hreceiver
      exact runHub_spec (.connecting htake) rfl rfl h
    · cases h
  | resend => exact runHub_spec .resend rfl rfl h
  | command j =>
    simp only [World.stepHub] at h
    split at h
    · next hreceive =>
      obtain ⟨rest, htake, hreceiver, rfl⟩ := receive_spec hreceive
      cases hreceiver
      exact runHub_spec (.command htake) rfl rfl h
    · cases h
  | network j =>
    simp only [World.stepHub] at h
    split at h
    · next hreceive =>
      obtain ⟨rest, htake, hreceiver, rfl⟩ := receive_spec hreceive
      cases hreceiver
      exact runHub_spec (.network htake) rfl rfl h
    · cases h
  | recv j =>
    simp only [World.stepHub] at h
    split at h
    · next hreceive =>
      obtain ⟨rest, htake, hreceiver, rfl⟩ := receive_spec hreceive
      cases hreceiver
      exact runHub_spec (.clientData htake) rfl rfl h
    · next hreceive =>
      obtain ⟨rest, htake, hreceiver, rfl⟩ := receive_spec hreceive
      cases hreceiver
      exact runHub_spec (.hubMsg htake) rfl rfl h
    · cases h
  | disconnect => exact runHub_spec .disconnect rfl rfl h
  | load => exact runHub_spec .load rfl rfl h

/-! ## Sender and receive tasks -/

inductive TaskMoved (w : World) (i : Nat) (task : Task) : TaskAction → World → Prop where
  | sendFirst {data dupData : Outgoing} {packetId : PacketId} {rest : List Instr}
      (hphase : task.phase = .ready) (hprog : task.prog = .transmit data dupData packetId :: rest) :
      TaskMoved w i task .run
        ((w.send (.task i) data).setTask i { task with phase := .sending w.receipts.length })
  | sendOnly {data : Outgoing} {rest : List Instr}
      (hphase : task.phase = .ready) (hprog : task.prog = .send data :: rest) :
      TaskMoved w i task .run
        ((w.send (.task i) data).setTask i { task with phase := .sending w.receipts.length })
  | dispatch {msg : HubMsg} {rest : List Instr}
      (hphase : task.phase = .ready) (hprog : task.prog = .dispatch msg :: rest) :
      TaskMoved w i task .run
        ((w.dispatch (.task i) (.hubMsg msg) 0).setTask i { task with prog := rest })
  | txToUser {msg : UserMsg} {rest : List Instr}
      (hphase : task.phase = .ready) (hprog : task.prog = .txToUser msg :: rest) :
      TaskMoved w i task .run
        (((w.record (.user (msg.event task.ack))).dispatch (.task i)
          (.mqtt (msg.event task.ack)) 0).setTask i { task with prog := rest })
  | transmitted {receipt : Nat} {data dupData : Outgoing} {packetId : PacketId}
      {rest : List Instr} (hphase : task.phase = .sending receipt)
      (hprog : task.prog = .transmit data dupData packetId :: rest)
      (hdone : w.receiptDone receipt = true) :
      TaskMoved w i task .receipt (w.setTask i { task with phase := .waiting })
  | sent {receipt : Nat} {data : Outgoing} {rest : List Instr}
      (hphase : task.phase = .sending receipt) (hprog : task.prog = .send data :: rest)
      (hdone : w.receiptDone receipt = true) :
      TaskMoved w i task .receipt (w.setTask i { task with prog := rest, phase := .ready })
  | died {receipt : Nat} (hphase : task.phase = .sending receipt)
      (hlost : w.receiptLost receipt = true) :
      TaskMoved w i task .receiptErr (w.setTask i { task with prog := [], phase := .ready })
  | acked {j : Nat} {sender : Worker} {ack : Ack} {message : Nat} {queue : List Envelope}
      {data dupData : Outgoing} {packetId : PacketId} {rest : List Instr}
      (hphase : task.phase = .waiting)
      (hprog : task.prog = .transmit data dupData packetId :: rest)
      (htake : PairFifo.take Envelope.channel w.bus j =
        some (⟨sender, .task i, .ack ack, message⟩, queue))
      (hrel : ack.isRel packetId = true) :
      TaskMoved w i task (.ack j)
        (({ w with bus := queue }.record (.acked i ack)).setTask i
          { task with prog := rest, phase := .ready, ack := some ack })
  | skipped {j : Nat} {sender : Worker} {ack : Ack} {message : Nat} {queue : List Envelope}
      {data dupData : Outgoing} {packetId : PacketId} {rest : List Instr}
      (hphase : task.phase = .waiting)
      (hprog : task.prog = .transmit data dupData packetId :: rest)
      (htake : PairFifo.take Envelope.channel w.bus j =
        some (⟨sender, .task i, .ack ack, message⟩, queue))
      (hrel : ack.isRel packetId = false) :
      TaskMoved w i task (.ack j) { w with bus := queue }
  | sendAgain {data dupData : Outgoing} {packetId : PacketId} {rest : List Instr}
      (hphase : task.phase = .waiting)
      (hprog : task.prog = .transmit data dupData packetId :: rest) :
      TaskMoved w i task .timeout
        ((w.send (.task i) dupData).setTask i { task with phase := .sending w.receipts.length })

theorem taskMoved_of_step {w w' : World} {i : Nat} {task : Task} {action : TaskAction}
    (h : w.stepTask i task action = some w') : TaskMoved w i task action w' := by
  cases action with
  | run =>
    simp only [World.stepTask] at h
    split at h
    · next hphase hprog => exact Option.some.inj h ▸ .sendFirst hphase hprog
    · next hphase hprog => exact Option.some.inj h ▸ .sendOnly hphase hprog
    · next hphase hprog => exact Option.some.inj h ▸ .dispatch hphase hprog
    · next hphase hprog => exact Option.some.inj h ▸ .txToUser hphase hprog
    · cases h
  | receipt =>
    simp only [World.stepTask] at h
    split at h
    · next hphase hprog =>
      split at h
      · next hdone => exact Option.some.inj h ▸ .transmitted hphase hprog hdone
      · cases h
    · next hphase hprog =>
      split at h
      · next hdone => exact Option.some.inj h ▸ .sent hphase hprog hdone
      · cases h
    · cases h
  | receiptErr =>
    simp only [World.stepTask] at h
    split at h
    · next hphase =>
      split at h
      · next hlost => exact Option.some.inj h ▸ .died hphase hlost
      · cases h
    · cases h
  | ack j =>
    simp only [World.stepTask] at h
    split at h
    · next hphase hprog =>
      split at h
      · next hreceive =>
        obtain ⟨queue, htake, hreceiver, rfl⟩ := receive_spec hreceive
        cases hreceiver
        split at h
        · next hrel => exact Option.some.inj h ▸ .acked hphase hprog htake hrel
        · next hrel => exact Option.some.inj h ▸ .skipped hphase hprog htake (by simpa using hrel)
      · cases h
    · cases h
  | timeout =>
    simp only [World.stepTask] at h
    split at h
    · next hphase hprog => exact Option.some.inj h ▸ .sendAgain hphase hprog
    · cases h

/-! ## Pings -/

inductive PingMoved (w : World) (i : Nat) : Ping → PingAction → World → Prop where
  | send {timeoutTime : Nat} :
      PingMoved w i (.send timeoutTime) .send
        ((w.send (.ping i) .PingReq).setPing i (.sending timeoutTime w.receipts.length))
  | sent {timeoutTime receipt : Nat} (hdone : w.receiptDone receipt = true) :
      PingMoved w i (.sending timeoutTime receipt) .receipt (w.setPing i (.wait timeoutTime))
  | sendFail {timeoutTime receipt : Nat} :
      PingMoved w i (.sending timeoutTime receipt) .sendFail
        (w.setPing i (.sendFailed timeoutTime))
  | recv {timeoutTime j : Nat} {envelope : Envelope} {rest : List Envelope}
      (htake : PairFifo.take Envelope.channel w.bus j = some (envelope, rest))
      (hreceiver : envelope.receiver = .ping i) :
      PingMoved w i (.wait timeoutTime) (.recv j) ({ w with bus := rest }.setPing i .succeed)
  | timeout {timeoutTime : Nat} :
      PingMoved w i (.wait timeoutTime) .timeout (w.setPing i (.waitFailed timeoutTime))
  | failing :
      PingMoved w i .failing .dispatch
        ((w.dispatch (.ping i) (.hubMsg .PingFail) 0).setPing i .finalFail)
  | finalFail :
      PingMoved w i .finalFail .dispatch
        ((w.dispatch (.ping i) (.hubMsg .PingFail) 0).setPing i .ended)
  | succeed :
      PingMoved w i .succeed .dispatch
        ((w.dispatch (.ping i) (.hubMsg .PingSuccess) 0).setPing i .ended)

theorem pingMoved_of_step {w w' : World} {i : Nat} {ping : Ping} {action : PingAction}
    (h : w.stepPing i ping action = some w') : PingMoved w i ping action w' := by
  cases action with
  | send =>
    cases ping with
    | send timeoutTime => exact Option.some.inj h ▸ .send
    | _ => cases h
  | receipt =>
    cases ping with
    | sending timeoutTime receipt =>
      simp only [World.stepPing] at h
      split at h
      · next hdone => exact Option.some.inj h ▸ .sent hdone
      · cases h
    | _ => cases h
  | sendFail =>
    cases ping with
    | sending timeoutTime receipt => exact Option.some.inj h ▸ .sendFail
    | _ => cases h
  | recv j =>
    cases ping with
    | wait timeoutTime =>
      simp only [World.stepPing] at h
      split at h
      · next hreceive =>
        obtain ⟨rest, htake, hreceiver, rfl⟩ := receive_spec hreceive
        exact Option.some.inj h ▸ .recv htake hreceiver
      · cases h
    | _ => cases h
  | timeout =>
    cases ping with
    | wait timeoutTime => exact Option.some.inj h ▸ .timeout
    | _ => cases h
  | dispatch =>
    cases ping with
    | failing => exact Option.some.inj h ▸ .failing
    | finalFail => exact Option.some.inj h ▸ .finalFail
    | succeed => exact Option.some.inj h ▸ .succeed
    | _ => cases h

/-! ## Network tasks -/

inductive NetworkMoved (w : World) (n : Nat) (network : Network) :
    NetworkAction → World → Prop where
  | connected {sessionPresent : Bool} (hstate : network.state = .ToConnect) :
      NetworkMoved w n network (.connected sessionPresent)
        ((w.dispatch (.network n) (.networkEvent (.Connected sessionPresent)) 0).setNetwork n
          { network with state := .Connected })
  | connectFail {reason : ToConnectError} (hstate : network.state = .ToConnect) :
      NetworkMoved w n network (.connectFail reason) (w.endNetwork n network (.ConnectFail reason))
  | read {packet : Packet} {message : Nat} {rest : List (Packet × Nat)}
      (hstate : network.state = .Connected)
      (hfrom : network.fromBroker = (packet, message) :: rest) :
      NetworkMoved w n network .read
        ((w.setNetwork n { network with fromBroker := rest }).dealPacket n packet message)
  | readErr {msg : String} (hstate : network.state = .Connected) :
      NetworkMoved w n network (.readErr msg) (w.endNetwork n network (.ConnectedErr msg))
  | takeDisconnect {j : Nat} {writeErr : Option String} {sender : Worker} {message : Nat}
      {rest : List Envelope} (hstate : network.state = .Connected)
      (htake : PairFifo.take Envelope.channel w.bus j =
        some (⟨sender, .network n, .disconnect, message⟩, rest)) :
      NetworkMoved w n network (.take j writeErr)
        ({ w with bus := rest }.setNetwork n { network with state := .ToDisconnect })
  | write {j : Nat} {sender : Worker} {packet : Outgoing} {receipt message : Nat}
      {rest : List Envelope} (hstate : network.state = .Connected)
      (htake : PairFifo.take Envelope.channel w.bus j =
        some (⟨sender, .network n, .data packet receipt, message⟩, rest)) :
      NetworkMoved w n network (.take j none)
        ({ w with bus := rest, receipts := w.receipts.modify receipt (· + 1) }.setNetwork n
          { network with toBroker := network.toBroker ++ [packet] })
  | writeErr {j : Nat} {msg : String} {sender : Worker} {packet : Outgoing}
      {receipt message : Nat} {rest : List Envelope} (hstate : network.state = .Connected)
      (htake : PairFifo.take Envelope.channel w.bus j =
        some (⟨sender, .network n, .data packet receipt, message⟩, rest)) :
      NetworkMoved w n network (.take j (some msg))
        ({ w with bus := rest }.endNetwork n network (.ConnectedErr msg))
  | writeDisconnect (hstate : network.state = .ToDisconnect) :
      NetworkMoved w n network (.writeDisconnect none)
        (w.setNetwork n
          { network with
            state := .Disconnected
            toBroker := network.toBroker ++ [.Disconnect] })
  | writeDisconnectErr {msg : String} (hstate : network.state = .ToDisconnect) :
      NetworkMoved w n network (.writeDisconnect (some msg))
        (w.endNetwork n network (.ConnectedErr msg))

theorem networkMoved_of_step {w w' : World} {n : Nat} {network : Network}
    {action : NetworkAction} (h : w.stepNetwork n network action = some w') :
    NetworkMoved w n network action w' := by
  cases action with
  | connected sessionPresent =>
    simp only [World.stepNetwork] at h
    split at h
    · next hstate => exact Option.some.inj h ▸ .connected hstate
    · cases h
  | connectFail reason =>
    simp only [World.stepNetwork] at h
    split at h
    · next hstate => exact Option.some.inj h ▸ .connectFail hstate
    · cases h
  | read =>
    simp only [World.stepNetwork] at h
    split at h
    · next hstate hfrom => exact Option.some.inj h ▸ .read hstate hfrom
    · cases h
  | readErr msg =>
    simp only [World.stepNetwork] at h
    split at h
    · next hstate => exact Option.some.inj h ▸ .readErr hstate
    · cases h
  | take j writeErr =>
    simp only [World.stepNetwork] at h
    split at h
    · next hstate =>
      split at h
      · next hreceive =>
        obtain ⟨rest, htake, hreceiver, rfl⟩ := receive_spec hreceive
        cases hreceiver
        exact Option.some.inj h ▸ .takeDisconnect hstate htake
      · next hreceive =>
        obtain ⟨rest, htake, hreceiver, rfl⟩ := receive_spec hreceive
        cases hreceiver
        split at h
        · exact Option.some.inj h ▸ .write hstate htake
        · exact Option.some.inj h ▸ .writeErr hstate htake
      · cases h
    · cases h
  | writeDisconnect writeErr =>
    simp only [World.stepNetwork] at h
    split at h
    · next hstate =>
      split at h
      · exact Option.some.inj h ▸ .writeDisconnect hstate
      · exact Option.some.inj h ▸ .writeDisconnectErr hstate
    · cases h

/-! ## The whole client -/

inductive Moved (w : World) : Action → World → Prop where
  | request {data : ClientData} :
      Moved w (.request data) (w.dispatch .client (.clientData data) 0)
  | command {command : ClientCommand} :
      Moved w (.command command) (w.dispatch .client (.command command) 0)
  | hub {action : HubAction} {w' : World} (h : HubMoved w action w') : Moved w (.hub action) w'
  | task {i : Nat} {task : Task} {action : TaskAction} {w' : World}
      (hget : w.tasks[i]? = some task) (h : TaskMoved w i task action w') :
      Moved w (.task i action) w'
  | ping {i : Nat} {ping : Ping} {action : PingAction} {w' : World}
      (hget : w.pings[i]? = some ping) (h : PingMoved w i ping action w') :
      Moved w (.ping i action) w'
  | timer {i time : Nat} (hget : w.timers[i]? = some (some time)) :
      Moved w (.timer i) (w.stepTimer i time)
  | network {n : Nat} {network : Network} {action : NetworkAction} {w' : World}
      (hget : w.networks[n]? = some network) (h : NetworkMoved w n network action w') :
      Moved w (.network n action) w'
  | brokerRecv {n : Nat} {network : Network} {packet : Outgoing} {rest : List Outgoing}
      (hget : w.networks[n]? = some network) (hto : network.toBroker = packet :: rest) :
      Moved w (.broker n .recv)
        ((w.record (.brokerGot n packet)).setNetwork n { network with toBroker := rest })
  | brokerSend {n : Nat} {network : Network} {packet : Packet} {message : Nat}
      (hget : w.networks[n]? = some network) :
      Moved w (.broker n (.send packet message))
        ((w.record (.brokerSent n packet message)).setNetwork n
          { network with fromBroker := network.fromBroker ++ [(packet, message)] })

/-- Every step of the client is one of the moves. -/
theorem moved_of_step {w w' : World} {action : Action} (h : w.step action = some w') :
    Moved w action w' := by
  cases action with
  | request data => exact Option.some.inj h ▸ .request
  | command command => exact Option.some.inj h ▸ .command
  | hub action => exact .hub (hubMoved_of_step h)
  | task i action =>
    simp only [World.step] at h
    split at h
    · next hget => exact .task hget (taskMoved_of_step h)
    · cases h
  | ping i action =>
    simp only [World.step] at h
    split at h
    · next hget => exact .ping hget (pingMoved_of_step h)
    · cases h
  | timer i =>
    simp only [World.step] at h
    split at h
    · next hget => exact Option.some.inj h ▸ .timer hget
    · cases h
  | network n action =>
    simp only [World.step] at h
    split at h
    · next hget => exact .network hget (networkMoved_of_step h)
    · cases h
  | broker n action =>
    simp only [World.step] at h
    split at h
    · next hget =>
      cases action with
      | recv =>
        simp only [World.stepBroker] at h
        split at h
        · next hto => exact Option.some.inj h ▸ .brokerRecv hget hto
        · cases h
      | send packet message => exact Option.some.inj h ▸ .brokerSend hget
    · cases h

/-! ## The bus -/

/-- What a `TaskNetwork` reports of itself by an action. -/
inductive Reports (network : Network) : NetworkAction → NetworkEvent → Prop where
  | connected {sessionPresent : Bool} (hstate : network.state = .ToConnect) :
      Reports network (.connected sessionPresent) (.Connected sessionPresent)
  | connectFail {reason : ToConnectError} (hstate : network.state = .ToConnect) :
      Reports network (.connectFail reason) (.ConnectFail reason)
  | brokerDisconnect {text : String} {message : Nat} {rest : List (Packet × Nat)}
      (hstate : network.state = .Connected)
      (hfrom : network.fromBroker = (.Disconnect text, message) :: rest) :
      Reports network .read (.BrokerDisconnect text)
  | readErr {msg : String} (hstate : network.state = .Connected) :
      Reports network (.readErr msg) (.ConnectedErr msg)
  | writeErr {j : Nat} {msg : String} (hstate : network.state = .Connected) :
      Reports network (.take j (some msg)) (.ConnectedErr msg)
  | writeDisconnectErr {msg : String} (hstate : network.state = .ToDisconnect) :
      Reports network (.writeDisconnect (some msg)) (.ConnectedErr msg)

/-- The worker in whose name an action puts events on the bus. -/
def speaker : Action → Worker
  | .request _ | .command _ | .broker _ _ => .client
  | .hub _ => .hub
  | .task i _ => .task i
  | .ping i _ => .ping i
  | .timer i => .timer i
  | .network n _ => .network n

/-- The envelopes that an action can put on the bus. -/
inductive Emission (w : World) : Action → Envelope → Prop where
  | request {data : ClientData} :
      Emission w (.request data) ⟨.client, .hub, .clientData data, 0⟩
  | command {command : ClientCommand} :
      Emission w (.command command) ⟨.client, .hubCommand, .command command, 0⟩
  | mqtt {action : Action} {event : MqttEvent}
      (hfrom : ∀ publish, event = .Publish publish → speaker action = .hub) :
      Emission w action ⟨speaker action, .client, .mqtt event, 0⟩
  | disconnect {action : HubAction} {n : Nat} :
      Emission w (.hub action) ⟨.hub, .network n, .disconnect, 0⟩
  | data {action : Action} {n : Nat} {packet : Outgoing} {receipt : Nat} :
      Emission w action ⟨speaker action, .network n, .data packet receipt, 0⟩
  | task {i : Nat} {task : Task} {msg : HubMsg} {rest : List Instr}
      (hget : w.tasks[i]? = some task) (hphase : task.phase = .ready)
      (hprog : task.prog = .dispatch msg :: rest) :
      Emission w (.task i .run) ⟨.task i, .hub, .hubMsg msg, 0⟩
  | pingFail {i : Nat} {ping : Ping} (hget : w.pings[i]? = some ping)
      (hping : ping = .failing ∨ ping = .finalFail) :
      Emission w (.ping i .dispatch) ⟨.ping i, .hub, .hubMsg .PingFail, 0⟩
  | pingSuccess {i : Nat} (hget : w.pings[i]? = some .succeed) :
      Emission w (.ping i .dispatch) ⟨.ping i, .hub, .hubMsg .PingSuccess, 0⟩
  | timer {i time : Nat} (hget : w.timers[i]? = some (some time)) :
      Emission w (.timer i) ⟨.timer i, .hub, .hubMsg (.KeepAlive time), 0⟩
  | rxPublish {n : Nat} {network : Network} {publish : Publish} {message : Nat}
      {rest : List (Packet × Nat)} (hget : w.networks[n]? = some network)
      (hfrom : network.fromBroker = (.Publish publish, message) :: rest) :
      Emission w (.network n .read) ⟨.network n, .hub, .hubMsg (.RxPublish publish), message⟩
  | ack {n i : Nat} {network : Network} {ack : Ack} {message : Nat}
      {rest : List (Packet × Nat)} (hget : w.networks[n]? = some network)
      (hfrom : network.fromBroker = (.Ack ack, message) :: rest)
      (hlive : w.taskLive i ack.type = true) :
      Emission w (.network n .read) ⟨.network n, .task i, .ack ack, 0⟩
  | pingResp {n i : Nat} : Emission w (.network n .read) ⟨.network n, .ping i, .pingResp, 0⟩
  | networkEvent {n : Nat} {network : Network} {action : NetworkAction} {event : NetworkEvent}
      (hget : w.networks[n]? = some network) (hreports : Reports network action event) :
      Emission w (.network n action) ⟨.network n, .hubNetwork, .networkEvent event, 0⟩

theorem sender_of_emission {w : World} {action : Action} {e : Envelope}
    (h : Emission w action e) : e.sender = speaker action := by
  cases h <;> rfl

/-- The action takes the envelope at position `j`, addressed to the worker. -/
inductive Taking : Action → Worker → Nat → Prop where
  | connecting {j : Nat} : Taking (.hub (.connecting j)) .hubNetwork j
  | network {j : Nat} : Taking (.hub (.network j)) .hubNetwork j
  | command {j : Nat} : Taking (.hub (.command j)) .hubCommand j
  | recv {j : Nat} : Taking (.hub (.recv j)) .hub j
  | task {i j : Nat} : Taking (.task i (.ack j)) (.task i) j
  | ping {i j : Nat} : Taking (.ping i (.recv j)) (.ping i) j
  | take {n j : Nat} {writeErr : Option String} :
      Taking (.network n (.take j writeErr)) (.network n) j

/-- Every step takes at most one envelope off the bus and appends to it. -/
inductive BusMoved (w : World) (action : Action) (bus : List Envelope) : Prop where
  | keep (new : List Envelope) (hbus : bus = w.bus ++ new)
      (hnew : ∀ e ∈ new, Emission w action e)
  | take {j : Nat} {envelope : Envelope} {rest : List Envelope} (new : List Envelope)
      (htaking : Taking action envelope.receiver j)
      (htake : PairFifo.take Envelope.channel w.bus j = some (envelope, rest))
      (hbus : bus = rest ++ new) (hnew : ∀ e ∈ new, Emission w action e)

theorem noEmission {w : World} {action : Action} :
    ∀ e ∈ ([] : List Envelope), Emission w action e :=
  fun _ h => absurd h List.not_mem_nil

/-- The hub's outputs reach only the user and the network tasks. -/
theorem applyOutputs_bus (action : HubAction) (w₀ w : World) (message : Nat)
    (outputs : List Output) :
    ∃ new, (World.applyOutputs message w outputs).bus = w.bus ++ new ∧
      ∀ e ∈ new, Emission w₀ (.hub action) e := by
  induction outputs generalizing w with
  | nil => exact ⟨[], by simp [World.applyOutputs]⟩
  | cons output rest ih =>
    obtain ⟨new, hbus, hnew⟩ := ih (World.applyOutput message w output)
    have head : ∃ first, (World.applyOutput message w output).bus = w.bus ++ first ∧
        ∀ e ∈ first, Emission w₀ (.hub action) e := by
      cases output with
      | dispatch event =>
        refine ⟨[⟨.hub, .client, .mqtt event, 0⟩], rfl, ?_⟩
        intro e he
        rw [List.mem_singleton.mp he]
        exact .mqtt (fun _ _ => rfl)
      | disconnect =>
        refine ⟨_, rfl, ?_⟩
        intro e he
        obtain ⟨receiver, hmem, rfl⟩ := List.mem_map.mp he
        obtain ⟨n, _, rfl⟩ := mem_subscribers_disconnect.mp hmem
        exact .disconnect
      | _ => exact ⟨[], (List.append_nil _).symm, noEmission⟩
    obtain ⟨first, hfirst, hall⟩ := head
    refine ⟨first ++ new, ?_, ?_⟩
    · rw [← List.append_assoc, ← hfirst]
      exact hbus
    · intro e he
      rcases List.mem_append.mp he with h | h
      · exact hall e h
      · exact hnew e h

theorem busMoved_hub {w w' : World} {action : HubAction} (h : HubMoved w action w') :
    BusMoved w (.hub action) w'.bus := by
  cases h with
  | @intro input message taken hub outputs htakes hmove =>
    obtain ⟨new, hbus, hnew⟩ :=
      applyOutputs_bus action w { taken with hub := hub } message outputs
    cases htakes with
    | connecting htake => exact .take new .connecting htake hbus hnew
    | command htake => exact .take new .command htake hbus hnew
    | network htake => exact .take new .network htake hbus hnew
    | clientData htake => exact .take new .recv htake hbus hnew
    | hubMsg htake => exact .take new .recv htake hbus hnew
    | _ => exact .keep new hbus hnew

/-- A dispatch is an emission when it is one for each subscriber. -/
theorem emission_of_dispatch {w₀ w : World} {action : Action} {sender : Worker}
    {event : BusEvent} {message : Nat}
    (h : ∀ receiver ∈ w.subscribers event,
      Emission w₀ action ⟨sender, receiver, event, message⟩) :
    ∀ e ∈ (w.subscribers event).map (fun receiver => Envelope.mk sender receiver event message),
      Emission w₀ action e := by
  intro e he
  obtain ⟨receiver, hmem, rfl⟩ := List.mem_map.mp he
  exact h receiver hmem

theorem emission_send (w : World) (action : Action) (packet : Outgoing) :
    ∃ new, (w.send (speaker action) packet).bus = w.bus ++ new ∧
      ∀ e ∈ new, Emission w action e := by
  refine ⟨_, rfl, emission_of_dispatch ?_⟩
  intro receiver hmem
  obtain ⟨n, _, rfl⟩ := mem_subscribers_data.mp hmem
  exact .data

theorem busMoved_task {w w' : World} {i : Nat} {task : Task} {action : TaskAction}
    (hget : w.tasks[i]? = some task) (h : TaskMoved w i task action w') :
    BusMoved w (.task i action) w'.bus := by
  cases h with
  | @sendFirst data _ _ _ hphase hprog =>
    obtain ⟨new, hbus, hnew⟩ := emission_send w (.task i _) data
    exact .keep new hbus hnew
  | @sendOnly data _ hphase hprog =>
    obtain ⟨new, hbus, hnew⟩ := emission_send w (.task i _) data
    exact .keep new hbus hnew
  | @sendAgain _ dupData _ _ hphase hprog =>
    obtain ⟨new, hbus, hnew⟩ := emission_send w (.task i _) dupData
    exact .keep new hbus hnew
  | dispatch hphase hprog =>
    refine .keep _ rfl (emission_of_dispatch ?_)
    intro receiver hmem
    rw [List.mem_singleton.mp hmem]
    exact .task hget hphase hprog
  | @txToUser msg _ hphase hprog =>
    refine .keep _ rfl (emission_of_dispatch ?_)
    intro receiver hmem
    rw [List.mem_singleton.mp hmem]
    refine .mqtt fun publish heq => ?_
    cases msg <;> cases heq
  | transmitted hphase hprog hdone => exact .keep [] (List.append_nil _).symm noEmission
  | sent hphase hprog hdone => exact .keep [] (List.append_nil _).symm noEmission
  | died hphase hlost => exact .keep [] (List.append_nil _).symm noEmission
  | acked hphase hprog htake hrel => exact .take [] .task htake (List.append_nil _).symm noEmission
  | skipped hphase hprog htake hrel => exact .take [] .task htake (List.append_nil _).symm noEmission

theorem busMoved_ping {w w' : World} {i : Nat} {ping : Ping} {action : PingAction}
    (hget : w.pings[i]? = some ping) (h : PingMoved w i ping action w') :
    BusMoved w (.ping i action) w'.bus := by
  cases h with
  | send =>
    obtain ⟨new, hbus, hnew⟩ := emission_send w (.ping i _) .PingReq
    exact .keep new hbus hnew
  | sent hdone => exact .keep [] (List.append_nil _).symm noEmission
  | sendFail => exact .keep [] (List.append_nil _).symm noEmission
  | timeout => exact .keep [] (List.append_nil _).symm noEmission
  | recv htake hreceiver =>
    exact .take [] (hreceiver ▸ .ping) htake (List.append_nil _).symm noEmission
  | failing =>
    refine .keep _ rfl (emission_of_dispatch ?_)
    intro receiver hmem
    rw [List.mem_singleton.mp hmem]
    exact .pingFail hget (.inl rfl)
  | finalFail =>
    refine .keep _ rfl (emission_of_dispatch ?_)
    intro receiver hmem
    rw [List.mem_singleton.mp hmem]
    exact .pingFail hget (.inr rfl)
  | succeed =>
    refine .keep _ rfl (emission_of_dispatch ?_)
    intro receiver hmem
    rw [List.mem_singleton.mp hmem]
    exact .pingSuccess hget

/-- A `TaskNetwork` that ends puts one event on the bus. -/
theorem emission_endNetwork {w₀ w : World} {n : Nat} {network : Network}
    {action : NetworkAction} {event : NetworkEvent} (hget : w₀.networks[n]? = some network)
    (hreports : Reports network action event) :
    ∃ new, (w.endNetwork n network event).bus = w.bus ++ new ∧
      ∀ e ∈ new, Emission w₀ (.network n action) e := by
  refine ⟨_, rfl, emission_of_dispatch ?_⟩
  intro receiver hmem
  rw [List.mem_singleton.mp hmem]
  exact .networkEvent hget hreports

theorem emission_dealPacket {w₀ w : World} {n : Nat} {network : Network} {packet : Packet}
    {message : Nat} {rest : List (Packet × Nat)} (hget : w₀.networks[n]? = some network)
    (htasks : w.tasks = w₀.tasks) (hstate : network.state = .Connected)
    (hfrom : network.fromBroker = (packet, message) :: rest) :
    ∃ new, (w.dealPacket n packet message).bus = w.bus ++ new ∧
      ∀ e ∈ new, Emission w₀ (.network n .read) e := by
  cases packet with
  | ConnAck => exact ⟨[], (List.append_nil _).symm, noEmission⟩
  | Publish publish =>
    refine ⟨_, rfl, emission_of_dispatch ?_⟩
    intro receiver hmem
    rw [List.mem_singleton.mp hmem]
    exact .rxPublish hget hfrom
  | Ack ack =>
    refine ⟨_, rfl, emission_of_dispatch ?_⟩
    intro receiver hmem
    obtain ⟨i, ⟨_, hlive⟩, rfl⟩ := mem_subscribers_ack.mp hmem
    refine .ack hget hfrom ?_
    rw [World.taskLive, htasks] at hlive
    exact hlive
  | PingResp =>
    refine ⟨_, rfl, emission_of_dispatch ?_⟩
    intro receiver hmem
    obtain ⟨i, _, rfl⟩ := mem_subscribers_pingResp.mp hmem
    exact .pingResp
  | Disconnect text =>
    refine ⟨_, rfl, emission_of_dispatch ?_⟩
    intro receiver hmem
    rw [List.mem_singleton.mp hmem]
    exact .networkEvent hget (.brokerDisconnect hstate hfrom)

theorem busMoved_network {w w' : World} {n : Nat} {network : Network} {action : NetworkAction}
    (hget : w.networks[n]? = some network) (h : NetworkMoved w n network action w') :
    BusMoved w (.network n action) w'.bus := by
  cases h with
  | connected hstate =>
    refine .keep _ rfl (emission_of_dispatch ?_)
    intro receiver hmem
    rw [List.mem_singleton.mp hmem]
    exact .networkEvent hget (.connected hstate)
  | @connectFail reason hstate =>
    obtain ⟨new, hbus, hnew⟩ := emission_endNetwork (w := w) hget (.connectFail hstate)
    exact .keep new hbus hnew
  | @read packet message rest hstate hfrom =>
    obtain ⟨new, hbus, hnew⟩ := emission_dealPacket
      (w := w.setNetwork n { network with fromBroker := rest }) hget rfl hstate hfrom
    exact .keep new hbus hnew
  | readErr hstate =>
    obtain ⟨new, hbus, hnew⟩ := emission_endNetwork (w := w) hget (.readErr hstate)
    exact .keep new hbus hnew
  | takeDisconnect hstate htake => exact .take [] .take htake (List.append_nil _).symm noEmission
  | write hstate htake => exact .take [] .take htake (List.append_nil _).symm noEmission
  | @writeErr j msg _ _ _ _ queue hstate htake =>
    obtain ⟨new, hbus, hnew⟩ := emission_endNetwork (w := { w with bus := queue }) hget
      (.writeErr (j := j) hstate)
    exact .take new .take htake hbus hnew
  | writeDisconnect hstate => exact .keep [] (List.append_nil _).symm noEmission
  | writeDisconnectErr hstate =>
    obtain ⟨new, hbus, hnew⟩ := emission_endNetwork (w := w) hget (.writeDisconnectErr hstate)
    exact .keep new hbus hnew

theorem busMoved {w w' : World} {action : Action} (h : Moved w action w') :
    BusMoved w action w'.bus := by
  cases h with
  | request =>
    refine .keep _ rfl (emission_of_dispatch ?_)
    intro receiver hmem
    rw [List.mem_singleton.mp hmem]
    exact .request
  | command =>
    refine .keep _ rfl (emission_of_dispatch ?_)
    intro receiver hmem
    rw [List.mem_singleton.mp hmem]
    exact .command
  | hub h => exact busMoved_hub h
  | task hget h => exact busMoved_task hget h
  | ping hget h => exact busMoved_ping hget h
  | timer hget =>
    refine .keep _ rfl (emission_of_dispatch ?_)
    intro receiver hmem
    rw [List.mem_singleton.mp hmem]
    exact .timer hget
  | network hget h => exact busMoved_network hget h
  | brokerRecv hget hto => exact .keep [] (List.append_nil _).symm noEmission
  | brokerSend hget => exact .keep [] (List.append_nil _).symm noEmission

theorem mem_bus_of_moved {w w' : World} {action : Action} (h : Moved w action w')
    {e : Envelope} (he : e ∈ w'.bus) : e ∈ w.bus ∨ Emission w action e := by
  cases busMoved h with
  | keep new hbus hnew =>
    rw [hbus] at he
    rcases List.mem_append.mp he with he | he
    · exact .inl he
    · exact .inr (hnew e he)
  | take new htaking htake hbus hnew =>
    rw [hbus] at he
    rcases List.mem_append.mp he with he | he
    · exact .inl (PairFifo.mem_rest_of_take htake he)
    · exact .inr (hnew e he)

theorem mem_bus_or_taken {w w' : World} {action : Action} (h : Moved w action w')
    {e : Envelope} (he : e ∈ w.bus) :
    e ∈ w'.bus ∨ ∃ j rest, Taking action e.receiver j ∧
      PairFifo.take Envelope.channel w.bus j = some (e, rest) := by
  cases busMoved h with
  | keep new hbus hnew =>
    rw [hbus]
    exact .inl (List.mem_append_left new he)
  | take new htaking htake hbus hnew =>
    rcases PairFifo.mem_or_eq_of_take htake he with rfl | hrest
    · exact .inr ⟨_, _, htaking, htake⟩
    · rw [hbus]
      exact .inl (List.mem_append_left new hrest)

/-- Only the hub takes messages off its queue. -/
theorem queued_or_taken {w w' : World} {action : Action} (h : Moved w action w')
    {msg : HubMsg} (hq : w.queued msg) :
    w'.queued msg ∨ ∃ j sender message rest, action = .hub (.recv j) ∧
      PairFifo.take Envelope.channel w.bus j =
        some (⟨sender, .hub, .hubMsg msg, message⟩, rest) := by
  obtain ⟨e, he, hreceiver, hevent⟩ := hq
  rcases mem_bus_or_taken h he with hmem | ⟨j, rest, htaking, htake⟩
  · exact .inl ⟨e, hmem, hreceiver, hevent⟩
  · obtain ⟨sender, receiver, event, message⟩ := e
    cases hreceiver
    cases hevent
    cases htaking
    exact .inr ⟨j, sender, message, rest, rfl, htake⟩

/-- A channel on which an action neither speaks nor listens stays as it is. -/
theorem channel_of_moved {w w' : World} {action : Action} (h : Moved w action w')
    {k : Worker × Worker} (hemit : ∀ e, Emission w action e → e.channel ≠ k)
    (htaking : ∀ j, ¬ Taking action k.2 j) :
    PairFifo.channel Envelope.channel k w'.bus = PairFifo.channel Envelope.channel k w.bus := by
  cases busMoved h with
  | keep new hbus hnew =>
    rw [hbus]
    exact PairFifo.channel_append_of_ne _ (fun e he => hemit e (hnew e he))
  | @take j envelope rest new htakes htake hbus hnew =>
    rw [hbus, PairFifo.channel_append_of_ne _ (fun e he => hemit e (hnew e he))]
    refine (PairFifo.channel_take_of_ne htake ?_).symm
    rintro rfl
    exact htaking j htakes

/-- The outputs of the hub put nothing into its own queue. -/
theorem channel_applyOutputs {k : Worker × Worker} (hk : k.2 = .hub) (w : World) (message : Nat)
    (outputs : List Output) :
    PairFifo.channel Envelope.channel k (World.applyOutputs message w outputs).bus =
      PairFifo.channel Envelope.channel k w.bus := by
  obtain ⟨new, hbus, hnew⟩ := applyOutputs_bus .load w w message outputs
  rw [hbus]
  apply PairFifo.channel_append_of_ne
  rintro e he rfl
  cases hnew e he <;> cases hk

/-! ## Who changes what -/

/-- The outputs of the hub only add to the parties and to the history. -/
structure Grown (w w' : World) : Prop where
  hub : w'.hub = w.hub
  tasks : w.tasks <+: w'.tasks
  pings : w.pings <+: w'.pings
  timers : w.timers <+: w'.timers
  networks : w.networks <+: w'.networks
  log : w.log <:+ w'.log

theorem applyOutputs_grown (w : World) (message : Nat) (outputs : List Output) :
    Grown w (World.applyOutputs message w outputs) := by
  induction outputs generalizing w with
  | nil =>
    exact ⟨rfl, List.prefix_rfl, List.prefix_rfl, List.prefix_rfl, List.prefix_rfl,
      List.suffix_rfl⟩
  | cons output rest ih =>
    have first : Grown w (World.applyOutput message w output) := by
      cases output <;>
        exact ⟨rfl, by simp [World.applyOutput], by simp [World.applyOutput],
          by simp [World.applyOutput], by simp [World.applyOutput],
          by simp [World.applyOutput]⟩
    have tail := ih (World.applyOutput message w output)
    exact ⟨tail.hub.trans first.hub, first.tasks.trans tail.tasks, first.pings.trans tail.pings,
      first.timers.trans tail.timers, first.networks.trans tail.networks,
      first.log.trans tail.log⟩

/-- The tasks that the outputs of the hub start. -/
def startedSpecs (outputs : List Output) : List TaskSpec :=
  outputs.filterMap (fun output => match output with | .start spec => some spec | _ => none)

theorem applyOutputs_tasks (w : World) (message : Nat) (outputs : List Output) :
    (World.applyOutputs message w outputs).tasks =
      w.tasks ++ (startedSpecs outputs).map Task.init := by
  induction outputs generalizing w with
  | nil => simp [World.applyOutputs, startedSpecs]
  | cons output rest ih =>
    have tail := ih (World.applyOutput message w output)
    rw [World.applyOutputs, List.foldl_cons, ← World.applyOutputs, tail]
    cases output <;> simp [World.applyOutput, startedSpecs]

theorem tasks_of_takes {w taken : World} {action : HubAction} {input : HubInput} {message : Nat}
    (htakes : Takes w action input message taken) (hub : Hub) (outputs : List Output) :
    (World.applyOutputs message { taken with hub := hub } outputs).tasks =
      w.tasks ++ (startedSpecs outputs).map Task.init := by
  have before : taken.tasks = w.tasks := by cases htakes <;> rfl
  rw [applyOutputs_tasks]
  exact congrArg (· ++ (startedSpecs outputs).map Task.init) before

/-- What a step of the hub records: the input that it takes, and its outputs.
The tasks that it starts have the indices from `first` on. -/
inductive Inside (first message : Nat) (outputs : List Output) : Event → Prop where
  | requested {data : ClientData} : Inside first message outputs (.requested data)
  | hubTook {sender : Worker} {msg : HubMsg} : Inside first message outputs (.hubTook sender msg)
  | user {event : MqttEvent} (hmem : .dispatch event ∈ outputs) :
      Inside first message outputs (.user event)
  | started {i : Nat} {spec : TaskSpec} (hi : first ≤ i)
      (hget : (startedSpecs outputs)[i - first]? = some spec) :
      Inside first message outputs (.started i spec)
  | pingStarted {i : Nat} (hmem : .startPing ∈ outputs) :
      Inside first message outputs (.pingStarted i)
  | accepted {entry : UnacknowledgedClientData} (hmem : .accepted entry ∈ outputs) :
      Inside first message outputs (.accepted entry)
  | rxAccepted {i : Nat} {publish : Publish} (hmem : .rxAccepted publish ∈ outputs) :
      Inside first message outputs (.rxAccepted i publish message)
  | rxDup {publish : Publish} (hmem : .rxDup publish ∈ outputs) :
      Inside first message outputs (.rxDup publish message)

theorem Inside.cons {w : World} {message : Nat} {output : Output} {rest : List Output}
    {event : Event}
    (h : Inside (World.applyOutput message w output).tasks.length message rest event) :
    Inside w.tasks.length message (output :: rest) event := by
  cases h with
  | requested => exact .requested
  | hubTook => exact .hubTook
  | user hmem => exact .user (List.mem_cons_of_mem _ hmem)
  | @started i spec hi hget =>
    by_cases hstart : ∃ spec', output = .start spec'
    · obtain ⟨spec', rfl⟩ := hstart
      have hlength : (World.applyOutput message w (.start spec')).tasks.length =
          w.tasks.length + 1 := List.length_append
      rw [hlength] at hi hget
      refine .started (by omega) ?_
      have hnext : i - w.tasks.length = (i - (w.tasks.length + 1)) + 1 := by omega
      rw [hnext]
      exact hget
    · have hsame : (World.applyOutput message w output).tasks = w.tasks ∧
          startedSpecs (output :: rest) = startedSpecs rest := by
        cases output with
        | start spec' => exact absurd ⟨spec', rfl⟩ hstart
        | _ => exact ⟨rfl, rfl⟩
      rw [hsame.1] at hi hget
      exact .started hi (hsame.2 ▸ hget)
  | pingStarted hmem => exact .pingStarted (List.mem_cons_of_mem _ hmem)
  | accepted hmem => exact .accepted (List.mem_cons_of_mem _ hmem)
  | rxAccepted hmem => exact .rxAccepted (List.mem_cons_of_mem _ hmem)
  | rxDup hmem => exact .rxDup (List.mem_cons_of_mem _ hmem)

theorem applyOutputs_log (w : World) (message : Nat) (outputs : List Output) :
    ∃ events, (World.applyOutputs message w outputs).log = events ++ w.log ∧
      ∀ event ∈ events, Inside w.tasks.length message outputs event := by
  induction outputs generalizing w with
  | nil => exact ⟨[], rfl, fun _ h => absurd h List.not_mem_nil⟩
  | cons output rest ih =>
    obtain ⟨events, hlog, hevents⟩ := ih (World.applyOutput message w output)
    have head : ∃ first, (World.applyOutput message w output).log = first ++ w.log ∧
        ∀ event ∈ first, Inside w.tasks.length message (output :: rest) event := by
      have one (event : Event) (hevent : Inside w.tasks.length message (output :: rest) event) :
          ∀ event' ∈ [event], Inside w.tasks.length message (output :: rest) event' :=
        fun _ h => List.mem_singleton.mp h ▸ hevent
      cases output with
      | dispatch event => exact ⟨[_], rfl, one _ (.user List.mem_cons_self)⟩
      | start spec =>
        refine ⟨[_], rfl, one _ (.started (Nat.le_refl _) ?_)⟩
        rw [Nat.sub_self]
        rfl
      | startPing => exact ⟨[_], rfl, one _ (.pingStarted List.mem_cons_self)⟩
      | accepted entry => exact ⟨[_], rfl, one _ (.accepted List.mem_cons_self)⟩
      | rxAccepted publish => exact ⟨[_], rfl, one _ (.rxAccepted List.mem_cons_self)⟩
      | rxDup publish => exact ⟨[_], rfl, one _ (.rxDup List.mem_cons_self)⟩
      | _ => exact ⟨[], rfl, fun _ h => absurd h List.not_mem_nil⟩
    obtain ⟨first, hfirst, hall⟩ := head
    refine ⟨events ++ first, ?_, ?_⟩
    · rw [List.append_assoc, ← hfirst]
      exact hlog
    · intro event hevent
      rcases List.mem_append.mp hevent with h | h
      · exact (hevents event h).cons
      · exact hall event h

theorem log_of_takes {w taken : World} {action : HubAction} {input : HubInput} {message : Nat}
    (htakes : Takes w action input message taken) (hub : Hub) (outputs : List Output) :
    ∃ events, (World.applyOutputs message { taken with hub := hub } outputs).log =
        events ++ w.log ∧
      ∀ event ∈ events, Inside w.tasks.length message outputs event := by
  obtain ⟨events, hlog, hevents⟩ := applyOutputs_log { taken with hub := hub } message outputs
  have one (event : Event) (hevent : Inside w.tasks.length message outputs event)
      (htaken : taken.log = event :: w.log) (htasks : taken.tasks = w.tasks) :
      ∃ events, (World.applyOutputs message { taken with hub := hub } outputs).log =
          events ++ w.log ∧
        ∀ event ∈ events, Inside w.tasks.length message outputs event := by
    refine ⟨events ++ [event], ?_, ?_⟩
    · rw [hlog, List.append_assoc, List.singleton_append]
      exact congrArg (events ++ ·) htaken
    · intro event' hevent'
      rcases List.mem_append.mp hevent' with h | h
      · exact htasks ▸ hevents event' h
      · exact List.mem_singleton.mp h ▸ hevent
  cases htakes with
  | clientData htake => exact one _ .requested rfl rfl
  | hubMsg htake => exact one _ .hubTook rfl rfl
  | _ => exact ⟨events, hlog, hevents⟩

section Frames

variable {w w' : World} {action : Action}

theorem hub_or_not (h : Moved w action w') :
    (∃ a, action = .hub a ∧ HubMoved w a w') ∨ ∀ a, action ≠ .hub a := by
  cases h with
  | hub h => exact .inl ⟨_, rfl, h⟩
  | _ => exact .inr (by rintro a ⟨⟩)

theorem task_or_not (h : Moved w action w') :
    (∃ i task a, action = .task i a ∧ w.tasks[i]? = some task ∧ TaskMoved w i task a w') ∨
      ∀ i a, action ≠ .task i a := by
  cases h with
  | task hget h => exact .inl ⟨_, _, _, rfl, hget, h⟩
  | _ => exact .inr (by rintro i a ⟨⟩)

theorem ping_or_not (h : Moved w action w') :
    (∃ i ping a, action = .ping i a ∧ w.pings[i]? = some ping ∧ PingMoved w i ping a w') ∨
      ∀ i a, action ≠ .ping i a := by
  cases h with
  | ping hget h => exact .inl ⟨_, _, _, rfl, hget, h⟩
  | _ => exact .inr (by rintro i a ⟨⟩)

theorem hub_of_moved (h : Moved w action w') (hhub : ∀ a, action ≠ .hub a) :
    w'.hub = w.hub ∧ w'.keepAliveId = w.keepAliveId := by
  cases h with
  | hub h => exact absurd rfl (hhub _)
  | task hget h => cases h <;> exact ⟨rfl, rfl⟩
  | ping hget h => cases h <;> exact ⟨rfl, rfl⟩
  | network hget h =>
    cases h with
    | @read packet => cases packet <;> exact ⟨rfl, rfl⟩
    | _ => exact ⟨rfl, rfl⟩
  | _ => exact ⟨rfl, rfl⟩

theorem tasks_of_moved (h : Moved w action w') (hhub : ∀ a, action ≠ .hub a)
    (htask : ∀ i a, action ≠ .task i a) : w'.tasks = w.tasks := by
  cases h with
  | hub h => exact absurd rfl (hhub _)
  | task hget h => exact absurd rfl (htask _ _)
  | ping hget h => cases h <;> rfl
  | network hget h =>
    cases h with
    | @read packet => cases packet <;> rfl
    | _ => rfl
  | _ => rfl

theorem pings_of_moved (h : Moved w action w') (hhub : ∀ a, action ≠ .hub a)
    (hping : ∀ i a, action ≠ .ping i a) : w'.pings = w.pings := by
  cases h with
  | hub h => exact absurd rfl (hhub _)
  | task hget h => cases h <;> rfl
  | ping hget h => exact absurd rfl (hping _ _)
  | network hget h =>
    cases h with
    | @read packet => cases packet <;> rfl
    | _ => rfl
  | _ => rfl

theorem timers_of_moved (h : Moved w action w') (hhub : ∀ a, action ≠ .hub a)
    (htimer : ∀ i, action ≠ .timer i) : w'.timers = w.timers := by
  cases h with
  | hub h => exact absurd rfl (hhub _)
  | task hget h => cases h <;> rfl
  | ping hget h => cases h <;> rfl
  | timer hget => exact absurd rfl (htimer _)
  | network hget h =>
    cases h with
    | @read packet => cases packet <;> rfl
    | _ => rfl
  | _ => rfl

/-- Only the hub starts a `TaskNetwork`. -/
theorem networks_length_of_moved (h : Moved w action w') (hhub : ∀ a, action ≠ .hub a) :
    w'.networks.length = w.networks.length := by
  cases h with
  | hub h => exact absurd rfl (hhub _)
  | task hget h => cases h <;> rfl
  | ping hget h => cases h <;> rfl
  | network hget h =>
    cases h with
    | @read packet => cases packet <;> exact List.length_set
    | takeDisconnect hstate htake => exact List.length_set
    | write hstate htake => exact List.length_set
    | writeErr hstate htake => exact List.length_set
    | _ => exact List.length_set
  | brokerRecv hget hto => exact List.length_set
  | brokerSend hget => exact List.length_set
  | _ => rfl

theorem hub_of_runHub {input : HubInput} {message : Nat} (h : w.runHub input message = some w') :
    ∃ outcome, w.hub.step w.keepAliveId input = some outcome ∧ w'.hub = outcome.hub := by
  unfold World.runHub at h
  split at h
  · next outcome hstep =>
    refine ⟨outcome, hstep, ?_⟩
    rw [← Option.some.inj h]
    exact (applyOutputs_grown _ _ _).hub
  · cases h

/-- Only the start of an attempt adds a `TaskNetwork`. -/
theorem networks_of_hub {a : HubAction} (h : HubMoved w a w') :
    w'.networks = w.networks ∨
      w'.networks = w.networks ++ [.init] ∧ At w.hub .ToConnect .loop ∧
        w'.hub.position = .connecting := by
  cases h with
  | @intro input message taken hub outputs htakes hmove =>
    have networks : taken.networks = w.networks := by cases htakes <;> rfl
    cases hmove with
    | startNetwork hat => exact .inr ⟨congrArg (· ++ [Network.init]) networks, hat, rfl⟩
    | _ => exact .inl networks

theorem networks_length_le (h : Moved w action w') : w.networks.length ≤ w'.networks.length := by
  rcases hub_or_not h with ⟨a, rfl, hmoved⟩ | notHub
  · rcases networks_of_hub hmoved with hsame | ⟨hadded, _⟩
    · exact Nat.le_of_eq (congrArg List.length hsame).symm
    · rw [hadded, List.length_append]
      omega
  · exact Nat.le_of_eq (networks_length_of_moved h notHub).symm

/-- What is recorded outside the hub. -/
inductive Outside : Event → Prop where
  | acked {i : Nat} {ack : Ack} : Outside (.acked i ack)
  | user {msg : UserMsg} {ack : Option Ack} : Outside (.user (msg.event ack))
  | brokerGot {n : Nat} {packet : Outgoing} : Outside (.brokerGot n packet)
  | brokerSent {n : Nat} {packet : Packet} {message : Nat} : Outside (.brokerSent n packet message)

theorem log_outside (h : Moved w action w') (hhub : ∀ a, action ≠ .hub a) :
    ∃ events, w'.log = events ++ w.log ∧ ∀ event ∈ events, Outside event := by
  have none : ∃ events, w.log = events ++ w.log ∧ ∀ event ∈ events, Outside event :=
    ⟨[], rfl, fun _ h => absurd h List.not_mem_nil⟩
  have one (event : Event) (hevent : Outside event) :
      ∃ events, event :: w.log = events ++ w.log ∧ ∀ event ∈ events, Outside event :=
    ⟨[event], rfl, fun _ h => List.mem_singleton.mp h ▸ hevent⟩
  cases h with
  | hub h => exact absurd rfl (hhub _)
  | task hget h =>
    cases h with
    | acked hphase hprog htake hrel => exact one _ .acked
    | txToUser hphase hprog => exact one _ .user
    | _ => exact none
  | ping hget h => cases h <;> exact none
  | network hget h =>
    cases h with
    | @read packet => cases packet <;> exact none
    | _ => exact none
  | brokerRecv hget hto => exact one _ .brokerGot
  | brokerSend hget => exact one _ .brokerSent
  | _ => exact none

/-- The history is never rewritten. -/
theorem log_grows (h : Moved w action w') : w.log <:+ w'.log := by
  rcases hub_or_not h with ⟨a, rfl, hmoved⟩ | notHub
  · cases hmoved with
    | @intro input message taken hub outputs htakes hmove =>
      obtain ⟨events, hlog, _⟩ := log_of_takes htakes hub outputs
      exact ⟨events, hlog.symm⟩
  · obtain ⟨events, hlog, _⟩ := log_outside h notHub
    exact ⟨events, hlog.symm⟩

end Frames

end SystemSteps
