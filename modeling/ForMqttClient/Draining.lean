import ForMqttClient.Completions
import ForMqttClient.Recovery

/-!
# The client can always come to rest

Once a connection has just come up, its entries can be worked off one after the
other: the task of the first is sent its acknowledgement, tells the hub and the
user, and the hub gives the packet id back. Nothing that older tasks, pings and
connections have left on the bus stands in the way.
-/

namespace Draining

open MqttData BoundedRing TaskHub HubSteps Tasks System SystemSteps GuardedRuns TaskRuns UserWill
open Completions Handshake KeepAlive PacketIds Processes Reconnects Recovery

/-- All but the user act. -/
def Unattended (_ : World) : Action → Prop
  | .request _ | .command _ => False
  | _ => True

/-- Of the tasks only task `i` acts. -/
def Working (i : Nat) (_ : World) : Action → Prop
  | .request _ | .command _ => False
  | .task k _ => k = i
  | _ => True

/-- Task `i` has not begun. -/
structure Unbegun (i : Nat) (spec : TaskSpec) (w : World) : Prop where
  task : w.tasks[i]? = some (.init spec)
  silent : ∀ e ∈ w.bus, e.sender ≠ .task i

/-- Tasks get acknowledgements only. -/
def Acks (w : World) : Prop :=
  ∀ e ∈ w.bus, ∀ i, e.receiver = .task i → ∃ ack, e.event = .ack ack

section Invariant

variable {w w' : World} {action : Action} {i : Nat}

theorem acks_of_moved (h : Moved w action w') (hI : Acks w) : Acks w' := by
  intro e he i hreceiver
  rcases mem_bus_of_moved h he with hold | hnew
  · exact hI e hold i hreceiver
  · cases hnew with
    | ack => exact ⟨_, rfl⟩
    | _ => cases hreceiver

/-- Nobody but a task itself makes it begin. -/
theorem Unbegun.of_moved {spec : TaskSpec} (hI : Unbegun i spec w) (h : Moved w action w')
    (hother : ∀ a, action ≠ .task i a) : Unbegun i spec w' := by
  refine ⟨?_, ?_⟩
  · rcases hub_or_not h with ⟨a, rfl, hmoved⟩ | notHub
    · cases hmoved with
      | @intro input message taken hub outputs htakes hmove =>
        rw [tasks_of_takes htakes hub outputs]
        exact (List.getElem?_append_left (List.getElem?_eq_some_iff.mp hI.task).1).trans hI.task
    · rw [task_of_other h notHub hother]
      exact hI.task
  · intro e he hsender
    rcases mem_bus_of_moved h he with hold | hnew
    · exact hI.silent e hold hsender
    · have hspeaker := (sender_of_emission hnew).symm.trans hsender
      cases action with
      | task k a =>
        cases hspeaker
        exact hother a rfl
      | _ => cases hspeaker

theorem Unbegun.of_reach {k : Nat} {spec : TaskSpec} (hI : Unbegun k spec w) (hk : k ≠ i)
    (h : Reachable World.step (Working i) w w') : Unbegun k spec w' := by
  refine h.invariant hI ?_
  intro v action v' _ ih hok hstep
  refine ih.of_moved (moved_of_step hstep) ?_
  rintro a rfl
  exact hk hok

theorem log_of_reach {ok : World → Action → Prop} (h : Reachable World.step ok w w') :
    w.log <:+ w'.log := by
  refine h.invariant (I := fun v => w.log <:+ v.log) List.suffix_rfl ?_
  intro v action v' _ ih _ hstep
  exact ih.trans (log_grows (moved_of_step hstep))

theorem acks_of_reach {ok : World → Action → Prop} (hI : Acks w)
    (h : Reachable World.step ok w w') : Acks w' := by
  refine h.invariant hI ?_
  intro v action v' _ ih _ hstep
  exact acks_of_moved (moved_of_step hstep) ih

end Invariant

/-! ## One exchange -/

/-- Where task `i` stands on its connection, while the hub is in `hub` and has nothing
from it on the bus. -/
structure Stage (n i : Nat) (hub : Hub) (task : Tasks.Task) (network : Network)
    (w : World) : Prop where
  hub : w.hub = hub
  task : w.tasks[i]? = some task
  network : w.networks[n]? = some network
  unheard : ∀ e ∈ w.bus, e.channel ≠ (.task i, .hub)

/-- Task `i` waits for the receipt of its packet, which is all that it has sent on
the connection. -/
structure Sent (n i : Nat) (packet : Outgoing) (receipt : Nat) (w : World) : Prop where
  unsignalled : w.receipts[receipt]? = some 0
  listed : ⟨.task i, .network n, .data packet receipt, 0⟩ ∈ w.bus
  only : ∀ e ∈ w.bus, e.channel = (.task i, .network n) →
    e = ⟨.task i, .network n, .data packet receipt, 0⟩

section Exchange

variable {w : World} {n i : Nat} {hub : Hub} {spec : TaskSpec} {data dupData : Outgoing}
variable {packetId : PacketId} {rest : List Instr} {held : Option Ack}
variable {toBroker : List Outgoing} {fromBroker : List (Packet × Nat)}

theorem networkLive_of {network : Network} (hget : w.networks[n]? = some network)
    (hstate : network.state = .Connected) : n < w.networks.length ∧ w.networkLive n = true :=
  ⟨(List.getElem?_eq_some_iff.mp hget).1, by simp [World.networkLive, hget, Network.live, hstate]⟩

/-- The task sends its packet. -/
theorem step_send (hI : Stage n i hub ⟨spec, .transmit data dupData packetId :: rest, .ready, held⟩
      ⟨.Connected, toBroker, fromBroker⟩ w) (silent : ∀ e ∈ w.bus, e.sender ≠ .task i) :
    ∃ v, w.step (.task i .run) = some v ∧
      Stage n i hub ⟨spec, .transmit data dupData packetId :: rest, .sending w.receipts.length, held⟩
        ⟨.Connected, toBroker, fromBroker⟩ v ∧ Sent n i data w.receipts.length v := by
  have hlt := (List.getElem?_eq_some_iff.mp hI.task).1
  obtain ⟨hn, hlive⟩ := networkLive_of hI.network rfl
  refine ⟨(w.send (.task i) data).setTask i
    ⟨spec, .transmit data dupData packetId :: rest, .sending w.receipts.length, held⟩, ?_, ?_, ?_⟩
  · simp only [World.step, hI.task, World.stepTask]
  · refine ⟨hI.hub, List.getElem?_set_self hlt, hI.network, ?_⟩
    intro e he
    rcases List.mem_append.mp he with hold | hnew
    · exact hI.unheard e hold
    · obtain ⟨receiver, hmem, rfl⟩ := List.mem_map.mp hnew
      obtain ⟨m, _, rfl⟩ := mem_subscribers_data.mp hmem
      exact fun heq => by cases heq
  · refine ⟨List.getElem?_concat_length, ?_, ?_⟩
    · refine List.mem_append_right _ (List.mem_map.mpr ⟨.network n, ?_, rfl⟩)
      exact mem_subscribers_data.mpr ⟨n, ⟨hn, hlive⟩, rfl⟩
    · intro e he hchannel
      rcases List.mem_append.mp he with hold | hnew
      · exact absurd (congrArg Prod.fst hchannel) (silent e hold)
      · obtain ⟨receiver, _, rfl⟩ := List.mem_map.mp hnew
        cases hchannel
        rfl

/-- The connection writes it. -/
theorem step_write {receipt : Nat} {task : Tasks.Task} (hI : Stage n i hub task
      ⟨.Connected, toBroker, fromBroker⟩ w) (hsent : Sent n i data receipt w) :
    ∃ j v, w.step (.network n (.take j none)) = some v ∧
      Stage n i hub task ⟨.Connected, toBroker ++ [data], fromBroker⟩ v ∧
      v.receiptDone receipt = true := by
  have hlt := (List.getElem?_eq_some_iff.mp hI.network).1
  obtain ⟨j, e, queue, htake, hchannel⟩ :
      ∃ j e queue, PairFifo.take Envelope.channel w.bus j = some (e, queue) ∧
        e.channel = (.task i, .network n) := PairFifo.exists_take hsent.listed
  obtain rfl := hsent.only e (PairFifo.mem_of_take htake) hchannel
  refine ⟨j, { w with bus := queue, receipts := w.receipts.modify receipt (· + 1) }.setNetwork n
    ⟨.Connected, toBroker ++ [data], fromBroker⟩, ?_, ?_, ?_⟩
  · simp only [World.step, hI.network, World.stepNetwork, receive_of_take htake]
  · refine ⟨hI.hub, hI.task, List.getElem?_set_self hlt, ?_⟩
    intro e he
    exact hI.unheard e (PairFifo.mem_rest_of_take htake he)
  · simp [World.receiptDone, hsent.unsignalled]

/-- Up to the wait for the acknowledgement. -/
theorem canReach_waiting (hI : Stage n i hub
      ⟨spec, .transmit data dupData packetId :: rest, .ready, held⟩
      ⟨.Connected, toBroker, fromBroker⟩ w) (silent : ∀ e ∈ w.bus, e.sender ≠ .task i) :
    CanReach World.step (Working i) (Stage n i hub
      ⟨spec, .transmit data dupData packetId :: rest, .waiting, held⟩
      ⟨.Connected, toBroker ++ [data], fromBroker⟩) w := by
  obtain ⟨w₁, sent, stage₁, hsent⟩ := step_send hI silent
  obtain ⟨j, w₂, written, stage₂, done⟩ := step_write stage₁ hsent
  have hlt := (List.getElem?_eq_some_iff.mp stage₂.task).1
  have receipted : w₂.step (.task i .receipt) = some (w₂.setTask i
      ⟨spec, .transmit data dupData packetId :: rest, .waiting, held⟩) := by
    simp only [World.step, stage₂.task, World.stepTask, done, if_true]
  refine CanReach.after (a := .task i .run) ?_ rfl sent
  refine CanReach.after (a := .network n (.take j none)) ?_ trivial written
  refine CanReach.after (a := .task i .receipt) (.now ?_) rfl receipted
  exact ⟨stage₂.hub, List.getElem?_set_self hlt, stage₂.network, stage₂.unheard⟩

/-- The broker takes the packet and answers it, and the answer is on its way to the task. -/
theorem canReach_answered {task : Tasks.Task} {ack : Ack} (hI : Stage n i hub task
      ⟨.Connected, [data], []⟩ w) (hlive : task.live = true) (hrx : task.spec.rx = some ack.type) :
    CanReach World.step (Working i) (fun v => Stage n i hub task ⟨.Connected, [], []⟩ v ∧
      ⟨.network n, .task i, .ack ack, 0⟩ ∈ v.bus) w := by
  have hlt := (List.getElem?_eq_some_iff.mp hI.network).1
  obtain ⟨w₁, hw₁⟩ : ∃ v, v = (w.record (.brokerGot n data)).setNetwork n ⟨.Connected, [], []⟩ :=
    ⟨_, rfl⟩
  have got : w.step (.broker n .recv) = some w₁ := by
    simp only [World.step, hI.network, World.stepBroker, hw₁]
  have stage₁ : Stage n i hub task ⟨.Connected, [], []⟩ w₁ := by
    rw [hw₁]
    exact ⟨hI.hub, hI.task, List.getElem?_set_self hlt, hI.unheard⟩
  have hlt₁ := (List.getElem?_eq_some_iff.mp stage₁.network).1
  obtain ⟨w₂, hw₂⟩ : ∃ v, v = (w₁.record (.brokerSent n (.Ack ack) 0)).setNetwork n
    ⟨.Connected, [], [(.Ack ack, 0)]⟩ := ⟨_, rfl⟩
  have answered : w₁.step (.broker n (.send (.Ack ack) 0)) = some w₂ := by
    simp only [World.step, stage₁.network, World.stepBroker, hw₂, List.nil_append]
  have stage₂ : Stage n i hub task ⟨.Connected, [], [(.Ack ack, 0)]⟩ w₂ := by
    rw [hw₂]
    exact ⟨stage₁.hub, stage₁.task, List.getElem?_set_self hlt₁, stage₁.unheard⟩
  have hlt₂ := (List.getElem?_eq_some_iff.mp stage₂.network).1
  have read : w₂.step (.network n .read) = some
      ((w₂.setNetwork n ⟨.Connected, [], []⟩).dispatch (.network n) (.ack ack) 0) := by
    simp only [World.step, stage₂.network, World.stepNetwork, World.dealPacket]
  have listening : (w₂.setNetwork n ⟨.Connected, [], []⟩).taskLive i ack.type = true := by
    simp [World.taskLive, stage₂.task, hlive, hrx]
  refine CanReach.after (a := .broker n .recv) ?_ trivial got
  refine CanReach.after (a := .broker n (.send (.Ack ack) 0)) ?_ trivial answered
  refine CanReach.after (a := .network n .read) (.now ⟨⟨?_, ?_, ?_, ?_⟩, ?_⟩) trivial read
  · exact stage₂.hub
  · exact stage₂.task
  · exact List.getElem?_set_self hlt₂
  · intro e he
    rcases List.mem_append.mp he with hold | hnew
    · exact stage₂.unheard e hold
    · obtain ⟨receiver, _, rfl⟩ := List.mem_map.mp hnew
      exact fun heq => by cases heq
  · refine List.mem_append_right _ (List.mem_map.mpr ⟨.task i, ?_, rfl⟩)
    have hi := (List.getElem?_eq_some_iff.mp stage₂.task).1
    exact mem_subscribers_ack.mpr ⟨i, ⟨hi, listening⟩, rfl⟩

/-- The task skips what older exchanges have left to it, up to its acknowledgement. -/
theorem canReach_acked {left : List Envelope} : ∀ {w : World}, Acks w →
    Stage n i hub ⟨spec, .transmit data dupData packetId :: rest, .waiting, held⟩
      ⟨.Connected, [], []⟩ w →
    PairFifo.channel Envelope.channel (.network n, .task i) w.bus = left →
    (∃ e ∈ left, ∃ ack : Ack, e.event = .ack ack ∧ ack.isRel packetId = true) →
    CanReach World.step (Working i) (fun v => ∃ ack, Stage n i hub ⟨spec, rest, .ready, some ack⟩
      ⟨.Connected, [], []⟩ v) w := by
  induction left with
  | nil =>
    rintro w _ _ _ ⟨e, he, _⟩
    cases he
  | cons first left ih =>
    rintro w hacks hI hchannel ⟨e, he, ack, hevent, hrel⟩
    have hlt := (List.getElem?_eq_some_iff.mp hI.task).1
    have listed : first ∈ PairFifo.channel Envelope.channel (.network n, .task i) w.bus := by
      rw [hchannel]
      exact List.mem_cons_self
    obtain ⟨hfirst, hkey⟩ := PairFifo.mem_channel.mp listed
    obtain ⟨j, ⟨sender, receiver, event, message⟩, queue, htake, hsame⟩ :
        ∃ j e queue, PairFifo.take Envelope.channel w.bus j = some (e, queue) ∧
          e.channel = first.channel := PairFifo.exists_take hfirst
    obtain ⟨rfl, rfl⟩ := Prod.mk.inj (hsame.trans hkey)
    obtain ⟨other, rfl⟩ := hacks _ (PairFifo.mem_of_take htake) i rfl
    obtain ⟨rfl, rfl⟩ := List.cons.inj ((PairFifo.channel_take htake).symm.trans hchannel)
    have unheard : ∀ e ∈ queue, e.channel ≠ (.task i, .hub) :=
      fun e he => hI.unheard e (PairFifo.mem_rest_of_take htake he)
    by_cases hother : other.isRel packetId = true
    · have acked : w.step (.task i (.ack j)) = some
          (({ w with bus := queue }.record (.acked i other)).setTask i
            ⟨spec, rest, .ready, some other⟩) := by
        simp only [World.step, hI.task, World.stepTask, receive_of_take htake, hother, if_true]
      refine CanReach.after (a := .task i (.ack j)) (.now ⟨other, ?_⟩) rfl acked
      exact ⟨hI.hub, List.getElem?_set_self hlt, hI.network, unheard⟩
    · have skipped : w.step (.task i (.ack j)) = some { w with bus := queue } := by
        simp only [World.step, hI.task, World.stepTask, receive_of_take htake, if_neg hother]
      refine CanReach.after (a := .task i (.ack j)) ?_ rfl skipped
      refine ih (acks_of_moved (moved_of_step skipped) hacks)
        ⟨hI.hub, hI.task, hI.network, unheard⟩ rfl ⟨e, ?_, ack, hevent, hrel⟩
      rcases List.mem_cons.mp he with rfl | hlater
      · cases hevent
        exact absurd hrel hother
      · exact hlater

/-- A transmission that has not begun can come to its end. -/
theorem canReach_transmitted {ack : Ack} (hacks : Acks w) (hI : Stage n i hub
      ⟨spec, .transmit data dupData packetId :: rest, .ready, held⟩ ⟨.Connected, [], []⟩ w)
    (silent : ∀ e ∈ w.bus, e.sender ≠ .task i) (hrx : spec.rx = some ack.type)
    (hrel : ack.isRel packetId = true) :
    CanReach World.step (Working i) (fun v => ∃ ack, Stage n i hub ⟨spec, rest, .ready, some ack⟩
      ⟨.Connected, [], []⟩ v) w := by
  refine (canReach_waiting hI silent).bind ?_
  intro w₁ reach₁ waiting
  refine (canReach_answered waiting rfl hrx).bind ?_
  rintro w₂ reach₂ ⟨stage, listed⟩
  exact canReach_acked (acks_of_reach (acks_of_reach hacks reach₁) reach₂) stage rfl
    ⟨_, PairFifo.mem_channel.mpr ⟨listed, rfl⟩, ack, rfl, hrel⟩

/-- A task that has its acknowledgement runs to its end, and the user hears what it has to say. -/
theorem canReach_finished {prog : List Instr}
    (quick : ∀ instr ∈ prog, (∃ msg, instr = .dispatch msg) ∨ ∃ msg, instr = .txToUser msg) :
    ∀ {w : World}, w.tasks[i]? = some ⟨spec, prog, .ready, held⟩ →
      CanReach World.step (Working i) (fun v => v.hub = w.hub ∧ v.networks = w.networks ∧
        ∀ msg, .txToUser msg ∈ prog → .user (msg.event held) ∈ v.log) w := by
  induction prog with
  | nil =>
    intro w _
    exact .now ⟨rfl, rfl, fun msg hmem => absurd hmem List.not_mem_nil⟩
  | cons instr prog ih =>
    intro w hget
    have hlt := (List.getElem?_eq_some_iff.mp hget).1
    have later := fun other listed => quick other (List.mem_cons_of_mem instr listed)
    rcases quick instr List.mem_cons_self with ⟨msg, rfl⟩ | ⟨msg, rfl⟩
    · have told : w.step (.task i .run) = some
          ((w.dispatch (.task i) (.hubMsg msg) 0).setTask i ⟨spec, prog, .ready, held⟩) := by
        simp only [World.step, hget, World.stepTask]
      refine CanReach.after (a := .task i .run) ?_ rfl told
      refine (ih later (List.getElem?_set_self hlt)).mono (fun _ _ => id) ?_
      rintro v ⟨hub, networks, said⟩
      refine ⟨hub, networks, fun other hmem => said other ?_⟩
      exact (List.mem_cons.mp hmem).resolve_left (by simp)
    · have told : w.step (.task i .run) = some
          (((w.record (.user (msg.event held))).dispatch (.task i) (.mqtt (msg.event held)) 0).setTask
            i ⟨spec, prog, .ready, held⟩) := by
        simp only [World.step, hget, World.stepTask]
      refine CanReach.after (a := .task i .run) ?_ rfl told
      refine (ih later (List.getElem?_set_self hlt)).bind ?_
      rintro v hreach ⟨hub, networks, said⟩
      refine .now ⟨hub, networks, fun other hmem => ?_⟩
      rcases List.mem_cons.mp hmem with hsame | hlater
      · cases hsame
        exact (log_of_reach hreach).subset List.mem_cons_self
      · exact said other hlater

end Exchange

/-! ## One entry -/

/-- Connection `n` is up and idle, and each entry has its own task that has not begun. -/
structure Serving (n : Nat) (pending : List (Nat × UnacknowledgedClientData)) (w : World) :
    Prop where
  acks : Acks w
  background : Background w
  looping : Looping w
  entries : w.hub.clientData = pending.map Prod.snd
  network : w.networks[n]? = some ⟨.Connected, [], []⟩
  unbegun : ∀ i entry, (i, entry) ∈ pending → Unbegun i entry.toAcknowledge w
  distinct : (pending.map Prod.fst).Nodup

/-- What the task of an entry does behind its acknowledgement, and the answer it waits for. -/
structure Exchange (entry : UnacknowledgedClientData) (data dupData : Outgoing)
    (tail : List Instr) (ack : Ack) : Prop where
  run : entry.toAcknowledge.run =
    .transmit data dupData entry.packetId :: .dispatch (.RecoverId entry.packetId) :: tail
  rx : entry.toAcknowledge.rx = some ack.type
  rel : ack.isRel entry.packetId = true
  quick : ∀ instr ∈ tail, (∃ msg, instr = .dispatch msg) ∨ ∃ msg, instr = .txToUser msg
  tells : completing entry = true → ∃ msg, .txToUser msg ∈ tail ∧ msg.id = entry.id

theorem exchange_of_entry (entry : UnacknowledgedClientData) :
    ∃ data dupData tail ack, Exchange entry data dupData tail ack := by
  have told (msg : UserMsg) : ∀ instr ∈ [Instr.txToUser msg],
      (∃ msg, instr = .dispatch msg) ∨ ∃ msg, instr = .txToUser msg := by
    intro instr hmem
    exact .inr ⟨msg, List.mem_singleton.mp hmem⟩
  cases entry with
  | PublishQoS1 packet =>
    refine ⟨_, _, _, .PubAck packet.packetId, rfl, rfl, decide_eq_true rfl, ?_,
      fun _ => ⟨.PublishSuccess packet.id, by simp, rfl⟩⟩
    intro instr hmem
    rcases List.mem_cons.mp hmem with rfl | hmem
    · exact .inl ⟨_, rfl⟩
    · exact told _ instr hmem
  | PublishQoS2 packet =>
    exact ⟨_, _, [], .PubRec packet.packetId, rfl, rfl, decide_eq_true rfl, by simp,
      by simp [completing]⟩
  | PubRel packetId id protocol =>
    exact ⟨_, _, _, .PubComp packetId, rfl, rfl, decide_eq_true rfl, told _,
      fun _ => ⟨_, List.mem_cons_self, rfl⟩⟩
  | Subscribe packet =>
    exact ⟨_, _, _, .SubAck packet.packetId [], rfl, rfl, decide_eq_true rfl, told _,
      fun _ => ⟨_, List.mem_cons_self, rfl⟩⟩
  | Unsubscribe packet =>
    exact ⟨_, _, _, .UnsubAck packet.packetId [], rfl, rfl, decide_eq_true rfl, told _,
      fun _ => ⟨_, List.mem_cons_self, rfl⟩⟩

section Recover

variable {hub : Hub} {entry : UnacknowledgedClientData} {entries : List UnacknowledgedClientData}

/-- The first entry is half done: the task of its PUBREL starts. -/
theorem recover_release {packet : TracePublishQos .ExactlyOnce}
    (h : hub.clientData = .PublishQoS2 packet :: entries) : hub.recoverId packet.packetId =
      ⟨{ hub with clientData := .PubRel packet.packetId packet.id packet.protocol :: entries },
        [.start (.PublishQos2Rel packet.packetId packet.id packet.protocol)], .ok ()⟩ := by
  have found : hub.clientData.findIdx? (fun obj => obj.packetId = packet.packetId) = some 0 :=
    (found_first h).1
  have half : (UnacknowledgedClientData.PublishQoS2 packet).acknowledge =
      (.PubRel packet.packetId packet.id packet.protocol, false) := rfl
  have replaced : hub.clientData.set 0 (.PubRel packet.packetId packet.id packet.protocol) =
      .PubRel packet.packetId packet.id packet.protocol :: entries := by rw [h]; rfl
  simp only [Hub.recoverId, found, (found_first h).2, half, replaced, Bool.false_eq_true, if_false,
    UnacknowledgedClientData.toAcknowledge]

end Recover

section Serve

variable {w w' : World} {n i : Nat} {entry : UnacknowledgedClientData}
variable {pending : List (Nat × UnacknowledgedClientData)}

/-- The part of the invariant that the work on another entry does not touch. -/
theorem Serving.others (hI : Serving n ((i, entry) :: pending) w)
    (h : Reachable World.step (Working i) w w') : ∀ k other, (k, other) ∈ pending →
      Unbegun k other.toAcknowledge w' := by
  intro k other hmem
  have hk : k ≠ i := by
    rintro rfl
    have distinct := hI.distinct
    rw [List.map_cons, List.nodup_cons] at distinct
    exact distinct.1 (List.mem_map.mpr ⟨(k, other), hmem, rfl⟩)
  exact (hI.unbegun k other (List.mem_cons_of_mem _ hmem)).of_reach hk h

theorem background_of_reach {ok : World → Action → Prop} (hI : Background w)
    (h : Reachable World.step ok w w') : Background w' := by
  refine h.invariant hI ?_
  intro v action v' _ ih _ hstep
  exact background_of_moved (moved_of_step hstep) ih

/-- The task of the first entry gets its acknowledgement and tells the hub. -/
theorem canReach_told (hI : Serving n ((i, entry) :: pending) w) {data dupData : Outgoing}
    {tail : List Instr} {ack : Ack} (hex : Exchange entry data dupData tail ack) :
    CanReach World.step (Working i) (fun v => v.hub = w.hub ∧
      v.networks[n]? = some ⟨.Connected, [], []⟩ ∧
      (∃ held, v.tasks[i]? = some ⟨entry.toAcknowledge, tail, .ready, held⟩) ∧
      ∃ j queue, PairFifo.take Envelope.channel v.bus j =
        some (⟨.task i, .hub, .hubMsg (.RecoverId entry.packetId), 0⟩, queue)) w := by
  have fresh := hI.unbegun i entry List.mem_cons_self
  have unheard : ∀ e ∈ w.bus, e.channel ≠ (.task i, .hub) :=
    fun e he heq => fresh.silent e he (congrArg Prod.fst heq)
  have begun : w.tasks[i]? = some ⟨entry.toAcknowledge, .transmit data dupData entry.packetId ::
      .dispatch (.RecoverId entry.packetId) :: tail, .ready, none⟩ := by
    rw [← hex.run]
    exact fresh.task
  refine (canReach_transmitted hI.acks ⟨rfl, begun, hI.network, unheard⟩ fresh.silent hex.rx
    hex.rel).bind ?_
  rintro v _ ⟨held, stage⟩
  have hlt := (List.getElem?_eq_some_iff.mp stage.task).1
  have told : v.step (.task i .run) = some
      ((v.dispatch (.task i) (.hubMsg (.RecoverId entry.packetId)) 0).setTask i
        ⟨entry.toAcknowledge, tail, .ready, some held⟩) := by
    simp only [World.step, stage.task, World.stepTask]
  refine CanReach.after (a := .task i .run) (.now ?_) rfl told
  exact ⟨stage.hub, stage.network, ⟨some held, List.getElem?_set_self hlt⟩, v.bus.length, v.bus,
    PairFifo.take_snoc stage.unheard⟩

/-- The hub drops the first entry, gives its id back and draws a token. -/
theorem canReach_recovered {entries : List UnacknowledgedClientData} (looping : Looping w)
    (hids : IdsConserved w.hub) (hentries : w.hub.clientData = entry :: entries)
    (hentry : completing entry = true)
    {j message : Nat} {queue : List Envelope} {sender : Worker}
    (htake : PairFifo.take Envelope.channel w.bus j =
      some (⟨sender, .hub, .hubMsg (.RecoverId entry.packetId), message⟩, queue)) :
    CanReach World.step (Working i) (fun v => Looping v ∧ v.hub.clientData = entries ∧
      v.tasks = w.tasks ∧ v.networks = w.networks) w := by
  have done : entry.acknowledge.2 = true := by
    cases entry with
    | PublishQoS2 packet => cases hentry
    | _ => rfl
  obtain ⟨pool, recovered, _⟩ := recoverId_completing hids hentries done
  have taken := step_recv looping htake
  rw [Hub.dealHubMsg, recovered] at taken
  refine CanReach.after (a := .hub (.recv j)) ?_ trivial taken
  refine CanReach.after (a := .hub .load) ?_ trivial (step_load rfl)
  exact .now ⟨⟨rfl, looping.state, looping.position⟩, rfl, rfl, rfl⟩

/-- The first entry is worked off. -/
theorem canReach_completed (hI : Serving n ((i, entry) :: pending) w)
    (hentry : completing entry = true) : CanReach World.step (Working i) (fun v =>
      Serving n pending v ∧ ∃ event ∈ v.log, completes entry.id event = true) w := by
  obtain ⟨data, dupData, tail, ack, hex⟩ := exchange_of_entry entry
  obtain ⟨msg, hmsg, hid⟩ := hex.tells hentry
  refine (canReach_told hI hex).bind ?_
  rintro v reach₁ ⟨hub, network, ⟨held, task⟩, j, queue, htake⟩
  have looping : Looping v := by
    rw [Looping, hub]
    exact hI.looping
  refine (canReach_recovered looping (hub ▸ hI.background.ids) (hub ▸ hI.entries) hentry
    htake).bind ?_
  rintro u reach₂ ⟨looping', entries, tasks, networks⟩
  refine (canReach_finished hex.quick (tasks ▸ task)).bind ?_
  rintro t reach₃ ⟨hub', networks', said⟩
  have reach := (reach₁.trans reach₂).trans reach₃
  refine .now ⟨⟨acks_of_reach hI.acks reach, background_of_reach hI.background reach, ?_, ?_, ?_,
    hI.others reach, (List.nodup_cons.mp hI.distinct).2⟩, _, said msg hmsg, ?_⟩
  · rw [Looping, hub']
    exact looping'
  · rw [hub', entries]
  · rw [networks', networks]
    exact network
  · rw [completes_event, hid]
    exact beq_self_eq_true _

/-- A publish of QoS 2 gets to its PUBREL. -/
theorem canReach_released {packet : TracePublishQos .ExactlyOnce}
    (hI : Serving n ((i, .PublishQoS2 packet) :: pending) w) :
    CanReach World.step (Working i) (fun v => ∃ k, Serving n
      ((k, .PubRel packet.packetId packet.id packet.protocol) :: pending) v) w := by
  obtain ⟨data, dupData, tail, ack, hex⟩ := exchange_of_entry (.PublishQoS2 packet)
  refine (canReach_told hI hex).bind ?_
  rintro v reach₁ ⟨hub, network, _, j, queue, htake⟩
  have looping : Looping v := by
    rw [Looping, hub]
    exact hI.looping
  have entries : v.hub.clientData = .PublishQoS2 packet :: pending.map Prod.snd := by
    rw [hub]
    exact hI.entries
  have taken := step_recv looping htake
  have recovered : v.hub.dealHubMsg v.keepAliveId (.RecoverId packet.packetId) = _ :=
    recover_release entries
  obtain ⟨u, hu⟩ : ∃ u, u = World.applyOutputs 0 { v with
    bus := queue
    log := .hubTook (.task i) (.RecoverId packet.packetId) :: v.log
    hub := { v.hub with
      clientData := .PubRel packet.packetId packet.id packet.protocol :: pending.map Prod.snd } }
    [.start (.PublishQos2Rel packet.packetId packet.id packet.protocol)] := ⟨_, rfl⟩
  have stepped : v.step (.hub (.recv j)) = some u := by
    rw [hu]
    exact taken.trans (by rw [UnacknowledgedClientData.packetId, recovered])
  have reach : Reachable World.step (Working i) w u :=
    reach₁.trans (.next (a := .hub (.recv j)) .start trivial stepped)
  have routed := (background_of_reach hI.background reach₁).routed
  refine CanReach.after (a := .hub (.recv j)) (.now ⟨v.tasks.length, ?_⟩) trivial stepped
  have others := hI.others reach
  refine ⟨acks_of_reach hI.acks reach, background_of_reach hI.background reach, ?_, ?_, ?_, ?_, ?_⟩
  · rw [hu]
    exact ⟨looping.draw, looping.state, looping.position⟩
  · rw [hu]
    rfl
  · rw [hu]
    exact network
  · intro k other hmem
    rcases List.mem_cons.mp hmem with hsame | hlater
    · cases hsame
      rw [hu]
      refine ⟨List.getElem?_concat_length, ?_⟩
      intro e he hsender
      have older := routed.sender e (PairFifo.mem_rest_of_take htake he) _ hsender
      exact Nat.lt_irrefl _ older
    · exact others k other hlater
  · rw [List.map_cons, List.nodup_cons]
    refine ⟨?_, (List.nodup_cons.mp hI.distinct).2⟩
    intro hmem
    obtain ⟨⟨k, other⟩, hlisted, heq⟩ := List.mem_map.mp hmem
    have before := (hI.others reach₁ k other hlisted).task
    have hlt := (List.getElem?_eq_some_iff.mp before).1
    cases heq
    exact Nat.lt_irrefl _ hlt

theorem unattended_of_working (w : World) (action : Action) (h : Working i w action) :
    Unattended w action := by
  cases action with
  | request data => cases h
  | command command => cases h
  | _ => trivial

theorem canReach_served (hI : Serving n ((i, entry) :: pending) w) :
    CanReach World.step Unattended (fun v =>
      Serving n pending v ∧ ∃ event ∈ v.log, completes entry.id event = true) w := by
  cases entry with
  | PublishQoS2 packet =>
    refine ((canReach_released hI).mono unattended_of_working (fun _ => id)).bind ?_
    rintro v _ ⟨k, serving⟩
    exact (canReach_completed serving rfl).mono unattended_of_working (fun _ => id)
  | _ => exact (canReach_completed hI rfl).mono unattended_of_working (fun _ => id)

/-- All entries are worked off, one after the other. -/
theorem canReach_drained : ∀ {w : World}, Serving n pending w →
    CanReach World.step Unattended (fun v => Serving n [] v ∧
      ∀ entry ∈ pending.map Prod.snd, ∃ event ∈ v.log, completes entry.id event = true) w := by
  induction pending with
  | nil =>
    intro w hI
    exact .now ⟨hI, fun entry hmem => absurd hmem List.not_mem_nil⟩
  | cons first pending ih =>
    intro w hI
    obtain ⟨i, entry⟩ := first
    refine (canReach_served hI).bind ?_
    rintro v _ ⟨serving, event, hevent, hcompletes⟩
    refine (ih serving).bind ?_
    rintro u hreach ⟨rested, completed⟩
    refine .now ⟨rested, fun other hmem => ?_⟩
    rcases List.mem_cons.mp hmem with rfl | hlater
    · exact ⟨event, (log_of_reach hreach).subset hevent, hcompletes⟩
    · exact completed other hlater

end Serve

/-! ## From any state -/

section Rest

variable {w : World}

/-- Afresh, the entries can be served in their order. -/
theorem serving_of_afresh (hacks : Acks w) (hbackground : Background w) (h : Afresh w) :
    ∃ n pending, Serving n pending w ∧ pending.map Prod.snd = w.hub.clientData := by
  obtain ⟨earlier, networks⟩ := h.network
  obtain ⟨older, tasks, senders⟩ := h.tasks
  have entries : ((w.hub.clientData.zipIdx older.length).map Prod.swap).map Prod.snd =
      w.hub.clientData := by
    rw [List.map_map]
    exact List.zipIdx_map_fst _ _
  refine ⟨earlier.length, (w.hub.clientData.zipIdx older.length).map Prod.swap,
    ⟨hacks, hbackground, h.looping, entries.symm, ?_, ?_, ?_⟩, entries⟩
  · rw [networks]
    exact List.getElem?_concat_length
  · intro i entry hmem
    obtain ⟨⟨entry', i'⟩, hlisted, heq⟩ := List.mem_map.mp hmem
    obtain ⟨rfl, rfl⟩ := Prod.mk.inj heq
    obtain ⟨hle, hget⟩ := List.mk_mem_zipIdx_iff_le_and_getElem?_sub.mp hlisted
    refine ⟨?_, fun e he hsender => ?_⟩
    · rw [tasks, List.getElem?_append_right hle, List.getElem?_map, hget]
      rfl
    · have before := senders e he _ hsender
      omega
  · have indices : ((w.hub.clientData.zipIdx older.length).map Prod.swap).map Prod.fst =
        List.range' older.length w.hub.clientData.length := by
      rw [List.map_map]
      exact List.zipIdx_map_snd _ _
    rw [indices]
    exact List.nodup_range'

theorem unattended_of_reviving (w : World) (action : Action) (h : Reviving w action) :
    Unattended w action := by
  cases action with
  | request data => cases h
  | command command => cases h
  | _ => trivial

theorem own_acks : Own Acks where
  start := fun _ _ _ he => absurd he List.not_mem_nil
  kept := fun _ _ _ hI hstep => acks_of_moved (moved_of_step hstep) hI
  shared := fun _ _ hI => hI

end Rest

end Draining
