import ForMqttClient.Completions
import ForMqttClient.Handover

/-!
# Where packets and completions come from

Nothing of what the broker gets or the user is told is made up by the client:
a packet on the wire goes back to a request of the user or to a message of the
broker, and a completion to the request, to the packet that was written for it
and to the acknowledgement that the broker sent.
-/

namespace Provenance

open MqttData TaskHub HubSteps Tasks System SystemSteps TaskRuns GuardedRuns Handover Completions

/-- Why task `i` was started: the request that it works on, or the message that
the hub took in when it started the task. -/
inductive Reason (log : List Event) (i : Nat) : TaskSpec → Prop where
  | publishQos0 {trace : TracePublishQos .AtMostOnce}
      (h : .requested (.PublishQoS0 trace) ∈ log) : Reason log i (.PublishQos0 trace)
  | publishQos1 {trace : TracePublishQos .AtLeastOnce}
      (h : .accepted (.PublishQoS1 trace) ∈ log) : Reason log i (.PublishQos1 trace)
  | publishQos2 {trace : TracePublishQos .ExactlyOnce}
      (h : .accepted (.PublishQoS2 trace) ∈ log) : Reason log i (.PublishQos2 trace)
  | publishQos2Rel {trace : TracePublishQos .ExactlyOnce}
      (h : .accepted (.PublishQoS2 trace) ∈ log) :
      Reason log i (.PublishQos2Rel trace.packetId trace.id trace.protocol)
  | subscribe {trace : TraceSubscribe} (h : .accepted (.Subscribe trace) ∈ log) :
      Reason log i (.Subscribe trace)
  | unsubscribe {trace : TraceUnubscribe} (h : .accepted (.Unsubscribe trace) ∈ log) :
      Reason log i (.Unsubscribe trace)
  | publishRxQos1 {publish : Publish} {message : Nat} {packetId : PacketId} {protocol : Protocol}
      (h : .rxAccepted i publish message ∈ log) (hqos : publish.qos = .AtLeastOnce packetId) :
      Reason log i (.PublishRxQos1 packetId protocol)
  | publishRxQos2 {publish : Publish} {message : Nat} {packetId : PacketId} {protocol : Protocol}
      (h : .rxAccepted i publish message ∈ log) (hqos : publish.qos = .ExactlyOnce packetId) :
      Reason log i (.PublishRxQos2 packetId protocol)

/-- The packets of the first await of a task. -/
def firstPackets (spec : TaskSpec) : List Outgoing := spec.run.head?.elim [] packets

/-- Why a packet is sent. A PUBCOMP answers the PUBREL that its task has taken. -/
inductive Handed (log : List Event) : Outgoing → Prop where
  | ping {i : Nat} (h : .pingStarted i ∈ log) : Handed log .PingReq
  | first {i : Nat} {spec : TaskSpec} {packet : Outgoing} (hreason : Reason log i spec)
      (hpacket : packet ∈ firstPackets spec) : Handed log packet
  | pubComp {i : Nat} {packetId : PacketId} {protocol : Protocol}
      (hreason : Reason log i (.PublishRxQos2 packetId protocol))
      (hacked : .acked i (.PubRel packetId) ∈ log) : Handed log (.PubComp packetId)

/-- The packet id of the acknowledgement that a task waits for. -/
def awaited : TaskSpec → Option PacketId
  | .PublishQos1 trace => some trace.packetId
  | .PublishQos2 trace => some trace.packetId
  | .PublishQos2Rel packetId _ _ => some packetId
  | .Subscribe trace => some trace.packetId
  | .Unsubscribe trace => some trace.packetId
  | .PublishRxQos2 packetId _ => some packetId
  | _ => none

/-- The broker has sent the acknowledgement. -/
def SentAck (log : List Event) (ack : Ack) : Prop :=
  ∃ n message, .brokerSent n (.Ack ack) message ∈ log

/-- Task `i` holds the acknowledgement that it waited for, if it waits for one. -/
def Confirmed (log : List Event) (i : Nat) (spec : TaskSpec) (held : Option Ack) : Prop :=
  ∀ type, spec.rx = some type → ∃ ack, held = some ack ∧ ack.type = type ∧
    some ack.packetId = awaited spec ∧ .acked i ack ∈ log ∧ SentAck log ack

/-- Why the user is told that a request is complete. -/
def Grounded (log : List Event) (event : MqttEvent) : Prop :=
  ∃ i spec msg held, Reason log i spec ∧ .txToUser msg ∈ spec.run ∧ event = msg.event held ∧
    Confirmed log i spec held

/-- The events of the history that need a reason stand behind it. -/
def Told : Event → List Event → Prop
  | .brokerGot _ packet, older => packet = .Disconnect ∨ Handed older packet
  | .user event, older => (∃ t, completes t (.user event) = true) → Grounded older event
  | .acked _ ack, older => SentAck older ack
  | _, _ => True

section Monotone

variable {log log' : List Event} {i : Nat}

theorem Reason.mono {spec : TaskSpec} (h : Reason log i spec) (hlog : log ⊆ log') :
    Reason log' i spec := by
  cases h with
  | publishQos0 h => exact .publishQos0 (hlog h)
  | publishQos1 h => exact .publishQos1 (hlog h)
  | publishQos2 h => exact .publishQos2 (hlog h)
  | publishQos2Rel h => exact .publishQos2Rel (hlog h)
  | subscribe h => exact .subscribe (hlog h)
  | unsubscribe h => exact .unsubscribe (hlog h)
  | publishRxQos1 h hqos => exact .publishRxQos1 (hlog h) hqos
  | publishRxQos2 h hqos => exact .publishRxQos2 (hlog h) hqos

theorem Handed.mono {packet : Outgoing} (h : Handed log packet) (hlog : log ⊆ log') :
    Handed log' packet := by
  cases h with
  | ping h => exact .ping (hlog h)
  | first hreason hpacket => exact .first (hreason.mono hlog) hpacket
  | pubComp hreason hacked => exact .pubComp (hreason.mono hlog) (hlog hacked)

theorem SentAck.mono {ack : Ack} (h : SentAck log ack) (hlog : log ⊆ log') : SentAck log' ack := by
  obtain ⟨n, message, hsent⟩ := h
  exact ⟨n, message, hlog hsent⟩

theorem Confirmed.mono {spec : TaskSpec} {held : Option Ack} (h : Confirmed log i spec held)
    (hlog : log ⊆ log') : Confirmed log' i spec held := by
  intro type htype
  obtain ⟨ack, hheld, hack, hid, hacked, hsent⟩ := h type htype
  exact ⟨ack, hheld, hack, hid, hlog hacked, hsent.mono hlog⟩

end Monotone

/-- The entry of a request has the reason of its task. -/
theorem reason_of_accepted {log : List Event} {entry : UnacknowledgedClientData}
    (hfresh : ∀ packetId id protocol, entry ≠ .PubRel packetId id protocol)
    (h : .accepted entry ∈ log) (i : Nat) : Reason log i entry.toAcknowledge := by
  cases entry with
  | PublishQoS1 packet => exact .publishQos1 h
  | PublishQoS2 packet => exact .publishQos2 h
  | PubRel packetId id protocol => exact absurd rfl (hfresh packetId id protocol)
  | Subscribe packet => exact .subscribe h
  | Unsubscribe packet => exact .unsubscribe h

/-! ## What the hub starts -/

/-- The tasks that a step of the hub starts and the entries behind it have their reasons. -/
structure Starts (w w' : World) : Prop where
  log : w.log <:+ w'.log
  tasks : ∃ specs : List TaskSpec, w'.tasks = w.tasks ++ specs.map Task.init ∧
    ∀ k spec, specs[k]? = some spec → Reason w'.log (w.tasks.length + k) spec
  entries : ∀ entry ∈ w'.hub.clientData, ∀ i, Reason w'.log i entry.toAcknowledge

section Hub

variable {w w' : World} {action : Action} {i : Nat}

theorem reasons_of_start {spec : TaskSpec} (htasks : w'.tasks = w.tasks ++ [Task.init spec])
    (hreason : Reason w'.log w.tasks.length spec) :
    ∃ specs : List TaskSpec, w'.tasks = w.tasks ++ specs.map Task.init ∧
      ∀ k spec, specs[k]? = some spec → Reason w'.log (w.tasks.length + k) spec := by
  refine ⟨[spec], htasks, ?_⟩
  intro k spec' hget
  cases k with
  | zero =>
    obtain rfl := Option.some.inj hget
    exact hreason
  | succ k => cases hget

theorem reasons_of_none (htasks : w'.tasks = w.tasks) :
    ∃ specs : List TaskSpec, w'.tasks = w.tasks ++ specs.map Task.init ∧
      ∀ k spec, specs[k]? = some spec → Reason w'.log (w.tasks.length + k) spec :=
  ⟨[], htasks.trans (List.append_nil _).symm, fun _ _ hget => nomatch hget⟩

/-- The second phase has the reason of the first. -/
theorem reason_of_released {packet : TracePublishQos .ExactlyOnce}
    (h : Reason w.log 0 (.PublishQos2 packet)) (hlog : w.log <:+ w'.log) (i : Nat) :
    Reason w'.log i (.PublishQos2Rel packet.packetId packet.id packet.protocol) := by
  cases h with
  | publishQos2 accepted => exact .publishQos2Rel (hlog.subset accepted)

theorem starts_of_hub (hentries : ∀ entry ∈ w.hub.clientData, ∀ i,
    Reason w.log i entry.toAcknowledge) {a : HubAction} (h : HubMoved w a w') : Starts w w' := by
  have hlog := log_grows (.hub h)
  -- entries that were there before keep their reason
  have kept : ∀ entry ∈ w.hub.clientData, ∀ i, Reason w'.log i entry.toAcknowledge :=
    fun entry hentry i => (hentries entry hentry i).mono hlog.subset
  suffices both : (∃ specs : List TaskSpec, w'.tasks = w.tasks ++ specs.map Task.init ∧
      ∀ k spec, specs[k]? = some spec → Reason w'.log (w.tasks.length + k) spec) ∧
      ∀ entry ∈ w'.hub.clientData, ∀ i, Reason w'.log i entry.toAcknowledge from
    ⟨hlog, both.1, both.2⟩
  cases h with
  | @intro input message taken hub outputs htakes hmove =>
    have htasks := tasks_of_takes htakes hub outputs
    rw [congrArg Hub.clientData (applyOutputs_grown { taken with hub := hub } message outputs).hub]
    cases hmove with
    | resendEntry hat hentry =>
      exact ⟨reasons_of_start htasks (kept _ (List.mem_of_getElem? hentry) _), kept⟩
    | publishQoS0 hat =>
      cases htakes with
      | clientData htake =>
        exact ⟨reasons_of_start htasks
          (.publishQos0 (List.mem_cons_of_mem _ List.mem_cons_self)), kept⟩
    | @accept data entry pool hat hid hpop hfresh =>
      have added (i : Nat) : Reason (World.applyOutputs message
          { taken with hub := { w.hub with pool := pool,
                                           clientData := w.hub.clientData ++ [entry] } }
          [.accepted entry, .start entry.toAcknowledge]).log i entry.toAcknowledge :=
        reason_of_accepted hfresh (List.mem_cons_of_mem _ List.mem_cons_self) i
      refine ⟨reasons_of_start htasks (added _), ?_⟩
      intro old hold i
      rcases List.mem_append.mp hold with hold | hnew
      · exact kept old hold i
      · obtain rfl := List.mem_singleton.mp hnew
        exact added i
    | recoverDone hat hfind hentry hdone hpush =>
      exact ⟨reasons_of_none (htasks.trans (List.append_nil _)),
        fun entry hentry => kept entry (List.mem_of_mem_eraseIdx hentry)⟩
    | recoverRel hat hfind hentry =>
      have rel := reason_of_released (hentries _ (List.mem_of_getElem? hentry) 0) hlog
      refine ⟨reasons_of_start htasks (rel _), ?_⟩
      intro old hold i
      rcases List.mem_or_eq_of_mem_set hold with hold | rfl
      · exact kept old hold i
      · exact rel i
    | rxAccept hat hfree hspec =>
      cases htakes with
      | hubMsg htake =>
        rcases hspec with ⟨hqos, rfl⟩ | ⟨hqos, rfl⟩
        · exact ⟨reasons_of_start htasks
            (.publishRxQos1 (List.mem_cons_of_mem _ List.mem_cons_self) hqos), kept⟩
        · exact ⟨reasons_of_start htasks
            (.publishRxQos2 (List.mem_cons_of_mem _ List.mem_cons_self) hqos), kept⟩
    | _ => exact ⟨reasons_of_none (htasks.trans (List.append_nil _)), kept⟩

end Hub

/-! ## The awaits of a task -/

section Awaits

variable {spec : TaskSpec} {instr : Instr} {rest : List Instr}

/-- A task transmits only at its first await. -/
theorem transmit_first {data dupData : Outgoing} {packetId : PacketId}
    (h : .transmit data dupData packetId :: rest <:+ spec.run) :
    spec.run = .transmit data dupData packetId :: rest ∧ awaited spec = some packetId := by
  cases spec <;> simp [TaskSpec.run, transmitPublish, List.suffix_cons_iff] at h <;>
    obtain ⟨⟨rfl, rfl, rfl⟩, rfl⟩ := h <;> exact ⟨rfl, rfl⟩

/-- Behind its first await only the task of a received QoS 2 message sends. -/
theorem second_send (h : instr :: rest <:+ spec.run) (hbehind : instr :: rest ≠ spec.run)
    {packet : Outgoing} (hpacket : packet ∈ packets instr) :
    ∃ packetId protocol, spec = .PublishRxQos2 packetId protocol ∧ packet = .PubComp packetId := by
  cases spec with
  | PublishRxQos2 packetId protocol =>
    simp only [TaskSpec.run, List.suffix_cons_iff, List.cons.injEq, List.suffix_nil] at h
    rcases h with ⟨rfl, rfl⟩ | ⟨rfl, rfl⟩ | ⟨rfl, rfl⟩ | ⟨rfl, rfl⟩ | h
    · exact absurd rfl hbehind
    · cases hpacket
    · exact ⟨packetId, protocol, rfl, List.mem_singleton.mp hpacket⟩
    · cases hpacket
    · cases h
  | _ =>
    simp only [TaskSpec.run, transmitPublish, List.suffix_cons_iff, List.cons.injEq,
      List.suffix_nil] at h
    rcases h with ⟨rfl, rfl⟩ | h
    · exact absurd rfl hbehind
    · repeat (rcases h with ⟨rfl, rfl⟩ | h; · cases hpacket)
      cases h

theorem run_head (spec : TaskSpec) : ∃ first tail, spec.run = first :: tail ∧
    firstPackets spec = packets first ∧ packets first ≠ [] := by
  cases spec <;> exact ⟨_, _, rfl, rfl, List.cons_ne_nil _ _⟩

/-- A task whose first await only sends waits for no acknowledgement. -/
theorem rx_of_send {data : Outgoing} (h : spec.run = .send data :: rest) : spec.rx = none := by
  cases spec with
  | PublishQos0 trace => rfl
  | PublishRxQos1 packetId protocol => rfl
  | _ => cases h

end Awaits

/-! ## Step by step -/

structure Sources (w : World) : Prop where
  track : OnTrack w
  routed : Routed w
  entries : ∀ entry ∈ w.hub.clientData, ∀ i, Reason w.log i entry.toAcknowledge
  tasks : ∀ (i : Nat) (task : Tasks.Task), w.tasks[i]? = some task → Reason w.log i task.spec
  passed : ∀ (i : Nat) (task : Tasks.Task), w.tasks[i]? = some task →
    task.prog = [] ∨ task.prog = task.spec.run ∨ Confirmed w.log i task.spec task.ack
  pings : ∀ i, i < w.pings.length → .pingStarted i ∈ w.log
  streams : ∀ (n : Nat) (network : Network), w.networks[n]? = some network →
    ∀ packet message, (packet, message) ∈ network.fromBroker → .brokerSent n packet message ∈ w.log
  acks : ∀ e ∈ w.bus, ∀ ack, e.event = .ack ack → SentAck w.log ack
  data : ∀ e ∈ w.bus, ∀ packet receipt, e.event = .data packet receipt → Handed w.log packet
  wire : ∀ (n : Nat) (network : Network), w.networks[n]? = some network →
    ∀ packet ∈ network.toBroker, packet = .Disconnect ∨ Handed w.log packet
  told : Throughout Told w.log

section Steps

variable {w w' : World} {action : Action} {i : Nat}

theorem handed_of_sends (hI : Sources w) {task : Tasks.Task} {a : TaskAction}
    (hget : w.tasks[i]? = some task) {packet : Outgoing} (hsends : sends task a = some packet) :
    Handed w.log packet := by
  obtain ⟨instr, rest, hprog, hhead⟩ := sends_head hsends
  have hpacket : packet ∈ packets instr := by
    rcases hhead with ⟨_, rfl | ⟨_, _, rfl⟩⟩ | ⟨_, _, _, rfl⟩ <;> simp [packets]
  have htrack := hI.track i task hget
  have reason := hI.tasks i task hget
  by_cases hwhole : task.prog = task.spec.run
  · obtain ⟨first, tail, hrun, hfirst, _⟩ := run_head task.spec
    rw [hwhole, hrun] at hprog
    obtain ⟨rfl, rfl⟩ := List.cons.inj hprog
    exact .first reason (hfirst ▸ hpacket)
  · rw [hprog] at htrack
    obtain ⟨packetId, protocol, hspec, rfl⟩ := second_send htrack (hprog ▸ hwhole) hpacket
    rcases hI.passed i task hget with hnil | hrun | confirmed
    · rw [hnil] at hprog
      cases hprog
    · exact absurd hrun hwhole
    · rw [hspec] at reason confirmed
      obtain ⟨ack, _, htype, hid, hacked, _⟩ := confirmed .PubRel rfl
      cases ack with
      | PubRel id =>
        cases hid
        exact .pubComp reason hacked
      | _ => cases htype

theorem data_of_step (hI : Sources w) (h : Moved w action w') {e : Envelope} (he : e ∈ w'.bus)
    {packet : Outgoing} {receipt : Nat} (hevent : e.event = .data packet receipt) :
    Handed w'.log packet := by
  have grows := (log_grows h).subset
  rcases data_of_moved h he hevent with hold | ⟨hsends, _, _⟩
  · exact (hI.data e hold packet receipt hevent).mono grows
  · cases hsends with
    | task hget hsends => exact (handed_of_sends hI hget hsends).mono grows
    | @ping i timeoutTime hget =>
      exact .ping (grows (hI.pings i (List.getElem?_eq_some_iff.mp hget).1))

theorem acks_of_step (hI : Sources w) (h : Moved w action w') {e : Envelope} (he : e ∈ w'.bus)
    {ack : Ack} (hevent : e.event = .ack ack) : SentAck w'.log ack := by
  have grows := (log_grows h).subset
  rcases mem_bus_of_moved h he with hold | hnew
  · exact (hI.acks e hold ack hevent).mono grows
  · cases hnew with
    | @ack n _ _ _ message _ hget hfrom hlive =>
      cases hevent
      refine ⟨n, message, grows (hI.streams n _ hget _ message ?_)⟩
      rw [hfrom]
      exact List.mem_cons_self
    | _ => cases hevent

/-- What stands in the streams of a connection after a step. -/
structure Streams (w w' : World) (n : Nat) (network : Network) : Prop where
  fromBroker : ∀ packet message, (packet, message) ∈ network.fromBroker →
    (∃ before, w.networks[n]? = some before ∧ (packet, message) ∈ before.fromBroker) ∨
      .brokerSent n packet message ∈ w'.log
  toBroker : ∀ packet ∈ network.toBroker,
    (∃ before, w.networks[n]? = some before ∧ packet ∈ before.toBroker) ∨
      packet = .Disconnect ∨ ∃ e ∈ w.bus, ∃ receipt, e.event = .data packet receipt

theorem streams_same {n : Nat} {network : Network} (hget : w.networks[n]? = some network) :
    Streams w w' n network :=
  ⟨fun _ _ hmem => .inl ⟨network, hget, hmem⟩, fun _ hmem => .inl ⟨network, hget, hmem⟩⟩

theorem streams_set {m n : Nat} {before after network : Network}
    (hget : w.networks[m]? = some before) (hafter : Streams w w' m after)
    (hnetworks : w'.networks = w.networks.set m after) (hget' : w'.networks[n]? = some network) :
    Streams w w' n network := by
  rw [hnetworks] at hget'
  by_cases hmn : m = n
  · subst hmn
    rw [List.getElem?_set_self (List.getElem?_eq_some_iff.mp hget).1] at hget'
    exact Option.some.inj hget' ▸ hafter
  · rw [List.getElem?_set_ne hmn] at hget'
    exact streams_same hget'

theorem streams_of_moved (h : Moved w action w') {n : Nat} {network : Network}
    (hget' : w'.networks[n]? = some network) : Streams w w' n network := by
  have kept (hsame : w'.networks = w.networks) : Streams w w' n network :=
    streams_same (hsame ▸ hget')
  have more {m : Nat} {before : Network} (after : Network) (hget : w.networks[m]? = some before)
      (hfrom : ∀ packet message, (packet, message) ∈ after.fromBroker →
        (packet, message) ∈ before.fromBroker ∨ .brokerSent m packet message ∈ w'.log)
      (hto : ∀ packet ∈ after.toBroker, packet ∈ before.toBroker ∨ packet = .Disconnect ∨
        ∃ e ∈ w.bus, ∃ receipt, e.event = .data packet receipt) : Streams w w' m after :=
    ⟨fun _ _ hmem => (hfrom _ _ hmem).imp_left fun hold => ⟨before, hget, hold⟩,
      fun _ hmem => (hto _ hmem).imp_left fun hold => ⟨before, hget, hold⟩⟩
  -- a step that writes nothing and leaves of what was sent a part
  have less {m : Nat} {before : Network} (after : Network) (hget : w.networks[m]? = some before)
      (hfrom : after.fromBroker ⊆ before.fromBroker) (hto : after.toBroker ⊆ before.toBroker) :
      Streams w w' m after :=
    more after hget (fun _ _ hmem => .inl (hfrom hmem)) (fun _ hmem => .inl (hto hmem))
  cases h with
  | hub h =>
    rcases networks_of_hub h with hsame | ⟨hadded, _⟩
    · exact kept hsame
    · rw [hadded] at hget'
      by_cases hn : n < w.networks.length
      · rw [List.getElem?_append_left hn] at hget'
        exact streams_same hget'
      · rw [List.getElem?_append_right (by omega)] at hget'
        obtain rfl := List.mem_singleton.mp (List.mem_of_getElem? hget')
        exact ⟨fun _ _ hmem => absurd hmem List.not_mem_nil,
          fun _ hmem => absurd hmem List.not_mem_nil⟩
  | task hget h => cases h <;> exact kept rfl
  | ping hget h => cases h <;> exact kept rfl
  | @network m before a w' hget h =>
    have same (state : NetworkState) : Streams w w' m { before with state := state } :=
      less _ hget (List.Subset.refl _) (List.Subset.refl _)
    cases h with
    | @read packet message rest hstate hfrom =>
      have part : rest ⊆ (packet, message) :: rest := List.subset_cons_self _ _
      cases packet <;> exact streams_set hget (less { before with fromBroker := rest } hget
        (hfrom ▸ part) (List.Subset.refl _)) rfl hget'
    | @write j sender packet receipt message rest hstate htake =>
      refine streams_set hget (more { before with
        toBroker := before.toBroker ++ [packet] } hget (fun _ _ hmem => .inl hmem) ?_) rfl hget'
      intro packet' hmem
      rcases List.mem_append.mp hmem with hold | hnew
      · exact .inl hold
      · obtain rfl := List.mem_singleton.mp hnew
        exact .inr (.inr ⟨_, PairFifo.mem_of_take htake, receipt, rfl⟩)
    | writeDisconnect hstate =>
      refine streams_set hget (more { before with
        state := .Disconnected
        toBroker := before.toBroker ++ [.Disconnect] } hget (fun _ _ hmem => .inl hmem) ?_)
        rfl hget'
      intro packet' hmem
      rcases List.mem_append.mp hmem with hold | hnew
      · exact .inl hold
      · exact .inr (.inl (List.mem_singleton.mp hnew))
    | _ => exact streams_set hget (same _) rfl hget'
  | @brokerRecv m before packet rest hget hto =>
    have part : rest ⊆ packet :: rest := List.subset_cons_self _ _
    exact streams_set hget (less { before with toBroker := rest } hget (List.Subset.refl _)
      (hto ▸ part)) rfl hget'
  | @brokerSend m before packet message hget =>
    refine streams_set hget (more { before with
      fromBroker := before.fromBroker ++ [(packet, message)] } hget ?_ (fun _ hmem => .inl hmem))
      rfl hget'
    intro packet' message' hmem
    rcases List.mem_append.mp hmem with hold | hnew
    · exact .inl hold
    · obtain ⟨rfl, rfl⟩ := Prod.mk.inj (List.mem_singleton.mp hnew)
      exact .inr List.mem_cons_self
  | _ => exact kept rfl

/-- The acknowledgement that a transmitting task takes is the one it waits for. -/
theorem confirmed_of_acked (hI : Sources w) {task : Tasks.Task} (hget : w.tasks[i]? = some task)
    {data dupData : Outgoing} {packetId : PacketId} {rest : List Instr}
    (hprog : task.prog = .transmit data dupData packetId :: rest) {e : Envelope} {ack : Ack}
    (he : e ∈ w.bus) (hreceiver : e.receiver = .task i) (hevent : e.event = .ack ack)
    (hrel : ack.isRel packetId = true) {log : List Event} (hlog : w.log ⊆ log)
    (hacked : .acked i ack ∈ log) : Confirmed log i task.spec (some ack) := by
  intro type htype
  obtain ⟨task₀, hget₀, hrx⟩ := hI.routed.receiver e he i ack hreceiver hevent
  cases hget.symm.trans hget₀
  have track := hI.track i task hget
  rw [hprog] at track
  refine ⟨ack, rfl, Option.some.inj (hrx.symm.trans htype), ?_, hacked,
    (hI.acks e he ack hevent).mono hlog⟩
  rw [(transmit_first track).2]
  exact congrArg some (of_decide_eq_true hrel)

/-- A task that leaves its first await alive has its acknowledgement, if it waits for one. -/
theorem passed_of_task (hI : Sources w) {task : Tasks.Task} {a : TaskAction}
    (hget : w.tasks[i]? = some task) (h : TaskMoved w i task a w') {k : Nat}
    {task' : Tasks.Task} (hget' : w'.tasks[k]? = some task') :
    task'.prog = [] ∨ task'.prog = task'.spec.run ∨ Confirmed w'.log k task'.spec task'.ack := by
  have hlt := (List.getElem?_eq_some_iff.mp hget).1
  have grows := (log_grows (.task hget h)).subset
  have old {before : Tasks.Task} (hbefore : w.tasks[k]? = some before) :
      before.prog = [] ∨ before.prog = before.spec.run ∨
        Confirmed w'.log k before.spec before.ack :=
    (hI.passed k before hbefore).imp_right (Or.imp_right fun confirmed => confirmed.mono grows)
  have replaced {after : Tasks.Task} (htasks : w'.tasks = w.tasks.set i after)
      (hafter : after.prog = [] ∨ after.prog = after.spec.run ∨
        Confirmed w'.log i after.spec after.ack) :
      task'.prog = [] ∨ task'.prog = task'.spec.run ∨ Confirmed w'.log k task'.spec task'.ack := by
    rw [htasks] at hget'
    by_cases hik : i = k
    · subst hik
      rw [List.getElem?_set_self hlt] at hget'
      exact Option.some.inj hget' ▸ hafter
    · rw [List.getElem?_set_ne hik] at hget'
      exact old hget'
  have own := hI.passed i task hget
  -- an await that is not the first one is passed with what is held
  have behind {instr : Instr} {rest : List Instr} (hprog : task.prog = instr :: rest)
      (hfirst : ∀ tail, task.spec.run ≠ instr :: tail) : Confirmed w'.log i task.spec task.ack := by
    rcases own with hnil | hrun | confirmed
    · rw [hnil] at hprog
      cases hprog
    · exact absurd (hrun.symm.trans hprog) (hfirst rest)
    · exact confirmed.mono grows
  obtain ⟨first, tail, hrun, _, hpackets⟩ := run_head task.spec
  cases h with
  | skipped hphase hprog htake hrel => exact old hget'
  | sendFirst hphase hprog => exact replaced rfl (own.imp_right (Or.imp_right (·.mono grows)))
  | sendOnly hphase hprog => exact replaced rfl (own.imp_right (Or.imp_right (·.mono grows)))
  | sendAgain hphase hprog => exact replaced rfl (own.imp_right (Or.imp_right (·.mono grows)))
  | transmitted hphase hprog hdone =>
    exact replaced rfl (own.imp_right (Or.imp_right (·.mono grows)))
  | died hphase hlost => exact replaced rfl (.inl rfl)
  | dispatch hphase hprog =>
    refine replaced rfl (.inr (.inr (behind hprog ?_)))
    intro tail' heq
    obtain ⟨rfl, _⟩ := List.cons.inj (hrun.symm.trans heq)
    exact hpackets rfl
  | txToUser hphase hprog =>
    refine replaced rfl (.inr (.inr (behind hprog ?_)))
    intro tail' heq
    obtain ⟨rfl, _⟩ := List.cons.inj (hrun.symm.trans heq)
    exact hpackets rfl
  | @sent receipt data rest hphase hprog hdone =>
    refine replaced rfl (.inr (.inr ?_))
    by_cases hfirst : ∀ tail', task.spec.run ≠ .send data :: tail'
    · exact behind hprog hfirst
    · simp only [ne_eq, not_forall, not_not] at hfirst
      obtain ⟨tail', hsend⟩ := hfirst
      intro type htype
      rw [rx_of_send hsend] at htype
      cases htype
  | @acked j sender ack message queue data dupData packetId rest hphase hprog htake hrel =>
    exact replaced rfl (.inr (.inr (confirmed_of_acked hI hget hprog
      (PairFifo.mem_of_take htake) rfl rfl hrel grows List.mem_cons_self)))

theorem passed_of_moved (hI : Sources w) (h : Moved w action w') {task' : Tasks.Task}
    (hget' : w'.tasks[i]? = some task') :
    task'.prog = [] ∨ task'.prog = task'.spec.run ∨ Confirmed w'.log i task'.spec task'.ack := by
  have grows := (log_grows h).subset
  have old {before : Tasks.Task} (hbefore : w.tasks[i]? = some before) :
      before.prog = [] ∨ before.prog = before.spec.run ∨
        Confirmed w'.log i before.spec before.ack :=
    (hI.passed i before hbefore).imp_right (Or.imp_right fun confirmed => confirmed.mono grows)
  rcases hub_or_not h with ⟨a, rfl, hmoved⟩ | notHub
  · obtain ⟨specs, htasks⟩ := tasks_of_hub hmoved
    rw [htasks] at hget'
    by_cases hi : i < w.tasks.length
    · rw [List.getElem?_append_left hi] at hget'
      exact old hget'
    · rw [List.getElem?_append_right (by omega), List.getElem?_map] at hget'
      obtain ⟨spec, _, rfl⟩ := Option.map_eq_some_iff.mp hget'
      exact .inr (.inl rfl)
  · rcases task_or_not h with ⟨k, task, a, rfl, hget, hmoved⟩ | notTask
    · exact passed_of_task hI hget hmoved hget'
    · rw [tasks_of_moved h notHub notTask] at hget'
      exact old hget'

theorem tasks_of_step (hI : Sources w) (h : Moved w action w') {task' : Tasks.Task}
    (hget' : w'.tasks[i]? = some task') : Reason w'.log i task'.spec := by
  have grows := (log_grows h).subset
  rcases hub_or_not h with ⟨a, rfl, hmoved⟩ | notHub
  · obtain ⟨specs, htasks, hreasons⟩ := (starts_of_hub hI.entries hmoved).tasks
    rw [htasks] at hget'
    by_cases hi : i < w.tasks.length
    · rw [List.getElem?_append_left hi] at hget'
      exact (hI.tasks i task' hget').mono grows
    · rw [List.getElem?_append_right (by omega), List.getElem?_map] at hget'
      obtain ⟨spec, hspec, rfl⟩ := Option.map_eq_some_iff.mp hget'
      have reason := hreasons _ spec hspec
      rw [Nat.add_sub_cancel' (Nat.le_of_not_lt hi)] at reason
      exact reason
  · rcases task_before h hget' with ⟨before, hbefore, hspec, _⟩ | ⟨hnew, _⟩
    · rw [hspec]
      exact (hI.tasks i before hbefore).mono grows
    · have := tasks_length_of_outside h notHub
      have := (List.getElem?_eq_some_iff.mp hget').1
      omega

/-- A ping that was started is in the history. -/
theorem pings_of_step (hI : Sources w) (h : Moved w action w') (hi : i < w'.pings.length) :
    .pingStarted i ∈ w'.log := by
  have grows := (log_grows h).subset
  by_cases hold : i < w.pings.length
  · exact grows (hI.pings i hold)
  · rcases hub_or_not h with ⟨a, rfl, hmoved⟩ | notHub
    · cases hmoved with
      | @intro input message taken hub outputs htakes hmove =>
        have pings : taken.pings = w.pings := by cases htakes <;> rfl
        cases hmove with
        | keepAlive hat =>
          change i < (taken.pings ++ [Ping.send 3]).length at hi
          rw [pings, List.length_append, List.length_singleton] at hi
          obtain rfl : i = w.pings.length := by omega
          change Event.pingStarted w.pings.length ∈ Event.pingStarted taken.pings.length :: taken.log
          rw [pings]
          exact List.mem_cons_self
        | _ => exact absurd (pings ▸ hi) hold
    · rcases ping_or_not h with ⟨k, ping, a, rfl, hget, hmoved⟩ | notPing
      · have same : w'.pings.length = w.pings.length := by
          cases hmoved <;> exact List.length_set
        omega
      · rw [pings_of_moved h notHub notPing] at hi
        exact absurd hi hold

/-- What a step adds to the history has its reason in what was there before. -/
theorem told_of_moved (hI : Sources w) (h : Moved w action w') : Throughout Told w'.log := by
  rcases hub_or_not h with ⟨a, rfl, hmoved⟩ | notHub
  · cases hmoved with
    | @intro input message taken hub outputs htakes hmove =>
      obtain ⟨events, hlog, hinside⟩ := log_of_takes htakes hub outputs
      rw [hlog]
      refine hI.told.append ?_
      intro event hevent older
      cases hinside event hevent with
      | @user event hmem =>
        rintro ⟨t, ht⟩
        rw [completes_of_inside hmove (hinside _ hevent)] at ht
        cases ht
      | _ => trivial
  · cases h with
    | hub h => exact absurd rfl (notHub _)
    | @task i task a w' hget h =>
      cases h with
      | @txToUser msg rest hphase hprog =>
        refine ⟨fun _ => ?_, hI.told⟩
        have track := hI.track i task hget
        refine ⟨i, task.spec, msg, task.ack, hI.tasks i task hget, ?_, rfl, ?_⟩
        · apply track.subset
          rw [hprog]
          exact List.mem_cons_self
        · rcases hI.passed i task hget with hnil | hrun | confirmed
          · rw [hnil] at hprog
            cases hprog
          · obtain ⟨first, tail, hopen, _, hpackets⟩ := run_head task.spec
            rw [hrun, hopen] at hprog
            obtain ⟨rfl, _⟩ := List.cons.inj hprog
            exact absurd rfl hpackets
          · exact confirmed
      | acked hphase hprog htake hrel =>
        exact ⟨hI.acks _ (PairFifo.mem_of_take htake) _ rfl, hI.told⟩
      | _ => exact hI.told
    | ping hget h => cases h <;> exact hI.told
    | network hget h =>
      cases h with
      | @read packet => cases packet <;> exact hI.told
      | _ => exact hI.told
    | @brokerRecv n network packet rest hget hto =>
      refine ⟨?_, hI.told⟩
      apply hI.wire n network hget packet
      rw [hto]
      exact List.mem_cons_self
    | brokerSend hget => exact ⟨trivial, hI.told⟩
    | _ => exact hI.told

theorem sources_of_moved (hI : Sources w) (h : Moved w action w') : Sources w' where
  track := onTrack_of_moved h hI.track
  routed := routed_of_moved h hI.routed
  entries := by
    rcases hub_or_not h with ⟨a, rfl, hmoved⟩ | notHub
    · exact (starts_of_hub hI.entries hmoved).entries
    · intro entry hentry i
      rw [(hub_of_moved h notHub).1] at hentry
      exact (hI.entries entry hentry i).mono (log_grows h).subset
  tasks := fun _ _ hget => tasks_of_step hI h hget
  passed := fun _ _ hget => passed_of_moved hI h hget
  pings := fun _ hi => pings_of_step hI h hi
  streams := by
    intro n network hget packet message hmem
    rcases (streams_of_moved h hget).fromBroker packet message hmem with ⟨before, hbefore, hold⟩ | hnew
    · exact (log_grows h).subset (hI.streams n before hbefore packet message hold)
    · exact hnew
  acks := fun _ he _ hevent => acks_of_step hI h he hevent
  data := fun _ he _ _ hevent => data_of_step hI h he hevent
  wire := by
    intro n network hget packet hmem
    have grows := (log_grows h).subset
    rcases (streams_of_moved h hget).toBroker packet hmem with
      ⟨before, hbefore, hold⟩ | rfl | ⟨e, he, receipt, hevent⟩
    · exact (hI.wire n before hbefore packet hold).imp_right (·.mono grows)
    · exact .inl rfl
    · exact .inr ((hI.data e he packet receipt hevent).mono grows)
  told := told_of_moved hI h

theorem sources_init (options : MqttOptions) (protocol : Protocol) :
    Sources (.init options protocol) where
  track := fun _ _ hget => by cases hget
  routed := ⟨fun _ he => absurd he List.not_mem_nil, fun _ he => absurd he List.not_mem_nil⟩
  entries := fun _ hentry => absurd hentry List.not_mem_nil
  tasks := fun _ _ hget => by cases hget
  passed := fun _ _ hget => by cases hget
  pings := fun _ hi => absurd hi (Nat.not_lt_zero _)
  streams := fun _ _ hget => by cases hget
  acks := fun _ he => absurd he List.not_mem_nil
  data := fun _ he => absurd he List.not_mem_nil
  wire := fun _ _ hget => by cases hget
  told := trivial

theorem reachable_sources {options : MqttOptions} {protocol : Protocol}
    (h : Reachable World.step free (.init options protocol) w) : Sources w := by
  refine h.invariant (sources_init options protocol) ?_
  intro s action s' _ ih _ hstep
  exact sources_of_moved ih (moved_of_step hstep)

end Steps

/-! ## On the wire -/

/-- What stands in the history before the broker gets a packet. -/
def Called (older : List Event) : Outgoing → Prop
  | .Publish publish => ∃ i spec original, Reason older i spec ∧ published spec = some original ∧
      (publish = original ∨ spec.rx ≠ none ∧ publish = { original with dup := true })
  | .PubAck packetId => ∃ i publish message, .rxAccepted i publish message ∈ older ∧
      publish.qos = .AtLeastOnce packetId
  | .PubRec packetId => ∃ i publish message, .rxAccepted i publish message ∈ older ∧
      publish.qos = .ExactlyOnce packetId
  | .PubComp packetId => ∃ i publish message, .rxAccepted i publish message ∈ older ∧
      publish.qos = .ExactlyOnce packetId ∧ .acked i (.PubRel packetId) ∈ older ∧
      SentAck older (.PubRel packetId)
  | .PubRel packetId => ∃ trace : TracePublishQos .ExactlyOnce,
      .accepted (.PublishQoS2 trace) ∈ older ∧ trace.packetId = packetId
  | .Subscribe subscribe => ∃ trace : TraceSubscribe,
      .accepted (.Subscribe trace) ∈ older ∧ trace.subscribe = subscribe
  | .Unsubscribe unsubscribe => ∃ trace : TraceUnubscribe,
      .accepted (.Unsubscribe trace) ∈ older ∧ trace.unsubscribe = unsubscribe
  | .PingReq => ∃ i, .pingStarted i ∈ older
  | .Disconnect => True

theorem called_of_first {older : List Event} {i : Nat} {spec : TaskSpec} {packet : Outgoing}
    (hreason : Reason older i spec) (hpacket : packet ∈ firstPackets spec) :
    Called older packet := by
  cases hreason with
  | @publishQos0 trace h =>
    obtain rfl := List.mem_singleton.mp hpacket
    exact ⟨i, _, _, .publishQos0 h, rfl, .inl rfl⟩
  | @publishQos1 trace h =>
    rcases List.mem_pair.mp hpacket with rfl | rfl
    · exact ⟨i, _, _, .publishQos1 h, rfl, .inl rfl⟩
    · exact ⟨i, _, _, .publishQos1 h, rfl, .inr ⟨Option.some_ne_none _, rfl⟩⟩
  | @publishQos2 trace h =>
    rcases List.mem_pair.mp hpacket with rfl | rfl
    · exact ⟨i, _, _, .publishQos2 h, rfl, .inl rfl⟩
    · exact ⟨i, _, _, .publishQos2 h, rfl, .inr ⟨Option.some_ne_none _, rfl⟩⟩
  | publishQos2Rel h =>
    rcases List.mem_pair.mp hpacket with rfl | rfl <;> exact ⟨_, h, rfl⟩
  | subscribe h => rcases List.mem_pair.mp hpacket with rfl | rfl <;> exact ⟨_, h, rfl⟩
  | unsubscribe h => rcases List.mem_pair.mp hpacket with rfl | rfl <;> exact ⟨_, h, rfl⟩
  | publishRxQos1 h hqos =>
    obtain rfl := List.mem_singleton.mp hpacket
    exact ⟨i, _, _, h, hqos⟩
  | publishRxQos2 h hqos =>
    rcases List.mem_pair.mp hpacket with rfl | rfl <;> exact ⟨i, _, _, h, hqos⟩

theorem called_of_handed {older : List Event} (htold : Throughout Told older) {packet : Outgoing}
    (h : Handed older packet) : Called older packet := by
  cases h with
  | @ping i h => exact ⟨i, h⟩
  | first hreason hpacket => exact called_of_first hreason hpacket
  | @pubComp i packetId protocol hreason hacked =>
    obtain ⟨before, hbefore, hsent⟩ := htold.of_mem hacked
    cases hreason with
    | publishRxQos2 h hqos => exact ⟨i, _, _, h, hqos, hacked, SentAck.mono hsent hbefore⟩

theorem called_of_got {w : World} (hI : Sources w) {newer older : List Event} {n : Nat}
    {packet : Outgoing} (hlog : w.log = newer ++ .brokerGot n packet :: older) :
    Called older packet := by
  have told := hI.told
  rw [hlog] at told
  rcases told.split with rfl | handed
  · trivial
  · exact called_of_handed told.older.2 handed

/-- In every run each packet that the broker gets was called for: a PUBLISH, SUBSCRIBE or
UNSUBSCRIBE is the one of a request of the user, with DUP at most above QoS 0, a PUBREL goes
with a QoS 2 publish, a PUBACK, PUBREC or PUBCOMP answers a message that was taken in under
its id, and a PUBCOMP a PUBREL of the broker too. -/
theorem packets_called_for {options : MqttOptions} {protocol : Protocol} {w : World}
    (h : Reachable World.step free (.init options protocol) w) {newer older : List Event}
    {n : Nat} {packet : Outgoing} (hlog : w.log = newer ++ .brokerGot n packet :: older) :
    Called older packet :=
  called_of_got (reachable_sources h) hlog

/-- A whole QoS 2 exchange for a received message. -/
def receivedOnce : List Action :=
  [.hub (.connect 0), .network 0 (.connected false), .hub (.connecting 0), .hub .load,
    .hub .resend, .broker 0 (.send (.Publish (.new "a" (.ExactlyOnce 3) [] false .V4)) 1),
    .network 0 .read, .hub (.recv 1), .task 0 .run, .network 0 (.take 1 none), .task 0 .receipt,
    .broker 0 .recv, .broker 0 (.send (.Ack (.PubRel 3)) 0), .network 0 .read, .task 0 (.ack 1),
    .task 0 .run, .task 0 .run, .network 0 (.take 2 none), .broker 0 .recv]

theorem pubComp_called_for :
    ∃ w newer older, Reachable World.step free (.init ⟨60, true⟩ .V4) w ∧
      w.log = newer ++ .brokerGot 0 (.PubComp 3) :: older ∧ Called older (.PubComp 3) := by
  obtain ⟨w, h, hmem⟩ : ∃ w, Reachable World.step free (.init ⟨60, true⟩ .V4) w ∧
      .brokerGot 0 (.PubComp 3) ∈ w.log :=
    exists_of_guardedRun receivedOnce (by decide +kernel)
  obtain ⟨newer, older, hlog⟩ := List.append_of_mem hmem
  exact ⟨w, newer, older, h, hlog, packets_called_for h hlog⟩

/-! ## To the user -/

section Completed

variable {older : List Event} {i : Nat} {spec : TaskSpec} {msg : UserMsg} {held : Option Ack}

/-- What a task tells the user is fixed by the request. -/
theorem told_by_run (h : .txToUser msg ∈ spec.run) :
    (∃ trace, spec = .PublishQos0 trace ∧ msg = .PublishSuccess trace.id) ∨
    (∃ trace, spec = .PublishQos1 trace ∧ msg = .PublishSuccess trace.id) ∨
    (∃ packetId id protocol, spec = .PublishQos2Rel packetId id protocol ∧
      msg = .PublishSuccess id) ∨
    (∃ trace, spec = .Subscribe trace ∧ msg = .SubscribeAck trace.id) ∨
    (∃ trace, spec = .Unsubscribe trace ∧ msg = .UnsubscribeAck trace.id) := by
  cases spec <;> simp [TaskSpec.run, transmitPublish] at h <;> simp [h]

theorem success_of_grounded {t : TraceId} (h : Grounded older (.PublishSuccess t)) :
    (∃ trace : TracePublishQos .AtMostOnce, .requested (.PublishQoS0 trace) ∈ older ∧
      trace.id = t) ∨
    (∃ trace : TracePublishQos .AtLeastOnce, .accepted (.PublishQoS1 trace) ∈ older ∧
      trace.id = t ∧ SentAck older (.PubAck trace.packetId)) ∨
    (∃ trace : TracePublishQos .ExactlyOnce, .accepted (.PublishQoS2 trace) ∈ older ∧
      trace.id = t ∧ SentAck older (.PubComp trace.packetId)) := by
  obtain ⟨i, spec, msg, held, hreason, hmsg, hevent, confirmed⟩ := h
  rcases told_by_run hmsg with ⟨trace, rfl, rfl⟩ | ⟨trace, rfl, rfl⟩ |
    ⟨packetId, id, protocol, rfl, rfl⟩ | ⟨trace, rfl, rfl⟩ | ⟨trace, rfl, rfl⟩ <;> cases hevent
  · cases hreason with
    | publishQos0 h => exact .inl ⟨trace, h, rfl⟩
  · obtain ⟨ack, _, htype, hid, _, hsent⟩ := confirmed .PubAck rfl
    cases ack with
    | PubAck packetId =>
      cases hid
      cases hreason with
      | publishQos1 h => exact .inr (.inl ⟨trace, h, rfl, hsent⟩)
    | _ => cases htype
  · obtain ⟨ack, _, htype, hid, _, hsent⟩ := confirmed .PubComp rfl
    cases ack with
    | PubComp packetId =>
      cases hid
      cases hreason with
      | publishQos2Rel h => exact .inr (.inr ⟨_, h, rfl, hsent⟩)
    | _ => cases htype

theorem subscribed_of_grounded {t : TraceId} {codes : List SubscribeReasonCode}
    (h : Grounded older (.SubscribeAck ⟨t, codes⟩)) : ∃ trace : TraceSubscribe,
      .accepted (.Subscribe trace) ∈ older ∧ trace.id = t ∧
        SentAck older (.SubAck trace.packetId codes) := by
  obtain ⟨i, spec, msg, held, hreason, hmsg, hevent, confirmed⟩ := h
  rcases told_by_run hmsg with ⟨trace, rfl, rfl⟩ | ⟨trace, rfl, rfl⟩ |
    ⟨packetId, id, protocol, rfl, rfl⟩ | ⟨trace, rfl, rfl⟩ | ⟨trace, rfl, rfl⟩ <;>
    try cases hevent
  obtain ⟨ack, rfl, htype, hid, _, hsent⟩ := confirmed .SubAck rfl
  cases ack with
  | SubAck packetId codes' =>
    cases hid
    cases hreason with
    | subscribe h => exact ⟨trace, h, rfl, hsent⟩
  | _ => cases htype

theorem unsubscribed_of_grounded {t : TraceId} {codes : List UnsubAckReason}
    (h : Grounded older (.UnsubscribeAck ⟨t, codes⟩)) : ∃ trace : TraceUnubscribe,
      .accepted (.Unsubscribe trace) ∈ older ∧ trace.id = t ∧
        SentAck older (.UnsubAck trace.packetId codes) := by
  obtain ⟨i, spec, msg, held, hreason, hmsg, hevent, confirmed⟩ := h
  rcases told_by_run hmsg with ⟨trace, rfl, rfl⟩ | ⟨trace, rfl, rfl⟩ |
    ⟨packetId, id, protocol, rfl, rfl⟩ | ⟨trace, rfl, rfl⟩ | ⟨trace, rfl, rfl⟩ <;>
    try cases hevent
  obtain ⟨ack, rfl, htype, hid, _, hsent⟩ := confirmed .UnsubAck rfl
  cases ack with
  | UnsubAck packetId codes' =>
    cases hid
    cases hreason with
    | unsubscribe h => exact ⟨trace, h, rfl, hsent⟩
  | _ => cases htype

end Completed

/-- In every run a completion goes back to its request and to the acknowledgement of the
broker for it: the codes of a SubscribeAck or UnsubscribeAck are those of the packet, and a
publish above QoS 0 succeeds by a PUBACK or PUBCOMP under its packet id. -/
theorem completions_acknowledged {options : MqttOptions} {protocol : Protocol} {w : World}
    (h : Reachable World.step free (.init options protocol) w) {newer older : List Event}
    {event : MqttEvent} (hlog : w.log = newer ++ .user event :: older) :
    (∀ t, event = .PublishSuccess t →
      (∃ trace : TracePublishQos .AtMostOnce, .requested (.PublishQoS0 trace) ∈ older ∧
        trace.id = t) ∨
      (∃ trace : TracePublishQos .AtLeastOnce, .accepted (.PublishQoS1 trace) ∈ older ∧
        trace.id = t ∧ SentAck older (.PubAck trace.packetId)) ∨
      (∃ trace : TracePublishQos .ExactlyOnce, .accepted (.PublishQoS2 trace) ∈ older ∧
        trace.id = t ∧ SentAck older (.PubComp trace.packetId))) ∧
    (∀ t codes, event = .SubscribeAck ⟨t, codes⟩ → ∃ trace : TraceSubscribe,
      .accepted (.Subscribe trace) ∈ older ∧ trace.id = t ∧
        SentAck older (.SubAck trace.packetId codes)) ∧
    (∀ t codes, event = .UnsubscribeAck ⟨t, codes⟩ → ∃ trace : TraceUnubscribe,
      .accepted (.Unsubscribe trace) ∈ older ∧ trace.id = t ∧
        SentAck older (.UnsubAck trace.packetId codes)) := by
  have told := (reachable_sources h).told
  rw [hlog] at told
  have grounds := told.split
  refine ⟨?_, ?_, ?_⟩
  · rintro t rfl
    exact success_of_grounded (grounds ⟨t, decide_eq_true rfl⟩)
  · rintro t codes rfl
    exact subscribed_of_grounded (grounds ⟨t, decide_eq_true rfl⟩)
  · rintro t codes rfl
    exact unsubscribed_of_grounded (grounds ⟨t, decide_eq_true rfl⟩)

/-- A subscription that the broker has granted. -/
def subscribedOnce : List Action :=
  [.hub (.connect 0), .network 0 (.connected false), .hub (.connecting 0), .hub .load,
    .hub .resend, .request (.Subscribe ⟨7, .V4 0 []⟩), .hub (.recv 1), .task 0 .run,
    .network 0 (.take 1 none), .task 0 .receipt, .broker 0 .recv,
    .broker 0 (.send (.Ack (.SubAck 1 [.QoS1])) 0), .network 0 .read, .task 0 (.ack 1),
    .task 0 .run, .task 0 .run]

theorem subscription_acknowledged :
    ∃ w newer older, Reachable World.step free (.init ⟨60, true⟩ .V4) w ∧
      w.log = newer ++ .user (.SubscribeAck ⟨7, [.QoS1]⟩) :: older ∧
      ∃ trace : TraceSubscribe, .accepted (.Subscribe trace) ∈ older ∧ trace.id = 7 ∧
        SentAck older (.SubAck trace.packetId [.QoS1]) := by
  obtain ⟨w, h, hmem⟩ : ∃ w, Reachable World.step free (.init ⟨60, true⟩ .V4) w ∧
      .user (.SubscribeAck ⟨7, [.QoS1]⟩) ∈ w.log :=
    exists_of_guardedRun subscribedOnce (by decide +kernel)
  obtain ⟨newer, older, hlog⟩ := List.append_of_mem hmem
  exact ⟨w, newer, older, h, hlog, (completions_acknowledged h hlog).2.1 7 [.QoS1] rfl⟩

end Provenance
