import ForMqttClient.BrokerReader
import ForMqttClient.Provenance
import ForMqttClient.Requests

/-!
# What is sent can be read

The requests of the user and the messages of the broker are all that a packet
of the client is made of. Where these fit the length fields, and the packet ids
of the broker its 16 bits, so does every packet that is sent.
-/

namespace Sendable

open MqttData BoundedRing Codec TaskHub HubSteps Tasks System SystemSteps GuardedRuns
open PacketIds Requests Handover Provenance

/-! ## What the hub has taken in -/

/-- An entry was made of a request, under an id of 16 bits. -/
def Requested (log : List Event) (entry : UnacknowledgedClientData) : Prop :=
  ∃ data packetId, .requested data ∈ log ∧ packetId < 65536 ∧
    requestEntry packetId data = some entry

/-- The broker has sent the message. -/
def SentMessage (log : List Event) (publish : Publish) : Prop :=
  ∃ n message, .brokerSent n (.Publish publish) message ∈ log

theorem Requested.mono {log log' : List Event} {entry : UnacknowledgedClientData}
    (h : Requested log entry) (hlog : log ⊆ log') : Requested log' entry := by
  obtain ⟨data, packetId, hrequested, hid, hentry⟩ := h
  exact ⟨data, packetId, hlog hrequested, hid, hentry⟩

theorem SentMessage.mono {log log' : List Event} {publish : Publish}
    (h : SentMessage log publish) (hlog : log ⊆ log') : SentMessage log' publish := by
  obtain ⟨n, message, hsent⟩ := h
  exact ⟨n, message, hlog hsent⟩

structure Known (w : World) : Prop where
  sources : Sources w
  ids : IdsConserved w.hub
  entries : ∀ entry, .accepted entry ∈ w.log → Requested w.log entry
  coming : ∀ e ∈ w.bus, ∀ publish, e.event = .hubMsg (.RxPublish publish) →
    SentMessage w.log publish
  messages : ∀ i publish message, .rxAccepted i publish message ∈ w.log →
    SentMessage w.log publish

section Hub

variable {hub : Hub} {w w' : World}

/-- Only a request is taken in, with the entry that belongs to it. -/
theorem accepted_of_step {keepAliveId : Nat} {input : HubInput} {outcome : Outcome}
    (h : hub.step keepAliveId input = some outcome) {entry : UnacknowledgedClientData}
    (hmem : .accepted entry ∈ outcome.outputs) : ∃ data packetId pool,
      input = .clientData data ∧ hub.pool.pop = some (packetId, pool) ∧
      requestEntry packetId data = some entry := by
  have hmove := move_of_step h
  obtain ⟨hub', outputs, result⟩ := outcome
  cases hmove with
  | @accept data _ pool hat hid hpop hfresh =>
    have deals : hub.step keepAliveId (.clientData data) =
        some (hub.dealClientDataWhenConnected data) := by
      simp [Hub.step, hat.draw, hat.state, hat.position]
    rw [deals] at h
    injection h with taken
    by_cases hack : Acknowledged data
    · obtain ⟨made, hmade⟩ := requestEntry_isSome hack _
      rw [accepted_outcome hpop hmade] at taken
      injection taken with _ houtputs
      rw [← houtputs] at hmem
      refine ⟨data, _, pool, rfl, hpop, ?_⟩
      obtain rfl : entry = made := by simpa using hmem
      exact hmade
    · cases data with
      | PublishQoS0 packet => simp [Hub.dealClientDataWhenConnected] at taken
      | _ => exact absurd trivial hack
  | _ => simp at hmem

theorem accepted_of_takes {a : HubAction} {input : HubInput} {message : Nat} {taken : World}
    (htakes : Takes w a input message taken) {outputs : List Output}
    {entry : UnacknowledgedClientData}
    (hmem : .accepted entry ∈ (World.applyOutputs message { taken with hub := hub } outputs).log) :
    .accepted entry ∈ w.log ∨ .accepted entry ∈ outputs := by
  obtain ⟨events, hlog, hinside⟩ := log_of_takes htakes hub outputs
  rw [hlog] at hmem
  rcases List.mem_append.mp hmem with hnew | hold
  · cases hinside _ hnew with
    | accepted hout => exact .inr hout
  · exact .inl hold

theorem outcome_of_recv {j message : Nat} {sender : Worker} {data : ClientData}
    {rest : List Envelope} (htake : PairFifo.take Envelope.channel w.bus j =
      some (⟨sender, .hub, .clientData data, message⟩, rest))
    (h : w.step (.hub (.recv j)) = some w') : ∃ outcome,
      w.hub.step w.keepAliveId (.clientData data) = some outcome ∧
      w' = World.applyOutputs 0
        { w with bus := rest, log := .requested data :: w.log, hub := outcome.hub }
        outcome.outputs := by
  simp only [World.step, World.stepHub, receive_of_take htake, World.runHub] at h
  split at h
  · next outcome hstep => exact ⟨outcome, hstep, (Option.some.inj h).symm⟩
  · cases h

/-- The step that logs an entry has logged its request. -/
theorem entry_of_hub (hids : IdsConserved w.hub) {a : HubAction} (h : w.step (.hub a) = some w')
    {entry : UnacknowledgedClientData} (hmem : .accepted entry ∈ w'.log) :
    .accepted entry ∈ w.log ∨ Requested w'.log entry := by
  obtain ⟨input, message, taken, hub, outputs, htakes, hmove, rfl⟩ : ∃ input message taken hub
      outputs, Takes w a input message taken ∧ Move w.keepAliveId w.hub input hub outputs ∧
        World.applyOutputs message { taken with hub := hub } outputs = w' := by
    cases hubMoved_of_step h with
    | intro htakes hmove => exact ⟨_, _, _, _, _, htakes, hmove, rfl⟩
  by_cases hclient : ∃ data, input = .clientData data
  · obtain ⟨data, rfl⟩ := hclient
    cases htakes with
    | clientData htake =>
      obtain ⟨outcome, hstep, hw'⟩ := outcome_of_recv htake h
      rw [hw'] at hmem ⊢
      refine (accepted_of_takes (.clientData htake) hmem).imp_right fun hout => ?_
      obtain ⟨other, packetId, pool, hinput, hpop, hentry⟩ := accepted_of_step hstep hout
      cases hinput
      have listed : packetId ∈ allIds := by
        refine hids.subset (List.mem_append_left _ ?_)
        rw [Ring.pop_eq_some hpop]
        exact List.mem_cons_self
      have small : packetId < 65536 := (List.mem_range'_1.mp listed).2
      exact ⟨data, packetId, (applyOutputs_grown _ _ _).log.subset List.mem_cons_self, small, hentry⟩
  · refine .inl ((accepted_of_takes htakes hmem).resolve_right fun hout => ?_)
    cases hmove with
    | accept => exact hclient ⟨_, rfl⟩
    | _ => simp at hout

/-- The step that logs a message as taken in has taken it off the bus. -/
theorem message_of_hub {a : HubAction} (h : HubMoved w a w') {i message : Nat}
    {publish : Publish} (hmem : .rxAccepted i publish message ∈ w'.log) :
    .rxAccepted i publish message ∈ w.log ∨
      ∃ e ∈ w.bus, e.event = .hubMsg (.RxPublish publish) := by
  cases h with
  | @intro input message' taken hub outputs htakes hmove =>
    obtain ⟨events, hlog, hinside⟩ := log_of_takes htakes hub outputs
    rw [hlog] at hmem
    rcases List.mem_append.mp hmem with hnew | hold
    · have hout : .rxAccepted publish ∈ outputs := by
        cases hinside _ hnew with
        | rxAccepted hout => exact hout
      cases hmove with
      | rxAccept hat hfree hspec =>
        obtain rfl : publish = _ := by simpa using hout
        cases htakes with
        | hubMsg htake => exact .inr ⟨_, PairFifo.mem_of_take htake, rfl⟩
      | _ => simp at hout
    · exact .inl hold

end Hub

/-! ## Every run -/

section Steps

variable {w w' : World} {action : Action}

theorem coming_of_moved (hI : Known w) (h : Moved w action w') {e : Envelope} (he : e ∈ w'.bus)
    {publish : Publish} (hevent : e.event = .hubMsg (.RxPublish publish)) :
    SentMessage w'.log publish := by
  have hlog : w.log ⊆ w'.log := (log_grows h).subset
  rcases mem_bus_of_moved h he with hold | hnew
  · exact (hI.coming e hold publish hevent).mono hlog
  · cases hnew with
    | rxPublish hget hfrom =>
      cases hevent
      have queued := hI.sources.streams _ _ hget _ _ (hfrom ▸ List.mem_cons_self)
      exact ⟨_, _, hlog queued⟩
    | task hget hphase hprog =>
      cases hevent
      have hmsg := hI.sources.track.taskMsg hget hprog
      cases hmsg
    | _ => cases hevent

theorem known_of_step (hI : Known w) (h : w.step action = some w') : Known w' := by
  have hmoved := moved_of_step h
  have hlog : w.log ⊆ w'.log := (log_grows hmoved).subset
  have quiet (hhub : ∀ a, action ≠ .hub a) : ∃ events, w'.log = events ++ w.log ∧
      ∀ event ∈ events, Outside event := log_outside hmoved hhub
  refine ⟨sources_of_moved hI.sources hmoved, ?_, ?_, fun e => coming_of_moved hI hmoved, ?_⟩
  · exact (Handshake.background_of_moved hmoved ⟨hI.sources.routed, hI.ids⟩).ids
  · intro entry hmem
    rcases hub_or_not hmoved with ⟨a, rfl, _⟩ | hhub
    · rcases entry_of_hub hI.ids h hmem with hold | hnew
      · exact (hI.entries entry hold).mono hlog
      · exact hnew
    · obtain ⟨events, hevents, houtside⟩ := quiet hhub
      rw [hevents] at hmem
      rcases List.mem_append.mp hmem with hnew | hold
      · cases houtside _ hnew
      · exact (hI.entries entry hold).mono hlog
  · intro i publish message hmem
    rcases hub_or_not hmoved with ⟨a, rfl, hhub⟩ | hhub
    · rcases message_of_hub hhub hmem with hold | ⟨e, he, hevent⟩
      · exact (hI.messages i publish message hold).mono hlog
      · exact (hI.coming e he publish hevent).mono hlog
    · obtain ⟨events, hevents, houtside⟩ := quiet hhub
      rw [hevents] at hmem
      rcases List.mem_append.mp hmem with hnew | hold
      · cases houtside _ hnew
      · exact (hI.messages i publish message hold).mono hlog

theorem known_init (options : MqttOptions) (protocol : Protocol) :
    Known (.init options protocol) where
  sources := sources_init options protocol
  ids := initial_conserved options protocol
  entries := fun _ hmem => absurd hmem List.not_mem_nil
  coming := fun _ he => absurd he List.not_mem_nil
  messages := fun _ _ _ hmem => absurd hmem List.not_mem_nil

theorem reachable_known {options : MqttOptions} {protocol : Protocol}
    (h : Reachable World.step free (.init options protocol) w) : Known w :=
  h.invariant (known_init options protocol) fun _ _ _ _ hI _ hstep => known_of_step hI hstep

end Steps

/-! ## What fits -/

/-- A PUBLISH of this request fits: its topic has a length of 16 bits, and its
remaining length is small enough. -/
structure PublishFits {qos : QoS} (version : Protocol) (trace : TracePublishQos qos) : Prop where
  protocol : trace.protocol = version
  topic : Fits (asBytes trace.topic)
  room : 2 + strLen trace.topic + trace.payload.length + (if qos = .AtMostOnce then 0 else 2) +
    (if version = .V5 then 1 else 0) ≤ maxLength

/-- Properties and filters fit behind a packet id. -/
def BodyFits (properties filters : Bytes) : Protocol → Prop
  | .V4 => 2 + filters.length ≤ maxLength
  | .V5 => 2 + Codec.lenLen properties.length + properties.length + filters.length ≤ maxLength

/-- The request is one of this version, and its packet has room for it. -/
def Fitting (version : Protocol) : ClientData → Prop
  | .PublishQoS0 trace => PublishFits version trace
  | .PublishQoS1 trace => PublishFits version trace
  | .PublishQoS2 trace => PublishFits version trace
  | .Subscribe ⟨_, .V4 _ payload⟩ => version = .V4 ∧ BodyFits [] payload .V4
  | .Subscribe ⟨_, .V5 _ properties filters⟩ => version = .V5 ∧ BodyFits properties filters .V5
  | .Unsubscribe ⟨_, .V4 _ payload⟩ => version = .V4 ∧ BodyFits [] payload .V4
  | .Unsubscribe ⟨_, .V5 _ properties filters⟩ => version = .V5 ∧ BodyFits properties filters .V5

/-- What comes in fits: the requests that the hub has taken, and the packet ids
of the messages that the broker has sent. -/
structure InputFits (version : Protocol) (log : List Event) : Prop where
  requests : ∀ data, .requested data ∈ log → Fitting version data
  messages : ∀ n publish message, .brokerSent n (.Publish publish) message ∈ log →
    ∀ packetId, publish.qos.packetId = some packetId → packetId < 65536

section Fits

variable {version : Protocol}

theorem bodyFits_sent {packetId : PacketId} (small : packetId < 65536)
    {properties filters : Bytes} (room : BodyFits properties filters version) :
    Broker.RequestFits packetId properties filters version := by
  refine ⟨small, ?_⟩
  cases version with
  | V4 =>
    simp only [BodyFits] at room
    simp only [putU16, Broker.behindId, List.length_append, List.length_cons, List.length_nil]
    omega
  | V5 =>
    simp only [BodyFits] at room
    have inside : properties.length ≤ maxLength := by omega
    simp only [putU16, Broker.behindId, List.length_append, List.length_cons, List.length_nil,
      encodedLength_length inside]
    omega

/-- A PUBLISH without properties, new or with DUP. -/
theorem publishFits_sent {topic : String} {qos : QoSWithPacketId} {payload : Bytes}
    {retain : Bool} (dup : Bool) (topicFits : Fits (asBytes topic))
    (small : ∀ packetId, qos.packetId = some packetId → packetId < 65536)
    (room : 2 + strLen topic + payload.length + (if qos = .AtMostOnce then 0 else 2) +
      (if version = .V5 then 1 else 0) ≤ maxLength) :
    Broker.Sendable version
      (.Publish { MqttData.Publish.new topic qos payload retain version with dup := dup }) := by
  refine ⟨rfl, ⟨fun _ => rfl, nofun, small, topicFits, nofun, ?_⟩, nofun⟩
  by_cases none : qos = .AtMostOnce <;> cases version <;>
    simp_all [Publish.len, MqttData.Publish.new, Publish.propertiesLen]

variable {log : List Event} {w : World} {packetId : PacketId}

theorem publish_of_accepted {trace : TracePublishQos .AtLeastOnce}
    (requests : ∀ data, .requested data ∈ log → Fitting version data)
    (h : Requested log (.PublishQoS1 trace)) :
    PublishFits version trace ∧ trace.packetId < 65536 := by
  obtain ⟨data, packetId, hrequested, small, hentry⟩ := h
  cases data with
  | PublishQoS1 packet =>
    cases hentry
    have fits : PublishFits version packet := requests _ hrequested
    exact ⟨⟨fits.protocol, fits.topic, fits.room⟩, small⟩
  | _ => cases hentry

theorem publish_of_accepted_exactly {trace : TracePublishQos .ExactlyOnce}
    (requests : ∀ data, .requested data ∈ log → Fitting version data)
    (h : Requested log (.PublishQoS2 trace)) :
    PublishFits version trace ∧ trace.packetId < 65536 := by
  obtain ⟨data, packetId, hrequested, small, hentry⟩ := h
  cases data with
  | PublishQoS2 packet =>
    cases hentry
    have fits : PublishFits version packet := requests _ hrequested
    exact ⟨⟨fits.protocol, fits.topic, fits.room⟩, small⟩
  | _ => cases hentry

theorem subscribe_sent (requests : ∀ data, .requested data ∈ log → Fitting version data)
    {trace : TraceSubscribe} (h : Requested log (.Subscribe trace)) :
    Broker.Sendable version (.Subscribe trace.subscribe) := by
  obtain ⟨data, packetId, hrequested, small, hentry⟩ := h
  cases data with
  | Subscribe request =>
    cases hentry
    have fits := requests _ hrequested
    obtain ⟨id, subscribe⟩ := request
    cases subscribe <;> exact ⟨fits.1, bodyFits_sent small fits.2⟩
  | _ => cases hentry

theorem unsubscribe_sent (requests : ∀ data, .requested data ∈ log → Fitting version data)
    {trace : TraceUnubscribe} (h : Requested log (.Unsubscribe trace)) :
    Broker.Sendable version (.Unsubscribe trace.unsubscribe) := by
  obtain ⟨data, packetId, hrequested, small, hentry⟩ := h
  cases data with
  | Unsubscribe request =>
    cases hentry
    have fits := requests _ hrequested
    obtain ⟨id, unsubscribe⟩ := request
    cases unsubscribe <;> exact ⟨fits.1, bodyFits_sent small fits.2⟩
  | _ => cases hentry

/-- The PUBLISH packets of a task fit. -/
theorem publish_sent (hI : Known w) (fits : InputFits version w.log) {i : Nat} {spec : TaskSpec}
    {original : MqttData.Publish} (hreason : Reason w.log i spec)
    (hpublished : published spec = some original) (dup : Bool) :
    Broker.Sendable version (.Publish { original with dup := dup }) := by
  cases hreason with
  | publishQos0 h =>
    cases hpublished
    obtain ⟨rfl, topic, room⟩ : PublishFits version _ := fits.requests _ h
    exact publishFits_sent dup topic nofun room
  | publishQos1 h =>
    cases hpublished
    obtain ⟨⟨rfl, topic, room⟩, small⟩ := publish_of_accepted fits.requests (hI.entries _ h)
    refine publishFits_sent dup topic (fun packetId same => ?_) room
    cases same
    exact small
  | publishQos2 h =>
    cases hpublished
    obtain ⟨⟨rfl, topic, room⟩, small⟩ :=
      publish_of_accepted_exactly fits.requests (hI.entries _ h)
    refine publishFits_sent dup topic (fun packetId same => ?_) room
    cases same
    exact small
  | _ => cases hpublished

theorem answered_small (hI : Known w) (fits : InputFits version w.log) {i message : Nat}
    {publish : MqttData.Publish} (h : .rxAccepted i publish message ∈ w.log)
    (hqos : publish.qos.packetId = some packetId) : packetId < 65536 := by
  obtain ⟨n, message', hsent⟩ := hI.messages i publish message h
  exact fits.messages n publish message' hsent packetId hqos

/-- Every packet that has a reason to be sent fits. -/
theorem sent_of_called (hI : Known w) (fits : InputFits version w.log) {packet : Outgoing}
    (h : Called w.log packet) : Broker.Sendable version packet := by
  cases packet with
  | Publish publish =>
    obtain ⟨i, spec, original, hreason, hpublished, rfl | ⟨_, rfl⟩⟩ := h
    · exact publish_sent hI fits hreason hpublished publish.dup
    · exact publish_sent hI fits hreason hpublished true
  | PubAck packetId =>
    obtain ⟨i, publish, message, haccepted, hqos⟩ := h
    exact answered_small hI fits haccepted (by rw [hqos]; rfl)
  | PubRec packetId =>
    obtain ⟨i, publish, message, haccepted, hqos⟩ := h
    exact answered_small hI fits haccepted (by rw [hqos]; rfl)
  | PubComp packetId =>
    obtain ⟨i, publish, message, haccepted, hqos, _⟩ := h
    exact answered_small hI fits haccepted (by rw [hqos]; rfl)
  | PubRel packetId =>
    obtain ⟨trace, haccepted, rfl⟩ := h
    exact (publish_of_accepted_exactly fits.requests (hI.entries _ haccepted)).2
  | Subscribe subscribe =>
    obtain ⟨trace, haccepted, rfl⟩ := h
    exact subscribe_sent fits.requests (hI.entries _ haccepted)
  | Unsubscribe unsubscribe =>
    obtain ⟨trace, haccepted, rfl⟩ := h
    exact unsubscribe_sent fits.requests (hI.entries _ haccepted)
  | PingReq => trivial
  | Disconnect => trivial

/-- What has reached the broker or is on its way there fits. -/
theorem sent_of_reachable {options : MqttOptions} {protocol : Protocol}
    (h : Reachable World.step free (.init options protocol) w) (fits : InputFits version w.log)
    {n : Nat} {packet : Outgoing} (hpacket : .brokerGot n packet ∈ w.log ∨
      ∃ network, w.networks[n]? = some network ∧ packet ∈ network.toBroker) :
    Broker.Sendable version packet := by
  have hI := reachable_known h
  have handed (h : packet = .Disconnect ∨ Handed w.log packet) :
      Broker.Sendable version packet := by
    rcases h with rfl | hhanded
    · trivial
    · exact sent_of_called hI fits (called_of_handed hI.sources.told hhanded)
  rcases hpacket with hgot | ⟨network, hget, hmem⟩
  · obtain ⟨older, hlog, htold⟩ := hI.sources.told.of_mem hgot
    exact handed (htold.imp_right fun hhanded => hhanded.mono hlog)
  · exact handed (hI.sources.wire n network hget packet hmem)

end Fits

end Sendable
