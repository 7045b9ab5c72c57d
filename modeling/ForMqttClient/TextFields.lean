import ForMqttClient.Admission
import ForMqttClient.SubscribeRoundTrip

/-!
# Topics and filters in what is written

A string stands behind two bytes for its length, and the writer puts the low
sixteen bits of the length there. No entry of the client looks at the length of a
string by itself, so a topic or filter of more than 65535 bytes is written with
the length of another one.
-/

namespace Codec

open MqttData

def UnsubscribeFilterBuilder.new (protocol : Protocol) (path : String) :
    UnsubscribeFilterBuilder protocol where
  path := path

end Codec

namespace TaskClient.Client

open MqttData Codec

/-- Up to `dispatch_event`. -/
def toSubscribeWithTraceId (client : Client) (topic : String) (qos : QoS) (id : TraceId) :
    ClientData :=
  match client.protocol with
  | .V4 => .Subscribe ((FilterBuilder.new .V4 topic qos).build id).into
  | .V5 => .Subscribe ((FilterBuilder.new .V5 topic qos).build id).into

def unsubscribeWithTraceId (client : Client) (topic : String) (id : TraceId) : ClientData :=
  match client.protocol with
  | .V4 => .Unsubscribe ((UnsubscribeFilterBuilder.new .V4 topic).build id).into
  | .V5 => .Unsubscribe ((UnsubscribeFilterBuilder.new .V5 topic).build id).into

end TaskClient.Client

namespace Tasks

open MqttData TaskHub

/-- The SUBSCRIBE packets that an await hands to the network. -/
def Instr.subscribes : Instr → List Subscribe
  | .transmit (.Subscribe subscribe) (.Subscribe again) _ => [subscribe, again]
  | _ => []

def Instr.unsubscribes : Instr → List Unsubscribe
  | .transmit (.Unsubscribe unsubscribe) (.Unsubscribe again) _ => [unsubscribe, again]
  | _ => []

end Tasks

namespace TaskHub.TaskSpec

open MqttData Tasks

def subscribes (spec : TaskSpec) : List MqttData.Subscribe := spec.run.flatMap Instr.subscribes

def unsubscribes (spec : TaskSpec) : List MqttData.Unsubscribe :=
  spec.run.flatMap Instr.unsubscribes

end TaskHub.TaskSpec

namespace Codec

open MqttData ByteReader TaskHub TaskClient Tasks

/-! ## Fields of a written packet -/

/-- What follows the fixed header: the first byte and a remaining length, which ends with
the first byte that is not marked to go on. -/
def behindHeader (bytes : Bytes) : Bytes :=
  ((bytes.drop 1).dropWhile fun byte => 128 ≤ byte.toNat).drop 1

/-- Behind the packet identifier, and in version 5 behind the length 0 of the properties. -/
def filterField (protocol : Protocol) (bytes : Bytes) : Bytes :=
  match protocol with
  | .V4 => (behindHeader bytes).drop 2
  | .V5 => (behindHeader bytes).drop 3

/-- The stream begins with two bytes that are the length of the text, and the text is read
back and nothing else. -/
def CarriesText (stream : Bytes) (text : String) : Prop :=
  ∃ high low rest, stream = high :: low :: rest ∧
    high.toNat * 256 + low.toNat = strLen text ∧
    readMqttString stream = .ok (text, rest.drop (strLen text))

theorem dropWhile_encodedLength (n : Nat) (rest : Bytes) :
    ((encodedLength n ++ rest).dropWhile fun byte => 128 ≤ byte.toNat).drop 1 = rest := by
  induction n using Nat.strongRecOn with
  | ind n ih =>
    rw [encodedLength_eq]
    have digit : n % 128 < 128 := Nat.mod_lt _ (by decide)
    by_cases more : n / 128 > 0
    · rw [if_pos more, List.cons_append, List.dropWhile_cons_of_pos]
      · exact ih (n / 128) (by omega)
      · rw [byte_more digit]
        exact decide_eq_true (Nat.le_add_left _ _)
    · rw [if_neg more, List.cons_append, List.dropWhile_cons_of_neg]
      · rfl
      · rw [byte_last digit]
        simpa using digit

theorem behindHeader_encoded (byte1 : UInt8) (n : Nat) (rest : Bytes) :
    behindHeader (byte1 :: (encodedLength n ++ rest)) = rest :=
  dropWhile_encodedLength n rest

theorem length_in_front (text : String) (rest : Bytes) :
    (writeMqttString [] text ++ rest).take 2 =
      [.ofNat ((UInt16.ofNat (strLen text)).toNat / 256),
        .ofNat (UInt16.ofNat (strLen text)).toNat] :=
  rfl

theorem carriesText_iff {stream rest : Bytes} {text : String}
    (parts : stream = writeMqttString [] text ++ rest) :
    CarriesText stream text ↔ strLen text ≤ 65535 := by
  have bytes : stream = .ofNat ((UInt16.ofNat (strLen text)).toNat / 256) ::
      .ofNat (UInt16.ofNat (strLen text)).toNat :: (asBytes text ++ rest) := by
    rw [parts]
    rfl
  constructor
  · rintro ⟨high, low, others, same, sum, _⟩
    rw [bytes] at same
    cases same
    have first := UInt8.toNat_lt (.ofNat ((UInt16.ofNat (strLen text)).toNat / 256))
    have second := UInt8.toNat_lt (.ofNat (UInt16.ofNat (strLen text)).toNat)
    omega
  · intro small
    refine ⟨_, _, _, bytes, ?_, ?_⟩
    · have whole : (UInt16.ofNat (strLen text)).toNat = strLen text := by
        rw [UInt16.toNat_ofNat']
        omega
      rw [whole, UInt8.toNat_ofNat', UInt8.toNat_ofNat']
      omega
    · rw [strLen, List.drop_left, parts]
      exact readMqttString_reads small rest

/-! ## The packets of the client -/

theorem publish_field (p : Publish) :
    behindHeader (Publish.write p []).1 = writeMqttString [] p.topic ++
      (Publish.packetIdBytes p.qos ++ (Publish.propertiesBytes p ++ p.payload)) := by
  rw [Publish.write_eq, List.nil_append]
  exact behindHeader_encoded _ _ _

theorem field_of_V4 (byte1 : UInt8) (packetId : PacketId) (filters : Bytes) :
    filterField .V4 (writeV4 byte1 packetId filters []).1 = filters := by
  have written : (writeV4 byte1 packetId filters []).1 =
      framed byte1 (requestBody .V4 packetId [] filters) :=
    congrArg Prod.fst (writeV4_eq byte1 filters [])
  rw [filterField, written, framed, behindHeader_encoded]
  rfl

theorem field_of_V5 (byte1 : UInt8) (packetId : PacketId) (filters : Bytes) :
    filterField .V5 (writeV5 byte1 packetId [] filters []).1 = filters := by
  have whole : writeV5 byte1 packetId (userPropertyBytes []) filters [] =
      ([] ++ framed byte1 (requestBody .V5 packetId [] filters),
        (framed byte1 (requestBody .V5 packetId [] filters)).length) :=
    writeV5_eq byte1 filters [] (Nat.zero_le _)
  have written : (writeV5 byte1 packetId [] filters []).1 =
      framed byte1 (requestBody .V5 packetId [] filters) := congrArg Prod.fst whole
  have zero : encodedLength 0 = [0] := by decide +kernel
  rw [filterField, written, framed, behindHeader_encoded]
  change (putU16 [] (.ofNat packetId) ++ (encodedLength 0 ++ [] ++ filters)).drop 3 = filters
  rw [zero]
  rfl

section Client

variable {client : Client} {topic : String} {qos : QoS} {id : TraceId} {hub : Hub}
variable {spec : TaskSpec}

theorem subscribe_field {s : Subscribe}
    (started : .start spec ∈ (hub.dealClientDataWhenConnected
      (client.toSubscribeWithTraceId topic qos id)).outputs)
    (built : s ∈ spec.subscribes) :
    ∃ rest, filterField client.protocol (Subscribe.write s []).1 =
      writeMqttString [] topic ++ rest := by
  rw [Client.toSubscribeWithTraceId] at started
  cases version : client.protocol with
  | V4 =>
    rw [version] at started
    obtain ⟨packetId, rfl⟩ := Hub.acceptRequest_start started
    rcases List.mem_pair.mp built with rfl | rfl <;>
      exact ⟨_, field_of_V4 0x82 packetId _⟩
  | V5 =>
    rw [version] at started
    obtain ⟨packetId, rfl⟩ := Hub.acceptRequest_start started
    rcases List.mem_pair.mp built with rfl | rfl <;>
      exact ⟨_, field_of_V5 0x82 packetId _⟩

theorem unsubscribe_field {u : Unsubscribe}
    (started : .start spec ∈ (hub.dealClientDataWhenConnected
      (client.unsubscribeWithTraceId topic id)).outputs)
    (built : u ∈ spec.unsubscribes) :
    ∃ rest, filterField client.protocol (Unsubscribe.write u []).1 =
      writeMqttString [] topic ++ rest := by
  rw [Client.unsubscribeWithTraceId] at started
  cases version : client.protocol with
  | V4 =>
    rw [version] at started
    obtain ⟨packetId, rfl⟩ := Hub.acceptRequest_start started
    rcases List.mem_pair.mp built with rfl | rfl <;>
      exact ⟨[], (field_of_V4 0xA2 packetId _).trans (List.append_nil _).symm⟩
  | V5 =>
    rw [version] at started
    obtain ⟨packetId, rfl⟩ := Hub.acceptRequest_start started
    rcases List.mem_pair.mp built with rfl | rfl <;>
      exact ⟨[], (field_of_V5 0xA2 packetId _).trans (List.append_nil _).symm⟩

/-- A topic or filter of the client is carried as it is exactly if its length fits in the
two bytes in front of it, in every packet of every entry. -/
theorem texts_carried_iff (client : Client) (topic : String) (hub : Hub) (spec : TaskSpec) :
    (∀ qos payload retain id data p,
      client.publishWithTraceId topic qos payload retain id = .ok data ∨
        client.publishByArc topic qos payload retain id = .ok data →
      .start spec ∈ (hub.dealClientDataWhenConnected data).outputs → p ∈ spec.publishes →
      (CarriesText (behindHeader (Publish.write p []).1) topic ↔ strLen topic ≤ 65535)) ∧
    (∀ qos id s,
      .start spec ∈ (hub.dealClientDataWhenConnected
        (client.toSubscribeWithTraceId topic qos id)).outputs → s ∈ spec.subscribes →
      (CarriesText (filterField client.protocol (Subscribe.write s []).1) topic ↔
        strLen topic ≤ 65535)) ∧
    ∀ id u,
      .start spec ∈ (hub.dealClientDataWhenConnected
        (client.unsubscribeWithTraceId topic id)).outputs → u ∈ spec.unsubscribes →
      (CarriesText (filterField client.protocol (Unsubscribe.write u []).1) topic ↔
        strLen topic ≤ 65535) := by
  refine ⟨?_, ?_, ?_⟩
  · intro qos payload retain id data p admitted started built
    have checked : client.publishWithTraceId topic qos payload retain id = .ok data :=
      admitted.elim (fun traced => traced) fun byArc => byArc
    obtain ⟨_, rfl⟩ := Client.admitted_eq checked
    have sends := sends_of_started started built
    have field := publish_field p
    rw [sends.topic_eq] at field
    exact carriesText_iff field
  · intro qos id s started built
    obtain ⟨rest, field⟩ := subscribe_field started built
    exact carriesText_iff field
  · intro id u started built
    obtain ⟨rest, field⟩ := unsubscribe_field started built
    exact carriesText_iff field

end Client

/-- A publish, a subscribe and an unsubscribe for one short topic, on a new hub. -/
theorem short_texts_carried :
    (CarriesText (behindHeader (Publish.write (.new "t" .AtMostOnce [9] false .V4) []).1) "t" ↔
      strLen "t" ≤ 65535) ∧
    (CarriesText (filterField .V5 (Subscribe.write (.V5 1 [] [0, 1, 116, 0]) []).1) "t" ↔
      strLen "t" ≤ 65535) ∧
    (CarriesText (filterField .V4 (Unsubscribe.write (.V4 1 [0, 1, 116]) []).1) "t" ↔
      strLen "t" ≤ 65535) := by
  let hub (protocol : Protocol) : Hub := .init ⟨60, true⟩ protocol
  refine ⟨?_, ?_, ?_⟩
  · have admitted : (⟨.V4⟩ : Client).publishWithTraceId "t" .AtMostOnce [9] false 7 =
        .ok (.publish "t" .AtMostOnce [9] false .V4 7) := by decide +kernel
    exact (texts_carried_iff ⟨.V4⟩ "t" (hub .V4) (.PublishQos0 ⟨.V4, 7, "t", 0, [9], false⟩)).1
      .AtMostOnce [9] false 7 _ _ (.inl admitted) List.mem_cons_self List.mem_cons_self
  · exact (texts_carried_iff ⟨.V5⟩ "t" (hub .V5) (.Subscribe
      ⟨7, ((FilterBuilder.new .V5 "t" .AtMostOnce).build 7).into.subscribe.setPacketId 1⟩)).2.1
      .AtMostOnce 7 (.V5 1 [] [0, 1, 116, 0]) (List.mem_cons_of_mem _ List.mem_cons_self)
      List.mem_cons_self
  · exact (texts_carried_iff ⟨.V4⟩ "t" (hub .V4) (.Unsubscribe
      ⟨7, ((UnsubscribeFilterBuilder.new .V4 "t").build 7).into.unsubscribe.setPacketId 1⟩)).2.2
      7 (.V4 1 [0, 1, 116]) (List.mem_cons_of_mem _ List.mem_cons_self) List.mem_cons_self

/-- A topic of ASCII letters. -/
def letters (n : Nat) : String := .ofList (List.replicate n 'a')

theorem strLen_letters (n : Nat) : strLen (letters n) = n := by
  rw [strLen, asBytes, Array.length_toList, letters, String.toByteArray_ofList]
  induction n with
  | zero => rfl
  | succ n ih =>
    rw [List.replicate_succ, List.utf8Encode_cons]
    rw [ByteArray.data_append, Array.size_append, ih, Nat.add_comm]
    rfl

/-- A topic of 65536 letters is admitted and sent, and the packet says that it is empty. -/
theorem long_topic_not_carried :
    (⟨.V4⟩ : Client).publishWithTraceId (letters 65536) .AtMostOnce [9] false 7 =
        .ok (.publish (letters 65536) .AtMostOnce [9] false .V4 7) ∧
      .start (.PublishQos0 ⟨.V4, 7, letters 65536, 0, [9], false⟩) ∈
        ((Hub.init ⟨60, true⟩ .V4).dealClientDataWhenConnected
          (.publish (letters 65536) .AtMostOnce [9] false .V4 7)).outputs ∧
      .new (letters 65536) .AtMostOnce [9] false .V4 ∈
        (TaskSpec.PublishQos0 ⟨.V4, 7, letters 65536, 0, [9], false⟩).publishes ∧
      (behindHeader (Publish.write
        (.new (letters 65536) .AtMostOnce [9] false .V4) []).1).take 2 = [0, 0] ∧
      ¬CarriesText (behindHeader (Publish.write
        (.new (letters 65536) .AtMostOnce [9] false .V4) []).1) (letters 65536) := by
  have size := strLen_letters 65536
  have field := publish_field (.new (letters 65536) .AtMostOnce [9] false .V4)
  have topic : (Publish.new (letters 65536) .AtMostOnce [9] false .V4).topic = letters 65536 := rfl
  refine ⟨?_, List.mem_cons_self, List.mem_cons_self, ?_, ?_⟩
  · rw [Client.publishWithTraceId, size, if_neg (by decide)]
  · rw [field, length_in_front, topic, size]
    rfl
  · intro carried
    have small := (carriesText_iff field).mp carried
    rw [topic, size] at small
    exact absurd small (by decide)

end Codec
