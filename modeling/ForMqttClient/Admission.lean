import ForMqttClient.PublishRoundTrip
import ForMqttClient.Tasks

/-!
# The size of an admitted publish

The client turns a publish away by the lengths of topic and payload alone, with
four bytes added for what comes with them. Version 5 puts an empty property
block between, and an acknowledged publish of the largest admitted size is one
byte too long.
-/

namespace MqttData

def ClientData.publish (topic : String) (qos : QoS) (payload : Bytes) (retain : Bool)
    (protocol : Protocol) (id : TraceId) : ClientData :=
  match qos with
  | .AtMostOnce => .PublishQoS0 (.init .AtMostOnce topic payload retain protocol id)
  | .AtLeastOnce => .PublishQoS1 (.init .AtLeastOnce topic payload retain protocol id)
  | .ExactlyOnce => .PublishQoS2 (.init .ExactlyOnce topic payload retain protocol id)

inductive ClientErr where
  | Disconnected
  | PayloadTooLong
  | ChannelErr
  deriving DecidableEq, Repr

end MqttData

namespace TaskClient

open MqttData

structure Client where
  protocol : Protocol
  deriving DecidableEq, Repr

namespace Client

/-- Up to `dispatch_event`, to which the result goes. -/
def publishWithTraceId (client : Client) (topic : String) (qos : QoS) (payload : Bytes)
    (retain : Bool) (traceId : TraceId) : Except ClientErr ClientData :=
  if payload.length + 4 + Codec.strLen topic > 268435455 then .error .PayloadTooLong
  else .ok (.publish topic qos payload retain client.protocol traceId)

/-- As `publishWithTraceId`, with an `id` from `Id::id()`. -/
def publishByArc (client : Client) (topic : String) (qos : QoS) (payload : Bytes)
    (retain : Bool) (id : TraceId) : Except ClientErr ClientData :=
  if payload.length + 4 + Codec.strLen topic > 268435455 then .error .PayloadTooLong
  else .ok (.publish topic qos payload retain client.protocol id)

/-- What passes the check goes on as it was given. -/
theorem admitted_eq {client : Client} {topic : String} {qos : QoS} {payload : Bytes}
    {retain : Bool} {id : TraceId} {data : ClientData}
    (admitted : client.publishWithTraceId topic qos payload retain id = .ok data) :
    payload.length + 4 + Codec.strLen topic ≤ 268435455 ∧
      data = .publish topic qos payload retain client.protocol id := by
  by_cases long : payload.length + 4 + Codec.strLen topic > 268435455
  · rw [publishWithTraceId, if_pos long] at admitted
    cases admitted
  · rw [publishWithTraceId, if_neg long] at admitted
    injection admitted with same
    exact ⟨Nat.le_of_not_gt long, same.symm⟩

end Client

end TaskClient

namespace Tasks

open MqttData TaskHub

/-- The PUBLISH packets that an await hands to the network. -/
def Instr.publishes : Instr → List Publish
  | .send (.Publish publish) => [publish]
  | .transmit (.Publish publish) (.Publish dup) _ => [publish, dup]
  | _ => []

end Tasks

namespace TaskHub

open MqttData Tasks

/-- The PUBLISH packets that a task builds. -/
def TaskSpec.publishes (spec : TaskSpec) : List Publish := spec.run.flatMap Instr.publishes

/-- The packet is one for this request. -/
structure Sends (topic : String) (qos : QoS) (payload : Bytes) (protocol : Protocol)
    (p : Publish) : Prop where
  topic_eq : p.topic = topic
  payload_eq : p.payload = payload
  protocol_eq : p.protocol = protocol
  plain : p.properties = none
  qos_iff : p.qos = .AtMostOnce ↔ qos = .AtMostOnce

/-- A request is started at most once, under an id from the pool. -/
theorem Hub.acceptRequest_start {hub : Hub} {entry : PacketId → UnacknowledgedClientData}
    {spec : PacketId → TaskSpec} {started : TaskSpec}
    (h : .start started ∈ (hub.acceptRequest entry spec).outputs) :
    ∃ packetId, started = spec packetId := by
  unfold acceptRequest at h
  cases requested : hub.requestId with
  | none =>
    rw [requested] at h
    cases h
  | some taken =>
    rw [requested] at h
    obtain ⟨packetId, _⟩ := taken
    simp only [List.mem_cons, List.not_mem_nil, or_false, reduceCtorEq, false_or,
      Output.start.injEq] at h
    exact ⟨packetId, h⟩

theorem sends_of_started {hub : Hub} {topic : String} {qos : QoS} {payload : Bytes}
    {retain : Bool} {protocol : Protocol} {id : TraceId} {spec : TaskSpec} {p : Publish}
    (started : .start spec ∈ (hub.dealClientDataWhenConnected
      (.publish topic qos payload retain protocol id)).outputs)
    (built : p ∈ spec.publishes) : Sends topic qos payload protocol p := by
  cases qos with
  | AtMostOnce =>
    cases List.mem_singleton.mp started
    cases List.mem_singleton.mp built
    exact ⟨rfl, rfl, rfl, rfl, iff_of_true rfl rfl⟩
  | AtLeastOnce =>
    obtain ⟨packetId, rfl⟩ := Hub.acceptRequest_start started
    rcases List.mem_pair.mp built with rfl | rfl <;>
      exact ⟨rfl, rfl, rfl, rfl, iff_of_false nofun nofun⟩
  | ExactlyOnce =>
    obtain ⟨packetId, rfl⟩ := Hub.acceptRequest_start started
    rcases List.mem_pair.mp built with rfl | rfl <;>
      exact ⟨rfl, rfl, rfl, rfl, iff_of_false nofun nofun⟩

end TaskHub

namespace Codec

open MqttData ByteReader TaskHub TaskClient Tasks

namespace Publish

/-! ## Packets without properties -/

theorem plain_body_length {p : Publish} (plain : p.properties = none) :
    (body p).length = len p := by
  refine body_length_of ?_
  rw [propertiesBytes, writeProperties, plain]
  cases p.protocol with
  | V4 => rfl
  | V5 =>
    simp only [writeRemainingLength_eq, List.nil_append, propertiesLen]
    exact encodedLength_length (Nat.zero_le _)

/-- The packet is within the limit of the protocol, its length takes four bytes
at most, and the reader finds the frame that was written. -/
structure WithinLimit (p : Publish) : Prop where
  len_le : len p ≤ 268435455
  few_bytes : ∀ buffer, (writeRemainingLength buffer (len p)).2 ≤ 4
  written : ∀ buffer, write p buffer = (buffer ++ (write p []).1, (write p []).1.length)
  parsed : ∃ header, parseFixedHeaderBySlice (write p []).1 = .ok header ∧
    (header.frameLength : Outcome FixedHeaderError Nat) = .ok (write p []).1.length

theorem withinLimit_iff {p : Publish} (plain : p.properties = none) :
    WithinLimit p ↔ len p ≤ maxLength := by
  have size := plain_body_length plain
  constructor
  · exact WithinLimit.len_le
  · intro small
    have frame := isFrame_encoded (byte1 p) (size ▸ small)
    have bytes : (write p []).1 = byte1 p :: (encodedLength (len p) ++ body p) := by
      rw [write_eq, List.nil_append]
    rw [size, ← bytes] at frame
    refine ⟨small, fun buffer => ?_, fun buffer => ?_, _, frame.parsed, ?_⟩
    · rw [writeRemainingLength_eq, encodedLength_length small]
      exact lenLen_le _
    · rw [bytes, write_eq, List.length_cons, List.length_append, size]
      congr 1
      omega
    · rw [frameLength_eq (parsed_framed frame.parsed), frame.exact_length]
      rfl

/-! ## Admitted requests -/

theorem sent_len {topic : String} {qos : QoS} {payload : Bytes} {protocol : Protocol}
    {p : Publish} (sends : Sends topic qos payload protocol p) :
    len p = 2 + strLen topic + payload.length + (if qos ≠ .AtMostOnce then 2 else 0) +
      (if protocol = .V5 then 1 else 0) := by
  simp only [len, sends.topic_eq, sends.payload_eq, sends.protocol_eq, sends.plain, ne_eq,
    sends.qos_iff, propertiesLen]
  split <;> split <;> rfl

/-- An admitted publish is within the limit unless it is an acknowledged one of
version 5 and of the largest size. -/
theorem admitted_within_limit_iff {client : Client} {topic : String} {qos : QoS}
    {payload : Bytes} {retain : Bool} {id : TraceId} {data : ClientData} {hub : Hub}
    {spec : TaskSpec} {p : Publish}
    (admitted : client.publishWithTraceId topic qos payload retain id = .ok data ∨
      client.publishByArc topic qos payload retain id = .ok data)
    (started : .start spec ∈ (hub.dealClientDataWhenConnected data).outputs)
    (built : p ∈ spec.publishes) :
    WithinLimit p ↔ ¬(client.protocol = .V5 ∧ qos ≠ .AtMostOnce ∧
      payload.length + 4 + strLen topic = 268435455) := by
  have checked : client.publishWithTraceId topic qos payload retain id = .ok data :=
    admitted.elim (fun traced => traced) fun byArc => byArc
  obtain ⟨small, rfl⟩ := Client.admitted_eq checked
  have sends := sends_of_started started built
  rw [withinLimit_iff sends.plain, sent_len sends, maxLength]
  by_cases version : client.protocol = .V5
  · by_cases plain : qos = .AtMostOnce
    · simp only [version, plain, ne_eq, not_true_eq_false, if_true, if_false, false_and,
        and_false, not_false_eq_true, iff_true]
      omega
    · simp only [version, plain, ne_eq, not_false_eq_true, if_true, true_and]
      omega
  · simp only [version, if_false, false_and, not_false_eq_true, iff_true]
    split <;> omega

/-- A small request of version 5, under the first id of the pool. -/
theorem small_within_limit :
    WithinLimit (.new "t" (.AtLeastOnce 1) [9] false .V5) := by
  let trace : TracePublishQos .AtLeastOnce := ⟨.V5, 7, "t", 1, [9], false⟩
  have admitted : (⟨.V5⟩ : Client).publishWithTraceId "t" .AtLeastOnce [9] false 7 =
      .ok (.publish "t" .AtLeastOnce [9] false .V5 7) := by decide +kernel
  have started : .start (.PublishQos1 trace) ∈
      ((Hub.init ⟨60, true⟩ .V5).dealClientDataWhenConnected
        (.publish "t" .AtLeastOnce [9] false .V5 7)).outputs :=
    List.mem_cons_of_mem _ List.mem_cons_self
  refine (admitted_within_limit_iff (.inl admitted) started List.mem_cons_self).mpr ?_
  decide +kernel

/-- An acknowledged request of version 5 beside a topic of one byte. -/
def edge (payload : Bytes) : TracePublishQos .AtLeastOnce where
  protocol := .V5
  id := 7
  topic := "t"
  packetId := 1
  payload := payload
  retain := false

def edgePublish (payload : Bytes) : Publish := .new "t" (.AtLeastOnce 1) payload false .V5

theorem length_five (rest : Bytes) :
    length (0x80 :: 0x80 :: 0x80 :: 0x80 :: 0x01 :: rest) = fail .MalformedRemainingLength := rfl

theorem edge_header {payload : Bytes} (size : payload.length = 268435450) :
    len (edgePublish payload) = 268435456 ∧
      (writeRemainingLength [] (len (edgePublish payload))).2 = 5 ∧
      parseFixedHeaderBySlice (write (edgePublish payload) []).1 =
        fail .MalformedRemainingLength := by
  have topicLen : strLen "t" = 1 := by decide +kernel
  have len_eq : len (edgePublish payload) = 268435456 := by
    change 2 + strLen "t" + payload.length + 2 + 1 = _
    rw [size, topicLen]
  have five : encodedLength 268435456 = [0x80, 0x80, 0x80, 0x80, 0x01] := by decide +kernel
  refine ⟨len_eq, ?_, ?_⟩
  · rw [len_eq, writeRemainingLength_eq, five]
    rfl
  · rw [write_eq, len_eq, five, List.nil_append, List.cons_append, parseFixedHeaderBySlice_cons]
    simp only [List.cons_append, length_five]
    rfl

theorem edge_admitted {payload : Bytes} (size : payload.length = 268435450) :
    (⟨.V5⟩ : Client).publishWithTraceId "t" .AtLeastOnce payload false 7 =
      .ok (.publish "t" .AtLeastOnce payload false .V5 7) := by
  have topicLen : strLen "t" = 1 := by decide +kernel
  rw [Client.publishWithTraceId, size, topicLen, if_neg (by decide)]

def largest : Bytes := List.replicate 268435450 0

/-- The largest payload is admitted and sent, and the header is not read. -/
theorem edge_not_parsed :
    (⟨.V5⟩ : Client).publishWithTraceId "t" .AtLeastOnce largest false 7 =
        .ok (.publish "t" .AtLeastOnce largest false .V5 7) ∧
      .start (.PublishQos1 (edge largest)) ∈
        ((Hub.init ⟨60, true⟩ .V5).dealClientDataWhenConnected
          (.publish "t" .AtLeastOnce largest false .V5 7)).outputs ∧
      edgePublish largest ∈ (TaskSpec.PublishQos1 (edge largest)).publishes ∧
      (writeRemainingLength [] (len (edgePublish largest))).2 = 5 ∧
      parseFixedHeaderBySlice (write (edgePublish largest) []).1 =
        fail .MalformedRemainingLength ∧
      ¬WithinLimit (edgePublish largest) := by
  have size : largest.length = 268435450 := List.length_replicate
  obtain ⟨len_eq, five, malformed⟩ := edge_header size
  refine ⟨edge_admitted size, ?_, List.mem_cons_self, five, malformed, fun within => ?_⟩
  · exact List.mem_cons_of_mem _ List.mem_cons_self
  · have small := within.len_le
    rw [len_eq] at small
    exact absurd small (by decide)

end Publish

end Codec
