import ForMqttClient.FieldRoundTrips
import ForMqttClient.Frames

/-!
# Acknowledgements read back

PUBACK, PUBREC, PUBREL and PUBCOMP of version 5, as the client builds and writes
them. The writer announces fewer bytes than it writes as soon as it writes a
reason, and it leaves a reason string out where it announces only the packet
identifier. So the packets without either are the ones that are read back.
-/

namespace Codec

open MqttData ByteReader

namespace PubCommon

variable {Reason : Type}

/-! ## Building a packet -/

inductive Call where
  | setReasonString (reasonString : String)
  | addUserProperty (key val : String)
  deriving DecidableEq, Repr

namespace Call

def run (packet : PubCommon Reason) : Call → Except String (PubCommon Reason)
  | .setReasonString reasonString => packet.setReasonString reasonString
  | .addUserProperty key val => packet.addUserProperty key val

def reasonString : Call → Option String
  | .setReasonString reasonString => some reasonString
  | .addUserProperty _ _ => none

def userProperty : Call → Option (String × String)
  | .setReasonString _ => none
  | .addUserProperty key val => some (key, val)

end Call

/-- The packet with its public field `reason` set. -/
def withReason (reason : Reason) : PubCommon Reason → PubCommon Reason
  | .V5WriteMode packetId _ hadReasonString hadUserProperties properties =>
    .V5WriteMode packetId reason hadReasonString hadUserProperties properties
  | packet => packet

/-- No call fails, and only `add_user_property` leaves a mark. -/
theorem run_calls (packetId : PacketId) (reason : Reason) (calls : List Call) :
    ∀ had properties, ∃ properties',
      calls.foldlM Call.run (.V5WriteMode packetId reason false had properties) =
        .ok (.V5WriteMode packetId reason false
          (had || calls.any fun call => call.userProperty.isSome) properties') := by
  induction calls with
  | nil =>
    intro had properties
    rw [List.any_nil, Bool.or_false]
    exact ⟨properties, rfl⟩
  | cons call calls ih =>
    intro had properties
    cases call with
    | setReasonString reasonString =>
      exact ih had (putProperty .ReasonString writeMqttString properties reasonString)
    | addUserProperty key val =>
      rw [List.any_cons, Call.userProperty, Option.isSome_some, Bool.true_or, Bool.or_true]
      exact ih true (putProperty .UserProperty writeUserProperty properties (key, val))

variable [Common Reason]

/-- The calls on a new packet, in their order. -/
def build (packetId : PacketId) (reason : Reason) (calls : List Call) :
    Except String (PubCommon Reason) :=
  calls.foldlM Call.run (withReason reason (new packetId .V5))

theorem build_eq (packetId : PacketId) (reason : Reason) (calls : List Call) :
    ∃ properties, build packetId reason calls =
      .ok (.V5WriteMode packetId reason false
        (calls.any fun call => call.userProperty.isSome) properties) :=
  run_calls packetId reason calls false []

/-! ## What is written -/

/-- With its default reason and no user property the packet is its identifier. -/
theorem write_short (packetId : PacketId) {reason : Reason} (properties : Bytes)
    (success : Common.isSuccess reason = true) :
    write (.V5WriteMode packetId reason false false properties) [] =
      some (Common.ty Reason :: (encodedLength 2 ++ putU16 [] (.ofNat packetId)), 4) := by
  have size : len (.V5WriteMode packetId reason false false properties) = some 2 := by
    rw [len, if_pos ⟨success, rfl, rfl⟩]
  simp only [write, size, bind, Option.bind, writeRemainingLength_eq, putU16]
  rfl

/-- Otherwise three bytes are announced and more are written. -/
theorem write_long (packetId : PacketId) {reason : Reason} {had : Bool} (properties : Bytes)
    (marked : Common.isSuccess reason = false ∨ had = true) :
    ∃ body, write (.V5WriteMode packetId reason false had properties) [] =
        some (Common.ty Reason :: (encodedLength 3 ++ body), 5) ∧ 5 ≤ body.length := by
  have size : len (.V5WriteMode packetId reason false had properties) = some 3 := by
    have unmarked : ¬(Common.isSuccess reason = true ∧ (!false) = true ∧ (!had) = true) := by
      rintro ⟨success, _, none⟩
      rcases marked with failed | some
      · rw [failed] at success
        cases success
      · rw [some] at none
        cases none
    rw [len, if_neg unmarked, if_neg fun both => Bool.false_ne_true both.1]
  refine ⟨putU16 [] (.ofNat packetId) ++ (Common.asU8 reason :: writeMqttBytes [] properties),
    ?_, ?_⟩
  · simp only [write, size, bind, Option.bind, writeRemainingLength_eq, putU16, putU8,
      writeMqttBytes_eq (_ ++ _)]
    have one : (encodedLength 3).length = 1 := encodedLength_length (by decide)
    rw [if_neg (by decide), one]
    simp only [List.append_assoc, List.nil_append, List.singleton_append]
    rfl
  · rw [List.length_append, List.length_cons, writeMqttBytes_length]
    simp only [putU16, List.nil_append, List.length_cons, List.length_nil]
    omega

/-! ## The round trip -/

/-- The packets of one type among those of the reader. -/
structure AckType (Reason : Type) [Common Reason] where
  wrap : PubCommon Reason → Packet
  wrap_injective : Function.Injective wrap
  reads : ∀ measured stream,
    readPacket (headerOf (Common.ty Reason) measured) .V5 stream =
      (read (headerOf (Common.ty Reason) measured) .V5 stream).map
        fun result => (wrap result.1, result.2)

/-- The packet that these calls build is written as one frame, and read back as
what the calls have set. -/
def RoundTrips (type : AckType Reason) (packetId : PacketId) (reason : Reason)
    (calls : List Call) : Prop :=
  ∃ packet frame count header, build packetId reason calls = .ok packet ∧
    packet.write [] = some (frame, count) ∧ IsFrame frame header ∧
    readFromNetwork frame .V5 =
      (.ok (some (type.wrap (.V5 packetId reason (calls.filterMap Call.reasonString).getLast?
        (calls.filterMap Call.userProperty)))), [])

section Types

variable {type : AckType Reason} {packetId : PacketId} {reason : Reason}

/-- A frame of two bytes behind the header is read as the default reason. -/
theorem short_read (type : AckType Reason) (small : packetId < 65536) :
    readFromNetwork (Common.ty Reason :: (encodedLength 2 ++ putU16 [] (.ofNat packetId))) .V5 =
      (.ok (some (type.wrap (.V5 packetId Common.default none []))), []) := by
  have two : (2 : Nat) ≤ maxLength := by decide
  have frame : IsFrame (Common.ty Reason :: (encodedLength 2 ++ putU16 [] (.ofNat packetId)))
      (headerOf (Common.ty Reason) (lenLen 2, 2)) :=
    isFrame_encoded _ (show (putU16 [] (.ofNat packetId)).length ≤ maxLength from two)
  have same : (UInt16.ofNat packetId).toNat = packetId := by
    rw [UInt16.toNat_ofNat']
    exact Nat.mod_eq_of_lt small
  have header := advance_header (Common.ty Reason) two (putU16 [] (.ofNat packetId))
  have id := readU16_reads (.ofNat packetId) []
  rw [List.append_nil] at id
  have packet : read (headerOf (Common.ty Reason) (lenLen 2, 2)) .V5
      (Common.ty Reason :: (encodedLength 2 ++ putU16 [] (.ofNat packetId))) =
      .ok ((.V5 packetId Common.default none [] : PubCommon Reason), []) := by
    refine (run_bind_ok header).trans ?_
    refine (run_bind_ok id).trans ?_
    rw [same]
    rfl
  have decoded := frame.read_append .V5 []
  rw [List.append_nil] at decoded
  rw [decoded, decodeFrame, type.reads, packet]
  rfl

/-- More bytes than announced are no frame. -/
theorem long_not_frame {body : Bytes} (long : 5 ≤ body.length) (header : FixedHeader) :
    ¬IsFrame (Common.ty Reason :: (encodedLength 3 ++ body)) header := by
  intro isFrame
  have three : (3 : Nat) ≤ maxLength := by decide
  have parsed := parse_encoded (Common.ty Reason) three body
  rw [isFrame.parsed] at parsed
  cases parsed
  have total := isFrame.exact_length
  rw [List.length_cons, List.length_append, encodedLength_length three] at total
  change _ = lenLen 3 + 1 + 3 at total
  omega

variable {calls : List Call}

theorem no_call (reasons : calls.filterMap Call.reasonString = [])
    (users : (calls.any fun call => call.userProperty.isSome) = false) : calls = [] := by
  cases calls with
  | nil => rfl
  | cons call calls =>
    cases call with
    | setReasonString reasonString => cases reasons
    | addUserProperty key val => cases users

theorem roundTrips_of_default (small : packetId < 65536)
    (success : Common.isSuccess (Common.default : Reason) = true) :
    RoundTrips type packetId Common.default [] := by
  have two : (2 : Nat) ≤ maxLength := by decide
  refine ⟨.V5WriteMode packetId Common.default false false [], _, _,
    headerOf (Common.ty Reason) (lenLen 2, 2), rfl, write_short packetId [] success,
    isFrame_encoded _ (show (putU16 [] (.ofNat packetId)).length ≤ maxLength from two), ?_⟩
  exact short_read type small

theorem roundTrips_iff_default [LawfulCommon Reason] (small : packetId < 65536) :
    RoundTrips type packetId reason calls ↔ reason = Common.default ∧ calls = [] := by
  constructor
  · rintro ⟨packet, frame, count, header, built, written, isFrame, result⟩
    obtain ⟨properties, same⟩ := build_eq packetId reason calls
    rw [same] at built
    cases built
    by_cases marked : Common.isSuccess reason = false ∨
        (calls.any fun call => call.userProperty.isSome) = true
    · obtain ⟨body, long, more⟩ := write_long packetId properties marked
      rw [long] at written
      cases written
      exact absurd isFrame (long_not_frame more header)
    · rw [not_or, Bool.not_eq_false, Bool.not_eq_true] at marked
      rw [marked.2, write_short packetId properties marked.1] at written
      cases written
      rw [short_read type small] at result
      injection result with result _
      injection result with result
      injection result with result
      injection type.wrap_injective result with _ default none nothing
      exact ⟨default.symm, no_call (List.getLast?_eq_none_iff.mp none.symm) marked.2⟩
  · rintro ⟨rfl, rfl⟩
    exact roundTrips_of_default small ((LawfulCommon.success_iff _).mpr rfl)

end Types

/-! ## The four types -/

theorem read_wrapped (wrap : PubCommon Reason → Packet) (header : FixedHeader) (stream : Bytes) :
    (do return wrap (← read header .V5) : Parser Packet) stream =
      ((read header .V5 : Parser (PubCommon Reason)) stream).map
        fun result => (wrap result.1, result.2) := by
  change ((read header .V5 : Parser (PubCommon Reason)) stream >>= fun result =>
    .ok (wrap result.1, result.2)) = _
  cases (read header .V5 : Parser (PubCommon Reason)) stream <;> rfl

def pubAck : AckType PubAckReason where
  wrap := .PubAck
  wrap_injective _ _ := Packet.PubAck.inj
  reads measured stream := by
    have num : ((0x40 : UInt8) >>> 4).toNat = 4 := by decide
    have type : (headerOf 0x40 measured).packetType = .ok .PubAck := by
      simp only [FixedHeader.packetType, headerOf, num]
    exact (run_bind_ok (Reads.lift type stream)).trans (read_wrapped .PubAck _ stream)

def pubRec : AckType PubRecReason where
  wrap := .PubRec
  wrap_injective _ _ := Packet.PubRec.inj
  reads measured stream := by
    have num : ((0x50 : UInt8) >>> 4).toNat = 5 := by decide
    have type : (headerOf 0x50 measured).packetType = .ok .PubRec := by
      simp only [FixedHeader.packetType, headerOf, num]
    exact (run_bind_ok (Reads.lift type stream)).trans (read_wrapped .PubRec _ stream)

def pubRel : AckType PubRelReason where
  wrap := .PubRel
  wrap_injective _ _ := Packet.PubRel.inj
  reads measured stream := by
    have num : ((0x62 : UInt8) >>> 4).toNat = 6 := by decide
    have type : (headerOf 0x62 measured).packetType = .ok .PubRel := by
      simp only [FixedHeader.packetType, headerOf, num]
    exact (run_bind_ok (Reads.lift type stream)).trans (read_wrapped .PubRel _ stream)

def pubComp : AckType PubCompReason where
  wrap := .PubComp
  wrap_injective _ _ := Packet.PubComp.inj
  reads measured stream := by
    have num : ((0x70 : UInt8) >>> 4).toNat = 7 := by decide
    have type : (headerOf 0x70 measured).packetType = .ok .PubComp := by
      simp only [FixedHeader.packetType, headerOf, num]
    exact (run_bind_ok (Reads.lift type stream)).trans (read_wrapped .PubComp _ stream)

/-- The acknowledgements that are read back are those of success on which nothing
was set. -/
theorem acks_round_trip_iff {packetId : PacketId} (small : packetId < 65536)
    (calls : List Call) :
    (∀ reason, RoundTrips pubAck packetId reason calls ↔ reason = .Success ∧ calls = []) ∧
    (∀ reason, RoundTrips pubRec packetId reason calls ↔ reason = .Success ∧ calls = []) ∧
    (∀ reason, RoundTrips pubRel packetId reason calls ↔ reason = .Success ∧ calls = []) ∧
    (∀ reason, RoundTrips pubComp packetId reason calls ↔ reason = .Success ∧ calls = []) :=
  ⟨fun _ => roundTrips_iff_default small, fun _ => roundTrips_iff_default small,
    fun _ => roundTrips_iff_default small, fun _ => roundTrips_iff_default small⟩

theorem success_round_trips : RoundTrips pubAck 7 .Success [] :=
  ((acks_round_trip_iff (by decide) []).1 _).mpr ⟨rfl, rfl⟩

/-- Three bytes are announced behind the header, and five are written. -/
theorem reason_not_announced :
    (∃ packet, build 7 PubAckReason.NoMatchingSubscribers [] = .ok packet ∧
      packet.write [] = some ([0x40, 3, 0, 7, 1, 0, 0], 5)) ∧
    ¬RoundTrips pubAck 7 .NoMatchingSubscribers [] := by
  have written : (V5WriteMode 7 PubAckReason.NoMatchingSubscribers false false []).write [] =
      some ([0x40, 3, 0, 7, 1, 0, 0], 5) := by
    decide +kernel
  refine ⟨⟨_, rfl, written⟩, ?_⟩
  rintro ⟨packet, frame, count, header, built, other, isFrame, _⟩
  cases built
  have same := written.symm.trans other
  cases same
  have size := isFrame.exact_length
  have parsed : parseFixedHeaderBySlice [0x40, 3, 0, 7, 1, 0, 0] = .ok ⟨0x40, 2, 3⟩ := by
    decide +kernel
  rw [isFrame.parsed] at parsed
  cases parsed
  exact absurd size (by decide)

end PubCommon

end Codec
