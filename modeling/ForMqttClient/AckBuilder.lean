import ForMqttClient.AckRoundTrip

/-!
# The builder of an acknowledgement

The properties of an acknowledgement are serialized as they are set, and two flags
stand for what is in the buffer. A reason string is written without its flag, so
the flags and the buffer agree as long as no reason string is set.
-/

namespace Codec

open MqttData ByteReader

namespace PubCommon

variable {Reason : Type}

/-! ## Calls that change the packet -/

/-- `set_reason_string` on a packet, with the packet behind the call. -/
def setReasonStringMut (packet : PubCommon Reason) (reasonString : String) :
    Except String Unit × PubCommon Reason :=
  match packet with
  | .V4 .. => (.error "should not be reached", packet)
  | .V5 .. => (.error "should not be reached", packet)
  | .V5WriteMode packetId reason hadReasonString hadUserProperties properties =>
    if hadReasonString then (.error "should not be reached", packet)
    else (.ok (), .V5WriteMode packetId reason hadReasonString hadUserProperties
      (putProperty .ReasonString writeMqttString properties reasonString))

/-- `add_user_property` on a packet, with the packet behind the call. -/
def addUserPropertyMut (packet : PubCommon Reason) (key val : String) :
    Except String Unit × PubCommon Reason :=
  match packet with
  | .V4 .. => (.error "should not be reached", packet)
  | .V5 .. => (.error "should not be reached", packet)
  | .V5WriteMode packetId reason hadReasonString _ properties =>
    (.ok (), .V5WriteMode packetId reason hadReasonString true
      (putProperty .UserProperty writeUserProperty properties (key, val)))

namespace Call

def runMut (packet : PubCommon Reason) : Call → Except String Unit × PubCommon Reason
  | .setReasonString reasonString => packet.setReasonStringMut reasonString
  | .addUserProperty key val => packet.addUserPropertyMut key val

/-- A call that fails changes nothing, and one that succeeds gives the packet of `run`. -/
theorem runMut_eq (packet : PubCommon Reason) (call : Call) :
    call.runMut packet =
      match call.run packet with
      | .ok after => (.ok (), after)
      | .error message => (.error message, packet) := by
  cases call with
  | setReasonString reasonString =>
    cases packet with
    | V4 packetId => rfl
    | V5 packetId reason text pairs => rfl
    | V5WriteMode packetId reason had user properties => cases had <;> rfl
  | addUserProperty key val => cases packet <;> rfl

/-- The strings of a call have room behind their lengths. -/
def Fits : Call → Prop
  | .setReasonString reasonString => Codec.Fits (asBytes reasonString)
  | .addUserProperty key val => Codec.Fits (asBytes key) ∧ Codec.Fits (asBytes val)

end Call

variable [Common Reason]

/-- A new packet of version 5 behind these calls. -/
def built (packetId : PacketId) (calls : List Call) : PubCommon Reason :=
  calls.foldl (fun packet call => (call.runMut packet).2) (new packetId .V5)

/-! ## What is in the buffer -/

inductive AckItem where
  | reasonString (reasonString : String)
  | userProperty (key val : String)
  deriving DecidableEq, Repr

def AckItem.isReasonString : AckItem → Bool
  | .reasonString _ => true
  | .userProperty _ _ => false

def AckItem.isUserProperty : AckItem → Bool
  | .reasonString _ => false
  | .userProperty _ _ => true

def readAckItem : Parser AckItem := do
  match ← property (← readU8) with
  | .ReasonString => return .reasonString (← readMqttString)
  | .UserProperty => return .userProperty (← readMqttString) (← readMqttString)
  | other => reject (.InvalidPropertyType other.toU8)

/-- The flags say what is in the buffer, there is one reason string at most, and a call
that returns an error leaves the packet as it is. -/
structure BuilderInvariant (packet : PubCommon Reason) : Prop where
  flags : ∃ packetId reason hadReasonString hadUserProperties properties items,
    packet = .V5WriteMode packetId reason hadReasonString hadUserProperties properties ∧
    readAll readAckItem properties = .ok (items, []) ∧
    (hadReasonString = true ↔ ∃ item ∈ items, item.isReasonString = true) ∧
    (hadUserProperties = true ↔ ∃ item ∈ items, item.isUserProperty = true) ∧
    items.countP AckItem.isReasonString ≤ 1
  unchanged : ∀ (call : Call) message, (call.runMut packet).1 = .error message →
    (call.runMut packet).2 = packet

def Call.item : Call → AckItem
  | .setReasonString reasonString => .reasonString reasonString
  | .addUserProperty key val => .userProperty key val

/-- What a call appends to the buffer. -/
def Call.bytes : Call → Bytes
  | .setReasonString reasonString => propertyBytes .ReasonString writeMqttString reasonString
  | .addUserProperty key val => propertyBytes .UserProperty writeUserProperty (key, val)

theorem readAckItem_reads {call : Call} (fits : call.Fits) :
    Reads readAckItem call.bytes call.item := by
  cases call with
  | setReasonString reasonString =>
    refine (readU8_reads PropertyType.ReasonString.toU8).bind ?_
    refine (Reads.lift (property_toU8 .ReasonString)).bind_nil ?_
    exact (readMqttString_reads fits).map AckItem.reasonString
  | addUserProperty key val =>
    refine (readU8_reads PropertyType.UserProperty.toU8).bind ?_
    refine (Reads.lift (property_toU8 .UserProperty)).bind_nil ?_
    rw [writeMqttString_eq]
    refine (readMqttString_reads fits.1).bind ?_
    exact (readMqttString_reads fits.2).map (AckItem.userProperty key)

omit [Common Reason] in
/-- The calls on a packet without the flag of a reason string all succeed. -/
theorem run_built (packetId : PacketId) (reason : Reason) (calls : List Call) :
    ∀ had properties,
      calls.foldl (fun packet call => (call.runMut packet).2)
          (.V5WriteMode packetId reason false had properties) =
        .V5WriteMode packetId reason false
          (had || calls.any fun call => call.item.isUserProperty)
          (properties ++ calls.flatMap Call.bytes) := by
  induction calls with
  | nil =>
    intro had properties
    rw [List.any_nil, Bool.or_false, List.flatMap_nil, List.append_nil]
    rfl
  | cons call calls ih =>
    intro had properties
    rw [List.foldl_cons, List.any_cons, List.flatMap_cons, ← List.append_assoc]
    cases call with
    | setReasonString reasonString =>
      have written : putProperty .ReasonString writeMqttString properties reasonString =
          properties ++ (Call.setReasonString reasonString).bytes :=
        putSome_eq writeMqttString_eq properties (some reasonString)
      rw [← written]
      exact ih had _
    | addUserProperty key val =>
      have written : putProperty .UserProperty writeUserProperty properties (key, val) =
          properties ++ (Call.addUserProperty key val).bytes :=
        putSome_eq writeUserProperty_eq properties (some (key, val))
      rw [← written, Call.item, AckItem.isUserProperty, Bool.true_or, Bool.or_true]
      exact ih true _

theorem built_eq (packetId : PacketId) (calls : List Call) :
    (built packetId calls : PubCommon Reason) = .V5WriteMode packetId Common.default false
      (calls.any fun call => call.item.isUserProperty) (calls.flatMap Call.bytes) :=
  run_built packetId Common.default calls false []

theorem parsed_of_calls {calls : List Call} (fits : ∀ call ∈ calls, call.Fits) :
    readAll readAckItem (calls.flatMap Call.bytes) = .ok (calls.map Call.item, []) := by
  refine readAll_reads (fun call => ?_) fun call member => readAckItem_reads (fits call member)
  cases call <;> exact List.cons_ne_nil _ _

/-- The buffer of a packet that was built is the list of its calls. -/
theorem flags_iff (Reason : Type) [Common Reason] (packetId : PacketId) {calls : List Call}
    (fits : ∀ call ∈ calls, call.Fits) :
    (∃ id reason had user properties items,
      (built packetId calls : PubCommon Reason) = .V5WriteMode id reason had user properties ∧
      readAll readAckItem properties = .ok (items, []) ∧
      (had = true ↔ ∃ item ∈ items, item.isReasonString = true) ∧
      (user = true ↔ ∃ item ∈ items, item.isUserProperty = true) ∧
      items.countP AckItem.isReasonString ≤ 1) ↔
    ∀ item ∈ calls.map Call.item, item.isReasonString = false := by
  have parsed := parsed_of_calls fits
  rw [built_eq]
  constructor
  · rintro ⟨id, reason, had, user, properties, items, same, read, flag, _⟩ item member
    cases same
    rw [parsed] at read
    cases read
    cases some : item.isReasonString with
    | false => rfl
    | true => exact absurd (flag.mpr ⟨item, member, some⟩) Bool.false_ne_true
  · intro bare
    refine ⟨_, _, _, _, _, _, rfl, parsed, ?_, ?_, ?_⟩
    · refine iff_of_false Bool.false_ne_true ?_
      rintro ⟨item, member, some⟩
      rw [bare item member] at some
      cases some
    · rw [← List.any_eq_true, List.any_map]
      rfl
    · rw [List.countP_eq_zero.mpr fun item member some => ?_]
      · exact Nat.zero_le 1
      · rw [bare item member] at some
        cases some

/-- Whatever is called, the flags and the buffer agree exactly if no call sets a reason
string. -/
theorem builder_invariant_iff (packetId : PacketId) {calls : List Call}
    (fits : ∀ call ∈ calls, call.Fits) :
    BuilderInvariant (built packetId calls : PubCommon Reason) ↔
      ∀ call ∈ calls, call.reasonString = none := by
  have bare : (∀ item ∈ calls.map Call.item, item.isReasonString = false) ↔
      ∀ call ∈ calls, call.reasonString = none := by
    rw [List.forall_mem_map]
    refine forall₂_congr fun call _ => ?_
    cases call with
    | setReasonString reasonString =>
      exact iff_of_false (fun same => by cases same) fun same => by cases same
    | addUserProperty key val => exact iff_of_true rfl rfl
  rw [← bare, ← flags_iff Reason packetId fits]
  refine ⟨BuilderInvariant.flags, fun flags => ⟨flags, fun call message failed => ?_⟩⟩
  rw [call.runMut_eq] at failed ⊢
  cases result : call.run (built packetId calls : PubCommon Reason) with
  | ok after =>
    rw [result] at failed
    cases failed
  | error message' => rfl

/-- Three user properties, two of them under one key. -/
def pairCalls : List Call :=
  [.addUserProperty "trace" "a1", .addUserProperty "zone" "north", .addUserProperty "trace" "b2"]

theorem builder_invariant_of_user_property :
    BuilderInvariant (built 1 pairCalls : PubCommon PubAckReason) := by
  have fits : ∀ call ∈ pairCalls, call.Fits := by
    intro call member
    simp only [pairCalls, List.mem_cons, List.not_mem_nil, or_false] at member
    rcases member with rfl | rfl | rfl <;> exact ⟨by decide, by decide⟩
  exact (builder_invariant_iff 1 fits).mpr (by decide +kernel)

/-- A second reason string is taken like the first one, and the flag stays unset. -/
theorem reason_string_twice :
    ¬BuilderInvariant
      (built 1 [.setReasonString "", .setReasonString ""] : PubCommon PubAckReason) := by
  rintro ⟨⟨id, reason, had, user, properties, items, same, read, _, _, once⟩, _⟩
  cases same
  have two : readAll readAckItem [31, 0, 0, 31, 0, 0] =
      .ok ([.reasonString "", .reasonString ""], []) := by
    decide +kernel
  rw [show readAll readAckItem [31, 0, 0, 31, 0, 0] = .ok (items, []) from read] at two
  cases two
  exact absurd once (by decide)

end PubCommon

end Codec
