import ForMqttClient.Lengths
import ForMqttClient.PacketReaders

/-!
# The decoder reaches no fault

Lengths from the wire are at most 268435455 and strings at most 65535 bytes, so
no cursor leaves a `usize`; every step that moves the stream looks at what is
left of it first; and every turn of a loop takes a byte.
-/

namespace Codec

open MqttData ByteReader

/-! ## Headers -/

/-- What a parsed header says about the stream in front of it. -/
def Framed (available : Nat) (header : FixedHeader) : Prop :=
  2 ≤ header.fixedHeaderLen ∧ header.fixedHeaderLen ≤ 5 ∧
    header.fixedHeaderLen ≤ available ∧ header.remainingLen ≤ maxLength

/-- The header with a length that was read behind its first byte. -/
def headerOf (byte1 : UInt8) (result : Nat × Nat) : FixedHeader where
  byte1 := byte1
  fixedHeaderLen := result.1 + 1
  remainingLen := result.2

theorem parseFixedHeaderBySlice_cons (byte1 byte2 : UInt8) (stream : Bytes) :
    parseFixedHeaderBySlice (byte1 :: byte2 :: stream) =
      (length (byte2 :: stream)).map (headerOf byte1) := by
  have long : ¬(byte1 :: byte2 :: stream).length < 2 := by simp
  have slice : (sliceFrom (byte1 :: byte2 :: stream) 1 : Outcome FixedHeaderError Bytes) =
      .ok (byte2 :: stream) := if_pos (by simp)
  rw [parseFixedHeaderBySlice, if_neg long]
  simp only [slice, index, List.getElem?_cons_zero, bind, Except.bind]
  cases measured : length (byte2 :: stream) with
  | error failure => rfl
  | ok result =>
    have sum : (ByteReader.add result.1 1 : Outcome FixedHeaderError Nat) =
        .ok (result.1 + 1) := by
      have few := (length_bounds measured).2.1
      exact if_pos (by simp only [usizeBits]; omega)
    simp only [FixedHeader.new, sum, bind, Except.bind]
    rfl

theorem parseFixedHeaderBySlice_safe (stream : Bytes) :
    (parseFixedHeaderBySlice stream).Safe (Framed stream.length) := by
  match stream with
  | [] => exact Outcome.safe_fail
  | [_] => exact Outcome.safe_fail
  | byte1 :: byte2 :: stream =>
    rw [parseFixedHeaderBySlice_cons]
    refine (length_safe (byte2 :: stream)).map fun result ⟨more, few, within, small⟩ => ?_
    refine ⟨Nat.succ_le_succ more, Nat.succ_le_succ few, ?_, small⟩
    exact Nat.succ_le_succ within

theorem frameLength_eq {ε : Type} {available : Nat} {header : FixedHeader}
    (framed : Framed available header) :
    (header.frameLength : Outcome ε Nat) =
      .ok (header.fixedHeaderLen + header.remainingLen) := by
  obtain ⟨_, few, _, small⟩ := framed
  simp only [maxLength] at small
  exact if_pos (by simp only [usizeBits]; omega)

/-! ## Values -/

section Values

variable (n : Nat)

theorem readU8_shrinks : Triple (Under (n + 1)) readU8 fun _ => Under n := by
  intro stream short
  cases stream with
  | nil => trivial
  | cons byte stream => exact Nat.lt_of_succ_lt_succ short

/-- A reader that takes a byte stays within any bound that held before. -/
theorem stays {α : Type} {reader : Parser α}
    (shrinks : ∀ n, Triple (Under (n + 1)) reader fun _ => Under n) :
    Triple (Under n) reader fun _ => Under n := by
  cases n with
  | zero => exact fun stream short => absurd short (Nat.not_lt_zero _)
  | succ n =>
    exact (shrinks n).weaken (fun _ short => short) fun _ _ short => Nat.lt_succ_of_lt short

theorem readU8_safe : Triple (Under n) readU8 fun _ => Under n := stays n readU8_shrinks

theorem readU16_safe : Triple (Under n) readU16 fun _ => Under n := by
  intro stream short
  match stream with
  | [] => trivial
  | [_] => trivial
  | a :: b :: stream =>
    have shorter : stream.length + 2 < n := short
    exact Nat.lt_of_le_of_lt (Nat.le_add_right _ 2) shorter

theorem readU32_safe : Triple (Under n) readU32 fun _ => Under n := by
  intro stream short
  match stream with
  | [] => trivial
  | [_] => trivial
  | [_, _] => trivial
  | [_, _, _] => trivial
  | a :: b :: c :: d :: stream =>
    have shorter : stream.length + 4 < n := short
    exact Nat.lt_of_le_of_lt (Nat.le_add_right _ 4) shorter

theorem splitTo_safe (count : Nat) :
    Triple (fun stream => count ≤ stream.length ∧ Under n stream)
      (splitTo count : Parser Bytes) fun bytes stream => bytes.length = count ∧ Under n stream := by
  intro stream ⟨within, short⟩
  rw [splitTo, if_pos within]
  refine ⟨by simp only [List.length_take]; omega, ?_⟩
  simp only [Under, List.length_drop] at short ⊢
  omega

theorem advance_safe (count : Nat) :
    Triple (fun stream => count ≤ stream.length ∧ Under n stream)
      (advance count : Parser Unit) fun _ => Under n := by
  intro stream ⟨within, short⟩
  rw [advance, if_pos within]
  simp only [Under, Outcome.Safe, List.length_drop] at short ⊢
  omega

theorem readMqttBytes_safe :
    Triple (Under n) readMqttBytes fun bytes stream => bytes.length ≤ 65535 ∧ Under n stream := by
  refine (readU16_safe n).bind fun len stream short => ?_
  have small : len.toNat ≤ 65535 := by
    have bound := len.toNat_lt
    omega
  change Outcome.Safe ((if len.toNat > stream.length then reject _ else splitTo len.toNat) stream) _
  by_cases crossed : len.toNat > stream.length
  · rw [if_pos crossed]
    trivial
  · rw [if_neg crossed]
    refine (splitTo_safe n len.toNat stream ⟨by omega, short⟩).imp fun result holds => ?_
    exact ⟨by omega, holds.2⟩

theorem readMqttString_safe :
    Triple (Under n) readMqttString fun s stream => strLen s ≤ 65535 ∧ Under n stream := by
  refine (readMqttBytes_safe n).bind fun bytes stream ⟨small, short⟩ => ?_
  cases text : fromUtf8 bytes with
  | none => trivial
  | some s =>
    refine ⟨?_, short⟩
    rw [strLen, asBytes_fromUtf8 text]
    exact small

theorem add_safe {a b : Nat} {pre : Bytes → Prop} (bound : a + b < 2 ^ usizeBits) :
    Triple pre (Reader.add a b : Parser Nat) fun sum stream => sum = a + b ∧ pre stream := by
  intro stream start
  simp only [Reader.add, ByteReader.add, if_pos bound, bind, Except.bind]
  exact ⟨rfl, start⟩

theorem peekLength_safe :
    Triple (Under n) peekLength fun result stream =>
      Measured stream.length result ∧ Under n stream := by
  intro stream short
  have safe := length_safe stream
  change Outcome.Safe (orParseError (length stream) >>= fun result => .ok (result, stream)) _
  cases measured : length stream with
  | ok result => exact ⟨length_bounds measured, short⟩
  | error failure =>
    rw [measured] at safe
    cases failure with
    | error err => trivial
    | fault fault => exact safe

end Values

/-! ## Properties -/

section Properties

variable {α : Type}

/-- A turn of a property loop, begun while the cursor is in the properties. -/
def TurnSafe (turn : UInt8 → α → Nat → Parser (α × Nat)) : Prop :=
  ∀ prop acc cursor n, cursor ≤ maxLength →
    Triple (Under n) (turn prop acc cursor) fun _ => Under n

variable {cursor : Nat} (n : Nat)

/-- The last step of every turn, with the cursor behind a value of `size` bytes. -/
theorem moved_safe (value : α) {size : Nat} (inside : cursor ≤ maxLength)
    (fits : size ≤ 1000000) :
    Triple (Under n) (do
      let cursor ← Reader.add cursor size
      return (value, cursor) : Parser (α × Nat)) fun _ => Under n := by
  simp only [maxLength] at inside
  refine (add_safe (by simp only [usizeBits]; omega)).bind fun sum => ?_
  exact Triple.pure fun _ holds => holds.2

theorem takeU8_safe (set : UInt8 → α) (inside : cursor ≤ maxLength) :
    Triple (Under n) (takeU8 set cursor) fun _ => Under n :=
  (readU8_safe n).bind fun value => moved_safe n (set value) inside (by omega)

theorem takeU16_safe (set : UInt16 → α) (inside : cursor ≤ maxLength) :
    Triple (Under n) (takeU16 set cursor) fun _ => Under n :=
  (readU16_safe n).bind fun value => moved_safe n (set value) inside (by omega)

theorem takeU32_safe (set : UInt32 → α) (inside : cursor ≤ maxLength) :
    Triple (Under n) (takeU32 set cursor) fun _ => Under n :=
  (readU32_safe n).bind fun value => moved_safe n (set value) inside (by omega)

theorem takeBytes_safe (set : Bytes → α) (inside : cursor ≤ maxLength) :
    Triple (Under n) (takeBytes set cursor) fun _ => Under n := by
  refine (readMqttBytes_safe n).bind fun data => Triple.of_value fun small => ?_
  refine (add_safe (by simp only [usizeBits]; omega)).bind fun size => ?_
  exact Triple.of_value fun counted => moved_safe n (set data) inside (by omega)

theorem takeString_safe (set : String → α) (inside : cursor ≤ maxLength) :
    Triple (Under n) (takeString set cursor) fun _ => Under n := by
  refine (readMqttString_safe n).bind fun s => Triple.of_value fun small => ?_
  refine (add_safe (by simp only [usizeBits]; omega)).bind fun size => ?_
  exact Triple.of_value fun counted => moved_safe n (set s) inside (by omega)

theorem takeUserProperty_safe (set : String × String → α) (inside : cursor ≤ maxLength) :
    Triple (Under n) (takeUserProperty set cursor) fun _ => Under n := by
  refine (readMqttString_safe n).bind fun key => Triple.of_value fun keySmall => ?_
  refine (readMqttString_safe n).bind fun value => Triple.of_value fun valueSmall => ?_
  refine (add_safe (by simp only [usizeBits]; omega)).bind fun a => Triple.of_value fun ha => ?_
  refine (add_safe (by simp only [usizeBits]; omega)).bind fun b => Triple.of_value fun hb => ?_
  refine (add_safe (by simp only [usizeBits]; omega)).bind fun size => ?_
  exact Triple.of_value fun hsize => moved_safe n (set (key, value)) inside (by omega)

theorem property_safe (prop : UInt8) : (property prop).Safe fun _ => True := by
  unfold property
  split <;> trivial

/-- A turn that looks its property up goes on in one of the ways above. -/
theorem turn_safe {next : PropertyType → Parser (α × Nat)} (prop : UInt8)
    (each : ∀ type, Triple (Under n) (next type) fun _ => Under n) :
    Triple (Under n) (liftM (property prop) >>= next) fun _ => Under n :=
  (Triple.lift (property_safe prop)).bind fun type => Triple.of_value fun _ => each type

theorem readProperties_safe {turn : UInt8 → α → Nat → Parser (α × Nat)} (empty : α)
    (safe : TurnSafe turn) :
    Triple (Under n) (readProperties turn empty) fun _ => Under n := by
  refine (peekLength_safe n).bind fun result => ?_
  suffices rest : result.2 ≤ maxLength → Triple
      (fun stream => result.1 ≤ stream.length ∧ Under n stream) _ fun _ => Under n by
    intro stream start
    obtain ⟨⟨_, _, within, small⟩, short⟩ := start
    exact rest small stream ⟨within, short⟩
  intro small
  refine (advance_safe n result.1).bind fun _ => ?_
  refine Triple.ite (fun _ => Triple.pure fun _ short => short) fun _ => ?_
  refine Triple.bind (Triple.whileBelow (fun acc cursor m below => ?_) n empty 0)
    fun properties => Triple.pure fun _ short => short
  refine (readU8_shrinks m).bind fun prop => ?_
  refine (add_safe (by simp only [usizeBits, maxLength] at *; omega)).bind fun next => ?_
  exact Triple.of_value fun here => safe prop acc next m (by omega)

end Properties

theorem PublishProperties.takeSubscriptionIdentifier_safe (n : Nat) (p : PublishProperties)
    {cursor : Nat} (inside : cursor ≤ maxLength) :
    Triple (Under n) (takeSubscriptionIdentifier p cursor) fun _ => Under n := by
  simp only [maxLength] at inside
  refine (peekLength_safe n).bind fun result => ?_
  suffices rest : result.1 ≤ 4 → Triple
      (fun stream => result.1 ≤ stream.length ∧ Under n stream) _ fun _ => Under n by
    intro stream start
    obtain ⟨⟨_, few, within, _⟩, short⟩ := start
    exact rest few stream ⟨within, short⟩
  intro few
  refine (add_safe (a := 1) (b := result.1) (by simp only [usizeBits]; omega)).bind
    fun size => Triple.of_value fun counted => ?_
  refine (add_safe (by simp only [usizeBits]; omega)).bind fun sum => Triple.of_value fun _ => ?_
  exact (advance_safe n result.1).bind fun _ => Triple.pure fun _ short => short

theorem PublishProperties.turnSafe : TurnSafe PublishProperties.turn := by
  intro prop p cursor n inside
  refine turn_safe n prop fun type => ?_
  cases type with
  | PayloadFormatIndicator => exact takeU8_safe n _ inside
  | MessageExpiryInterval => exact takeU32_safe n _ inside
  | TopicAlias => exact takeU16_safe n _ inside
  | ResponseTopic => exact takeString_safe n _ inside
  | CorrelationData => exact takeBytes_safe n _ inside
  | UserProperty => exact takeUserProperty_safe n _ inside
  | SubscriptionIdentifier => exact takeSubscriptionIdentifier_safe n p inside
  | ContentType => exact takeString_safe n _ inside
  | _ => exact Triple.reject

theorem ConnAckProperties.turnSafe : TurnSafe ConnAckProperties.turn := by
  intro prop p cursor n inside
  refine turn_safe n prop fun type => ?_
  cases type with
  | SessionExpiryInterval => exact takeU32_safe n _ inside
  | ReceiveMaximum => exact takeU16_safe n _ inside
  | MaximumQos => exact takeU8_safe n _ inside
  | RetainAvailable => exact takeU8_safe n _ inside
  | AssignedClientIdentifier => exact takeString_safe n _ inside
  | MaximumPacketSize => exact takeU32_safe n _ inside
  | TopicAliasMaximum => exact takeU16_safe n _ inside
  | ReasonString => exact takeString_safe n _ inside
  | UserProperty => exact takeUserProperty_safe n _ inside
  | WildcardSubscriptionAvailable => exact takeU8_safe n _ inside
  | SubscriptionIdentifierAvailable => exact takeU8_safe n _ inside
  | SharedSubscriptionAvailable => exact takeU8_safe n _ inside
  | ServerKeepAlive => exact takeU16_safe n _ inside
  | ResponseInformation => exact takeString_safe n _ inside
  | ServerReference => exact takeString_safe n _ inside
  | AuthenticationMethod => exact takeString_safe n _ inside
  | AuthenticationData => exact takeBytes_safe n _ inside
  | _ => exact Triple.reject

theorem PubCommon.turnSafe : TurnSafe PubCommon.turn := by
  intro prop p cursor n inside
  unfold PubCommon.turn
  split
  · exact takeString_safe n _ inside
  · exact takeUserProperty_safe n _ inside
  · exact Triple.reject

theorem AckProperties.turnSafe : TurnSafe AckProperties.turn := by
  intro prop p cursor n inside
  refine turn_safe n prop fun type => ?_
  cases type with
  | ReasonString => exact takeString_safe n _ inside
  | UserProperty => exact takeUserProperty_safe n _ inside
  | _ => exact Triple.reject

theorem DisconnectProperties.turnSafe : TurnSafe DisconnectProperties.turn := by
  intro prop p cursor n inside
  refine turn_safe n prop fun type => ?_
  cases type with
  | SessionExpiryInterval => exact takeU32_safe n _ inside
  | ReasonString => exact takeString_safe n _ inside
  | UserProperty => exact takeUserProperty_safe n _ inside
  | ServerReference => exact takeString_safe n _ inside
  | _ => exact Triple.reject

/-! ## Packets -/

/-- No fault on any frame that is as long as its header. -/
def ReaderSafe {α : Type} (fixedHeader : FixedHeader) (reader : Parser α) : Prop :=
  Triple (fun stream => fixedHeader.fixedHeaderLen ≤ stream.length) reader fun _ _ => True

/-- Behind the header, a reader that keeps within the bytes is safe. -/
theorem readerSafe_advance {α : Type} {fixedHeader : FixedHeader} {next : Parser α}
    (body : ∀ n, Triple (Under n) next fun _ _ => True) :
    ReaderSafe fixedHeader (do advance fixedHeader.fixedHeaderLen; next) := by
  intro stream long
  have start : Under (stream.length + 1) stream := Nat.lt_succ_self _
  exact Triple.bind (advance_safe _ _) (fun _ => body _) stream ⟨long, start⟩

section Packets

variable (fixedHeader : FixedHeader) (version : Protocol)

theorem qos_safe (num : UInt8) : (qos num).Safe fun _ => True := by
  unfold qos
  split <;> trivial

theorem Publish.readPacketId_safe (n : Nat) (qos : QoS) :
    Triple (Under n) (Publish.readPacketId qos) fun _ => Under n := by
  cases qos with
  | AtMostOnce => exact Triple.pure fun _ short => short
  | AtLeastOnce => exact (readU16_safe n).bind fun _ => Triple.pure fun _ short => short
  | ExactlyOnce => exact (readU16_safe n).bind fun _ => Triple.pure fun _ short => short

theorem Publish.readProperties_safe (n : Nat) :
    Triple (Under n) (Publish.readProperties version) fun _ => Under n := by
  cases version with
  | V4 => exact Triple.pure fun _ short => short
  | V5 => exact Codec.readProperties_safe n _ PublishProperties.turnSafe

theorem Publish.read_safe : ReaderSafe fixedHeader (Publish.read fixedHeader version) := by
  refine (Triple.lift (qos_safe _)).bind fun qos => Triple.of_value fun _ => ?_
  refine readerSafe_advance fun n => ?_
  refine (readMqttString_safe n).bind fun topic => Triple.of_value fun _ => ?_
  refine (readPacketId_safe n qos).bind fun qos => ?_
  exact (readProperties_safe version n).bind fun properties => fun _ _ => trivial

theorem connectReturnV3_safe (num : UInt8) : (connectReturnV3 num).Safe fun _ => True := by
  unfold connectReturnV3
  split <;> trivial

theorem connectReturnV5_safe (num : UInt8) : (connectReturnV5 num).Safe fun _ => True := by
  unfold connectReturnV5
  split <;> trivial

/-- A last step that looks a code up. -/
theorem looked_safe {α β : Type} {pre : Bytes → Prop} {code : Outcome PacketParseError α}
    (safe : code.Safe fun _ => True) (result : α → β) :
    Triple pre (liftM code >>= fun value => pure (result value) : Parser β) fun _ _ => True :=
  (Triple.lift safe).bind fun _ => Triple.pure fun _ _ => trivial

theorem ConnAck.read_safe : ReaderSafe fixedHeader (ConnAck.read fixedHeader version) := by
  refine readerSafe_advance fun n => ?_
  refine (readU8_safe n).bind fun flags => (readU8_safe n).bind fun returnCode => ?_
  cases version with
  | V4 => exact looked_safe (connectReturnV3_safe returnCode) _
  | V5 =>
    refine (readProperties_safe n _ ConnAckProperties.turnSafe).bind fun properties => ?_
    exact looked_safe (connectReturnV5_safe returnCode) _

/-- What the four reason types have in common. -/
class LawfulCommon (Reason : Type) [Common Reason] : Prop where
  reason_safe : ∀ num, (Common.reason num : Outcome PacketParseError Reason).Safe fun _ => True
  success_iff : ∀ reason : Reason, Common.isSuccess reason = true ↔ reason = Common.default

instance : LawfulCommon PubAckReason where
  reason_safe num := by
    simp only [Common.reason]
    split <;> trivial
  success_iff _ := decide_eq_true_iff

instance : LawfulCommon PubRecReason where
  reason_safe num := by
    simp only [Common.reason]
    split <;> trivial
  success_iff _ := decide_eq_true_iff

instance : LawfulCommon PubRelReason where
  reason_safe num := by
    simp only [Common.reason]
    split <;> trivial
  success_iff _ := decide_eq_true_iff

instance : LawfulCommon PubCompReason where
  reason_safe num := by
    simp only [Common.reason]
    split <;> trivial
  success_iff _ := decide_eq_true_iff

theorem PubCommon.readProperties_safe (n : Nat) :
    Triple (Under n) PubCommon.readProperties fun _ => Under n := by
  unfold PubCommon.readProperties
  exact Codec.readProperties_safe n AckProperties.empty PubCommon.turnSafe

theorem PubCommon.read_safe {Reason : Type} [Common Reason] [LawfulCommon Reason] :
    ReaderSafe fixedHeader (PubCommon.read fixedHeader version : Parser (PubCommon Reason)) := by
  refine readerSafe_advance fun n => (readU16_safe n).bind fun packetId => ?_
  cases version with
  | V4 => exact Triple.ite (fun _ => Triple.pure fun _ _ => trivial) fun _ => Triple.reject
  | V5 =>
    refine Triple.ite (fun _ => Triple.pure fun _ _ => trivial) fun _ => ?_
    refine (readU8_safe n).bind fun ackReason => ?_
    refine Triple.ite (fun _ => looked_safe (LawfulCommon.reason_safe ackReason) _) fun _ => ?_
    refine (readProperties_safe n).bind fun properties => ?_
    cases properties with
    | none => exact looked_safe (LawfulCommon.reason_safe ackReason) _
    | some properties => exact looked_safe (LawfulCommon.reason_safe ackReason) _

theorem readReturnCodes_safe {α : Type} {reason : UInt8 → Outcome PacketParseError α}
    (safe : ∀ num, (reason num).Safe fun _ => True) (pre : Bytes → Prop) :
    Triple pre (readReturnCodes reason) fun _ _ => True := by
  refine Triple.remaining.bind fun count => ?_
  refine Triple.ite (fun _ => Triple.reject) fun _ => ?_
  refine (Triple.whileRemaining (fun codes n => ?_) _ []).weaken (fun _ start => start)
    fun _ _ _ => trivial
  refine ((readU8_shrinks n).weaken (fun _ start => start.2) fun _ _ short => short).bind
    fun returnCode => ?_
  refine (Triple.lift (safe returnCode)).bind fun code => ?_
  exact Triple.pure fun _ start => start.2

theorem SubAck.reasonForV4_safe (code : UInt8) : (reasonForV4 code).Safe fun _ => True := by
  unfold reasonForV4
  split <;> trivial

theorem SubAck.reasonForV5_safe (code : UInt8) : (reasonForV5 code).Safe fun _ => True := by
  unfold reasonForV5
  split <;> trivial

theorem SubAck.read_safe : ReaderSafe fixedHeader (SubAck.read fixedHeader version) := by
  refine readerSafe_advance fun n => (readU16_safe n).bind fun packetId => ?_
  cases version with
  | V4 =>
    refine (readReturnCodes_safe reasonForV4_safe _).bind fun codes => ?_
    exact Triple.pure fun _ _ => trivial
  | V5 =>
    refine (readProperties_safe n _ AckProperties.turnSafe).bind fun properties => ?_
    refine (readReturnCodes_safe reasonForV5_safe _).bind fun codes => ?_
    exact Triple.pure fun _ _ => trivial

theorem UnsubAck.reasonForV5_safe (num : UInt8) : (reasonForV5 num).Safe fun _ => True := by
  unfold reasonForV5
  split <;> trivial

theorem UnsubAck.read_safe : ReaderSafe fixedHeader (UnsubAck.read fixedHeader version) := by
  refine readerSafe_advance fun n => (readU16_safe n).bind fun packetId => ?_
  cases version with
  | V4 => exact Triple.pure fun _ _ => trivial
  | V5 =>
    refine (readProperties_safe n _ AckProperties.turnSafe).bind fun properties => ?_
    refine (readReturnCodes_safe reasonForV5_safe _).bind fun codes => ?_
    exact Triple.pure fun _ _ => trivial

theorem DisconnectReasonCode.tryFrom_safe (value : UInt8) :
    (tryFrom value).Safe fun _ => True := by
  unfold tryFrom
  split <;> trivial

theorem Disconnect.read_safe : ReaderSafe fixedHeader (Disconnect.read fixedHeader version) := by
  refine readerSafe_advance fun n => ?_
  refine Triple.ite (fun _ => Triple.reject) fun _ => ?_
  refine Triple.ite (fun _ => Triple.reject) fun _ => ?_
  cases version with
  | V4 => exact Triple.pure fun _ _ => trivial
  | V5 =>
    refine Triple.ite (fun _ => Triple.pure fun _ _ => trivial) fun _ => ?_
    refine (readU8_safe n).bind fun reasonCode => ?_
    refine (Triple.lift (DisconnectReasonCode.tryFrom_safe reasonCode)).bind fun reasonCode => ?_
    refine Triple.of_value fun _ => ?_
    refine (readProperties_safe n _ DisconnectProperties.turnSafe).bind fun properties => ?_
    exact Triple.pure fun _ _ => trivial

theorem FixedHeader.packetType_safe : fixedHeader.packetType.Safe fun _ => True := by
  simp only [FixedHeader.packetType]
  split <;> trivial

/-- A packet in its constructor. -/
theorem wrapped_safe {α β : Type} {pre : Bytes → Prop} {reader : Parser α}
    (safe : Triple pre reader fun _ _ => True) (wrap : α → β) :
    Triple pre (reader >>= fun value => pure (wrap value)) fun _ _ => True :=
  safe.bind fun _ => Triple.pure fun _ _ => trivial

theorem readPacket_safe : ReaderSafe fixedHeader (readPacket fixedHeader version) := by
  refine (Triple.lift (FixedHeader.packetType_safe fixedHeader)).bind fun packetType => ?_
  refine Triple.of_value fun _ => ?_
  cases packetType with
  | ConnAck => exact wrapped_safe (ConnAck.read_safe fixedHeader version) _
  | Publish => exact wrapped_safe (Publish.read_safe fixedHeader version) _
  | PubAck => exact wrapped_safe (PubCommon.read_safe fixedHeader version) _
  | PubRec => exact wrapped_safe (PubCommon.read_safe fixedHeader version) _
  | PubRel => exact wrapped_safe (PubCommon.read_safe fixedHeader version) _
  | PubComp => exact wrapped_safe (PubCommon.read_safe fixedHeader version) _
  | SubAck => exact wrapped_safe (SubAck.read_safe fixedHeader version) _
  | UnsubAck => exact wrapped_safe (UnsubAck.read_safe fixedHeader version) _
  | PingResp => exact Triple.pure fun _ _ => trivial
  | Disconnect =>
    cases version with
    | V4 => exact Triple.reject
    | V5 => exact wrapped_safe (Disconnect.read_safe fixedHeader .V5) _
  | _ => exact Triple.reject

end Packets

/-! ## The buffer -/

/-- The size of the frame that a header announces. -/
def FixedHeader.total (header : FixedHeader) : Nat :=
  header.fixedHeaderLen + header.remainingLen

theorem parsed_framed {stream : Bytes} {header : FixedHeader}
    (parsed : parseFixedHeaderBySlice stream = .ok header) : Framed stream.length header := by
  have safe := parseFixedHeaderBySlice_safe stream
  rw [parsed] at safe
  exact safe

section Buffer

variable {stream : Bytes} {header : FixedHeader}

theorem readFromNetwork_cut {err : FixedHeaderError} (version : Protocol)
    (parsed : parseFixedHeaderBySlice stream = fail err) (kept : err.toDiscard = false) :
    readFromNetwork stream version = (fail err.into, stream) := by
  simp only [readFromNetwork, parsed, fail, kept]
  rfl

theorem readFromNetwork_discard (version : Protocol)
    (parsed : parseFixedHeaderBySlice stream = fail .MalformedRemainingLength) :
    readFromNetwork stream version = (fail .MalformedRemainingLength, []) := by
  simp only [readFromNetwork, parsed, fail, splitTo, if_pos (Nat.le_refl _), List.drop_length]
  rfl

theorem readFromNetwork_wait (version : Protocol)
    (parsed : parseFixedHeaderBySlice stream = .ok header)
    (short : stream.length < header.total) :
    readFromNetwork stream version = (.ok none, stream) := by
  have long : header.fixedHeaderLen + header.remainingLen > stream.length := short
  simp only [readFromNetwork, parsed, frameLength_eq (parsed_framed parsed), if_pos long]

/-- What the reader makes of a whole frame. -/
def decodeFrame (version : Protocol) (header : FixedHeader) (frame : Bytes) :
    Outcome PacketParseError Packet :=
  (readPacket header version frame).map Prod.fst

theorem readFromNetwork_frame (version : Protocol)
    (parsed : parseFixedHeaderBySlice stream = .ok header)
    (whole : header.total ≤ stream.length) :
    readFromNetwork stream version =
      ((decodeFrame version header (stream.take header.total)).map some,
        stream.drop header.total) := by
  have within : ¬header.fixedHeaderLen + header.remainingLen > stream.length :=
    Nat.not_lt.mpr whole
  simp only [readFromNetwork, parsed, frameLength_eq (parsed_framed parsed), splitTo]
  rw [if_neg within, if_pos (Nat.not_lt.mp within)]
  simp only [decodeFrame, FixedHeader.total]
  cases readPacket header version (stream.take (header.fixedHeaderLen + header.remainingLen)) with
  | ok result => rfl
  | error failure => rfl

theorem decodeFrame_safe (version : Protocol) (header : FixedHeader) {frame : Bytes}
    (long : header.fixedHeaderLen ≤ frame.length) :
    (decodeFrame version header frame).Safe fun _ => True :=
  (readPacket_safe header version frame long).map fun _ _ => trivial

/-- A packet that is decoded has been read, with what its reader leaves of the frame. -/
theorem read_of_decoded {version : Protocol} {frame : Bytes} {packet : Packet}
    (decoded : decodeFrame version header frame = .ok packet) :
    ∃ rest, readPacket header version frame = .ok (packet, rest) := by
  rw [decodeFrame] at decoded
  cases read : readPacket header version frame with
  | ok taken =>
    rw [read] at decoded
    cases decoded
    exact ⟨taken.2, rfl⟩
  | error failure =>
    rw [read] at decoded
    cases decoded

/-- What stands at the front of a buffer: a part of a header, a header that is not well
formed, a part of a frame, or a frame. -/
inductive Begins (stream : Bytes) : Prop where
  | cut (size : Nat) (parsed : parseFixedHeaderBySlice stream = fail (.InsufficientBytes size))
  | malformed (parsed : parseFixedHeaderBySlice stream = fail .MalformedRemainingLength)
  | part (header : FixedHeader) (parsed : parseFixedHeaderBySlice stream = .ok header)
      (short : stream.length < header.total)
  | frame (header : FixedHeader) (parsed : parseFixedHeaderBySlice stream = .ok header)
      (whole : header.total ≤ stream.length)

theorem begins (stream : Bytes) : Begins stream := by
  cases parsed : parseFixedHeaderBySlice stream with
  | error failure =>
    have safe := parseFixedHeaderBySlice_safe stream
    rw [parsed] at safe
    cases failure with
    | fault fault => exact safe.elim
    | error err =>
      cases err with
      | InsufficientBytes size => exact .cut size parsed
      | MalformedRemainingLength => exact .malformed parsed
  | ok header =>
    by_cases whole : header.total ≤ stream.length
    · exact .frame header parsed whole
    · exact .part header parsed (Nat.not_le.mp whole)

end Buffer

theorem readFromNetwork_safe (stream : Bytes) (version : Protocol) :
    (readFromNetwork stream version).1.Safe fun _ => True := by
  cases begins stream with
  | cut size parsed =>
    rw [readFromNetwork_cut version parsed rfl]
    exact Outcome.safe_fail
  | malformed parsed =>
    rw [readFromNetwork_discard version parsed]
    exact Outcome.safe_fail
  | part header parsed short =>
    rw [readFromNetwork_wait version parsed short]
    trivial
  | frame header parsed whole =>
    obtain ⟨_, _, within, _⟩ := parsed_framed parsed
    rw [readFromNetwork_frame version parsed whole]
    refine (decodeFrame_safe version header ?_).map fun _ _ => trivial
    rw [List.length_take, FixedHeader.total]
    omega

/-- On every buffer the reader comes to an end, and on the way it reaches no fault. -/
theorem readFromNetwork_reaches_no_fault (stream : Bytes) (version : Protocol) (fault : Fault) :
    (readFromNetwork stream version).1 ≠ .error (.fault fault) :=
  (readFromNetwork_safe stream version).no_fault fault

end Codec
