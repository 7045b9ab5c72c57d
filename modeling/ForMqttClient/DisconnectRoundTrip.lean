import ForMqttClient.FieldRoundTrips
import ForMqttClient.Frames

/-!
# DISCONNECT read back

The writer of a DISCONNECT of version 5 has three forms: the short one, the one
with a reason code only and the full one. The computed length 2 stands for the
short form, and it is also the length of a full one without properties; and the
form with a reason code only is one byte longer than computed. So a packet is
read back if it is the short form or has some property.
-/

namespace Codec

open MqttData ByteReader

namespace DisconnectProperties

/-! ## The encoded properties -/

/-- All properties, without the length in front of them. -/
def encoded (p : DisconnectProperties) : Bytes :=
  someBytes .SessionExpiryInterval putU32 p.sessionExpiryInterval ++
  someBytes .ReasonString writeMqttString p.reasonString ++
  p.userProperties.flatMap (propertyBytes .UserProperty writeUserProperty) ++
  someBytes .ServerReference writeMqttString p.serverReference

theorem write_eq (p : DisconnectProperties) (buffer : Bytes) :
    write p buffer = buffer ++ (encodedLength (len p) ++ encoded p) := by
  simp only [write, writeRemainingLength_eq, putSome_eq putU32_eq,
    putSome_eq writeMqttString_eq, foldl_putProperty_eq writeUserProperty_eq, encoded,
    List.append_assoc]

/-- `len` is the length of what is written. -/
theorem encoded_length (p : DisconnectProperties) : (encoded p).length = len p := by
  simp only [encoded, len, List.length_append, userProperties_length,
    someBytes_length longword_size, someBytes_length string_size]

theorem len_eq_zero (p : DisconnectProperties) : len p = 0 ↔ p = empty := by
  constructor
  · intro zero
    simp only [len, Nat.add_eq_zero_iff] at zero
    obtain ⟨⟨⟨expiry, reason⟩, pairs⟩, reference⟩ := zero
    have noExpiry := someLen_eq_zero (fun _ => by omega) expiry
    have noReason := someLen_eq_zero (fun _ => by omega) reason
    have noPairs := sum_map_eq_zero userPropertyLen_pos pairs
    have noReference := someLen_eq_zero (fun _ => by omega) reference
    obtain ⟨_, _, _, _⟩ := p
    simp only at noExpiry noReason noPairs noReference
    subst noExpiry noReason noPairs noReference
    rfl
  · rintro rfl
    rfl

/-! ## The property loop -/

/-- What the length fields have room for. -/
structure Encodable (p : DisconnectProperties) : Prop where
  reason_string : ∀ reason, p.reasonString = some reason → Fits (asBytes reason)
  user_properties : ∀ pair ∈ p.userProperties, Fits (asBytes pair.1) ∧ Fits (asBytes pair.2)
  server_reference : ∀ reference, p.serverReference = some reference → Fits (asBytes reference)

/-- One property after another. -/
theorem encoded_counts {p : DisconnectProperties} (encodable : Encodable p) {bound : Nat}
    (small : bound ≤ maxLength) : Counts (propertyTurn turn) bound empty (encoded p) p := by
  let upTo1 := { empty with sessionExpiryInterval := p.sessionExpiryInterval }
  let upTo2 := { upTo1 with reasonString := p.reasonString }
  let upTo3 := { upTo2 with userProperties := p.userProperties }
  have first : Counts (propertyTurn turn) bound empty
      (someBytes .SessionExpiryInterval putU32 p.sessionExpiryInterval) upTo1 := by
    refine counts_field (fun value => { empty with sessionExpiryInterval := value }) small ?_
    intro v _ cursor inside
    exact lookup_reads (takeU32_takes _ v cursor inside)
  have second : Counts (propertyTurn turn) bound upTo1
      (someBytes .ReasonString writeMqttString p.reasonString) upTo2 := by
    refine counts_field (fun value => { upTo1 with reasonString := value }) small ?_
    intro reason value cursor inside
    have fits := encodable.reason_string reason value
    exact lookup_reads (takeString_takes _ fits cursor inside)
  have third : Counts (propertyTurn turn) bound upTo2
      (p.userProperties.flatMap (propertyBytes .UserProperty writeUserProperty)) upTo3 := by
    refine counts_repeated (fun pairs => { upTo2 with userProperties := pairs }) small [] ?_
    intro before pair member cursor inside
    have fits := encodable.user_properties pair member
    exact lookup_reads (takeUserProperty_takes _ fits.1 fits.2 cursor inside)
  have fourth : Counts (propertyTurn turn) bound upTo3
      (someBytes .ServerReference writeMqttString p.serverReference) p := by
    refine counts_field (fun value => { upTo3 with serverReference := value }) small ?_
    intro reference value cursor inside
    have fits := encodable.server_reference reference value
    exact lookup_reads (takeString_takes _ fits cursor inside)
  exact ((first.trans second).trans third).trans fourth

/-- The properties are read back, none where no field is present. -/
theorem extract_reads {p : DisconnectProperties} (encodable : Encodable p)
    (small : len p ≤ maxLength) :
    Reads extract (encodedLength (len p) ++ encoded p) (if p = empty then none else some p) :=
  readProperties_reads (encoded_length p) small (len_eq_zero p) (encoded_counts encodable small)

end DisconnectProperties

namespace Disconnect

/-! ## The three forms -/

/-- What the length fields have room for. -/
structure Writable (reasonCode : DisconnectReasonCode)
    (properties : Option DisconnectProperties) : Prop where
  encodable : ∀ p, properties = some p → DisconnectProperties.Encodable p
  room : len (.V5 reasonCode properties) ≤ maxLength

/-- Properties without a field are not told from none. -/
def present (properties : Option DisconnectProperties) : Option DisconnectProperties :=
  properties.filter (· ≠ .empty)

theorem write_short {reasonCode : DisconnectReasonCode}
    {properties : Option DisconnectProperties} (short : len (.V5 reasonCode properties) = 2)
    (buffer : Bytes) : write (.V5 reasonCode properties) buffer = (buffer ++ [0xE0, 0x00], 2) := by
  simp only [write, short, if_pos, putU8, List.append_assoc]
  rfl

/-- A packet with some property is written in full. -/
theorem write_full (reasonCode : DisconnectReasonCode) {p : DisconnectProperties}
    (different : p ≠ .empty) (buffer : Bytes) :
    let body := reasonCode.toU8 :: (encodedLength p.len ++ p.encoded)
    len (.V5 reasonCode (some p)) = 1 + (lenLen p.len + p.len) ∧
      write (.V5 reasonCode (some p)) buffer =
        (buffer ++ 0xE0 :: (encodedLength (len (.V5 reasonCode (some p))) ++ body),
          1 + (encodedLength (len (.V5 reasonCode (some p)))).length +
            len (.V5 reasonCode (some p))) := by
  have size : len (.V5 reasonCode (some p)) = 1 + (lenLen p.len + p.len) := if_neg (by simp)
  have long : len (.V5 reasonCode (some p)) ≠ 2 := by
    have some := mt p.len_eq_zero.mp different
    have width := lenLen_pos p.len
    omega
  refine ⟨size, ?_⟩
  simp only [write, if_neg long, writeRemainingLength_eq, putU8, DisconnectProperties.write_eq,
    List.append_assoc, List.cons_append, List.nil_append]

/-- A reason code alone is followed by a byte that the length leaves out. -/
theorem write_code_only {reasonCode : DisconnectReasonCode}
    (other : reasonCode ≠ .NormalDisconnection) :
    write (.V5 reasonCode none) [] = ([0xE0, 1, reasonCode.toU8, 0], 3) := by
  have size : len (.V5 reasonCode none) = 1 := if_neg fun both => other both.1
  have one : encodedLength 1 = [1] := by decide +kernel
  have zero : encodedLength 0 = [0] := by decide +kernel
  simp only [write, size, writeRemainingLength_eq, one, zero, putU8]
  rfl

/-! ## The reader -/

theorem tryFrom_toU8 (reasonCode : DisconnectReasonCode) :
    DisconnectReasonCode.tryFrom reasonCode.toU8 = .ok reasonCode := by
  cases reasonCode <;> rfl

theorem header_packetType (measured : Nat × Nat) :
    (headerOf 0xE0 measured).packetType = .ok .Disconnect := by
  have num : ((0xE0 : UInt8) >>> 4).toNat = 14 := by decide
  simp only [FixedHeader.packetType, headerOf, num]

/-- A reason code and properties behind the header. -/
theorem readPacket_full (reasonCode : DisconnectReasonCode) {p : DisconnectProperties}
    (encodable : p.Encodable) (different : p ≠ .empty) {n : Nat} (small : n ≤ maxLength)
    (inside : p.len ≤ n) :
    readPacket (headerOf 0xE0 (lenLen n, n)) .V5
        (0xE0 :: (encodedLength n ++ reasonCode.toU8 :: (encodedLength p.len ++ p.encoded))) =
      .ok (.Disconnect (.V5 reasonCode (some p)), []) := by
  have some := mt p.len_eq_zero.mp different
  have type : ¬(headerOf 0xE0 (lenLen n, n)).byte1 >>> 4 ≠ PacketType.toU8 .Disconnect := by
    change ¬(0xE0 : UInt8) >>> 4 ≠ 14
    decide
  have flags : ¬(headerOf 0xE0 (lenLen n, n)).byte1 &&& 0b00001111 ≠ 0 := by
    change ¬(0xE0 : UInt8) &&& 0b00001111 ≠ 0
    decide
  have properties : DisconnectProperties.extract (encodedLength p.len ++ p.encoded) =
      .ok (Option.some p, []) := by
    have reads := DisconnectProperties.extract_reads encodable (Nat.le_trans inside small) []
    rw [List.append_nil, if_neg different] at reads
    exact reads
  have code := readU8_reads reasonCode.toU8 (encodedLength p.len ++ p.encoded)
  have read : read (headerOf 0xE0 (lenLen n, n)) .V5
      (0xE0 :: (encodedLength n ++ reasonCode.toU8 :: (encodedLength p.len ++ p.encoded))) =
      .ok (.V5 reasonCode (Option.some p), []) := by
    refine (run_bind_ok (advance_header 0xE0 small _)).trans ?_
    rw [if_neg type, if_neg flags]
    change (if n = 0 then _ else _ : Parser Disconnect) _ = _
    rw [if_neg (by omega)]
    refine (run_bind_ok code).trans ?_
    refine (run_bind_ok (Reads.lift (tryFrom_toU8 reasonCode) _)).trans ?_
    exact run_bind_ok properties
  exact (run_bind_ok (Reads.lift (header_packetType _) _)).trans (run_bind_ok read)

/-! ## The round trip -/

/-- `write` appends as many bytes as it returns and as the header announces, and
the reader makes the packet of them again. -/
def RoundTrips (reasonCode : DisconnectReasonCode)
    (properties : Option DisconnectProperties) : Prop :=
  (∀ buffer, write (.V5 reasonCode properties) buffer =
    (buffer ++ (write (.V5 reasonCode properties) []).1,
      (write (.V5 reasonCode properties) []).1.length)) ∧
  (∃ header, IsFrame (write (.V5 reasonCode properties) []).1 header) ∧
  readFromNetwork (write (.V5 reasonCode properties) []).1 .V5 =
    (.ok (some (.Disconnect (.V5 reasonCode (present properties)))), [])

/-- The packet is short or has some property. -/
def Announced (reasonCode : DisconnectReasonCode)
    (properties : Option DisconnectProperties) : Prop :=
  reasonCode = .NormalDisconnection ∨ (present properties).isSome

theorem short_frame : IsFrame [0xE0, 0x00] (headerOf 0xE0 (lenLen 0, 0)) := by
  constructor
  · decide +kernel
  · rfl

theorem short_read :
    readFromNetwork [0xE0, 0x00] .V5 =
      (.ok (some (.Disconnect (.V5 .NormalDisconnection none))), []) := by
  decide +kernel

/-- The short form is read back as the normal reason without properties. -/
theorem short_read_back_iff {reasonCode : DisconnectReasonCode}
    {properties : Option DisconnectProperties} (short : len (.V5 reasonCode properties) = 2)
    (missing : present properties = none) :
    RoundTrips reasonCode properties ↔ reasonCode = .NormalDisconnection := by
  have written := write_short short
  constructor
  · rintro ⟨_, _, trip⟩
    rw [written, List.nil_append, short_read, missing] at trip
    injection trip with trip
    injection trip with trip
    injection trip with trip
    injection trip with trip
    injection trip with trip
    exact trip.symm
  · intro normal
    refine ⟨fun buffer => ?_, ⟨headerOf 0xE0 (lenLen 0, 0), ?_⟩, ?_⟩
    · rw [written, written []]
      rfl
    · rw [written]
      exact short_frame
    · rw [written, missing, normal]
      exact short_read

/-- A packet with some property is read back. -/
theorem full_roundTrips {reasonCode : DisconnectReasonCode} {p : DisconnectProperties}
    (writable : Writable reasonCode (some p)) (different : p ≠ .empty) :
    RoundTrips reasonCode (some p) := by
  obtain ⟨size, _⟩ := write_full reasonCode different []
  have written := fun buffer => (write_full reasonCode different buffer).2
  have room := writable.room
  have inside : p.len ≤ len (.V5 reasonCode (some p)) := by omega
  have small : p.len ≤ maxLength := Nat.le_trans inside room
  have body : (reasonCode.toU8 :: (encodedLength p.len ++ p.encoded)).length =
      len (.V5 reasonCode (some p)) := by
    rw [size, List.length_cons, List.length_append, encodedLength_length small,
      DisconnectProperties.encoded_length, Nat.add_comm]
  have frame := isFrame_encoded 0xE0 (body ▸ room)
  have encodable := writable.encodable p rfl
  have packet := readPacket_full reasonCode encodable different room inside
  rw [body] at frame
  refine ⟨fun buffer => ?_, ?_, ?_⟩
  · rw [written, written [], List.nil_append, List.length_cons, List.length_append, body]
    congr 1
    omega
  · rw [written, List.nil_append]
    exact ⟨_, frame⟩
  · have decoded := frame.read_append .V5 []
    rw [List.append_nil] at decoded
    rw [written, List.nil_append, decoded, decodeFrame, packet, present, Option.filter_some,
      if_pos (decide_eq_true different)]
    rfl

/-- A DISCONNECT is read back exactly if it is short or has some property. -/
theorem read_back_iff {reasonCode : DisconnectReasonCode}
    {properties : Option DisconnectProperties} (writable : Writable reasonCode properties) :
    RoundTrips reasonCode properties ↔ Announced reasonCode properties := by
  by_cases some : (present properties).isSome
  · obtain ⟨p, same⟩ := Option.isSome_iff_exists.mp some
    obtain ⟨rfl, different⟩ := Option.filter_eq_some_iff.mp same
    exact iff_of_true (full_roundTrips writable (of_decide_eq_true different)) (Or.inr some)
  have missing := Option.not_isSome_iff_eq_none.mp some
  have only : Announced reasonCode properties ↔ reasonCode = .NormalDisconnection :=
    or_iff_left some
  rw [only]
  cases properties with
  | some p =>
    -- properties without a field have the length of the short form
    have nothing : p = .empty := by
      by_contra different
      rw [present, Option.filter_some, if_pos (decide_eq_true different)] at missing
      cases missing
    subst nothing
    exact short_read_back_iff (if_neg (by simp)) missing
  | none =>
    by_cases normal : reasonCode = .NormalDisconnection
    · subst normal
      exact short_read_back_iff rfl missing
    · refine iff_of_false ?_ normal
      rintro ⟨written, _⟩
      have counted := congrArg Prod.snd (written [])
      rw [write_code_only normal] at counted
      change 3 = 4 at counted
      omega

/-- Every field is present, and the reason code is not the normal one. -/
theorem full_round_trips :
    RoundTrips .ServerMoved (some ⟨some 5, some "r", [("k", "v")], some "s"⟩) := by
  have writable : Writable .ServerMoved (some ⟨some 5, some "r", [("k", "v")], some "s"⟩) := by
    refine ⟨?_, by decide +kernel⟩
    intro p same
    cases same
    constructor
    · intro reason same
      cases same
      decide +kernel
    · intro pair member
      cases List.mem_singleton.mp member
      decide +kernel
    · intro reference same
      cases same
      decide +kernel
  exact (read_back_iff writable).mpr (Or.inr rfl)

/-- Four bytes are written, and three are announced. -/
theorem code_only_not_read :
    write (.V5 .DisconnectWithWillMessage none) [] = ([0xE0, 1, 4, 0], 3) ∧
      ¬RoundTrips .DisconnectWithWillMessage none := by
  have written : write (.V5 .DisconnectWithWillMessage none) [] = ([0xE0, 1, 4, 0], 3) :=
    write_code_only (by decide)
  refine ⟨written, ?_⟩
  rintro ⟨counts, _⟩
  have counted := congrArg Prod.snd (counts [])
  rw [written] at counted
  change 3 = 4 at counted
  omega

end Disconnect

end Codec
