import ForMqttClient.PacketBlocks

/-!
# PUBLISH written back

In version 4 the reader keeps all of a PUBLISH: the flags are the whole first
byte, and topic, packet identifier and payload are the whole body. So a packet
that was read is written with the bytes that it was read from, if its length stood
there in the least number of bytes.
-/

namespace Codec

open MqttData ByteReader

namespace Publish

/-- The stream is one frame of type PUBLISH, with a shortest remaining length, and
version 4 reads this packet off it. -/
structure AcceptedAs (frame : Bytes) (p : Publish) : Prop where
  one_frame : ∃ header, IsFrame frame header ∧ header.packetType = .ok .Publish ∧
    header.fixedHeaderLen = 1 + lenLen header.remainingLen
  read : (readFromNetwork frame .V4).1 = .ok (some (.Publish p))

/-! ## The first byte -/

theorem byte1_kept {byte : UInt8} {q : QoSWithPacketId} (type : byte >>> 4 = 3)
    (known : qos ((byte &&& 0b0110) >>> 1) = .ok (service q)) :
    (0b00110000 : UInt8) ||| (decide (byte &&& 0b0001 ≠ 0)).toUInt8 ||| qosNum q <<< 1 |||
      (decide (byte &&& 0b1000 ≠ 0)).toUInt8 <<< 3 = byte := by
  have finite : ∀ n, n < 256 → let byte := UInt8.ofNat n
      byte >>> 4 = 3 → ∀ pair ∈ [(QoS.AtMostOnce, (0 : UInt8)), (.AtLeastOnce, 1), (.ExactlyOnce, 2)],
        qos ((byte &&& 0b0110) >>> 1) = .ok pair.1 →
        (0b00110000 : UInt8) ||| (decide (byte &&& 0b0001 ≠ 0)).toUInt8 ||| pair.2 <<< 1 |||
          (decide (byte &&& 0b1000 ≠ 0)).toUInt8 <<< 3 = byte := by
    decide +kernel
  have each := finite byte.toNat byte.toNat_lt
  rw [UInt8.ofNat_toNat] at each
  refine each type (service q, qosNum q) ?_ known
  cases q <;> simp [service, qosNum]

/-! ## The frame -/

section Frame

variable {frame rest : Bytes} {header : FixedHeader} {p : Publish}

/-- First byte, length and body, where the length is a shortest one. -/
theorem frame_parts (isFrame : IsFrame frame header)
    (shortest : header.fixedHeaderLen = 1 + lenLen header.remainingLen) :
    frame = header.byte1 :: (encodedLength header.remainingLen ++
      frame.drop header.fixedHeaderLen) := by
  match frame, isFrame with
  | [], isFrame => cases isFrame.parsed
  | [_], isFrame => cases isFrame.parsed
  | byte1 :: byte2 :: stream, isFrame =>
    have parsed := isFrame.parsed
    rw [parseFixedHeaderBySlice_cons] at parsed
    cases measured : length (byte2 :: stream) with
    | error failure =>
      rw [measured] at parsed
      cases parsed
    | ok result =>
      rw [measured] at parsed
      cases parsed
      obtain ⟨count, n⟩ := result
      have least : count = lenLen n := by
        change count + 1 = 1 + lenLen n at shortest
        omega
      subst least
      change byte1 :: byte2 :: stream = byte1 :: (encodedLength n ++ (byte2 :: stream).drop (lenLen n))
      rw [← encoded_of_length measured, List.take_append_drop]

theorem read_of_accepted (isFrame : IsFrame frame header)
    (type : header.packetType = .ok .Publish)
    (read : (readFromNetwork frame .V4).1 = .ok (some (.Publish p))) :
    ∃ rest, Publish.read header .V4 frame = .ok (p, rest) := by
  have returned : readFromNetwork frame .V4 =
      (.ok (some (.Publish p)), (readFromNetwork frame .V4).2) := Prod.ext read rfl
  obtain ⟨header', parsed, _, decoded, _⟩ := frame_of_returned returned
  obtain rfl : header = header' := Except.ok.inj (isFrame.parsed.symm.trans parsed)
  rw [← isFrame.exact_length, List.take_length] at decoded
  obtain ⟨left, result⟩ := read_of_decoded decoded
  have opened : readPacket header .V4 frame =
      (Publish.read header .V4 >>= fun p => pure (.Publish p)) frame :=
    run_bind_ok (Reads.lift type frame)
  rw [opened] at result
  obtain ⟨p', rest, first, last⟩ := run_bind_inv result
  cases last
  exact ⟨left, first⟩

theorem propertiesBytes_of_V4 (version : p.protocol = .V4) : propertiesBytes p = [] := by
  rw [propertiesBytes, writeProperties, version]

/-- What version 4 reads, field by field. -/
theorem fields_of_read (read : Publish.read header .V4 frame = .ok (p, rest)) :
    qos ((header.byte1 &&& 0b0110) >>> 1) = .ok (service p.qos) ∧
      p.dup = decide (header.byte1 &&& 0b1000 ≠ 0) ∧
      p.retain = decide (header.byte1 &&& 0b0001 ≠ 0) ∧
      p.protocol = .V4 ∧ frame.drop header.fixedHeaderLen = body p := by
  obtain ⟨known, _, _, behind, moved, finished⟩ := Publish.read_inv read
  have inside : header.fixedHeaderLen ≤ frame.length := by
    rw [advance] at moved
    split at moved
    · assumption
    · cases moved
  rw [advance, if_pos inside] at moved
  injection moved with moved
  have parts := (Prod.mk.inj moved).2
  have same := (Prod.mk.inj (Except.ok.inj finished)).1
  have version : p.protocol = .V4 := (congrArg MqttData.Publish.protocol same).symm
  have payload : p.payload = behind := (congrArg MqttData.Publish.payload same).symm
  refine ⟨known, (congrArg MqttData.Publish.dup same).symm,
    (congrArg MqttData.Publish.retain same).symm, version, ?_⟩
  rw [parts, lead, body, propertiesBytes_of_V4 version, payload, List.append_assoc,
    List.nil_append]

theorem write_of_accepted (accepted : AcceptedAs frame p) (buffer : Bytes) :
    write p buffer = (buffer ++ frame, frame.length) := by
  obtain ⟨header, isFrame, type, shortest⟩ := accepted.one_frame
  obtain ⟨rest, read⟩ := read_of_accepted isFrame type accepted.read
  obtain ⟨known, dup, retain, version, parts⟩ := fields_of_read read
  have first : byte1 p = header.byte1 := by
    rw [byte1, dup, retain]
    exact byte1_kept (packetType_number type) known
  have whole := frame_parts isFrame shortest
  have bodySize : (body p).length = header.remainingLen := by
    rw [← parts, List.length_drop, isFrame.exact_length, FixedHeader.total]
    omega
  have size : len p = header.remainingLen := by
    rw [← bodySize]
    refine (body_length_of ?_).symm
    rw [propertiesBytes_of_V4 version, version]
    rfl
  rw [parts] at whole
  have sizes := congrArg List.length whole
  rw [List.length_cons, List.length_append, bodySize] at sizes
  rw [write_eq, first, size, ← whole, sizes]
  congr 1
  omega

end Frame

/-- Version 4 writes an accepted packet as it stood in its frame, so that no two frames
are read as the same packet. -/
theorem reencodes :
    (∀ frame p, AcceptedAs frame p → ∀ buffer,
      write p buffer = (buffer ++ frame, frame.length)) ∧
    ∀ frame frame' p, AcceptedAs frame p → AcceptedAs frame' p → frame = frame' := by
  refine ⟨fun frame p accepted => write_of_accepted accepted, ?_⟩
  intro frame frame' p accepted accepted'
  have written := write_of_accepted accepted []
  rw [write_of_accepted accepted' []] at written
  exact (Prod.mk.inj written).1.symm

/-- A PUBLISH with all flags that can be set together. -/
theorem reencodes_of_flags :
    write { dup := true, qos := .AtLeastOnce 10, retain := true, topic := "", payload := [1, 2]
            properties := none, protocol := .V4 } [] =
      ([0x3B, 6, 0, 0, 0, 10, 1, 2], 8) := by
  have accepted : AcceptedAs [0x3B, 6, 0, 0, 0, 10, 1, 2]
      { dup := true, qos := .AtLeastOnce 10, retain := true, topic := "", payload := [1, 2]
        properties := none, protocol := .V4 } :=
    ⟨⟨_, ⟨rfl, rfl⟩, rfl, rfl⟩, by decide +kernel⟩
  exact reencodes.1 _ _ accepted []

end Publish

end Codec
