import ForMqttClient.PacketBlocks

/-!
# When the reader asks for more bytes

On a part of a fixed header the reader asks for more bytes and leaves the buffer
as it is. The same error comes out of the bodies of version 5, where a variable
byte integer is not complete; then the frame is lost, and no byte that is waited
for will complete it.
-/

namespace Codec

open MqttData ByteReader

/-- Fewer than two bytes, or one to three bytes of a length that goes on. -/
def IsHeaderPrefix (stream : Bytes) : Prop :=
  stream.length < 2 ∨ stream.tail.length ≤ 3 ∧ ∀ byte ∈ stream.tail, 128 ≤ byte.toNat

instance (stream : Bytes) : Decidable (IsHeaderPrefix stream) :=
  inferInstanceAs (Decidable (_ ∨ _ ∧ _))

/-- One frame, or a header that is not well formed. -/
def IsFrameOrHeader (removed : Bytes) : Prop :=
  (∃ header, IsFrame removed header) ∨
    parseFixedHeaderBySlice removed = fail .MalformedRemainingLength

/-- The reader asks for more bytes on a part of a header and nowhere else, and there it
leaves the buffer; with any other error it has removed what the error is about. -/
structure InsufficientMeansWait (version : Protocol) (stream : Bytes) : Prop where
  asks_iff : (∃ size, (readFromNetwork stream version).1 = fail (.InsufficientBytes size)) ↔
    IsHeaderPrefix stream
  kept : IsHeaderPrefix stream → (readFromNetwork stream version).2 = stream
  removed : ∀ error, (readFromNetwork stream version).1 = fail error → ¬Starved error →
    ∃ removed, stream = removed ++ (readFromNetwork stream version).2 ∧ IsFrameOrHeader removed

/-- The stream begins with a frame whose properties end inside a variable byte integer. -/
def AsksInBody (stream : Bytes) : Prop :=
  ∃ header type block, CarriesBlock stream header type block ∧
    (Cut block ∨ type = .Publish ∧
      CutInBlock PublishProperties.table PublishProperties.empty block)

/-! ## Headers -/

theorem parse_cut_iff (stream : Bytes) :
    (∃ size, parseFixedHeaderBySlice stream = fail (.InsufficientBytes size)) ↔
      IsHeaderPrefix stream := by
  match stream with
  | [] => exact iff_of_true ⟨2, rfl⟩ (.inl (by decide))
  | [_] => exact iff_of_true ⟨1, rfl⟩ (.inl (Nat.lt_succ_self 1))
  | byte1 :: byte2 :: stream =>
    have long : ¬(byte1 :: byte2 :: stream).length < 2 := by simp
    rw [IsHeaderPrefix, or_iff_right long, List.tail_cons]
    refine Iff.trans (exists_congr fun size => ?_) (length_cut_iff (byte2 :: stream))
    rw [parseFixedHeaderBySlice_cons]
    cases length (byte2 :: stream) with
    | ok result => exact iff_of_false (fun same => by cases same) fun same => by cases same
    | error failure =>
      constructor <;>
        · intro same
          cases same
          rfl

theorem not_prefix {stream : Bytes} {outcome : Outcome FixedHeaderError FixedHeader}
    (parsed : parseFixedHeaderBySlice stream = outcome)
    (other : ∀ size, outcome ≠ fail (.InsufficientBytes size)) : ¬IsHeaderPrefix stream := by
  rw [← parse_cut_iff]
  rintro ⟨size, cut⟩
  exact other size (parsed.symm.trans cut)

/-! ## Bodies -/

section Bodies

variable (header : FixedHeader)

theorem connectReturnV3_clean (num : UInt8) : Clean (connectReturnV3 num) := by
  unfold connectReturnV3
  split <;> first | exact clean_ok _ | exact clean_fail id

theorem SubAck.reasonForV4_clean (num : UInt8) : Clean (SubAck.reasonForV4 num) := by
  unfold SubAck.reasonForV4
  split <;> first | exact clean_ok _ | exact clean_fail id

theorem Publish.read_avoids_of_V4 : Avoids Starved (Publish.read header .V4) := by
  refine (Avoids.lift (qos_clean _)).bind fun asked => ?_
  refine (Avoids.advance _).bind fun _ => readMqttString_avoids.bind fun _ => ?_
  refine (readPacketId_avoids asked).bind fun _ => (Avoids.pure _).bind fun properties => ?_
  intro stream error _ failed
  cases failed

theorem ConnAck.read_avoids_of_V4 : Avoids Starved (ConnAck.read header .V4) :=
  (Avoids.advance _).bind fun _ => readU8_avoids.bind fun _ => readU8_avoids.bind fun code =>
    looked_avoids _ (connectReturnV3_clean code)

theorem PubCommon.read_avoids_of_V4 {Reason : Type} [Common Reason] :
    Avoids Starved (PubCommon.read header .V4 : Parser (PubCommon Reason)) :=
  (Avoids.advance _).bind fun _ => readU16_avoids.bind fun _ =>
    .ite (.pure _) (.reject fun starved => starved)

theorem SubAck.read_avoids_of_V4 : Avoids Starved (SubAck.read header .V4) :=
  (Avoids.advance _).bind fun _ => readU16_avoids.bind fun _ =>
    (readReturnCodes_avoids reasonForV4_clean).bind fun _ => .pure _

theorem UnsubAck.read_avoids_of_V4 : Avoids Starved (UnsubAck.read header .V4) :=
  (Avoids.advance _).bind fun _ => readU16_avoids.bind fun _ => .pure _

theorem wrapped_avoids {β : Type} {reader : Parser β} (avoids : Avoids Starved reader)
    (wrap : β → Packet) : Avoids Starved (reader >>= fun p => pure (wrap p) : Parser Packet) :=
  avoids.bind fun _ => .pure _

/-- Version 4 has no variable byte integer behind the fixed header. -/
theorem readPacket_avoids_of_V4 : Avoids Starved (readPacket header .V4) := by
  refine (Avoids.lift packetType_clean).bind fun type => ?_
  cases type with
  | ConnAck => exact wrapped_avoids (ConnAck.read_avoids_of_V4 header) _
  | Publish => exact wrapped_avoids (Publish.read_avoids_of_V4 header) _
  | PubAck => exact wrapped_avoids (PubCommon.read_avoids_of_V4 header) _
  | PubRec => exact wrapped_avoids (PubCommon.read_avoids_of_V4 header) _
  | PubRel => exact wrapped_avoids (PubCommon.read_avoids_of_V4 header) _
  | PubComp => exact wrapped_avoids (PubCommon.read_avoids_of_V4 header) _
  | SubAck => exact wrapped_avoids (SubAck.read_avoids_of_V4 header) _
  | UnsubAck => exact wrapped_avoids (UnsubAck.read_avoids_of_V4 header) _
  | PingResp => exact .pure _
  | _ => exact .reject fun starved => starved

end Bodies

section Frames

variable {stream : Bytes} {header : FixedHeader}

/-- A frame at the front of the buffer that is refused as a part of one. -/
theorem readPacket_starves_iff (version : Protocol)
    (parsed : parseFixedHeaderBySlice stream = .ok header) (whole : header.total ≤ stream.length) :
    (∃ size, readPacket header version (stream.take header.total) =
        fail (.InsufficientBytes size)) ↔ version = .V5 ∧ AsksInBody stream := by
  cases version with
  | V4 =>
    refine iff_of_false ?_ fun both => by cases both.1
    rintro ⟨size, failed⟩
    exact readPacket_avoids_of_V4 header _ (.InsufficientBytes size) trivial failed
  | V5 =>
    rw [and_iff_right rfl]
    constructor
    · rintro ⟨size, failed⟩
      have starved : Starved (.InsufficientBytes size) := trivial
      rcases carriesBlock_of_past parsed whole (.inr ⟨_, starved, failed⟩) with
        ⟨_, _, taken, read, _⟩ | ⟨type, block, carries⟩
      · rw [read] at failed
        cases failed
      · exact ⟨header, type, block, carries, carries.starves_iff.mp ⟨size, failed⟩⟩
    · rintro ⟨header', type, block, carries, cut⟩
      obtain rfl : header = header' := Except.ok.inj (carries.found parsed)
      exact carries.starves_iff.mpr cut

theorem decodeFrame_fails_iff {version : Protocol} {frame : Bytes} {error : PacketParseError} :
    (decodeFrame version header frame).map some = fail error ↔
      readPacket header version frame = fail error := by
  rw [decodeFrame]
  cases readPacket header version frame with
  | ok result => exact iff_of_false (fun same => by cases same) fun same => by cases same
  | error failure =>
    constructor <;>
      · intro same
        cases same
        rfl

theorem insufficient_of_frame (version : Protocol)
    (parsed : parseFixedHeaderBySlice stream = .ok header) (whole : header.total ≤ stream.length) :
    InsufficientMeansWait version stream ↔
      ¬∃ size, readPacket header version (stream.take header.total) =
        fail (.InsufficientBytes size) := by
  have read := readFromNetwork_frame version parsed whole
  have complete : ¬IsHeaderPrefix stream := not_prefix parsed fun _ same => by cases same
  constructor
  · rintro wait ⟨size, failed⟩
    refine complete (wait.asks_iff.mp ⟨size, ?_⟩)
    rw [read]
    exact decodeFrame_fails_iff.mpr failed
  · intro never
    refine ⟨iff_of_false ?_ complete, fun part => absurd part complete, fun error _ _ => ?_⟩
    · rintro ⟨size, failed⟩
      rw [read] at failed
      exact never ⟨size, decodeFrame_fails_iff.mp failed⟩
    · rw [read]
      exact ⟨_, (List.take_append_drop _ _).symm, .inl ⟨header, isFrame_take parsed whole⟩⟩

end Frames

theorem not_asksInBody {stream : Bytes} {failure : Failure FixedHeaderError}
    (parsed : parseFixedHeaderBySlice stream = .error failure) : ¬AsksInBody stream := by
  rintro ⟨header, type, block, carries, _⟩
  cases carries.found parsed

/-- The error means that the reader waits, unless it comes out of a body. -/
theorem insufficient_means_wait_iff (stream : Bytes) (version : Protocol) :
    InsufficientMeansWait version stream ↔ ¬(version = .V5 ∧ AsksInBody stream) := by
  cases begins stream with
  | cut size parsed =>
    have read := readFromNetwork_cut version parsed rfl
    have part := (parse_cut_iff stream).mp ⟨size, parsed⟩
    refine iff_of_true ?_ fun asks => not_asksInBody parsed asks.2
    refine ⟨iff_of_true ⟨size, ?_⟩ part, fun _ => ?_, fun error failed other => ?_⟩
    · rw [read]
      rfl
    · rw [read]
    · rw [read] at failed
      cases failed
      exact absurd trivial other
  | malformed parsed =>
    have read := readFromNetwork_discard version parsed
    have complete : ¬IsHeaderPrefix stream := not_prefix parsed fun _ same => by cases same
    refine iff_of_true ?_ fun asks => not_asksInBody parsed asks.2
    refine ⟨iff_of_false ?_ complete, fun part => absurd part complete, fun _ _ _ => ?_⟩
    · rintro ⟨size, failed⟩
      rw [read] at failed
      cases failed
    · rw [read]
      exact ⟨stream, (List.append_nil stream).symm, .inr parsed⟩
  | part header parsed short =>
    have read := readFromNetwork_wait version parsed short
    have complete : ¬IsHeaderPrefix stream := not_prefix parsed fun _ same => by cases same
    refine iff_of_true ⟨iff_of_false ?_ complete, fun part => absurd part complete, ?_⟩ ?_
    · rintro ⟨size, failed⟩
      rw [read] at failed
      cases failed
    · intro error failed
      rw [read] at failed
      cases failed
    · rintro ⟨_, header', _, _, carries, _⟩
      obtain rfl : header = header' := Except.ok.inj (carries.found parsed)
      exact absurd carries.whole (Nat.not_le.mpr short)
  | frame header parsed whole =>
    rw [insufficient_of_frame version parsed whole, readPacket_starves_iff version parsed whole]

/-- A CONNACK whose body ends before the length of its properties. -/
theorem asks_for_a_lost_frame :
    (readFromNetwork [0x20, 0x02, 0x00, 0x00] .V5) = (fail (.InsufficientBytes 1), []) ∧
      ¬InsufficientMeansWait .V5 [0x20, 0x02, 0x00, 0x00] := by
  refine ⟨rfl, fun wait => ?_⟩
  have part : IsHeaderPrefix [0x20, 0x02, 0x00, 0x00] := wait.asks_iff.mp ⟨1, rfl⟩
  exact absurd part (by decide)

end Codec
