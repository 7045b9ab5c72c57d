import ForMqttClient.DecoderSafety

/-!
# Frames in the receive buffer

A frame is a fixed header with exactly the bytes that it announces. The reader
takes a frame off the buffer whatever comes behind it, and on a part of a frame
it waits: no prefix of a header is taken for another header.
-/

namespace Codec

open MqttData ByteReader

/-- What has come in so far ends within the first piece or holds all of it. -/
theorem within_or_behind {here there piece rest : Bytes} (whole : here ++ there = piece ++ rest) :
    (here.length < piece.length ∧ ∃ back, back ≠ [] ∧ piece = here ++ back) ∨
      ∃ behind, here = piece ++ behind ∧ behind ++ there = rest := by
  rcases List.append_eq_append_iff.mp whole with ⟨back, parts, after⟩ | ⟨behind, parts, after⟩
  · by_cases full : back = []
    · subst full
      exact Or.inr ⟨[], by simpa using parts.symm, after⟩
    · have some := List.length_pos_iff.mpr full
      exact Or.inl ⟨by rw [parts, List.length_append]; omega, back, full, parts⟩
  · exact Or.inr ⟨behind, parts, after.symm⟩

/-! ## Headers and what follows them -/

theorem parse_append {stream : Bytes} (rest : Bytes) {header : FixedHeader}
    (parsed : parseFixedHeaderBySlice stream = .ok header) :
    parseFixedHeaderBySlice (stream ++ rest) = .ok header := by
  match stream, parsed with
  | byte1 :: byte2 :: stream, parsed =>
    rw [parseFixedHeaderBySlice_cons] at parsed
    have whole : length (byte2 :: stream) ≠ cutOff := by
      intro cut
      rw [cut] at parsed
      cases parsed
    have same := length_append rest whole
    rw [List.cons_append, List.cons_append, parseFixedHeaderBySlice_cons]
    rw [← List.cons_append, same]
    exact parsed

/-- The front of a stream whose header is longer asks for one byte more. -/
theorem parse_front {stream rest : Bytes} {header : FixedHeader}
    (parsed : parseFixedHeaderBySlice (stream ++ rest) = .ok header) (some : stream ≠ [])
    (short : stream.length < header.fixedHeaderLen) :
    parseFixedHeaderBySlice stream = cutOff := by
  match stream, parsed with
  | [], _ => exact absurd rfl some
  | [_], _ => rfl
  | byte1 :: byte2 :: stream, parsed =>
    rw [List.cons_append, List.cons_append, parseFixedHeaderBySlice_cons,
      ← List.cons_append] at parsed
    cases measured : length (byte2 :: stream ++ rest) with
    | error failure =>
      rw [measured] at parsed
      cases parsed
    | ok result =>
      rw [measured] at parsed
      cases parsed
      have early : (byte2 :: stream).length < result.1 := Nat.lt_of_succ_lt_succ short
      rw [parseFixedHeaderBySlice_cons, length_front measured early]
      rfl

/-- A stream that holds the whole header is parsed like any longer one. -/
theorem parse_back {stream rest : Bytes} {header : FixedHeader}
    (parsed : parseFixedHeaderBySlice (stream ++ rest) = .ok header)
    (long : header.fixedHeaderLen ≤ stream.length) :
    parseFixedHeaderBySlice stream = .ok header := by
  have framed := parsed_framed parsed
  match stream, parsed with
  | [], _ =>
    have some := framed.1
    simp only [List.length_nil] at long
    omega
  | [_], _ =>
    have some := framed.1
    simp only [List.length_cons, List.length_nil] at long
    omega
  | byte1 :: byte2 :: stream, parsed =>
    rw [List.cons_append, List.cons_append, parseFixedHeaderBySlice_cons,
      ← List.cons_append] at parsed
    cases measured : length (byte2 :: stream ++ rest) with
    | error failure =>
      rw [measured] at parsed
      cases parsed
    | ok result =>
      rw [measured] at parsed
      cases parsed
      have late : result.1 ≤ (byte2 :: stream).length := Nat.le_of_succ_le_succ long
      rw [parseFixedHeaderBySlice_cons, length_back measured late]
      rfl

/-! ## Frames -/

/-- The stream is one frame with this header. -/
structure IsFrame (stream : Bytes) (header : FixedHeader) : Prop where
  parsed : parseFixedHeaderBySlice stream = .ok header
  exact_length : stream.length = header.total

/-- The stream begins with a complete frame. -/
def BeginsWithFrame (stream : Bytes) : Prop :=
  ∃ header, parseFixedHeaderBySlice stream = .ok header ∧ header.total ≤ stream.length

/-- The frame at the front of a stream that holds all of it. -/
theorem isFrame_take {stream : Bytes} {header : FixedHeader}
    (parsed : parseFixedHeaderBySlice stream = .ok header) (whole : header.total ≤ stream.length) :
    IsFrame (stream.take header.total) header := by
  have split := List.take_append_drop header.total stream
  constructor
  · rw [← split] at parsed
    refine parse_back parsed ?_
    rw [List.length_take]
    have inside : header.fixedHeaderLen ≤ header.total := Nat.le_add_right _ _
    omega
  · rw [List.length_take]
    omega

theorem beginsWithFrame_iff (stream : Bytes) :
    BeginsWithFrame stream ↔ ∃ frame rest header,
      stream = frame ++ rest ∧ IsFrame frame header := by
  constructor
  · rintro ⟨header, parsed, whole⟩
    have split := List.take_append_drop header.total stream
    exact ⟨_, _, header, split.symm, isFrame_take parsed whole⟩
  · rintro ⟨frame, rest, header, rfl, isFrame⟩
    refine ⟨header, parse_append rest isFrame.parsed, ?_⟩
    rw [List.length_append, isFrame.exact_length]
    exact Nat.le_add_right _ _

theorem IsFrame.two_le {frame : Bytes} {header : FixedHeader} (isFrame : IsFrame frame header) :
    2 ≤ frame.length := by
  have framed := parsed_framed isFrame.parsed
  rw [isFrame.exact_length, FixedHeader.total]
  have some := framed.1
  omega

theorem parse_encoded (byte1 : UInt8) {n : Nat} (small : n ≤ maxLength) (body : Bytes) :
    parseFixedHeaderBySlice (byte1 :: (encodedLength n ++ body)) =
      .ok (headerOf byte1 (lenLen n, n)) := by
  have read := length_encoded small body
  have some := lenLen_pos n
  rw [← encodedLength_length small] at some
  cases bytes : encodedLength n with
  | nil =>
    rw [bytes] at some
    exact absurd some (by decide)
  | cons byte2 stream =>
    rw [bytes] at read
    rw [List.cons_append, parseFixedHeaderBySlice_cons, ← List.cons_append, read]
    rfl

theorem advance_header (byte1 : UInt8) {n : Nat} (small : n ≤ maxLength) (body : Bytes) :
    (advance (headerOf byte1 (lenLen n, n)).fixedHeaderLen : Parser Unit)
        (byte1 :: (encodedLength n ++ body)) = .ok ((), body) := by
  rw [headerOf, ← encodedLength_length small, advance, if_pos (by simp), List.drop_succ_cons,
    List.drop_left]

/-- A header that announces what follows it. -/
theorem isFrame_encoded (byte1 : UInt8) {body : Bytes} (small : body.length ≤ maxLength) :
    IsFrame (byte1 :: (encodedLength body.length ++ body))
      (headerOf byte1 (lenLen body.length, body.length)) := by
  constructor
  · exact parse_encoded byte1 small body
  · rw [List.length_cons, List.length_append, encodedLength_length small]
    change _ = lenLen body.length + 1 + body.length
    omega

/-- A frame is taken off the buffer whatever comes behind it. -/
theorem IsFrame.read_append {frame : Bytes} {header : FixedHeader}
    (isFrame : IsFrame frame header) (version : Protocol) (rest : Bytes) :
    readFromNetwork (frame ++ rest) version =
      ((decodeFrame version header frame).map some, rest) := by
  have whole : header.total ≤ (frame ++ rest).length := by
    rw [List.length_append, isFrame.exact_length]
    exact Nat.le_add_right _ _
  rw [readFromNetwork_frame version (parse_append rest isFrame.parsed) whole]
  rw [← isFrame.exact_length, List.take_left, List.drop_left]

/-- The reader leaves the stream as it is and returns no packet. -/
def Waits (version : Protocol) (stream : Bytes) : Prop :=
  readFromNetwork stream version = (.ok none, stream) ∨
    ∃ size, readFromNetwork stream version = (fail (.InsufficientBytes size), stream)

theorem IsFrame.front_waits {front back : Bytes} {header : FixedHeader}
    (isFrame : IsFrame (front ++ back) header) (part : back ≠ []) (version : Protocol) :
    Waits version front := by
  have short : front.length < header.total := by
    have size := isFrame.exact_length
    have some := List.length_pos_iff.mpr part
    rw [List.length_append] at size
    omega
  by_cases long : header.fixedHeaderLen ≤ front.length
  · exact Or.inl (readFromNetwork_wait version (parse_back isFrame.parsed long) short)
  · cases front with
    | nil => exact Or.inr ⟨2, rfl⟩
    | cons byte front =>
      have cut := parse_front isFrame.parsed (List.cons_ne_nil _ _) (Nat.not_le.mp long)
      exact Or.inr ⟨1, readFromNetwork_cut version cut rfl⟩

/-- A packet that is returned stood in the frame that is taken off the buffer. -/
theorem frame_of_returned {version : Protocol} {stream left : Bytes} {packet : Packet}
    (returned : readFromNetwork stream version = (.ok (some packet), left)) :
    ∃ header, parseFixedHeaderBySlice stream = .ok header ∧ header.total ≤ stream.length ∧
      decodeFrame version header (stream.take header.total) = .ok packet ∧
      left = stream.drop header.total := by
  cases begins stream with
  | cut size parsed =>
    rw [readFromNetwork_cut version parsed rfl] at returned
    cases returned
  | malformed parsed =>
    rw [readFromNetwork_discard version parsed] at returned
    cases returned
  | part header parsed short =>
    rw [readFromNetwork_wait version parsed short] at returned
    cases returned
  | frame header parsed whole =>
    rw [readFromNetwork_frame version parsed whole] at returned
    injection returned with decoded left
    refine ⟨header, parsed, whole, ?_, left.symm⟩
    cases result : decodeFrame version header (stream.take header.total) with
    | ok packet' =>
      rw [result] at decoded
      cases decoded
      rfl
    | error failure =>
      rw [result] at decoded
      cases decoded

/-- The stream is one frame that the reader turns into a packet. -/
def Decodes (version : Protocol) (stream : Bytes) (packet : Packet) : Prop :=
  readFromNetwork stream version = (.ok (some packet), [])

theorem Decodes.isFrame {version : Protocol} {stream : Bytes} {packet : Packet}
    (decodes : Decodes version stream packet) : ∃ header, IsFrame stream header ∧
      decodeFrame version header stream = .ok packet := by
  obtain ⟨header, parsed, whole, decoded, left⟩ := frame_of_returned decodes
  have size : stream.length = header.total := by
    have none_left := List.drop_eq_nil_iff.mp left.symm
    omega
  rw [← size, List.take_length] at decoded
  exact ⟨header, ⟨parsed, size⟩, decoded⟩

theorem Decodes.two_le {version : Protocol} {stream : Bytes} {packet : Packet}
    (decodes : Decodes version stream packet) : 2 ≤ stream.length := by
  obtain ⟨header, isFrame, _⟩ := decodes.isFrame
  exact isFrame.two_le

theorem Decodes.read_append {version : Protocol} {stream : Bytes} {packet : Packet}
    (decodes : Decodes version stream packet) (rest : Bytes) :
    readFromNetwork (stream ++ rest) version = (.ok (some packet), rest) := by
  obtain ⟨header, isFrame, decoded⟩ := decodes.isFrame
  rw [isFrame.read_append, decoded]
  rfl

/-! ## Frames in a row -/

/-- The buffer after a number of calls of the reader. -/
def bufferAfter (version : Protocol) (stream : Bytes) : Nat → Bytes
  | 0 => stream
  | calls + 1 => (readFromNetwork (bufferAfter version stream calls) version).2

/-- What the reader returns behind a number of calls. -/
def nextResult (version : Protocol) (stream : Bytes) (calls : Nat) :
    Outcome PacketParseError (Option Packet) :=
  (readFromNetwork (bufferAfter version stream calls) version).1

section Row

variable {version : Protocol}

/-- The first call of a run, in front of the others. -/
theorem bufferAfter_succ (stream : Bytes) (calls : Nat) :
    bufferAfter version stream (calls + 1) =
      bufferAfter version (readFromNetwork stream version).2 calls := by
  induction calls with
  | zero => rfl
  | succ calls ih => rw [bufferAfter, ih, bufferAfter]

theorem nextResult_succ (stream : Bytes) (calls : Nat) :
    nextResult version stream (calls + 1) =
      nextResult version (readFromNetwork stream version).2 calls := by
  rw [nextResult, bufferAfter_succ, nextResult]

theorem Waits.kept {stream : Bytes} (waits : Waits version stream) :
    (readFromNetwork stream version).2 = stream := by
  rcases waits with waits | ⟨size, waits⟩ <;> rw [waits]

theorem Waits.bufferAfter {stream : Bytes} (waits : Waits version stream) (calls : Nat) :
    bufferAfter version stream calls = stream := by
  induction calls with
  | zero => rfl
  | succ calls ih => rw [Codec.bufferAfter, ih, waits.kept]

/-- A frame alone is read as it is in front of others. -/
theorem IsFrame.read_alone {frame : Bytes} {header : FixedHeader}
    (isFrame : IsFrame frame header) (version : Protocol) (rest : Bytes) :
    readFromNetwork (frame ++ rest) version = ((readFromNetwork frame version).1, rest) := by
  have alone := isFrame.read_append version []
  rw [List.append_nil] at alone
  rw [isFrame.read_append version rest, alone]

/-- The reader takes one frame a call, whether or not it makes a packet of it, and
waits on the part of a frame that comes behind. -/
theorem reads_frames_in_turn (version : Protocol) {frames : List Bytes} {tail back : Bytes}
    {header : FixedHeader} (whole : ∀ frame ∈ frames, ∃ header, IsFrame frame header)
    (part : IsFrame (tail ++ back) header) (missing : back ≠ []) :
    (∀ i frame, frames[i]? = some frame →
      nextResult version (frames.flatten ++ tail) i = (readFromNetwork frame version).1) ∧
    ∀ calls, frames.length ≤ calls →
      bufferAfter version (frames.flatten ++ tail) calls = tail := by
  have waits := part.front_waits missing version
  induction frames with
  | nil =>
    refine ⟨fun i frame found => ?_, fun calls _ => waits.bufferAfter calls⟩
    cases found
  | cons first frames ih =>
    obtain ⟨ahead, isFrame⟩ := whole first List.mem_cons_self
    obtain ⟨results, buffers⟩ := ih fun frame member => whole frame (List.mem_cons_of_mem _ member)
    have taken := isFrame.read_alone version (frames.flatten ++ tail)
    rw [List.flatten_cons, List.append_assoc]
    constructor
    · intro i frame found
      cases i with
      | zero =>
        cases found
        rw [nextResult, bufferAfter, taken]
      | succ i =>
        rw [nextResult_succ, taken]
        exact results i frame found
    · intro calls enough
      obtain ⟨calls, rfl⟩ := Nat.exists_eq_add_of_le' (Nat.le_trans (Nat.succ_pos _) enough)
      rw [bufferAfter_succ, taken]
      exact buffers calls (Nat.le_of_succ_le_succ enough)

/-- A PUBACK without a body, a PINGRESP, and the first byte of a PUBLISH. -/
theorem reads_two_frames_in_turn :
    nextResult .V4 [0x40, 0, 0xD0, 0, 0x30] 0 = (readFromNetwork [0x40, 0] .V4).1 ∧
      nextResult .V4 [0x40, 0, 0xD0, 0, 0x30] 1 = (readFromNetwork [0xD0, 0] .V4).1 ∧
      ∀ calls, 2 ≤ calls → bufferAfter .V4 [0x40, 0, 0xD0, 0, 0x30] calls = [0x30] := by
  have whole : ∀ frame ∈ [[0x40, 0], [0xD0, 0]], ∃ header, IsFrame frame header := by
    intro frame member
    rcases List.mem_cons.mp member with rfl | member
    · exact ⟨_, rfl, rfl⟩
    · obtain rfl := List.mem_singleton.mp member
      exact ⟨_, rfl, rfl⟩
  have part : IsFrame ([0x30] ++ [0]) { byte1 := 0x30, fixedHeaderLen := 2, remainingLen := 0 } :=
    ⟨rfl, rfl⟩
  have row := reads_frames_in_turn .V4 whole part (List.cons_ne_nil _ _)
  exact ⟨row.1 0 _ rfl, row.1 1 _ rfl, row.2⟩

end Row

end Codec
