import ForMqttClient.Frames
import ForMqttClient.NetworkTask

/-!
# Chunks in the handshake

`_run_to_connect` waits when its buffer holds a header and not the whole frame.
When the buffer ends inside the header it gives up, so its result depends on
whether the first chunk holds the header of the first frame.
-/

namespace NetworkTask

open MqttData Codec ByteReader

/-- What `_run_to_connect` returns, if it returns. -/
def Handshake.result : Handshake → Option (Except ToConnectError Bool)
  | .waiting _ => none
  | .connected sessionPresent _ => some (.ok sessionPresent)
  | .failed reason => some (.error reason)
  | .panicked _ => none

/-- The result of the handshake for a first frame that is decoded like this. -/
def judged : Outcome PacketParseError Codec.Packet → Option (Except ToConnectError Bool)
  | .ok packet => (checkConnAck packet []).result
  | .error (.error err) => some (.error (.PacketError err))
  | .error (.fault _) => none

section Frame

variable (version : Protocol) {frame : Bytes} {header : FixedHeader}

theorem checkConnAck_result (packet : Codec.Packet) (buf : Bytes) :
    (checkConnAck packet buf).result = (checkConnAck packet []).result := by
  cases packet with
  | ConnAck ack =>
    simp only [checkConnAck]
    cases ack.code with
    | Success => rfl
    | Fail code => rfl
  | _ => rfl

theorem checkConnAck_returns (packet : Codec.Packet) (buf : Bytes) :
    ∃ result, (checkConnAck packet buf).result = some result := by
  cases packet with
  | ConnAck ack =>
    simp only [checkConnAck]
    cases ack.code with
    | Success => exact ⟨_, rfl⟩
    | Fail code => exact ⟨_, rfl⟩
  | _ => exact ⟨_, rfl⟩

theorem handshakeTurn_frame (isFrame : IsFrame frame header) (rest : Bytes) :
    (handshakeTurn version (frame ++ rest)).result = judged (decodeFrame version header frame) := by
  rw [handshakeTurn, isFrame.read_append]
  cases decodeFrame version header frame with
  | ok packet => exact checkConnAck_result packet rest
  | error failure => cases failure <;> rfl

theorem judged_returns (isFrame : IsFrame frame header) :
    ∃ result, judged (decodeFrame version header frame) = some result := by
  have long : header.fixedHeaderLen ≤ frame.length := by
    rw [isFrame.exact_length]
    exact Nat.le_add_right _ _
  have safe := decodeFrame_safe version header long
  cases decoded : decodeFrame version header frame with
  | ok packet => exact checkConnAck_returns packet []
  | error failure =>
    rw [decoded] at safe
    cases failure with
    | error err => exact ⟨_, rfl⟩
    | fault fault => exact safe.elim

/-- A turn that decides ends the loop. -/
theorem runToConnect_returns {version : Protocol} {buf chunk : Bytes} {chunks : List Bytes}
    {result : Except ToConnectError Bool} (some : chunk ≠ [])
    (decides : (handshakeTurn version (buf ++ chunk)).result = Option.some result) :
    (runToConnect version buf (chunk :: chunks)).result = Option.some result := by
  rw [runToConnect, if_neg some]
  cases turn : handshakeTurn version (buf ++ chunk) with
  | waiting left =>
    rw [turn] at decides
    cases decides
  | _ =>
    rw [turn] at decides
    exact decides

/-! ## Chunks behind the header -/

/-- Once the header is in the buffer, the handshake waits for the frame and judges it. -/
theorem runToConnect_behind (isFrame : IsFrame frame header) {chunks : List Bytes} :
    ∀ {buf rest : Bytes}, (∀ chunk ∈ chunks, chunk ≠ []) →
      buf ++ chunks.flatten = frame ++ rest → header.fixedHeaderLen ≤ (buf ++ chunks.headD []).length →
      buf.length < frame.length →
      (runToConnect version buf chunks).result = judged (decodeFrame version header frame) := by
  induction chunks with
  | nil =>
    intro buf rest _ whole _ short
    rw [List.flatten_nil, List.append_nil] at whole
    rw [whole, List.length_append] at short
    omega
  | cons chunk chunks ih =>
    intro buf rest filled whole long short
    have some : chunk ≠ [] := filled chunk List.mem_cons_self
    rw [List.flatten_cons, ← List.append_assoc] at whole
    rw [List.headD_cons] at long
    rcases within_or_behind whole with ⟨more, back, _, parts⟩ | ⟨behind, parts, _⟩
    · -- The frame goes on in the next chunk.
      have parsed := isFrame.parsed
      rw [parts] at parsed
      have inside : (buf ++ chunk).length < header.total := by
        rw [← isFrame.exact_length]
        exact more
      have waits : handshakeTurn version (buf ++ chunk) = .waiting (buf ++ chunk) := by
        rw [handshakeTurn, readFromNetwork_wait version (parse_back parsed long) inside]
      rw [runToConnect, if_neg some, waits]
      refine ih (fun c h => filled c (List.mem_cons_of_mem _ h)) whole ?_ more
      rw [List.length_append]
      omega
    · -- The buffer holds the frame, and the turn judges it.
      obtain ⟨result, judgement⟩ := judged_returns version isFrame
      rw [judgement]
      refine runToConnect_returns some ?_
      rw [parts, handshakeTurn_frame version isFrame, judgement]

/-! ## Chunks that end inside the header -/

theorem runToConnect_cut (isFrame : IsFrame frame header) {chunk rest : Bytes}
    {chunks : List Bytes} (some : chunk ≠ []) (split : chunk ++ chunks.flatten = frame ++ rest)
    (short : chunk.length < header.fixedHeaderLen) :
    (runToConnect version [] (chunk :: chunks)).result =
      Option.some (.error (.PacketError (.InsufficientBytes 1))) := by
  refine runToConnect_returns some ?_
  have parsed := parse_append rest isFrame.parsed
  rw [← split] at parsed
  have cut := parse_front parsed some short
  rw [List.nil_append, handshakeTurn, readFromNetwork_cut version cut rfl]
  rfl

theorem judged_cut_iff (decoded : Outcome PacketParseError Codec.Packet) :
    judged decoded = some (.error (.PacketError (.InsufficientBytes 1))) ↔
      decoded = fail (.InsufficientBytes 1) := by
  cases decoded with
  | ok packet =>
    refine iff_of_false (fun same => ?_) (by simp [fail])
    cases packet with
    | ConnAck ack =>
      simp only [judged, checkConnAck] at same
      cases code : ack.code with
      | Success => simp [code, Handshake.result] at same
      | Fail code' => simp [code, Handshake.result] at same
    | _ => simp [judged, checkConnAck, Handshake.result] at same
  | error failure =>
    cases failure with
    | error err => simp [judged, fail]
    | fault fault => exact iff_of_false (by simp [judged]) (by simp [fail])

end Frame

/-- The handshake returns what it returns for the first frame in one piece
exactly if the first chunk holds the header of the frame, or the frame itself
ends inside a length. -/
theorem handshake_chunks_iff (version : Protocol) {frame rest : Bytes} {header : FixedHeader}
    (isFrame : IsFrame frame header) {chunks : List Bytes} (filled : ∀ chunk ∈ chunks, chunk ≠ [])
    (split : chunks.flatten = frame ++ rest) :
    (∃ result, (runToConnect version [] chunks).result = some result ∧
        (runToConnect version [] [frame]).result = some result) ↔
      header.fixedHeaderLen ≤ (chunks.headD []).length ∨
        decodeFrame version header frame = fail (.InsufficientBytes 1) := by
  have two := isFrame.two_le
  obtain ⟨result, judgement⟩ := judged_returns version isFrame
  have whole : (runToConnect version [] [frame]).result = some result := by
    have turn := handshakeTurn_frame version isFrame []
    rw [List.append_nil, judgement] at turn
    refine runToConnect_returns ?_ turn
    rintro rfl
    exact absurd two (by decide)
  cases chunks with
  | nil =>
    have none := congrArg List.length split
    rw [List.flatten_nil, List.length_append, List.length_nil] at none
    omega
  | cons chunk chunks =>
    have some : chunk ≠ [] := filled chunk List.mem_cons_self
    rw [List.headD_cons]
    by_cases long : header.fixedHeaderLen ≤ chunk.length
    · have start : ([] : Bytes).length < frame.length := by
        rw [List.length_nil]
        omega
      have behind : (runToConnect version [] (chunk :: chunks)).result =
          judged (decodeFrame version header frame) :=
        runToConnect_behind version isFrame filled split long start
      rw [judgement] at behind
      exact iff_of_true ⟨result, behind, whole⟩ (Or.inl long)
    · rw [List.flatten_cons] at split
      have cut := runToConnect_cut version isFrame some split (Nat.not_le.mp long)
      rw [cut, whole]
      constructor
      · rintro ⟨_, first, same⟩
        rw [same, ← first] at judgement
        exact Or.inr ((judged_cut_iff _).mp judgement)
      · rintro (long' | ends)
        · exact absurd long' long
        · rw [(judged_cut_iff _).mpr ends] at judgement
          exact ⟨_, rfl, judgement.symm⟩

theorem handshake_chunks_of_connack :
    (∃ result, (runToConnect .V4 [] [[0x20, 2], [0], [0]]).result = some result ∧
        (runToConnect .V4 [] [[0x20, 2, 0, 0]]).result = some result) ↔
      2 ≤ 2 ∨ decodeFrame .V4 ⟨0x20, 2, 2⟩ [0x20, 2, 0, 0] = fail (.InsufficientBytes 1) :=
  have isFrame : IsFrame [0x20, 2, 0, 0] ⟨0x20, 2, 2⟩ := ⟨rfl, rfl⟩
  have split : [[0x20, 2], [0], [0]].flatten = [0x20, 2, 0, 0] ++ ([] : Bytes) := rfl
  handshake_chunks_iff .V4 isFrame (by decide) split

/-- A CONNACK whose first byte comes in alone is refused. -/
theorem first_byte_alone_fails :
    (runToConnect .V4 [] [[0x20], [2, 0, 0]]).result =
        some (.error (.PacketError (.InsufficientBytes 1))) ∧
      (runToConnect .V4 [] [[0x20, 2, 0, 0]]).result = some (.ok false) :=
  ⟨rfl, rfl⟩

end NetworkTask
