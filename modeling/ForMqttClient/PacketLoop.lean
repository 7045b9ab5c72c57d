import ForMqttClient.Frames
import ForMqttClient.NetworkTask

/-!
# The packet loop

The loop of the connected phase takes one frame after the other off the buffer.
It ends in front of an incomplete frame, or behind a frame that it cannot
decode; and it always ends.
-/

namespace NetworkTask

open MqttData Codec ByteReader

/-- Frames with the packets that the reader makes of them. -/
def Decodable (version : Protocol) (frames : List (Bytes × Codec.Packet)) : Prop :=
  ∀ frame ∈ frames, Decodes version frame.1 frame.2

def bytesOf (frames : List (Bytes × Codec.Packet)) : Bytes :=
  frames.flatMap Prod.fst

def eventsOf (frames : List (Bytes × Codec.Packet)) : List Event :=
  frames.filterMap fun frame => eventOf frame.2

/-- A complete frame from which the reader makes no packet. -/
def Undecodable (version : Protocol) (frame : Bytes) : Prop :=
  ∃ header err, IsFrame frame header ∧ decodeFrame version header frame = fail err

section Reader

variable {version : Protocol}

/-- What one call of the reader finds at the front of a buffer. -/
inductive Found (version : Protocol) (stream : Bytes) : Prop where
  | packet {frame rest : Bytes} {packet : Codec.Packet} (split : stream = frame ++ rest)
      (decodes : Decodes version frame packet)
  | undecodable {frame rest : Bytes} (split : stream = frame ++ rest)
      (undecodable : Undecodable version frame)
  | nothing (waits : Waits version stream) (noFrame : ¬BeginsWithFrame stream)
  | malformed (dropped : readFromNetwork stream version = (fail .MalformedRemainingLength, []))
      (noFrame : ¬BeginsWithFrame stream)

theorem noFrame_of_error {stream : Bytes} {failure : Failure FixedHeaderError}
    (parsed : parseFixedHeaderBySlice stream = .error failure) : ¬BeginsWithFrame stream := by
  rintro ⟨header, parsed', _⟩
  rw [parsed] at parsed'
  cases parsed'

theorem found (version : Protocol) (stream : Bytes) : Found version stream := by
  cases begins stream with
  | cut size parsed =>
    exact .nothing (Or.inr ⟨size, readFromNetwork_cut version parsed rfl⟩) (noFrame_of_error parsed)
  | malformed parsed =>
    exact .malformed (readFromNetwork_discard version parsed) (noFrame_of_error parsed)
  | part header parsed short =>
    refine .nothing (Or.inl (readFromNetwork_wait version parsed short)) ?_
    rintro ⟨header', parsed', whole⟩
    rw [parsed] at parsed'
    cases parsed'
    exact absurd whole (Nat.not_le.mpr short)
  | frame header parsed whole =>
    obtain ⟨frame, rest, header, rfl, isFrame⟩ :=
      (beginsWithFrame_iff stream).mp ⟨header, parsed, whole⟩
    have long : header.fixedHeaderLen ≤ frame.length := by
      rw [isFrame.exact_length]
      exact Nat.le_add_right _ _
    have safe := decodeFrame_safe version header long
    cases decoded : decodeFrame version header frame with
    | ok packet =>
      have read := isFrame.read_append version []
      rw [List.append_nil, decoded] at read
      exact .packet rfl read
    | error failure =>
      rw [decoded] at safe
      cases failure with
      | fault fault => exact safe.elim
      | error err => exact .undecodable rfl ⟨header, err, isFrame, decoded⟩

theorem Undecodable.read_append {frame : Bytes} (undecodable : Undecodable version frame)
    (rest : Bytes) : ∃ err, readFromNetwork (frame ++ rest) version = (fail err, rest) := by
  obtain ⟨header, err, isFrame, decoded⟩ := undecodable
  refine ⟨err, ?_⟩
  rw [isFrame.read_append, decoded]
  rfl

/-! ## Turns of the loop -/

theorem dealLoop_waits {buf : Bytes} (waits : Waits version buf) (fuel : Nat) :
    dealLoop version (fuel + 1) buf = .ok ([], buf) := by
  rw [dealLoop]
  rcases waits with wait | ⟨size, cut⟩
  · rw [wait]
  · rw [cut]
    rfl

theorem dealLoop_frame {frame rest : Bytes} {packet : Codec.Packet}
    (decodes : Decodes version frame packet) (fuel : Nat) :
    dealLoop version (fuel + 1) (frame ++ rest) =
      if rest.length ≥ 2 then
        (dealLoop version fuel rest).map fun later =>
          ((eventOf packet).toList ++ later.1, later.2)
      else .ok ((eventOf packet).toList, rest) := by
  rw [dealLoop, decodes.read_append rest]
  by_cases more : rest.length ≥ 2
  · simp only [if_pos more]
    cases dealLoop version fuel rest with
    | ok later => rfl
    | error fault => rfl
  · simp only [if_neg more]

theorem bytesOf_cons (frame : Bytes × Codec.Packet) (frames : List (Bytes × Codec.Packet)) :
    bytesOf (frame :: frames) = frame.1 ++ bytesOf frames := List.flatMap_cons

theorem eventsOf_cons (frame : Bytes × Codec.Packet) (frames : List (Bytes × Codec.Packet)) :
    eventsOf (frame :: frames) = (eventOf frame.2).toList ++ eventsOf frames := by
  unfold eventsOf
  cases event : eventOf frame.2 with
  | none => simp [event]
  | some e => simp [event]

/-! ## Where the loop ends -/

/-- The loop ends in front of an incomplete frame or behind an undecodable one. -/
inductive LoopEnd (version : Protocol) (buf : Bytes) :
    Except Fault (List Event × Bytes) → Prop where
  | through {frames : List (Bytes × Codec.Packet)} {left : Bytes}
      (noFrame : ¬BeginsWithFrame left) : LoopEnd version buf (.ok (eventsOf frames, left))
  | stopped {frames : List (Bytes × Codec.Packet)} {bad left : Bytes}
      (split : buf = bytesOf frames ++ (bad ++ left)) (decodable : Decodable version frames)
      (undecodable : Undecodable version bad) : LoopEnd version buf (.ok (eventsOf frames, left))

theorem decodable_cons {frame : Bytes} {packet : Codec.Packet}
    {frames : List (Bytes × Codec.Packet)} (first : Decodes version frame packet)
    (others : Decodable version frames) : Decodable version ((frame, packet) :: frames) := by
  intro f listed
  rcases List.mem_cons.mp listed with rfl | listed
  · exact first
  · exact others f listed

/-- One frame in front of what the loop does behind it. -/
theorem LoopEnd.cons {frame rest : Bytes} {packet : Codec.Packet}
    (decodes : Decodes version frame packet) {result : Except Fault (List Event × Bytes)}
    (later : LoopEnd version rest result) :
    LoopEnd version (frame ++ rest) (result.map fun later =>
      ((eventOf packet).toList ++ later.1, later.2)) := by
  have collected (frames : List (Bytes × Codec.Packet)) (left : Bytes) :
      (Except.ok (eventsOf frames, left) : Except Fault _).map (fun later =>
        ((eventOf packet).toList ++ later.1, later.2)) =
      .ok (eventsOf ((frame, packet) :: frames), left) := by
    rw [eventsOf_cons]
    rfl
  cases later with
  | @through frames left noFrame =>
    rw [collected]
    exact .through noFrame
  | @stopped frames bad left split decodable undecodable =>
    rw [collected]
    refine .stopped ?_ (decodable_cons decodes decodable) undecodable
    rw [split, bytesOf_cons, List.append_assoc]

theorem noFrame_of_short {stream : Bytes} (short : stream.length < 2) :
    ¬BeginsWithFrame stream := by
  intro begins
  obtain ⟨frame, rest, header, rfl, isFrame⟩ := (beginsWithFrame_iff stream).mp begins
  have two := isFrame.two_le
  rw [List.length_append] at short
  omega

theorem dealLoop_end (version : Protocol) :
    ∀ (fuel : Nat) (buf : Bytes), buf.length < fuel →
      LoopEnd version buf (dealLoop version fuel buf) := by
  intro fuel
  induction fuel with
  | zero => exact fun _ enough => absurd enough (Nat.not_lt_zero _)
  | succ fuel ih =>
    intro buf enough
    cases found version buf with
    | @packet frame rest packet split decodes =>
      rw [split, dealLoop_frame decodes]
      have shorter : rest.length < fuel := by
        have two := decodes.two_le
        rw [split, List.length_append] at enough
        omega
      by_cases more : rest.length ≥ 2
      · rw [if_pos more]
        exact (ih rest shorter).cons decodes
      · rw [if_neg more]
        have last : LoopEnd version rest (.ok (eventsOf [], rest)) :=
          .through (noFrame_of_short (Nat.not_le.mp more))
        have ended := last.cons decodes
        simpa [Except.map, eventsOf] using ended
    | @undecodable frame rest split undecodable =>
      obtain ⟨err, read⟩ := undecodable.read_append rest
      have ended : dealLoop version (fuel + 1) buf = .ok (eventsOf [], rest) := by
        rw [dealLoop, split, read]
        rfl
      rw [ended]
      exact .stopped split (by simp [Decodable]) undecodable
    | nothing waits noFrame =>
      rw [dealLoop_waits waits]
      exact @LoopEnd.through version buf [] buf noFrame
    | malformed dropped noFrame =>
      have ended : dealLoop version (fuel + 1) buf = .ok (eventsOf [], []) := by
        rw [dealLoop, dropped]
        rfl
      rw [ended]
      exact .through (noFrame_of_short (by decide))

/-- The loop always ends, and its events are those of frames. -/
theorem dealConnectedNetworkPacket_ok (version : Protocol) (buf : Bytes) :
    ∃ frames left, dealConnectedNetworkPacket version buf = .ok (eventsOf frames, left) := by
  have ended := dealLoop_end version _ buf (Nat.lt_succ_self buf.length)
  rw [dealConnectedNetworkPacket]
  generalize dealLoop version (buf.length + 1) buf = result at ended
  cases ended with
  | @through frames left noFrame => exact ⟨frames, left, rfl⟩
  | @stopped frames bad left split decodable undecodable => exact ⟨frames, left, rfl⟩

/-- Behind decodable frames the loop stops at an undecodable one and leaves the rest. -/
theorem dealLoop_stops {frames : List (Bytes × Codec.Packet)} {bad left : Bytes}
    (undecodable : Undecodable version bad) :
    ∀ fuel, Decodable version frames → (bytesOf frames ++ (bad ++ left)).length < fuel →
      dealLoop version fuel (bytesOf frames ++ (bad ++ left)) = .ok (eventsOf frames, left) := by
  obtain ⟨err, read⟩ := undecodable.read_append left
  induction frames with
  | nil =>
    intro fuel _ enough
    obtain ⟨fuel, rfl⟩ := Nat.exists_eq_succ_of_ne_zero (Nat.ne_of_gt (Nat.zero_lt_of_lt enough))
    rw [bytesOf, List.flatMap_nil, List.nil_append, dealLoop, read]
    rfl
  | cons frame frames ih =>
    intro fuel decodable enough
    obtain ⟨fuel, rfl⟩ := Nat.exists_eq_succ_of_ne_zero (Nat.ne_of_gt (Nat.zero_lt_of_lt enough))
    have decodes := decodable frame List.mem_cons_self
    have later : Decodable version frames := fun f h => decodable f (List.mem_cons_of_mem _ h)
    have parts : bytesOf (frame :: frames) ++ (bad ++ left) =
        frame.1 ++ (bytesOf frames ++ (bad ++ left)) := by
      rw [bytesOf_cons, List.append_assoc]
    obtain ⟨header, _, isFrame, _⟩ := undecodable
    have more : (bytesOf frames ++ (bad ++ left)).length ≥ 2 := by
      have two := isFrame.two_le
      simp only [List.length_append]
      omega
    rw [parts] at enough ⊢
    rw [dealLoop_frame decodes, if_pos more, ih fuel later, eventsOf_cons]
    · rfl
    · have two := decodes.two_le
      rw [List.length_append] at enough
      omega

/-! ## The turn of the handshake -/

/-- What one turn of the handshake can come to. -/
inductive Turned (version : Protocol) (buf : Bytes) : Handshake → Prop where
  | waits : Turned version buf (.waiting buf)
  | opened {frame rest : Bytes} {ack : ConnAck} (split : buf = frame ++ rest)
      (decodes : Decodes version frame (.ConnAck ack)) (code : ack.code = .Success) :
      Turned version buf (.connected ack.sessionPresent rest)
  | refused (reason : ToConnectError) : Turned version buf (.failed reason)

theorem checkConnAck_turned {frame rest : Bytes} {packet : Codec.Packet}
    (decodes : Decodes version frame packet) :
    Turned version (frame ++ rest) (checkConnAck packet rest) := by
  cases packet with
  | ConnAck ack =>
    rw [checkConnAck]
    cases code : ack.code with
    | Success => exact .opened rfl decodes code
    | Fail failCode => exact .refused _
  | _ => exact .refused _

theorem handshakeTurn_turned (version : Protocol) (buf : Bytes) :
    Turned version buf (handshakeTurn version buf) := by
  cases found version buf with
  | @packet frame rest packet split decodes =>
    subst split
    rw [handshakeTurn, decodes.read_append rest]
    exact checkConnAck_turned decodes
  | @undecodable frame rest split undecodable =>
    obtain ⟨err, read⟩ := undecodable.read_append rest
    rw [handshakeTurn, split, read]
    exact .refused _
  | nothing waits noFrame =>
    rcases waits with wait | ⟨size, cut⟩
    · rw [handshakeTurn, wait]
      exact .waits
    · rw [handshakeTurn, cut]
      exact .refused _
  | malformed dropped noFrame =>
    rw [handshakeTurn, dropped]
    exact .refused _

theorem connected_iff {version : Protocol} {buf rest : Bytes} {sessionPresent : Bool} :
    handshakeTurn version buf = .connected sessionPresent rest ↔
      ∃ frame ack, buf = frame ++ rest ∧ Decodes version frame (.ConnAck ack) ∧
        ack.code = .Success ∧ ack.sessionPresent = sessionPresent := by
  constructor
  · intro opened
    have turned := handshakeTurn_turned version buf
    rw [opened] at turned
    cases turned with
    | @opened frame rest ack split decodes code => exact ⟨frame, ack, split, decodes, code, rfl⟩
  · rintro ⟨frame, ack, rfl, decodes, code, rfl⟩
    rw [handshakeTurn, decodes.read_append rest]
    simp only [checkConnAck, code]

theorem handshakeTurn_waiting {version : Protocol} {buf left : Bytes}
    (waiting : handshakeTurn version buf = .waiting left) : left = buf := by
  have turned := handshakeTurn_turned version buf
  rw [waiting] at turned
  cases turned
  rfl

theorem handshakeTurn_no_fault (version : Protocol) (buf : Bytes) (fault : Fault) :
    handshakeTurn version buf ≠ .panicked fault := by
  intro panicked
  have turned := handshakeTurn_turned version buf
  rw [panicked] at turned
  cases turned

end Reader

end NetworkTask
