import ForMqttClient.PacketLoop

/-!
# Complete frames in a waiting task

While the connected task waits for input, its buffer should not begin with a
complete frame. Two steps can leave one there: the handshake, when frames came
in behind the CONNACK, and the packet loop, which returns at a frame that it
cannot decode. In all other steps the loop goes on to the last complete frame.
-/

namespace NetworkTask

open MqttData Codec ByteReader GuardedRuns

/-! ## The steps that wait -/

/-- No complete frame is in the buffer while the connected task waits. -/
def NothingStranded (t : Task) : Prop :=
  ∀ buf, t.phase = .connected buf → ¬BeginsWithFrame buf

/-- What comes in behind a CONNACK that opens the connection does not begin with
a complete frame. -/
def ConnAckLast (version : Protocol) (accepted : Option Nat) (buf : Bytes) : Prop :=
  ∀ frame ack rest, buf = frame ++ rest → Decodes version frame (.ConnAck ack) →
    ack.code = .Success → takes accepted 1 → ¬BeginsWithFrame rest

/-- What follows the first undecodable frame does not begin with a complete frame. -/
def UndecodableLast (version : Protocol) (accepted : Option Nat) (buf : Bytes) : Prop :=
  ∀ frames bad rest, buf = bytesOf frames ++ (bad ++ rest) → Decodable version frames →
    Undecodable version bad → takes accepted (eventsOf frames).length → ¬BeginsWithFrame rest

/-- The condition on the bytes that a step takes in. -/
def strandsNothing (t : Task) (action : Action) : Prop :=
  match t.phase, action.result with
  | .toConnect buf, .read (.ok chunk) =>
    chunk ≠ [] → ConnAckLast t.version action.accepted (buf ++ chunk)
  | .connected buf, .read (.ok chunk) =>
    chunk ≠ [] → UndecodableLast t.version action.accepted (buf ++ chunk)
  | _, _ => True

section Steps

variable {t t' : Task} {action : Action}

theorem dispatch_phase (t : Task) (accepted : Option Nat) (events : List Event) (next : Phase) :
    (t.dispatch accepted events next).phase =
      if takes accepted events.length then next else .dropped := by
  unfold Task.dispatch
  split <;> rfl

theorem connectFail_phase (t : Task) (accepted : Option Nat) (reason : ToConnectError) :
    (t.connectFail accepted reason).phase = .dropped := by
  rw [Task.connectFail, dispatch_phase]
  split <;> rfl

theorem networkError_phase (t : Task) (accepted : Option Nat) (msg : String) :
    (t.networkError accepted msg).phase = .dropped := by
  rw [Task.networkError, dispatch_phase]
  split <;> rfl

theorem nothingStranded_of_phase {phase : Phase} (same : t.phase = phase)
    (other : ∀ buf, phase ≠ .connected buf) : NothingStranded t := by
  intro buf connected
  rw [same] at connected
  exact absurd connected (other buf)

theorem connAckLast_of_unopened {version : Protocol} {accepted : Option Nat} {buf : Bytes}
    (unopened : ∀ sessionPresent rest,
      handshakeTurn version buf ≠ .connected sessionPresent rest) :
    ConnAckLast version accepted buf := by
  intro frame ack rest split decodes code _
  exact absurd (connected_iff.mpr ⟨frame, ack, split, decodes, code, rfl⟩) (unopened _ _)

theorem nothingStranded_afterHandshake (t : Task) (accepted : Option Nat) (buf : Bytes) :
    ConnAckLast t.version accepted buf ↔
      NothingStranded (t.afterHandshake accepted (handshakeTurn t.version buf)) := by
  cases turn : handshakeTurn t.version buf with
  | connected sessionPresent rest =>
    obtain ⟨frame, ack, split, decodes, code, _⟩ := connected_iff.mp turn
    constructor
    · intro last left connected
      rw [Task.afterHandshake, dispatch_phase] at connected
      split at connected
      · next taken =>
        cases connected
        exact last frame ack rest split decodes code taken
      · cases connected
    · intro nothing frame' ack' rest' split' decodes' code' taken
      rw [connected_iff.mpr ⟨frame', ack', split', decodes', code', rfl⟩] at turn
      cases turn
      refine nothing rest ?_
      rw [Task.afterHandshake, dispatch_phase]
      exact if_pos taken
  | waiting left =>
    exact iff_of_true (connAckLast_of_unopened (by simp [turn])) fun _ connected => by
      cases connected
  | failed reason =>
    exact iff_of_true (connAckLast_of_unopened (by simp [turn]))
      (nothingStranded_of_phase (connectFail_phase _ _ _) (by simp))
  | panicked fault =>
    exact iff_of_true (connAckLast_of_unopened (by simp [turn])) fun _ connected => by
      cases connected

theorem nothingStranded_afterPackets (t : Task) (accepted : Option Nat) (buf : Bytes) :
    UndecodableLast t.version accepted buf ↔
      NothingStranded (t.afterPackets accepted (dealConnectedNetworkPacket t.version buf)) := by
  have enough := Nat.lt_succ_self buf.length
  have ended := dealLoop_end t.version _ buf enough
  constructor
  · intro last left connected
    cases result : dealConnectedNetworkPacket t.version buf with
    | error fault =>
      rw [dealConnectedNetworkPacket] at result
      rw [result] at ended
      cases ended
    | ok outcome =>
      rw [result, Task.afterPackets, dispatch_phase] at connected
      rw [dealConnectedNetworkPacket] at result
      rw [result] at ended
      split at connected
      · next taken =>
        cases connected
        cases ended with
        | through noFrame => exact noFrame
        | stopped split decodable undecodable =>
          exact last _ _ _ split decodable undecodable taken
      · cases connected
  · rintro nothing frames bad rest rfl decodable undecodable taken
    have stops := dealLoop_stops undecodable _ decodable enough
    rw [dealConnectedNetworkPacket, stops, Task.afterPackets] at nothing
    refine nothing rest ?_
    rw [dispatch_phase]
    exact if_pos taken

theorem nothingStranded_dealNetworkData (kept : NothingStranded t) (accepted : Option Nat)
    (data : NetworkData) (written : Except String Unit) : NothingStranded (t.dealNetworkData accepted data written) := by
  cases data with
  | Disconnect => exact fun _ connected => by cases connected
  | Data data =>
    cases written with
    | ok _ => exact fun left connected => kept left connected
    | error msg => exact nothingStranded_of_phase (networkError_phase _ _ _) (by simp)

/-- A step strands a frame exactly if the bytes that it takes in are of one of
the two kinds. -/
theorem nothingStranded_step (kept : NothingStranded t) (stepped : t.step action = some t') :
    strandsNothing t action ↔ NothingStranded t' := by
  obtain ⟨result, accepted⟩ := action
  cases Task.step_move stepped with
  | opened phase =>
    exact iff_of_true (by simp [strandsNothing, phase]) fun _ connected => by cases connected
  | notOpened phase =>
    exact iff_of_true (by simp [strandsNothing, phase])
      (nothingStranded_of_phase (connectFail_phase _ _ _) (by simp))
  | connectWritten phase =>
    exact iff_of_true (by simp [strandsNothing, phase]) fun _ connected => by cases connected
  | connectUnwritten phase =>
    exact iff_of_true (by simp [strandsNothing, phase])
      (nothingStranded_of_phase (connectFail_phase _ _ _) (by simp))
  | @readToConnect buf result phase =>
    cases result with
    | error msg =>
      exact iff_of_true (by simp [strandsNothing, phase])
        (nothingStranded_of_phase (connectFail_phase _ _ _) (by simp))
    | ok chunk =>
      simp only [strandsNothing, phase]
      rw [Task.readToConnect]
      by_cases empty : chunk = []
      · rw [if_pos empty]
        exact iff_of_true (fun some => absurd empty some)
          (nothingStranded_of_phase (connectFail_phase _ _ _) (by simp))
      · rw [if_neg empty, forall_prop_of_true empty]
        exact nothingStranded_afterHandshake (t.record [.read chunk]) accepted (buf ++ chunk)
  | @readConnected buf result phase =>
    cases result with
    | error msg =>
      exact iff_of_true (by simp [strandsNothing, phase])
        (nothingStranded_of_phase (networkError_phase _ _ _) (by simp))
    | ok chunk =>
      simp only [strandsNothing, phase]
      rw [Task.readConnected]
      by_cases empty : chunk = []
      · rw [if_pos empty]
        exact iff_of_true (fun some => absurd empty some)
          (nothingStranded_of_phase (networkError_phase _ _ _) (by simp))
      · rw [if_neg empty, forall_prop_of_true empty]
        exact nothingStranded_afterPackets (t.record [.read chunk]) accepted (buf ++ chunk)
  | dealNetworkData phase =>
    exact iff_of_true (by simp [strandsNothing, phase])
      (nothingStranded_dealNetworkData kept _ _ _)
  | mailboxClosed phase =>
    exact iff_of_true (by simp [strandsNothing, phase]) fun _ connected => by cases connected
  | disconnectWritten phase =>
    exact iff_of_true (by simp [strandsNothing, phase]) fun _ connected => by cases connected
  | disconnectUnwritten phase =>
    exact iff_of_true (by simp [strandsNothing, phase])
      (nothingStranded_of_phase (networkError_phase _ _ _) (by simp))

end Steps

/-! ## Runs -/

/-- In a run the waiting task never has a complete frame in front of it exactly
if no step takes in bytes of one of the two kinds. -/
theorem nothing_stranded_iff (version : Protocol) (connectPacket : Bytes)
    (actions : List Action) :
    AllStates Task.step NothingStranded (.init version connectPacket) actions ↔
      AllSteps Task.step strandsNothing (.init version connectPacket) actions :=
  allStates_iff_allSteps (J := fun _ => True) (fun _ _ _ _ _ => trivial)
    (fun _ _ _ _ kept stepped => nothingStranded_step kept stepped) actions trivial
    fun _ connected => by cases connected

/-- The handshake up to the chunk with which it ends. -/
def handshakeWith (chunk : Bytes) : List Action :=
  [⟨.init (.ok ()), none⟩, ⟨.write (.ok ()), none⟩, ⟨.read (.ok chunk), none⟩]

/-- A PINGRESP that comes in with the CONNACK waits for the next bytes; and so
does one that comes in behind a SUBACK with an unknown code. -/
theorem frames_stranded :
    ¬AllStates Task.step NothingStranded (.init .V4 [])
        (handshakeWith [0x20, 2, 0, 0, 0xD0, 0]) ∧
      ¬AllStates Task.step NothingStranded (.init .V4 [])
        (handshakeWith [0x20, 2, 0, 0] ++ [⟨.read (.ok [0x90, 3, 0, 1, 7, 0xD0, 0]), none⟩]) := by
  have begins : BeginsWithFrame [0xD0, 0] :=
    ⟨{ byte1 := 0xD0, fixedHeaderLen := 2, remainingLen := 0 }, rfl, by decide⟩
  constructor
  · intro kept
    exact kept.last rfl _ rfl begins
  · intro kept
    exact kept.last rfl _ rfl begins

end NetworkTask
