import ForMqttClient.Chunks
import ForMqttClient.Lifecycle

/-!
# What a task makes of its stream

The broker answers with a CONNACK and sends frames behind it. In every run of a
task, whatever it writes and takes from its mailbox in between and however the
stream arrives, the packet events that it dispatches are those of the frames, in
their order; none is lost and none comes twice.
-/

namespace NetworkTask

open MqttData Codec ByteReader GuardedRuns

/-- A CONNACK of success, and frames behind it that can be decoded. -/
structure Stream (version : Protocol) (ackFrame : Bytes) (ack : ConnAck)
    (frames : List (Bytes × Codec.Packet)) : Prop where
  opens : Decodes version ackFrame (.ConnAck ack)
  success : ack.code = .Success
  decodable : Decodable version frames

/-- The events of packets among what the task has dispatched. -/
def packetsIn (log : List Entry) : List Event := (eventsIn log).filter Event.isPacket

/-- The packet events are those of frames at the front, and these have come in. -/
def Shown (ackFrame : Bytes) (frames : List (Bytes × Codec.Packet)) (log : List Entry) : Prop :=
  ∃ done todo, frames = done ++ todo ∧ packetsIn log = eventsOf done ∧
    (done ≠ [] → ackFrame ++ bytesOf done <+: bytesIn log)

/-- Nothing has been read since the handshake. -/
def JustShaken (log : List Entry) : Prop :=
  ∃ before sessionPresent after,
    log = before ++ .dispatched (.Connected sessionPresent) :: after ∧ bytesIn after = []

/-- The buffer holds what has come in behind the frames that were dispatched. It
holds no whole frame, unless nothing has been read since the handshake. -/
def Buffered (ackFrame : Bytes) (frames : List (Bytes × Codec.Packet)) (log : List Entry)
    (buf : Bytes) : Prop :=
  ∃ done todo, frames = done ++ todo ∧ packetsIn log = eventsOf done ∧
    bytesIn log = ackFrame ++ bytesOf done ++ buf ∧ (Partial buf todo ∨ JustShaken log)

structure ReadAt (ackFrame : Bytes) (frames : List (Bytes × Codec.Packet)) (t : Task) : Prop where
  shown : Shown ackFrame frames t.log
  buffered : ∀ buf, t.phase = .connected buf → Buffered ackFrame frames t.log buf

section Logs

variable {ackFrame : Bytes} {frames : List (Bytes × Codec.Packet)} {log more : List Entry}

theorem bytesIn_append (log more : List Entry) :
    bytesIn (log ++ more) = bytesIn log ++ bytesIn more := by
  rw [bytesIn, List.filterMap_append, List.flatten_append]
  rfl

theorem packetsIn_append (log more : List Entry) :
    packetsIn (log ++ more) = packetsIn log ++ packetsIn more := by
  rw [packetsIn, eventsIn_append, List.filter_append]
  rfl

theorem packetsIn_dispatched (events : List Event) (packets : ∀ event ∈ events, event.isPacket) :
    packetsIn (events.map .dispatched) = events ∧ bytesIn (events.map .dispatched) = [] := by
  constructor
  · rw [packetsIn, (readings_dispatched events).1, List.filter_eq_self]
    exact packets
  · induction events with
    | nil => rfl
    | cons event events ih => exact ih fun other listed => packets other (List.mem_cons_of_mem _ listed)

theorem Shown.nothing (none : packetsIn log = []) : Shown ackFrame frames log :=
  ⟨[], frames, rfl, none, fun some => absurd rfl some⟩

/-- What dispatches no packet changes nothing. -/
theorem Shown.extend (shown : Shown ackFrame frames log) (quiet : packetsIn more = []) :
    Shown ackFrame frames (log ++ more) := by
  obtain ⟨done, todo, split, packets, come⟩ := shown
  refine ⟨done, todo, split, ?_, fun some => ?_⟩
  · rw [packetsIn_append, quiet, List.append_nil, packets]
  · rw [bytesIn_append]
    exact (come some).trans (List.prefix_append _ _)

theorem Buffered.shown {buf : Bytes} (buffered : Buffered ackFrame frames log buf) :
    Shown ackFrame frames log := by
  obtain ⟨done, todo, split, packets, bytes, _⟩ := buffered
  exact ⟨done, todo, split, packets, fun _ => ⟨buf, bytes.symm⟩⟩

/-- Nothing is read and no packet is dispatched. -/
theorem Buffered.extend {buf : Bytes} (buffered : Buffered ackFrame frames log buf)
    (quiet : packetsIn more = []) (unread : bytesIn more = []) :
    Buffered ackFrame frames (log ++ more) buf := by
  obtain ⟨done, todo, split, packets, bytes, state⟩ := buffered
  refine ⟨done, todo, split, ?_, ?_, state.imp_right ?_⟩
  · rw [packetsIn_append, quiet, List.append_nil, packets]
  · rw [bytesIn_append, unread, List.append_nil, bytes]
  · rintro ⟨before, sessionPresent, after, rfl, none⟩
    refine ⟨before, sessionPresent, after ++ more, by simp, ?_⟩
    rw [bytesIn_append, none, unread]
    rfl

end Logs

section Steps

variable {version : Protocol} {ackFrame : Bytes} {ack : ConnAck}
variable {frames : List (Bytes × Codec.Packet)} {t t' : Task}

/-- A step that dispatches no packet and ends the connection or has none. -/
theorem readAt_quiet (reads : ReadAt ackFrame frames t) (more : List Entry)
    (log : t'.log = t.log ++ more)
    (quiet : packetsIn more = []) (unconnected : ∀ buf, t'.phase ≠ .connected buf) :
    ReadAt ackFrame frames t' :=
  ⟨log ▸ reads.shown.extend quiet, fun buf phase => absurd phase (unconnected buf)⟩

/-- The bytes behind a CONNECT make up the CONNACK and something more, or a part of it. -/
theorem handshakeTurn_stream (stream : Stream version ackFrame ack frames) {buf : Bytes}
    (inside : buf <+: ackFrame ++ bytesOf frames) {sessionPresent : Bool} {left : Bytes}
    (connected : handshakeTurn version buf = .connected sessionPresent left) :
    buf = ackFrame ++ left ∧ left <+: bytesOf frames := by
  obtain ⟨rest, whole⟩ := inside
  rcases within_or_behind whole with ⟨_, back, part, parts⟩ | ⟨behind, parts, after⟩
  · obtain ⟨header, isFrame, _⟩ := stream.opens.isFrame
    rw [parts] at isFrame
    rcases isFrame.front_waits part version with waits | ⟨size, cut⟩
    · rw [handshakeTurn, waits] at connected
      cases connected
    · rw [handshakeTurn, cut] at connected
      cases connected
  · rw [handshakeTurn, parts, stream.opens.read_append behind] at connected
    simp only [checkConnAck, stream.success] at connected
    cases connected
    exact ⟨parts, rest, after⟩

theorem readAt_toConnect (stream : Stream version ackFrame ack frames) {connectPacket : Bytes}
    (told : Told version connectPacket t) (reads : ReadAt ackFrame frames t) {buf : Bytes}
    (phase : t.phase = .toConnect buf) {result : Except String Bytes}
    (inside : bytesIn (t.readToConnect none buf result).log <+: ackFrame ++ bytesOf frames) :
    ReadAt ackFrame frames (t.readToConnect none buf result) := by
  obtain ⟨rfl, _, log⟩ := told
  rw [phase] at log
  obtain ⟨chunks, rfl, log⟩ := log
  have failed (more : List Entry) (quiet : packetsIn more = []) (t' : Task)
      (log : t'.log = t.log ++ more) (unconnected : ∀ buf, t'.phase ≠ .connected buf) :
      ReadAt ackFrame frames t' := readAt_quiet reads more log quiet unconnected
  cases result with
  | error msg => exact failed [.dispatched (.ConnectFail _)] rfl _ rfl (fun _ same => by cases same)
  | ok chunk =>
    by_cases empty : chunk = []
    · rw [Task.readToConnect, if_pos empty]
      exact failed [.dispatched (.ConnectFail _)] rfl _ rfl (fun _ same => by cases same)
    · rw [Task.readToConnect, if_neg empty] at inside ⊢
      cases turn : handshakeTurn t.version (chunks.flatten ++ chunk) with
      | waiting buf => exact failed [.read chunk] rfl _ rfl (fun _ same => by cases same)
      | failed reason =>
        exact failed [.read chunk, .dispatched (.ConnectFail reason)] rfl _
          (List.append_assoc t.log _ _) (fun _ same => by cases same)
      | panicked fault => exact failed [.read chunk] rfl _ rfl (fun _ same => by cases same)
      | connected sessionPresent left =>
        have read : bytesIn (t.log ++ [.read chunk, .dispatched (.Connected sessionPresent)]) =
            chunks.flatten ++ chunk := by
          rw [bytesIn_append, log, (readings_waiting connectPacket chunks).2.2.2]
          exact congrArg (chunks.flatten ++ ·) (List.append_nil chunk)
        have none : packetsIn (t.log ++ [.read chunk, .dispatched (.Connected sessionPresent)]) =
            [] := by
          rw [packetsIn_append, log, packetsIn, (readings_waiting connectPacket chunks).1]
          rfl
        have whole : ((t.record [.read chunk]).afterHandshake Option.none
            (.connected sessionPresent left)).log =
              t.log ++ [.read chunk, .dispatched (.Connected sessionPresent)] :=
          List.append_assoc t.log _ _
        rw [turn, whole, read] at inside
        obtain ⟨parts, front⟩ := handshakeTurn_stream stream inside turn
        have buffered : Buffered ackFrame frames
            (t.log ++ [.read chunk, .dispatched (.Connected sessionPresent)]) left := by
          refine ⟨[], frames, rfl, none, ?_, .inr ⟨t.log ++ [.read chunk], sessionPresent, [],
            by simp, rfl⟩⟩
          rw [read, parts]
          exact (List.append_assoc _ [] _).symm
        refine ⟨whole ▸ buffered.shown, fun buf phase => ?_⟩
        obtain rfl : left = buf := Phase.connected.inj phase
        exact whole ▸ buffered

/-- A chunk of the connected phase: the frames that it makes whole are dispatched. -/
theorem readAt_connected (stream : Stream t.version ackFrame ack frames)
    (reads : ReadAt ackFrame frames t) {buf : Bytes} (phase : t.phase = .connected buf)
    {result : Except String Bytes}
    (inside : bytesIn (t.readConnected none buf result).log <+: ackFrame ++ bytesOf frames) :
    ReadAt ackFrame frames (t.readConnected none buf result) := by
  have lost (msg : String) : ReadAt ackFrame frames (t.networkError none msg) :=
    readAt_quiet reads [.dispatched (.ConnectedErr msg)] rfl rfl nofun
  cases result with
  | error msg => exact lost msg
  | ok chunk =>
    by_cases empty : chunk = []
    · rw [Task.readConnected, if_pos empty]
      exact lost _
    · rw [Task.readConnected, if_neg empty] at inside ⊢
      obtain ⟨done, todo, rfl, packets, bytes, _⟩ := reads.buffered buf phase
      have decodable : Decodable t.version todo :=
        fun frame listed => stream.decodable frame (List.mem_append_right _ listed)
      -- what was read is known before it is known what the loop has made of it
      have read (events : List Event) (left : Bytes) (packets : ∀ event ∈ events, event.isPacket) :
          bytesIn ((t.record [.read chunk]).afterPackets none (.ok (events, left))).log =
            bytesIn t.log ++ chunk := by
        change bytesIn ((t.log ++ [.read chunk]) ++ events.map .dispatched) = _
        rw [bytesIn_append, bytesIn_append, (packetsIn_dispatched events packets).2,
          List.append_nil]
        exact congrArg (bytesIn t.log ++ ·) (List.append_nil chunk)
      obtain ⟨others, left', dealt⟩ := dealConnectedNetworkPacket_ok t.version (buf ++ chunk)
      rw [dealt, read _ _ fun _ => isPacket_of_eventsOf] at inside
      obtain ⟨rest, whole⟩ := inside
      have ahead : (buf ++ chunk) ++ rest = bytesOf todo := by
        have all : bytesOf (done ++ todo) = bytesOf done ++ bytesOf todo := List.flatMap_append
        rw [bytes, all] at whole
        simp only [List.append_assoc, List.append_cancel_left_eq] at whole ⊢
        exact whole
      obtain ⟨now, next, left, rfl, result, remains, partly⟩ :=
        (dealLoop_dealt decodable ahead (Nat.lt_succ_self _)).split
      have packetEvents : ∀ event ∈ eventsOf now, event.isPacket := fun _ => isPacket_of_eventsOf
      have buffered : Buffered ackFrame (done ++ (now ++ next))
          ((t.record [.read chunk]).afterPackets none (.ok (eventsOf now, left))).log left := by
        refine ⟨done ++ now, next, (List.append_assoc _ _ _).symm, ?_, ?_, .inl partly⟩
        · change packetsIn ((t.log ++ [.read chunk]) ++ (eventsOf now).map .dispatched) = _
          rw [packetsIn_append, packetsIn_append, packets, (packetsIn_dispatched _ packetEvents).1]
          have both : eventsOf (done ++ now) = eventsOf done ++ eventsOf now :=
            List.filterMap_append
          rw [both]
          exact congrArg (· ++ eventsOf now) (List.append_nil _)
        · have parts : bytesOf (done ++ now) = bytesOf done ++ bytesOf now := List.flatMap_append
          rw [read _ _ packetEvents, bytes, parts]
          have taken : buf ++ chunk = bytesOf now ++ left := by
            have all : bytesOf (now ++ next) = bytesOf now ++ bytesOf next := List.flatMap_append
            rw [all, ← remains, ← List.append_assoc] at ahead
            exact List.append_cancel_right ahead
          simp only [List.append_assoc, taken]
      rw [dealConnectedNetworkPacket, result]
      refine ⟨buffered.shown, fun buf phase => ?_⟩
      obtain rfl : left = buf := Phase.connected.inj phase
      exact buffered

theorem readAt_networkData (reads : ReadAt ackFrame frames t)
    (data : NetworkData) (written : Except String Unit) :
    ReadAt ackFrame frames (t.dealNetworkData none data written) := by
  have goesOn (more : List Entry) (quiet : packetsIn more = []) (unread : bytesIn more = [])
      (t' : Task) (log : t'.log = t.log ++ more) (same : t'.phase = t.phase) :
      ReadAt ackFrame frames t' := by
    refine ⟨log ▸ reads.shown.extend quiet, fun buf phase => ?_⟩
    exact log ▸ (reads.buffered buf (same ▸ phase)).extend quiet unread
  cases data with
  | Disconnect =>
    exact readAt_quiet reads [.received .Disconnect] rfl rfl nofun
  | Data item =>
    cases written with
    | error msg =>
      exact readAt_quiet reads [.received (.Data item), .dispatched (.ConnectedErr msg)]
        (List.append_assoc t.log _ _) rfl nofun
    | ok _ =>
      obtain ⟨data, receipter⟩ := item
      cases receipter with
      | none =>
        exact goesOn [.received (.Data ⟨data, none⟩), .wrote data] rfl rfl _
          (by simp [Task.dealNetworkData, Task.done, Task.record]) rfl
      | some receipter =>
        exact goesOn [.received (.Data ⟨data, some receipter⟩), .wrote data, .done receipter] rfl
          rfl _ (by simp [Task.dealNetworkData, Task.done, Task.record]) rfl

theorem readAt_step {connectPacket : Bytes} (stream : Stream version ackFrame ack frames)
    (told : Told version connectPacket t) (reads : ReadAt ackFrame frames t) {action : Action}
    (bus : busOpen t action) (stepped : t.step action = some t')
    (inside : bytesIn t'.log <+: ackFrame ++ bytesOf frames) : ReadAt ackFrame frames t' := by
  obtain ⟨result, accepted⟩ := action
  have accepts : accepted = none := bus
  subst accepts
  have version_eq := told.sameVersion
  cases Task.step_move stepped with
  | opened phase =>
    exact readAt_quiet reads [] (List.append_nil _).symm rfl nofun
  | notOpened phase =>
    exact readAt_quiet reads [.dispatched (.ConnectFail _)] rfl rfl nofun
  | connectWritten phase =>
    exact readAt_quiet reads [.wrote t.connectPacket] rfl rfl nofun
  | connectUnwritten phase =>
    exact readAt_quiet reads [.dispatched (.ConnectFail _)] rfl rfl nofun
  | readToConnect phase => exact readAt_toConnect stream told reads phase inside
  | readConnected phase => exact readAt_connected (version_eq ▸ stream) reads phase inside
  | dealNetworkData phase => exact readAt_networkData reads _ _
  | mailboxClosed phase =>
    exact readAt_quiet reads [] (List.append_nil _).symm rfl nofun
  | disconnectWritten phase =>
    exact readAt_quiet reads [.wrote (Disconnect.new t.version).data] rfl rfl nofun
  | disconnectUnwritten phase =>
    exact readAt_quiet reads [.dispatched (.ConnectedErr _)] rfl rfl nofun

/-- The log only grows. -/
theorem log_of_step {action : Action} (bus : busOpen t action) (stepped : t.step action = some t') :
    t.log <+: t'.log := by
  obtain ⟨result, accepted⟩ := action
  have accepts : accepted = none := bus
  subst accepts
  have failed (t : Task) (reason : ToConnectError) : t.log <+: (t.connectFail none reason).log :=
    List.prefix_append _ _
  have lost (t : Task) (msg : String) : t.log <+: (t.networkError none msg).log :=
    List.prefix_append _ _
  cases Task.step_move stepped with
  | opened phase => exact List.prefix_rfl
  | notOpened phase => exact failed t _
  | connectWritten phase => exact List.prefix_append _ _
  | connectUnwritten phase => exact failed t _
  | @readToConnect buf result phase =>
    cases result with
    | error msg => exact failed t _
    | ok chunk =>
      rw [Task.readToConnect]
      split
      · exact failed t _
      · have read : t.log <+: (t.record [.read chunk]).log := List.prefix_append _ _
        cases handshakeTurn t.version (buf ++ chunk) with
        | waiting buf => exact read
        | connected sessionPresent buf => exact read.trans (List.prefix_append _ _)
        | failed reason => exact read.trans (failed _ reason)
        | panicked fault => exact read
  | @readConnected buf result phase =>
    cases result with
    | error msg => exact lost t _
    | ok chunk =>
      rw [Task.readConnected]
      split
      · exact lost t _
      · have read : t.log <+: (t.record [.read chunk]).log := List.prefix_append _ _
        cases dealConnectedNetworkPacket t.version (buf ++ chunk) with
        | ok result => exact read.trans (List.prefix_append _ _)
        | error fault => exact read
  | @dealNetworkData buf data written phase =>
    have taken : t.log <+: (t.record [.received data]).log := List.prefix_append _ _
    cases data with
    | Disconnect => exact taken
    | Data item =>
      cases written with
      | ok _ =>
        exact taken.trans ((List.prefix_append _ [.wrote item.data]).trans (List.prefix_append _ _))
      | error msg => exact taken.trans (lost _ msg)
  | mailboxClosed phase => exact List.prefix_rfl
  | disconnectWritten phase => exact List.prefix_append _ _
  | disconnectUnwritten phase => exact lost t _

theorem readAt_of_reachable {connectPacket : Bytes} (stream : Stream version ackFrame ack frames)
    (reached : Reachable Task.step busOpen (.init version connectPacket) t)
    (inside : bytesIn t.log <+: ackFrame ++ bytesOf frames) : ReadAt ackFrame frames t := by
  have both : Told version connectPacket t ∧
      (bytesIn t.log <+: ackFrame ++ bytesOf frames → ReadAt ackFrame frames t) := by
    refine reached.invariant (I := fun t => Told version connectPacket t ∧
      (bytesIn t.log <+: ackFrame ++ bytesOf frames → ReadAt ackFrame frames t)) ?_ ?_
    · exact ⟨told_of_reachable .start, fun _ => ⟨.nothing rfl, nofun⟩⟩
    · rintro t action t' _ ⟨told, reads⟩ bus stepped
      refine ⟨told_step told bus stepped, fun inside => ?_⟩
      obtain ⟨more, log⟩ := log_of_step bus stepped
      have before : bytesIn t.log <+: bytesIn t'.log := by
        rw [← log, bytesIn_append]
        exact List.prefix_append _ _
      exact readAt_step stream told (reads (before.trans inside)) bus stepped inside
  exact both.2 inside

end Steps

/-- In every run of a task whose broker sends a CONNACK of success and frames that
can be decoded, the packet events are those of the frames at the front: of those
that have come in whole as soon as anything is read behind the handshake. -/
theorem packets_of_stream {version : Protocol} {connectPacket ackFrame : Bytes} {ack : ConnAck}
    {frames : List (Bytes × Codec.Packet)} {t : Task}
    (stream : Stream version ackFrame ack frames)
    (reached : Reachable Task.step busOpen (.init version connectPacket) t)
    (inside : bytesIn t.log <+: ackFrame ++ bytesOf frames) :
    Shown ackFrame frames t.log ∧
      ∀ buf, t.phase = .connected buf → Buffered ackFrame frames t.log buf :=
  ⟨(readAt_of_reachable stream reached inside).shown,
    (readAt_of_reachable stream reached inside).buffered⟩

/-- A PINGRESP and a PUBACK in pieces, with a write between them. -/
def piecemeal : List Action :=
  [⟨.init (.ok ()), none⟩, ⟨.write (.ok ()), none⟩, ⟨.read (.ok [0x20, 2, 0, 0, 0xD0]), none⟩,
    ⟨.read (.ok [0, 0x40]), none⟩, ⟨.recv (.Data ⟨[0xC0, 0], some 3⟩) (.ok ()), none⟩,
    ⟨.read (.ok [2, 0, 1]), none⟩]

theorem two_packets_of_stream :
    ∃ t, Reachable Task.step busOpen (.init .V4 []) t ∧
      packetsIn t.log = [.PingResp, .PubAck (.V4 1)] ∧
      Shown [0x20, 2, 0, 0] [([0xD0, 0], .PingResp), ([0x40, 2, 0, 1], .PubAck (.V4 1))] t.log := by
  have stream : Stream .V4 [0x20, 2, 0, 0] ⟨false, .Success, none⟩
      [([0xD0, 0], .PingResp), ([0x40, 2, 0, 1], .PubAck (.V4 1))] := by
    refine ⟨rfl, rfl, ?_⟩
    intro frame listed
    simp only [List.mem_cons, List.not_mem_nil, or_false] at listed
    rcases listed with rfl | rfl <;> rfl
  obtain ⟨t, reached, packets, bytes⟩ : ∃ t, Reachable Task.step busOpen (.init .V4 []) t ∧
      packetsIn t.log = [.PingResp, .PubAck (.V4 1)] ∧
      bytesIn t.log = [0x20, 2, 0, 0, 0xD0, 0, 0x40, 2, 0, 1] :=
    exists_of_guardedRun piecemeal (by decide +kernel)
  have inside : bytesIn t.log <+: [0x20, 2, 0, 0] ++
      bytesOf [([0xD0, 0], .PingResp), ([0x40, 2, 0, 1], .PubAck (.V4 1))] := ⟨[], by rw [bytes]; rfl⟩
  exact ⟨t, reached, packets, (packets_of_stream stream reached inside).1⟩

end NetworkTask
