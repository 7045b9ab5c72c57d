import ForMqttClient.PacketLoop

/-!
# The life of a network task

The log of a task tells its whole life: the CONNECT packet and the chunks of the
handshake, the event that opens the connection, the turns of the connected
phase, and an ending. From this shape, which every step extends, follow the
order of its events, of its writes and receipts, and what it still does after
the hub told it to disconnect.
-/

namespace NetworkTask

open MqttData Codec ByteReader GuardedRuns

/-! ## Readings of a log -/

/-- Events that come from a packet of the broker. -/
def Event.isPacket : Event → Bool
  | .Connected _ => false
  | .ConnectFail _ => false
  | .ConnectedErr _ => false
  | _ => true

def eventIn : Entry → Option Event
  | .dispatched event => some event
  | _ => none

def itemIn : Entry → Option DataWaitingToBeSend
  | .received (.Data item) => some item
  | _ => none

def chunkIn : Entry → Option Bytes
  | .read chunk => some chunk
  | _ => none

/-- Writes and receipts. -/
def isOutput : Entry → Bool
  | .wrote _ => true
  | .done _ => true
  | _ => false

def eventsIn (log : List Entry) : List Event := log.filterMap eventIn

def itemsIn (log : List Entry) : List DataWaitingToBeSend := log.filterMap itemIn

def bytesIn (log : List Entry) : Bytes := (log.filterMap chunkIn).flatten

def outputIn (log : List Entry) : List Entry := log.filter isOutput

/-- The write of an item, and its receipt behind it. -/
def served (item : DataWaitingToBeSend) : List Entry :=
  .wrote item.data :: item.receipter.toList.map .done

/-! ## What a log may look like -/

inductive EventTrace : List Event → Prop where
  | nothing : EventTrace []
  | refused (reason : ToConnectError) : EventTrace [.ConnectFail reason]
  | connected (sessionPresent : Bool) (packets : List Event)
      (fromPackets : ∀ event ∈ packets, event.isPacket) :
      EventTrace (.Connected sessionPresent :: packets)
  | lost (sessionPresent : Bool) (packets : List Event) (msg : String)
      (fromPackets : ∀ event ∈ packets, event.isPacket) :
      EventTrace (.Connected sessionPresent :: packets ++ [.ConnectedErr msg])

/-- The bytes begin with a CONNACK that opens the connection. -/
def OpenedBy (version : Protocol) (bytes : Bytes) (sessionPresent : Bool) : Prop :=
  ∃ frame ack rest, bytes = frame ++ rest ∧ Decodes version frame (.ConnAck ack) ∧
    ack.code = .Success ∧ ack.sessionPresent = sessionPresent

/-- All items but the last one, whose write may have failed, were written in
their order behind CONNECT, and at most a DISCONNECT comes behind them. -/
inductive OutputTrace (version : Protocol) (connectPacket : Bytes)
    (items : List DataWaitingToBeSend) : List Entry → Prop where
  | nothing (none : items = []) : OutputTrace version connectPacket items []
  | written (sent : List DataWaitingToBeSend)
      (order : items = sent ∨ ∃ failed, items = sent ++ [failed]) :
      OutputTrace version connectPacket items (.wrote connectPacket :: sent.flatMap served)
  | farewell :
      OutputTrace version connectPacket items
        (.wrote connectPacket :: items.flatMap served ++ [.wrote (Disconnect.new version).data])

/-- What the task still does after the command to disconnect. -/
inductive Farewell (version : Protocol) : List Entry → Prop where
  | nothing : Farewell version []
  | written : Farewell version [.wrote (Disconnect.new version).data]
  | unwritten (msg : String) : Farewell version [.dispatched (.ConnectedErr msg)]

structure Lifecycle (version : Protocol) (connectPacket : Bytes) (log : List Entry) : Prop where
  events : EventTrace (eventsIn log)
  opened : ∀ before after sessionPresent,
    log = before ++ .dispatched (.Connected sessionPresent) :: after →
      OpenedBy version (bytesIn before) sessionPresent
  output : OutputTrace version connectPacket (itemsIn log) (outputIn log)
  quiet : ∀ before after, log = before ++ .received .Disconnect :: after →
    Farewell version after

/-! ## The parts of a log -/

/-- A turn of the connected phase. -/
inductive Turn where
  | read (chunk : Bytes) (events : List Event)
  | serve (item : DataWaitingToBeSend)

namespace Turn

def entries : Turn → List Entry
  | .read chunk events => .read chunk :: events.map .dispatched
  | .serve item => .received (.Data item) :: served item

def events : Turn → List Event
  | .read _ events => events
  | .serve _ => []

def items : Turn → List DataWaitingToBeSend
  | .read _ _ => []
  | .serve item => [item]

end Turn

inductive Ending (version : Protocol) : List Entry → Prop where
  | nothing : Ending version []
  | err (msg : String) : Ending version [.dispatched (.ConnectedErr msg)]
  | unwritten (item : DataWaitingToBeSend) (msg : String) :
      Ending version [.received (.Data item), .dispatched (.ConnectedErr msg)]
  | command {after : List Entry} (farewell : Farewell version after) :
      Ending version (.received .Disconnect :: after)

/-- The log up to the event that opens the connection. -/
def waiting (connectPacket : Bytes) (chunks : List Bytes) : List Entry :=
  .wrote connectPacket :: chunks.map .read

/-- The log of a task that was connected: how it came to be, its turns, and an ending. -/
def session (connectPacket : Bytes) (chunks : List Bytes) (sessionPresent : Bool)
    (turns : List Turn) (ending : List Entry) : List Entry :=
  waiting connectPacket chunks ++ .dispatched (.Connected sessionPresent) ::
    (turns.flatMap Turn.entries ++ ending)

/-- The parts of the log of a connected task. -/
structure Connected (version : Protocol) (connectPacket : Bytes) (ending log : List Entry) :
    Prop where
  parts : ∃ chunks sessionPresent turns,
    log = session connectPacket chunks sessionPresent turns ending ∧
      OpenedBy version chunks.flatten sessionPresent ∧
      ∀ turn ∈ turns, ∀ event ∈ turn.events, event.isPacket

/-- The log in each phase. -/
def LogAt (version : Protocol) (connectPacket : Bytes) (log : List Entry) : Phase → Prop
  | .toInit => log = []
  | .toWriteConnect => log = []
  | .toConnect buf => ∃ chunks, buf = chunks.flatten ∧ log = waiting connectPacket chunks
  | .connected _ => Connected version connectPacket [] log
  | .toDisconnect => Connected version connectPacket [.received .Disconnect] log
  | .disconnected =>
    Connected version connectPacket
      [.received .Disconnect, .wrote (Disconnect.new version).data] log
  | .dropped =>
    (∃ reason, log = [.dispatched (.ConnectFail reason)]) ∨
      (∃ chunks reason,
        log = waiting connectPacket chunks ++ [.dispatched (.ConnectFail reason)]) ∨
      ∃ ending, Ending version ending ∧ Connected version connectPacket ending log
  | .panicked _ => False

/-! ## Every step extends the log -/

section Steps

variable {t t' : Task} {action : Action}

/-- The bus takes every dispatch. -/
def busOpen (_ : Task) (action : Action) : Prop := action.accepted = none

instance (t : Task) (action : Action) : Decidable (busOpen t action) :=
  inferInstanceAs (Decidable (action.accepted = none))

theorem dispatch_open (t : Task) (events : List Event) (next : Phase) :
    t.dispatch none events next =
      { t.record (events.map .dispatched) with phase := next } := rfl

theorem Connected.extend {version : Protocol} {connectPacket : Bytes}
    {ending log : List Entry} (connected : Connected version connectPacket ending log)
    (more : List Entry) : Connected version connectPacket (ending ++ more) (log ++ more) := by
  obtain ⟨chunks, sessionPresent, turns, rfl, opened, packets⟩ := connected.parts
  refine ⟨chunks, sessionPresent, turns, ?_, opened, packets⟩
  simp [session]

/-- One more turn of an open connection. -/
theorem Connected.turn {version : Protocol} {connectPacket : Bytes} {log : List Entry}
    (connected : Connected version connectPacket [] log) (turn : Turn)
    (packets : ∀ event ∈ turn.events, event.isPacket) :
    Connected version connectPacket [] (log ++ turn.entries) := by
  obtain ⟨chunks, sessionPresent, turns, rfl, opened, all⟩ := connected.parts
  refine ⟨chunks, sessionPresent, turns ++ [turn], ?_, opened, ?_⟩
  · simp [session]
  · intro other listed
    rcases List.mem_append.mp listed with earlier | last
    · exact all other earlier
    · rw [List.mem_singleton.mp last]
      exact packets

theorem isPacket_of_eventOf {packet : Codec.Packet} {event : Event}
    (dispatched : eventOf packet = some event) : event.isPacket := by
  cases packet with
  | ConnAck ack => cases dispatched
  | _ =>
    cases dispatched
    rfl

theorem isPacket_of_eventsOf {frames : List (Bytes × Codec.Packet)} {event : Event}
    (dispatched : event ∈ eventsOf frames) : event.isPacket := by
  obtain ⟨frame, _, fromFrame⟩ := List.mem_filterMap.mp dispatched
  exact isPacket_of_eventOf fromFrame

/-- What the log says of a task with these data. -/
structure Told (version : Protocol) (connectPacket : Bytes) (t : Task) : Prop where
  sameVersion : t.version = version
  samePacket : t.connectPacket = connectPacket
  log : LogAt version connectPacket t.log t.phase

section Told

variable {version : Protocol} {connectPacket : Bytes}

/-- The handshake ends, or goes on, with one chunk more. -/
theorem Told.readToConnect {buf : Bytes} {result : Except String Bytes}
    (told : Told version connectPacket t) (phase : t.phase = .toConnect buf) :
    Told version connectPacket (t.readToConnect none buf result) := by
  obtain ⟨rfl, rfl, log⟩ := told
  rw [phase] at log
  obtain ⟨chunks, rfl, log⟩ := log
  have failed (t' : Task) (reason : ToConnectError) (sameVersion : t'.version = t.version)
      (samePacket : t'.connectPacket = t.connectPacket) (chunks' : List Bytes)
      (log' : t'.log = waiting t.connectPacket chunks') :
      Told t.version t.connectPacket (t'.connectFail none reason) := by
    refine ⟨sameVersion, samePacket, Or.inr (Or.inl ⟨chunks', reason, ?_⟩)⟩
    rw [← log']
    rfl
  cases result with
  | error msg => exact failed t _ rfl rfl chunks log
  | ok chunk =>
    rw [Task.readToConnect]
    by_cases empty : chunk = []
    · rw [if_pos empty]
      exact failed t _ rfl rfl chunks log
    · rw [if_neg empty]
      have log' : (t.record [.read chunk]).log =
          waiting t.connectPacket (chunks ++ [chunk]) := by
        rw [Task.record, log]
        simp [waiting]
      have bytes : chunks.flatten ++ chunk = (chunks ++ [chunk]).flatten := by simp
      cases turn : handshakeTurn t.version (chunks.flatten ++ chunk) with
      | waiting left =>
        have same := handshakeTurn_waiting turn
        exact ⟨rfl, rfl, chunks ++ [chunk], same.trans bytes, log'⟩
      | connected sessionPresent left =>
        obtain ⟨frame, ack, split, decodes, code, present⟩ := connected_iff.mp turn
        refine ⟨rfl, rfl, chunks ++ [chunk], sessionPresent, [], ?_, ?_, by simp⟩
        · change (t.record [.read chunk]).log ++ _ = _
          rw [log']
          simp [session]
        · rw [← bytes]
          exact ⟨frame, ack, left, split, decodes, code, present⟩
      | failed reason => exact failed (t.record [.read chunk]) _ rfl rfl _ log'
      | panicked fault => exact absurd turn (handshakeTurn_no_fault _ _ fault)

theorem Told.readConnected {buf : Bytes} {result : Except String Bytes}
    (told : Told version connectPacket t) (phase : t.phase = .connected buf) :
    Told version connectPacket (t.readConnected none buf result) := by
  obtain ⟨rfl, rfl, log⟩ := told
  rw [phase] at log
  have lost (msg : String) : Told t.version t.connectPacket (t.networkError none msg) :=
    ⟨rfl, rfl, Or.inr (Or.inr ⟨_, .err msg, log.extend [.dispatched (.ConnectedErr msg)]⟩)⟩
  cases result with
  | error msg => exact lost msg
  | ok chunk =>
    rw [Task.readConnected]
    by_cases empty : chunk = []
    · rw [if_pos empty]
      exact lost _
    · rw [if_neg empty]
      obtain ⟨frames, left, dealt⟩ := dealConnectedNetworkPacket_ok t.version (buf ++ chunk)
      rw [dealt]
      have turned := Connected.turn log (.read chunk (eventsOf frames)) fun event dispatched =>
        isPacket_of_eventsOf dispatched
      refine ⟨rfl, rfl, ?_⟩
      have log' : ((t.record [.read chunk]).dispatch none (eventsOf frames)
          (.connected left)).log = t.log ++ Turn.entries (.read chunk (eventsOf frames)) := by
        simp [dispatch_open, Task.record, Turn.entries]
      exact log' ▸ turned

theorem Told.dealNetworkData {buf : Bytes} (told : Told version connectPacket t)
    (phase : t.phase = .connected buf) (data : NetworkData) (written : Except String Unit) :
    Told version connectPacket (t.dealNetworkData none data written) := by
  obtain ⟨rfl, rfl, log⟩ := told
  rw [phase] at log
  cases data with
  | Disconnect => exact ⟨rfl, rfl, log.extend [.received .Disconnect]⟩
  | Data item =>
    cases written with
    | error msg =>
      refine ⟨rfl, rfl, Or.inr (Or.inr ⟨_, .unwritten item msg, ?_⟩)⟩
      have extended := log.extend [.received (.Data item), .dispatched (.ConnectedErr msg)]
      simpa [Task.dealNetworkData, Task.networkError, dispatch_open, Task.record] using extended
    | ok _ =>
      refine ⟨rfl, rfl, ?_⟩
      have turned := Connected.turn log (.serve item) (by simp [Turn.events])
      have phase' : (t.dealNetworkData none (.Data item) (.ok ())).phase = .connected buf := phase
      rw [phase']
      change Connected t.version t.connectPacket [] _
      simpa [Task.dealNetworkData, Task.done, Task.record, Turn.entries, served] using turned

theorem told_step (told : Told version connectPacket t) (bus : busOpen t action)
    (stepped : t.step action = some t') : Told version connectPacket t' := by
  obtain ⟨result, accepted⟩ := action
  have accepts : accepted = none := bus
  subst accepts
  obtain ⟨sameVersion, samePacket, log⟩ := id told
  cases Task.step_move stepped with
  | opened phase =>
    rw [phase] at log
    exact ⟨sameVersion, samePacket, log⟩
  | @notOpened reason phase =>
    rw [phase] at log
    refine ⟨sameVersion, samePacket, Or.inl ⟨reason, ?_⟩⟩
    change t.log ++ _ = _
    rw [log]
    rfl
  | connectWritten phase =>
    rw [phase] at log
    refine ⟨sameVersion, samePacket, [], rfl, ?_⟩
    change t.log ++ [.wrote t.connectPacket] = _
    rw [log, samePacket]
    rfl
  | @connectUnwritten msg phase =>
    rw [phase] at log
    refine ⟨sameVersion, samePacket, Or.inl ⟨.NetworkError msg, ?_⟩⟩
    change t.log ++ _ = _
    rw [log]
    rfl
  | readToConnect phase => exact told.readToConnect phase
  | readConnected phase => exact told.readConnected phase
  | dealNetworkData phase => exact told.dealNetworkData phase _ _
  | mailboxClosed phase =>
    rw [phase] at log
    exact ⟨sameVersion, samePacket, Or.inr (Or.inr ⟨[], .nothing, log⟩)⟩
  | disconnectWritten phase =>
    rw [phase] at log
    refine ⟨sameVersion, samePacket, ?_⟩
    change Connected version connectPacket _ (t.log ++ [.wrote (Disconnect.new t.version).data])
    rw [sameVersion]
    exact Connected.extend log [.wrote (Disconnect.new version).data]
  | @disconnectUnwritten msg phase =>
    rw [phase] at log
    exact ⟨sameVersion, samePacket, Or.inr (Or.inr ⟨_, .command (.unwritten msg),
      Connected.extend log [.dispatched (.ConnectedErr msg)]⟩)⟩

theorem told_of_reachable {version : Protocol} {connectPacket : Bytes} {t : Task}
    (reached : Reachable Task.step busOpen (.init version connectPacket) t) :
    Told version connectPacket t := by
  have start : LogAt version connectPacket [] .toInit := (rfl : ([] : List Entry) = [])
  exact reached.invariant (I := Told version connectPacket) ⟨rfl, rfl, start⟩
    fun _ _ _ _ told bus stepped => told_step told bus stepped

end Told

end Steps

/-! ## Reading the parts -/

section Parts

variable {version : Protocol} {connectPacket : Bytes}

/-- The log of a task in any phase. -/
inductive Shape (version : Protocol) (connectPacket : Bytes) : List Entry → Prop where
  | nothing : Shape version connectPacket []
  | unopened (reason : ToConnectError) :
      Shape version connectPacket [.dispatched (.ConnectFail reason)]
  | waits (chunks : List Bytes) : Shape version connectPacket (waiting connectPacket chunks)
  | refused (chunks : List Bytes) (reason : ToConnectError) :
      Shape version connectPacket
        (waiting connectPacket chunks ++ [.dispatched (.ConnectFail reason)])
  | connected {ending log : List Entry} (ends : Ending version ending)
      (parts : Connected version connectPacket ending log) : Shape version connectPacket log

theorem shape_of_logAt {log : List Entry} {phase : Phase}
    (told : LogAt version connectPacket log phase) : Shape version connectPacket log := by
  cases phase with
  | toInit => exact told ▸ .nothing
  | toWriteConnect => exact told ▸ .nothing
  | toConnect buf =>
    obtain ⟨chunks, _, log⟩ := told
    exact log ▸ .waits chunks
  | connected buf => exact .connected .nothing told
  | toDisconnect => exact .connected (.command .nothing) told
  | disconnected => exact .connected (.command .written) told
  | dropped =>
    rcases told with ⟨reason, log⟩ | ⟨chunks, reason, log⟩ | ⟨ending, ends, parts⟩
    · exact log ▸ .unopened reason
    · exact log ▸ .refused chunks reason
    · exact .connected ends parts
  | panicked fault => exact told.elim

theorem eventsIn_append (a b : List Entry) : eventsIn (a ++ b) = eventsIn a ++ eventsIn b :=
  List.filterMap_append

theorem itemsIn_append (a b : List Entry) : itemsIn (a ++ b) = itemsIn a ++ itemsIn b :=
  List.filterMap_append

theorem outputIn_append (a b : List Entry) : outputIn (a ++ b) = outputIn a ++ outputIn b :=
  List.filter_append a b

theorem readings_reads (chunks : List Bytes) :
    eventsIn (chunks.map .read) = [] ∧ itemsIn (chunks.map .read) = [] ∧
      outputIn (chunks.map .read) = [] ∧ bytesIn (chunks.map .read) = chunks.flatten := by
  induction chunks with
  | nil => exact ⟨rfl, rfl, rfl, rfl⟩
  | cons chunk chunks ih =>
    obtain ⟨events, items, output, bytes⟩ := ih
    exact ⟨events, items, output, congrArg (chunk ++ ·) bytes⟩

theorem readings_dispatched (events : List Event) :
    eventsIn (events.map .dispatched) = events ∧ itemsIn (events.map .dispatched) = [] ∧
      outputIn (events.map .dispatched) = [] := by
  induction events with
  | nil => exact ⟨rfl, rfl, rfl⟩
  | cons event events ih => exact ⟨congrArg (event :: ·) ih.1, ih.2.1, ih.2.2⟩

theorem readings_waiting (connectPacket : Bytes) (chunks : List Bytes) :
    eventsIn (waiting connectPacket chunks) = [] ∧ itemsIn (waiting connectPacket chunks) = [] ∧
      outputIn (waiting connectPacket chunks) = [.wrote connectPacket] ∧
      bytesIn (waiting connectPacket chunks) = chunks.flatten := by
  obtain ⟨events, items, output, bytes⟩ := readings_reads chunks
  exact ⟨events, items, congrArg (Entry.wrote connectPacket :: ·) output, bytes⟩

theorem readings_served (item : DataWaitingToBeSend) :
    eventsIn (served item) = [] ∧ itemsIn (served item) = [] ∧
      outputIn (served item) = served item := by
  obtain ⟨data, receipter⟩ := item
  cases receipter with
  | none => exact ⟨rfl, rfl, rfl⟩
  | some receipter => exact ⟨rfl, rfl, rfl⟩

theorem readings_turn (turn : Turn) :
    eventsIn turn.entries = turn.events ∧ itemsIn turn.entries = turn.items ∧
      outputIn turn.entries = turn.items.flatMap served := by
  cases turn with
  | read chunk events =>
    exact readings_dispatched events
  | serve item =>
    obtain ⟨noEvents, noItems, output⟩ := readings_served item
    refine ⟨noEvents, ?_, ?_⟩
    · change item :: itemsIn (served item) = _
      rw [noItems]
      rfl
    · change outputIn (served item) = _
      rw [output]
      simp [Turn.items]

theorem readings_turns (turns : List Turn) :
    eventsIn (turns.flatMap Turn.entries) = turns.flatMap Turn.events ∧
      itemsIn (turns.flatMap Turn.entries) = turns.flatMap Turn.items ∧
      outputIn (turns.flatMap Turn.entries) = (turns.flatMap Turn.items).flatMap served := by
  induction turns with
  | nil => exact ⟨rfl, rfl, rfl⟩
  | cons turn turns ih =>
    obtain ⟨events, items, output⟩ := readings_turn turn
    obtain ⟨laterEvents, laterItems, laterOutput⟩ := ih
    refine ⟨?_, ?_, ?_⟩
    · rw [List.flatMap_cons, eventsIn_append, events, laterEvents, List.flatMap_cons]
    · rw [List.flatMap_cons, itemsIn_append, items, laterItems, List.flatMap_cons]
    · rw [List.flatMap_cons, outputIn_append, output, laterOutput, List.flatMap_cons,
        List.flatMap_append]

theorem eventsIn_session (chunks : List Bytes) (sessionPresent : Bool) (turns : List Turn)
    (ending : List Entry) :
    eventsIn (session connectPacket chunks sessionPresent turns ending) =
      .Connected sessionPresent :: (turns.flatMap Turn.events ++ eventsIn ending) := by
  rw [session, eventsIn_append, (readings_waiting connectPacket chunks).1, List.nil_append]
  change _ :: eventsIn (turns.flatMap Turn.entries ++ ending) = _
  rw [eventsIn_append, (readings_turns turns).1]

theorem itemsIn_session (chunks : List Bytes) (sessionPresent : Bool) (turns : List Turn)
    (ending : List Entry) :
    itemsIn (session connectPacket chunks sessionPresent turns ending) =
      turns.flatMap Turn.items ++ itemsIn ending := by
  rw [session, itemsIn_append, (readings_waiting connectPacket chunks).2.1, List.nil_append]
  change itemsIn (turns.flatMap Turn.entries ++ ending) = _
  rw [itemsIn_append, (readings_turns turns).2.1]

theorem outputIn_session (chunks : List Bytes) (sessionPresent : Bool) (turns : List Turn)
    (ending : List Entry) :
    outputIn (session connectPacket chunks sessionPresent turns ending) =
      .wrote connectPacket :: ((turns.flatMap Turn.items).flatMap served ++ outputIn ending) := by
  rw [session, outputIn_append, (readings_waiting connectPacket chunks).2.2.1]
  change _ :: outputIn (turns.flatMap Turn.entries ++ ending) = _
  rw [outputIn_append, (readings_turns turns).2.2]

/-! ## The four properties -/

/-- The one entry of its kind is where a split finds it. -/
theorem only_split {α : Type} (kind : α → Prop) {a b before after : List α} {x y : α}
    (whole : a ++ x :: b = before ++ y :: after) (noneBefore : ∀ e ∈ a, ¬kind e)
    (noneAfter : ∀ e ∈ b, ¬kind e) (isKind : kind y) : before = a ∧ y = x ∧ after = b := by
  induction a generalizing before with
  | nil =>
    cases before with
    | nil =>
      cases whole
      exact ⟨rfl, rfl, rfl⟩
    | cons first before =>
      rw [List.nil_append, List.cons_append] at whole
      injection whole with _ tail
      exact absurd isKind (noneAfter y (tail ▸ List.mem_append_right _ List.mem_cons_self))
  | cons e a ih =>
    cases before with
    | nil =>
      rw [List.cons_append, List.nil_append] at whole
      injection whole with head _
      exact absurd isKind (head ▸ noneBefore e List.mem_cons_self)
    | cons first before =>
      rw [List.cons_append, List.cons_append] at whole
      injection whole with head tail
      obtain ⟨rfl, same, rest⟩ := ih tail fun e h => noneBefore e (List.mem_cons_of_mem _ h)
      exact ⟨by rw [head], same, rest⟩

theorem events_of_shape {log : List Entry} (shape : Shape version connectPacket log) :
    EventTrace (eventsIn log) := by
  cases shape with
  | nothing => exact .nothing
  | unopened reason => exact .refused reason
  | waits chunks =>
    rw [(readings_waiting connectPacket chunks).1]
    exact .nothing
  | refused chunks reason =>
    rw [eventsIn_append, (readings_waiting connectPacket chunks).1]
    exact .refused reason
  | @connected ending _ ends parts =>
    obtain ⟨chunks, sessionPresent, turns, rfl, _, packets⟩ := parts.parts
    have fromPackets : ∀ event ∈ turns.flatMap Turn.events, event.isPacket := by
      intro event listed
      obtain ⟨turn, inTurns, inTurn⟩ := List.mem_flatMap.mp listed
      exact packets turn inTurns event inTurn
    rw [eventsIn_session]
    have quiet (none : eventsIn ending = []) : EventTrace (.Connected sessionPresent ::
        (turns.flatMap Turn.events ++ eventsIn ending)) := by
      rw [none, List.append_nil]
      exact .connected sessionPresent _ fromPackets
    cases ends with
    | nothing => exact quiet rfl
    | err msg => exact .lost sessionPresent _ msg fromPackets
    | unwritten item msg => exact .lost sessionPresent _ msg fromPackets
    | command farewell =>
      cases farewell with
      | nothing => exact quiet rfl
      | written => exact quiet rfl
      | unwritten msg => exact .lost sessionPresent _ msg fromPackets

theorem output_of_shape {log : List Entry} (shape : Shape version connectPacket log) :
    OutputTrace version connectPacket (itemsIn log) (outputIn log) := by
  cases shape with
  | nothing => exact .nothing rfl
  | unopened reason => exact .nothing rfl
  | waits chunks =>
    obtain ⟨_, items, output, _⟩ := readings_waiting connectPacket chunks
    rw [items, output]
    exact .written [] (Or.inl rfl)
  | refused chunks reason =>
    obtain ⟨_, items, output, _⟩ := readings_waiting connectPacket chunks
    rw [itemsIn_append, outputIn_append, items, output]
    exact .written [] (Or.inl rfl)
  | @connected ending _ ends parts =>
    obtain ⟨chunks, sessionPresent, turns, rfl, _, _⟩ := parts.parts
    rw [itemsIn_session, outputIn_session]
    have silent (none : itemsIn ending = []) (written : outputIn ending = []) :
        OutputTrace version connectPacket (turns.flatMap Turn.items ++ itemsIn ending)
          (.wrote connectPacket ::
            ((turns.flatMap Turn.items).flatMap served ++ outputIn ending)) := by
      rw [none, written, List.append_nil, List.append_nil]
      exact .written _ (Or.inl rfl)
    cases ends with
    | nothing => exact silent rfl rfl
    | err msg => exact silent rfl rfl
    | unwritten item msg =>
      have written : outputIn [.received (.Data item), .dispatched (.ConnectedErr msg)] = [] := rfl
      rw [written, List.append_nil]
      exact .written _ (Or.inr ⟨item, rfl⟩)
    | command farewell =>
      cases farewell with
      | nothing => exact silent rfl rfl
      | unwritten msg => exact silent rfl rfl
      | written =>
        have items : itemsIn [.received .Disconnect, .wrote (Disconnect.new version).data] = [] :=
          rfl
        rw [items, List.append_nil]
        exact .farewell

/-! ## Where an entry can be -/

def IsConnected (entry : Entry) : Prop :=
  ∃ sessionPresent, entry = .dispatched (.Connected sessionPresent)

theorem not_connected {entry : Entry} (silent : eventIn entry = none) : ¬IsConnected entry := by
  rintro ⟨sessionPresent, rfl⟩
  cases silent

/-- Nothing in the log of the handshake opens the connection or closes it. -/
theorem waiting_mem {chunks : List Bytes} {entry : Entry}
    (listed : entry ∈ waiting connectPacket chunks) :
    ¬IsConnected entry ∧ entry ≠ .received .Disconnect := by
  rcases List.mem_cons.mp listed with rfl | read
  · exact ⟨not_connected rfl, by simp⟩
  · obtain ⟨chunk, _, rfl⟩ := List.mem_map.mp read
    exact ⟨not_connected rfl, by simp⟩

/-- Only a connected task has a log with such an entry. -/
theorem connected_of_mem {log : List Entry} (shape : Shape version connectPacket log)
    {entry : Entry} (listed : entry ∈ log)
    (kind : IsConnected entry ∨ entry = .received .Disconnect) :
    ∃ ending, Ending version ending ∧ Connected version connectPacket ending log := by
  have early {chunks : List Bytes} (inside : entry ∈ waiting connectPacket chunks) : False := by
    obtain ⟨notConnected, notDisconnect⟩ := waiting_mem inside
    rcases kind with connected | disconnect
    · exact notConnected connected
    · exact notDisconnect disconnect
  have refusal {reason : ToConnectError}
      (inside : entry ∈ [Entry.dispatched (.ConnectFail reason)]) : False := by
    rw [List.mem_singleton.mp inside] at kind
    rcases kind with ⟨_, same⟩ | same
    · cases same
    · cases same
  cases shape with
  | nothing => cases listed
  | unopened reason => exact (refusal listed).elim
  | waits chunks => exact (early listed).elim
  | refused chunks reason =>
    rcases List.mem_append.mp listed with inside | inside
    · exact (early inside).elim
    · exact (refusal inside).elim
  | connected ends parts => exact ⟨_, ends, parts⟩

/-- The turns neither open the connection nor take the command to close it. -/
theorem turns_mem {turns : List Turn}
    (packets : ∀ turn ∈ turns, ∀ event ∈ turn.events, event.isPacket) {entry : Entry}
    (listed : entry ∈ turns.flatMap Turn.entries) :
    ¬IsConnected entry ∧ entry ≠ .received .Disconnect := by
  obtain ⟨turn, inTurns, inTurn⟩ := List.mem_flatMap.mp listed
  cases turn with
  | read chunk events =>
    rcases List.mem_cons.mp inTurn with rfl | inTurn
    · exact ⟨not_connected rfl, by simp⟩
    · obtain ⟨event, fromEvents, rfl⟩ := List.mem_map.mp inTurn
      have fromPacket := packets _ inTurns event fromEvents
      refine ⟨?_, by simp⟩
      rintro ⟨sessionPresent, same⟩
      cases same
      cases fromPacket
  | serve item =>
    rcases List.mem_cons.mp inTurn with rfl | inTurn
    · exact ⟨not_connected rfl, by simp⟩
    · rcases List.mem_cons.mp inTurn with rfl | inTurn
      · exact ⟨not_connected rfl, by simp⟩
      · obtain ⟨receipter, _, rfl⟩ := List.mem_map.mp inTurn
        exact ⟨not_connected rfl, by simp⟩

theorem ending_mem {ending : List Entry} (ends : Ending version ending) {entry : Entry}
    (listed : entry ∈ ending) : ¬IsConnected entry := by
  rintro ⟨sessionPresent, rfl⟩
  cases ends with
  | nothing => simp at listed
  | err msg => simp at listed
  | unwritten item msg => simp at listed
  | command farewell => cases farewell <;> simp at listed

theorem opened_of_shape {before after : List Entry} {sessionPresent : Bool}
    (shape : Shape version connectPacket
      (before ++ .dispatched (.Connected sessionPresent) :: after)) :
    OpenedBy version (bytesIn before) sessionPresent := by
  have isConnected : IsConnected (.dispatched (.Connected sessionPresent)) := ⟨_, rfl⟩
  obtain ⟨ending, ends, parts⟩ := connected_of_mem shape
    (List.mem_append_right _ List.mem_cons_self) (Or.inl isConnected)
  obtain ⟨chunks, present, turns, whole, opened, packets⟩ := parts.parts
  have late : ∀ e ∈ turns.flatMap Turn.entries ++ ending, ¬IsConnected e := by
    intro e listed
    rcases List.mem_append.mp listed with listed | listed
    · exact (turns_mem packets listed).1
    · exact ending_mem ends listed
  obtain ⟨rfl, same, _⟩ := only_split IsConnected whole.symm
    (fun e listed => (waiting_mem listed).1) late isConnected
  cases same
  rw [(readings_waiting connectPacket chunks).2.2.2]
  exact opened

theorem quiet_of_shape {before after : List Entry}
    (shape : Shape version connectPacket (before ++ .received .Disconnect :: after)) :
    Farewell version after := by
  have listed : Entry.received .Disconnect ∈ before ++ .received .Disconnect :: after :=
    List.mem_append_right _ List.mem_cons_self
  obtain ⟨ending, ends, parts⟩ := connected_of_mem shape listed (Or.inr rfl)
  obtain ⟨chunks, present, turns, whole, opened, packets⟩ := parts.parts
  have early : ∀ e ∈ waiting connectPacket chunks ++
      .dispatched (.Connected present) :: turns.flatMap Turn.entries,
      e ≠ .received .Disconnect := by
    intro e listed
    rcases List.mem_append.mp listed with listed | listed
    · exact (waiting_mem listed).2
    · rcases List.mem_cons.mp listed with rfl | listed
      · simp
      · exact (turns_mem packets listed).2
  have parts' : session connectPacket chunks present turns ending =
      (waiting connectPacket chunks ++
        .dispatched (.Connected present) :: turns.flatMap Turn.entries) ++ ending := by
    simp [session]
  rw [parts'] at whole
  rw [whole] at listed
  have inEnding : .received .Disconnect ∈ ending := by
    rcases List.mem_append.mp listed with listed | listed
    · exact absurd rfl (early _ listed)
    · exact listed
  cases ends with
  | nothing => simp at inEnding
  | err msg => simp at inEnding
  | unwritten item msg => simp at inEnding
  | @command last farewell =>
    have none : ∀ e ∈ last, e ≠ .received .Disconnect := by
      intro e listed
      cases farewell with
      | nothing => simp at listed
      | written =>
        rw [List.mem_singleton.mp listed]
        simp
      | unwritten msg =>
        rw [List.mem_singleton.mp listed]
        simp
    obtain ⟨_, _, rfl⟩ := only_split (fun e => e = .received .Disconnect) whole.symm
      early none rfl
    exact farewell

end Parts

/-- In every run over an open bus the log of the task is that of one life. -/
theorem lifecycle_of_reachable {version : Protocol} {connectPacket : Bytes} {t : Task}
    (reached : Reachable Task.step busOpen (.init version connectPacket) t) :
    Lifecycle version connectPacket t.log := by
  have shape := shape_of_logAt (told_of_reachable reached).log
  constructor
  · exact events_of_shape shape
  · intro before after sessionPresent whole
    exact opened_of_shape (whole ▸ shape)
  · exact output_of_shape shape
  · intro before after whole
    exact quiet_of_shape (whole ▸ shape)

/-- CONNECT, a CONNACK in two chunks, one item with a receipt, the command to
disconnect, DISCONNECT. -/
def shortLife : List Action :=
  [⟨.init (.ok ()), none⟩, ⟨.write (.ok ()), none⟩, ⟨.read (.ok [0x20, 2]), none⟩,
    ⟨.read (.ok [1, 0]), none⟩, ⟨.recv (.Data ⟨[0xC0, 0], some 7⟩) (.ok ()), none⟩,
    ⟨.recv .Disconnect (.ok ()), none⟩, ⟨.write (.ok ()), none⟩]

theorem lifecycle_of_shortLife :
    ∃ t, guardedRun Task.step busOpen (.init .V4 [0x10, 0]) shortLife = some t ∧
      Lifecycle .V4 [0x10, 0] t.log :=
  end_of_guardedRun shortLife rfl fun _ reached => lifecycle_of_reachable reached

end NetworkTask
