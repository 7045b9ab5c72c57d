import ForMqttClient.AckRoundTrip
import ForMqttClient.DisconnectRoundTrip
import ForMqttClient.Framing
import ForMqttClient.PublishRoundTrip
import ForMqttClient.SubscribeRoundTrip

/-!
# What a broker reads

The bytes that the tasks make of the packets they send, and a broker that takes
packets off a stream. It reads PUBLISH, the acknowledgements and DISCONNECT with
the readers of the crate and takes the rest apart itself. It finds what was sent,
however the stream was cut.
-/

namespace Codec

open MqttData ByteReader

/-- `none` where the source is `unreachable!()`. -/
def PubCommon.data {Reason : Type} [Common Reason] (packet : PubCommon Reason) : Option Bytes :=
  (packet.write []).map Prod.fst

def PingReq.bytes : Bytes := [0xC0, 0x00]

end Codec

namespace Broker

open MqttData Codec ByteReader

/-! ## The bytes of a packet -/

/-- `data` of a new acknowledgement, as the tasks send it. -/
def ackData (Reason : Type) [Common Reason] (packetId : PacketId) (version : Protocol) : Bytes :=
  ((PubCommon.new packetId version : PubCommon Reason).data).getD []

/-- A packet as the task that sends it encodes it. -/
def encode (version : Protocol) : Outgoing → Bytes
  | .Publish publish => (Publish.write publish []).1
  | .PubAck packetId => ackData PubAckReason packetId version
  | .PubRec packetId => ackData PubRecReason packetId version
  | .PubRel packetId => ackData PubRelReason packetId version
  | .PubComp packetId => ackData PubCompReason packetId version
  | .Subscribe subscribe => (Subscribe.write subscribe []).1
  | .Unsubscribe unsubscribe => (Unsubscribe.write unsubscribe []).1
  | .PingReq => PingReq.bytes
  | .Disconnect => (Disconnect.new version).data

/-! ## The reader -/

def readRest : Parser Bytes := do splitTo (← remaining)

/-- A block with its length in front of it. -/
def readBlock : Parser Bytes := do
  let (lenLen, len) ← peekLength
  advance lenLen
  if len > (← remaining) then reject (.BoundaryCrossed len) else splitTo len

/-- Properties and filters stay the bytes that they are. -/
def readRequest {Packet : Type} (v4 : PacketId → Bytes → Packet)
    (v5 : PacketId → Bytes → Bytes → Packet) (header : FixedHeader) (version : Protocol) :
    Parser Packet := do
  advance header.fixedHeaderLen
  let packetId := (← readU16).toNat
  match version with
  | .V4 => return v4 packetId (← readRest)
  | .V5 =>
    let properties ← readBlock
    return v5 packetId properties (← readRest)

/-- An acknowledgement of success. -/
def succeeded {Reason : Type} [Common Reason] (packet : PubCommon Reason)
    (sent : PacketId → Outgoing) : Option Outgoing :=
  match packet with
  | .V4 packetId => some (sent packetId)
  | .V5 packetId reason _ _ => if Common.isSuccess reason then some (sent packetId) else none
  | .V5WriteMode .. => none

/-- A packet that the crate can read, as one that the client sends. -/
def sentBy : Codec.Packet → Option Outgoing
  | .Publish packet => some (.Publish packet)
  | .PubAck packet => succeeded packet .PubAck
  | .PubRec packet => succeeded packet .PubRec
  | .PubRel packet => succeeded packet .PubRel
  | .PubComp packet => succeeded packet .PubComp
  | .Disconnect packet => if packet = .new .V5 then some .Disconnect else none
  | _ => none

/-- The crate has no reader for DISCONNECT of version 4. -/
def readOutgoing (header : FixedHeader) (version : Protocol) : Parser (Option Outgoing) := do
  match ← header.packetType, version with
  | .Subscribe, _ => return some (.Subscribe (← readRequest .V4 .V5 header version))
  | .Unsubscribe, _ => return some (.Unsubscribe (← readRequest .V4 .V5 header version))
  | .PingReq, _ => return if header.remainingLen = 0 then some .PingReq else none
  | .Disconnect, .V4 => return if header.remainingLen = 0 then some .Disconnect else none
  | _, _ => return sentBy (← readPacket header version)

def decode (version : Protocol) (header : FixedHeader) (frame : Bytes) : Option Outgoing :=
  match readOutgoing header version frame with
  | .ok (packet, _) => packet
  | .error _ => none

/-- The frame at the front of the stream, as the packet that it is. -/
def next (version : Protocol) (stream : Bytes) : Option (Option Outgoing × Bytes) :=
  match parseFixedHeaderBySlice stream with
  | .ok header =>
    if header.total ≤ stream.length then
      some (decode version header (stream.take header.total), stream.drop header.total)
    else none
  | .error _ => none

section Reader

variable {version : Protocol}

/-! ## Frames -/

theorem next_frame {frame : Bytes} {header : FixedHeader} (isFrame : IsFrame frame header)
    (more : Bytes) : next version (frame ++ more) = some (decode version header frame, more) := by
  have size := isFrame.exact_length
  have whole : header.total ≤ (frame ++ more).length := by
    rw [List.length_append]
    omega
  rw [next, parse_append more isFrame.parsed]
  simp only [if_pos whole]
  rw [← size, List.take_left, List.drop_left]

theorem next_some {stream rest : Bytes} {item : Option Outgoing}
    (taken : next version stream = some (item, rest)) :
    ∃ frame header, IsFrame frame header ∧ stream = frame ++ rest ∧
      item = decode version header frame := by
  unfold next at taken
  split at taken
  · next header parsed =>
    split at taken
    · next whole =>
      cases taken
      exact ⟨_, header, isFrame_take parsed whole, (List.take_append_drop _ _).symm, rfl⟩
    · cases taken
  · cases taken

theorem stable (version : Protocol) : Framing.Stable (next version) where
  shorter := by
    intro stream item rest taken
    obtain ⟨frame, header, isFrame, rfl, _⟩ := next_some taken
    have two := isFrame.two_le
    rw [List.length_append]
    omega
  append := by
    intro stream item rest taken more
    obtain ⟨frame, header, isFrame, rfl, rfl⟩ := next_some taken
    rw [List.append_assoc]
    exact next_frame isFrame (rest ++ more)

/-! ## Requests -/

theorem readRest_run (bytes : Bytes) : readRest bytes = .ok (bytes, []) := by
  change (splitTo bytes.length : Parser Bytes) bytes = _
  rw [splitTo, if_pos (Nat.le_refl _), List.take_length, List.drop_length]

theorem readBlock_reads {bytes : Bytes} (small : bytes.length ≤ maxLength) :
    Reads readBlock (encodedLength bytes.length ++ bytes) bytes := by
  change Reads (peekLength >>= fun measured => do
    advance measured.1
    if measured.2 > (← remaining) then reject (.BoundaryCrossed measured.2)
    else splitTo measured.2) _ _
  refine peekLength_reads small (List.prefix_append _ _) ?_
  refine (advance_reads small).bind fun rest => ?_
  have inside : ¬bytes.length > (bytes ++ rest).length := by
    rw [List.length_append]
    omega
  change (if bytes.length > (bytes ++ rest).length then _ else _ : Parser Bytes) (bytes ++ rest) = _
  rw [if_neg inside]
  exact splitTo_append bytes rest

/-- Behind the packet identifier of a request. -/
def behindId (properties filters : Bytes) : Protocol → Bytes
  | .V4 => filters
  | .V5 => encodedLength properties.length ++ (properties ++ filters)

/-- The version 4 has no properties. -/
def requestOf {Packet : Type} (v4 : PacketId → Bytes → Packet)
    (v5 : PacketId → Bytes → Bytes → Packet) (packetId : PacketId) (properties filters : Bytes) :
    Protocol → Packet
  | .V4 => v4 packetId filters
  | .V5 => v5 packetId properties filters

theorem toNat_of_small {packetId : PacketId} (small : packetId < 65536) :
    (UInt16.ofNat packetId).toNat = packetId := by
  rw [UInt16.toNat_ofNat']
  exact Nat.mod_eq_of_lt small

theorem readRequest_run {Packet : Type} (v4 : PacketId → Bytes → Packet)
    (v5 : PacketId → Bytes → Bytes → Packet) (byte1 : UInt8) {packetId : PacketId}
    (small : packetId < 65536) {properties filters : Bytes}
    (room : (putU16 [] (.ofNat packetId) ++ behindId properties filters version).length ≤
      maxLength) :
    let body := putU16 [] (.ofNat packetId) ++ behindId properties filters version
    readRequest v4 v5 (headerOf byte1 (lenLen body.length, body.length)) version
        (framed byte1 body) =
      .ok (requestOf v4 v5 packetId properties filters version, []) := by
  intro body
  have id := toNat_of_small small
  refine (run_bind_ok (advance_header byte1 room body)).trans ?_
  refine (run_bind_ok (readU16_reads (.ofNat packetId) _)).trans ?_
  cases version with
  | V4 =>
    refine (run_bind_ok (readRest_run filters)).trans ?_
    rw [id]
    rfl
  | V5 =>
    have inside : properties.length ≤ maxLength := by
      simp only [behindId, List.length_append] at room
      omega
    have block := readBlock_reads inside filters
    rw [List.append_assoc] at block
    refine (run_bind_ok block).trans ?_
    refine (run_bind_ok (readRest_run filters)).trans ?_
    rw [id]
    rfl

/-- The V5 arm of `write`, whatever the properties are. -/
theorem writeV5_framed (byte1 : UInt8) (packetId : PacketId) {properties : Bytes}
    (filters : Bytes) (small : properties.length ≤ maxLength) :
    (writeV5 byte1 packetId properties filters []).1 =
      framed byte1 (putU16 [] (.ofNat packetId) ++ behindId properties filters .V5) := by
  have size : (putU16 [] (.ofNat packetId) ++ behindId properties filters .V5).length =
      2 + Codec.lenLen properties.length + properties.length + filters.length := by
    simp only [behindId, putU16, List.length_append, List.length_cons, List.length_nil,
      encodedLength_length small]
    omega
  have block (front : Bytes) :
      (if properties.length > 0 then front ++ properties else front) = front ++ properties := by
    split
    · rfl
    · have empty := List.eq_nil_of_length_eq_zero (Nat.eq_zero_of_not_pos ‹_›)
      rw [empty, List.append_nil]
  rw [framed, size]
  simp only [writeV5, writeRemainingLength_eq, block]
  rw [putU16_eq]
  simp only [putU8, behindId, List.append_assoc, List.cons_append, List.nil_append]

theorem writeV4_framed (byte1 : UInt8) (packetId : PacketId) (filters : Bytes) :
    (writeV4 byte1 packetId filters []).1 =
      framed byte1 (putU16 [] (.ofNat packetId) ++ behindId [] filters .V4) := by
  have whole : writeV4 byte1 packetId filters [] =
      ([] ++ framed byte1 (requestBody .V4 packetId [] filters), _) := writeV4_eq byte1 filters []
  rw [whole]
  rfl

/-- A frame whose type the broker has a reader for. -/
theorem decode_of_read {header : FixedHeader} {frame rest : Bytes} {type : PacketType}
    {packet : Codec.Packet} (is_type : header.packetType = .ok type)
    (crate : type ∈ [.Publish, .PubAck, .PubRec, .PubRel, .PubComp] ∨
      type = .Disconnect ∧ version = .V5)
    (read : readPacket header version frame = .ok (packet, rest)) :
    decode version header frame = sentBy packet := by
  have whole : readOutgoing header version frame =
      (do return sentBy (← readPacket header version) : Parser (Option Outgoing)) frame := by
    refine (run_bind_ok (Reads.lift is_type frame)).trans ?_
    rcases crate with listed | ⟨rfl, rfl⟩
    · simp only [List.mem_cons, List.not_mem_nil, or_false] at listed
      rcases listed with rfl | rfl | rfl | rfl | rfl <;> rfl
    · rfl
  rw [decode, whole, run_bind_ok read]
  rfl

/-! ## Acknowledgements -/

section Acks

variable {Reason : Type} [Common Reason] {packetId : PacketId}

theorem ackData_eq [LawfulCommon Reason] (packetId : PacketId) (version : Protocol) :
    ackData Reason packetId version =
      framed (Common.ty Reason) (putU16 [] (.ofNat packetId)) := by
  cases version with
  | V4 =>
    simp only [ackData, PubCommon.new, PubCommon.data, PubCommon.write, writeRemainingLength_eq,
      Option.map_some, Option.getD_some]
    rw [putU16_eq]
    rfl
  | V5 =>
    have success : Common.isSuccess (Common.default : Reason) = true :=
      (LawfulCommon.success_iff _).mpr rfl
    rw [ackData, PubCommon.new, PubCommon.data, PubCommon.write_short packetId [] success]
    rfl

/-- An acknowledgement that the client builds, as it is read. -/
def ackRead (packetId : PacketId) : Protocol → PubCommon Reason
  | .V4 => .V4 packetId
  | .V5 => .V5 packetId Common.default none []

theorem ack_run (small : packetId < 65536) (version : Protocol) :
    (PubCommon.read (headerOf (Common.ty Reason) (lenLen 2, 2)) version : Parser (PubCommon Reason))
        (framed (Common.ty Reason) (putU16 [] (.ofNat packetId))) =
      .ok (ackRead packetId version, []) := by
  have two : (2 : Nat) ≤ maxLength := by decide
  have id := readU16_reads (.ofNat packetId) []
  rw [List.append_nil] at id
  refine (run_bind_ok (advance_header (Common.ty Reason) two _)).trans ?_
  refine (run_bind_ok id).trans ?_
  rw [toNat_of_small small]
  cases version <;> rfl

theorem succeeded_ackRead [LawfulCommon Reason] (packetId : PacketId) (version : Protocol)
    (sent : PacketId → Outgoing) :
    succeeded (ackRead packetId version : PubCommon Reason) sent = some (sent packetId) := by
  cases version with
  | V4 => rfl
  | V5 => exact if_pos ((LawfulCommon.success_iff _).mpr rfl)

/-- The packets of one type, in both versions. -/
structure Acknowledges (Reason : Type) [Common Reason] (sent : PacketId → Outgoing) where
  wrap : PubCommon Reason → Codec.Packet
  type : PacketType
  listed : type ∈ [.PubAck, .PubRec, .PubRel, .PubComp]
  byte : ∀ measured, (headerOf (Common.ty Reason) measured).packetType = .ok type
  reads : ∀ header version stream, FixedHeader.packetType header = .ok type →
    readPacket header version stream =
      (do return wrap (← PubCommon.read header version) : Parser Codec.Packet) stream
  sends : ∀ packet, sentBy (wrap packet) = succeeded packet sent

theorem next_ack [LawfulCommon Reason] {sent : PacketId → Outgoing}
    (ack : Acknowledges Reason sent) (small : packetId < 65536) (version : Protocol)
    (more : Bytes) :
    next version (ackData Reason packetId version ++ more) = some (some (sent packetId), more) := by
  have two : (putU16 [] (.ofNat packetId)).length ≤ maxLength :=
    show (2 : Nat) ≤ maxLength by decide
  have frame := isFrame_encoded (Common.ty Reason) two
  have read := ack.reads _ version (framed (Common.ty Reason) (putU16 [] (.ofNat packetId)))
    (ack.byte (lenLen 2, 2))
  rw [run_bind_ok (ack_run small version)] at read
  have crate : ack.type ∈ [.Publish, .PubAck, .PubRec, .PubRel, .PubComp] :=
    List.mem_cons_of_mem _ ack.listed
  have decoded := decode_of_read (ack.byte (lenLen 2, 2)) (.inl crate) read
  rw [ack.sends, succeeded_ackRead] at decoded
  rw [ackData_eq, framed, next_frame frame more]
  exact congrArg (fun packet => some (packet, more)) decoded

end Acks

def pubAck : Acknowledges PubAckReason .PubAck where
  wrap := .PubAck
  type := .PubAck
  listed := List.mem_cons_self
  byte measured := by
    have num : ((0x40 : UInt8) >>> 4).toNat = 4 := by decide
    simp only [FixedHeader.packetType, headerOf, Common.ty, num]
  reads _ _ stream is_type := run_bind_ok (Reads.lift is_type stream)
  sends _ := rfl

def pubRec : Acknowledges PubRecReason .PubRec where
  wrap := .PubRec
  type := .PubRec
  listed := List.mem_cons_of_mem _ List.mem_cons_self
  byte measured := by
    have num : ((0x50 : UInt8) >>> 4).toNat = 5 := by decide
    simp only [FixedHeader.packetType, headerOf, Common.ty, num]
  reads _ _ stream is_type := run_bind_ok (Reads.lift is_type stream)
  sends _ := rfl

def pubRel : Acknowledges PubRelReason .PubRel where
  wrap := .PubRel
  type := .PubRel
  listed := List.mem_cons_of_mem _ (List.mem_cons_of_mem _ List.mem_cons_self)
  byte measured := by
    have num : ((0x62 : UInt8) >>> 4).toNat = 6 := by decide
    simp only [FixedHeader.packetType, headerOf, Common.ty, num]
  reads _ _ stream is_type := run_bind_ok (Reads.lift is_type stream)
  sends _ := rfl

def pubComp : Acknowledges PubCompReason .PubComp where
  wrap := .PubComp
  type := .PubComp
  listed := List.mem_cons_of_mem _ (List.mem_cons_of_mem _ (List.mem_cons_of_mem _ List.mem_cons_self))
  byte measured := by
    have num : ((0x70 : UInt8) >>> 4).toNat = 7 := by decide
    simp only [FixedHeader.packetType, headerOf, Common.ty, num]
  reads _ _ stream is_type := run_bind_ok (Reads.lift is_type stream)
  sends _ := rfl

/-! ## What can be sent -/

/-- A request leaves room for its lengths. -/
def RequestFits (packetId : PacketId) (properties filters : Bytes) (version : Protocol) : Prop :=
  packetId < 65536 ∧
    (putU16 [] (.ofNat packetId) ++ behindId properties filters version).length ≤ maxLength

/-- The packet is one of this version, and its parts fit their length fields. -/
def Sendable (version : Protocol) : Outgoing → Prop
  | .Publish publish =>
    publish.protocol = version ∧ Publish.Writable publish ∧ Publish.IdentifiersFit publish
  | .PubAck packetId => packetId < 65536
  | .PubRec packetId => packetId < 65536
  | .PubRel packetId => packetId < 65536
  | .PubComp packetId => packetId < 65536
  | .Subscribe (.V4 packetId payload) =>
    version = .V4 ∧ RequestFits packetId [] payload .V4
  | .Subscribe (.V5 packetId properties filters) =>
    version = .V5 ∧ RequestFits packetId properties filters .V5
  | .Unsubscribe (.V4 packetId payload) =>
    version = .V4 ∧ RequestFits packetId [] payload .V4
  | .Unsubscribe (.V5 packetId properties filters) =>
    version = .V5 ∧ RequestFits packetId properties filters .V5
  | .PingReq => True
  | .Disconnect => True

theorem properties_fit {packetId : PacketId} {properties filters : Bytes}
    (fits : RequestFits packetId properties filters .V5) : properties.length ≤ maxLength := by
  have room := fits.2
  simp only [behindId, List.length_append] at room
  omega

/-! ## Each packet is read as what it was -/

theorem next_publish {publish : Publish} (writable : Publish.Writable publish)
    (fits : Publish.IdentifiersFit publish) (more : Bytes) :
    next publish.protocol ((Publish.write publish []).1 ++ more) =
      some (some (.Publish publish), more) := by
  obtain ⟨properties, payload, read, same, left⟩ := Publish.readProperties_written writable
  have packet := Publish.readPacket_encoded writable read
  have frame := Publish.write_isFrame writable
  have bytes : Publish.byte1 publish :: (encodedLength (Publish.len publish) ++
      Publish.body publish) = (Publish.write publish []).1 := by
    rw [Publish.write_eq]
    rfl
  rw [bytes, same.mpr fits, left fits] at packet
  have decoded := decode_of_read (Publish.byte1_packetType publish _) (.inl List.mem_cons_self)
    packet
  rw [next_frame frame more, decoded]
  rfl

/-- A request that is framed is read as it was, by the first byte of its type. -/
theorem next_request {Packet : Type} {v4 : PacketId → Bytes → Packet}
    {v5 : PacketId → Bytes → Bytes → Packet} {byte1 : UInt8} {sent : Packet → Outgoing}
    (reads : ∀ measured stream, readOutgoing (headerOf byte1 measured) version stream =
      (do return some (sent (← readRequest v4 v5 (headerOf byte1 measured) version)) :
        Parser (Option Outgoing)) stream)
    {packetId : PacketId} {properties filters : Bytes}
    (fits : RequestFits packetId properties filters version) (more : Bytes) :
    next version (framed byte1
        (putU16 [] (.ofNat packetId) ++ behindId properties filters version) ++ more) =
      some (some (sent (requestOf v4 v5 packetId properties filters version)), more) := by
  have frame := isFrame_encoded byte1 fits.2
  have read := readRequest_run v4 v5 byte1 fits.1 fits.2
  have decoded := (reads _ _).trans (run_bind_ok read)
  rw [framed, next_frame frame more, decode]
  rw [framed] at decoded
  rw [decoded]
  rfl

theorem reads_subscribe (version : Protocol) (measured : Nat × Nat) (stream : Bytes) :
    readOutgoing (headerOf 0x82 measured) version stream =
      (do return some (.Subscribe (← readRequest .V4 .V5 (headerOf 0x82 measured) version)) :
        Parser (Option Outgoing)) stream := by
  have num : ((0x82 : UInt8) >>> 4).toNat = 8 := by decide
  have type : (headerOf 0x82 measured).packetType = .ok .Subscribe := by
    simp only [FixedHeader.packetType, headerOf, num]
  exact run_bind_ok (Reads.lift type stream)

theorem reads_unsubscribe (version : Protocol) (measured : Nat × Nat) (stream : Bytes) :
    readOutgoing (headerOf 0xA2 measured) version stream =
      (do return some (.Unsubscribe (← readRequest .V4 .V5 (headerOf 0xA2 measured) version)) :
        Parser (Option Outgoing)) stream := by
  have num : ((0xA2 : UInt8) >>> 4).toNat = 10 := by decide
  have type : (headerOf 0xA2 measured).packetType = .ok .Unsubscribe := by
    simp only [FixedHeader.packetType, headerOf, num]
  exact run_bind_ok (Reads.lift type stream)

theorem next_pingReq (version : Protocol) (more : Bytes) :
    next version (PingReq.bytes ++ more) = some (some .PingReq, more) := by
  have frame : IsFrame PingReq.bytes (headerOf 0xC0 (lenLen 0, 0)) := ⟨rfl, rfl⟩
  have decoded : decode version (headerOf 0xC0 (lenLen 0, 0)) PingReq.bytes = some .PingReq := by
    cases version <;> decide +kernel
  rw [next_frame frame more, decoded]

theorem next_disconnect (version : Protocol) (more : Bytes) :
    next version ((Disconnect.new version).data ++ more) = some (some .Disconnect, more) := by
  have decoded : decode version (headerOf 0xE0 (lenLen 0, 0)) [0xE0, 0x00] =
      some .Disconnect := by
    cases version <;> decide +kernel
  rw [Disconnect.data_new, next_frame Disconnect.short_frame more, decoded]

/-- Any packet of the client is taken off a stream as what it was. -/
theorem next_encode {packet : Outgoing} (sendable : Sendable version packet) (more : Bytes) :
    next version (encode version packet ++ more) = some (some packet, more) := by
  cases packet with
  | Publish publish =>
    obtain ⟨rfl, writable, fits⟩ := sendable
    exact next_publish writable fits more
  | PubAck packetId => exact next_ack pubAck sendable version more
  | PubRec packetId => exact next_ack pubRec sendable version more
  | PubRel packetId => exact next_ack pubRel sendable version more
  | PubComp packetId => exact next_ack pubComp sendable version more
  | Subscribe subscribe =>
    cases subscribe with
    | V4 packetId payload =>
      obtain ⟨rfl, fits⟩ := sendable
      rw [encode, Subscribe.write, writeV4_framed]
      exact next_request (reads_subscribe .V4) fits more
    | V5 packetId properties filters =>
      obtain ⟨rfl, fits⟩ := sendable
      rw [encode, Subscribe.write, writeV5_framed 0x82 packetId filters (properties_fit fits)]
      exact next_request (reads_subscribe .V5) fits more
  | Unsubscribe unsubscribe =>
    cases unsubscribe with
    | V4 packetId payload =>
      obtain ⟨rfl, fits⟩ := sendable
      rw [encode, Unsubscribe.write, writeV4_framed]
      exact next_request (reads_unsubscribe .V4) fits more
    | V5 packetId properties filters =>
      obtain ⟨rfl, fits⟩ := sendable
      rw [encode, Unsubscribe.write, writeV5_framed 0xA2 packetId filters (properties_fit fits)]
      exact next_request (reads_unsubscribe .V5) fits more
  | PingReq => exact next_pingReq version more
  | Disconnect => exact next_disconnect version more

/-- Packets one behind the other, in any chunks. -/
theorem receive_encoded {packets : List Outgoing}
    (sendable : ∀ packet ∈ packets, Sendable version packet) {chunks : List Bytes}
    (cut : chunks.flatten = packets.flatMap (encode version)) :
    Framing.receive (next version) [] chunks = (packets.map some, []) := by
  have reads : ∀ packet ∈ packets, ∀ more,
      next version (encode version packet ++ more) = some (some packet, more) :=
    fun packet member => next_encode (sendable packet member)
  have all := Framing.takeAll_flatMap (stable version) reads []
  rw [List.append_nil] at all
  rw [Framing.receive_eq (stable version) rfl, List.nil_append, cut, all]
  simp [Framing.takeAll, Framing.drain]

end Reader

end Broker
