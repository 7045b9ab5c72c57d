import ForMqttClient.MoreBytes
import ForMqttClient.PublishRoundTrip

/-!
# Property blocks in their packets

In version 5 some fields stand between the fixed header and the properties, in
each type of packet others. Behind these fields a packet is read by the reader of
its properties, and then by what makes a packet of them.
-/

namespace Codec

open MqttData ByteReader

/-! ## PUBLISH -/

namespace Publish

variable {header : FixedHeader} {version : Protocol} {frame behind rest : Bytes}

theorem readPacketId_inv {asked : QoS} {q : QoSWithPacketId}
    (read : readPacketId asked behind = .ok (q, rest)) :
    asked = service q ∧ (∀ pkid, q.packetId = some pkid → pkid < 65536) ∧
      behind = packetIdBytes q ++ rest := by
  have two : ∀ {n : UInt16} {mid : Bytes}, readU16 behind = .ok (n, mid) →
      n.toNat < 65536 ∧ behind = putU16 [] (.ofNat n.toNat) ++ mid := by
    intro n mid first
    rw [UInt16.ofNat_toNat]
    exact ⟨n.toNat_lt, readU16_inv first⟩
  cases asked with
  | AtMostOnce =>
    cases read
    refine ⟨rfl, fun _ found => ?_, rfl⟩
    cases found
  | AtLeastOnce =>
    obtain ⟨n, mid, first, read⟩ := run_bind_inv read
    cases read
    refine ⟨rfl, fun _ found => ?_, (two first).2⟩
    cases found
    exact (two first).1
  | ExactlyOnce =>
    obtain ⟨n, mid, first, read⟩ := run_bind_inv read
    cases read
    refine ⟨rfl, fun _ found => ?_, (two first).2⟩
    cases found
    exact (two first).1

/-- The bytes that stand in front of the properties. -/
def lead (topic : String) (q : QoSWithPacketId) : Bytes :=
  writeMqttString [] topic ++ packetIdBytes q

/-- The service that the first byte of the header asks for. -/
def asked (header : FixedHeader) : Outcome PacketParseError QoS :=
  qos ((header.byte1 &&& 0b0110) >>> 1)

/-- What is read behind the leading fields. -/
def finish (header : FixedHeader) (version : Protocol) (topic : String) (q : QoSWithPacketId)
    (properties : Option PublishProperties) : Parser Publish := do
  return {
    protocol := version
    dup := header.byte1 &&& 0b1000 ≠ 0
    retain := header.byte1 &&& 0b0001 ≠ 0
    qos := q
    topic := topic
    payload := ← peek
    properties := properties }

theorem read_lead {topic : String} {q : QoSWithPacketId} (known : asked header = .ok (service q))
    (fits : Fits (asBytes topic)) (small : ∀ pkid, q.packetId = some pkid → pkid < 65536)
    (moved : (advance header.fixedHeaderLen : Parser Unit) frame = .ok ((), lead topic q ++ behind)) :
    read header version frame =
      (readProperties version >>= finish header version topic q) behind := by
  rw [lead, List.append_assoc] at moved
  refine (run_bind_ok (Reads.lift known frame)).trans ?_
  refine (run_bind_ok moved).trans ?_
  refine (run_bind_ok (readMqttString_reads fits _)).trans ?_
  exact run_bind_ok (readPacketId_reads small behind)

/-- A PUBLISH that is read begins with the fields that it has. -/
theorem read_inv {p : Publish} (read : Publish.read header version frame = .ok (p, rest)) :
    asked header = .ok (service p.qos) ∧ Fits (asBytes p.topic) ∧
      (∀ pkid, p.qos.packetId = some pkid → pkid < 65536) ∧
      ∃ behind, (advance header.fixedHeaderLen : Parser Unit) frame =
          .ok ((), lead p.topic p.qos ++ behind) ∧
        (readProperties version >>= finish header version p.topic p.qos) behind = .ok (p, rest) := by
  obtain ⟨service, _, first, read₁⟩ := run_bind_inv read
  obtain ⟨known, rfl⟩ := run_lift_inv first
  obtain ⟨⟨⟩, front, moved, read₂⟩ := run_bind_inv read₁
  obtain ⟨topic, mid, text, read₃⟩ := run_bind_inv read₂
  obtain ⟨q, behind, id, read₄⟩ := run_bind_inv read₃
  obtain ⟨properties, payload, _, read₅⟩ := run_bind_inv read₄
  cases read₅
  obtain ⟨fits, parts⟩ := readMqttString_inv text
  obtain ⟨rfl, small, more⟩ := readPacketId_inv id
  refine ⟨known, fits, small, behind, ?_, read₄⟩
  rw [moved, parts, more, lead, List.append_assoc]

end Publish

/-! ## The fields in front of the properties -/

/-- A packet of this type, with this fixed header, has a property block behind these bytes. -/
inductive Leads (header : FixedHeader) : PacketType → Bytes → Prop where
  | connAck (flags code : UInt8) : Leads header .ConnAck [flags, code]
  | publish {topic : String} {q : QoSWithPacketId}
      (known : Publish.asked header = .ok (Publish.service q)) (fits : Fits (asBytes topic))
      (small : ∀ pkid, q.packetId = some pkid → pkid < 65536) :
      Leads header .Publish (Publish.lead topic q)
  | pubAck (long : 4 ≤ header.remainingLen) (id : UInt16) (reason : UInt8) :
      Leads header .PubAck (putU16 [] id ++ [reason])
  | pubRec (long : 4 ≤ header.remainingLen) (id : UInt16) (reason : UInt8) :
      Leads header .PubRec (putU16 [] id ++ [reason])
  | pubRel (long : 4 ≤ header.remainingLen) (id : UInt16) (reason : UInt8) :
      Leads header .PubRel (putU16 [] id ++ [reason])
  | pubComp (long : 4 ≤ header.remainingLen) (id : UInt16) (reason : UInt8) :
      Leads header .PubComp (putU16 [] id ++ [reason])
  | subAck (id : UInt16) : Leads header .SubAck (putU16 [] id)
  | unsubAck (id : UInt16) : Leads header .UnsubAck (putU16 [] id)
  | disconnect {code : UInt8} {reasonCode : DisconnectReasonCode}
      (plain : header.byte1 &&& 0b00001111 = 0x00) (some : header.remainingLen ≠ 0)
      (known : DisconnectReasonCode.tryFrom code = .ok reasonCode) :
      Leads header .Disconnect [code]

/-- The reader of the properties; the other types have none. -/
def readBlock : PacketType → Parser Unit
  | .ConnAck => ConnAckProperties.read >>= fun _ => pure ()
  | .Publish => PublishProperties.read >>= fun _ => pure ()
  | .PubAck | .PubRec | .PubRel | .PubComp => PubCommon.readProperties >>= fun _ => pure ()
  | .SubAck => SubAckProperties.read >>= fun _ => pure ()
  | .UnsubAck => UnsubAckProperties.read >>= fun _ => pure ()
  | .Disconnect => DisconnectProperties.extract >>= fun _ => pure ()
  | _ => pure ()

/-- The types of packets in which something follows the properties. -/
def hasPayload : PacketType → Bool
  | .Publish | .SubAck | .UnsubAck => true
  | _ => false

/-- The bytes are all that the packet has beside its other fields: a payload, or
reason codes one a byte, or nothing. -/
def PayloadIs : Packet → Bytes → Prop
  | .Publish p, bytes => p.payload = bytes
  | .SubAck (.V5ReadMode _ _ returnCodes), bytes =>
    bytes.map SubAck.reasonForV5 = returnCodes.map .ok
  | .UnsubAck (.V5ReadMode _ _ returnCodes), bytes =>
    bytes.map UnsubAck.reasonForV5 = returnCodes.map .ok
  | _, bytes => bytes = []

theorem remainingLoop_inv {α : Type} {turn : α → Parser α} {fuel : Nat} {acc result : α}
    {byte : UInt8} {stream rest : Bytes}
    (read : remainingLoop turn (fuel + 1) acc (byte :: stream) = .ok (result, rest)) :
    ∃ acc' mid, turn acc (byte :: stream) = .ok (acc', mid) ∧
      remainingLoop turn fuel acc' mid = .ok (result, rest) := by
  have turned : (turn acc >>= remainingLoop turn fuel) (byte :: stream) = .ok (result, rest) := read
  exact run_bind_inv turned

theorem returnCodes_inv {α : Type} {reason : UInt8 → Outcome PacketParseError α} (fuel : Nat) :
    ∀ codes stream all rest, remainingLoop (fun codes => do
        let returnCode ← readU8
        return codes ++ [← reason returnCode]) fuel codes stream = .ok (all, rest) →
      ∃ more, all = codes ++ more ∧ stream.map reason = more.map .ok := by
  induction fuel with
  | zero =>
    intro codes stream all rest read
    cases read
  | succ fuel ih =>
    intro codes stream all rest read
    cases stream with
    | nil =>
      cases read
      exact ⟨[], (List.append_nil _).symm, rfl⟩
    | cons byte stream =>
      obtain ⟨codes', mid, turned, later⟩ := remainingLoop_inv read
      obtain ⟨code, mid', first, turned⟩ := run_bind_inv turned
      cases first
      obtain ⟨reasonCode, behind, looked, last⟩ := run_bind_inv turned
      obtain ⟨known, rfl⟩ := run_lift_inv looked
      cases last
      obtain ⟨more, rfl, same⟩ := ih _ _ _ _ later
      refine ⟨reasonCode :: more, by rw [List.append_assoc, List.singleton_append], ?_⟩
      rw [List.map_cons, List.map_cons, known, same]

theorem readReturnCodes_inv {α : Type} {reason : UInt8 → Outcome PacketParseError α}
    {stream rest : Bytes} {codes : List α}
    (read : readReturnCodes reason stream = .ok (codes, rest)) :
    stream.map reason = codes.map .ok := by
  by_cases none_left : stream.length = 0
  · change (if stream.length = 0 then reject _ else _ : Parser (List α)) stream = _ at read
    rw [if_pos none_left] at read
    cases read
  · change (if stream.length = 0 then _ else whileRemaining _ [] : Parser (List α)) stream = _
      at read
    rw [if_neg none_left] at read
    obtain ⟨more, same, each⟩ := returnCodes_inv _ _ _ _ _ read
    rw [same]
    exact each

/-! ## Behind the leading fields -/

/-- The packet is read by the reader of its properties, which starts at the block, and
then by `finish`. -/
structure ReadBehind (header : FixedHeader) (frame : Bytes) (type : PacketType) (block : Bytes)
    {α : Type} (table : Table α) (empty : α) (finish : Option α → Parser Packet) : Prop where
  properties : readBlock type = readProperties (turnOf table) empty >>= fun _ => pure ()
  packet : readPacket header .V5 frame = (readProperties (turnOf table) empty >>= finish) block
  avoids : ∀ found, Avoids Starved (finish found)
  payload : ∀ found mid packet rest, finish found mid = .ok (packet, rest) →
    packet.packetTy = type ∧ (hasPayload type = true → PayloadIs packet mid)
  identifiers : CutInBlock table empty block ↔
    type = .Publish ∧ CutInBlock PublishProperties.table PublishProperties.empty block

theorem cutInBlock_other {α : Type} {table : Table α} {empty : α} {type : PacketType}
    {block : Bytes} (missing : table .SubscriptionIdentifier = none) (other : type ≠ .Publish) :
    CutInBlock table empty block ↔
      type = .Publish ∧ CutInBlock PublishProperties.table PublishProperties.empty block := by
  refine iff_of_false ?_ fun both => other both.1
  rintro ⟨_, _, _, _, _, _, _, _, some, _⟩
  rw [missing] at some
  cases some

section Behind

variable {header : FixedHeader} {frame block : Bytes} {type : PacketType}

theorem ReadBehind.of_reader {α β : Type} {table : Table α} {empty : α} {reader : Parser β}
    {wrap : β → Packet} {next : Option α → Parser β}
    (opens : readPacket header .V5 frame = (reader >>= fun p => pure (wrap p)) frame)
    (same : reader frame = (readProperties (turnOf table) empty >>= next) block)
    (properties : readBlock type = readProperties (turnOf table) empty >>= fun _ => pure ())
    (avoids : ∀ found, Avoids Starved (next found))
    (payload : ∀ found mid p rest, next found mid = .ok (p, rest) →
      (wrap p).packetTy = type ∧ (hasPayload type = true → PayloadIs (wrap p) mid))
    (identifiers : CutInBlock table empty block ↔
      type = .Publish ∧ CutInBlock PublishProperties.table PublishProperties.empty block) :
    ReadBehind header frame type block table empty
      fun found => next found >>= fun p => pure (wrap p) where
  properties := properties
  packet := by
    have later : (readProperties (turnOf table) empty >>= fun found =>
        next found >>= fun p => (pure (wrap p) : Parser Packet)) =
        ((readProperties (turnOf table) empty >>= next) >>= fun p => pure (wrap p)) :=
      (bind_assoc _ _ _).symm
    rw [opens, later]
    change (reader frame >>= fun result => _) = _
    rw [same]
    rfl
  avoids found := (avoids found).bind fun _ => .pure _
  payload found mid packet rest finished := by
    obtain ⟨p, left, first, last⟩ := run_bind_inv finished
    cases last
    exact payload found mid p rest first
  identifiers := identifiers

theorem ConnAckProperties.read_eq :
    ConnAckProperties.read =
      readProperties (turnOf ConnAckProperties.table) ConnAckProperties.empty := by
  rw [ConnAckProperties.read, ConnAckProperties.turn_eq]

theorem PublishProperties.read_eq :
    PublishProperties.read =
      readProperties (turnOf PublishProperties.table) PublishProperties.empty := by
  rw [PublishProperties.read, PublishProperties.turn_eq]

theorem PubCommon.readProperties_eq :
    PubCommon.readProperties =
      Codec.readProperties (turnOf AckProperties.table) AckProperties.empty := by
  rw [PubCommon.readProperties, PubCommon.turn_eq]

theorem SubAckProperties.read_eq :
    SubAckProperties.read = readProperties (turnOf AckProperties.table) AckProperties.empty := by
  rw [SubAckProperties.read, AckProperties.turn_eq]

theorem UnsubAckProperties.read_eq :
    UnsubAckProperties.read = readProperties (turnOf AckProperties.table) AckProperties.empty := by
  rw [UnsubAckProperties.read, AckProperties.turn_eq]

theorem DisconnectProperties.extract_eq :
    DisconnectProperties.extract =
      readProperties (turnOf DisconnectProperties.table) DisconnectProperties.empty := by
  rw [DisconnectProperties.extract, DisconnectProperties.turn_eq]

/-- A reason code is not found by asking for more bytes. -/
theorem looked_avoids {α β : Type} {code : Outcome PacketParseError α} (wrap : α → β)
    (clean : Clean code) :
    Avoids Starved (liftM code >>= fun reason => pure (wrap reason) : Parser β) :=
  (Avoids.lift clean).bind fun _ => .pure _

theorem connectReturnV5_clean (num : UInt8) : Clean (connectReturnV5 num) := by
  unfold connectReturnV5
  split <;> first | exact clean_ok _ | exact clean_fail id

theorem ConnAck.read_lead {flags code : UInt8}
    (moved : (advance header.fixedHeaderLen : Parser Unit) frame = .ok ((), [flags, code] ++ block)) :
    ConnAck.read header .V5 frame =
      (ConnAckProperties.read >>= fun properties => do
        let sessionPresent := flags &&& 0x01 = 1
        let code ← connectReturnV5 code
        return { sessionPresent := sessionPresent, code := code, properties := properties })
        block := by
  refine (run_bind_ok moved).trans ?_
  refine (run_bind_ok (readU8_reads flags (code :: block))).trans ?_
  exact run_bind_ok (readU8_reads code block)

theorem ConnAck.readBehind {flags code : UInt8} (known : header.packetType = .ok .ConnAck)
    (moved : (advance header.fixedHeaderLen : Parser Unit) frame = .ok ((), [flags, code] ++ block)) :
    ∃ finish, ReadBehind header frame .ConnAck block ConnAckProperties.table
      ConnAckProperties.empty finish := by
  have same := ConnAck.read_lead moved
  rw [ConnAckProperties.read_eq] at same
  refine ⟨_, .of_reader (run_bind_ok (Reads.lift known frame)) same ?_ ?_ ?_ ?_⟩
  · rw [← ConnAckProperties.read_eq]
    rfl
  · exact fun properties => looked_avoids _ (connectReturnV5_clean code)
  · exact fun _ _ _ _ _ => ⟨rfl, fun none => by cases none⟩
  · exact cutInBlock_other rfl (by decide)

theorem packetType_number (known : header.packetType = .ok type) :
    header.byte1 >>> 4 = PacketType.toU8 type := by
  simp only [FixedHeader.packetType] at known
  split at known <;> cases known <;> exact UInt8.toNat_inj.mp ‹(header.byte1 >>> 4).toNat = _›

theorem Publish.readBehind {topic : String} {q : QoSWithPacketId}
    (known : header.packetType = .ok .Publish)
    (asked : Publish.asked header = .ok (Publish.service q)) (fits : Fits (asBytes topic))
    (small : ∀ pkid, q.packetId = some pkid → pkid < 65536)
    (moved : (advance header.fixedHeaderLen : Parser Unit) frame =
      .ok ((), Publish.lead topic q ++ block)) :
    ∃ finish, ReadBehind header frame .Publish block PublishProperties.table
      PublishProperties.empty finish := by
  have same : Publish.read header .V5 frame =
      (PublishProperties.read >>= Publish.finish header .V5 topic q) block :=
    Publish.read_lead asked fits small moved
  rw [PublishProperties.read_eq] at same
  refine ⟨_, .of_reader (run_bind_ok (Reads.lift known frame)) same ?_ ?_ ?_ ?_⟩
  · rw [← PublishProperties.read_eq]
    rfl
  · intro properties stream error _ failed
    cases failed
  · intro properties payload p rest finished
    cases finished
    exact ⟨rfl, fun _ => rfl⟩
  · exact (and_iff_right rfl).symm

theorem PubCommon.read_lead (Reason : Type) [Common Reason] {id : UInt16} {reason : UInt8}
    (long : 4 ≤ header.remainingLen)
    (moved : (advance header.fixedHeaderLen : Parser Unit) frame =
      .ok ((), putU16 [] id ++ [reason] ++ block)) :
    (PubCommon.read header .V5 : Parser (PubCommon Reason)) frame =
      (PubCommon.readProperties >>= fun found => match found with
        | none => do return .V5 id.toNat (← Common.reason reason) none []
        | some properties => do
          return .V5 id.toNat (← Common.reason reason) properties.reasonString
            properties.userProperties) block := by
  rw [List.append_assoc] at moved
  refine (run_bind_ok moved).trans ?_
  refine (run_bind_ok (readU16_reads id _)).trans ?_
  have other : header.remainingLen ≠ 2 := by omega
  have more : ¬header.remainingLen < 4 := by omega
  change (if _ then _ else _ : Parser (PubCommon Reason)) _ = _
  rw [if_neg other]
  refine (run_bind_ok (readU8_reads reason block)).trans ?_
  exact congrFun (if_neg more) block

theorem PubCommon.readBehind {Reason : Type} [Common Reason] {wrap : PubCommon Reason → Packet}
    {id : UInt16} {reason : UInt8} (long : 4 ≤ header.remainingLen)
    (clean : Clean (Common.reason reason : Outcome PacketParseError Reason))
    (opens : readPacket header .V5 frame =
      (PubCommon.read header .V5 >>= fun p => pure (wrap p)) frame)
    (block_read : readBlock type = PubCommon.readProperties >>= fun _ => pure ())
    (wrapped : ∀ p, (wrap p).packetTy = type) (bare : hasPayload type = false)
    (moved : (advance header.fixedHeaderLen : Parser Unit) frame =
      .ok ((), putU16 [] id ++ [reason] ++ block)) :
    ∃ finish, ReadBehind header frame type block AckProperties.table AckProperties.empty
      finish := by
  have same := PubCommon.read_lead (Reason) long moved
  rw [PubCommon.readProperties_eq] at same
  refine ⟨_, .of_reader opens same ?_ ?_ ?_ ?_⟩
  · rw [← PubCommon.readProperties_eq]
    exact block_read
  · intro found
    cases found with
    | none => exact looked_avoids _ clean
    | some properties => exact looked_avoids _ clean
  · intro _ _ p _ _
    refine ⟨wrapped p, fun some => ?_⟩
    rw [bare] at some
    cases some
  · refine cutInBlock_other rfl fun publish => ?_
    rw [publish] at bare
    cases bare

theorem readReturnCodes_avoids {α : Type} {reason : UInt8 → Outcome PacketParseError α}
    (clean : ∀ num, Clean (reason num)) :
    Avoids Starved (readReturnCodes reason) :=
  Avoids.remaining.bind fun _ => .ite (.reject fun starved => starved)
    (.whileRemaining (fun _ => readU8_avoids.bind fun num =>
      (Avoids.lift (clean num)).bind fun _ => .pure _) [])

theorem SubAck.reasonForV5_clean (num : UInt8) : Clean (SubAck.reasonForV5 num) := by
  unfold SubAck.reasonForV5
  split <;> first | exact clean_ok _ | exact clean_fail id

theorem UnsubAck.reasonForV5_clean (num : UInt8) : Clean (UnsubAck.reasonForV5 num) := by
  unfold UnsubAck.reasonForV5
  split <;> first | exact clean_ok _ | exact clean_fail id

/-- SUBACK and UNSUBACK: the reason codes stand behind the properties. -/
theorem codes_readBehind {β γ : Type} {reader : Parser β} {wrap : β → Packet}
    {reason : UInt8 → Outcome PacketParseError γ} {make : Option AckProperties → List γ → β}
    (opens : readPacket header .V5 frame = (reader >>= fun p => pure (wrap p)) frame)
    (same : reader frame = (readProperties (turnOf AckProperties.table) AckProperties.empty >>=
      fun properties => do return make properties (← readReturnCodes reason)) block)
    (properties : readBlock type =
      readProperties (turnOf AckProperties.table) AckProperties.empty >>= fun _ => pure ())
    (clean : ∀ num, Clean (reason num))
    (wrapped : ∀ p, (wrap p).packetTy = type) (other : type ≠ .Publish)
    (payload : ∀ properties codes bytes, bytes.map reason = codes.map .ok →
      PayloadIs (wrap (make properties codes)) bytes) :
    ∃ finish, ReadBehind header frame type block AckProperties.table AckProperties.empty
      finish := by
  refine ⟨_, .of_reader opens same properties ?_ ?_ (cutInBlock_other rfl other)⟩
  · exact fun _ => (readReturnCodes_avoids clean).bind fun _ => .pure _
  · intro properties left p rest finished
    obtain ⟨codes, behind, first, last⟩ := run_bind_inv finished
    cases last
    exact ⟨wrapped _, fun _ => payload properties codes left (readReturnCodes_inv first)⟩

theorem SubAck.readBehind {id : UInt16} (known : header.packetType = .ok .SubAck)
    (moved : (advance header.fixedHeaderLen : Parser Unit) frame =
      .ok ((), putU16 [] id ++ block)) :
    ∃ finish, ReadBehind header frame .SubAck block AckProperties.table AckProperties.empty
      finish := by
  have same : SubAck.read header .V5 frame = (SubAckProperties.read >>= fun properties => do
      return .V5ReadMode id.toNat properties (← readReturnCodes reasonForV5)) block :=
    (run_bind_ok moved).trans (run_bind_ok (readU16_reads id block))
  rw [SubAckProperties.read_eq] at same
  refine codes_readBehind (run_bind_ok (Reads.lift known frame)) same ?_ reasonForV5_clean
    (fun _ => rfl) (by decide) fun _ _ _ each => each
  rw [← SubAckProperties.read_eq]
  rfl

theorem UnsubAck.readBehind {id : UInt16} (known : header.packetType = .ok .UnsubAck)
    (moved : (advance header.fixedHeaderLen : Parser Unit) frame =
      .ok ((), putU16 [] id ++ block)) :
    ∃ finish, ReadBehind header frame .UnsubAck block AckProperties.table AckProperties.empty
      finish := by
  have same : UnsubAck.read header .V5 frame = (UnsubAckProperties.read >>= fun properties => do
      return .V5ReadMode id.toNat properties (← readReturnCodes reasonForV5)) block :=
    (run_bind_ok moved).trans (run_bind_ok (readU16_reads id block))
  rw [UnsubAckProperties.read_eq] at same
  refine codes_readBehind (run_bind_ok (Reads.lift known frame)) same ?_ reasonForV5_clean
    (fun _ => rfl) (by decide) fun _ _ _ each => each
  rw [← UnsubAckProperties.read_eq]
  rfl

theorem Disconnect.readBehind {code : UInt8} {reasonCode : DisconnectReasonCode}
    (known : header.packetType = .ok .Disconnect) (plain : header.byte1 &&& 0b00001111 = 0x00)
    (some : header.remainingLen ≠ 0) (found : DisconnectReasonCode.tryFrom code = .ok reasonCode)
    (moved : (advance header.fixedHeaderLen : Parser Unit) frame = .ok ((), [code] ++ block)) :
    ∃ finish, ReadBehind header frame .Disconnect block DisconnectProperties.table
      DisconnectProperties.empty finish := by
  have number : header.byte1 >>> 4 = PacketType.toU8 .Disconnect := packetType_number known
  have same : Disconnect.read header .V5 frame = (DisconnectProperties.extract >>=
      fun properties => pure (.V5 reasonCode properties)) block := by
    refine (run_bind_ok moved).trans ?_
    rw [if_neg (not_not.mpr number), if_neg (not_not.mpr plain)]
    change (if _ then _ else _ : Parser Disconnect) _ = _
    rw [if_neg some]
    refine (run_bind_ok (readU8_reads code block)).trans ?_
    exact run_bind_ok (Reads.lift found block)
  rw [DisconnectProperties.extract_eq] at same
  refine ⟨_, .of_reader (run_bind_ok (Reads.lift known frame)) same ?_ ?_ ?_ ?_⟩
  · rw [← DisconnectProperties.extract_eq]
    rfl
  · exact fun _ => .pure _
  · exact fun _ _ _ _ _ => ⟨rfl, fun none => by cases none⟩
  · exact cutInBlock_other rfl (by decide)

/-- A reason code of the four acknowledgements is not found by asking for more bytes. -/
class CleanCommon (Reason : Type) [Common Reason] : Prop where
  clean : ∀ num, Clean (Common.reason num : Outcome PacketParseError Reason)

instance : CleanCommon PubAckReason where
  clean num := by
    simp only [Common.reason]
    split <;> first | exact clean_ok _ | exact clean_fail id

instance : CleanCommon PubRecReason where
  clean num := by
    simp only [Common.reason]
    split <;> first | exact clean_ok _ | exact clean_fail id

instance : CleanCommon PubRelReason where
  clean num := by
    simp only [Common.reason]
    split <;> first | exact clean_ok _ | exact clean_fail id

instance : CleanCommon PubCompReason where
  clean num := by
    simp only [Common.reason]
    split <;> first | exact clean_ok _ | exact clean_fail id

theorem Leads.readBehind {front : Bytes} (leads : Leads header type front)
    (known : header.packetType = .ok type)
    (moved : (advance header.fixedHeaderLen : Parser Unit) frame = .ok ((), front ++ block)) :
    ∃ (α : Type) (table : Table α) (empty : α) (finish : Option α → Parser Packet),
      ReadBehind header frame type block table empty finish := by
  have opens : ∀ {next : PacketType → Parser Packet},
      (liftM header.packetType >>= next) frame = next type frame :=
    run_bind_ok (Reads.lift known frame)
  cases leads with
  | connAck flags code => exact ⟨_, _, _, ConnAck.readBehind known moved⟩
  | publish asked fits small => exact ⟨_, _, _, Publish.readBehind known asked fits small moved⟩
  | pubAck long id reason =>
    exact ⟨_, _, _, PubCommon.readBehind long (CleanCommon.clean reason) opens rfl
      (fun _ => rfl) rfl moved⟩
  | pubRec long id reason =>
    exact ⟨_, _, _, PubCommon.readBehind long (CleanCommon.clean reason) opens rfl
      (fun _ => rfl) rfl moved⟩
  | pubRel long id reason =>
    exact ⟨_, _, _, PubCommon.readBehind long (CleanCommon.clean reason) opens rfl
      (fun _ => rfl) rfl moved⟩
  | pubComp long id reason =>
    exact ⟨_, _, _, PubCommon.readBehind long (CleanCommon.clean reason) opens rfl
      (fun _ => rfl) rfl moved⟩
  | subAck id => exact ⟨_, _, _, SubAck.readBehind known moved⟩
  | unsubAck id => exact ⟨_, _, _, UnsubAck.readBehind known moved⟩
  | disconnect plain some found =>
    exact ⟨_, _, _, Disconnect.readBehind known plain some found moved⟩

/-! ## Packets that are read or ask for more bytes -/

theorem qos_clean (num : UInt8) : Clean (qos num) := by
  unfold qos
  split <;> first | exact clean_ok _ | exact clean_fail id

theorem packetType_clean : Clean header.packetType := by
  simp only [FixedHeader.packetType]
  split <;> first | exact clean_ok _ | exact clean_fail id

theorem tryFrom_clean (code : UInt8) : Clean (DisconnectReasonCode.tryFrom code) := by
  unfold DisconnectReasonCode.tryFrom
  split <;> first | exact clean_ok _ | exact clean_fail id

theorem PubCommon.read_avoids_of_short {Reason : Type} [Common Reason] [CleanCommon Reason]
    (short : header.remainingLen < 4) :
    Avoids Starved (PubCommon.read header .V5 : Parser (PubCommon Reason)) := by
  refine (Avoids.advance _).bind fun _ => readU16_avoids.bind fun id => ?_
  refine .ite (.pure _) (readU8_avoids.bind fun reason => ?_)
  rw [if_pos short]
  exact looked_avoids _ (CleanCommon.clean reason)

theorem readPacketId_avoids (asked : QoS) : Avoids Starved (Publish.readPacketId asked) := by
  cases asked with
  | AtMostOnce => exact .pure _
  | AtLeastOnce => exact readU16_avoids.bind fun _ => .pure _
  | ExactlyOnce => exact readU16_avoids.bind fun _ => .pure _

/-- A reading that is over or asks for more bytes: it has come past all that does not ask. -/
def Past {α : Type} (outcome : Outcome PacketParseError α) : Prop :=
  (∃ value, outcome = .ok value) ∨ ∃ error, Starved error ∧ outcome = fail error

theorem bind_past {α β : Type} {reader : Parser α} {next : α → Parser β} {stream : Bytes}
    (avoids : Avoids Starved reader) (past : Past ((reader >>= next) stream)) :
    ∃ value mid, reader stream = .ok (value, mid) ∧ Past (next value mid) := by
  rcases past with ⟨⟨result, rest⟩, read⟩ | ⟨error, starved, failed⟩
  · obtain ⟨value, mid, first, second⟩ := run_bind_inv read
    exact ⟨value, mid, first, .inl ⟨_, second⟩⟩
  · obtain ⟨value, mid, first, second⟩ := (bind_fails_behind avoids starved).mp failed
    exact ⟨value, mid, first, .inr ⟨error, starved, second⟩⟩

theorem reject_past {α : Type} {error : PacketParseError} {stream : Bytes}
    (other : ¬Starved error) : ¬Past ((reject error : Parser α) stream) := by
  rintro (⟨value, read⟩ | ⟨error', starved, failed⟩)
  · cases read
  · cases failed
    exact other starved

theorem ConnAck.lead_of_past (past : Past (ConnAck.read header .V5 frame)) :
    ∃ flags code block, (advance header.fixedHeaderLen : Parser Unit) frame =
      .ok ((), [flags, code] ++ block) := by
  obtain ⟨⟨⟩, body, moved, past₁⟩ := bind_past (.advance _) past
  obtain ⟨flags, mid, first, past₂⟩ := bind_past readU8_avoids past₁
  obtain ⟨code, block, second, _⟩ := bind_past readU8_avoids past₂
  refine ⟨flags, code, block, ?_⟩
  rw [moved, readU8_inv first, readU8_inv second]
  rfl

theorem Publish.lead_of_past (past : Past (Publish.read header .V5 frame)) :
    ∃ topic q block, Publish.asked header = .ok (service q) ∧ Fits (asBytes topic) ∧
      (∀ pkid, q.packetId = some pkid → pkid < 65536) ∧
      (advance header.fixedHeaderLen : Parser Unit) frame = .ok ((), lead topic q ++ block) := by
  obtain ⟨asked, _, first, past₁⟩ := bind_past (.lift (qos_clean _)) past
  obtain ⟨known, rfl⟩ := run_lift_inv first
  obtain ⟨⟨⟩, body, moved, past₂⟩ := bind_past (.advance _) past₁
  obtain ⟨topic, mid, text, past₃⟩ := bind_past readMqttString_avoids past₂
  obtain ⟨q, block, id, _⟩ := bind_past (readPacketId_avoids asked) past₃
  obtain ⟨fits, parts⟩ := readMqttString_inv text
  obtain ⟨rfl, small, more⟩ := readPacketId_inv id
  refine ⟨topic, q, block, known, fits, small, ?_⟩
  rw [moved, parts, more, lead, List.append_assoc]

/-- An acknowledgement that says no more than its reason does not ask. -/
theorem PubCommon.lead_of_past {Reason : Type} [Common Reason] [CleanCommon Reason]
    (past : Past ((PubCommon.read header .V5 : Parser (PubCommon Reason)) frame)) :
    (header.remainingLen < 4 ∧
      ∃ taken, (PubCommon.read header .V5 : Parser (PubCommon Reason)) frame = .ok taken) ∨
    ∃ id reason block, 4 ≤ header.remainingLen ∧
      (advance header.fixedHeaderLen : Parser Unit) frame =
        .ok ((), putU16 [] id ++ [reason] ++ block) := by
  by_cases short : header.remainingLen < 4
  · refine .inl ⟨short, past.resolve_right ?_⟩
    rintro ⟨error, starved, failed⟩
    exact read_avoids_of_short short frame error starved failed
  · obtain ⟨⟨⟩, body, moved, past₁⟩ := bind_past (.advance _) past
    obtain ⟨id, mid, first, past₂⟩ := bind_past readU16_avoids past₁
    change Past ((if _ then _ else _ : Parser (PubCommon Reason)) _) at past₂
    rw [if_neg (by omega)] at past₂
    obtain ⟨reason, block, second, _⟩ := bind_past readU8_avoids past₂
    refine .inr ⟨id, reason, block, Nat.le_of_not_lt short, ?_⟩
    rw [moved, readU16_inv first, readU8_inv second, List.append_assoc]
    rfl

theorem id_of_past {β : Type} {next : UInt16 → Parser β}
    (past : Past ((advance header.fixedHeaderLen >>= fun _ => readU16 >>= next : Parser β) frame)) :
    ∃ id block, (advance header.fixedHeaderLen : Parser Unit) frame =
      .ok ((), putU16 [] id ++ block) := by
  obtain ⟨⟨⟩, body, moved, past₁⟩ := bind_past (.advance _) past
  obtain ⟨id, block, first, _⟩ := bind_past readU16_avoids past₁
  exact ⟨id, block, by rw [moved, readU16_inv first]⟩

theorem Disconnect.lead_of_past (past : Past (Disconnect.read header .V5 frame)) :
    (header.remainingLen = 0 ∧ ∃ taken, Disconnect.read header .V5 frame = .ok taken) ∨
    ∃ code reasonCode block, header.byte1 &&& 0b00001111 = 0x00 ∧ header.remainingLen ≠ 0 ∧
      DisconnectReasonCode.tryFrom code = .ok reasonCode ∧
      (advance header.fixedHeaderLen : Parser Unit) frame = .ok ((), [code] ++ block) := by
  obtain ⟨⟨⟩, body, moved, past₁⟩ := bind_past (.advance _) past
  have opened : Disconnect.read header .V5 frame = _ := run_bind_ok moved
  by_cases number : header.byte1 >>> 4 ≠ PacketType.toU8 .Disconnect
  · rw [if_pos number] at past₁
    exact absurd past₁ (reject_past id)
  rw [if_neg number] at past₁ opened
  by_cases flags : header.byte1 &&& 0b00001111 ≠ 0x00
  · rw [if_pos flags] at past₁
    exact absurd past₁ (reject_past id)
  rw [if_neg flags] at past₁ opened
  change Past ((if _ then _ else _ : Parser Disconnect) _) at past₁
  change _ = (if _ then _ else _ : Parser Disconnect) _ at opened
  by_cases bare : header.remainingLen = 0
  · rw [if_pos bare] at opened
    exact .inl ⟨bare, _, opened⟩
  · rw [if_neg bare] at past₁
    obtain ⟨code, block, first, past₂⟩ := bind_past readU8_avoids past₁
    obtain ⟨reasonCode, _, looked, _⟩ := bind_past (.lift (tryFrom_clean code)) past₂
    obtain ⟨found, _⟩ := run_lift_inv looked
    refine .inr ⟨code, reasonCode, block, not_not.mp flags, bare, found, ?_⟩
    rw [moved, readU8_inv first]
    rfl

theorem past_of_wrapped {β : Type} {reader : Parser β} {wrap : β → Packet}
    (past : Past ((reader >>= fun p => pure (wrap p) : Parser Packet) frame)) :
    Past (reader frame) := by
  rcases past with ⟨⟨packet, rest⟩, read⟩ | ⟨error, starved, failed⟩
  · obtain ⟨p, mid, first, _⟩ := run_bind_inv read
    exact .inl ⟨_, first⟩
  · rcases bind_fails_iff.mp failed with first | ⟨_, _, _, last⟩
    · exact .inr ⟨error, starved, first⟩
    · cases last

/-- The types whose packets can end in front of the properties, with the lengths that do. -/
def Bare (header : FixedHeader) : PacketType → Prop
  | .PingResp => True
  | .PubAck | .PubRec | .PubRel | .PubComp => header.remainingLen < 4
  | .Disconnect => header.remainingLen = 0
  | _ => False

theorem wrapped_ok {β : Type} {reader : Parser β} {wrap : β → Packet}
    (known : ∀ p, (wrap p).packetTy = type) (read : ∃ taken, reader frame = .ok taken) :
    ∃ taken, (reader >>= fun p => pure (wrap p) : Parser Packet) frame = .ok taken ∧
      taken.1.packetTy = type := by
  obtain ⟨⟨p, rest⟩, read⟩ := read
  exact ⟨_, run_bind_ok read, known p⟩

theorem PubCommon.leads_of_past {Reason : Type} [Common Reason] [CleanCommon Reason]
    {wrap : PubCommon Reason → Packet} (known : ∀ p, (wrap p).packetTy = type)
    (bare : header.remainingLen < 4 → Bare header type)
    (leads : 4 ≤ header.remainingLen → ∀ id reason, Leads header type (putU16 [] id ++ [reason]))
    (past : Past ((PubCommon.read header .V5 >>= fun p => pure (wrap p) : Parser Packet) frame)) :
    (Bare header type ∧
      ∃ taken, (PubCommon.read header .V5 >>= fun p => pure (wrap p) : Parser Packet) frame =
        .ok taken ∧ taken.1.packetTy = type) ∨
      ∃ front block, Leads header type front ∧
        (advance header.fixedHeaderLen : Parser Unit) frame = .ok ((), front ++ block) := by
  rcases lead_of_past (past_of_wrapped past) with
    ⟨short, read⟩ | ⟨id, reason, block, long, moved⟩
  · exact .inl ⟨bare short, wrapped_ok known read⟩
  · exact .inr ⟨_, block, leads long id reason, moved⟩

/-- A packet that is read, or that asks for more bytes, has a property block if it is not
a bare one, which does not ask. -/
theorem leads_of_past (past : Past (readPacket header .V5 frame)) :
    ∃ type, header.packetType = .ok type ∧
      ((Bare header type ∧
          ∃ taken, readPacket header .V5 frame = .ok taken ∧ taken.1.packetTy = type) ∨
        ∃ front block, Leads header type front ∧
          (advance header.fixedHeaderLen : Parser Unit) frame = .ok ((), front ++ block)) := by
  obtain ⟨type, _, first, opened⟩ := bind_past (.lift packetType_clean) past
  obtain ⟨known, here⟩ := run_lift_inv first
  rw [here] at first opened
  have same : readPacket header .V5 frame = _ := run_bind_ok first
  rw [same]
  refine ⟨type, known, ?_⟩
  cases type with
  | ConnAck =>
    obtain ⟨flags, code, block, moved⟩ := ConnAck.lead_of_past (past_of_wrapped opened)
    exact .inr ⟨_, block, .connAck flags code, moved⟩
  | Publish =>
    obtain ⟨topic, q, block, asked, fits, small, moved⟩ :=
      Publish.lead_of_past (past_of_wrapped opened)
    exact .inr ⟨_, block, .publish asked fits small, moved⟩
  | PubAck => exact PubCommon.leads_of_past (fun _ => rfl) (fun short => short) .pubAck opened
  | PubRec => exact PubCommon.leads_of_past (fun _ => rfl) (fun short => short) .pubRec opened
  | PubRel => exact PubCommon.leads_of_past (fun _ => rfl) (fun short => short) .pubRel opened
  | PubComp => exact PubCommon.leads_of_past (fun _ => rfl) (fun short => short) .pubComp opened
  | SubAck =>
    obtain ⟨id, block, moved⟩ := id_of_past (past_of_wrapped opened)
    exact .inr ⟨_, block, .subAck id, moved⟩
  | UnsubAck =>
    obtain ⟨id, block, moved⟩ := id_of_past (past_of_wrapped opened)
    exact .inr ⟨_, block, .unsubAck id, moved⟩
  | Disconnect =>
    rcases Disconnect.lead_of_past (past_of_wrapped opened) with
      ⟨none, read⟩ | ⟨code, reasonCode, block, plain, some, found, moved⟩
    · exact .inl ⟨none, wrapped_ok (fun _ => rfl) read⟩
    · exact .inr ⟨_, block, .disconnect plain some found, moved⟩
  | PingResp => exact .inl ⟨trivial, _, rfl, rfl⟩
  | _ => exact absurd opened (reject_past id)

end Behind

/-! ## Blocks in the buffer -/

/-- The stream begins with a frame of version 5 that has a property block: the bytes of
the frame behind the leading fields, with all that follows the properties. -/
structure CarriesBlock (stream : Bytes) (header : FixedHeader) (type : PacketType)
    (block : Bytes) : Prop where
  parsed : parseFixedHeaderBySlice stream = .ok header
  whole : header.total ≤ stream.length
  known : header.packetType = .ok type
  leads : ∃ front, Leads header type front ∧
    (stream.take header.total).drop header.fixedHeaderLen = front ++ block

section Buffer

variable {stream block : Bytes} {header : FixedHeader} {type : PacketType}

theorem advance_frame (whole : header.total ≤ stream.length) :
    (advance header.fixedHeaderLen : Parser Unit) (stream.take header.total) =
      .ok ((), (stream.take header.total).drop header.fixedHeaderLen) := by
  have inside : header.fixedHeaderLen ≤ header.total := Nat.le_add_right _ _
  have size : (stream.take header.total).length = header.total := List.length_take_of_le whole
  rw [advance, if_pos (by omega)]

/-- The frame at the front of the buffer, if it is read or asks for more bytes. -/
theorem carriesBlock_of_past (parsed : parseFixedHeaderBySlice stream = .ok header)
    (whole : header.total ≤ stream.length)
    (past : Past (readPacket header .V5 (stream.take header.total))) :
    (∃ type, Bare header type ∧
      ∃ taken, readPacket header .V5 (stream.take header.total) = .ok taken ∧
        taken.1.packetTy = type) ∨
      ∃ type block, CarriesBlock stream header type block := by
  obtain ⟨type, known, bare | ⟨front, block, leads, moved⟩⟩ := leads_of_past past
  · exact .inl ⟨type, bare⟩
  · rw [advance_frame whole] at moved
    injection moved with moved
    exact .inr ⟨type, block, parsed, whole, known, front, leads, (Prod.mk.inj moved).2⟩

/-- The header of the frame is the one that the reader finds. -/
theorem CarriesBlock.found {outcome : Outcome FixedHeaderError FixedHeader}
    (carries : CarriesBlock stream header type block)
    (parsed : parseFixedHeaderBySlice stream = outcome) : outcome = .ok header :=
  parsed.symm.trans carries.parsed

theorem CarriesBlock.readBehind (carries : CarriesBlock stream header type block) :
    ∃ (α : Type) (table : Table α) (empty : α) (finish : Option α → Parser Packet),
      ReadBehind header (stream.take header.total) type block table empty finish := by
  obtain ⟨front, leads, parts⟩ := carries.leads
  have moved := advance_frame carries.whole
  rw [parts] at moved
  exact leads.readBehind carries.known moved

/-- A packet asks for more bytes in the length of its properties, or in a subscription
identifier of a PUBLISH. -/
theorem CarriesBlock.starves_iff (carries : CarriesBlock stream header type block) :
    (∃ size, readPacket header .V5 (stream.take header.total) = fail (.InsufficientBytes size)) ↔
      Cut block ∨ type = .Publish ∧
        CutInBlock PublishProperties.table PublishProperties.empty block := by
  obtain ⟨α, table, empty, finish, behind⟩ := carries.readBehind
  rw [← behind.identifiers, ← readProperties_starves_iff]
  refine exists_congr fun size => ?_
  rw [behind.packet, bind_fails_iff]
  refine or_iff_left ?_
  rintro ⟨found, mid, _, failed⟩
  exact behind.avoids found mid (.InsufficientBytes size) trivial failed

end Buffer

end Codec
