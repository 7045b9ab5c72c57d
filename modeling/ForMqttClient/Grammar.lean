import ForMqttClient.Frames
import ForMqttClient.PacketBlocks

/-!
# The packets as a grammar

Which byte strings the client takes for which packets: for each type of packet the
form of its body, with what the reader overlooks (flags, bytes behind the last
field, a length in more bytes than it needs) as much as with what it checks. The
reader and this grammar agree on every buffer.
-/

namespace Codec

open MqttData ByteReader

/-! ## Bodies -/

/-- A length, in any of its encodings, and items that cover it. -/
inductive Block {α : Type} (table : Table α) (empty : α) : Bytes → Option α → Prop where
  | mk {size : Bytes} {total : Nat} {items : List Item} {acc : α}
      (measured : length size = .ok (size.length, total)) (covers : Covers total items)
      (filled : fill table empty items = some acc) :
      Block table empty (size ++ blockBytes items) (if total = 0 then none else some acc)

inductive ConnAckBody : Protocol → Bytes → ConnAck → Prop where
  | v4 {flags raw : UInt8} {code : ConnectReturnCode} (known : connectReturnV3 raw = .ok code)
      (junk : Bytes) :
      ConnAckBody .V4 (flags :: raw :: junk) ⟨flags &&& 0x01 = 1, code, none⟩
  | v5 {flags raw : UInt8} {code : ConnectReturnCode} {block : Bytes}
      {properties : Option ConnAckProperties} (known : connectReturnV5 raw = .ok code)
      (stands : Block ConnAckProperties.table .empty block properties) (junk : Bytes) :
      ConnAckBody .V5 (flags :: raw :: (block ++ junk)) ⟨flags &&& 0x01 = 1, code, properties⟩

inductive PublishBlock : Protocol → Bytes → Option PublishProperties → Prop where
  | v4 : PublishBlock .V4 [] none
  | v5 {block : Bytes} {properties : Option PublishProperties}
      (stands : Block PublishProperties.table PublishProperties.empty block properties) :
      PublishBlock .V5 block properties

inductive PublishBody (byte1 : UInt8) : Protocol → Bytes → Publish → Prop where
  | mk {version : Protocol} {topic : String} {q : QoSWithPacketId} {block : Bytes}
      {properties : Option PublishProperties}
      (asked : qos ((byte1 &&& 0b0110) >>> 1) = .ok (Publish.service q))
      (fits : Fits (asBytes topic)) (small : ∀ pkid, q.packetId = some pkid → pkid < 65536)
      (stands : PublishBlock version block properties) (payload : Bytes) :
      PublishBody byte1 version (Publish.lead topic q ++ (block ++ payload)) {
        protocol := version
        dup := byte1 &&& 0b1000 ≠ 0
        retain := byte1 &&& 0b0001 ≠ 0
        qos := q
        topic := topic
        payload := payload
        properties := properties }

/-- The four acknowledgements of a publish. -/
inductive PubCommonBody {Reason : Type} [Common Reason] :
    Protocol → Bytes → PubCommon Reason → Prop where
  | v4 (id : UInt16) : PubCommonBody .V4 (putU16 [] id) (.V4 id.toNat)
  | short (id : UInt16) :
      PubCommonBody .V5 (putU16 [] id) (.V5 id.toNat Common.default none [])
  | reason (id : UInt16) {raw : UInt8} {reason : Reason} (known : Common.reason raw = .ok reason) :
      PubCommonBody .V5 (putU16 [] id ++ [raw]) (.V5 id.toNat reason none [])
  | full (id : UInt16) {raw : UInt8} {reason : Reason} {block : Bytes}
      {properties : Option AckProperties} (known : Common.reason raw = .ok reason)
      (stands : Block AckProperties.table .empty block properties) (junk : Bytes) :
      PubCommonBody .V5 (putU16 [] id ++ (raw :: (block ++ junk)))
        (.V5 id.toNat reason (properties.bind (·.reasonString))
          ((properties.map (·.userProperties)).getD []))

/-- At least one code, to the end of the body. -/
structure CodesAre {α : Type} (reason : UInt8 → Outcome PacketParseError α) (raw : Bytes)
    (codes : List α) : Prop where
  some : raw ≠ []
  each : raw.map reason = codes.map .ok

inductive SubAckBody : Protocol → Bytes → SubAck → Prop where
  | v4 (id : UInt16) {raw : Bytes} {codes : List SubscribeReasonCode}
      (known : CodesAre SubAck.reasonForV4 raw codes) :
      SubAckBody .V4 (putU16 [] id ++ raw) (.V4 id.toNat codes)
  | v5 (id : UInt16) {block raw : Bytes} {properties : Option AckProperties}
      {codes : List SubscribeReasonCode}
      (stands : Block AckProperties.table .empty block properties)
      (known : CodesAre SubAck.reasonForV5 raw codes) :
      SubAckBody .V5 (putU16 [] id ++ (block ++ raw)) (.V5ReadMode id.toNat properties codes)

inductive UnsubAckBody : Protocol → Bytes → UnsubAck → Prop where
  | v4 (id : UInt16) (junk : Bytes) : UnsubAckBody .V4 (putU16 [] id ++ junk) (.V4 id.toNat)
  | v5 (id : UInt16) {block raw : Bytes} {properties : Option AckProperties}
      {codes : List UnsubAckReason}
      (stands : Block AckProperties.table .empty block properties)
      (known : CodesAre UnsubAck.reasonForV5 raw codes) :
      UnsubAckBody .V5 (putU16 [] id ++ (block ++ raw)) (.V5ReadMode id.toNat properties codes)

inductive DisconnectBody : Bytes → Disconnect → Prop where
  | short : DisconnectBody [] (.V5 .NormalDisconnection none)
  | full {raw : UInt8} {code : DisconnectReasonCode} {block : Bytes}
      {properties : Option DisconnectProperties}
      (known : DisconnectReasonCode.tryFrom raw = .ok code)
      (stands : Block DisconnectProperties.table .empty block properties) (junk : Bytes) :
      DisconnectBody (raw :: (block ++ junk)) (.V5 code properties)

/-! ## Packets -/

/-- The type in the upper half of the first byte decides on the form of the body; only
PUBLISH and DISCONNECT look at the lower half. -/
inductive Accepts (byte1 : UInt8) : Protocol → Bytes → Packet → Prop where
  | connAck {version : Protocol} {body : Bytes} {p : ConnAck} (type : byte1 >>> 4 = 2)
      (form : ConnAckBody version body p) : Accepts byte1 version body (.ConnAck p)
  | publish {version : Protocol} {body : Bytes} {p : Publish} (type : byte1 >>> 4 = 3)
      (form : PublishBody byte1 version body p) : Accepts byte1 version body (.Publish p)
  | pubAck {version : Protocol} {body : Bytes} {p : PubCommon PubAckReason}
      (type : byte1 >>> 4 = 4) (form : PubCommonBody version body p) :
      Accepts byte1 version body (.PubAck p)
  | pubRec {version : Protocol} {body : Bytes} {p : PubCommon PubRecReason}
      (type : byte1 >>> 4 = 5) (form : PubCommonBody version body p) :
      Accepts byte1 version body (.PubRec p)
  | pubRel {version : Protocol} {body : Bytes} {p : PubCommon PubRelReason}
      (type : byte1 >>> 4 = 6) (form : PubCommonBody version body p) :
      Accepts byte1 version body (.PubRel p)
  | pubComp {version : Protocol} {body : Bytes} {p : PubCommon PubCompReason}
      (type : byte1 >>> 4 = 7) (form : PubCommonBody version body p) :
      Accepts byte1 version body (.PubComp p)
  | subAck {version : Protocol} {body : Bytes} {p : SubAck} (type : byte1 >>> 4 = 9)
      (form : SubAckBody version body p) : Accepts byte1 version body (.SubAck p)
  | unsubAck {version : Protocol} {body : Bytes} {p : UnsubAck} (type : byte1 >>> 4 = 11)
      (form : UnsubAckBody version body p) : Accepts byte1 version body (.UnsubAck p)
  | pingResp {version : Protocol} (body : Bytes) (type : byte1 >>> 4 = 13) :
      Accepts byte1 version body .PingResp
  | disconnect {body : Bytes} {p : Disconnect} (type : byte1 >>> 4 = 14)
      (plain : byte1 &&& 0b00001111 = 0) (form : DisconnectBody body p) :
      Accepts byte1 .V5 body (.Disconnect p)

/-! ## Blocks and codes -/

section Parts

variable {α : Type} {stream rest behind : Bytes}

/-- A length stands in its own bytes. -/
theorem length_split {count total : Nat} (read : length stream = .ok (count, total)) :
    ∃ size, size.length = count ∧ length size = .ok (count, total) ∧
      stream = size ++ stream.drop count := by
  have split := List.take_append_drop count stream
  have size := List.length_take_of_le (length_bounds read).2.2.1
  rw [← split] at read
  exact ⟨stream.take count, size, length_back read (Nat.le_of_eq size.symm), split.symm⟩

theorem announces_iff {total : Nat} :
    Announces stream total behind ↔
      ∃ size, length size = .ok (size.length, total) ∧ stream = size ++ behind := by
  constructor
  · rintro ⟨count, read, rfl⟩
    obtain ⟨size, rfl, front, parts⟩ := length_split read
    exact ⟨size, front, parts⟩
  · rintro ⟨size, read, rfl⟩
    exact ⟨size.length, length_encoded_of read behind, List.drop_left.symm⟩

theorem readBlock_iff {table : Table α} {empty : α} {result : Option α} :
    readProperties (turnOf table) empty stream = .ok (result, rest) ↔
      ∃ block, Block table empty block result ∧ stream = block ++ rest := by
  rw [readProperties_ok_iff]
  constructor
  · rintro ⟨total, items, acc, announced, covers, filled, rfl⟩
    obtain ⟨size, measured, rfl⟩ := announces_iff.mp announced
    exact ⟨_, .mk measured covers filled, (List.append_assoc _ _ _).symm⟩
  · rintro ⟨_, ⟨measured, covers, filled⟩, rfl⟩
    rw [List.append_assoc]
    exact ⟨_, _, _, announces_iff.mpr ⟨_, measured, rfl⟩, covers, filled, rfl⟩

theorem Block.reads {table : Table α} {empty : α} {block : Bytes} {result : Option α}
    (stands : Block table empty block result) :
    Reads (readProperties (turnOf table) empty) block result :=
  fun _ => readBlock_iff.mpr ⟨block, stands, rfl⟩

/-- A block has a length at least. -/
theorem Block.some {table : Table α} {empty : α} {block : Bytes} {result : Option α}
    (stands : Block table empty block result) : block ≠ [] := by
  cases stands with
  | @mk size _ _ _ measured _ _ =>
    intro nothing
    have pos : 1 ≤ size.length := (length_bounds measured).1
    rw [(List.append_eq_nil_iff.mp nothing).1] at pos
    exact absurd pos (Nat.not_succ_le_zero 0)

theorem returnCodes_reads {reason : UInt8 → Outcome PacketParseError α} (raw : Bytes) :
    ∀ fuel codes more, raw.length < fuel → raw.map reason = more.map .ok →
      remainingLoop (fun codes => do
        let returnCode ← readU8
        return codes ++ [← reason returnCode]) fuel codes raw = .ok (codes ++ more, []) := by
  induction raw with
  | nil =>
    intro fuel codes more enough each
    obtain ⟨fuel, rfl⟩ := Nat.exists_eq_succ_of_ne_zero (Nat.ne_of_gt enough)
    obtain rfl : more = [] := List.map_eq_nil_iff.mp each.symm
    rw [List.append_nil]
    rfl
  | cons byte raw ih =>
    intro fuel codes more enough each
    obtain ⟨fuel, rfl⟩ := Nat.exists_eq_succ_of_ne_zero (Nat.ne_of_gt (Nat.zero_lt_of_lt enough))
    cases more with
    | nil => cases each
    | cons code more =>
      rw [List.map_cons, List.map_cons, List.cons.injEq] at each
      have turned : (do
          let returnCode ← readU8
          return codes ++ [← reason returnCode] : Parser (List α)) (byte :: raw) =
            .ok (codes ++ [code], raw) :=
        (run_bind_ok (readU8_reads byte raw)).trans (run_bind_ok (Reads.lift each.1 raw))
      have later := ih fuel (codes ++ [code]) more (Nat.lt_of_succ_lt_succ enough) each.2
      rw [List.append_assoc] at later
      exact (run_bind_ok turned).trans later

theorem readReturnCodes_iff {reason : UInt8 → Outcome PacketParseError α} {codes : List α} :
    (∃ rest, readReturnCodes reason stream = .ok (codes, rest)) ↔
      CodesAre reason stream codes := by
  constructor
  · rintro ⟨rest, read⟩
    refine ⟨?_, readReturnCodes_inv read⟩
    rintro rfl
    cases read
  · rintro ⟨some, each⟩
    have left : stream.length ≠ 0 := fun none_left => some (List.eq_nil_of_length_eq_zero none_left)
    refine ⟨[], ?_⟩
    change (if stream.length = 0 then _ else whileRemaining _ [] : Parser (List α)) stream = _
    rw [if_neg left]
    exact returnCodes_reads stream _ [] codes (Nat.lt_succ_self _) each

end Parts

/-! ## Each type of packet -/

section Bodies

variable {header : FixedHeader} {version : Protocol} {frame body : Bytes}

theorem ConnAck.read_iff {p : ConnAck}
    (moved : (advance header.fixedHeaderLen : Parser Unit) frame = .ok ((), body)) :
    (∃ rest, ConnAck.read header version frame = .ok (p, rest)) ↔ ConnAckBody version body p := by
  constructor
  · rintro ⟨rest, read⟩
    replace read := (run_bind_ok moved).symm.trans read
    obtain ⟨flags, mid, first, read₁⟩ := run_bind_inv read
    obtain ⟨raw, left, second, read₂⟩ := run_bind_inv read₁
    obtain rfl : body = flags :: raw :: left := by
      rw [readU8_inv first, readU8_inv second]
      rfl
    cases version with
    | V4 =>
      obtain ⟨code, behind, looked, last⟩ := run_bind_inv read₂
      cases last
      exact .v4 (run_lift_inv looked).1 left
    | V5 =>
      obtain ⟨properties, behind, taken, read₃⟩ := run_bind_inv read₂
      obtain ⟨code, _, looked, last⟩ := run_bind_inv read₃
      cases last
      rw [ConnAckProperties.read_eq] at taken
      obtain ⟨block, stands, rfl⟩ := readBlock_iff.mp taken
      exact .v5 (run_lift_inv looked).1 stands behind
  · intro form
    cases form with
    | v4 known junk =>
      refine ⟨junk, (run_bind_ok moved).trans ?_⟩
      refine (run_bind_ok (readU8_reads _ (_ :: junk))).trans ?_
      refine (run_bind_ok (readU8_reads _ junk)).trans ?_
      exact run_bind_ok (Reads.lift known junk)
    | v5 known stands junk =>
      refine ⟨junk, (ConnAck.read_lead moved).trans ?_⟩
      rw [ConnAckProperties.read_eq]
      refine (run_bind_ok (stands.reads junk)).trans ?_
      exact run_bind_ok (Reads.lift known junk)

theorem Publish.readProperties_iff {properties : Option PublishProperties} {rest : Bytes} :
    Publish.readProperties version body = .ok (properties, rest) ↔
      ∃ block, PublishBlock version block properties ∧ body = block ++ rest := by
  cases version with
  | V4 =>
    constructor
    · intro read
      cases read
      exact ⟨[], .v4, rfl⟩
    · rintro ⟨_, ⟨⟩, rfl⟩
      rfl
  | V5 =>
    rw [Publish.readProperties, PublishProperties.read_eq, readBlock_iff]
    constructor
    · rintro ⟨block, stands, parts⟩
      exact ⟨block, .v5 stands, parts⟩
    · rintro ⟨block, form, parts⟩
      cases form with
      | v5 stands => exact ⟨block, stands, parts⟩

theorem Publish.read_iff {p : Publish}
    (moved : (advance header.fixedHeaderLen : Parser Unit) frame = .ok ((), body)) :
    (∃ rest, Publish.read header version frame = .ok (p, rest)) ↔
      PublishBody header.byte1 version body p := by
  constructor
  · rintro ⟨rest, read⟩
    obtain ⟨asked, fits, small, behind, moved', read₁⟩ := Publish.read_inv read
    obtain rfl : body = lead p.topic p.qos ++ behind := by
      rw [moved] at moved'
      cases moved'
      rfl
    obtain ⟨properties, payload, taken, last⟩ := run_bind_inv read₁
    obtain ⟨block, stands, rfl⟩ := Publish.readProperties_iff.mp taken
    have form := PublishBody.mk asked fits small stands payload
    injection last with last
    injection last with made
    rw [← made]
    exact form
  · rintro ⟨asked, fits, small, stands, payload⟩
    refine ⟨payload, (Publish.read_lead asked fits small moved).trans ?_⟩
    exact run_bind_ok (Publish.readProperties_iff.mpr ⟨_, stands, rfl⟩)

section acks

variable {Reason : Type} [Common Reason] {p : PubCommon Reason}

/-- Behind the reason comes a block, whatever follows it. -/
theorem PubCommon.full_of_read {id : UInt16} {raw : UInt8} {behind rest : Bytes}
    (read : (PubCommon.readProperties >>= fun found => match found with
      | none => do return .V5 id.toNat (← Common.reason raw) none []
      | some properties => do
        return .V5 id.toNat (← Common.reason raw) properties.reasonString
          properties.userProperties : Parser (PubCommon Reason)) behind = .ok (p, rest)) :
    PubCommonBody .V5 (putU16 [] id ++ (raw :: behind)) p := by
  obtain ⟨found, junk, taken, read'⟩ := run_bind_inv read
  rw [PubCommon.readProperties_eq] at taken
  obtain ⟨block, stands, rfl⟩ := readBlock_iff.mp taken
  cases found with
  | none =>
    obtain ⟨reason, _, looked, last⟩ := run_bind_inv read'
    cases last
    exact .full id (run_lift_inv looked).1 stands junk
  | some properties =>
    obtain ⟨reason, _, looked, last⟩ := run_bind_inv read'
    cases last
    exact .full id (run_lift_inv looked).1 stands junk

theorem PubCommon.body_of_read {rest : Bytes}
    (moved : (advance header.fixedHeaderLen : Parser Unit) frame = .ok ((), body))
    (announced : header.remainingLen = body.length)
    (read : PubCommon.read header version frame = .ok (p, rest)) :
    PubCommonBody version body p := by
  replace read := (run_bind_ok moved).symm.trans read
  obtain ⟨id, left, first, read₁⟩ := run_bind_inv read
  obtain rfl := readU16_inv first
  rw [List.length_append] at announced
  change header.remainingLen = 2 + left.length at announced
  -- nothing stands behind the id when the header announces two bytes
  have alone (two : header.remainingLen = 2) : putU16 [] id ++ left = putU16 [] id := by
    obtain rfl := List.eq_nil_of_length_eq_zero (show left.length = 0 by omega)
    exact List.append_nil _
  cases version with
  | V4 =>
    change (if _ then _ else _ : Parser (PubCommon Reason)) left = _ at read₁
    split at read₁
    · next two =>
      cases read₁
      rw [alone two]
      exact .v4 id
    · cases read₁
  | V5 =>
    change (if _ then _ else _ : Parser (PubCommon Reason)) left = _ at read₁
    split at read₁
    · next two =>
      cases read₁
      rw [alone two]
      exact .short id
    · obtain ⟨raw, behind, second, read₂⟩ := run_bind_inv read₁
      obtain rfl : left = raw :: behind := readU8_inv second
      rw [List.length_cons] at announced
      change (if _ then _ else _ : Parser (PubCommon Reason)) behind = _ at read₂
      split at read₂
      · obtain ⟨reason, _, looked, last⟩ := run_bind_inv read₂
        cases last
        obtain rfl := List.eq_nil_of_length_eq_zero (show behind.length = 0 by omega)
        exact .reason id (run_lift_inv looked).1
      · exact PubCommon.full_of_read read₂

theorem PubCommon.full_reads {id : UInt16} {raw : UInt8} {reason : Reason} {block junk : Bytes}
    {properties : Option AckProperties}
    (moved : (advance header.fixedHeaderLen : Parser Unit) frame =
      .ok ((), putU16 [] id ++ (raw :: (block ++ junk))))
    (announced : header.remainingLen = (putU16 [] id ++ (raw :: (block ++ junk))).length)
    (known : Common.reason raw = .ok reason)
    (stands : Block AckProperties.table .empty block properties) :
    PubCommon.read header .V5 frame =
      .ok (.V5 id.toNat reason (properties.bind (·.reasonString))
        ((properties.map (·.userProperties)).getD []), junk) := by
  have long : 4 ≤ header.remainingLen := by
    have some := List.length_pos_iff.mpr stands.some
    rw [announced, List.length_append, List.length_cons, List.length_append]
    change 4 ≤ 2 + _
    omega
  have whole : putU16 [] id ++ (raw :: (block ++ junk)) =
      putU16 [] id ++ [raw] ++ (block ++ junk) := rfl
  rw [whole] at moved
  refine (PubCommon.read_lead Reason long moved).trans ?_
  rw [PubCommon.readProperties_eq]
  refine (run_bind_ok (stands.reads junk)).trans ?_
  cases properties with
  | none => exact run_bind_ok (Reads.lift known junk)
  | some properties => exact run_bind_ok (Reads.lift known junk)

theorem PubCommon.read_of_body
    (moved : (advance header.fixedHeaderLen : Parser Unit) frame = .ok ((), body))
    (announced : header.remainingLen = body.length) (form : PubCommonBody version body p) :
    ∃ rest, PubCommon.read header version frame = .ok (p, rest) := by
  have number (id : UInt16) : (readU16 : Parser UInt16) (putU16 [] id) = .ok (id, []) := by
    have taken := readU16_reads id []
    rwa [List.append_nil] at taken
  cases form with
  | v4 id =>
    refine ⟨[], (run_bind_ok moved).trans ((run_bind_ok (number id)).trans ?_)⟩
    exact congrFun (if_pos announced) []
  | short id =>
    refine ⟨[], (run_bind_ok moved).trans ((run_bind_ok (number id)).trans ?_)⟩
    exact congrFun (if_pos announced) []
  | @reason id raw reason known =>
    have three : header.remainingLen = 3 := announced
    refine ⟨[], (run_bind_ok moved).trans ?_⟩
    refine (run_bind_ok (readU16_reads id [raw])).trans ?_
    refine (congrFun (if_neg (by omega)) [raw]).trans ?_
    refine (run_bind_ok (readU8_reads raw [])).trans ?_
    refine (congrFun (if_pos (by omega)) []).trans ?_
    exact run_bind_ok (Reads.lift known [])
  | full id known stands junk => exact ⟨junk, PubCommon.full_reads moved announced known stands⟩

theorem PubCommon.read_iff
    (moved : (advance header.fixedHeaderLen : Parser Unit) frame = .ok ((), body))
    (announced : header.remainingLen = body.length) :
    (∃ rest, PubCommon.read header version frame = .ok (p, rest)) ↔
      PubCommonBody version body p :=
  ⟨fun ⟨_, read⟩ => PubCommon.body_of_read moved announced read,
    PubCommon.read_of_body moved announced⟩

end acks

/-- A list of codes behind a block. -/
theorem codesBehind_iff {β γ : Type} {reason : UInt8 → Outcome PacketParseError γ}
    {make : Option AckProperties → List γ → β} {result : β} :
    (∃ rest, (readProperties (turnOf AckProperties.table) AckProperties.empty >>=
        fun properties => do return make properties (← readReturnCodes reason)) body =
          .ok (result, rest)) ↔
      ∃ block raw properties codes, Block AckProperties.table .empty block properties ∧
        CodesAre reason raw codes ∧ body = block ++ raw ∧ result = make properties codes := by
  constructor
  · rintro ⟨rest, read⟩
    obtain ⟨properties, raw, taken, read₁⟩ := run_bind_inv read
    obtain ⟨codes, left, listed, last⟩ := run_bind_inv read₁
    cases last
    obtain ⟨block, stands, parts⟩ := readBlock_iff.mp taken
    exact ⟨block, raw, properties, codes, stands, readReturnCodes_iff.mp ⟨_, listed⟩, parts, rfl⟩
  · rintro ⟨block, raw, properties, codes, stands, known, rfl, rfl⟩
    obtain ⟨left, listed⟩ := readReturnCodes_iff.mpr known
    exact ⟨left, (run_bind_ok (stands.reads raw)).trans (run_bind_ok listed)⟩

theorem SubAck.read_iff {p : SubAck}
    (moved : (advance header.fixedHeaderLen : Parser Unit) frame = .ok ((), body)) :
    (∃ rest, SubAck.read header version frame = .ok (p, rest)) ↔ SubAckBody version body p := by
  constructor
  · rintro ⟨rest, read⟩
    replace read := (run_bind_ok moved).symm.trans read
    obtain ⟨id, left, first, read₁⟩ := run_bind_inv read
    obtain rfl := readU16_inv first
    cases version with
    | V4 =>
      obtain ⟨codes, behind, listed, last⟩ := run_bind_inv read₁
      cases last
      exact .v4 id (readReturnCodes_iff.mp ⟨_, listed⟩)
    | V5 =>
      change (SubAckProperties.read >>= fun properties => do
        return V5ReadMode id.toNat properties (← readReturnCodes reasonForV5)) left = _ at read₁
      rw [SubAckProperties.read_eq] at read₁
      obtain ⟨block, raw, properties, codes, stands, known, rfl, rfl⟩ :=
        codesBehind_iff.mp ⟨_, read₁⟩
      exact .v5 id stands known
  · intro form
    cases form with
    | v4 id known =>
      obtain ⟨left, listed⟩ := readReturnCodes_iff.mpr known
      refine ⟨left, (run_bind_ok moved).trans ?_⟩
      exact (run_bind_ok (readU16_reads id _)).trans (run_bind_ok listed)
    | v5 id stands known =>
      obtain ⟨left, read⟩ := codesBehind_iff.mpr
        ⟨_, _, _, _, stands, known, rfl, (rfl : SubAck.V5ReadMode id.toNat _ _ = _)⟩
      rw [← SubAckProperties.read_eq] at read
      exact ⟨left, (run_bind_ok moved).trans ((run_bind_ok (readU16_reads id _)).trans read)⟩

theorem UnsubAck.read_iff {p : UnsubAck}
    (moved : (advance header.fixedHeaderLen : Parser Unit) frame = .ok ((), body)) :
    (∃ rest, UnsubAck.read header version frame = .ok (p, rest)) ↔
      UnsubAckBody version body p := by
  constructor
  · rintro ⟨rest, read⟩
    replace read := (run_bind_ok moved).symm.trans read
    obtain ⟨id, left, first, read₁⟩ := run_bind_inv read
    obtain rfl := readU16_inv first
    cases version with
    | V4 =>
      cases read₁
      exact .v4 id rest
    | V5 =>
      change (UnsubAckProperties.read >>= fun properties => do
        return V5ReadMode id.toNat properties (← readReturnCodes reasonForV5)) left = _ at read₁
      rw [UnsubAckProperties.read_eq] at read₁
      obtain ⟨block, raw, properties, codes, stands, known, rfl, rfl⟩ :=
        codesBehind_iff.mp ⟨_, read₁⟩
      exact .v5 id stands known
  · intro form
    cases form with
    | v4 id junk =>
      exact ⟨junk, (run_bind_ok moved).trans (run_bind_ok (readU16_reads id junk))⟩
    | v5 id stands known =>
      obtain ⟨left, read⟩ := codesBehind_iff.mpr
        ⟨_, _, _, _, stands, known, rfl, (rfl : UnsubAck.V5ReadMode id.toNat _ _ = _)⟩
      rw [← UnsubAckProperties.read_eq] at read
      exact ⟨left, (run_bind_ok moved).trans ((run_bind_ok (readU16_reads id _)).trans read)⟩

theorem Disconnect.read_iff {p : Disconnect}
    (moved : (advance header.fixedHeaderLen : Parser Unit) frame = .ok ((), body))
    (announced : header.remainingLen = body.length) (type : header.byte1 >>> 4 = 14) :
    (∃ rest, Disconnect.read header .V5 frame = .ok (p, rest)) ↔
      header.byte1 &&& 0b00001111 = 0 ∧ DisconnectBody body p := by
  have number : ¬header.byte1 >>> 4 ≠ PacketType.toU8 .Disconnect := not_not.mpr type
  have opened : Disconnect.read header .V5 frame = _ := run_bind_ok moved
  rw [if_neg number] at opened
  rw [opened]
  constructor
  · rintro ⟨rest, read⟩
    split at read
    · cases read
    · rename_i plain
      refine ⟨not_not.mp plain, ?_⟩
      change (if _ then _ else _ : Parser Disconnect) body = _ at read
      split at read
      · cases read
        obtain rfl := List.eq_nil_of_length_eq_zero (show body.length = 0 by omega)
        exact .short
      · obtain ⟨raw, behind, first, read₁⟩ := run_bind_inv read
        obtain ⟨code, mid, looked, read₂⟩ := run_bind_inv read₁
        obtain ⟨known, rfl⟩ := run_lift_inv looked
        obtain ⟨properties, junk, taken, last⟩ := run_bind_inv read₂
        cases last
        obtain rfl : body = raw :: mid := readU8_inv first
        rw [DisconnectProperties.extract_eq] at taken
        obtain ⟨block, stands, rfl⟩ := readBlock_iff.mp taken
        exact .full known stands rest
  · rintro ⟨plain, form⟩
    rw [if_neg (not_not.mpr plain)]
    cases form with
    | short => exact ⟨[], congrFun (if_pos announced) []⟩
    | full known stands junk =>
      have some : header.remainingLen ≠ 0 := by
        rw [announced]
        exact Nat.succ_ne_zero _
      refine ⟨junk, (congrFun (if_neg some) _).trans ?_⟩
      refine (run_bind_ok (readU8_reads _ _)).trans ?_
      refine (run_bind_ok (Reads.lift known _)).trans ?_
      rw [DisconnectProperties.extract_eq]
      exact run_bind_ok (stands.reads junk)

end Bodies

/-! ## Frames -/

section Whole

variable {header : FixedHeader} {version : Protocol} {frame body : Bytes} {packet : Packet}

theorem packetType_of_number {type : PacketType} (number : header.byte1 >>> 4 = PacketType.toU8 type) :
    header.packetType = .ok type := by
  simp only [FixedHeader.packetType, number]
  cases type <;> rfl

theorem wrapped_iff {α : Type} {reader : Parser α} {wrap : α → Packet} {stream : Bytes} :
    (∃ rest, (reader >>= fun p => pure (wrap p) : Parser Packet) stream = .ok (packet, rest)) ↔
      ∃ p, (∃ rest, reader stream = .ok (p, rest)) ∧ packet = wrap p := by
  constructor
  · rintro ⟨rest, read⟩
    obtain ⟨p, mid, first, last⟩ := run_bind_inv read
    cases last
    exact ⟨p, ⟨_, first⟩, rfl⟩
  · rintro ⟨p, ⟨rest, read⟩, rfl⟩
    exact ⟨rest, run_bind_ok read⟩

theorem readPacket_iff
    (moved : (advance header.fixedHeaderLen : Parser Unit) frame = .ok ((), body))
    (announced : header.remainingLen = body.length) :
    (∃ rest, readPacket header version frame = .ok (packet, rest)) ↔
      Accepts header.byte1 version body packet := by
  constructor
  · rintro ⟨rest, read⟩
    obtain ⟨type, _, looked, read₁⟩ := run_bind_inv read
    obtain ⟨known, rfl⟩ := run_lift_inv looked
    have number := packetType_number known
    -- one case for each type; those that only a client sends are rejected
    cases type with
    | ConnAck =>
      obtain ⟨p, taken, rfl⟩ := wrapped_iff.mp ⟨_, read₁⟩
      exact .connAck number ((ConnAck.read_iff moved).mp taken)
    | Publish =>
      obtain ⟨p, taken, rfl⟩ := wrapped_iff.mp ⟨_, read₁⟩
      exact .publish number ((Publish.read_iff moved).mp taken)
    | PubAck =>
      obtain ⟨p, taken, rfl⟩ := wrapped_iff.mp ⟨_, read₁⟩
      exact .pubAck number ((PubCommon.read_iff moved announced).mp taken)
    | PubRec =>
      obtain ⟨p, taken, rfl⟩ := wrapped_iff.mp ⟨_, read₁⟩
      exact .pubRec number ((PubCommon.read_iff moved announced).mp taken)
    | PubRel =>
      obtain ⟨p, taken, rfl⟩ := wrapped_iff.mp ⟨_, read₁⟩
      exact .pubRel number ((PubCommon.read_iff moved announced).mp taken)
    | PubComp =>
      obtain ⟨p, taken, rfl⟩ := wrapped_iff.mp ⟨_, read₁⟩
      exact .pubComp number ((PubCommon.read_iff moved announced).mp taken)
    | SubAck =>
      obtain ⟨p, taken, rfl⟩ := wrapped_iff.mp ⟨_, read₁⟩
      exact .subAck number ((SubAck.read_iff moved).mp taken)
    | UnsubAck =>
      obtain ⟨p, taken, rfl⟩ := wrapped_iff.mp ⟨_, read₁⟩
      exact .unsubAck number ((UnsubAck.read_iff moved).mp taken)
    | PingResp =>
      cases read₁
      exact .pingResp body number
    | Disconnect =>
      cases version with
      | V4 => cases read₁
      | V5 =>
        obtain ⟨p, taken, rfl⟩ := wrapped_iff.mp ⟨_, read₁⟩
        obtain ⟨plain, form⟩ := (Disconnect.read_iff moved announced number).mp taken
        exact .disconnect number plain form
    | Connect => cases read₁
    | Subscribe => cases read₁
    | Unsubscribe => cases read₁
    | PingReq => cases read₁
  · intro accepts
    have opens (type : PacketType) (number : header.byte1 >>> 4 = PacketType.toU8 type)
        {next : PacketType → Parser Packet}
        (read : ∃ rest, next type frame = .ok (packet, rest)) :
        ∃ rest, (liftM header.packetType >>= next) frame = .ok (packet, rest) := by
      obtain ⟨rest, read⟩ := read
      exact ⟨rest, (run_bind_ok (Reads.lift (packetType_of_number number) frame)).trans read⟩
    cases accepts with
    | connAck number form =>
      exact opens .ConnAck number (wrapped_iff.mpr ⟨_, (ConnAck.read_iff moved).mpr form, rfl⟩)
    | publish number form =>
      exact opens .Publish number (wrapped_iff.mpr ⟨_, (Publish.read_iff moved).mpr form, rfl⟩)
    | pubAck number form =>
      exact opens .PubAck number
        (wrapped_iff.mpr ⟨_, (PubCommon.read_iff moved announced).mpr form, rfl⟩)
    | pubRec number form =>
      exact opens .PubRec number
        (wrapped_iff.mpr ⟨_, (PubCommon.read_iff moved announced).mpr form, rfl⟩)
    | pubRel number form =>
      exact opens .PubRel number
        (wrapped_iff.mpr ⟨_, (PubCommon.read_iff moved announced).mpr form, rfl⟩)
    | pubComp number form =>
      exact opens .PubComp number
        (wrapped_iff.mpr ⟨_, (PubCommon.read_iff moved announced).mpr form, rfl⟩)
    | subAck number form =>
      exact opens .SubAck number (wrapped_iff.mpr ⟨_, (SubAck.read_iff moved).mpr form, rfl⟩)
    | unsubAck number form =>
      exact opens .UnsubAck number
        (wrapped_iff.mpr ⟨_, (UnsubAck.read_iff moved).mpr form, rfl⟩)
    | pingResp _ number => exact opens .PingResp number ⟨frame, rfl⟩
    | disconnect number plain form =>
      exact opens .Disconnect number (wrapped_iff.mpr
        ⟨_, (Disconnect.read_iff moved announced number).mpr ⟨plain, form⟩, rfl⟩)

/-- A frame is a first byte, the length of a body in any of its encodings, and the body. -/
theorem isFrame_iff :
    IsFrame frame header ↔ ∃ byte1 size body, frame = byte1 :: (size ++ body) ∧
      length size = .ok (size.length, body.length) ∧
      header = headerOf byte1 (size.length, body.length) := by
  constructor
  · intro isFrame
    have two := isFrame.two_le
    obtain ⟨parsed, exact_length⟩ := isFrame
    match frame, two with
    | byte1 :: byte2 :: stream, _ =>
      rw [parseFixedHeaderBySlice_cons] at parsed
      cases measured : length (byte2 :: stream) with
      | error failure =>
        rw [measured] at parsed
        cases parsed
      | ok result =>
        rw [measured] at parsed
        cases parsed
        obtain ⟨size, count, read, parts⟩ := length_split measured
        have announced : ((byte2 :: stream).drop result.1).length = result.2 := by
          change (byte2 :: stream).length + 1 = result.1 + 1 + result.2 at exact_length
          rw [List.length_drop]
          omega
        refine ⟨byte1, size, (byte2 :: stream).drop result.1, congrArg _ parts, ?_, ?_⟩
        · rw [read, count, announced]
        · rw [count, announced]
  · rintro ⟨byte1, size, body, rfl, measured, rfl⟩
    have whole := length_encoded_of measured body
    have some : size ≠ [] := by
      rintro rfl
      exact absurd (length_bounds measured).1 (Nat.not_succ_le_zero 0)
    obtain ⟨byte2, others, rfl⟩ := List.exists_cons_of_ne_nil some
    constructor
    · rw [List.cons_append, parseFixedHeaderBySlice_cons, ← List.cons_append, whole]
      rfl
    · change (byte2 :: others ++ body).length + 1 = (byte2 :: others).length + 1 + body.length
      rw [List.length_append]
      omega

/-- A frame is read as a packet exactly if its body has the form of that packet. -/
theorem decodeFrame_iff {byte1 : UInt8} {size : Bytes} :
    decodeFrame version (headerOf byte1 (size.length, body.length)) (byte1 :: (size ++ body)) =
      .ok packet ↔ Accepts byte1 version body packet := by
  have moved : (advance (headerOf byte1 (size.length, body.length)).fixedHeaderLen : Parser Unit)
      (byte1 :: (size ++ body)) = .ok ((), body) := by
    rw [headerOf, advance, if_pos (by simp), List.drop_succ_cons, List.drop_left]
  refine Iff.trans ⟨read_of_decoded, ?_⟩ (readPacket_iff moved rfl)
  rintro ⟨rest, read⟩
  rw [decodeFrame, read]
  rfl

end Whole

/-- On every buffer: the reader returns a packet exactly if the buffer begins with a
first byte, a length in any of its encodings and a body of that length with the form
of this packet, and it leaves what stands behind. -/
theorem reads_grammar (version : Protocol) (stream left : Bytes) (packet : Packet) :
    readFromNetwork stream version = (.ok (some packet), left) ↔
      ∃ byte1 size body, stream = byte1 :: (size ++ body) ++ left ∧
        length size = .ok (size.length, body.length) ∧ Accepts byte1 version body packet := by
  constructor
  · intro returned
    obtain ⟨header, parsed, whole, decoded, rfl⟩ := frame_of_returned returned
    obtain ⟨byte1, size, body, parts, measured, rfl⟩ :=
      isFrame_iff.mp (isFrame_take parsed whole)
    rw [parts] at decoded
    refine ⟨byte1, size, body, ?_, measured, decodeFrame_iff.mp decoded⟩
    rw [← parts, List.take_append_drop]
  · rintro ⟨byte1, size, body, rfl, measured, accepts⟩
    have frame := isFrame_iff.mpr ⟨byte1, size, body, rfl, measured, rfl⟩
    rw [frame.read_append, decodeFrame_iff.mpr accepts]
    rfl

end Codec
