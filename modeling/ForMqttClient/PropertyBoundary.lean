import ForMqttClient.PacketBlocks

/-!
# Where the properties end

A property reader looks at the declared length of its block between two items
only, and it counts one byte too many for a subscription identifier. So it stops
at the end of the declared length exactly if whole items fill that length and the
count stays below it up to the last of them. Behind the properties, the packets
without a payload leave what there is.
-/

namespace Codec

open MqttData ByteReader

/-- The reader of the properties takes the bytes of the declared length, all of them and
no others, and the payload of the packet is what follows them. -/
def EndsAtBoundary (packet : Packet) (block : Bytes) : Prop :=
  ∃ count total, length block = .ok (count, total) ∧ count + total ≤ block.length ∧
    readBlock packet.packetTy block = .ok ((), block.drop (count + total)) ∧
    PayloadIs packet (block.drop (count + total))

/-- The declared length is that of a list of items, the count of the reader is below it
where an item begins, and nothing follows in a packet without a payload. -/
def Tiled (type : PacketType) (block : Bytes) : Prop :=
  ∃ total items behind, Announces block total (blockBytes items ++ behind) ∧
    (blockBytes items).length = total ∧ Below total 0 items ∧
    (hasPayload type = false → behind = [])

theorem payloadIs_bare {packet : Packet} (bare : hasPayload packet.packetTy = false)
    (bytes : Bytes) : PayloadIs packet bytes ↔ bytes = [] := by
  cases packet with
  | Publish p => cases bare
  | SubAck p => cases bare
  | UnsubAck p => cases bare
  | _ => exact Iff.rfl

section Blocks

variable {α : Type} {table : Table α} {empty : α} {block rest behind : Bytes} {total : Nat}

/-- A reader that comes through items that fill the declared length stops behind them. -/
theorem stops_behind_items {found : Option α} {items : List Item}
    (read : readProperties (turnOf table) empty block = .ok (found, rest))
    (announced : Announces block total (blockBytes items ++ behind))
    (size : (blockBytes items).length = total) (below : Below total 0 items) :
    rest = behind := by
  cases filled : fill table empty items with
  | some acc =>
    have covers : Covers total items := ⟨below, size ▸ blockBytes_le_walked items⟩
    have whole := readProperties_ok_iff.mpr ⟨total, items, acc, announced, covers, filled, rfl⟩
    rw [whole] at read
    cases read
    rfl
  | none =>
    obtain ⟨good, bad, later, mid, parts, taken, missing⟩ := fill_none filled
    rw [parts] at below
    obtain ⟨inside, reached⟩ := below_append good below
    rw [Nat.zero_add] at reached
    have bytes : blockBytes items ++ behind =
        blockBytes good ++ (bad.type.toU8 :: (bad.encoding ++ (blockBytes later ++ behind))) := by
      rw [parts, blockBytes_append, blockBytes_cons, List.append_assoc, List.append_assoc]
      rfl
    rw [bytes] at announced
    rw [readProperties_rejects announced taken inside reached missing] at read
    cases read

/-- A reader that stops at the end of the declared length has filled it with items. -/
theorem items_to_boundary {found : Option α} {count : Nat} (known : length block = .ok (count, total))
    (inside : count + total ≤ block.length)
    (read : readProperties (turnOf table) empty block =
      .ok (found, block.drop (count + total))) :
    ∃ items, Announces block total (blockBytes items ++ block.drop (count + total)) ∧
      (blockBytes items).length = total ∧ Below total 0 items := by
  obtain ⟨total', items, acc, announced, covers, _⟩ := readProperties_ok_iff.mp read
  obtain ⟨count', same, parts⟩ := announced
  rw [known] at same
  cases same
  refine ⟨items, ⟨count, known, parts⟩, ?_, covers.1⟩
  have sizes := congrArg List.length parts
  rw [List.length_append, List.length_drop, List.length_drop] at sizes
  omega

end Blocks

section Packets

variable {stream left block : Bytes} {header : FixedHeader} {type : PacketType} {packet : Packet}

/-- What was read of a packet that is returned. -/
theorem CarriesBlock.returned_inv (carries : CarriesBlock stream header type block)
    (returned : readFromNetwork stream .V5 = (.ok (some packet), left)) :
    ∃ (α : Type) (table : Table α) (empty : α) (found : Option α) (rest : Bytes),
      readBlock type = readProperties (turnOf table) empty >>= (fun _ => pure ()) ∧
      readProperties (turnOf table) empty block = .ok (found, rest) ∧
      packet.packetTy = type ∧ (hasPayload type = true → PayloadIs packet rest) := by
  obtain ⟨header', parsed, _, decoded, _⟩ := frame_of_returned returned
  obtain rfl : header' = header := Except.ok.inj (carries.found parsed)
  obtain ⟨α, table, empty, finish, behind⟩ := carries.readBehind
  obtain ⟨after, result⟩ := read_of_decoded decoded
  rw [behind.packet] at result
  obtain ⟨found, rest, read, finished⟩ := run_bind_inv result
  exact ⟨α, table, empty, found, rest, behind.properties, read,
    behind.payload found rest _ after finished⟩

/-- A packet that is returned has a property block, or its frame ends in front of one. -/
theorem carriesBlock_of_returned
    (returned : readFromNetwork stream .V5 = (.ok (some packet), left)) :
    ∃ header, parseFixedHeaderBySlice stream = .ok header ∧ header.total ≤ stream.length ∧
      (Bare header packet.packetTy ∨ ∃ block, CarriesBlock stream header packet.packetTy block) := by
  obtain ⟨header, parsed, whole, decoded, _⟩ := frame_of_returned returned
  refine ⟨header, parsed, whole, ?_⟩
  obtain ⟨rest, read⟩ := read_of_decoded decoded
  rcases carriesBlock_of_past parsed whole (.inl ⟨_, read⟩) with
    ⟨type, bare, taken, read', rfl⟩ | ⟨type, block, carries⟩
  · rw [read] at read'
    cases read'
    exact .inl bare
  · obtain ⟨_, _, _, _, _, _, _, rfl, _⟩ := carries.returned_inv returned
    exact .inr ⟨block, carries⟩

/-- The properties of a packet end at the declared length exactly if items fill it. -/
theorem ends_at_boundary_iff (carries : CarriesBlock stream header type block)
    (returned : readFromNetwork stream .V5 = (.ok (some packet), left)) :
    EndsAtBoundary packet block ↔ Tiled type block := by
  obtain ⟨α, table, empty, found, rest, same, read, rfl, payload⟩ := carries.returned_inv returned
  have discarded : readBlock packet.packetTy block = .ok ((), rest) := by
    rw [same]
    exact run_bind_ok read
  constructor
  · rintro ⟨count, total, known, inside, stopped, payload_is⟩
    obtain rfl : rest = block.drop (count + total) := by
      rw [discarded] at stopped
      cases stopped
      rfl
    obtain ⟨items, announced, size, below⟩ := items_to_boundary known inside read
    refine ⟨total, items, _, announced, size, below, fun bare => ?_⟩
    exact (payloadIs_bare bare _).mp payload_is
  · rintro ⟨total, items, behind, announced, size, below, nothing⟩
    obtain rfl := stops_behind_items read announced size below
    obtain ⟨count, known, parts⟩ := announced
    have end_here : rest = block.drop (count + total) := by
      rw [← List.drop_drop, ← parts, ← size, List.drop_left]
    have inside : count + total ≤ block.length := by
      have within := (length_bounds known).2.2.1
      have sizes := congrArg List.length parts
      rw [List.length_append, List.length_drop, size] at sizes
      omega
    rw [EndsAtBoundary]
    refine ⟨count, total, known, inside, end_here ▸ discarded, end_here ▸ ?_⟩
    cases has : hasPayload packet.packetTy with
    | true => exact payload has
    | false => exact (payloadIs_bare has rest).mpr (nothing has)

/-- A SUBACK with a reason string and a user property. -/
theorem ends_at_boundary_of_suback :
    EndsAtBoundary (.SubAck (.V5ReadMode 7 (some ⟨some "ab", [("k", "v")]⟩) [.QoS1]))
        [12, 31, 0, 2, 97, 98, 38, 0, 1, 107, 0, 1, 118, 1] ↔
      Tiled .SubAck [12, 31, 0, 2, 97, 98, 38, 0, 1, 107, 0, 1, 118, 1] := by
  have carries : CarriesBlock [0x90, 16, 0, 7, 12, 31, 0, 2, 97, 98, 38, 0, 1, 107, 0, 1, 118, 1]
      { byte1 := 0x90, fixedHeaderLen := 2, remainingLen := 16 } .SubAck
      [12, 31, 0, 2, 97, 98, 38, 0, 1, 107, 0, 1, 118, 1] :=
    ⟨rfl, by decide, rfl, [0, 7], .subAck 7, rfl⟩
  have returned : readFromNetwork
      [0x90, 16, 0, 7, 12, 31, 0, 2, 97, 98, 38, 0, 1, 107, 0, 1, 118, 1] .V5 =
      (.ok (some (.SubAck (.V5ReadMode 7 (some ⟨some "ab", [("k", "v")]⟩) [.QoS1]))), []) := by
    decide +kernel
  exact ends_at_boundary_iff carries returned

/-- Three identifiers of one byte fill the declared length; the third is left in the payload. -/
theorem identifier_left_in_payload :
    ∃ header packet block,
      CarriesBlock [0x30, 10, 0, 0, 6, 11, 1, 11, 2, 11, 3, 65] header .Publish block ∧
      readFromNetwork [0x30, 10, 0, 0, 6, 11, 1, 11, 2, 11, 3, 65] .V5 =
        (.ok (some packet), []) ∧
      ¬EndsAtBoundary packet block := by
  let publish : Publish :=
    { protocol := .V5, dup := false, retain := false, qos := .AtMostOnce, topic := ""
      payload := [11, 3, 65]
      properties := some { PublishProperties.empty with subscriptionIdentifiers := [1, 2] } }
  have leads : Leads { byte1 := 0x30, fixedHeaderLen := 2, remainingLen := 10 } .Publish
      (Publish.lead "" .AtMostOnce) :=
    .publish rfl (by decide) fun _ found => by cases found
  refine ⟨{ byte1 := 0x30, fixedHeaderLen := 2, remainingLen := 10 }, .Publish publish,
    [6, 11, 1, 11, 2, 11, 3, 65], ⟨rfl, by decide, rfl, _, leads, ?_⟩, ?_, ?_⟩
  · decide +kernel
  · decide +kernel
  · rintro ⟨count, total, known, _, _, payload⟩
    cases known
    have same : ([11, 3, 65] : Bytes) = [65] := payload
    exact absurd same (by decide)

end Packets

end Codec
