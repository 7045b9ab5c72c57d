import ForMqttClient.FieldRoundTrips
import ForMqttClient.Frames
import ForMqttClient.SubscribeWriters

/-!
# SUBSCRIBE and UNSUBSCRIBE read back

There is no reader for these packets in the crate. `readRequest` reads one as a
broker does, with the crate's own field readers. It finds what the builder was
given, and the option byte of a filter tells its settings apart.
-/

namespace Codec

open MqttData ByteReader

/-! ## A broker's reader -/

def userPropertyTurn (prop : UInt8) (pairs : List (String × String)) (cursor : Nat) :
    Parser (List (String × String) × Nat) := do
  match ← property prop with
  | .UserProperty => takeUserProperty (fun pair => pairs ++ [pair]) cursor
  | _ => reject (.InvalidPropertyType prop)

def readUserProperties : Protocol → Parser (List (String × String))
  | .V4 => pure []
  | .V5 => do return (← readProperties userPropertyTurn []).getD []

/-- The path of a filter and its option byte. -/
def readFilter : Parser (String × UInt8) := do
  let path ← readMqttString
  return (path, ← readU8)

/-- A request without its fixed header. -/
structure Request (Filter : Type) where
  packetId : PacketId
  userProperties : List (String × String)
  filters : List Filter

def readBody {Filter : Type} (protocol : Protocol) (item : Parser Filter) :
    Parser (Request Filter) := do
  let packetId ← readU16
  let userProperties ← readUserProperties protocol
  let filters ← readAll item
  return { packetId := packetId.toNat, userProperties := userProperties, filters := filters }

def readRequest {Filter : Type} (header : FixedHeader) (protocol : Protocol)
    (item : Parser Filter) : Parser (Request Filter) := do
  advance header.fixedHeaderLen
  readBody protocol item

/-! ## The body of a request -/

/-- The bytes of user properties, without the length in front of them. -/
def userPropertyBytes (pairs : List (String × String)) : Bytes :=
  pairs.flatMap (propertyBytes .UserProperty writeUserProperty)

theorem writeUserProperties_eq (buffer : Bytes) (pairs : List (String × String)) :
    writeUserProperties buffer pairs = buffer ++ userPropertyBytes pairs :=
  foldl_putProperty_eq writeUserProperty_eq pairs buffer

/-- The user properties that a version has room for. -/
def sentProperties (pairs : List (String × String)) : Protocol → List (String × String)
  | .V4 => []
  | .V5 => pairs

/-- The property block of a version, with its length. -/
def propertyBlock (pairs : List (String × String)) : Protocol → Bytes
  | .V4 => []
  | .V5 => encodedLength (userPropertyBytes pairs).length ++ userPropertyBytes pairs

/-- What stands behind the fixed header. -/
def requestBody (protocol : Protocol) (packetId : PacketId) (pairs : List (String × String))
    (filters : Bytes) : Bytes :=
  putU16 [] (.ofNat packetId) ++ (propertyBlock pairs protocol ++ filters)

/-- A packet with its fixed header. -/
def framed (byte1 : UInt8) (body : Bytes) : Bytes :=
  byte1 :: (encodedLength body.length ++ body)

/-- What a property block takes. -/
def propertyBlockLen (pairs : List (String × String)) : Protocol → Nat
  | .V4 => 0
  | .V5 => lenLen (pairs.map userPropertyLen).sum + (pairs.map userPropertyLen).sum

/-- The user properties of a version that has any are short enough for their
length fields. -/
def PropertiesFit (pairs : List (String × String)) (protocol : Protocol) : Prop :=
  ∀ pair ∈ sentProperties pairs protocol, Fits (asBytes pair.1) ∧ Fits (asBytes pair.2)

section Body

variable {pairs : List (String × String)} {packetId : PacketId}

theorem propertyBlock_length (pairs : List (String × String)) (protocol : Protocol)
    (small : propertyBlockLen pairs protocol ≤ maxLength) :
    (propertyBlock pairs protocol).length = propertyBlockLen pairs protocol := by
  cases protocol with
  | V4 => rfl
  | V5 =>
    have size := userProperties_length pairs
    simp only [propertyBlockLen] at small
    rw [propertyBlock, userPropertyBytes, List.length_append, size,
      encodedLength_length (by omega)]
    rfl

theorem writeV4_eq (byte1 : UInt8) (filters buffer : Bytes) :
    writeV4 byte1 packetId filters buffer =
      (buffer ++ framed byte1 (requestBody .V4 packetId pairs filters),
        (framed byte1 (requestBody .V4 packetId pairs filters)).length) := by
  have size : (requestBody .V4 packetId pairs filters).length = filters.length + 2 := by
    simp only [requestBody, propertyBlock, putU16, List.length_append, List.length_cons,
      List.length_nil]
    omega
  have length : (framed byte1 (requestBody .V4 packetId pairs filters)).length =
      1 + (encodedLength (filters.length + 2)).length + (filters.length + 2) := by
    rw [framed, List.length_cons, List.length_append, size]
    omega
  rw [length, framed, size]
  simp only [writeV4, writeRemainingLength_eq, putU16_eq (_ ++ _), putU8, requestBody,
    propertyBlock, List.append_assoc, List.cons_append, List.nil_append]

theorem writeV5_eq (byte1 : UInt8) (filters buffer : Bytes)
    (small : (userPropertyBytes pairs).length ≤ maxLength) :
    writeV5 byte1 packetId (userPropertyBytes pairs) filters buffer =
      (buffer ++ framed byte1 (requestBody .V5 packetId pairs filters),
        (framed byte1 (requestBody .V5 packetId pairs filters)).length) := by
  have size : (requestBody .V5 packetId pairs filters).length =
      2 + lenLen (userPropertyBytes pairs).length + (userPropertyBytes pairs).length +
        filters.length := by
    simp only [requestBody, propertyBlock, putU16, List.length_append, List.length_cons,
      List.length_nil, encodedLength_length small]
    omega
  -- an empty block is left out, which changes nothing
  have block (front : Bytes) :
      (if (userPropertyBytes pairs).length > 0 then front ++ userPropertyBytes pairs else front) =
        front ++ userPropertyBytes pairs := by
    split
    · rfl
    · have empty := List.eq_nil_of_length_eq_zero (Nat.eq_zero_of_not_pos ‹_›)
      rw [empty, List.append_nil]
  have length : (framed byte1 (requestBody .V5 packetId pairs filters)).length =
      1 + (requestBody .V5 packetId pairs filters).length +
        (encodedLength (requestBody .V5 packetId pairs filters).length).length := by
    rw [framed, List.length_cons, List.length_append]
    omega
  rw [length, framed, size]
  simp only [writeV5, writeRemainingLength_eq, block]
  simp only [putU16_eq (_ ++ _), putU8, requestBody, propertyBlock, List.append_assoc,
    List.cons_append, List.nil_append]

theorem userProperties_read (fit : PropertiesFit pairs .V5)
    (small : (userPropertyBytes pairs).length ≤ maxLength) :
    Reads (readProperties userPropertyTurn [])
      (encodedLength (userPropertyBytes pairs).length ++ userPropertyBytes pairs)
      (if pairs = [] then none else some pairs) := by
  have counts : Counts (propertyTurn userPropertyTurn) (userPropertyBytes pairs).length []
      (userPropertyBytes pairs) pairs := by
    refine counts_repeated (fun pairs => pairs) small [] ?_
    intro before pair member cursor inside
    have fits := fit pair member
    exact lookup_reads (takeUserProperty_takes _ fits.1 fits.2 cursor inside)
  refine readProperties_reads rfl small ?_ counts
  rw [userPropertyBytes, userProperties_length]
  constructor
  · exact sum_map_eq_zero userPropertyLen_pos
  · rintro rfl
    rfl

theorem readUserProperties_reads {protocol : Protocol} (fit : PropertiesFit pairs protocol)
    (small : propertyBlockLen pairs protocol ≤ maxLength) :
    Reads (readUserProperties protocol) (propertyBlock pairs protocol)
      (sentProperties pairs protocol) := by
  cases protocol with
  | V4 => exact .pure []
  | V5 =>
    have size := userProperties_length pairs
    simp only [propertyBlockLen] at small
    have read := userProperties_read fit (by rw [userPropertyBytes, size]; omega)
    have given := read.map fun pairs => pairs.getD []
    by_cases empty : pairs = []
    · subst empty
      exact given
    · rw [if_neg empty] at given
      exact given

/-- A request is read back as soon as its filters are. -/
theorem readRequest_body {protocol : Protocol} {α β : Type} {item : Parser β} {put : α → Bytes}
    {result : α → β} {filters : List α} (byte1 : UInt8) (small : packetId < 65536)
    (fit : PropertiesFit pairs protocol)
    (room : 2 + propertyBlockLen pairs protocol + (filters.flatMap put).length ≤ maxLength)
    (some : ∀ filter, put filter ≠ [])
    (reads : ∀ filter ∈ filters, Reads item (put filter) (result filter)) :
    ∃ header,
      IsFrame (framed byte1 (requestBody protocol packetId pairs (filters.flatMap put))) header ∧
      readRequest header protocol item
          (framed byte1 (requestBody protocol packetId pairs (filters.flatMap put))) =
        .ok (⟨packetId, sentProperties pairs protocol, filters.map result⟩, []) := by
  have block := propertyBlock_length pairs protocol (by omega)
  have size : (requestBody protocol packetId pairs (filters.flatMap put)).length =
      2 + propertyBlockLen pairs protocol + (filters.flatMap put).length := by
    simp only [requestBody, putU16, List.length_append, List.length_cons, List.length_nil,
      block]
    omega
  have limit := size ▸ room
  have id : (UInt16.ofNat packetId).toNat = packetId := by
    rw [UInt16.toNat_ofNat']
    exact Nat.mod_eq_of_lt small
  have properties := readUserProperties_reads fit (by omega) (filters.flatMap put)
  refine ⟨_, isFrame_encoded byte1 limit, ?_⟩
  refine (run_bind_ok (advance_header byte1 limit _)).trans ?_
  refine (run_bind_ok (readU16_reads (.ofNat packetId) _)).trans ?_
  refine (run_bind_ok properties).trans ?_
  refine (run_bind_ok (readAll_reads some reads)).trans ?_
  rw [id]
  rfl

end Body

/-! ## Filters -/

/-- The settings of a filter, as they stand in its option byte. -/
def readOptions (byte : UInt8) : Option (QoS × Bool × Bool × RetainForwardRule) :=
  match qos (byte &&& 0b11), ((byte >>> 4) &&& 0b11).toNat with
  | .ok qos, 0 => some (qos, byte &&& 0b100 ≠ 0, byte &&& 0b1000 ≠ 0, .OnEverySubscribe)
  | .ok qos, 1 => some (qos, byte &&& 0b100 ≠ 0, byte &&& 0b1000 ≠ 0, .OnNewSubscribe)
  | .ok qos, 2 => some (qos, byte &&& 0b100 ≠ 0, byte &&& 0b1000 ≠ 0, .Never)
  | _, _ => none

/-- The settings of a filter that its version has. -/
def FilterBuilder.settings {protocol : Protocol} (filter : FilterBuilder protocol) :
    QoS × Bool × Bool × RetainForwardRule :=
  match protocol with
  | .V4 => (filter.qos, false, false, .OnEverySubscribe)
  | .V5 => (filter.qos, filter.noLocal, filter.preserveRetain, filter.retainForwardRule)

/-- The path does not reach the option byte. -/
theorem FilterBuilder.readOptions_v5 (qos : QoS) (noLocal preserveRetain : Bool)
    (rule : RetainForwardRule) :
    readOptions (⟨"", qos, noLocal, preserveRetain, rule⟩ : FilterBuilder .V5).options =
      some (qos, noLocal, preserveRetain, rule) := by
  cases qos <;> cases noLocal <;> cases preserveRetain <;> cases rule <;> decide +kernel

theorem FilterBuilder.readOptions_options {protocol : Protocol}
    (filter : FilterBuilder protocol) : readOptions filter.options = some filter.settings := by
  cases protocol with
  | V4 =>
    dsimp only [options, settings]
    cases filter.qos <;> decide +kernel
  | V5 =>
    exact readOptions_v5 filter.qos filter.noLocal filter.preserveRetain filter.retainForwardRule

/-- Filters with the same option byte have the same settings. -/
theorem FilterBuilder.settings_of_options {protocol : Protocol}
    {filter other : FilterBuilder protocol} (same : filter.options = other.options) :
    filter.settings = other.settings := by
  have read := filter.readOptions_options
  rw [same, other.readOptions_options] at read
  injection read with read
  exact read.symm

/-- The bytes of one filter of a SUBSCRIBE. -/
def FilterBuilder.bytes {protocol : Protocol} (filter : FilterBuilder protocol) : Bytes :=
  writeMqttString [] filter.path ++ [filter.options]

theorem FilterBuilder.bytes_read {protocol : Protocol} {filter : FilterBuilder protocol}
    (fits : Fits (asBytes filter.path)) :
    Reads readFilter filter.bytes (filter.path, filter.options) :=
  (readMqttString_reads fits).bind ((readU8_reads filter.options).map fun options =>
    (filter.path, options))

theorem foldl_writeFilter {protocol : Protocol} (filters : List (FilterBuilder protocol)) :
    filters.foldl SubscribeBuilder.writeFilter [] = filters.flatMap FilterBuilder.bytes := by
  have appends :
      Appends (SubscribeBuilder.writeFilter : Bytes → FilterBuilder protocol → Bytes) := by
    intro buffer filter
    rw [SubscribeBuilder.writeFilter, writeMqttString_eq, putU8, List.append_assoc]
    rfl
  rw [foldl_eq appends, List.nil_append]
  rfl

/-- The bytes of one filter of an UNSUBSCRIBE. -/
def UnsubscribeFilterBuilder.bytes {protocol : Protocol}
    (filter : UnsubscribeFilterBuilder protocol) : Bytes :=
  writeMqttString [] filter.path

theorem UnsubscribeFilterBuilder.bytes_read {protocol : Protocol}
    {filter : UnsubscribeFilterBuilder protocol} (fits : Fits (asBytes filter.path)) :
    Reads readMqttString filter.bytes filter.path :=
  readMqttString_reads fits

theorem foldl_writeFilter_unsubscribe {protocol : Protocol}
    (filters : List (UnsubscribeFilterBuilder protocol)) :
    filters.foldl UnsubscribeBuilder.writeFilter [] =
      filters.flatMap UnsubscribeFilterBuilder.bytes := by
  have appends :
      Appends (UnsubscribeBuilder.writeFilter : Bytes → UnsubscribeFilterBuilder protocol → Bytes) :=
    fun buffer filter => writeMqttString_eq buffer filter.path
  rw [foldl_eq appends, List.nil_append]
  rfl

theorem writeMqttString_ne_nil (s : String) (rest : Bytes) : writeMqttString [] s ++ rest ≠ [] := by
  have size := writeMqttString_length s
  intro empty
  have nothing := congrArg List.length empty
  rw [List.length_append, List.length_nil] at nothing
  omega

/-! ## The round trip -/

/-- `write` appends as many bytes as it returns, its header announces them, and
a broker reads the request off them. -/
structure ReadBack {Filter : Type} (write : Bytes → Bytes × Nat) (protocol : Protocol)
    (item : Parser Filter) (request : Request Filter) : Prop where
  counted : ∀ buffer, write buffer = (buffer ++ (write []).1, (write []).1.length)
  read : ∃ header, IsFrame (write []).1 header ∧
    readRequest header protocol item (write []).1 = .ok (request, [])

theorem readBack_of_framed {α Filter : Type} {write : Bytes → Bytes × Nat} {protocol : Protocol}
    {item : Parser Filter} {pairs : List (String × String)} {packetId : PacketId}
    {put : α → Bytes} {result : α → Filter} {filters : List α} {byte1 : UInt8}
    (written : ∀ buffer, write buffer =
      (buffer ++ framed byte1 (requestBody protocol packetId pairs (filters.flatMap put)),
        (framed byte1 (requestBody protocol packetId pairs (filters.flatMap put))).length))
    (small : packetId < 65536) (fit : PropertiesFit pairs protocol)
    (room : 2 + propertyBlockLen pairs protocol + (filters.flatMap put).length ≤ maxLength)
    (some : ∀ filter, put filter ≠ [])
    (reads : ∀ filter ∈ filters, Reads item (put filter) (result filter)) :
    ReadBack write protocol item
      ⟨packetId, sentProperties pairs protocol, filters.map result⟩ := by
  have bytes : (write []).1 =
      framed byte1 (requestBody protocol packetId pairs (filters.flatMap put)) := by
    rw [written, List.nil_append]
  refine ⟨fun buffer => ?_, ?_⟩
  · rw [bytes]
    exact written buffer
  · rw [bytes]
    exact readRequest_body byte1 small fit room some reads

namespace SubscribeBuilder

variable {protocol : Protocol} {builder : SubscribeBuilder protocol} {packetId : PacketId}

/-- What the length fields have room for. -/
structure Encodable (builder : SubscribeBuilder protocol) : Prop where
  no_id : builder.id = none
  paths : ∀ filter ∈ builder.filters, Fits (asBytes filter.path)
  user_properties : PropertiesFit builder.userProperties protocol
  room : 2 + propertyBlockLen builder.userProperties protocol +
    (builder.filters.map fun filter => 2 + strLen filter.path + 1).sum ≤ maxLength

/-- What is asked for, as it should arrive. -/
def request (builder : SubscribeBuilder protocol) (packetId : PacketId) :
    Request (String × UInt8) where
  packetId := packetId
  userProperties := sentProperties builder.userProperties protocol
  filters := builder.filters.map fun filter => (filter.path, filter.options)

theorem write_eq (encodable : builder.Encodable) (packetId : PacketId) (buffer : Bytes) :
    Subscribe.write (builder.into.subscribe.setPacketId packetId) buffer =
      (buffer ++ framed 0x82 (requestBody protocol packetId builder.userProperties
          (builder.filters.flatMap FilterBuilder.bytes)),
        (framed 0x82 (requestBody protocol packetId builder.userProperties
          (builder.filters.flatMap FilterBuilder.bytes))).length) := by
  have room := encodable.room
  cases protocol with
  | V4 =>
    change writeV4 0x82 packetId (builder.filters.foldl writeFilter []) buffer = _
    rw [foldl_writeFilter]
    exact writeV4_eq _ _ _
  | V5 =>
    have properties : writeProperties builder.id builder.userProperties =
        userPropertyBytes builder.userProperties := by
      rw [encodable.no_id, writeProperties, writeUserProperties_eq]
      rfl
    have size := userProperties_length builder.userProperties
    simp only [propertyBlockLen] at room
    change writeV5 0x82 packetId (writeProperties builder.id builder.userProperties)
      (builder.filters.foldl writeFilter []) buffer = _
    rw [foldl_writeFilter, properties]
    exact writeV5_eq _ _ _ (by rw [userPropertyBytes, size]; omega)

theorem read_back (encodable : builder.Encodable) (small : packetId < 65536) :
    ReadBack (Subscribe.write (builder.into.subscribe.setPacketId packetId)) protocol readFilter
      (builder.request packetId) := by
  have size : (builder.filters.flatMap FilterBuilder.bytes).length =
      (builder.filters.map fun filter => 2 + strLen filter.path + 1).sum := by
    rw [List.length_flatMap]
    congr 1
    refine List.map_congr_left fun filter _ => ?_
    rw [FilterBuilder.bytes, List.length_append, writeMqttString_length]
    rfl
  have room := encodable.room
  rw [← size] at room
  exact readBack_of_framed (write_eq encodable packetId) small encodable.user_properties room
    (fun filter => writeMqttString_ne_nil filter.path _)
    fun filter member => FilterBuilder.bytes_read (encodable.paths filter member)

end SubscribeBuilder

namespace UnsubscribeBuilder

variable {protocol : Protocol} {builder : UnsubscribeBuilder protocol} {packetId : PacketId}

/-- What the length fields have room for. -/
structure Encodable (builder : UnsubscribeBuilder protocol) : Prop where
  paths : ∀ filter ∈ builder.filters, Fits (asBytes filter.path)
  user_properties : PropertiesFit builder.userProperties protocol
  room : 2 + propertyBlockLen builder.userProperties protocol +
    (builder.filters.map fun filter => 2 + strLen filter.path).sum ≤ maxLength

/-- What is asked for, as it should arrive. -/
def request (builder : UnsubscribeBuilder protocol) (packetId : PacketId) : Request String where
  packetId := packetId
  userProperties := sentProperties builder.userProperties protocol
  filters := builder.filters.map fun filter => filter.path

theorem write_eq (encodable : builder.Encodable) (packetId : PacketId) (buffer : Bytes) :
    Unsubscribe.write (builder.into.unsubscribe.setPacketId packetId) buffer =
      (buffer ++ framed 0xA2 (requestBody protocol packetId builder.userProperties
          (builder.filters.flatMap UnsubscribeFilterBuilder.bytes)),
        (framed 0xA2 (requestBody protocol packetId builder.userProperties
          (builder.filters.flatMap UnsubscribeFilterBuilder.bytes))).length) := by
  have room := encodable.room
  cases protocol with
  | V4 =>
    change writeV4 0xA2 packetId (builder.filters.foldl writeFilter []) buffer = _
    rw [foldl_writeFilter_unsubscribe]
    exact writeV4_eq _ _ _
  | V5 =>
    have size := userProperties_length builder.userProperties
    simp only [propertyBlockLen] at room
    change writeV5 0xA2 packetId (writeUserProperties [] builder.userProperties)
      (builder.filters.foldl writeFilter []) buffer = _
    rw [foldl_writeFilter_unsubscribe, writeUserProperties_eq]
    exact writeV5_eq _ _ _ (by rw [userPropertyBytes, size]; omega)

theorem read_back (encodable : builder.Encodable) (small : packetId < 65536) :
    ReadBack (Unsubscribe.write (builder.into.unsubscribe.setPacketId packetId)) protocol
      readMqttString (builder.request packetId) := by
  have size : (builder.filters.flatMap UnsubscribeFilterBuilder.bytes).length =
      (builder.filters.map fun filter => 2 + strLen filter.path).sum := by
    rw [List.length_flatMap]
    congr 1
    exact List.map_congr_left fun filter _ => writeMqttString_length filter.path
  have room := encodable.room
  rw [← size] at room
  refine readBack_of_framed (write_eq encodable packetId) small encodable.user_properties room
    (fun filter => ?_)
    fun filter member => UnsubscribeFilterBuilder.bytes_read (encodable.paths filter member)
  have some := writeMqttString_ne_nil filter.path []
  rwa [List.append_nil] at some

end UnsubscribeBuilder

/-- Both requests are read back as they were built, and no two settings share an
option byte. -/
theorem requests_read_back (protocol : Protocol) {packetId : PacketId}
    (small : packetId < 65536) :
    (∀ builder : SubscribeBuilder protocol, builder.Encodable →
      ReadBack (Subscribe.write (builder.into.subscribe.setPacketId packetId)) protocol readFilter
        (builder.request packetId)) ∧
    (∀ builder : UnsubscribeBuilder protocol, builder.Encodable →
      ReadBack (Unsubscribe.write (builder.into.unsubscribe.setPacketId packetId)) protocol
        readMqttString (builder.request packetId)) ∧
    ∀ filter other : FilterBuilder protocol,
      filter.options = other.options → filter.settings = other.settings :=
  ⟨fun _ encodable => SubscribeBuilder.read_back encodable small,
    fun _ encodable => UnsubscribeBuilder.read_back encodable small,
    fun _ _ => FilterBuilder.settings_of_options⟩

/-- Two filters and a user property. -/
def twoFilters : SubscribeBuilder .V5 where
  traceId := 1
  id := none
  userProperties := [("k", "v")]
  filters := [⟨"a/b", .ExactlyOnce, true, false, .Never⟩, .new .V5 "c" .AtMostOnce]

def onePath : UnsubscribeBuilder .V5 where
  traceId := 2
  userProperties := []
  filters := [⟨"a/b"⟩]

theorem two_filters_read_back :
    ReadBack (Subscribe.write (twoFilters.into.subscribe.setPacketId 9)) .V5 readFilter
        ⟨9, [("k", "v")], [("a/b", 0x26), ("c", 0)]⟩ ∧
      ReadBack (Unsubscribe.write (onePath.into.unsubscribe.setPacketId 9)) .V5 readMqttString
        ⟨9, [], ["a/b"]⟩ :=
  ⟨(requests_read_back .V5 (by decide)).1 twoFilters
      ⟨rfl, by decide +kernel, by unfold PropertiesFit; decide +kernel, by decide +kernel⟩,
    (requests_read_back .V5 (by decide)).2.1 onePath
      ⟨by decide +kernel, by unfold PropertiesFit; decide +kernel, by decide +kernel⟩⟩

end Codec
