import ForMqttClient.DecoderSafety
import ForMqttClient.FieldRoundTrips

/-!
# Property items

The protocol gives every property a data type. An item is a property with a value
and with bytes that encode it. Each of the property readers is described by a
table, which says for a property where its value goes, or that the packet does not
allow it. What a reader makes of a block of items follows from its table.
-/

namespace Codec

open MqttData ByteReader

/-! ## Items -/

inductive Form where
  | octet | word | longword | varint | text | data | pair
  deriving DecidableEq, Repr

namespace Form

def Value : Form → Type
  | .octet => UInt8
  | .word => UInt16
  | .longword => UInt32
  | .varint => Nat
  | .text => String
  | .data => Bytes
  | .pair => String × String

/-- The bytes are an encoding of the value. A variable byte integer has several. -/
def Encodes : (form : Form) → form.Value → Bytes → Prop
  | .octet, n, bytes => bytes = putU8 [] n
  | .word, n, bytes => bytes = putU16 [] n
  | .longword, n, bytes => bytes = putU32 [] n
  | .varint, n, bytes => length bytes = .ok (bytes.length, n)
  | .text, s, bytes => Fits (asBytes s) ∧ bytes = writeMqttString [] s
  | .data, value, bytes => Fits value ∧ bytes = writeMqttBytes [] value
  | .pair, both, bytes =>
    Fits (asBytes both.1) ∧ Fits (asBytes both.2) ∧ bytes = writeUserProperty [] both

/-- What the cursors count beyond the bytes of a value. -/
def extra : Form → Nat
  | .varint => 1
  | _ => 0

theorem extra_eq_zero {form : Form} (other : form ≠ .varint) : form.extra = 0 := by
  cases form <;> first | rfl | exact absurd rfl other

end Form

def PropertyType.form : PropertyType → Form
  | .PayloadFormatIndicator => .octet
  | .MessageExpiryInterval => .longword
  | .ContentType => .text
  | .ResponseTopic => .text
  | .CorrelationData => .data
  | .SubscriptionIdentifier => .varint
  | .SessionExpiryInterval => .longword
  | .AssignedClientIdentifier => .text
  | .ServerKeepAlive => .word
  | .AuthenticationMethod => .text
  | .AuthenticationData => .data
  | .RequestProblemInformation => .octet
  | .WillDelayInterval => .longword
  | .RequestResponseInformation => .octet
  | .ResponseInformation => .text
  | .ServerReference => .text
  | .ReasonString => .text
  | .ReceiveMaximum => .word
  | .TopicAliasMaximum => .word
  | .TopicAlias => .word
  | .MaximumQos => .octet
  | .RetainAvailable => .octet
  | .UserProperty => .pair
  | .MaximumPacketSize => .longword
  | .WildcardSubscriptionAvailable => .octet
  | .SubscriptionIdentifierAvailable => .octet
  | .SharedSubscriptionAvailable => .octet

structure Item where
  type : PropertyType
  value : type.form.Value
  encoding : Bytes
  encoded : type.form.Encodes value encoding

namespace Item

def bytes (item : Item) : Bytes := item.type.toU8 :: item.encoding

/-- How far a cursor moves over the item. -/
def walk (item : Item) : Nat := item.bytes.length + item.type.form.extra

end Item

/-- The bytes of a property block, without the length in front. -/
def blockBytes (items : List Item) : Bytes := items.flatMap Item.bytes

def walked (items : List Item) : Nat := (items.map Item.walk).sum

@[simp] theorem blockBytes_nil : blockBytes [] = [] := rfl

@[simp] theorem blockBytes_cons (item : Item) (items : List Item) :
    blockBytes (item :: items) = item.bytes ++ blockBytes items := List.flatMap_cons

@[simp] theorem blockBytes_append (items others : List Item) :
    blockBytes (items ++ others) = blockBytes items ++ blockBytes others :=
  List.flatMap_append

@[simp] theorem walked_nil : walked [] = 0 := rfl

@[simp] theorem walked_cons (item : Item) (items : List Item) :
    walked (item :: items) = item.walk + walked items := List.sum_cons

theorem Item.bytes_le_walk (item : Item) : item.bytes.length ≤ item.walk :=
  Nat.le_add_right _ _

theorem blockBytes_le_walked (items : List Item) : (blockBytes items).length ≤ walked items := by
  induction items with
  | nil => exact Nat.le_refl _
  | cons item items ih =>
    rw [blockBytes_cons, walked_cons, List.length_append]
    exact Nat.add_le_add item.bytes_le_walk ih

/-- A cursor that begins each of the items below the bound. -/
def Below (bound : Nat) : Nat → List Item → Prop
  | _, [] => True
  | cursor, item :: items => cursor < bound ∧ Below bound (cursor + item.walk) items

theorem below_of_fits {bound : Nat} (items : List Item) :
    ∀ cursor, cursor + walked items ≤ bound → Below bound cursor items := by
  induction items with
  | nil => exact fun _ _ => trivial
  | cons item items ih =>
    intro cursor fits
    have some : 0 < item.walk := Nat.lt_of_lt_of_le (Nat.zero_lt_succ _) item.bytes_le_walk
    rw [walked_cons] at fits
    exact ⟨by omega, ih _ (by omega)⟩

theorem below_append {bound : Nat} {item : Item} {later : List Item} (items : List Item) :
    ∀ {cursor}, Below bound cursor (items ++ item :: later) →
      Below bound cursor items ∧ cursor + walked items < bound := by
  induction items with
  | nil => exact fun below => ⟨trivial, below.1⟩
  | cons first items ih =>
    intro cursor below
    obtain ⟨inside, reached⟩ := ih below.2
    rw [walked_cons, ← Nat.add_assoc]
    exact ⟨⟨below.1, inside⟩, reached⟩

/-- Without subscription identifiers the cursor counts the bytes. -/
theorem walked_eq {items : List Item} (plain : ∀ item ∈ items, item.type.form ≠ .varint) :
    walked items = (blockBytes items).length := by
  induction items with
  | nil => rfl
  | cons item items ih =>
    have exact_walk : item.walk = item.bytes.length := by
      have form := plain item List.mem_cons_self
      rw [Item.walk, Form.extra_eq_zero form, Nat.add_zero]
    rw [walked_cons, blockBytes_cons, List.length_append, exact_walk,
      ih fun other member => plain other (List.mem_cons_of_mem _ member)]

/-! ## One value -/

def takeVariable {α : Type} (set : Nat → α) (cursor : Nat) : Parser (α × Nat) := do
  let (len, n) ← peekLength
  let cursor ← Reader.add cursor (← Reader.add 1 len)
  advance len
  return (set n, cursor)

def takeForm {α : Type} (form : Form) (set : form.Value → α) (cursor : Nat) :
    Parser (α × Nat) :=
  match form, set with
  | .octet, set => takeU8 set cursor
  | .word, set => takeU16 set cursor
  | .longword, set => takeU32 set cursor
  | .varint, set => takeVariable set cursor
  | .text, set => takeString set cursor
  | .data, set => takeBytes set cursor
  | .pair, set => takeUserProperty set cursor

section Forms

variable {α : Type}

theorem length_encoded_of {bytes : Bytes} {n : Nat} (read : length bytes = .ok (bytes.length, n))
    (rest : Bytes) : length (bytes ++ rest) = .ok (bytes.length, n) := by
  have whole : length bytes ≠ cutOff := by
    intro cut
    rw [read] at cut
    cases cut
  rw [length_append rest whole, read]

theorem peekLength_of {stream : Bytes} {result : Nat × Nat} (read : length stream = .ok result) :
    peekLength stream = .ok (result, stream) := by
  change (orParseError (length stream) >>= fun measured => .ok (measured, stream)) = _
  rw [read]
  rfl

theorem peekLength_inv {stream rest : Bytes} {result : Nat × Nat}
    (read : peekLength stream = .ok (result, rest)) :
    length stream = .ok result ∧ rest = stream := by
  change (orParseError (length stream) >>= fun measured => .ok (measured, stream)) = _ at read
  cases measured : length stream with
  | ok found =>
    rw [measured] at read
    cases read
    exact ⟨rfl, rfl⟩
  | error failure =>
    rw [measured] at read
    cases failure <;> cases read

theorem add_inv {a b sum : Nat} {stream rest : Bytes}
    (added : (Reader.add a b : Parser Nat) stream = .ok (sum, rest)) : rest = stream := by
  change ((ByteReader.add a b : Outcome PacketParseError Nat) >>= fun sum => .ok (sum, stream)) = _
    at added
  cases result : (ByteReader.add a b : Outcome PacketParseError Nat) with
  | error failure =>
    rw [result] at added
    cases added
  | ok found =>
    rw [result] at added
    cases added
    rfl

theorem takeVariable_takes (set : Nat → α) {bytes : Bytes} {n cursor : Nat}
    (read : length bytes = .ok (bytes.length, n)) (inside : cursor ≤ maxLength + 1) :
    Reads (takeVariable set cursor) bytes (set n, cursor + bytes.length + 1) := by
  intro rest
  have few := (length_bounds read).2.1
  simp only [maxLength] at inside
  have one : (Reader.add 1 bytes.length : Parser Nat) (bytes ++ rest) =
      .ok (1 + bytes.length, bytes ++ rest) :=
    add_reads (by simp only [usizeBits]; omega) (bytes ++ rest)
  have sum : (Reader.add cursor (1 + bytes.length) : Parser Nat) (bytes ++ rest) =
      .ok (cursor + (1 + bytes.length), bytes ++ rest) :=
    add_reads (by simp only [usizeBits]; omega) (bytes ++ rest)
  have moved : (advance bytes.length : Parser Unit) (bytes ++ rest) = .ok ((), rest) := by
    rw [advance, if_pos (by simp), List.drop_left]
  refine (run_bind_ok (peekLength_of (length_encoded_of read rest))).trans ?_
  refine (run_bind_ok one).trans ?_
  refine (run_bind_ok sum).trans ?_
  refine (run_bind_ok moved).trans ?_
  rw [Nat.add_comm 1, ← Nat.add_assoc]
  rfl

/-- A value is taken off any of its encodings. -/
theorem takeForm_takes {form : Form} (set : form.Value → α) {value : form.Value} {bytes : Bytes}
    {cursor : Nat} (encoded : form.Encodes value bytes) (inside : cursor ≤ maxLength + 1) :
    Reads (takeForm form set cursor) bytes (set value, cursor + bytes.length + form.extra) := by
  cases form with
  | octet =>
    cases encoded
    exact takeU8_takes set value cursor inside
  | word =>
    cases encoded
    exact takeU16_takes set value cursor inside
  | longword =>
    cases encoded
    exact takeU32_takes set value cursor inside
  | varint => exact takeVariable_takes set encoded inside
  | text =>
    obtain ⟨fits, rfl⟩ := encoded
    exact takeString_takes set fits cursor inside
  | data =>
    obtain ⟨fits, rfl⟩ := encoded
    exact takeBytes_takes set fits cursor inside
  | pair =>
    obtain ⟨key, val, rfl⟩ := encoded
    exact takeUserProperty_takes set key val cursor inside

/-- What a value was taken off is one of its encodings. -/
theorem takeForm_inv {form : Form} {set : form.Value → α} {cursor : Nat} {stream rest : Bytes}
    {result : α × Nat} (read : takeForm form set cursor stream = .ok (result, rest)) :
    ∃ value bytes behind, form.Encodes value bytes ∧ stream = bytes ++ behind := by
  cases form with
  | octet =>
    obtain ⟨n, mid, first, _⟩ := run_bind_inv read
    exact ⟨n, _, mid, rfl, readU8_inv first⟩
  | word =>
    obtain ⟨n, mid, first, _⟩ := run_bind_inv read
    exact ⟨n, _, mid, rfl, readU16_inv first⟩
  | longword =>
    obtain ⟨n, mid, first, _⟩ := run_bind_inv read
    exact ⟨n, _, mid, rfl, readU32_inv first⟩
  | varint =>
    obtain ⟨measured, mid, first, _⟩ := run_bind_inv read
    have read := (peekLength_inv first).1
    have within := (length_bounds read).2.2.1
    have split := List.take_append_drop measured.1 stream
    have size := List.length_take_of_le within
    rw [← split] at read
    have front := length_back read (Nat.le_of_eq size.symm)
    refine ⟨measured.2, stream.take measured.1, stream.drop measured.1, ?_, split.symm⟩
    change length (stream.take measured.1) = .ok ((stream.take measured.1).length, measured.2)
    rw [size]
    exact front
  | text =>
    obtain ⟨s, mid, first, _⟩ := run_bind_inv read
    obtain ⟨fits, parts⟩ := readMqttString_inv first
    exact ⟨s, _, mid, ⟨fits, rfl⟩, parts⟩
  | data =>
    obtain ⟨bytes, mid, first, _⟩ := run_bind_inv read
    obtain ⟨fits, parts⟩ := readMqttBytes_inv first
    exact ⟨bytes, _, mid, ⟨fits, rfl⟩, parts⟩
  | pair =>
    obtain ⟨key, between, first, read⟩ := run_bind_inv read
    obtain ⟨val, mid, second, _⟩ := run_bind_inv read
    obtain ⟨keyFits, keyParts⟩ := readMqttString_inv first
    obtain ⟨valFits, valParts⟩ := readMqttString_inv second
    refine ⟨(key, val), _, mid, ⟨keyFits, valFits, rfl⟩, ?_⟩
    rw [keyParts, valParts, writeUserProperty, writeMqttString_eq (writeMqttString [] key),
      List.append_assoc]

end Forms

/-! ## Tables -/

/-- Where a packet puts the value of a property, for the properties that it allows. -/
abbrev Table (α : Type) := (type : PropertyType) → Option (α → type.form.Value → α)

section Tables

variable {α : Type} (table : Table α)

def put (acc : α) (item : Item) : Option α :=
  (table item.type).map fun set => set acc item.value

/-- The items one after another; `none` if one of them is not allowed. -/
def fill (acc : α) (items : List Item) : Option α := items.foldlM (put table) acc

/-- The turn of a property reader with this table. -/
def turnOf (prop : UInt8) (acc : α) (cursor : Nat) : Parser (α × Nat) := do
  let type ← property prop
  match table type with
  | some set => takeForm type.form (set acc) cursor
  | none => reject (.InvalidPropertyType prop)

theorem property_inv {prop : UInt8} {type : PropertyType} (found : property prop = .ok type) :
    prop = type.toU8 := by
  unfold property at found
  split at found <;> cases found <;> exact UInt8.toNat_inj.mp ‹prop.toNat = _›

variable {table}

theorem fill_cons {acc acc' : α} {item : Item} {items : List Item} :
    fill table acc (item :: items) = some acc' ↔
      ∃ mid, put table acc item = some mid ∧ fill table mid items = some acc' :=
  Option.bind_eq_some_iff

theorem fill_append {acc : α} {items others : List Item} :
    fill table acc (items ++ others) =
      (fill table acc items).bind fun mid => fill table mid others :=
  List.foldlM_append

/-- Items that are not all allowed have a first one that is not. -/
theorem fill_none {items : List Item} :
    ∀ {acc}, fill table acc items = none → ∃ good bad later mid,
      items = good ++ bad :: later ∧ fill table acc good = some mid ∧ table bad.type = none := by
  induction items with
  | nil =>
    intro acc filled
    cases filled
  | cons item items ih =>
    intro acc filled
    cases allowed : put table acc item with
    | none => exact ⟨[], item, items, acc, rfl, rfl, Option.map_eq_none_iff.mp allowed⟩
    | some mid =>
      have later : fill table mid items = none := by
        change (put table acc item).bind (fun mid => fill table mid items) = none at filled
        rw [allowed] at filled
        exact filled
      obtain ⟨good, bad, rest, last, parts, taken, missing⟩ := ih later
      refine ⟨item :: good, bad, rest, last, ?_, fill_cons.mpr ⟨mid, allowed, taken⟩, missing⟩
      rw [parts, List.cons_append]

theorem turn_takes {acc acc' : α} {item : Item} {cursor : Nat}
    (allowed : put table acc item = some acc') (inside : cursor ≤ maxLength) :
    Reads (propertyTurn (turnOf table) acc cursor) item.bytes (acc', cursor + item.walk) := by
  obtain ⟨set, entry, rfl⟩ := Option.map_eq_some_iff.mp allowed
  have sum : cursor + 1 < 2 ^ usizeBits := by
    simp only [usizeBits, maxLength] at *
    omega
  have size : cursor + item.walk = cursor + 1 + item.encoding.length + item.type.form.extra := by
    rw [Item.walk, Item.bytes, List.length_cons]
    omega
  rw [size]
  refine (readU8_reads item.type.toU8).bind ?_
  refine (add_reads sum).bind_nil ?_
  refine lookup_reads ?_
  rw [entry]
  exact takeForm_takes (set acc) item.encoded (by omega)

theorem turn_rejects {acc : α} {type : PropertyType} {cursor : Nat} (rest : Bytes)
    (missing : table type = none) (inside : cursor ≤ maxLength) :
    propertyTurn (turnOf table) acc cursor (type.toU8 :: rest) =
      fail (.InvalidPropertyType type.toU8) := by
  have sum : cursor + 1 < 2 ^ usizeBits := by
    simp only [usizeBits, maxLength] at *
    omega
  refine (run_bind_ok (readU8_reads type.toU8 rest)).trans ?_
  refine (run_bind_ok (add_reads sum rest)).trans ?_
  refine (run_bind_ok (Reads.lift (property_toU8 type) rest)).trans ?_
  rw [missing]
  rfl

/-- What a turn has taken is an item that the table allows. -/
theorem turn_inv {acc : α} {state : α × Nat} {cursor : Nat} {stream rest : Bytes}
    (inside : cursor ≤ maxLength)
    (read : propertyTurn (turnOf table) acc cursor stream = .ok (state, rest)) :
    ∃ item, put table acc item = some state.1 ∧ state.2 = cursor + item.walk ∧
      stream = item.bytes ++ rest := by
  obtain ⟨prop, mid, first, moved⟩ := run_bind_inv read
  obtain ⟨next, behind, counted, looked⟩ := run_bind_inv moved
  obtain ⟨type, here, found, taken⟩ := run_bind_inv looked
  obtain ⟨known, same⟩ := run_lift_inv found
  obtain rfl := property_inv known
  obtain rfl : behind = mid := add_inv counted
  have start := readU8_inv first
  cases entry : table type with
  | none =>
    rw [entry] at taken
    cases taken
  | some set =>
    rw [entry] at taken
    obtain ⟨value, bytes, after, encoded, parts⟩ := takeForm_inv taken
    let item : Item := ⟨type, value, bytes, encoded⟩
    have allowed : put table acc item = some (set acc value) :=
      Option.map_eq_some_iff.mpr ⟨set, entry, rfl⟩
    rw [← same, parts] at start
    subst start
    have forward := (turn_takes allowed inside after).symm.trans read
    cases forward
    exact ⟨item, allowed, rfl, rfl⟩

/-! ## Blocks -/

/-- A loop with this bound stops behind these items, and not before. -/
def Covers (total : Nat) (items : List Item) : Prop :=
  Below total 0 items ∧ total ≤ walked items

/-- The stream begins with a length, behind which come these bytes. -/
def Announces (stream : Bytes) (total : Nat) (behind : Bytes) : Prop :=
  ∃ count, length stream = .ok (count, total) ∧ behind = stream.drop count

theorem covers_zero {items : List Item} : Covers 0 items ↔ items = [] := by
  constructor
  · rintro ⟨below, _⟩
    cases items with
    | nil => rfl
    | cons item items => exact absurd below.1 (Nat.lt_irrefl 0)
  · rintro rfl
    exact ⟨trivial, Nat.le_refl 0⟩

theorem advances_items {bound : Nat} (small : bound ≤ maxLength) (items : List Item) :
    ∀ acc cursor acc', fill table acc items = some acc' → Below bound cursor items →
      Advances (propertyTurn (turnOf table)) bound (acc, cursor) (blockBytes items)
        (acc', cursor + walked items) := by
  induction items with
  | nil =>
    intro acc cursor acc' filled _
    cases filled
    exact .refl _
  | cons item items ih =>
    intro acc cursor acc' filled below
    obtain ⟨mid, allowed, later⟩ := fill_cons.mp filled
    have here := turn_takes allowed (Nat.le_trans (Nat.le_of_lt below.1) small)
    have there := ih mid (cursor + item.walk) acc' later below.2
    rw [Nat.add_assoc, ← walked_cons] at there
    rw [blockBytes_cons]
    exact (Advances.of_turn below.1 (List.cons_ne_nil _ _) here).trans there

/-- What the turns of a loop have taken are items. -/
theorem items_of_turns {bound : Nat} {start stop : α × Nat} {stream rest : Bytes}
    (small : bound ≤ maxLength)
    (turns : Turns (propertyTurn (turnOf table)) bound start stream stop rest) :
    ∃ items, stream = blockBytes items ++ rest ∧ fill table start.1 items = some stop.1 ∧
      stop.2 = start.2 + walked items ∧ Below bound start.2 items := by
  induction turns with
  | none state stream => exact ⟨[], rfl, rfl, rfl, trivial⟩
  | one below taken later ih =>
    obtain ⟨items, parts, filled, moved, inside⟩ := ih
    obtain ⟨item, allowed, step, front⟩ :=
      turn_inv (Nat.le_trans (Nat.le_of_lt below) small) taken
    refine ⟨item :: items, ?_, fill_cons.mpr ⟨_, allowed, filled⟩, ?_, below, step ▸ inside⟩
    · rw [front, parts, blockBytes_cons, List.append_assoc]
    · rw [moved, step, walked_cons, Nat.add_assoc]

variable {empty : α} {stream rest : Bytes}

/-- Behind its length, a block is read by the loop alone. -/
theorem readProperties_of_announced {total : Nat} {behind : Bytes}
    (announced : Announces stream total behind) (some : total ≠ 0) :
    readProperties (turnOf table) empty stream =
      (whileBelow (propertyTurn (turnOf table)) total empty 0 >>= fun acc =>
        (pure (Option.some acc) : Parser (Option α))) behind := by
  obtain ⟨count, read, rfl⟩ := announced
  have within := (length_bounds read).2.2.1
  have moved : (advance count : Parser Unit) stream = .ok ((), stream.drop count) := if_pos within
  refine (run_bind_ok (peekLength_of read)).trans ?_
  refine (run_bind_ok moved).trans ?_
  rw [if_neg some]

theorem announced_small {total : Nat} {behind : Bytes} (announced : Announces stream total behind) :
    total ≤ maxLength := by
  obtain ⟨count, read, _⟩ := announced
  exact (length_bounds read).2.2.2

theorem readProperties_zero {behind : Bytes} (announced : Announces stream 0 behind) :
    readProperties (turnOf table) empty stream = .ok (none, behind) := by
  obtain ⟨count, read, rfl⟩ := announced
  have within := (length_bounds read).2.2.1
  have moved : (advance count : Parser Unit) stream = .ok ((), stream.drop count) := if_pos within
  refine (run_bind_ok (peekLength_of read)).trans ?_
  exact run_bind_ok moved

/-- A block that is read is a length and the items that cover it. -/
theorem readProperties_ok_iff {result : Option α} :
    readProperties (turnOf table) empty stream = .ok (result, rest) ↔
      ∃ total items acc, Announces stream total (blockBytes items ++ rest) ∧ Covers total items ∧
        fill table empty items = some acc ∧ result = if total = 0 then none else some acc := by
  constructor
  · intro read
    have whole := read
    obtain ⟨measured, here, peeked, _⟩ := run_bind_inv read
    obtain ⟨known, _⟩ := peekLength_inv peeked
    have announced : Announces stream measured.2 (stream.drop measured.1) := ⟨_, known, rfl⟩
    by_cases zero : measured.2 = 0
    · rw [zero] at announced
      rw [readProperties_zero announced] at whole
      cases whole
      exact ⟨0, [], empty, announced, covers_zero.mpr rfl, rfl, rfl⟩
    · rw [readProperties_of_announced announced zero] at whole
      obtain ⟨acc, behind, loop, last⟩ := run_bind_inv whole
      cases last
      obtain ⟨cursor, reached, turns⟩ := Turns.of_ok _ _ _ _ _ _ loop
      obtain ⟨items, parts, filled, moved, below⟩ :=
        items_of_turns (announced_small announced) turns
      rw [Nat.zero_add] at moved
      refine ⟨measured.2, items, acc, parts ▸ announced, ⟨below, ?_⟩, filled, (if_neg zero).symm⟩
      rw [← moved]
      exact reached
  · rintro ⟨total, items, acc, announced, covers, filled, rfl⟩
    by_cases zero : total = 0
    · subst zero
      obtain rfl := covers_zero.mp covers
      rw [if_pos rfl]
      exact readProperties_zero announced
    · rw [if_neg zero, readProperties_of_announced announced zero]
      have walk := advances_items (announced_small announced) items empty 0 acc filled covers.1
      rw [Nat.zero_add] at walk
      exact run_bind_ok (walk.whileBelow covers.2 rest)

/-- An item that the table does not allow, begun below the bound, ends the reading. -/
theorem readProperties_rejects {total : Nat} {items : List Item} {acc : α} {type : PropertyType}
    (announced : Announces stream total (blockBytes items ++ (type.toU8 :: rest)))
    (filled : fill table empty items = some acc) (below : Below total 0 items)
    (inside : walked items < total) (missing : table type = none) :
    readProperties (turnOf table) empty stream = fail (.InvalidPropertyType type.toU8) := by
  have small := announced_small announced
  have walk := advances_items small items empty 0 acc filled below
  rw [Nat.zero_add] at walk
  rw [readProperties_of_announced announced (Nat.ne_of_gt (Nat.zero_lt_of_lt inside))]
  have turned : propertyTurn (turnOf table) acc (walked items) (type.toU8 :: rest) =
      fail (.InvalidPropertyType type.toU8) := turn_rejects rest missing (by omega)
  have failed := walk.whileBelow_fails inside turned
  change (whileBelow (propertyTurn (turnOf table)) total empty 0 _ >>= fun taken => _) = _
  rw [failed]
  rfl

end Tables

/-! ## The tables of the readers -/

def PublishProperties.table : Table PublishProperties
  | .PayloadFormatIndicator => some fun p value => { p with payloadFormatIndicator := some value }
  | .MessageExpiryInterval => some fun p value => { p with messageExpiryInterval := some value }
  | .TopicAlias => some fun p value => { p with topicAlias := some value }
  | .ResponseTopic => some fun p topic => { p with responseTopic := some topic }
  | .CorrelationData => some fun p data => { p with correlationData := some data }
  | .UserProperty => some fun p (pair : String × String) =>
    { p with userProperties := p.userProperties ++ [pair] }
  | .SubscriptionIdentifier =>
    some fun p (id : Nat) =>
      { p with subscriptionIdentifiers := p.subscriptionIdentifiers ++ [id] }
  | .ContentType => some fun p typ => { p with contentType := some typ }
  | _ => none

def ConnAckProperties.table : Table ConnAckProperties
  | .SessionExpiryInterval => some fun p value => { p with sessionExpiryInterval := some value }
  | .ReceiveMaximum => some fun p value => { p with receiveMax := some value }
  | .MaximumQos => some fun p value => { p with maxQos := some value }
  | .RetainAvailable => some fun p value => { p with retainAvailable := some value }
  | .AssignedClientIdentifier => some fun p id => { p with assignedClientIdentifier := some id }
  | .MaximumPacketSize => some fun p value => { p with maxPacketSize := some value }
  | .TopicAliasMaximum => some fun p value => { p with topicAliasMax := some value }
  | .ReasonString => some fun p reason => { p with reasonString := some reason }
  | .UserProperty => some fun p (pair : String × String) =>
    { p with userProperties := p.userProperties ++ [pair] }
  | .WildcardSubscriptionAvailable =>
    some fun p value => { p with wildcardSubscriptionAvailable := some value }
  | .SubscriptionIdentifierAvailable =>
    some fun p value => { p with subscriptionIdentifiersAvailable := some value }
  | .SharedSubscriptionAvailable =>
    some fun p value => { p with sharedSubscriptionAvailable := some value }
  | .ServerKeepAlive => some fun p value => { p with serverKeepAlive := some value }
  | .ResponseInformation => some fun p info => { p with responseInformation := some info }
  | .ServerReference => some fun p reference => { p with serverReference := some reference }
  | .AuthenticationMethod => some fun p method => { p with authenticationMethod := some method }
  | .AuthenticationData => some fun p data => { p with authenticationData := some data }
  | _ => none

/-- The table of the acknowledgements, SUBACK and UNSUBACK among them. -/
def AckProperties.table : Table AckProperties
  | .ReasonString => some fun p reason => { p with reasonString := some reason }
  | .UserProperty => some fun p (pair : String × String) =>
    { p with userProperties := p.userProperties ++ [pair] }
  | _ => none

def DisconnectProperties.table : Table DisconnectProperties
  | .SessionExpiryInterval => some fun p value => { p with sessionExpiryInterval := some value }
  | .ReasonString => some fun p reason => { p with reasonString := some reason }
  | .UserProperty => some fun p (pair : String × String) =>
    { p with userProperties := p.userProperties ++ [pair] }
  | .ServerReference => some fun p reference => { p with serverReference := some reference }
  | _ => none

section Turns

variable {α : Type} {table : Table α} {turn : UInt8 → α → Nat → Parser (α × Nat)}

/-- A turn follows a table if it does so once the property is known. -/
theorem turn_eq_turnOf {next : PropertyType → UInt8 → α → Nat → Parser (α × Nat)}
    (same : ∀ prop acc cursor, turn prop acc cursor =
      liftM (property prop) >>= fun type => next type prop acc cursor)
    (each : ∀ type prop acc cursor, next type prop acc cursor =
      match table type with
      | some set => takeForm type.form (set acc) cursor
      | none => reject (.InvalidPropertyType prop)) : turn = turnOf table := by
  funext prop acc cursor
  rw [same, turnOf]
  simp only [each]

theorem PublishProperties.turn_eq : PublishProperties.turn = turnOf PublishProperties.table := by
  refine turn_eq_turnOf (fun _ _ _ => rfl) ?_
  intro type prop acc cursor
  cases type <;> rfl

theorem ConnAckProperties.turn_eq : ConnAckProperties.turn = turnOf ConnAckProperties.table := by
  refine turn_eq_turnOf (fun _ _ _ => rfl) ?_
  intro type prop acc cursor
  cases type <;> rfl

theorem AckProperties.turn_eq : AckProperties.turn = turnOf AckProperties.table := by
  refine turn_eq_turnOf (fun _ _ _ => rfl) ?_
  intro type prop acc cursor
  cases type <;> rfl

theorem DisconnectProperties.turn_eq :
    DisconnectProperties.turn = turnOf DisconnectProperties.table := by
  refine turn_eq_turnOf (fun _ _ _ => rfl) ?_
  intro type prop acc cursor
  cases type <;> rfl

/-- The acknowledgements match the numbers without `property`, to the same effect. -/
theorem PubCommon.turn_eq : PubCommon.turn = turnOf AckProperties.table := by
  funext prop acc cursor
  unfold PubCommon.turn turnOf property
  split
  · rename_i reason
    simp only [reason]
    rfl
  · rename_i user
    simp only [user]
    rfl
  · split <;> first | rfl | contradiction

end Turns

end Codec
