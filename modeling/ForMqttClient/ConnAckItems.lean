import ForMqttClient.PropertyItems
import Mathlib.Data.List.Induction

/-!
# The properties of CONNACK

What `ConnAckProperties::read` makes of a property block: of each kind the last
item counts, the user properties are kept in their order, and an item of a kind
that CONNACK does not have ends the reading with an error.
-/

namespace Codec

open MqttData ByteReader

/-! ## Items of one kind -/

namespace Item

/-- The value of the item, if it is of this kind. -/
def as (type : PropertyType) (item : Item) : Option type.form.Value :=
  if same : item.type = type then some (same ▸ item.value) else none

end Item

/-- The values of all items of a kind, in their order. -/
def allOf (type : PropertyType) (items : List Item) : List type.form.Value :=
  items.filterMap (Item.as type)

/-- The value of the last item of a kind. -/
def lastOf (type : PropertyType) (items : List Item) : Option type.form.Value :=
  (allOf type items).getLast?

theorem allOf_append (type : PropertyType) (items : List Item) (item : Item) :
    allOf type (items ++ [item]) = allOf type items ++ (item.as type).toList := by
  rw [allOf, List.filterMap_append, List.filterMap_cons]
  cases item.as type <;> rfl

theorem lastOf_append (type : PropertyType) (items : List Item) (item : Item) :
    lastOf type (items ++ [item]) = (item.as type).or (lastOf type items) := by
  rw [lastOf, allOf_append]
  cases item.as type with
  | none => rw [Option.toList_none, List.append_nil, Option.none_or, lastOf]
  | some value => rw [Option.toList_some, List.getLast?_concat, Option.some_or]

namespace ConnAckProperties

/-- The kinds that CONNACK has. -/
def kinds : List PropertyType :=
  [.SessionExpiryInterval, .ReceiveMaximum, .MaximumQos, .RetainAvailable, .MaximumPacketSize,
    .AssignedClientIdentifier, .TopicAliasMaximum, .ReasonString, .UserProperty,
    .WildcardSubscriptionAvailable, .SubscriptionIdentifierAvailable,
    .SharedSubscriptionAvailable, .ServerKeepAlive, .ResponseInformation, .ServerReference,
    .AuthenticationMethod, .AuthenticationData]

theorem mem_kinds_iff (type : PropertyType) : type ∈ kinds ↔ (table type).isSome = true := by
  cases type <;> decide

/-- The last item of each kind, and all user properties. -/
def record (items : List Item) : ConnAckProperties where
  sessionExpiryInterval := lastOf .SessionExpiryInterval items
  receiveMax := lastOf .ReceiveMaximum items
  maxQos := lastOf .MaximumQos items
  retainAvailable := lastOf .RetainAvailable items
  maxPacketSize := lastOf .MaximumPacketSize items
  assignedClientIdentifier := lastOf .AssignedClientIdentifier items
  topicAliasMax := lastOf .TopicAliasMaximum items
  reasonString := lastOf .ReasonString items
  userProperties := allOf .UserProperty items
  wildcardSubscriptionAvailable := lastOf .WildcardSubscriptionAvailable items
  subscriptionIdentifiersAvailable := lastOf .SubscriptionIdentifierAvailable items
  sharedSubscriptionAvailable := lastOf .SharedSubscriptionAvailable items
  serverKeepAlive := lastOf .ServerKeepAlive items
  responseInformation := lastOf .ResponseInformation items
  serverReference := lastOf .ServerReference items
  authenticationMethod := lastOf .AuthenticationMethod items
  authenticationData := lastOf .AuthenticationData items

theorem put_record (items : List Item) (item : Item) (known : item.type ∈ kinds) :
    put table (record items) item = some (record (items ++ [item])) := by
  have allowed := (mem_kinds_iff item.type).mp known
  obtain ⟨type, value, encoding, encoded⟩ := item
  cases type <;> first
    | (cases allowed; done)
    | (simp only [record, put, table, Option.map_some, lastOf_append, allOf_append, Item.as,
        reduceCtorEq, dite_true, dite_false, Option.none_or, Option.some_or, Option.toList_none,
        Option.toList_some, List.append_nil]
       rfl)

/-- What the reader has put together behind allowed items is their record. -/
theorem fill_record (items : List Item) (known : ∀ item ∈ items, item.type ∈ kinds) :
    fill table empty items = some (record items) := by
  induction items using List.reverseRecOn with
  | nil => rfl
  | append_singleton items item ih =>
    have before := ih fun other member => known other (List.mem_append_left _ member)
    have here := known item (List.mem_append_right _ (List.mem_singleton_self item))
    rw [fill_append, before, Option.bind_some]
    exact fill_cons.mpr ⟨_, put_record items item here, rfl⟩

theorem plain_of_kinds {type : PropertyType} (known : type ∈ kinds) : type.form ≠ .varint := by
  revert known
  cases type <;> decide

theorem announces_encoded {total : Nat} (small : total ≤ maxLength) (behind : Bytes) :
    Announces (encodedLength total ++ behind) total behind := by
  refine ⟨lenLen total, length_encoded small behind, ?_⟩
  rw [← encodedLength_length small, List.drop_left]

/-- A block of items is read as the record of the items, whatever follows it, unless
one of them is of another kind. -/
theorem read_items (items : List Item) (fits : (blockBytes items).length ≤ 268435455)
    (s : Bytes) :
    read (encodedLength (blockBytes items).length ++ (blockBytes items ++ s)) =
      match items.find? fun item => item.type ∉ kinds with
      | none => .ok (if items.isEmpty then none else some (record items), s)
      | some other => fail (.InvalidPropertyType other.type.toU8) := by
  have announced := announces_encoded fits (blockBytes items ++ s)
  rw [read, turn_eq]
  cases found : items.find? fun item => item.type ∉ kinds with
  | none =>
    have known : ∀ item ∈ items, item.type ∈ kinds := by
      simpa using List.find?_eq_none.mp found
    have size := walked_eq fun item member => plain_of_kinds (known item member)
    have covers : Covers (blockBytes items).length items :=
      ⟨below_of_fits items 0 (by omega), by omega⟩
    refine readProperties_ok_iff.mpr
      ⟨_, items, record items, announced, covers, fill_record items known, ?_⟩
    cases items with
    | nil => rfl
    | cons item items => rfl
  | some other =>
    obtain ⟨odd, before, after, parts, earlier⟩ := List.find?_eq_some_iff_append.mp found
    have known : ∀ item ∈ before, item.type ∈ kinds := by
      simpa using earlier
    have missing : table other.type = none := by
      have unknown : ¬(table other.type).isSome = true := by
        rw [← mem_kinds_iff]
        simpa using odd
      simpa using unknown
    have size := walked_eq fun item member => plain_of_kinds (known item member)
    have total : (blockBytes items).length =
        (blockBytes before).length + other.bytes.length + (blockBytes after).length := by
      rw [parts, blockBytes_append, blockBytes_cons, List.length_append, List.length_append,
        Nat.add_assoc]
    have some : 0 < other.bytes.length := Nat.zero_lt_succ _
    have there : Announces
        (encodedLength (blockBytes items).length ++ (blockBytes items ++ s))
        (blockBytes items).length
        (blockBytes before ++ (other.type.toU8 :: (other.encoding ++ (blockBytes after ++ s)))) := by
      have bytes : blockBytes items ++ s =
          blockBytes before ++ (other.bytes ++ (blockBytes after ++ s)) := by
        rw [parts, blockBytes_append, blockBytes_cons, List.append_assoc, List.append_assoc]
      rw [bytes] at announced ⊢
      exact announced
    exact readProperties_rejects there (fill_record before known)
      (below_of_fits before 0 (by omega)) (by omega) missing

/-- The later of two maxima counts, and what follows the block is left. -/
theorem read_items_of_two :
    read [6, 33, 0, 5, 33, 0, 6, 9] = .ok (some { empty with receiveMax := some 6 }, [9]) := by
  let first : Item := ⟨.ReceiveMaximum, (5 : UInt16), [0, 5], rfl⟩
  let second : Item := ⟨.ReceiveMaximum, (6 : UInt16), [0, 6], rfl⟩
  have six : encodedLength (blockBytes [first, second]).length = [6] := by
    rw [show (blockBytes [first, second]).length = 6 from rfl]
    decide +kernel
  have result := read_items [first, second] (by decide) [9]
  rw [six] at result
  exact result

end ConnAckProperties

end Codec
