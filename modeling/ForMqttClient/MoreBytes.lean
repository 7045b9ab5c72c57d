import ForMqttClient.PropertyItems

/-!
# Asking for more bytes

Inside a body that is cut off the buffer, the readers of integers, strings and
data never ask for more bytes; a variable byte integer does. So a property reader
asks for more in two places: in the length of its block, and in a subscription
identifier.
-/

namespace Codec

open MqttData ByteReader

/-- The error that asks for more bytes. -/
def Starved : PacketParseError → Prop
  | .InsufficientBytes _ => True
  | _ => False

/-- No request for more bytes. -/
def Clean {α : Type} (outcome : Outcome PacketParseError α) : Prop :=
  ∀ error, Starved error → outcome ≠ fail error

theorem clean_ok {α : Type} (value : α) : Clean (.ok value) :=
  fun _ _ same => by cases same

theorem clean_fail {α : Type} {error : PacketParseError} (other : ¬Starved error) :
    Clean (fail error : Outcome PacketParseError α) := by
  intro error' starved same
  cases same
  exact other starved

/-! ## Values -/

section Values

theorem readU8_avoids : Avoids Starved readU8 := by
  intro stream error starved failed
  match stream, failed with
  | [], failed =>
    cases failed
    exact starved
  | _ :: _, failed => cases failed

theorem readU16_avoids : Avoids Starved readU16 := by
  intro stream error starved failed
  match stream, failed with
  | [], failed | [_], failed =>
    cases failed
    exact starved
  | _ :: _ :: _, failed => cases failed

theorem readU32_avoids : Avoids Starved readU32 := by
  intro stream error starved failed
  match stream, failed with
  | [], failed | [_], failed | [_, _], failed | [_, _, _], failed =>
    cases failed
    exact starved
  | _ :: _ :: _ :: _ :: _, failed => cases failed

theorem readMqttBytes_avoids : Avoids Starved readMqttBytes :=
  readU16_avoids.bind fun _ => Avoids.remaining.bind fun _ =>
    .ite (.reject fun starved => starved) (.splitTo _)

theorem readMqttString_avoids : Avoids Starved readMqttString := by
  refine readMqttBytes_avoids.bind fun bytes => ?_
  split
  · exact .pure _
  · exact .reject fun starved => starved

theorem property_clean (prop : UInt8) : Clean (property prop) := by
  unfold property
  split <;> first | exact clean_ok _ | exact clean_fail id

variable {α : Type}

theorem moved_avoids (value : α) (cursor size : Nat) :
    Avoids Starved (do
      let cursor ← Reader.add cursor size
      return (value, cursor) : Parser (α × Nat)) :=
  (Avoids.add cursor size).bind fun _ => .pure _

theorem peekLength_starves {stream : Bytes} {size : Nat} :
    peekLength stream = fail (.InsufficientBytes size) ↔
      length stream = fail (.InsufficientBytes size) := by
  change (orParseError (length stream) >>= fun measured => .ok (measured, stream)) = _ ↔ _
  cases length stream with
  | ok result => exact iff_of_false (fun same => by cases same) fun same => by cases same
  | error failure =>
    cases failure with
    | fault fault => exact iff_of_false (fun same => by cases same) fun same => by cases same
    | error err =>
      cases err with
      | InsufficientBytes other =>
        constructor <;>
          · intro same
            cases same
            rfl
      | MalformedRemainingLength =>
        exact iff_of_false (fun same => by cases same) fun same => by cases same

/-- A length that is looked at, and nothing behind it, asks for more bytes. -/
theorem peekLength_starves_iff {next : Nat × Nat → Parser α} {stream : Bytes}
    (avoids : ∀ measured, Avoids Starved (next measured)) :
    (∃ size, (peekLength >>= next) stream = fail (.InsufficientBytes size)) ↔ Cut stream := by
  rw [← length_cut_iff]
  constructor
  · rintro ⟨size, failed⟩
    rcases bind_fails_iff.mp failed with first | ⟨measured, mid, _, later⟩
    · exact ⟨size, peekLength_starves.mp first⟩
    · exact absurd later (avoids measured mid _ trivial)
  · rintro ⟨size, cut⟩
    exact ⟨size, bind_fails_iff.mpr (.inl (peekLength_starves.mpr cut))⟩

theorem takeVariable_avoids_behind (set : Nat → α) (cursor : Nat) (measured : Nat × Nat) :
    Avoids Starved (do
      let cursor ← Reader.add cursor (← Reader.add 1 measured.1)
      advance measured.1
      return (set measured.2, cursor) : Parser (α × Nat)) :=
  (Avoids.add _ _).bind fun _ => (Avoids.add _ _).bind fun _ =>
    (Avoids.advance _).bind fun _ => .pure _

theorem takeForm_avoids {form : Form} (other : form ≠ .varint) (set : form.Value → α)
    (cursor : Nat) : Avoids Starved (takeForm form set cursor) := by
  cases form with
  | octet => exact readU8_avoids.bind fun _ => moved_avoids _ _ _
  | word => exact readU16_avoids.bind fun _ => moved_avoids _ _ _
  | longword => exact readU32_avoids.bind fun _ => moved_avoids _ _ _
  | varint => exact absurd rfl other
  | text =>
    exact readMqttString_avoids.bind fun _ => (Avoids.add _ _).bind fun _ => moved_avoids _ _ _
  | data =>
    exact readMqttBytes_avoids.bind fun _ => (Avoids.add _ _).bind fun _ => moved_avoids _ _ _
  | pair =>
    refine readMqttString_avoids.bind fun _ => readMqttString_avoids.bind fun _ => ?_
    exact (Avoids.add _ _).bind fun _ => (Avoids.add _ _).bind fun _ =>
      (Avoids.add _ _).bind fun _ => moved_avoids _ _ _

end Values

/-! ## Property readers -/

section Properties

variable {α : Type}

theorem form_eq_varint {type : PropertyType} :
    type.form = .varint ↔ type = .SubscriptionIdentifier := by
  cases type <;> decide

/-- A turn asks for more bytes in a subscription identifier that is not complete. -/
theorem turn_starves_iff {table : Table α} {acc : α} {cursor : Nat} {stream : Bytes}
    (inside : cursor ≤ maxLength) :
    (∃ size, propertyTurn (turnOf table) acc cursor stream = fail (.InsufficientBytes size)) ↔
      ∃ rest, stream = PropertyType.SubscriptionIdentifier.toU8 :: rest ∧
        (table .SubscriptionIdentifier).isSome ∧ Cut rest := by
  constructor
  · rintro ⟨size, failed⟩
    have starved : Starved (.InsufficientBytes size) := trivial
    obtain ⟨prop, mid, first, moved⟩ := (bind_fails_behind readU8_avoids starved).mp failed
    obtain ⟨next, behind, counted, looked⟩ := (bind_fails_behind (.add _ _) starved).mp moved
    obtain ⟨type, here, found, taken⟩ :=
      (bind_fails_behind (.lift (property_clean prop)) starved).mp looked
    obtain ⟨known, same⟩ := run_lift_inv found
    obtain rfl := property_inv known
    obtain rfl : behind = mid := add_inv counted
    obtain rfl := same
    cases entry : table type with
    | none =>
      rw [entry] at taken
      cases taken
    | some set =>
      rw [entry] at taken
      by_cases form : type.form = .varint
      · obtain rfl := form_eq_varint.mp form
        refine ⟨here, readU8_inv first, by rw [entry, Option.isSome_some], ?_⟩
        exact (peekLength_starves_iff (takeVariable_avoids_behind _ _)).mp ⟨size, taken⟩
      · exact absurd taken (takeForm_avoids form _ _ _ _ starved)
  · rintro ⟨rest, rfl, some, cut⟩
    obtain ⟨set, entry⟩ := Option.isSome_iff_exists.mp some
    have sum : cursor + 1 < 2 ^ usizeBits := by
      simp only [usizeBits, maxLength] at *
      omega
    obtain ⟨size, failed⟩ := (peekLength_starves_iff
      (takeVariable_avoids_behind (set acc) (cursor + 1))).mpr cut
    refine ⟨size, ?_⟩
    refine (run_bind_ok (readU8_reads PropertyType.SubscriptionIdentifier.toU8 rest)).trans ?_
    refine (run_bind_ok (add_reads sum rest)).trans ?_
    refine (run_bind_ok (Reads.lift (property_toU8 .SubscriptionIdentifier) rest)).trans ?_
    rw [entry]
    exact failed

/-- The stream has a block in which a subscription identifier is not complete. -/
def CutInBlock (table : Table α) (empty : α) (stream : Bytes) : Prop :=
  ∃ total items acc rest,
    Announces stream total
      (blockBytes items ++ PropertyType.SubscriptionIdentifier.toU8 :: rest) ∧
    fill table empty items = some acc ∧ Below total 0 items ∧ walked items < total ∧
    (table .SubscriptionIdentifier).isSome ∧ Cut rest

/-- A property reader asks for more bytes in the length of the block, or in a
subscription identifier. -/
theorem readProperties_starves_iff {table : Table α} {empty : α} {stream : Bytes} :
    (∃ size, readProperties (turnOf table) empty stream = fail (.InsufficientBytes size)) ↔
      Cut stream ∨ CutInBlock table empty stream := by
  constructor
  · rintro ⟨size, failed⟩
    have whole := failed
    rcases bind_fails_iff.mp failed with first | ⟨measured, mid, peeked, _⟩
    · exact .inl ((length_cut_iff stream).mp ⟨size, peekLength_starves.mp first⟩)
    · obtain ⟨known, _⟩ := peekLength_inv peeked
      have announced : Announces stream measured.2 (stream.drop measured.1) := ⟨_, known, rfl⟩
      by_cases zero : measured.2 = 0
      · rw [zero] at announced
        rw [readProperties_zero announced] at whole
        cases whole
      · rw [readProperties_of_announced announced zero] at whole
        rcases bind_fails_iff.mp whole with loop | ⟨_, _, _, last⟩
        · obtain ⟨stop, rest, turns, below, failed⟩ := Turns.of_fail _ _ _ _ loop
          have small := announced_small announced
          obtain ⟨items, parts, filled, moved, inside⟩ := items_of_turns small turns
          obtain ⟨behind, rfl, some, cut⟩ := (turn_starves_iff (by omega)).mp ⟨size, failed⟩
          rw [Nat.zero_add] at moved
          exact .inr ⟨measured.2, items, stop.1, behind, parts ▸ announced, filled, inside,
            moved ▸ below, some, cut⟩
        · cases last
  · rintro (cut | ⟨total, items, acc, rest, announced, filled, below, inside, some, cut⟩)
    · obtain ⟨size, short⟩ := (length_cut_iff stream).mpr cut
      exact ⟨size, bind_fails_iff.mpr (.inl (peekLength_starves.mpr short))⟩
    · have small := announced_small announced
      have walk := advances_items small items empty 0 acc filled below
      rw [Nat.zero_add] at walk
      have below : walked items ≤ maxLength := Nat.le_trans (Nat.le_of_lt inside) small
      obtain ⟨size, failed⟩ : ∃ size, propertyTurn (turnOf table) acc (walked items)
          (PropertyType.SubscriptionIdentifier.toU8 :: rest) = fail (.InsufficientBytes size) :=
        (turn_starves_iff below).mpr ⟨rest, rfl, some, cut⟩
      refine ⟨size, ?_⟩
      rw [readProperties_of_announced announced (Nat.ne_of_gt (Nat.zero_lt_of_lt inside))]
      exact bind_fails_iff.mpr (.inl (walk.whileBelow_fails inside failed))

end Properties

end Codec
