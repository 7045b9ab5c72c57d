import ForMqttClient.Lengths
import ForMqttClient.PacketWriters

/-!
# Fields read back

Every writer of a field appends bytes of its own to the buffer, and the reader
of the field takes exactly these bytes off a stream. The same holds of one turn
of a property loop.
-/

namespace Codec

open MqttData ByteReader

/-! ## Integers -/

theorem putU8_eq (buffer : Bytes) (n : UInt8) : putU8 buffer n = buffer ++ putU8 [] n := rfl

theorem putU16_eq (buffer : Bytes) (n : UInt16) : putU16 buffer n = buffer ++ putU16 [] n := rfl

theorem putU32_eq (buffer : Bytes) (n : UInt32) : putU32 buffer n = buffer ++ putU32 [] n := rfl

theorem readU8_reads (n : UInt8) : Reads readU8 (putU8 [] n) n := fun _ => rfl

theorem readU16_reads (n : UInt16) : Reads readU16 (putU16 [] n) n := by
  intro rest
  have small := n.toNat_lt
  have high : (UInt8.ofNat (n.toNat / 256)).toNat = n.toNat / 256 := by
    rw [UInt8.toNat_ofNat']
    omega
  have low : (UInt8.ofNat n.toNat).toNat = n.toNat % 256 := UInt8.toNat_ofNat'
  have value : UInt16.ofNat (n.toNat / 256 * 256 + n.toNat % 256) = n := by
    rw [Nat.div_add_mod']
    exact UInt16.ofNat_toNat
  change Except.ok (UInt16.ofNat (_ * 256 + _), rest) = _
  rw [high, low, value]

theorem readU32_reads (n : UInt32) : Reads readU32 (putU32 [] n) n := by
  intro rest
  have small := n.toNat_lt
  have first : (UInt8.ofNat (n.toNat / 16777216)).toNat = n.toNat / 16777216 := by
    rw [UInt8.toNat_ofNat']
    omega
  have second : (UInt8.ofNat (n.toNat / 65536)).toNat = n.toNat / 65536 % 256 :=
    UInt8.toNat_ofNat'
  have third : (UInt8.ofNat (n.toNat / 256)).toNat = n.toNat / 256 % 256 := UInt8.toNat_ofNat'
  have fourth : (UInt8.ofNat n.toNat).toNat = n.toNat % 256 := UInt8.toNat_ofNat'
  have value : UInt32.ofNat (((n.toNat / 16777216 * 256 + n.toNat / 65536 % 256) * 256 +
      n.toNat / 256 % 256) * 256 + n.toNat % 256) = n := by
    have parts : ((n.toNat / 16777216 * 256 + n.toNat / 65536 % 256) * 256 +
        n.toNat / 256 % 256) * 256 + n.toNat % 256 = n.toNat := by omega
    rw [parts]
    exact UInt32.ofNat_toNat
  change Except.ok (UInt32.ofNat (((_ * 256 + _) * 256 + _) * 256 + _), rest) = _
  rw [first, second, third, fourth, value]

/-! ## Strings and binary data -/

/-- Short enough for the length in front of it. -/
def Fits (bytes : Bytes) : Prop := bytes.length ≤ 65535

instance (bytes : Bytes) : Decidable (Fits bytes) :=
  inferInstanceAs (Decidable (bytes.length ≤ 65535))

theorem writeMqttBytes_eq (buffer bytes : Bytes) :
    writeMqttBytes buffer bytes = buffer ++ writeMqttBytes [] bytes := by
  simp [writeMqttBytes, putU16]

theorem writeMqttString_eq (buffer : Bytes) (s : String) :
    writeMqttString buffer s = buffer ++ writeMqttString [] s := writeMqttBytes_eq _ _

theorem writeMqttBytes_length (bytes : Bytes) :
    (writeMqttBytes [] bytes).length = 2 + bytes.length := by
  simp only [writeMqttBytes, putU16, List.nil_append, List.length_append, List.length_cons,
    List.length_nil]

theorem writeMqttString_length (s : String) :
    (writeMqttString [] s).length = 2 + strLen s := writeMqttBytes_length _

theorem splitTo_append {ε : Type} (bytes rest : Bytes) :
    (splitTo bytes.length : Reader ε Bytes) (bytes ++ rest) = .ok (bytes, rest) := by
  rw [splitTo, if_pos (by simp), List.take_left, List.drop_left]

theorem readMqttBytes_reads {bytes : Bytes} (fits : Fits bytes) :
    Reads readMqttBytes (writeMqttBytes [] bytes) bytes := by
  intro rest
  have size : (UInt16.ofNat bytes.length).toNat = bytes.length := by
    rw [UInt16.toNat_ofNat']
    exact Nat.mod_eq_of_lt (Nat.lt_succ_of_le fits)
  rw [writeMqttBytes, List.append_assoc, readMqttBytes, run_bind_ok (readU16_reads _ _)]
  change (if _ > (bytes ++ rest).length then reject _ else splitTo _ : Parser Bytes) _ = _
  rw [size, if_neg (by simp), splitTo_append]

theorem fromUtf8_asBytes (s : String) : fromUtf8 (asBytes s) = some s := by
  have valid : (ByteArray.mk (asBytes s).toArray).IsValidUTF8 := s.isValidUTF8
  rw [fromUtf8, String.fromUTF8?, dif_pos valid]
  rfl

theorem readMqttString_reads {s : String} (fits : Fits (asBytes s)) :
    Reads readMqttString (writeMqttString [] s) s := by
  intro rest
  rw [readMqttString, writeMqttString, run_bind_ok (readMqttBytes_reads fits rest),
    fromUtf8_asBytes]
  rfl

theorem writeUserProperty_eq (buffer : Bytes) (pair : String × String) :
    writeUserProperty buffer pair = buffer ++ writeUserProperty [] pair := by
  rw [writeUserProperty, writeUserProperty, writeMqttString_eq, writeMqttString_eq buffer,
    writeMqttString_eq (writeMqttString [] pair.1), List.append_assoc]

theorem writeUserProperty_length (pair : String × String) :
    (writeUserProperty [] pair).length = 2 + strLen pair.1 + 2 + strLen pair.2 := by
  rw [writeUserProperty, writeMqttString_eq, List.length_append, writeMqttString_length,
    writeMqttString_length, Nat.add_assoc, Nat.add_assoc, Nat.add_assoc]

/-! ## From a value back to its bytes -/

theorem readU8_inv {stream rest : Bytes} {n : UInt8} (read : readU8 stream = .ok (n, rest)) :
    stream = putU8 [] n ++ rest := by
  match stream, read with
  | [], read => cases read
  | _ :: _, read =>
    cases read
    rfl

theorem readU16_inv {stream rest : Bytes} {n : UInt16} (read : readU16 stream = .ok (n, rest)) :
    stream = putU16 [] n ++ rest := by
  match stream, read with
  | [], read => cases read
  | [_], read => cases read
  | a :: b :: stream, read =>
    cases read
    have high := a.toNat_lt
    have low := b.toNat_lt
    have value : (UInt16.ofNat (a.toNat * 256 + b.toNat)).toNat = a.toNat * 256 + b.toNat := by
      rw [UInt16.toNat_ofNat']
      omega
    have first : UInt8.ofNat ((a.toNat * 256 + b.toNat) / 256) = a := by
      apply UInt8.toNat_inj.mp
      rw [UInt8.toNat_ofNat']
      omega
    have second : UInt8.ofNat (a.toNat * 256 + b.toNat) = b := by
      apply UInt8.toNat_inj.mp
      rw [UInt8.toNat_ofNat']
      omega
    rw [putU16, value, first, second]
    rfl

theorem readU32_inv {stream rest : Bytes} {n : UInt32} (read : readU32 stream = .ok (n, rest)) :
    stream = putU32 [] n ++ rest := by
  match stream, read with
  | [], read => cases read
  | [_], read => cases read
  | [_, _], read => cases read
  | [_, _, _], read => cases read
  | a :: b :: c :: d :: stream, read =>
    cases read
    have ha := a.toNat_lt
    have hb := b.toNat_lt
    have hc := c.toNat_lt
    have hd := d.toNat_lt
    have value : (UInt32.ofNat (((a.toNat * 256 + b.toNat) * 256 + c.toNat) * 256 +
        d.toNat)).toNat = ((a.toNat * 256 + b.toNat) * 256 + c.toNat) * 256 + d.toNat := by
      rw [UInt32.toNat_ofNat']
      omega
    rw [putU32, value]
    generalize sum : ((a.toNat * 256 + b.toNat) * 256 + c.toNat) * 256 + d.toNat = n
    have first : UInt8.ofNat (n / 16777216) = a := by
      apply UInt8.toNat_inj.mp
      rw [UInt8.toNat_ofNat']
      omega
    have second : UInt8.ofNat (n / 65536) = b := by
      apply UInt8.toNat_inj.mp
      rw [UInt8.toNat_ofNat']
      omega
    have third : UInt8.ofNat (n / 256) = c := by
      apply UInt8.toNat_inj.mp
      rw [UInt8.toNat_ofNat']
      omega
    have fourth : UInt8.ofNat n = d := by
      apply UInt8.toNat_inj.mp
      rw [UInt8.toNat_ofNat']
      omega
    rw [first, second, third, fourth]
    rfl

theorem splitTo_inv {ε : Type} {count : Nat} {stream rest bytes : Bytes}
    (read : (splitTo count : Reader ε Bytes) stream = .ok (bytes, rest)) :
    stream = bytes ++ rest ∧ bytes.length = count := by
  rw [splitTo] at read
  by_cases within : count ≤ stream.length
  · rw [if_pos within] at read
    cases read
    exact ⟨(List.take_append_drop count stream).symm, List.length_take_of_le within⟩
  · rw [if_neg within] at read
    cases read

theorem readMqttBytes_inv {stream rest bytes : Bytes}
    (read : readMqttBytes stream = .ok (bytes, rest)) :
    Fits bytes ∧ stream = writeMqttBytes [] bytes ++ rest := by
  obtain ⟨len, mid, first, read⟩ := run_bind_inv read
  change (if len.toNat > mid.length then reject _ else splitTo len.toNat : Parser Bytes) mid = _
    at read
  by_cases crossed : len.toNat > mid.length
  · rw [if_pos crossed] at read
    cases read
  · rw [if_neg crossed] at read
    obtain ⟨parts, size⟩ := splitTo_inv read
    have small := len.toNat_lt
    have same : UInt16.ofNat bytes.length = len := by
      rw [size]
      exact UInt16.ofNat_toNat
    refine ⟨?_, ?_⟩
    · rw [Fits]
      omega
    · rw [readU16_inv first, parts, writeMqttBytes, same, List.append_assoc]

theorem readMqttString_inv {stream rest : Bytes} {s : String}
    (read : readMqttString stream = .ok (s, rest)) :
    Fits (asBytes s) ∧ stream = writeMqttString [] s ++ rest := by
  obtain ⟨bytes, mid, first, read⟩ := run_bind_inv read
  cases text : fromUtf8 bytes with
  | none =>
    rw [text] at read
    cases read
  | some s' =>
    rw [text] at read
    cases read
    rw [writeMqttString, asBytes_fromUtf8 text]
    exact readMqttBytes_inv first

/-! ## Lengths -/

theorem peekLength_encoded {n : Nat} (small : n ≤ maxLength) (rest : Bytes) :
    peekLength (encodedLength n ++ rest) = .ok ((lenLen n, n), encodedLength n ++ rest) := by
  change (orParseError (length (encodedLength n ++ rest)) >>= fun measured =>
    .ok (measured, encodedLength n ++ rest)) = _
  rw [length_encoded small]
  rfl

/-- A length that is looked at is still there for what comes next. -/
theorem peekLength_reads {α : Type} {n : Nat} {next : Nat × Nat → Parser α} {bytes : Bytes}
    {result : α} (small : n ≤ maxLength) (front : encodedLength n <+: bytes)
    (there : Reads (next (lenLen n, n)) bytes result) :
    Reads (peekLength >>= next) bytes result := by
  intro rest
  obtain ⟨behind, rfl⟩ := front
  have peeked := peekLength_encoded small (behind ++ rest)
  rw [← List.append_assoc] at peeked
  rw [run_bind_ok peeked]
  exact there rest

theorem advance_reads {ε : Type} {n : Nat} (small : n ≤ maxLength) :
    Reads (advance (lenLen n) : Reader ε Unit) (encodedLength n) () := by
  intro rest
  rw [← encodedLength_length small, advance, if_pos (by simp), List.drop_left]

/-! ## Values with a cursor -/

section Turns

variable {α : Type}

/-- A value is taken off its bytes, and the cursor moves by their number. -/
def Takes (take : Nat → Parser (α × Nat)) (bytes : Bytes) (value : α) : Prop :=
  ∀ cursor, cursor ≤ maxLength + 1 → Reads (take cursor) bytes (value, cursor + bytes.length)

theorem add_reads {ε : Type} {a b : Nat} (bound : a + b < 2 ^ usizeBits) :
    Reads (Reader.add a b : Reader ε Nat) [] (a + b) := by
  intro rest
  simp only [Reader.add, ByteReader.add, if_pos bound]
  rfl

/-- The last step of a turn, behind a value of `size` bytes. -/
theorem moved_reads {value : α} {cursor size : Nat} (inside : cursor ≤ maxLength + 1)
    (fits : size ≤ 1000000) :
    Reads (do
      let cursor ← Reader.add cursor size
      return (value, cursor) : Parser (α × Nat)) [] (value, cursor + size) := by
  simp only [maxLength] at inside
  exact (add_reads (by simp only [usizeBits]; omega)).map fun cursor => (value, cursor)

theorem takeU8_takes (set : UInt8 → α) (n : UInt8) :
    Takes (takeU8 set) (putU8 [] n) (set n) :=
  fun _ inside => (readU8_reads n).bind_last (moved_reads inside (by omega))

theorem takeU16_takes (set : UInt16 → α) (n : UInt16) :
    Takes (takeU16 set) (putU16 [] n) (set n) :=
  fun _ inside => (readU16_reads n).bind_last (moved_reads inside (by omega))

theorem takeU32_takes (set : UInt32 → α) (n : UInt32) :
    Takes (takeU32 set) (putU32 [] n) (set n) :=
  fun _ inside => (readU32_reads n).bind_last (moved_reads inside (by omega))

theorem takeBytes_takes (set : Bytes → α) {bytes : Bytes} (fits : Fits bytes) :
    Takes (takeBytes set) (writeMqttBytes [] bytes) (set bytes) := by
  intro cursor inside
  have small : bytes.length ≤ 65535 := fits
  rw [writeMqttBytes_length]
  refine (readMqttBytes_reads fits).bind_last ?_
  refine (add_reads (by simp only [usizeBits]; omega)).bind_nil ?_
  exact moved_reads inside (by omega)

theorem takeString_takes (set : String → α) {s : String} (fits : Fits (asBytes s)) :
    Takes (takeString set) (writeMqttString [] s) (set s) := by
  intro cursor inside
  have small : strLen s ≤ 65535 := fits
  rw [writeMqttString_length]
  refine (readMqttString_reads fits).bind_last ?_
  refine (add_reads (by simp only [usizeBits]; omega)).bind_nil ?_
  exact moved_reads inside (by omega)

theorem takeUserProperty_takes (set : String × String → α) {pair : String × String}
    (key : Fits (asBytes pair.1)) (value : Fits (asBytes pair.2)) :
    Takes (takeUserProperty set) (writeUserProperty [] pair) (set pair) := by
  intro cursor inside
  have keySmall : strLen pair.1 ≤ 65535 := key
  have valueSmall : strLen pair.2 ≤ 65535 := value
  rw [writeUserProperty_length, writeUserProperty, writeMqttString_eq]
  refine (readMqttString_reads key).bind ?_
  refine (readMqttString_reads value).bind_last ?_
  refine (add_reads (by simp only [usizeBits]; omega)).bind_nil ?_
  refine (add_reads (by simp only [usizeBits]; omega)).bind_nil ?_
  refine (add_reads (by simp only [usizeBits]; omega)).bind_nil ?_
  exact moved_reads inside (by omega)

theorem property_toU8 (type : PropertyType) : property type.toU8 = .ok type := by
  cases type <;> rfl

/-- A turn that looks its property up finds the one whose number was written. -/
theorem lookup_reads {type : PropertyType} {next : PropertyType → Parser (α × Nat)}
    {bytes : Bytes} {result : α × Nat} (reads : Reads (next type) bytes result) :
    Reads (liftM (property type.toU8) >>= next) bytes result :=
  (Reads.lift (property_toU8 type)).bind_nil reads

/-! ## Properties -/

/-- The bytes of one property. -/
def propertyBytes {β : Type} (type : PropertyType) (put : Bytes → β → Bytes) (value : β) :
    Bytes :=
  type.toU8 :: put [] value

/-- The bytes of a property that may be missing. -/
def someBytes {β : Type} (type : PropertyType) (put : Bytes → β → Bytes) :
    Option β → Bytes
  | some value => propertyBytes type put value
  | none => []

/-- A writer that leaves the buffer in front. -/
def Appends {β : Type} (put : Bytes → β → Bytes) : Prop :=
  ∀ buffer value, put buffer value = buffer ++ put [] value

theorem putSome_eq {β : Type} {type : PropertyType} {put : Bytes → β → Bytes}
    (appends : Appends put) (buffer : Bytes) (value : Option β) :
    putSome (putProperty type put) buffer value = buffer ++ someBytes type put value := by
  cases value with
  | none => exact (List.append_nil buffer).symm
  | some value =>
    change put (buffer ++ [type.toU8]) value = _
    rw [appends, List.append_assoc]
    rfl

theorem foldl_eq {β : Type} {put : Bytes → β → Bytes} (appends : Appends put) (values : List β) :
    ∀ buffer, values.foldl put buffer = buffer ++ values.flatMap (put []) := by
  induction values with
  | nil => exact fun buffer => (List.append_nil buffer).symm
  | cons value values ih =>
    intro buffer
    rw [List.foldl_cons, ih, appends, List.flatMap_cons, List.append_assoc]

theorem foldl_putProperty_eq {β : Type} {type : PropertyType} {put : Bytes → β → Bytes}
    (appends : Appends put) (values : List β) (buffer : Bytes) :
    values.foldl (putProperty type put) buffer =
      buffer ++ values.flatMap (propertyBytes type put) := by
  have same : putProperty type put [] = propertyBytes type put := by
    funext value
    exact appends [type.toU8] value
  have property : Appends (putProperty type put) := by
    intro buffer value
    rw [same, putProperty, appends, putU8, List.append_assoc]
    rfl
  rw [foldl_eq property, same]

/-! ## Sizes -/

theorem someBytes_length {β : Type} {type : PropertyType} {put : Bytes → β → Bytes}
    {size : β → Nat} (sized : ∀ v, (put [] v).length + 1 = size v) (value : Option β) :
    (someBytes type put value).length = someLen size value := by
  cases value with
  | none => rfl
  | some v => exact sized v

theorem octet_size (n : UInt8) : (putU8 [] n).length + 1 = 1 + 1 := rfl

theorem word_size (n : UInt16) : (putU16 [] n).length + 1 = 1 + 2 := rfl

theorem longword_size (n : UInt32) : (putU32 [] n).length + 1 = 1 + 4 := rfl

theorem string_size (s : String) : (writeMqttString [] s).length + 1 = 1 + 2 + strLen s := by
  rw [writeMqttString_length]
  omega

theorem bytes_size (data : Bytes) : (writeMqttBytes [] data).length + 1 = 1 + 2 + data.length := by
  rw [writeMqttBytes_length]
  omega

theorem userProperties_length (pairs : List (String × String)) :
    (pairs.flatMap (propertyBytes .UserProperty writeUserProperty)).length =
      (pairs.map userPropertyLen).sum := by
  rw [List.length_flatMap]
  congr 1
  refine List.map_congr_left fun pair _ => ?_
  rw [propertyBytes, List.length_cons, writeUserProperty_length, userPropertyLen]
  omega

theorem userPropertyLen_pos (pair : String × String) : 0 < userPropertyLen pair := by
  rw [userPropertyLen]
  omega

theorem someLen_eq_zero {β : Type} {size : β → Nat} (pos : ∀ v, 0 < size v) {value : Option β}
    (zero : someLen size value = 0) : value = none := by
  cases value with
  | none => rfl
  | some v => exact absurd zero (Nat.ne_of_gt (pos v))

theorem sum_map_eq_zero {β : Type} {size : β → Nat} (pos : ∀ v, 0 < size v) {values : List β}
    (zero : (values.map size).sum = 0) : values = [] := by
  cases values with
  | nil => rfl
  | cons v values =>
    have some := pos v
    rw [List.map_cons, List.sum_cons] at zero
    omega

/-! ## Turns of the property loops -/

/-- The turn of a property: its number, then its value. -/
theorem propertyTurn_takes {turn : UInt8 → α → Nat → Parser (α × Nat)} {acc acc' : α}
    {β : Type} {type : PropertyType} {put : Bytes → β → Bytes} {value : β} {cursor : Nat}
    (takes : Takes (turn type.toU8 acc) (put [] value) acc') (inside : cursor ≤ maxLength) :
    Reads (propertyTurn turn acc cursor) (propertyBytes type put value)
      (acc', cursor + (propertyBytes type put value).length) := by
  have size : cursor + (propertyBytes type put value).length =
      cursor + 1 + (put [] value).length := by
    rw [propertyBytes, List.length_cons]
    omega
  have sum : cursor + 1 < 2 ^ usizeBits := by
    simp only [usizeBits, maxLength] at *
    omega
  rw [size]
  refine (readU8_reads type.toU8).bind ?_
  refine (add_reads sum).bind_nil ?_
  exact takes (cursor + 1) (by omega)

section Loops

variable {turn : UInt8 → α → Nat → Parser (α × Nat)} {bound : Nat} {β : Type}
variable {type : PropertyType} {put : Bytes → β → Bytes}

theorem counts_one {value : β} {acc acc' : α} (small : bound ≤ maxLength)
    (takes : Takes (turn type.toU8 acc) (put [] value) acc') :
    Counts (propertyTurn turn) bound acc (propertyBytes type put value) acc' := by
  intro cursor room
  have pos : 0 < (propertyBytes type put value).length := Nat.zero_lt_succ _
  exact .of_turn (by simp only; omega) (List.cons_ne_nil _ _)
    (propertyTurn_takes takes (by omega))

/-- A property that may be missing, as a field of what the loop has read. -/
theorem counts_field (set : Option β → α) {value : Option β} (small : bound ≤ maxLength)
    (takes : ∀ v, value = some v → Takes (turn type.toU8 (set none)) (put [] v) (set (some v))) :
    Counts (propertyTurn turn) bound (set none) (someBytes type put value) (set value) := by
  cases value with
  | none => exact .refl _
  | some v => exact counts_one small (takes v rfl)

/-- A repeated property, behind what the field holds already. -/
theorem counts_repeated (set : List β → α) {values : List β} (small : bound ≤ maxLength) :
    ∀ before, (∀ before, ∀ v ∈ values,
        Takes (turn type.toU8 (set before)) (put [] v) (set (before ++ [v]))) →
      Counts (propertyTurn turn) bound (set before) (values.flatMap (propertyBytes type put))
        (set (before ++ values)) := by
  induction values with
  | nil =>
    intro before _
    rw [List.append_nil]
    exact .refl _
  | cons v values ih =>
    intro before takes
    rw [List.flatMap_cons, List.append_cons]
    have first := counts_one small (takes before v List.mem_cons_self)
    have later := ih (before ++ [v]) fun before w h => takes before w (List.mem_cons_of_mem _ h)
    exact first.trans later

end Loops

section Lengths

variable {turn : UInt8 → α → Nat → Parser (α × Nat)} {init : α}

theorem readProperties_none (rest : Bytes) :
    readProperties turn init (encodedLength 0 ++ rest) = .ok (none, rest) := by
  refine (run_bind_ok (peekLength_encoded (Nat.zero_le _) rest)).trans ?_
  exact run_bind_ok (advance_reads (Nat.zero_le _) rest)

theorem readProperties_some {n : Nat} (small : n ≤ maxLength) (pos : n ≠ 0)
    {stream rest : Bytes} {acc : α}
    (loop : whileBelow (propertyTurn turn) n init 0 stream = .ok (acc, rest)) :
    readProperties turn init (encodedLength n ++ stream) = .ok (some acc, rest) := by
  refine (run_bind_ok (peekLength_encoded small stream)).trans ?_
  refine (run_bind_ok (advance_reads small stream)).trans ?_
  rw [if_neg pos]
  exact run_bind_ok loop

/-- Properties that the loop counts right are read off with their length, and
taken for none where no field is present. -/
theorem readProperties_reads [DecidableEq α] {bytes : Bytes} {n : Nat} {acc : α}
    (size : bytes.length = n) (small : n ≤ maxLength) (nothing : n = 0 ↔ acc = init)
    (counts : Counts (propertyTurn turn) n init bytes acc) :
    Reads (readProperties turn init) (encodedLength n ++ bytes)
      (if acc = init then none else some acc) := by
  intro rest
  rw [List.append_assoc]
  by_cases empty : acc = init
  · have zero := nothing.mpr empty
    have missing := List.length_eq_zero_iff.mp (size.trans zero)
    rw [if_pos empty, zero, missing, List.nil_append]
    exact readProperties_none rest
  · have counted : n ≤ 0 + bytes.length := by omega
    have advances := counts 0 (Nat.le_of_eq ((Nat.zero_add _).trans size))
    rw [if_neg empty]
    exact readProperties_some small (fun zero => empty (nothing.mp zero))
      (advances.whileBelow counted rest)

end Lengths

end Turns

end Codec
