import ForMqttClient.Codec

/-!
# Variable byte integers

`length` reads seven bits a byte, at most four bytes, and meets no fault. What
it says of a stream stands whatever comes behind, unless the stream ends inside
the integer; and it reads back what `writeRemainingLength` wrote.
-/

namespace Codec

open MqttData ByteReader

/-- The largest variable byte integer. -/
def maxLength : Nat := 268435455

/-- The answer of `length` to a stream that ends too early. -/
def cutOff {α : Type} : Outcome FixedHeaderError α := fail (.InsufficientBytes 1)

theorem mask_low (n : Nat) : n &&& 0x7F = n % 128 := Nat.and_two_pow_sub_one_eq_mod n 7

theorem continuation_iff (byte : UInt8) : byte.toNat &&& 0x80 = 0 ↔ byte.toNat < 128 := by
  have small := byte.toNat_lt
  generalize byte.toNat = n at small
  revert n
  decide +kernel

/-- One byte of the loop; no operation in it leaves a `usize`. -/
theorem lengthLoop_cons (byte : UInt8) (stream : Bytes) {count len : Nat} (early : count ≤ 3)
    (low : len < 2 ^ (7 * count)) :
    lengthLoop (byte :: stream) count len (7 * count) =
      if byte.toNat < 128 then
        .ok (count + 1, len + byte.toNat % 128 * 2 ^ (7 * count))
      else if count = 3 then fail .MalformedRemainingLength
      else lengthLoop stream (count + 1) (len + byte.toNat % 128 * 2 ^ (7 * count))
        (7 * (count + 1)) := by
  have digit : byte.toNat % 128 < 128 := Nat.mod_lt _ (by decide)
  have power : 2 ^ (7 * count) ≤ 2 ^ 21 := Nat.pow_le_pow_right (by decide) (by omega)
  have product : byte.toNat % 128 * 2 ^ (7 * count) ≤ 127 * 2 ^ 21 :=
    Nat.mul_le_mul (by omega) power
  have shifted : (byte.toNat % 128) <<< (7 * count) % 2 ^ usizeBits =
      byte.toNat % 128 * 2 ^ (7 * count) := by
    rw [Nat.shiftLeft_eq, Nat.mod_eq_of_lt (by simp only [usizeBits]; omega)]
  have counts : (ByteReader.add count 1 : Outcome FixedHeaderError Nat) = .ok (count + 1) :=
    if_pos (by simp only [usizeBits]; omega)
  have shifts : (shiftLeft (byte.toNat % 128) (7 * count) : Outcome FixedHeaderError Nat) =
      .ok (byte.toNat % 128 * 2 ^ (7 * count)) := by
    rw [shiftLeft, if_pos (by simp only [usizeBits]; omega), shifted]
  have sums : (ByteReader.add len (byte.toNat % 128 * 2 ^ (7 * count)) :
      Outcome FixedHeaderError Nat) = .ok (len + byte.toNat % 128 * 2 ^ (7 * count)) :=
    if_pos (by simp only [usizeBits]; omega)
  have moves : (ByteReader.add (7 * count) 7 : Outcome FixedHeaderError Nat) =
      .ok (7 * (count + 1)) := if_pos (by simp only [usizeBits]; omega)
  simp only [lengthLoop, counts, mask_low, shifts, sums, moves, continuation_iff, bind,
    Except.bind, pure, Except.pure]
  by_cases last : byte.toNat < 128
  · rw [if_pos last, if_pos last]
  · rw [if_neg last, if_neg last]
    by_cases full : count = 3
    · rw [if_pos full, if_pos (by omega)]
    · rw [if_neg full, if_neg (by omega)]

/-- Seven bits more keep the value below its width. -/
theorem width_succ {count len : Nat} (byte : UInt8) (low : len < 2 ^ (7 * count)) :
    len + byte.toNat % 128 * 2 ^ (7 * count) < 2 ^ (7 * (count + 1)) := by
  have digit : byte.toNat % 128 ≤ 127 := by omega
  have product := Nat.mul_le_mul_right (2 ^ (7 * count)) digit
  have split : 2 ^ (7 * (count + 1)) = 2 ^ (7 * count) * 128 := by
    rw [Nat.mul_add, Nat.pow_add]
  omega

/-! ## Bounds -/

theorem lengthLoop_safe (stream : Bytes) :
    ∀ count len, count ≤ 3 → len < 2 ^ (7 * count) →
      (lengthLoop stream count len (7 * count)).Safe fun result =>
        count < result.1 ∧ result.1 ≤ 4 ∧ result.1 ≤ count + stream.length ∧
          result.2 < 2 ^ (7 * result.1) := by
  induction stream with
  | nil => exact fun _ _ _ _ => Outcome.safe_fail
  | cons byte stream ih =>
    intro count len early low
    have wider := width_succ byte low
    rw [lengthLoop_cons byte stream early low]
    by_cases last : byte.toNat < 128
    · rw [if_pos last]
      exact ⟨Nat.lt_succ_self _, by omega, by simp, wider⟩
    · rw [if_neg last]
      by_cases full : count = 3
      · rw [if_pos full]
        exact Outcome.safe_fail
      · rw [if_neg full]
        refine (ih _ _ (by omega) wider).imp fun result ⟨more, few, within, small⟩ => ?_
        exact ⟨by omega, few, by simp only [List.length_cons]; omega, small⟩

/-- What holds of a length that is read off a stream of `available` bytes. -/
def Measured (available : Nat) (result : Nat × Nat) : Prop :=
  1 ≤ result.1 ∧ result.1 ≤ 4 ∧ result.1 ≤ available ∧ result.2 ≤ maxLength

theorem length_safe (stream : Bytes) : (length stream).Safe (Measured stream.length) := by
  refine (lengthLoop_safe stream 0 0 (by omega) (by decide)).imp
    fun result ⟨more, few, within, small⟩ => ?_
  have power : 2 ^ (7 * result.1) ≤ 2 ^ 28 := Nat.pow_le_pow_right (by decide) (by omega)
  refine ⟨more, few, by omega, ?_⟩
  simp only [maxLength]
  omega

theorem length_bounds {stream : Bytes} {count len : Nat}
    (measured : length stream = .ok (count, len)) : Measured stream.length (count, len) := by
  have safe := length_safe stream
  rw [measured] at safe
  exact safe

/-! ## What comes behind -/

theorem lengthLoop_append (stream rest : Bytes) :
    ∀ count len, count ≤ 3 → len < 2 ^ (7 * count) →
      lengthLoop stream count len (7 * count) ≠ cutOff →
      lengthLoop (stream ++ rest) count len (7 * count) =
        lengthLoop stream count len (7 * count) := by
  induction stream with
  | nil => exact fun _ _ _ _ whole => absurd rfl whole
  | cons byte stream ih =>
    intro count len early low whole
    rw [lengthLoop_cons byte stream early low] at whole ⊢
    rw [List.cons_append, lengthLoop_cons byte _ early low]
    by_cases last : byte.toNat < 128
    · rw [if_pos last, if_pos last]
    · rw [if_neg last] at whole ⊢
      rw [if_neg last]
      by_cases full : count = 3
      · rw [if_pos full, if_pos full]
      · rw [if_neg full] at whole ⊢
        rw [if_neg full]
        exact ih _ _ (by omega) (width_succ byte low) whole

theorem length_append {stream : Bytes} (rest : Bytes) (whole : length stream ≠ cutOff) :
    length (stream ++ rest) = length stream :=
  lengthLoop_append stream rest 0 0 (by omega) (by decide) whole

theorem lengthLoop_front (stream rest : Bytes) :
    ∀ count len total value, count ≤ 3 → len < 2 ^ (7 * count) →
      lengthLoop (stream ++ rest) count len (7 * count) = .ok (total, value) →
      count + stream.length < total →
      lengthLoop stream count len (7 * count) = cutOff := by
  induction stream with
  | nil => exact fun _ _ _ _ _ _ _ _ => rfl
  | cons byte stream ih =>
    intro count len total value early low read short
    rw [List.cons_append, lengthLoop_cons byte _ early low] at read
    rw [lengthLoop_cons byte stream early low]
    by_cases last : byte.toNat < 128
    · rw [if_pos last] at read
      have counts : count + 1 = total := by injection read with read; exact congrArg Prod.fst read
      simp only [List.length_cons] at short
      omega
    · rw [if_neg last] at read ⊢
      by_cases full : count = 3
      · rw [if_pos full] at read
        exact absurd read (by simp [fail])
      · rw [if_neg full] at read ⊢
        refine ih _ _ total value (by omega) (width_succ byte low) read ?_
        simp only [List.length_cons] at short
        omega

/-- A stream that ends inside the integer is cut off, and is not read as another one. -/
theorem length_front {stream rest : Bytes} {count len : Nat}
    (read : length (stream ++ rest) = .ok (count, len)) (short : stream.length < count) :
    length stream = cutOff :=
  lengthLoop_front stream rest 0 0 count len (by omega) (by decide) read (by omega)

theorem lengthLoop_cutOff (stream rest : Bytes) :
    ∀ count len total value, count ≤ 3 → len < 2 ^ (7 * count) →
      lengthLoop stream count len (7 * count) = cutOff →
      lengthLoop (stream ++ rest) count len (7 * count) = .ok (total, value) →
      count + stream.length < total := by
  induction stream with
  | nil =>
    intro count len total value early low _ read
    have safe := lengthLoop_safe rest count len early low
    rw [List.nil_append] at read
    rw [read] at safe
    exact safe.1
  | cons byte stream ih =>
    intro count len total value early low cut read
    rw [lengthLoop_cons byte stream early low] at cut
    rw [List.cons_append, lengthLoop_cons byte _ early low] at read
    by_cases last : byte.toNat < 128
    · rw [if_pos last] at cut
      exact absurd cut (by simp [cutOff, fail])
    · rw [if_neg last] at cut read
      by_cases full : count = 3
      · rw [if_pos full] at read
        exact absurd read (by simp [fail])
      · rw [if_neg full] at cut read
        have later := ih _ _ total value (by omega) (width_succ byte low) cut read
        simp only [List.length_cons]
        omega

/-- A stream that holds the whole integer is read like any longer one. -/
theorem length_back {stream rest : Bytes} {count len : Nat}
    (read : length (stream ++ rest) = .ok (count, len)) (long : count ≤ stream.length) :
    length stream = .ok (count, len) := by
  by_cases cut : length stream = cutOff
  · have more := lengthLoop_cutOff stream rest 0 0 count len (by omega) (by decide) cut read
    omega
  · rw [← length_append rest cut, read]

/-! ## Too early an end -/

/-- The end of a stream in which a variable byte integer is not complete. -/
def Cut (stream : Bytes) : Prop := stream.length ≤ 3 ∧ ∀ byte ∈ stream, 128 ≤ byte.toNat

instance (stream : Bytes) : Decidable (Cut stream) := inferInstanceAs (Decidable (_ ∧ _))

theorem lengthLoop_cut_iff (stream : Bytes) :
    ∀ count len, count ≤ 3 → len < 2 ^ (7 * count) →
      ((∃ size, lengthLoop stream count len (7 * count) = fail (.InsufficientBytes size)) ↔
        count + stream.length ≤ 3 ∧ ∀ byte ∈ stream, 128 ≤ byte.toNat) := by
  induction stream with
  | nil =>
    intro count len early _
    exact iff_of_true ⟨1, rfl⟩ ⟨early, fun _ member => by cases member⟩
  | cons byte stream ih =>
    intro count len early low
    rw [lengthLoop_cons byte stream early low, List.forall_mem_cons, List.length_cons]
    by_cases last : byte.toNat < 128
    · rw [if_pos last]
      refine iff_of_false (fun ⟨_, failed⟩ => by cases failed) fun cut => ?_
      have more := cut.2.1
      omega
    · rw [if_neg last]
      by_cases full : count = 3
      · rw [if_pos full]
        refine iff_of_false (fun ⟨_, failed⟩ => by cases failed) fun cut => ?_
        have few := cut.1
        omega
      · rw [if_neg full, ih _ _ (by omega) (width_succ byte low)]
        constructor
        · rintro ⟨few, more⟩
          exact ⟨by omega, Nat.le_of_not_lt last, more⟩
        · rintro ⟨few, _, more⟩
          exact ⟨by omega, more⟩

/-- `length` asks for more bytes exactly on a stream that ends too early. -/
theorem length_cut_iff (stream : Bytes) :
    (∃ size, length stream = fail (.InsufficientBytes size)) ↔ Cut stream := by
  have cut := lengthLoop_cut_iff stream 0 0 (by omega) (by decide)
  rw [Nat.zero_add] at cut
  exact cut

/-! ## Reading back -/

/-- The bytes that `writeRemainingLength` appends. -/
def encodedLength (len : Nat) : Bytes := (writeRemainingLength [] len).1

theorem writeRemainingLength_step (buffer : Bytes) (len : Nat) :
    writeRemainingLength buffer len =
      if len / 128 > 0 then
        ((writeRemainingLength (buffer ++ [.ofNat (len % 128) ||| 128]) (len / 128)).1,
          (writeRemainingLength (buffer ++ [.ofNat (len % 128) ||| 128]) (len / 128)).2 + 1)
      else (buffer ++ [.ofNat (len % 128)], 1) := by
  rw [writeRemainingLength]
  rfl

theorem writeRemainingLength_eq (len : Nat) :
    ∀ buffer, writeRemainingLength buffer len =
      (buffer ++ encodedLength len, (encodedLength len).length) := by
  induction len using Nat.strongRecOn with
  | ind len ih =>
    intro buffer
    rw [encodedLength, writeRemainingLength_step buffer, writeRemainingLength_step []]
    by_cases more : len / 128 > 0
    · simp only [if_pos more, ih (len / 128) (by omega), List.append_assoc, List.nil_append,
        List.length_append, List.length_cons, List.length_nil]
      congr 1
      omega
    · simp only [if_neg more, List.nil_append, List.length_cons, List.length_nil]

theorem encodedLength_eq (len : Nat) :
    encodedLength len =
      if len / 128 > 0 then (.ofNat (len % 128) ||| 128) :: encodedLength (len / 128)
      else [.ofNat (len % 128)] := by
  rw [encodedLength, writeRemainingLength_step]
  by_cases more : len / 128 > 0
  · simp only [if_pos more, writeRemainingLength_eq]
    rfl
  · simp only [if_neg more]
    rfl

theorem encodedLength_length {len : Nat} (small : len ≤ maxLength) :
    (encodedLength len).length = lenLen len := by
  simp only [maxLength] at small
  rw [encodedLength_eq, lenLen]
  by_cases one : len < 128
  · rw [if_neg (by omega), if_neg (by omega), if_neg (by omega), if_neg (by omega)]
    rfl
  rw [if_pos (by omega), encodedLength_eq]
  by_cases two : len < 16384
  · rw [if_neg (by omega), if_neg (by omega), if_neg (by omega), if_pos (by omega)]
    rfl
  rw [if_pos (by omega), encodedLength_eq]
  by_cases three : len < 2097152
  · rw [if_neg (by omega), if_neg (by omega), if_pos (by omega)]
    rfl
  rw [if_pos (by omega), encodedLength_eq, if_neg (by omega), if_pos (by omega)]
  rfl

/-- A larger number takes no fewer bytes. -/
theorem encodedLength_mono (n : Nat) :
    ∀ m, m ≤ n → (encodedLength m).length ≤ (encodedLength n).length := by
  induction n using Nat.strongRecOn with
  | ind n ih =>
    intro m below
    rw [encodedLength_eq m, encodedLength_eq n]
    by_cases more : m / 128 > 0
    · have later := ih (n / 128) (by omega) (m / 128) (Nat.div_le_div_right below)
      rw [if_pos more, if_pos (by omega), List.length_cons, List.length_cons]
      omega
    · rw [if_neg more]
      by_cases moreAbove : n / 128 > 0
      · rw [if_pos moreAbove, List.length_cons, List.length_cons]
        exact Nat.succ_le_succ (Nat.zero_le _)
      · rw [if_neg moreAbove]
        exact Nat.le_refl _

theorem encodedLength_pos (n : Nat) : 1 ≤ (encodedLength n).length := by
  rw [encodedLength_eq]
  split <;> exact Nat.succ_le_succ (Nat.zero_le _)

theorem lenLen_pos (len : Nat) : 1 ≤ lenLen len := by
  unfold lenLen
  split
  · decide
  split
  · decide
  split <;> decide

theorem lenLen_le (len : Nat) : lenLen len ≤ 4 := by
  unfold lenLen
  split
  · decide
  split
  · decide
  split <;> decide

theorem byte_last {n : Nat} (small : n < 128) : (UInt8.ofNat n).toNat = n := by
  revert n
  decide +kernel

theorem byte_more {n : Nat} (small : n < 128) : (UInt8.ofNat n ||| 128).toNat = n + 128 := by
  revert n
  decide +kernel

theorem lengthLoop_encoded (rest : Bytes) (n : Nat) :
    ∀ count len, count ≤ 3 → len < 2 ^ (7 * count) → n < 2 ^ (7 * (4 - count)) →
      lengthLoop (encodedLength n ++ rest) count len (7 * count) =
        .ok (count + (encodedLength n).length, len + n * 2 ^ (7 * count)) := by
  induction n using Nat.strongRecOn with
  | ind n ih =>
    intro count len early low fits
    have digit : n % 128 < 128 := Nat.mod_lt _ (by decide)
    have parts : n % 128 + 128 * (n / 128) = n := Nat.mod_add_div n 128
    rw [encodedLength_eq n]
    by_cases more : n / 128 > 0
    · rw [if_pos more, List.cons_append, lengthLoop_cons _ _ early low, byte_more digit,
        if_neg (by omega)]
      have room : count ≠ 3 := by
        intro full
        rw [full] at fits
        omega
      have value : (n % 128 + 128) % 128 = n % 128 := by omega
      have wider := width_succ (.ofNat (n % 128)) low
      rw [byte_last digit, Nat.mod_mod] at wider
      have deeper : n / 128 < 2 ^ (7 * (4 - (count + 1))) := by
        have split : 2 ^ (7 * (4 - count)) = 2 ^ (7 * (4 - (count + 1))) * 128 := by
          rw [show 7 * (4 - count) = 7 * (4 - (count + 1)) + 7 by omega, Nat.pow_add]
        omega
      rw [if_neg room, value, ih (n / 128) (by omega) _ _ (by omega) wider deeper]
      have carried : n / 128 * 2 ^ (7 * (count + 1)) = 128 * (n / 128) * 2 ^ (7 * count) := by
        rw [Nat.mul_add, Nat.pow_add, Nat.mul_comm 128, Nat.mul_assoc, Nat.mul_comm 128]
      have total : len + n % 128 * 2 ^ (7 * count) + n / 128 * 2 ^ (7 * (count + 1)) =
          len + n * 2 ^ (7 * count) := by
        rw [carried, Nat.add_assoc, ← Nat.add_mul, parts]
      rw [total, List.length_cons]
      congr 2
      omega
    · have whole : n % 128 = n := by omega
      rw [if_neg more, List.singleton_append, lengthLoop_cons _ _ early low, byte_last digit,
        if_pos digit, whole, whole]
      rfl

theorem length_encoded {n : Nat} (small : n ≤ maxLength) (rest : Bytes) :
    length (encodedLength n ++ rest) = .ok (lenLen n, n) := by
  have fits : n < 2 ^ (7 * (4 - 0)) := by
    simp only [maxLength] at small
    omega
  have read := lengthLoop_encoded rest n 0 0 (by omega) (by decide) fits
  rw [encodedLength_length small] at read
  rw [length, read]
  simp

/-! ## Every number -/

/-- Too many digits for the bytes that are left. -/
theorem lengthLoop_malformed (rest : Bytes) (n : Nat) :
    ∀ count len, count ≤ 3 → len < 2 ^ (7 * count) → 2 ^ (7 * (4 - count)) ≤ n →
      lengthLoop (encodedLength n ++ rest) count len (7 * count) =
        fail .MalformedRemainingLength := by
  induction n using Nat.strongRecOn with
  | ind n ih =>
    intro count len early low large
    have digit : n % 128 < 128 := Nat.mod_lt _ (by decide)
    have power : 2 ^ 7 ≤ 2 ^ (7 * (4 - count)) := Nat.pow_le_pow_right (by decide) (by omega)
    have more : n / 128 > 0 := by omega
    rw [encodedLength_eq n, if_pos more, List.cons_append, lengthLoop_cons _ _ early low,
      byte_more digit, if_neg (by omega)]
    by_cases full : count = 3
    · rw [if_pos full]
    · have value : (n % 128 + 128) % 128 = n % 128 := by omega
      have wider := width_succ (.ofNat (n % 128)) low
      rw [byte_last digit, Nat.mod_mod] at wider
      have deeper : 2 ^ (7 * (4 - (count + 1))) ≤ n / 128 := by
        have split : 2 ^ (7 * (4 - count)) = 2 ^ (7 * (4 - (count + 1))) * 128 := by
          rw [show 7 * (4 - count) = 7 * (4 - (count + 1)) + 7 by omega, Nat.pow_add]
        omega
      rw [if_neg full, value]
      exact ih (n / 128) (by omega) _ _ (by omega) wider deeper

theorem lenLen_le_of_lt {n count : Nat} (some : 1 ≤ count) (small : n < 2 ^ (7 * count)) :
    lenLen n ≤ count := by
  have range : count = 1 ∨ count = 2 ∨ count = 3 ∨ 4 ≤ count := by omega
  rw [lenLen]
  rcases range with rfl | rfl | rfl | four
  · have below : n < 128 := small
    rw [if_neg (by omega), if_neg (by omega), if_neg (by omega)]
  · have below : n < 16384 := small
    rw [if_neg (by omega), if_neg (by omega)]
    split <;> decide
  · have below : n < 2097152 := small
    rw [if_neg (by omega)]
    split
    · decide
    · split <;> decide
  · exact Nat.le_trans (lenLen_le n) four

/-- What writer, reader and size table say of a number within the limit. -/
structure IsEncoding (n : Nat) (bytes : Bytes) : Prop where
  written : ∀ buffer, writeRemainingLength buffer n = (buffer ++ bytes, lenLen n)
  size : bytes.length = lenLen n
  read : ∀ rest, length (bytes ++ rest) = .ok (lenLen n, n)
  cut_off : ∀ front back, bytes = front ++ back → back ≠ [] →
    length front = fail (.InsufficientBytes 1)
  shortest : ∀ other count, length other = .ok (count, n) → lenLen n ≤ count

theorem isEncoding_encodedLength {n : Nat} (small : n ≤ maxLength) :
    IsEncoding n (encodedLength n) where
  written buffer := by rw [writeRemainingLength_eq, encodedLength_length small]
  size := encodedLength_length small
  read := length_encoded small
  cut_off front back parts some := by
    have read := length_encoded small []
    have size := encodedLength_length small
    rw [List.append_nil] at read
    rw [parts] at read size
    have pos := List.length_pos_iff.mpr some
    rw [List.length_append] at size
    exact length_front read (by omega)
  shortest other count read := by
    have safe := lengthLoop_safe other 0 0 (by omega) (by decide)
    rw [show lengthLoop other 0 0 (7 * 0) = .ok (count, n) from read] at safe
    exact lenLen_le_of_lt safe.1 safe.2.2.2

/-- The three functions agree on every number up to the limit, and above it what is
written is not read. -/
theorem variable_byte_integers :
    (∀ n, n ≤ 268435455 → ∃ bytes, IsEncoding n bytes) ∧
      ∀ n, n > 268435455 →
        length (writeRemainingLength [] n).1 = fail .MalformedRemainingLength := by
  refine ⟨fun n small => ⟨encodedLength n, isEncoding_encodedLength small⟩, fun n large => ?_⟩
  have wide : 2 ^ (7 * (4 - 0)) ≤ n := by omega
  have malformed := lengthLoop_malformed [] n 0 0 (by omega) (by decide) wide
  rw [List.append_nil] at malformed
  exact malformed

theorem variable_byte_integers_of_limit :
    (∃ bytes, IsEncoding 268435455 bytes) ∧
      length (writeRemainingLength [] 268435456).1 = fail .MalformedRemainingLength :=
  ⟨variable_byte_integers.1 _ (by decide), variable_byte_integers.2 _ (by decide)⟩

/-! ## The bytes of an integer -/

/-- `count` bytes with this value; the number of bytes need not be the least one. -/
def digits : Nat → Nat → Bytes
  | 0, _ => []
  | 1, value => [.ofNat value]
  | count + 2, value => (.ofNat (value % 128) ||| 128) :: digits (count + 1) (value / 128)

theorem byte_of_last {byte : UInt8} (last : byte.toNat < 128) :
    UInt8.ofNat (byte.toNat % 128) = byte := by
  rw [Nat.mod_eq_of_lt last]
  exact UInt8.ofNat_toNat

theorem byte_of_more {byte : UInt8} (more : ¬byte.toNat < 128) :
    UInt8.ofNat (byte.toNat % 128) ||| 128 = byte := by
  have small := byte.toNat_lt
  have digit : byte.toNat % 128 < 128 := Nat.mod_lt _ (by decide)
  apply UInt8.toNat_inj.mp
  rw [byte_more digit]
  omega

theorem lengthLoop_digits (stream : Bytes) :
    ∀ count len total value, count ≤ 3 → len < 2 ^ (7 * count) →
      lengthLoop stream count len (7 * count) = .ok (total, value) →
      ∃ more, count < total ∧ value = len + more * 2 ^ (7 * count) ∧
        stream.take (total - count) = digits (total - count) more := by
  induction stream with
  | nil =>
    intro count len total value _ _ read
    cases read
  | cons byte stream ih =>
    intro count len total value early low read
    rw [lengthLoop_cons byte stream early low] at read
    by_cases last : byte.toNat < 128
    · rw [if_pos last] at read
      cases read
      refine ⟨byte.toNat % 128, Nat.lt_succ_self _, rfl, ?_⟩
      rw [Nat.add_sub_cancel_left, digits, byte_of_last last]
      rfl
    · rw [if_neg last] at read
      by_cases full : count = 3
      · rw [if_pos full] at read
        cases read
      · rw [if_neg full] at read
        obtain ⟨more, later, same, bytes⟩ :=
          ih _ _ total value (by omega) (width_succ byte low) read
        refine ⟨byte.toNat % 128 + 128 * more, by omega, ?_, ?_⟩
        · have carried : more * 2 ^ (7 * (count + 1)) = 128 * more * 2 ^ (7 * count) := by
            rw [Nat.mul_add, Nat.pow_add, Nat.mul_comm 128, Nat.mul_assoc, Nat.mul_comm 128]
          rw [same, carried, Nat.add_assoc, ← Nat.add_mul]
        · obtain ⟨left, size⟩ : ∃ left, total - count = left + 2 := ⟨total - count - 2, by omega⟩
          have digit : (byte.toNat % 128 + 128 * more) % 128 = byte.toNat % 128 := by omega
          have others : (byte.toNat % 128 + 128 * more) / 128 = more := by omega
          rw [show total - (count + 1) = left + 1 by omega] at bytes
          rw [size, digits, digit, others, byte_of_more last, List.take_succ_cons, bytes]

/-- Value and number of bytes determine the bytes. -/
theorem length_digits {stream : Bytes} {count value : Nat}
    (read : length stream = .ok (count, value)) : stream.take count = digits count value := by
  obtain ⟨more, _, same, bytes⟩ :=
    lengthLoop_digits stream 0 0 count value (by omega) (by decide) read
  rw [Nat.zero_add, Nat.mul_zero, Nat.pow_zero, Nat.mul_one] at same
  rw [same]
  exact bytes

/-- An integer in the least number of bytes stands as it is written. -/
theorem encoded_of_length {stream : Bytes} {n : Nat} (read : length stream = .ok (lenLen n, n)) :
    stream.take (lenLen n) = encodedLength n := by
  have small : n ≤ maxLength := (length_bounds read).2.2.2
  have written := length_digits (length_encoded small [])
  rw [List.append_nil, ← encodedLength_length small, List.take_length] at written
  rw [length_digits read, ← encodedLength_length small, ← written]

end Codec
