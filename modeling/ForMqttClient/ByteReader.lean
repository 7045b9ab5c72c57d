import Mathlib.Algebra.Order.Ring.Nat

/-!
# Readers over a byte stream

A reader takes bytes from the front of a stream. It can fail in two ways: with
an error value of its own, or with a fault, that is, at a partial operation
outside its domain or in a loop that does not end. Two judgements speak about
readers: `Triple` says that no fault is reached and what holds afterwards,
`Reads` says which value a reader takes off which bytes, whatever follows.
-/

namespace ByteReader

inductive Fault where
  | index | slice | splitTo | advance | get | overflow | shift | hang
  deriving DecidableEq, Repr

inductive Failure (ε : Type) where
  | error (error : ε)
  | fault (fault : Fault)
  deriving DecidableEq, Repr

abbrev Outcome (ε α : Type) := Except (Failure ε) α

abbrev Reader (ε α : Type) := StateT (List UInt8) (Except (Failure ε)) α

variable {ε α β : Type}

/-! ## Operations -/

def fail (error : ε) : Outcome ε α := .error (.error error)

def faultAt (fault : Fault) : Outcome ε α := .error (.fault fault)

/-- The narrowest `usize` on which the program is built. -/
def usizeBits : Nat := 32

def add (a b : Nat) : Outcome ε Nat :=
  if a + b < 2 ^ usizeBits then .ok (a + b) else faultAt .overflow

def sub (a b : Nat) : Outcome ε Nat :=
  if b ≤ a then .ok (a - b) else faultAt .overflow

/-- Bits that leave the word are lost; a shift by the width or more is a fault. -/
def shiftLeft (a k : Nat) : Outcome ε Nat :=
  if k < usizeBits then .ok ((a <<< k) % 2 ^ usizeBits) else faultAt .shift

def index (bytes : List UInt8) (i : Nat) : Outcome ε UInt8 :=
  match bytes[i]? with
  | some byte => .ok byte
  | none => faultAt .index

def sliceFrom (bytes : List UInt8) (start : Nat) : Outcome ε (List UInt8) :=
  if start ≤ bytes.length then .ok (bytes.drop start) else faultAt .slice

def remaining : Reader ε Nat := fun stream => .ok (stream.length, stream)

def peek : Reader ε (List UInt8) := fun stream => .ok (stream, stream)

def advance (count : Nat) : Reader ε Unit := fun stream =>
  if count ≤ stream.length then .ok ((), stream.drop count) else faultAt .advance

def splitTo (count : Nat) : Reader ε (List UInt8) := fun stream =>
  if count ≤ stream.length then .ok (stream.take count, stream.drop count)
  else faultAt .splitTo

/-- The checked addition, within a reader. -/
def Reader.add (a b : Nat) : Reader ε Nat := fun stream => do
  return (← ByteReader.add a b, stream)

/-- An error from within a reader. -/
def reject (error : ε) : Reader ε α := fun _ => fail error

def getU8 : Reader ε UInt8
  | a :: stream => .ok (a, stream)
  | _ => faultAt .get

/-- Big endian, as are all integers of the stream. -/
def getU16 : Reader ε UInt16
  | a :: b :: stream => .ok (.ofNat (a.toNat * 256 + b.toNat), stream)
  | _ => faultAt .get

def getU32 : Reader ε UInt32
  | a :: b :: c :: d :: stream =>
    .ok (.ofNat (((a.toNat * 256 + b.toNat) * 256 + c.toNat) * 256 + d.toNat), stream)
  | _ => faultAt .get

/-- `while cursor < bound`, with what the turns collect so far. -/
def belowLoop (turn : α → Nat → Reader ε (α × Nat)) (bound : Nat) :
    Nat → α → Nat → Reader ε α
  | 0, _, _ => fun _ => faultAt .hang
  | fuel + 1, acc, cursor =>
    if cursor < bound then do
      let (acc, cursor) ← turn acc cursor
      belowLoop turn bound fuel acc cursor
    else
      pure acc

/-- A turn takes a byte at least, so there are never more turns than bytes. -/
def whileBelow (turn : α → Nat → Reader ε (α × Nat)) (bound : Nat) (acc : α)
    (cursor : Nat) : Reader ε α := do
  belowLoop turn bound ((← remaining) + 1) acc cursor

def remainingLoop (turn : α → Reader ε α) : Nat → α → Reader ε α
  | 0, _ => fun _ => faultAt .hang
  | fuel + 1, acc => do
    if (← remaining) = 0 then pure acc
    else remainingLoop turn fuel (← turn acc)

/-- `while stream.has_remaining()`. -/
def whileRemaining (turn : α → Reader ε α) (acc : α) : Reader ε α := do
  remainingLoop turn ((← remaining) + 1) acc

/-! ## Freedom from faults -/

/-- No fault, and a value only in `post`. -/
def Outcome.Safe (outcome : Outcome ε α) (post : α → Prop) : Prop :=
  match outcome with
  | .ok value => post value
  | .error (.error _) => True
  | .error (.fault _) => False

/-- From a stream in `pre` the reader reaches no fault, and it returns in `post`. -/
def Triple (pre : List UInt8 → Prop) (reader : Reader ε α)
    (post : α → List UInt8 → Prop) : Prop :=
  ∀ stream, pre stream → Outcome.Safe (reader stream) fun result => post result.1 result.2

namespace Outcome

theorem safe_fail {error : ε} {post : α → Prop} : Safe (fail error) post := trivial

theorem Safe.imp {outcome : Outcome ε α} {post post' : α → Prop}
    (safe : outcome.Safe post) (weaker : ∀ value, post value → post' value) :
    outcome.Safe post' := by
  cases outcome with
  | ok value => exact weaker value safe
  | error failure =>
    cases failure with
    | error e => trivial
    | fault f => exact safe

theorem Safe.bind {outcome : Outcome ε α} {mid : α → Prop} {next : α → Outcome ε β}
    {post : β → Prop} (first : outcome.Safe mid)
    (second : ∀ value, mid value → (next value).Safe post) :
    (outcome >>= next).Safe post := by
  cases outcome with
  | ok value => exact second value first
  | error failure =>
    cases failure with
    | error e => trivial
    | fault f => exact first

theorem Safe.map {outcome : Outcome ε α} {holds : α → Prop} {f : α → β} {post : β → Prop}
    (safe : outcome.Safe holds) (after : ∀ value, holds value → post (f value)) :
    Safe (Except.map f outcome) post := by
  cases outcome with
  | ok value => exact after value safe
  | error failure =>
    cases failure with
    | error e => trivial
    | fault f => exact safe

theorem Safe.no_fault {outcome : Outcome ε α} {post : α → Prop}
    (safe : outcome.Safe post) (f : Fault) : outcome ≠ .error (.fault f) := by
  intro reached
  rw [reached] at safe
  exact safe

end Outcome

namespace Triple

variable {pre pre' : List UInt8 → Prop} {reader : Reader ε α}
variable {post post' : α → List UInt8 → Prop}

theorem weaken (triple : Triple pre reader post)
    (stronger : ∀ stream, pre' stream → pre stream)
    (weaker : ∀ value stream, post value stream → post' value stream) :
    Triple pre' reader post' := by
  intro stream holds
  exact (triple stream (stronger stream holds)).imp fun result => weaker result.1 result.2

theorem pure {value : α} (holds : ∀ stream, pre stream → post value stream) :
    Triple pre (Pure.pure value : Reader ε α) post :=
  fun stream start => holds stream start

theorem bind {mid : α → List UInt8 → Prop} {next : α → Reader ε β}
    {after : β → List UInt8 → Prop} (first : Triple pre reader mid)
    (second : ∀ value, Triple (mid value) (next value) after) :
    Triple pre (reader >>= next) after := by
  intro stream start
  exact (first stream start).bind fun result holds => second result.1 result.2 holds

/-- A computation that leaves the stream alone. -/
theorem lift {outcome : Outcome ε α} {holds : α → Prop} (safe : outcome.Safe holds) :
    Triple pre (liftM outcome : Reader ε α) fun value stream => holds value ∧ pre stream := by
  intro stream start
  cases outcome with
  | ok value => exact ⟨safe, start⟩
  | error failure =>
    cases failure with
    | error e => trivial
    | fault f => exact safe

theorem remaining : Triple pre (ByteReader.remaining : Reader ε Nat) fun _ => pre :=
  fun _ start => start

theorem reject {error : ε} : Triple pre (ByteReader.reject error : Reader ε α) post :=
  fun _ _ => trivial

/-- What is known of a value before the stream is looked at. -/
theorem of_value {known : Prop} (triple : known → Triple pre reader post) :
    Triple (fun stream => known ∧ pre stream) reader post :=
  fun stream start => triple start.1 stream start.2

theorem ite {condition : Prop} [Decidable condition] {other : Reader ε α}
    (yes : condition → Triple pre reader post) (no : ¬condition → Triple pre other post) :
    Triple pre (if condition then reader else other) post := by
  by_cases holds : condition
  · rw [if_pos holds]
    exact yes holds
  · rw [if_neg holds]
    exact no holds

end Triple

/-- The streams of fewer than `n` bytes. -/
def Under (n : Nat) (stream : List UInt8) : Prop := stream.length < n

theorem Triple.belowLoop {turn : α → Nat → Reader ε (α × Nat)} {bound : Nat}
    (keeps : ∀ acc cursor n, cursor < bound →
      Triple (Under (n + 1)) (turn acc cursor) fun _ => Under n) :
    ∀ fuel acc cursor,
      Triple (Under fuel) (belowLoop turn bound fuel acc cursor) fun _ => Under fuel := by
  intro fuel
  induction fuel with
  | zero => exact fun _ _ stream short => absurd short (Nat.not_lt_zero _)
  | succ fuel ih =>
    intro acc cursor
    rw [ByteReader.belowLoop]
    refine Triple.ite (fun below => ?_) (fun _ => Triple.pure fun _ short => short)
    refine (keeps acc cursor fuel below).bind fun result => ?_
    exact (ih result.1 result.2).weaken (fun _ short => short)
      fun _ _ short => Nat.lt_succ_of_lt short

theorem Triple.whileBelow {turn : α → Nat → Reader ε (α × Nat)} {bound : Nat}
    (keeps : ∀ acc cursor n, cursor < bound →
      Triple (Under (n + 1)) (turn acc cursor) fun _ => Under n)
    (n : Nat) (acc : α) (cursor : Nat) :
    Triple (Under n) (whileBelow turn bound acc cursor) fun _ => Under n := by
  intro stream short
  have loop := Triple.belowLoop keeps (stream.length + 1) acc cursor stream (Nat.lt_succ_self _)
  exact loop.imp fun _ shorter => Nat.lt_of_lt_of_le shorter short

theorem Triple.remainingLoop {turn : α → Reader ε α}
    (keeps : ∀ acc n, Triple (fun stream => stream ≠ [] ∧ Under (n + 1) stream) (turn acc)
      fun _ => Under n) :
    ∀ fuel acc,
      Triple (Under fuel) (remainingLoop turn fuel acc) fun _ stream => stream = [] := by
  intro fuel
  induction fuel with
  | zero => exact fun _ stream short => absurd short (Nat.not_lt_zero _)
  | succ fuel ih =>
    intro acc stream short
    cases stream with
    | nil => exact rfl
    | cons byte rest =>
      have turned := keeps acc fuel (byte :: rest) ⟨by simp, short⟩
      exact turned.bind fun result shorter => ih result.1 result.2 shorter

theorem Triple.whileRemaining {turn : α → Reader ε α}
    (keeps : ∀ acc n, Triple (fun stream => stream ≠ [] ∧ Under (n + 1) stream) (turn acc)
      fun _ => Under n)
    (pre : List UInt8 → Prop) (acc : α) :
    Triple pre (whileRemaining turn acc) fun _ stream => stream = [] :=
  fun stream _ =>
    Triple.remainingLoop keeps (stream.length + 1) acc stream (Nat.lt_succ_self _)

/-! ## Reading what was written -/

/-- The reader takes `value` off `bytes`, whatever comes behind them. -/
def Reads (reader : Reader ε α) (bytes : List UInt8) (value : α) : Prop :=
  ∀ rest, reader (bytes ++ rest) = .ok (value, rest)

theorem run_bind_ok {reader : Reader ε α} {next : α → Reader ε β} {stream rest : List UInt8}
    {value : α} (first : reader stream = .ok (value, rest)) :
    (reader >>= next) stream = next value rest := by
  change (reader stream >>= fun result => next result.1 result.2) = next value rest
  rw [first]
  rfl

namespace Reads

theorem pure (value : α) : Reads (Pure.pure value : Reader ε α) [] value := fun _ => rfl

theorem bind {reader : Reader ε α} {next : α → Reader ε β} {first second : List UInt8}
    {value : α} {result : β} (here : Reads reader first value)
    (there : Reads (next value) second result) :
    Reads (reader >>= next) (first ++ second) result := by
  intro rest
  rw [List.append_assoc, run_bind_ok (here (second ++ rest))]
  exact there rest

/-- A step that takes nothing, in front of the rest. -/
theorem bind_nil {reader : Reader ε α} {next : α → Reader ε β} {bytes : List UInt8}
    {value : α} {result : β} (here : Reads reader [] value)
    (there : Reads (next value) bytes result) : Reads (reader >>= next) bytes result :=
  here.bind there

/-- A step behind the bytes that takes nothing more. -/
theorem bind_last {reader : Reader ε α} {next : α → Reader ε β} {bytes : List UInt8}
    {value : α} {result : β} (here : Reads reader bytes value)
    (there : Reads (next value) [] result) : Reads (reader >>= next) bytes result := by
  have whole := here.bind there
  rw [List.append_nil] at whole
  exact whole

theorem lift {outcome : Outcome ε α} {value : α} (here : outcome = .ok value) :
    Reads (liftM outcome : Reader ε α) [] value := by
  subst here
  exact fun _ => rfl

/-- A last step that only computes. -/
theorem map {reader : Reader ε α} {bytes : List UInt8} {value : α}
    (here : Reads reader bytes value) (f : α → β) :
    Reads (reader >>= fun v => Pure.pure (f v)) bytes (f value) := by
  intro rest
  rw [run_bind_ok (here rest)]
  rfl

end Reads

/-- The turns over these bytes bring a loop from one state to another, whatever
comes behind, and leave turns enough for what comes. -/
def Advances (turn : α → Nat → Reader ε (α × Nat)) (bound : Nat) (start : α × Nat)
    (bytes : List UInt8) (stop : α × Nat) : Prop :=
  ∀ fuel rest, (bytes ++ rest).length < fuel → ∃ fuel', rest.length < fuel' ∧
    belowLoop turn bound fuel start.1 start.2 (bytes ++ rest) =
      belowLoop turn bound fuel' stop.1 stop.2 rest

namespace Advances

variable {turn : α → Nat → Reader ε (α × Nat)} {bound : Nat} {start mid stop : α × Nat}

theorem refl (state : α × Nat) : Advances turn bound state [] state :=
  fun fuel _ enough => ⟨fuel, enough, rfl⟩

theorem trans {first second : List UInt8} (here : Advances turn bound start first mid)
    (there : Advances turn bound mid second stop) :
    Advances turn bound start (first ++ second) stop := by
  intro fuel rest enough
  rw [List.append_assoc] at enough ⊢
  obtain ⟨fuel₁, enough₁, same₁⟩ := here fuel (second ++ rest) enough
  obtain ⟨fuel₂, enough₂, same₂⟩ := there fuel₁ rest enough₁
  exact ⟨fuel₂, enough₂, same₁.trans same₂⟩

theorem of_turn {bytes : List UInt8} (below : start.2 < bound) (some : bytes ≠ [])
    (reads : Reads (turn start.1 start.2) bytes stop) :
    Advances turn bound start bytes stop := by
  intro fuel rest enough
  obtain ⟨fuel, rfl⟩ := Nat.exists_eq_succ_of_ne_zero (Nat.ne_of_gt (Nat.zero_lt_of_lt enough))
  have size := List.length_pos_iff.mpr some
  rw [List.length_append] at enough
  refine ⟨fuel, by omega, ?_⟩
  rw [belowLoop, if_pos below, run_bind_ok (reads rest)]

/-- A loop that has reached its bound stops in front of the rest. -/
theorem whileBelow {bytes : List UInt8} (advances : Advances turn bound start bytes stop)
    (reached : bound ≤ stop.2) (rest : List UInt8) :
    whileBelow turn bound start.1 start.2 (bytes ++ rest) = .ok (stop.1, rest) := by
  obtain ⟨fuel, enough, same⟩ := advances _ rest (Nat.lt_succ_self _)
  obtain ⟨fuel, rfl⟩ := Nat.exists_eq_succ_of_ne_zero (Nat.ne_of_gt (Nat.zero_lt_of_lt enough))
  change belowLoop turn bound _ start.1 start.2 (bytes ++ rest) = _
  rw [same, belowLoop, if_neg (Nat.not_lt.mpr reached)]
  rfl

/-- A loop whose next turn fails behind these bytes. -/
theorem whileBelow_fails {bytes rest : List UInt8} {error : ε}
    (advances : Advances turn bound start bytes stop) (below : stop.2 < bound)
    (failed : turn stop.1 stop.2 rest = fail error) :
    ByteReader.whileBelow turn bound start.1 start.2 (bytes ++ rest) = fail error := by
  obtain ⟨fuel, enough, same⟩ := advances _ rest (Nat.lt_succ_self _)
  obtain ⟨fuel, rfl⟩ := Nat.exists_eq_succ_of_ne_zero (Nat.ne_of_gt (Nat.zero_lt_of_lt enough))
  change belowLoop turn bound _ start.1 start.2 (bytes ++ rest) = _
  rw [same, belowLoop, if_pos below]
  change (turn stop.1 stop.2 rest >>= fun taken =>
    belowLoop turn bound fuel taken.1.1 taken.1.2 taken.2) = _
  rw [failed]
  rfl

end Advances

/-- The turns over these bytes count them right, wherever the loop stands. -/
def Counts (turn : α → Nat → Reader ε (α × Nat)) (bound : Nat) (acc : α) (bytes : List UInt8)
    (acc' : α) : Prop :=
  ∀ cursor, cursor + bytes.length ≤ bound →
    Advances turn bound (acc, cursor) bytes (acc', cursor + bytes.length)

namespace Counts

variable {turn : α → Nat → Reader ε (α × Nat)} {bound : Nat} {acc mid acc' : α}

theorem refl (acc : α) : Counts turn bound acc [] acc := fun _ _ => .refl _

theorem trans {first second : List UInt8} (here : Counts turn bound acc first mid)
    (there : Counts turn bound mid second acc') :
    Counts turn bound acc (first ++ second) acc' := by
  intro cursor room
  rw [List.length_append, ← Nat.add_assoc] at room ⊢
  exact (here cursor (by omega)).trans (there (cursor + first.length) room)

end Counts

/-! ## From the result back to the stream -/

theorem run_bind_inv {reader : Reader ε α} {next : α → Reader ε β} {stream rest : List UInt8}
    {result : β} (read : (reader >>= next) stream = .ok (result, rest)) :
    ∃ value mid, reader stream = .ok (value, mid) ∧ next value mid = .ok (result, rest) := by
  change (reader stream >>= fun taken => next taken.1 taken.2) = _ at read
  cases first : reader stream with
  | error failure =>
    rw [first] at read
    cases read
  | ok taken =>
    rw [first] at read
    exact ⟨taken.1, taken.2, rfl, read⟩

theorem run_lift_inv {outcome : Outcome ε α} {stream rest : List UInt8} {value : α}
    (read : (liftM outcome : Reader ε α) stream = .ok (value, rest)) :
    outcome = .ok value ∧ rest = stream := by
  cases outcome with
  | error failure => cases read
  | ok found =>
    cases read
    exact ⟨rfl, rfl⟩

/-- The reader fails with none of these errors. -/
def Avoids (bad : ε → Prop) (reader : Reader ε α) : Prop :=
  ∀ stream error, bad error → reader stream ≠ fail error

section Avoids

variable {bad : ε → Prop}

theorem bind_fails_iff {reader : Reader ε α} {next : α → Reader ε β} {stream : List UInt8}
    {error : ε} :
    (reader >>= next) stream = fail error ↔ reader stream = fail error ∨
      ∃ value mid, reader stream = .ok (value, mid) ∧ next value mid = fail error := by
  constructor
  · intro failed
    change (reader stream >>= fun taken => next taken.1 taken.2) = _ at failed
    cases first : reader stream with
    | error failure =>
      rw [first] at failed
      cases failed
      exact .inl rfl
    | ok taken =>
      rw [first] at failed
      exact .inr ⟨taken.1, taken.2, rfl, failed⟩
  · rintro (failed | ⟨value, mid, first, failed⟩)
    · change (reader stream >>= fun taken => next taken.1 taken.2) = _
      rw [failed]
      rfl
    · rw [run_bind_ok first, failed]

/-- Behind a reader that does not fail so, it is the next one that does. -/
theorem bind_fails_behind {reader : Reader ε α} {next : α → Reader ε β} {stream : List UInt8}
    {error : ε} (avoids : Avoids bad reader) (is_bad : bad error) :
    (reader >>= next) stream = fail error ↔
      ∃ value mid, reader stream = .ok (value, mid) ∧ next value mid = fail error := by
  rw [bind_fails_iff]
  exact or_iff_right (avoids stream error is_bad)

namespace Avoids

theorem pure (value : α) : Avoids bad (Pure.pure value : Reader ε α) :=
  fun _ _ _ failed => by cases failed

theorem reject {error : ε} (good : ¬bad error) :
    Avoids bad (ByteReader.reject error : Reader ε α) := by
  intro stream other is_bad failed
  cases failed
  exact good is_bad

theorem bind {reader : Reader ε α} {next : α → Reader ε β} (first : Avoids bad reader)
    (second : ∀ value, Avoids bad (next value)) : Avoids bad (reader >>= next) := by
  intro stream error is_bad failed
  obtain ⟨value, mid, _, later⟩ := (bind_fails_behind first is_bad).mp failed
  exact second value mid error is_bad later

theorem lift {outcome : Outcome ε α} (clean : ∀ error, bad error → outcome ≠ fail error) :
    Avoids bad (liftM outcome : Reader ε α) := by
  intro stream error is_bad failed
  cases outcome with
  | ok value => cases failed
  | error failure =>
    cases failed
    exact clean error is_bad rfl

theorem ite {condition : Prop} [Decidable condition] {reader other : Reader ε α}
    (yes : Avoids bad reader) (no : Avoids bad other) :
    Avoids bad (if condition then reader else other) := by
  split
  · exact yes
  · exact no

theorem remaining : Avoids bad (ByteReader.remaining : Reader ε Nat) :=
  fun _ _ _ failed => by cases failed

theorem splitTo (count : Nat) : Avoids bad (ByteReader.splitTo count : Reader ε (List UInt8)) := by
  intro stream error _ failed
  rw [ByteReader.splitTo] at failed
  split at failed <;> cases failed

theorem advance (count : Nat) : Avoids bad (ByteReader.advance count : Reader ε Unit) := by
  intro stream error _ failed
  rw [ByteReader.advance] at failed
  split at failed <;> cases failed

theorem add (a b : Nat) : Avoids bad (Reader.add a b : Reader ε Nat) := by
  intro stream error _ failed
  by_cases fits : a + b < 2 ^ usizeBits
  · simp only [Reader.add, ByteReader.add, if_pos fits] at failed
    cases failed
  · simp only [Reader.add, ByteReader.add, if_neg fits] at failed
    cases failed

theorem remainingLoop {turn : α → Reader ε α} (avoids : ∀ acc, Avoids bad (turn acc)) :
    ∀ fuel acc, Avoids bad (ByteReader.remainingLoop turn fuel acc) := by
  intro fuel
  induction fuel with
  | zero => exact fun _ _ _ _ failed => by cases failed
  | succ fuel ih =>
    intro acc
    exact remaining.bind fun _ => .ite (.pure acc) ((avoids acc).bind ih)

theorem whileRemaining {turn : α → Reader ε α} (avoids : ∀ acc, Avoids bad (turn acc))
    (acc : α) : Avoids bad (ByteReader.whileRemaining turn acc) :=
  remaining.bind fun count => remainingLoop avoids (count + 1) acc

end Avoids

end Avoids

/-- The turns that a loop with this bound takes from one state and stream to another. -/
inductive Turns (turn : α → Nat → Reader ε (α × Nat)) (bound : Nat) :
    α × Nat → List UInt8 → α × Nat → List UInt8 → Prop where
  | none (state : α × Nat) (stream : List UInt8) : Turns turn bound state stream state stream
  | one {start mid stop : α × Nat} {stream between rest : List UInt8} (below : start.2 < bound)
      (taken : turn start.1 start.2 stream = .ok (mid, between))
      (later : Turns turn bound mid between stop rest) : Turns turn bound start stream stop rest

namespace Turns

variable {turn : α → Nat → Reader ε (α × Nat)} {bound : Nat}

theorem of_ok (fuel : Nat) :
    ∀ acc cursor stream acc' rest,
      belowLoop turn bound fuel acc cursor stream = .ok (acc', rest) →
      ∃ cursor', bound ≤ cursor' ∧ Turns turn bound (acc, cursor) stream (acc', cursor') rest := by
  induction fuel with
  | zero =>
    intro acc cursor stream acc' rest read
    cases read
  | succ fuel ih =>
    intro acc cursor stream acc' rest read
    rw [belowLoop] at read
    by_cases below : cursor < bound
    · rw [if_pos below] at read
      obtain ⟨mid, between, taken, read⟩ := run_bind_inv read
      obtain ⟨cursor', reached, later⟩ := ih mid.1 mid.2 between acc' rest read
      exact ⟨cursor', reached, .one below taken later⟩
    · rw [if_neg below] at read
      cases read
      exact ⟨cursor, Nat.le_of_not_lt below, .none _ _⟩

theorem of_fail {error : ε} (fuel : Nat) :
    ∀ acc cursor stream, belowLoop turn bound fuel acc cursor stream = fail error →
      ∃ stop rest, Turns turn bound (acc, cursor) stream stop rest ∧ stop.2 < bound ∧
        turn stop.1 stop.2 rest = fail error := by
  induction fuel with
  | zero =>
    intro acc cursor stream failed
    cases failed
  | succ fuel ih =>
    intro acc cursor stream failed
    rw [belowLoop] at failed
    by_cases below : cursor < bound
    · rw [if_pos below] at failed
      change (turn acc cursor stream >>= fun taken =>
        belowLoop turn bound fuel taken.1.1 taken.1.2 taken.2) = _ at failed
      cases taken : turn acc cursor stream with
      | error failure =>
        rw [taken] at failed
        cases failed
        exact ⟨(acc, cursor), stream, .none _ _, below, taken⟩
      | ok result =>
        rw [taken] at failed
        obtain ⟨stop, rest, later, inside, last⟩ := ih result.1.1 result.1.2 result.2 failed
        exact ⟨stop, rest, .one below taken later, inside, last⟩
    · rw [if_neg below] at failed
      cases failed

end Turns

/-! ## Lists up to the end -/

/-- One value after another, until the stream is empty. -/
def readAll (item : Reader ε α) : Reader ε (List α) :=
  whileRemaining (fun values => do return values ++ [← item]) []

section Lists

variable {item : Reader ε β} {put : α → List UInt8} {result : α → β}

theorem remainingLoop_reads (some : ∀ value, put value ≠ []) (values : List α) :
    ∀ fuel before, (values.flatMap put).length < fuel →
      (∀ value ∈ values, Reads item (put value) (result value)) →
      remainingLoop (fun values => do return values ++ [← item]) fuel before (values.flatMap put) =
        .ok (before ++ values.map result, []) := by
  induction values with
  | nil =>
    intro fuel before enough _
    obtain ⟨fuel, rfl⟩ := Nat.exists_eq_succ_of_ne_zero (Nat.ne_of_gt enough)
    rw [List.map_nil, List.append_nil]
    rfl
  | cons value values ih =>
    intro fuel before enough reads
    obtain ⟨fuel, rfl⟩ :=
      Nat.exists_eq_succ_of_ne_zero (Nat.ne_of_gt (Nat.zero_lt_of_lt enough))
    have size := List.length_pos_iff.mpr (some value)
    rw [List.flatMap_cons, List.length_append] at enough
    have there : (put value ++ values.flatMap put).length ≠ 0 := by
      rw [List.length_append]
      omega
    have turn := (reads value List.mem_cons_self).map (fun v => before ++ [v])
    have later := ih fuel (before ++ [result value]) (by omega)
      fun w member => reads w (List.mem_cons_of_mem _ member)
    rw [List.flatMap_cons, remainingLoop]
    change (if _ = 0 then _ else _ : Reader ε (List β)) _ = _
    rw [if_neg there]
    refine (run_bind_ok (turn _)).trans ?_
    rw [later, List.append_assoc, List.singleton_append, List.map_cons]

theorem readAll_reads {values : List α} (some : ∀ value, put value ≠ [])
    (reads : ∀ value ∈ values, Reads item (put value) (result value)) :
    readAll item (values.flatMap put) = .ok (values.map result, []) :=
  remainingLoop_reads some values _ [] (Nat.lt_succ_self _) reads

end Lists

end ByteReader
