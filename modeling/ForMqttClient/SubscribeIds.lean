import Mathlib.Logic.Basic

/-!
# Subscription identifiers

`SubscribeId::id()` draws its numbers from a counter that all callers share. The
call that finds the counter past the limit sets it back to 1 and returns 1, but
it leaves the 1 in the counter, so the next call returns 1 as well.
-/

namespace SubscribeIds

/-! ## The counter -/

/-- `SUBSCRIBE_ID` before the first call. -/
def SUBSCRIBE_ID : UInt32 := 1

/-- `SubscribeId::id`: the identifier, and the counter behind the call. -/
def id (counter : UInt32) : UInt32 × UInt32 :=
  let id := counter
  let counter := counter + 1
  if id = 0 ∨ id > 268435455 then
    let counter := 1
    (counter, counter)
  else
    (id, counter)

/-- The counter behind so many calls. -/
def counterAfter : Nat → UInt32
  | 0 => SUBSCRIBE_ID
  | calls + 1 => (id (counterAfter calls)).2

/-- What the call behind so many others returns. -/
def idAfter (calls : Nat) : UInt32 := (id (counterAfter calls)).1

/-- The calls of a run return numbers of the protocol, and a number comes again
only when all the others had their turn. -/
structure Distinct (calls : Nat) : Prop where
  in_range : ∀ call, call < calls → 1 ≤ idAfter call ∧ idAfter call ≤ 268435455
  no_early_repeat : ∀ first second, first < second → second < calls →
    second - first < 268435455 → idAfter first ≠ idAfter second

/-! ## Its value -/

theorem id_within {counter : UInt32} (some : 1 ≤ counter.toNat)
    (small : counter.toNat ≤ 268435455) : id counter = (counter, counter + 1) := by
  have inside : ¬(counter = 0 ∨ counter > 268435455) := by
    rintro (zero | past)
    · rw [zero] at some
      exact absurd some (by decide)
    · have larger : 268435455 < counter.toNat := UInt32.lt_iff_toNat_lt.mp past
      omega
  rw [id, if_neg inside]

theorem id_past {counter : UInt32} (past : 268435455 < counter.toNat) : id counter = (1, 1) := by
  have outside : counter = 0 ∨ counter > 268435455 := .inr (UInt32.lt_iff_toNat_lt.mpr past)
  rw [id, if_pos outside]

/-- The counter has a period of one call more than there are identifiers. -/
theorem counterAfter_toNat (calls : Nat) : (counterAfter calls).toNat = calls % 268435456 + 1 := by
  induction calls with
  | zero => rfl
  | succ calls ih =>
    rw [counterAfter]
    by_cases last : calls % 268435456 = 268435455
    · rw [id_past (by omega)]
      change 1 = _
      omega
    · rw [id_within (by omega) (by omega)]
      have sum : (counterAfter calls + 1).toNat = ((counterAfter calls).toNat + 1) % 2 ^ 32 :=
        UInt32.toNat_add _ _
      rw [sum]
      omega

theorem idAfter_of_last {calls : Nat} (last : calls % 268435456 = 268435455) :
    (idAfter calls).toNat = 1 := by
  have value := counterAfter_toNat calls
  rw [idAfter, id_past (by omega)]
  rfl

theorem idAfter_of_not_last {calls : Nat} (other : calls % 268435456 ≠ 268435455) :
    (idAfter calls).toNat = calls % 268435456 + 1 := by
  have value := counterAfter_toNat calls
  rw [idAfter, id_within (by omega) (by omega)]
  exact value

theorem idAfter_in_range (calls : Nat) : 1 ≤ idAfter calls ∧ idAfter calls ≤ 268435455 := by
  rw [UInt32.le_iff_toNat_le, UInt32.le_iff_toNat_le]
  change 1 ≤ _ ∧ _ ≤ 268435455
  by_cases last : calls % 268435456 = 268435455
  · rw [idAfter_of_last last]
    decide
  · rw [idAfter_of_not_last last]
    omega

/-- The two calls behind the last identifier return the same. -/
theorem repeated : idAfter 268435455 = idAfter 268435456 := by
  apply UInt32.toNat_inj.mp
  rw [idAfter_of_last (by decide), idAfter_of_not_last (by decide)]

/-- A run is right up to and with the first call behind the last identifier. -/
theorem distinct_iff_one_past (calls : Nat) : Distinct calls ↔ calls ≤ 268435456 := by
  constructor
  · intro distinct
    apply Nat.le_of_not_lt
    intro more
    exact distinct.no_early_repeat _ _ (by decide) more (by decide) repeated
  · intro few
    refine ⟨fun call _ => idAfter_in_range call, ?_⟩
    intro first second before within near same
    have values := congrArg UInt32.toNat same
    rw [idAfter_of_not_last (by omega)] at values
    by_cases last : second % 268435456 = 268435455
    · rw [idAfter_of_last last] at values
      omega
    · rw [idAfter_of_not_last last] at values
      omega

theorem one_twice_in_turn :
    idAfter 268435455 = 1 ∧ idAfter 268435456 = 1 ∧ ¬Distinct 268435457 := by
  have first : idAfter 268435455 = 1 := by
    apply UInt32.toNat_inj.mp
    rw [idAfter_of_last (by decide)]
    rfl
  refine ⟨first, repeated.symm.trans first, fun distinct => ?_⟩
  exact distinct.no_early_repeat _ _ (by decide) (by decide) (by decide) repeated

end SubscribeIds
