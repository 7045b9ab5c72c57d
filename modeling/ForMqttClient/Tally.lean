import Mathlib.Data.List.Basic

/-!
# Tallies over a list of parties

Each party of a system weighs something; the tally is the sum. The rules say
how it changes when one party is replaced and when parties are appended.
Nothing here names a program.
-/

namespace Tally

universe u
variable {α : Type u} (f : α → Nat)

def tally : List α → Nat
  | [] => 0
  | a :: rest => f a + tally rest

variable {f} {parties : List α} {i : Nat} {a b : α}

@[simp] theorem tally_append (parties more : List α) :
    tally f (parties ++ more) = tally f parties + tally f more := by
  induction parties with
  | nil => simp [tally]
  | cons a rest ih =>
    simp only [List.cons_append, tally, ih]
    omega

@[simp] theorem tally_singleton (a : α) : tally f [a] = f a := by
  simp [tally]

/-- Replacing a party trades its weight for that of the new one. -/
theorem tally_set (h : parties[i]? = some a) :
    tally f (parties.set i b) + f a = tally f parties + f b := by
  induction parties generalizing i with
  | nil => cases h
  | cons first rest ih =>
    cases i with
    | zero =>
      obtain rfl := Option.some.inj h
      simp only [List.set_cons_zero, tally]
      omega
    | succ i =>
      have tail := ih (i := i) (by simpa using h)
      simp only [List.set_cons_succ, tally]
      omega

theorem le_tally (h : parties[i]? = some a) : f a ≤ tally f parties := by
  induction parties generalizing i with
  | nil => cases h
  | cons first rest ih =>
    cases i with
    | zero =>
      obtain rfl := Option.some.inj h
      exact Nat.le_add_right _ _
    | succ i => exact Nat.le_trans (ih h) (Nat.le_add_left _ _)

theorem tally_set_le (h : parties[i]? = some a) (hle : f b ≤ f a) :
    tally f (parties.set i b) ≤ tally f parties := by
  have := tally_set (f := f) (b := b) h
  omega

end Tally
