import Mathlib.Data.List.Perm.Basic

/-!
# Bounded rings and the conservation of a resource

A ring is a first-in first-out buffer that never holds more than its
capacity. `Conserved` is the accounting law of a resource that is either free
or held: both parts together are always the same multiset. Nothing here names
a program.
-/

namespace BoundedRing

universe u
variable {α : Type u} {capacity : Nat}

/-- A first-in first-out buffer whose size bound is part of the value. -/
structure Ring (α : Type u) (capacity : Nat) where
  items : List α
  bounded : items.length ≤ capacity

theorem length_snoc_le {items : List α} (h : items.length < capacity) (a : α) :
    (items ++ [a]).length ≤ capacity := by
  rw [List.length_append]
  exact h

/-- Append at the back; refused when the ring is full. -/
def Ring.push (r : Ring α capacity) (a : α) : Option (Ring α capacity) :=
  if h : r.items.length < capacity then
    some ⟨r.items ++ [a], length_snoc_le h a⟩
  else none

/-- Remove the front; refused when the ring is empty. -/
def Ring.pop (r : Ring α capacity) : Option (α × Ring α capacity) :=
  match r with
  | ⟨[], _⟩ => none
  | ⟨a :: rest, h⟩ => some (a, ⟨rest, Nat.le_of_succ_le h⟩)

theorem Ring.pop_eq_some {r r' : Ring α capacity} {a : α} (h : r.pop = some (a, r')) :
    r.items = a :: r'.items := by
  obtain ⟨items, hb⟩ := r
  cases items with
  | nil => cases h
  | cons b rest =>
    obtain ⟨rfl, rfl⟩ := Prod.mk.inj (Option.some.inj h)
    rfl

theorem Ring.pop_eq_none {r : Ring α capacity} : r.pop = none ↔ r.items = [] := by
  obtain ⟨items, hb⟩ := r
  cases items <;> simp [pop]

theorem Ring.push_eq_some {r r' : Ring α capacity} {a : α} (h : r.push a = some r') :
    r'.items = r.items ++ [a] := by
  unfold push at h
  split at h
  · exact (Option.some.inj h) ▸ rfl
  · cases h

theorem Ring.push_isSome {r : Ring α capacity} {a : α} (h : r.items.length < capacity) :
    ∃ r', r.push a = some r' :=
  ⟨_, by rw [push, dif_pos h]⟩

/-- The free and the held part together are exactly `all`. -/
def Conserved (all free held : List α) : Prop := (free ++ held).Perm all

variable {all free held : List α}

theorem Conserved.acquire {a : α} (h : Conserved all (a :: free) held) :
    Conserved all free (held ++ [a]) := by
  have swap : (free ++ (held ++ [a])).Perm (a :: free ++ held) := by
    rw [← List.append_assoc]
    exact List.perm_append_singleton a (free ++ held)
  exact swap.trans h

theorem Conserved.release {i : Nat} (h : Conserved all free held) (hi : i < held.length) :
    Conserved all (free ++ [held[i]]) (held.eraseIdx i) := by
  have move : (free ++ [held[i]] ++ held.eraseIdx i).Perm (free ++ held) := by
    rw [List.append_assoc, List.singleton_append]
    exact (List.getElem_cons_eraseIdx_perm hi).append_left free
  exact move.trans h

theorem Conserved.nodup (h : Conserved all free held) (hall : all.Nodup) :
    (free ++ held).Nodup :=
  h.nodup_iff.mpr hall

theorem Conserved.held_nodup (h : Conserved all free held) (hall : all.Nodup) :
    held.Nodup :=
  (List.nodup_append.mp (h.nodup hall)).2.1

/-- While something is held, the free part is smaller than the whole. -/
theorem Conserved.room (h : Conserved all free held) (hheld : 0 < held.length) :
    free.length < all.length := by
  have := h.length_eq
  simp at this
  omega

end BoundedRing
