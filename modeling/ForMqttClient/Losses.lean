import Mathlib.Data.List.Basic
import Mathlib.Data.List.Perm.Subperm

/-!
# What gets through and what is lost

A sequence is passed on through stages that may lose some of it. What gets
through keeps its order, and together with what is lost it is the whole of the
sequence, nothing twice. Nothing here names a program.
-/

namespace Losses

universe u
variable {α : Type u} {kept lost all older newer item : List α}

/-- `kept` is what is left of `all` without `lost`, in the order of `all`. -/
structure Shares (kept lost all : List α) : Prop where
  order : kept.Sublist all
  share : (kept ++ lost).Perm all

theorem Shares.whole (all : List α) : Shares all [] all :=
  ⟨List.Sublist.refl all, List.Perm.of_eq (List.append_nil all)⟩

/-- What comes in new comes behind all that there is. -/
theorem Shares.append (h : Shares kept lost all) (new : List α) :
    Shares (kept ++ new) lost (all ++ new) := by
  refine ⟨h.order.append (List.Sublist.refl new), ?_⟩
  have swap : (new ++ lost).Perm (lost ++ new) := List.perm_append_comm
  rw [List.append_assoc]
  refine (swap.append_left kept).trans ?_
  rw [← List.append_assoc]
  exact h.share.append_right new

/-- An item is lost wherever it stands. -/
theorem Shares.lose (h : Shares (older ++ item ++ newer) lost all) :
    Shares (older ++ newer) (lost ++ item) all := by
  refine ⟨?_, ?_⟩
  · exact ((List.sublist_append_left older item).append (List.Sublist.refl newer)).trans h.order
  · have back : (newer ++ lost ++ item).Perm (item ++ (newer ++ lost)) := List.perm_append_comm
    refine List.Perm.trans ?_ h.share
    rw [List.append_assoc, ← List.append_assoc newer, List.append_assoc older,
      List.append_assoc older, List.append_assoc item]
    exact back.append_left older

theorem Shares.length (h : Shares kept lost all) : kept.length + lost.length = all.length := by
  rw [← List.length_append]
  exact h.share.length_eq

/-- Nothing is missing if nothing was lost. -/
theorem Shares.eq_iff (h : Shares kept lost all) : kept = all ↔ lost = [] := by
  have length := h.length
  constructor
  · intro same
    rw [same] at length
    exact List.eq_nil_of_length_eq_zero (by omega)
  · rintro rfl
    exact h.order.eq_of_length length

end Losses
