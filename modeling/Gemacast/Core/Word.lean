import Mathlib.Algebra.GroupWithZero.Nat
import Mathlib.Tactic.Common

/-!
# Unsigned 64-bit words

The saturating operations of unsigned words, read as natural numbers. Plain
addition wraps; `toNat_add_of_lt` says when it does not.
-/

namespace Gemacast.Core

/-- Subtraction that stops at zero. -/
def saturatingSub (a b : UInt64) : UInt64 := if a < b then 0 else a - b

/-- The distance between two words. -/
def absDiff (a b : UInt64) : UInt64 := if a < b then b - a else a - b

/-- Saturating subtraction is truncated subtraction. -/
@[simp] theorem toNat_saturatingSub (a b : UInt64) :
    (saturatingSub a b).toNat = a.toNat - b.toNat := by
  unfold saturatingSub
  split
  · rename_i h
    have := UInt64.lt_iff_toNat_lt.mp h
    simp only [UInt64.toNat_zero]
    omega
  · rename_i h
    exact UInt64.toNat_sub_of_le _ _ (UInt64.not_lt.mp h)

/-- The distance is the larger of the two truncated differences. -/
@[simp] theorem toNat_absDiff (a b : UInt64) :
    (absDiff a b).toNat = (a.toNat - b.toNat) + (b.toNat - a.toNat) := by
  unfold absDiff
  split
  · rename_i h
    have hlt := UInt64.lt_iff_toNat_lt.mp h
    rw [UInt64.toNat_sub_of_le _ _ (UInt64.le_of_lt h)]
    omega
  · rename_i h
    have hle := UInt64.le_iff_toNat_le.mp (UInt64.not_lt.mp h)
    rw [UInt64.toNat_sub_of_le _ _ (UInt64.not_lt.mp h)]
    omega

/-- The minimum of two words is the minimum of their values. -/
@[simp] theorem toNat_min (a b : UInt64) : (min a b).toNat = min a.toNat b.toNat := by
  change (if a ≤ b then a else b).toNat = _
  split
  · rename_i h
    exact (Nat.min_eq_left (UInt64.le_iff_toNat_le.mp h)).symm
  · rename_i h
    have := UInt64.lt_iff_toNat_lt.mp (UInt64.not_le.mp h)
    omega

/-- The minimum of two words is one of them. -/
theorem min_eq_or (a b : UInt64) : min a b = a ∨ min a b = b := by
  change (if a ≤ b then a else b) = a ∨ (if a ≤ b then a else b) = b
  split
  · exact Or.inl rfl
  · exact Or.inr rfl

/-- What lies below the minimum of two words lies below both. -/
theorem le_of_le_min {a b c : UInt64} (h : c ≤ min a b) : c ≤ a ∧ c ≤ b := by
  rw [UInt64.le_iff_toNat_le, toNat_min] at h
  exact ⟨UInt64.le_iff_toNat_le.mpr (by omega), UInt64.le_iff_toNat_le.mpr (by omega)⟩

/-- The maximum of two words is the maximum of their values. -/
@[simp] theorem toNat_max (a b : UInt64) : (max a b).toNat = max a.toNat b.toNat := by
  change (if a ≤ b then b else a).toNat = _
  split
  · rename_i h
    exact (Nat.max_eq_right (UInt64.le_iff_toNat_le.mp h)).symm
  · rename_i h
    have := UInt64.lt_iff_toNat_lt.mp (UInt64.not_le.mp h)
    omega

/-- A sum that fits is the sum of the values. -/
theorem toNat_add_of_lt {a b : UInt64} (h : a.toNat + b.toNat < 2 ^ 64) :
    (a + b).toNat = a.toNat + b.toNat := by
  rw [UInt64.toNat_add]
  exact Nat.mod_eq_of_lt h

/-- Addition that has no result where the sum is no word. -/
def checkedAdd (a b : UInt64) : Option UInt64 :=
  if a.toNat + b.toNat < 2 ^ 64 then some (a + b) else none

theorem checkedAdd_eq {a b : UInt64} (h : a.toNat + b.toNat < 2 ^ 64) :
    checkedAdd a b = some (a + b) :=
  if_pos h

end Gemacast.Core
