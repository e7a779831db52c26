import Mathlib.Algebra.Order.Field.Power
import Mathlib.Algebra.Order.Floor.Ring
import Mathlib.Data.Int.Log
import Mathlib.Data.Rat.Floor
import Mathlib.Tactic.Linarith
import Mathlib.Tactic.NormNum
import Mathlib.Tactic.Ring

/-!
# Rounding to a binary floating-point grid

Rounding a rational to the nearest integer, ties to even, and a positive rational to
the grid of numbers with a bounded mantissa and a least exponent. Both are monotone,
also across the steps of the grid.
-/

namespace Gemacast.Core

/-- The nearest integer, the even one of two. -/
def roundEven (a : ℚ) : ℤ :=
  if 1 / 2 < Int.fract a ∨ Int.fract a = 1 / 2 ∧ ⌊a⌋ % 2 = 1 then ⌊a⌋ + 1 else ⌊a⌋

theorem floor_le_roundEven (a : ℚ) : ⌊a⌋ ≤ roundEven a := by
  unfold roundEven
  split <;> omega

theorem roundEven_le_floor_add_one (a : ℚ) : roundEven a ≤ ⌊a⌋ + 1 := by
  unfold roundEven
  split <;> omega

@[simp] theorem roundEven_intCast (n : ℤ) : roundEven n = n := by
  simp [roundEven]

/-- Rounding to the nearest integer is monotone. -/
theorem roundEven_mono {a b : ℚ} (h : a ≤ b) : roundEven a ≤ roundEven b := by
  rcases (Int.floor_mono h).lt_or_eq with hlt | heq
  · have hle := roundEven_le_floor_add_one a
    have hge := floor_le_roundEven b
    omega
  · have hfract : Int.fract a ≤ Int.fract b := by
      rw [Int.fract, Int.fract, heq]
      linarith
    unfold roundEven
    rw [← heq]
    by_cases ha : 1 / 2 < Int.fract a ∨ Int.fract a = 1 / 2 ∧ ⌊a⌋ % 2 = 1
    · have hb : 1 / 2 < Int.fract b ∨ Int.fract b = 1 / 2 ∧ ⌊a⌋ % 2 = 1 := by
        rcases ha with hup | ⟨htie, hodd⟩
        · exact Or.inl (lt_of_lt_of_le hup hfract)
        · rcases hfract.lt_or_eq with hlt | htie'
          · exact Or.inl (by linarith)
          · exact Or.inr ⟨htie' ▸ htie, hodd⟩
      rw [if_pos ha, if_pos hb]
    · rw [if_neg ha]
      split <;> omega

section Grid

variable (precision : ℕ) (minExponent : ℤ)

/-- The exponent of the grid around a positive number. -/
def gridExponent (x : ℚ) : ℤ := max (Int.log 2 x + 1 - precision) minExponent

/-- The nearest number of the grid. -/
def roundGrid (x : ℚ) : ℚ :=
  roundEven (x / 2 ^ gridExponent precision minExponent x) *
    2 ^ gridExponent precision minExponent x

variable {precision : ℕ} {minExponent : ℤ} {x y : ℚ}

theorem gridExponent_mono (hx : 0 < x) (h : x ≤ y) :
    gridExponent precision minExponent x ≤ gridExponent precision minExponent y := by
  have hlog := Int.log_mono_right (b := 2) hx h
  unfold gridExponent
  omega

theorem zpow_grid_pos (t : ℤ) : (0 : ℚ) < 2 ^ t := zpow_pos (by norm_num) t

/-- A number is below the next binade of its grid. -/
theorem lt_next_binade (x : ℚ) : x < 2 ^ (gridExponent precision minExponent x + precision) := by
  have hlt : x < ((2 : ℕ) : ℚ) ^ (Int.log 2 x + 1) := Int.lt_zpow_succ_log_self (by decide) x
  refine lt_of_lt_of_le (by exact_mod_cast hlt) (zpow_le_zpow_right₀ (by norm_num) ?_)
  unfold gridExponent
  omega

/-- A rounded number is at most the next binade. -/
theorem roundGrid_le_next_binade (x : ℚ) :
    roundGrid precision minExponent x ≤ 2 ^ (gridExponent precision minExponent x + precision) := by
  have hpos := zpow_grid_pos (gridExponent precision minExponent x)
  have hle : x / 2 ^ gridExponent precision minExponent x ≤ ((2 ^ precision : ℤ) : ℚ) := by
    rw [div_le_iff₀ hpos]
    refine (@lt_next_binade precision minExponent x).le.trans_eq ?_
    rw [zpow_add₀ (by norm_num)]
    push_cast
    rw [zpow_natCast, mul_comm]
  have hround := roundEven_mono hle
  rw [roundEven_intCast] at hround
  rw [roundGrid, zpow_add₀ (by norm_num), mul_comm]
  refine mul_le_mul_of_nonneg_left ?_ hpos.le
  rw [zpow_natCast]
  exact_mod_cast hround

/-- A number whose binade is above the least exponent does not leave it downwards. -/
theorem binade_le_roundGrid (hprecision : 0 < precision) (hx : 0 < x)
    (h : minExponent < gridExponent precision minExponent x) :
    2 ^ (gridExponent precision minExponent x + precision - 1) ≤
      roundGrid precision minExponent x := by
  have hpos := zpow_grid_pos (gridExponent precision minExponent x)
  have hlog : gridExponent precision minExponent x = Int.log 2 x + 1 - precision := by
    unfold gridExponent at h ⊢
    omega
  have hsplit : (2 : ℚ) ^ (gridExponent precision minExponent x + precision - 1) =
      ((2 ^ (precision - 1) : ℤ) : ℚ) * 2 ^ gridExponent precision minExponent x := by
    rw [← Nat.sub_add_cancel hprecision]
    push_cast
    rw [← zpow_natCast, ← zpow_add₀ (by norm_num)]
    congr 1
    omega
  have hge : ((2 ^ (precision - 1) : ℤ) : ℚ) ≤ x / 2 ^ gridExponent precision minExponent x := by
    rw [le_div_iff₀ hpos, ← hsplit, hlog]
    have hle : ((2 : ℕ) : ℚ) ^ Int.log 2 x ≤ x := Int.zpow_log_le_self (by decide) hx
    refine le_trans (le_of_eq ?_) hle
    push_cast
    congr 1
    omega
  have hround := roundEven_mono hge
  rw [roundEven_intCast] at hround
  rw [hsplit, roundGrid]
  refine mul_le_mul_of_nonneg_right ?_ hpos.le
  exact_mod_cast hround

@[simp] theorem roundGrid_zero : roundGrid precision minExponent 0 = 0 := by
  have hzero := roundEven_intCast 0
  rw [Int.cast_zero] at hzero
  rw [roundGrid, zero_div, hzero, Int.cast_zero, zero_mul]

theorem roundGrid_nonneg (hx : 0 ≤ x) : 0 ≤ roundGrid precision minExponent x := by
  have hpos := zpow_grid_pos (gridExponent precision minExponent x)
  have hscaled : ((0 : ℤ) : ℚ) ≤ x / 2 ^ gridExponent precision minExponent x := by
    rw [Int.cast_zero]
    exact div_nonneg hx hpos.le
  have hround := roundEven_mono hscaled
  rw [roundEven_intCast] at hround
  exact mul_nonneg (by exact_mod_cast hround) hpos.le

/-- Rounding to the grid is monotone. -/
theorem roundGrid_mono (hprecision : 0 < precision) (hx : 0 ≤ x) (h : x ≤ y) :
    roundGrid precision minExponent x ≤ roundGrid precision minExponent y := by
  rcases hx.eq_or_lt with rfl | hx
  · rw [roundGrid_zero]
    exact roundGrid_nonneg h
  rcases (@gridExponent_mono precision minExponent _ _ hx h).lt_or_eq with hlt | heq
  · have hmin : minExponent ≤ gridExponent precision minExponent x := le_max_right _ _
    calc roundGrid precision minExponent x
        ≤ 2 ^ (gridExponent precision minExponent x + precision) := roundGrid_le_next_binade x
      _ ≤ 2 ^ (gridExponent precision minExponent y + precision - 1) :=
        zpow_le_zpow_right₀ (by norm_num) (by omega)
      _ ≤ roundGrid precision minExponent y :=
        binade_le_roundGrid hprecision (hx.trans_le h) (by omega)
  · have hpos := zpow_grid_pos (gridExponent precision minExponent y)
    rw [roundGrid, roundGrid, heq]
    refine mul_le_mul_of_nonneg_right ?_ hpos.le
    exact_mod_cast roundEven_mono (div_le_div_of_nonneg_right h hpos.le)

/-- A whole number of few digits is on the grid. -/
theorem roundGrid_natCast (hmin : minExponent ≤ 0) {n : ℕ} (hn : n < 2 ^ precision) :
    roundGrid precision minExponent n = n := by
  rcases n.eq_zero_or_pos with rfl | hpos
  · rw [Nat.cast_zero, roundGrid_zero]
  have hlog : Nat.log 2 n < precision := Nat.log_lt_of_lt_pow hpos.ne' hn
  have hexponent : gridExponent precision minExponent n ≤ 0 := by
    rw [gridExponent, Int.log_natCast]
    omega
  obtain ⟨k, hk⟩ : ∃ k : ℕ, gridExponent precision minExponent n = -k :=
    ⟨(-gridExponent precision minExponent n).toNat, by omega⟩
  have hwhole : (n : ℚ) / 2 ^ (-(k : ℤ)) = ((n * 2 ^ k : ℤ) : ℚ) := by
    rw [zpow_neg, div_inv_eq_mul, zpow_natCast]
    push_cast
    rfl
  rw [roundGrid, hk, hwhole, roundEven_intCast, ← hwhole, div_mul_cancel₀ _ (zpow_grid_pos _).ne']

end Grid

end Gemacast.Core
