import Mathlib.Algebra.Order.Floor.Ring
import Mathlib.Analysis.Real.Sqrt
import Mathlib.Analysis.SpecialFunctions.Trigonometric.Basic
import Gemacast.Core.Binary32

/-!
# Exact arithmetic

The real numbers as an instance of the single-precision operations: nothing is rounded and
nothing overflows. A statement about the formulas of the code, and not about their
rounding, is a statement about this instance.
-/

namespace Gemacast.Core

/-- A real number as a sample or a parameter. -/
@[ext]
structure Exact where
  /-- The number. -/
  val : ℝ

/-- The number that a binary32 number stands for; infinities and NaN stand for none. -/
noncomputable def SoftFloat.toReal : SoftFloat → ℝ
  | .finite negative mantissa exponent => (if negative then -1 else 1) * mantissa * 2 ^ exponent
  | _ => 0

namespace Exact

open Classical in
/-- There is no number below all others: `negInfinity` is below every correlation. -/
noncomputable instance : Binary32 Exact where
  add a b := ⟨a.val + b.val⟩
  sub a b := ⟨a.val - b.val⟩
  mul a b := ⟨a.val * b.val⟩
  div a b := ⟨a.val / b.val⟩
  lt a b := a.val < b.val
  le a b := a.val ≤ b.val
  beq a b := decide (a.val = b.val)
  default := ⟨0⟩
  ofNat n := ⟨n⟩
  ofDecimal m k := ⟨m / 10 ^ k⟩
  ofBytes bytes := ⟨(SoftFloat.ofBytes bytes).toReal⟩
  toNat a := min ⌊a.val⌋₊ (2 ^ 32 - 1)
  negInfinity := ⟨-2⟩
  pi := ⟨Real.pi⟩
  abs a := ⟨|a.val|⟩
  sqrt a := ⟨Real.sqrt a.val⟩
  cos a := ⟨Real.cos a.val⟩
  ceil a := ⟨⌈a.val⌉⟩
  round a := ⟨if 0 ≤ a.val then ⌊a.val + 1 / 2⌋ else -⌊1 / 2 - a.val⌋⟩
  powi a n := ⟨a.val ^ n⟩
  maximum a b := ⟨max a.val b.val⟩
  minimum a b := ⟨min a.val b.val⟩
  decLt a b := Classical.dec (a.val < b.val)
  decLe a b := Classical.dec (a.val ≤ b.val)

variable (a b : Exact)

@[simp] theorem add_val : (a + b).val = a.val + b.val := rfl

@[simp] theorem sub_val : (a - b).val = a.val - b.val := rfl

@[simp] theorem mul_val : (a * b).val = a.val * b.val := rfl

@[simp] theorem div_val : (a / b).val = a.val / b.val := rfl

@[simp] theorem ofNat_val (n : ℕ) : (Binary32.ofNat n : Exact).val = n := rfl

@[simp] theorem ofDecimal_val (m k : ℕ) : (Binary32.ofDecimal m k : Exact).val = m / 10 ^ k := rfl

@[simp] theorem pi_val : (Binary32.pi : Exact).val = Real.pi := rfl

@[simp] theorem cos_val : (Binary32.cos a).val = Real.cos a.val := rfl

/-- A decimal literal is the number it denotes. -/
@[simp] theorem literal_val (m k : ℕ) :
    (OfScientific.ofScientific m true k : Exact).val = m / 10 ^ k := rfl

end Exact

end Gemacast.Core
