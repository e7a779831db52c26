import Mathlib.Algebra.Order.Floor.Semifield
import Gemacast.Core.LawfulBinary32

/-!
# Monotone single-precision arithmetic

Sums, products and roundings of numbers that are not negative grow with their operands,
whatever is rounded on the way and wherever it overflows, and so does the truncation of any
of them. `SoftFloat` obeys these laws.
-/

namespace Gemacast.Core

/-- Single-precision arithmetic that grows with its operands. -/
class MonotoneBinary32 (F : Type) [Binary32 F] : Prop extends LawfulBinary32 F where
  /-- A maximum ignores what is not a number. -/
  maximum_of_not_number {x y : F} : ¬x ≤ x → Binary32.maximum x y = y
  zero_le_ofNat (n : ℕ) : (0.0 : F) ≤ Binary32.ofNat n
  ofNat_le_ofNat {m n : ℕ} : m ≤ n → (Binary32.ofNat m : F) ≤ Binary32.ofNat n
  ofNat_le_decimal {m k n : ℕ} : n * 10 ^ k ≤ m → (Binary32.ofNat n : F) ≤ Binary32.ofDecimal m k
  add_le_add {x y z : F} : (0.0 : F) ≤ x → x ≤ y → (0.0 : F) ≤ z → x + z ≤ y + z
  zero_le_add {x z : F} : (0.0 : F) ≤ x → (0.0 : F) ≤ z → (0.0 : F) ≤ x + z
  /-- Scaling by a moderate factor of at least one. -/
  scale_le_scale {x y w : F} {n : ℕ} : (0.0 : F) ≤ x → x ≤ y → Binary32.ofNat 1 ≤ w →
    w ≤ Binary32.ofNat n → n < 2 ^ 24 → x * w ≤ y * w
  zero_le_scale {x w : F} {n : ℕ} : (0.0 : F) ≤ x → Binary32.ofNat 1 ≤ w →
    w ≤ Binary32.ofNat n → n < 2 ^ 24 → (0.0 : F) ≤ x * w
  ceil_le_ceil {x y : F} : (0.0 : F) ≤ x → x ≤ y → Binary32.ceil x ≤ Binary32.ceil y
  toNat_le_toNat {x y : F} : x ≤ y → Binary32.toNat x ≤ Binary32.toNat y
  /-- Scaling by any factor, also by a negative one and by what is no number. -/
  toNat_scale_le {x y w : F} : (0.0 : F) ≤ x → x ≤ y →
    Binary32.toNat (x * w) ≤ Binary32.toNat (y * w)

section Maximum

variable {F : Type} [Binary32 F] [MonotoneBinary32 F] {x y z x' y' v v' lo hi : F}

open LawfulBinary32 MonotoneBinary32

theorem le_maximum_left (hx : x ≤ x) : x ≤ Binary32.maximum x y := by
  obtain ⟨heq, -⟩ | ⟨heq, hle⟩ := maximum_cases (y := y) hx
  · rw [heq]
    exact hx
  · rw [heq]
    exact hle

theorem le_maximum_right (hy : y ≤ y) : y ≤ Binary32.maximum x y := by
  by_cases hx : x ≤ x
  · obtain ⟨heq, hnot⟩ | ⟨heq, -⟩ := maximum_cases (y := y) hx
    · rw [heq]
      obtain hle | hle := le_total hx hy
      · by_contra hnle
        exact hnot (lt_iff.mpr ⟨hle, hnle⟩)
      · exact hle
    · rw [heq]
      exact hy
  · rw [maximum_of_not_number hx]
    exact hy

/-- A maximum lies below what its arguments lie below, as far as they are numbers. -/
theorem maximum_le_iff (hsome : x ≤ x ∨ y ≤ y) :
    Binary32.maximum x y ≤ z ↔ (x ≤ x → x ≤ z) ∧ (y ≤ y → y ≤ z) := by
  constructor
  · exact fun h => ⟨fun hx => le_trans (le_maximum_left hx) h,
      fun hy => le_trans (le_maximum_right hy) h⟩
  · rintro ⟨hx, hy⟩
    by_cases hnumber : x ≤ x
    · obtain ⟨heq, -⟩ | ⟨heq, hle⟩ := maximum_cases (y := y) hnumber
      · rw [heq]
        exact hx hnumber
      · rw [heq]
        exact hy (number_of_le hle).2
    · rw [maximum_of_not_number hnumber]
      exact hy (hsome.resolve_left hnumber)

/-- A maximum is one of its arguments. -/
theorem maximum_eq_or (x y : F) : Binary32.maximum x y = x ∨ Binary32.maximum x y = y := by
  by_cases hx : x ≤ x
  · obtain ⟨heq, -⟩ | ⟨heq, -⟩ := maximum_cases (y := y) hx
    · exact Or.inl heq
    · exact Or.inr heq
  · exact Or.inr (maximum_of_not_number hx)

/-- A maximum grows with both arguments; the second one may also stay what it is. -/
theorem maximum_le_maximum (hx : x ≤ x') (hy : y ≤ y' ∨ y = y') :
    Binary32.maximum x y ≤ Binary32.maximum x' y' := by
  obtain ⟨hnumber, hnumber'⟩ := number_of_le hx
  obtain ⟨heq, -⟩ | ⟨heq, hle⟩ := maximum_cases (y := y) hnumber
  · rw [heq]
    exact le_trans hx (le_maximum_left hnumber')
  · have hself := (number_of_le hle).2
    have hle' : y ≤ y' := by
      obtain hle' | rfl := hy
      · exact hle'
      · exact hself
    rw [heq]
    exact le_trans hle' (le_maximum_right (number_of_le hle').2)

/-- A clamped number lies between its bounds. -/
theorem clamp_bounds (hlo : lo ≤ hi) (hv : v ≤ v) :
    lo ≤ Binary32.clamp v lo hi ∧ Binary32.clamp v lo hi ≤ hi := by
  obtain ⟨hlo', hhi'⟩ := number_of_le hlo
  unfold Binary32.clamp
  split
  · exact ⟨hlo', hlo⟩
  · rename_i hbelow
    have hge : lo ≤ v := by
      obtain hle | hle := le_total hlo' hv
      · exact hle
      · by_contra hnot
        exact hbelow (lt_iff.mpr ⟨hle, hnot⟩)
    split
    · exact ⟨hlo, hhi'⟩
    · rename_i habove
      refine ⟨hge, ?_⟩
      obtain hle | hle := le_total hv hhi'
      · exact hle
      · by_contra hnot
        exact habove (lt_iff.mpr ⟨hle, hnot⟩)

/-- Clamping between bounds is monotone. -/
theorem clamp_le_clamp (hlo : lo ≤ hi) (h : v ≤ v') :
    Binary32.clamp v lo hi ≤ Binary32.clamp v' lo hi := by
  obtain ⟨hv, hv'⟩ := number_of_le h
  obtain ⟨hlo', hhi'⟩ := number_of_le hlo
  obtain ⟨hge, -⟩ := clamp_bounds hlo hv'
  obtain ⟨-, hle⟩ := clamp_bounds hlo hv
  by_cases hbelow : v < lo
  · rw [Binary32.clamp, if_pos hbelow]
    exact hge
  · by_cases habove : hi < v'
    · have hclamp : Binary32.clamp v' lo hi = hi := by
        have hnot : ¬v' < lo := by
          intro hlt
          exact (lt_iff.mp hlt).2 (le_trans hlo (lt_iff.mp habove).1)
        rw [Binary32.clamp, if_neg hnot, if_pos habove]
      rw [hclamp]
      exact hle
    · have habove' : ¬hi < v := fun hlt =>
        habove (lt_iff.mpr ⟨le_trans (lt_iff.mp hlt).1 h, fun hle' =>
          (lt_iff.mp hlt).2 (le_trans h hle')⟩)
      have hbelow' : ¬v' < lo := fun hlt =>
        hbelow (lt_iff.mpr ⟨le_trans h (lt_iff.mp hlt).1, fun hle' =>
          (lt_iff.mp hlt).2 (le_trans hle' h)⟩)
      rw [Binary32.clamp, Binary32.clamp, if_neg hbelow, if_neg habove', if_neg hbelow',
        if_neg habove]
      exact h

end Maximum

namespace SoftFloat

variable {s t : Bool} {m k n : ℕ} {e f : ℤ} {x y w : SoftFloat}

/-- A number is not negative exactly if it is infinity or its value is not negative. -/
theorem zero_le_iff (x : SoftFloat) : (0.0 : SoftFloat) ≤ x ↔
    x = inf false ∨ ∃ s m e, x = finite s m e ∧ 0 ≤ value s m e := by
  rw [le_iff_extended, extended_zero]
  rcases x with _ | s | ⟨s, m, e⟩
  · simp [extended]
  · cases s <;> simp [extended]
  · simp [extended, WithBot.coe_le_coe]

theorem le_inf (hx : (0.0 : SoftFloat) ≤ x) : x ≤ inf false := by
  rw [le_iff_extended]
  obtain rfl | ⟨s, m, e, rfl, -⟩ := (zero_le_iff x).mp hx
  · exact ⟨⊤, ⊤, rfl, rfl, le_rfl⟩
  · exact ⟨_, ⊤, rfl, rfl, le_top⟩

theorem finite_le_iff : finite s m e ≤ finite t k f ↔ value s m e ≤ value t k f := by
  rw [le_iff_extended]
  simp [extended, WithBot.coe_le_coe, WithTop.coe_le_coe]

/-- Nothing but infinity is at least infinity. -/
theorem eq_inf_of_le (h : inf false ≤ y) : y = inf false := by
  obtain ⟨a, b, ha, hb, hle⟩ := (le_iff_extended _ _).mp h
  obtain rfl := Option.some.inj ha
  rcases y with _ | s | ⟨s, m, e⟩
  · cases hb
  · cases s with
    | false => rfl
    | true =>
      obtain rfl := Option.some.inj hb
      exact absurd hle (by simp)
  · obtain rfl := Option.some.inj hb
    exact absurd hle (by simp)

/-- Results that are rounded to the grid compare as what is rounded. -/
theorem le_of_gridPlace {a b : ℚ} (hx : extended x = some (gridPlace (roundGrid 24 minExponent a)))
    (hy : extended y = some (gridPlace (roundGrid 24 minExponent b))) (ha : 0 ≤ a) (h : a ≤ b) :
    x ≤ y :=
  (le_iff_extended x y).mpr ⟨_, _, hx, hy, gridPlace_mono (roundGrid_mono (by decide) ha h)⟩

theorem zero_le_of_gridPlace {a : ℚ}
    (hx : extended x = some (gridPlace (roundGrid 24 minExponent a))) (ha : 0 ≤ a) :
    (0.0 : SoftFloat) ≤ x := by
  refine le_of_gridPlace ?_ hx le_rfl ha
  rw [extended_zero, roundGrid_zero, gridPlace_of_lt (by norm_num)]

/-- Whole numbers are rounded to the grid. -/
theorem extended_ofNat_gridPlace (n : ℕ) : extended (Binary32.ofNat n : SoftFloat) =
    some (gridPlace (roundGrid 24 minExponent n)) := by
  have hround := extended_roundTo_whole n 0
  rw [zpow_zero, mul_one] at hround
  exact hround

/-- A sum of numbers that are not negative is rounded to the grid. -/
theorem extended_add_gridPlace (hx : 0 ≤ value s m e) (hy : 0 ≤ value t k f) :
    extended (finite s m e + finite t k f) =
      some (gridPlace (roundGrid 24 minExponent (value s m e + value t k f))) := by
  obtain ⟨sum, hsum⟩ : ∃ sum, scaled s m e (min e f) + scaled t k f (min e f) = sum := ⟨_, rfl⟩
  have hvalue : value s m e + value t k f = sum * 2 ^ min e f := by
    rw [← hsum]
    push_cast
    rw [scaled_eq (min_le_left e f), scaled_eq (min_le_right e f), add_mul,
      div_mul_cancel₀ _ (zpow_grid_pos _).ne', div_mul_cancel₀ _ (zpow_grid_pos _).ne']
  have hnonneg : 0 ≤ sum := by
    have hle : (0 : ℚ) ≤ sum * 2 ^ min e f := by
      rw [← hvalue]
      exact add_nonneg hx hy
    have hsum0 : (0 : ℚ) ≤ sum := nonneg_of_mul_nonneg_left hle (zpow_grid_pos _)
    exact_mod_cast hsum0
  obtain ⟨total, rfl⟩ := Int.eq_ofNat_of_zero_le hnonneg
  change extended (if scaled s m e (min e f) + scaled t k f (min e f) = 0 then zero (s && t)
    else ofInt (scaled s m e (min e f) + scaled t k f (min e f)) (min e f)) = _
  rw [hsum, hvalue]
  by_cases hzero : (total : ℤ) = 0
  · have hvalue0 : ∀ b i, value b 0 i = 0 := fun b i => by simp [value]
    rw [if_pos hzero, hzero, zero, extended, hvalue0, Int.cast_zero, zero_mul, roundGrid_zero,
      gridPlace_of_lt (by norm_num)]
  · have hsign : decide ((total : ℤ) < 0) = false := by simp
    rw [if_neg hzero, ofInt, hsign, Int.natAbs_natCast, extended_roundTo_whole]
    push_cast
    rfl

/-- The integer part of a magnitude. -/
theorem wholePart_fst (m : ℕ) (e : ℤ) : (wholePart m e).1 = ⌊(m : ℚ) * 2 ^ e⌋₊ := by
  rw [wholePart]
  split
  · rename_i hnonneg
    obtain ⟨k, rfl⟩ := Int.eq_ofNat_of_zero_le hnonneg
    have hwhole : (m : ℚ) * 2 ^ (k : ℤ) = ((m * 2 ^ k : ℕ) : ℚ) := by
      rw [zpow_natCast]
      push_cast
      rfl
    rw [hwhole, Nat.floor_natCast, Int.toNat_natCast]
  · rename_i hneg
    obtain ⟨k, rfl⟩ : ∃ k : ℕ, e = -k := ⟨(-e).toNat, by omega⟩
    have hdiv : (m : ℚ) * 2 ^ (-(k : ℤ)) = (m : ℚ) / ((2 ^ k : ℕ) : ℚ) := by
      rw [zpow_neg, zpow_natCast, ← div_eq_mul_inv]
      push_cast
      rfl
    rw [hdiv, Nat.floor_div_eq_div, neg_neg, Int.toNat_natCast]

/-- The rounding up of a magnitude. -/
theorem wholePart_ceil (m : ℕ) (e : ℤ) :
    (if (wholePart m e).2 = true then (wholePart m e).1 + 1 else (wholePart m e).1) =
      ⌈(m : ℚ) * 2 ^ e⌉₊ := by
  rw [wholePart]
  split
  · rename_i hnonneg
    obtain ⟨k, rfl⟩ := Int.eq_ofNat_of_zero_le hnonneg
    have hwhole : (m : ℚ) * 2 ^ (k : ℤ) = ((m * 2 ^ k : ℕ) : ℚ) := by
      rw [zpow_natCast]
      push_cast
      rfl
    rw [hwhole, Nat.ceil_natCast, Int.toNat_natCast]
    rfl
  · rename_i hneg
    obtain ⟨k, rfl⟩ : ∃ k : ℕ, e = -k := ⟨(-e).toNat, by omega⟩
    have hpow : (0 : ℚ) < 2 ^ k := by positivity
    have hdiv : (m : ℚ) * 2 ^ (-(k : ℤ)) = (m : ℚ) / 2 ^ k := by
      rw [zpow_neg, zpow_natCast, ← div_eq_mul_inv]
    have hsplit : (m : ℚ) = (m / 2 ^ k : ℕ) * 2 ^ k + (m % 2 ^ k : ℕ) := by
      exact_mod_cast (Nat.div_add_mod' m (2 ^ k)).symm
    rw [hdiv, neg_neg, Int.toNat_natCast]
    dsimp only
    by_cases hrest : m % 2 ^ k = 0
    · have hwhole : (m : ℚ) / 2 ^ k = (m / 2 ^ k : ℕ) := by
        rw [div_eq_iff hpow.ne', hsplit, hrest, Nat.cast_zero, add_zero]
      rw [hwhole, Nat.ceil_natCast, if_neg (by simpa using hrest)]
    · have hrestpos : (0 : ℚ) < (m % 2 ^ k : ℕ) := by exact_mod_cast Nat.pos_of_ne_zero hrest
      have hrestlt : ((m % 2 ^ k : ℕ) : ℚ) < 2 ^ k := by
        exact_mod_cast Nat.mod_lt m (Nat.pow_pos (by decide))
      have hceil : ⌈(m : ℚ) / 2 ^ k⌉₊ = m / 2 ^ k + 1 := by
        rw [Nat.ceil_eq_iff (Nat.succ_ne_zero _), Nat.succ_sub_one, lt_div_iff₀ hpow,
          div_le_iff₀ hpow]
        push_cast
        rw [add_mul, one_mul]
        constructor <;> linarith
      rw [if_pos (by simpa using hrest), hceil]

/-- Truncation is the floor, down to zero and up to the largest word. -/
theorem toNat_finite (s : Bool) (m : ℕ) (e : ℤ) :
    Binary32.toNat (finite s m e) = min ⌊value s m e⌋₊ (2 ^ 32 - 1) := by
  change (if s then 0 else min (wholePart m e).1 (2 ^ 32 - 1)) = _
  cases s with
  | true =>
    have hneg : value true m e ≤ 0 := by
      rw [value, if_pos rfl, neg_one_mul, neg_nonpos]
      exact mul_nonneg (Nat.cast_nonneg m) (zpow_grid_pos e).le
    rw [if_pos rfl, Nat.floor_of_nonpos hneg, Nat.zero_min]
  | false =>
    rw [if_neg Bool.false_ne_true, wholePart_fst, value, if_neg Bool.false_ne_true, one_mul]

/-- A factor with a positive value has a positive mantissa. -/
theorem pos_of_value_pos (h : 0 < value t k f) : t = false ∧ k ≠ 0 := by
  obtain rfl | rfl := sign_of_nonneg h.le
  · refine ⟨rfl, ?_⟩
    rintro rfl
    simp [value] at h
  · simp [value] at h

theorem inf_mul (h : 0 < value t k f) : inf false * finite t k f = inf false := by
  obtain ⟨rfl, hk⟩ := pos_of_value_pos h
  change (if k = 0 then nan else inf (false != false)) = _
  rw [if_neg hk]
  rfl

theorem zero_le_mul (hx : (0.0 : SoftFloat) ≤ x) (hw : 0 < value t k f) :
    (0.0 : SoftFloat) ≤ x * finite t k f := by
  obtain rfl | ⟨s, m, e, rfl, hm⟩ := (zero_le_iff x).mp hx
  · rw [inf_mul hw]
    exact hx
  · exact zero_le_of_gridPlace (extended_mul_gridPlace hm hw.le) (mul_nonneg hm hw.le)

/-- Products with a positive number are monotone. -/
theorem mul_le_mul_finite (hx : (0.0 : SoftFloat) ≤ x) (h : x ≤ y) (hw : 0 < value t k f) :
    x * finite t k f ≤ y * finite t k f := by
  have hy := le_trans_soft hx h
  obtain rfl | ⟨s', m', e', rfl, hm'⟩ := (zero_le_iff y).mp hy
  · rw [inf_mul hw]
    exact le_inf (zero_le_mul hx hw)
  · obtain rfl | ⟨s, m, e, rfl, hm⟩ := (zero_le_iff x).mp hx
    · nomatch eq_inf_of_le h
    · exact le_of_gridPlace (extended_mul_gridPlace hm hw.le) (extended_mul_gridPlace hm' hw.le)
        (mul_nonneg hm hw.le) (mul_le_mul_of_nonneg_right (finite_le_iff.mp h) hw.le)

theorem zero_le_add_soft {z : SoftFloat} (hx : (0.0 : SoftFloat) ≤ x)
    (hz : (0.0 : SoftFloat) ≤ z) : (0.0 : SoftFloat) ≤ x + z := by
  obtain rfl | ⟨s, m, e, rfl, hm⟩ := (zero_le_iff x).mp hx
  · obtain rfl | ⟨t, k, f, rfl, -⟩ := (zero_le_iff z).mp hz
    · exact hx
    · exact hx
  · obtain rfl | ⟨t, k, f, rfl, hk⟩ := (zero_le_iff z).mp hz
    · exact hz
    · exact zero_le_of_gridPlace (extended_add_gridPlace hm hk) (add_nonneg hm hk)

/-- Sums of numbers that are not negative are monotone. -/
theorem add_le_add_soft {z : SoftFloat} (hx : (0.0 : SoftFloat) ≤ x) (h : x ≤ y)
    (hz : (0.0 : SoftFloat) ≤ z) : x + z ≤ y + z := by
  have hy := le_trans_soft hx h
  obtain rfl | ⟨s', m', e', rfl, hm'⟩ := (zero_le_iff y).mp hy
  · have hinf : inf false + z = inf false := by
      obtain rfl | ⟨t, k, f, rfl, -⟩ := (zero_le_iff z).mp hz
      · rfl
      · rfl
    rw [hinf]
    exact le_inf (zero_le_add_soft hx hz)
  · obtain rfl | ⟨s, m, e, rfl, hm⟩ := (zero_le_iff x).mp hx
    · nomatch eq_inf_of_le h
    · obtain rfl | ⟨t, k, f, rfl, hk⟩ := (zero_le_iff z).mp hz
      · exact le_inf hz
      · exact le_of_gridPlace (extended_add_gridPlace hm hk) (extended_add_gridPlace hm' hk)
          (add_nonneg hm hk) (add_le_add_left (finite_le_iff.mp h) _)

/-- Rounding up rounds the whole number above to the grid. -/
theorem extended_ceil (h : 0 ≤ value s m e) : extended (Binary32.ceil (finite s m e)) =
    some (gridPlace (roundGrid 24 minExponent ⌈value s m e⌉₊)) := by
  change extended (roundTo s (if ((wholePart m e).2 && !s) = true then (wholePart m e).1 + 1
    else (wholePart m e).1) 0 false) = _
  obtain rfl | rfl := sign_of_nonneg h
  · have hvalue : value false m e = m * 2 ^ e := by rw [value, if_neg Bool.false_ne_true, one_mul]
    rw [Bool.not_false, Bool.and_true, wholePart_ceil, hvalue]
    exact extended_ofNat_gridPlace _
  · have hvalue : value s 0 e = 0 := by simp [value]
    have hwhole : (wholePart 0 e) = (0, false) := by
      rw [wholePart]
      split <;> simp
    rw [hwhole, hvalue, Nat.ceil_zero, Nat.cast_zero, roundGrid_zero, gridPlace_of_lt (by norm_num),
      roundTo, if_pos (by simp), zero, extended]
    simp [value]

/-- Rounding up is monotone. -/
theorem ceil_le_ceil_soft (hx : (0.0 : SoftFloat) ≤ x) (h : x ≤ y) :
    Binary32.ceil x ≤ Binary32.ceil y := by
  have hy := le_trans_soft hx h
  obtain rfl | ⟨s', m', e', rfl, hm'⟩ := (zero_le_iff y).mp hy
  · obtain rfl | ⟨s, m, e, rfl, hm⟩ := (zero_le_iff x).mp hx
    · exact h
    · exact le_inf (zero_le_of_gridPlace (extended_ceil hm) (Nat.cast_nonneg _))
  · obtain rfl | ⟨s, m, e, rfl, hm⟩ := (zero_le_iff x).mp hx
    · nomatch eq_inf_of_le h
    · refine le_of_gridPlace (extended_ceil hm) (extended_ceil hm') (Nat.cast_nonneg _) ?_
      exact_mod_cast Nat.ceil_mono (finite_le_iff.mp h)

theorem toNat_le_word (x : SoftFloat) : Binary32.toNat x ≤ 2 ^ 32 - 1 := by
  rcases x with _ | s | ⟨s, m, e⟩
  · exact Nat.zero_le _
  · cases s
    · exact le_rfl
    · exact Nat.zero_le _
  · rw [toNat_finite]
    exact Nat.min_le_right _ _

/-- Truncation is monotone. -/
theorem toNat_le_toNat_soft (h : x ≤ y) : Binary32.toNat x ≤ Binary32.toNat y := by
  rcases y with _ | t | ⟨t, k, f⟩
  · obtain ⟨a, b, -, hb, -⟩ := (le_iff_extended _ _).mp h
    cases hb
  · cases t with
    | false => exact toNat_le_word x
    | true =>
      obtain ⟨a, b, ha, hb, hle⟩ := (le_iff_extended _ _).mp h
      obtain rfl := Option.some.inj hb
      rcases x with _ | s | ⟨s, m, e⟩
      · cases ha
      · obtain rfl := Option.some.inj ha
        cases s
        · exact absurd hle (by simp)
        · exact le_rfl
      · obtain rfl := Option.some.inj ha
        exact absurd hle (by simp)
  · rcases x with _ | s | ⟨s, m, e⟩
    · exact Nat.zero_le _
    · cases s with
      | false => cases eq_inf_of_le h
      | true => exact Nat.zero_le _
    · rw [toNat_finite, toNat_finite]
      exact min_le_min_right _ (Nat.floor_mono (finite_le_iff.mp h))

/-- A product with a factor that is not positive truncates to zero. -/
theorem toNat_mul_of_not_pos (hx : (0.0 : SoftFloat) ≤ x)
    (hw : ∀ t k f, w = finite t k f → value t k f ≤ 0) (hinf : w ≠ inf false) :
    Binary32.toNat (x * w) = 0 := by
  rcases w with _ | t | ⟨t, k, f⟩
  · obtain rfl | ⟨s, m, e, rfl, -⟩ := (zero_le_iff x).mp hx
    · rfl
    · rfl
  · cases t with
    | false => exact absurd rfl hinf
    | true =>
      obtain rfl | ⟨s, m, e, rfl, hm⟩ := (zero_le_iff x).mp hx
      · rfl
      · change toNat (if m = 0 then nan else inf (s != true)) = 0
        obtain rfl | rfl := sign_of_nonneg hm
        · split <;> rfl
        · rfl
  · have hk : t = true ∨ k = 0 := by
      cases t with
      | true => exact Or.inl rfl
      | false =>
        have hle := hw false k f rfl
        rw [value, if_neg Bool.false_ne_true, one_mul] at hle
        have hk := nonpos_of_mul_nonpos_left hle (zpow_grid_pos f)
        exact Or.inr (by exact_mod_cast le_antisymm hk (Nat.cast_nonneg k))
    obtain rfl | ⟨s, m, e, rfl, hm⟩ := (zero_le_iff x).mp hx
    · change toNat (if k = 0 then nan else inf (false != t)) = 0
      obtain rfl | rfl := hk
      · split <;> rfl
      · rfl
    · change toNat (roundTo (s != t) (m * k) (e + f) false) = 0
      have hzero : ∀ b i, toNat (roundTo b 0 i false) = 0 := by
        intro b i
        rw [roundTo, if_pos rfl]
        cases b <;> simp [zero, toNat, wholePart, minExponent]
      obtain rfl | rfl := hk
      · obtain rfl | rfl := sign_of_nonneg hm
        · exact toNat_negative _ _ _
        · rw [Nat.zero_mul]
          exact hzero _ _
      · rw [Nat.mul_zero]
        exact hzero _ _

/-- Truncated products are monotone, whatever the factor. -/
theorem toNat_scale_le_soft (hx : (0.0 : SoftFloat) ≤ x) (h : x ≤ y) :
    Binary32.toNat (x * w) ≤ Binary32.toNat (y * w) := by
  have hy := le_trans_soft hx h
  by_cases hinf : w = inf false
  · subst hinf
    obtain rfl | ⟨s, m, e, rfl, hm⟩ := (zero_le_iff x).mp hx
    · rw [eq_inf_of_le h]
    · change toNat (if m = 0 then nan else inf (s != false)) ≤ _
      by_cases hzero : m = 0
      · rw [if_pos hzero]
        exact Nat.zero_le _
      · obtain rfl := (sign_of_nonneg hm).resolve_right hzero
        have hpos : 0 < value false m e := by
          rw [value, if_neg Bool.false_ne_true, one_mul]
          exact mul_pos (by exact_mod_cast Nat.pos_of_ne_zero hzero) (zpow_grid_pos e)
        have htop : y * inf false = inf false := by
          obtain rfl | ⟨t, k, f, rfl, -⟩ := (zero_le_iff y).mp hy
          · rfl
          · obtain ⟨rfl, hk⟩ := pos_of_value_pos (hpos.trans_le (finite_le_iff.mp h))
            change (if k = 0 then nan else inf (false != false)) = _
            rw [if_neg hk]
            rfl
        rw [htop]
        exact toNat_le_word _
  · by_cases hpos : ∃ t k f, w = finite t k f ∧ 0 < value t k f
    · obtain ⟨t, k, f, rfl, hvalue⟩ := hpos
      exact toNat_le_toNat_soft (mul_le_mul_finite hx h hvalue)
    · rw [toNat_mul_of_not_pos hx (fun t k f hw => ?_) hinf]
      · exact Nat.zero_le _
      · by_contra hnot
        exact hpos ⟨t, k, f, hw, not_le.mp hnot⟩

/-- A factor of at least one is positive and finite. -/
theorem finite_of_one_le (h1 : Binary32.ofNat 1 ≤ w) (hn : n < 2 ^ 24)
    (h : w ≤ Binary32.ofNat n) : ∃ t k f, w = finite t k f ∧ 0 < value t k f := by
  have hzero : (0.0 : SoftFloat) ≤ Binary32.ofNat 1 := by decide +kernel
  obtain ⟨t, k, f, rfl, -, -⟩ := finite_of_bounds (le_trans_soft hzero h1) hn h
  obtain ⟨a, b, ha, hb, hle⟩ := (le_iff_extended _ _).mp h1
  obtain rfl := Option.some.inj ((extended_ofNat (by decide)).symm.trans ha)
  obtain rfl := Option.some.inj hb
  have hone : ((1 : ℕ) : ℚ) ≤ value t k f := by exact_mod_cast hle
  rw [Nat.cast_one] at hone
  exact ⟨t, k, f, rfl, zero_lt_one.trans_le hone⟩

theorem ofNat_le_decimal {m k n : ℕ} (h : n * 10 ^ k ≤ m) :
    (Binary32.ofNat n : SoftFloat) ≤ Binary32.ofDecimal m k := by
  rcases n.eq_zero_or_pos with rfl | hn
  · exact LawfulBinary32.zero_le_decimal m k
  · obtain ⟨d, hd⟩ : ∃ d, 10 ^ k = d := ⟨_, rfl⟩
    have hdpos : 0 < d := hd ▸ Nat.pow_pos (by decide)
    rw [hd] at h
    have hdq : (0 : ℚ) < d := by exact_mod_cast hdpos
    have hq : 2 ^ 24 ≤ m * 2 ^ 128 / d := by
      rw [Nat.le_div_iff_mul_le hdpos, Nat.mul_comm]
      exact Nat.mul_le_mul ((Nat.le_mul_of_pos_left d hn).trans h) (by norm_num)
    have hround := extended_quotient m hdpos hq
    rw [← hd] at hround
    refine le_of_gridPlace (extended_ofNat_gridPlace n) hround (Nat.cast_nonneg n) ?_
    rw [hd, le_div_iff₀ hdq]
    exact_mod_cast h

instance : MonotoneBinary32 SoftFloat where
  maximum_of_not_number := by
    intro x y hx
    have hmax : Binary32.maximum x y =
        if lt x y || instBEqOfDecidableEq.beq x nan then y else x := rfl
    have hnan : x = nan := by
      rcases x with _ | s | ⟨s, m, e⟩
      · rfl
      · exact absurd ((le_iff_extended _ _).mpr ⟨_, _, rfl, rfl, le_rfl⟩) hx
      · exact absurd ((le_iff_extended _ _).mpr ⟨_, _, rfl, rfl, le_rfl⟩) hx
    subst hnan
    rw [hmax, if_pos]
    rw [Bool.or_eq_true]
    exact Or.inr (decide_eq_true rfl)
  zero_le_ofNat n := zero_le_of_gridPlace (extended_ofNat_gridPlace n) (Nat.cast_nonneg n)
  ofNat_le_ofNat {m n} h :=
    le_of_gridPlace (extended_ofNat_gridPlace m) (extended_ofNat_gridPlace n) (Nat.cast_nonneg m)
      (by exact_mod_cast h)
  ofNat_le_decimal := ofNat_le_decimal
  add_le_add := add_le_add_soft
  zero_le_add := zero_le_add_soft
  scale_le_scale hx h h1 hn hlt := by
    obtain ⟨t, k, f, rfl, hw⟩ := finite_of_one_le h1 hlt hn
    exact mul_le_mul_finite hx h hw
  zero_le_scale hx h1 hn hlt := by
    obtain ⟨t, k, f, rfl, hw⟩ := finite_of_one_le h1 hlt hn
    exact zero_le_mul hx hw
  ceil_le_ceil := ceil_le_ceil_soft
  toNat_le_toNat := toNat_le_toNat_soft
  toNat_scale_le := toNat_scale_le_soft

end SoftFloat

end Gemacast.Core
