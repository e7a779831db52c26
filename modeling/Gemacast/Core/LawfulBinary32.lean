import Mathlib.Order.WithBot
import Gemacast.Core.Binary32
import Gemacast.Core.Rounding

/-!
# Laws of single-precision arithmetic

What the statements about numeric values rely on: numbers are totally preordered, a
maximum is one of its arguments, products with a share are monotone, and conversions
of small whole numbers are exact. `SoftFloat` obeys them.
-/

namespace Gemacast.Core

/-- Single-precision arithmetic with its order and the monotonicity of rounding. A value
that is at most itself is a number. -/
class LawfulBinary32 (F : Type) [Binary32 F] : Prop where
  le_trans {x y z : F} : x ≤ y → y ≤ z → x ≤ z
  le_total {x y : F} : x ≤ x → y ≤ y → x ≤ y ∨ y ≤ x
  number_of_le {x y : F} : x ≤ y → x ≤ x ∧ y ≤ y
  lt_iff {x y : F} : x < y ↔ x ≤ y ∧ ¬y ≤ x
  beq_iff {x y : F} : (x == y) = true ↔ x ≤ y ∧ y ≤ x
  /-- The maximum of a number and a value is the value only if that is not less. -/
  maximum_cases {x y : F} : x ≤ x →
    Binary32.maximum x y = x ∧ ¬x < y ∨ Binary32.maximum x y = y ∧ x ≤ y
  zero_le_decimal (m k : ℕ) : (0.0 : F) ≤ Binary32.ofDecimal m k
  decimal_le_ofNat {m k n : ℕ} : m ≤ n * 10 ^ k → n < 2 ^ 24 →
    (Binary32.ofDecimal m k : F) ≤ Binary32.ofNat n
  /-- Scaling small numbers by a share is monotone. -/
  mul_le_mul {x y w : F} {n : ℕ} : (0.0 : F) ≤ x → x ≤ y → y ≤ Binary32.ofNat n → n < 2 ^ 24 →
    (0.0 : F) ≤ w → w ≤ Binary32.ofNat 1 → x * w ≤ y * w
  /-- A share of nothing is nothing. -/
  mul_le_zero {x w : F} : (0.0 : F) ≤ x → x ≤ 0.0 → (0.0 : F) ≤ w → w ≤ Binary32.ofNat 1 →
    x * w ≤ 0.0
  /-- A power of a share is a share. -/
  powi_share {w : F} (n : ℕ) : (0.0 : F) ≤ w → w ≤ Binary32.ofNat 1 →
    (0.0 : F) ≤ Binary32.powi w n ∧ Binary32.powi w n ≤ Binary32.ofNat 1
  /-- Truncation stays below a whole number that bounds the value. -/
  toNat_lt {x : F} {n : ℕ} : (0.0 : F) ≤ x → x < Binary32.ofNat n → n < 2 ^ 24 →
    Binary32.toNat x < n
  /-- A share of a whole number truncates to at most the number. -/
  toNat_share_le {w : F} {n : ℕ} : w ≤ Binary32.ofNat 1 → n < 2 ^ 24 →
    Binary32.toNat (Binary32.ofNat n * w) ≤ n

namespace SoftFloat

/-- The value of a finite number. -/
def value (negative : Bool) (m : ℕ) (e : ℤ) : ℚ := (if negative then -1 else 1) * (m * 2 ^ e)

/-- A rational on the extended line. -/
abbrev point (q : ℚ) : WithBot (WithTop ℚ) := ((q : WithTop ℚ) : WithBot (WithTop ℚ))

/-- The place of a number on the extended line. -/
def extended : SoftFloat → Option (WithBot (WithTop ℚ))
  | nan => none
  | inf negative => some (if negative then ⊥ else ⊤)
  | finite negative m e => some (point (value negative m e))

/-- Values are compared in units of any common exponent. -/
theorem scaled_eq {low e : ℤ} (h : low ≤ e) (s : Bool) (m : ℕ) :
    (scaled s m e low : ℚ) = value s m e / 2 ^ low := by
  obtain ⟨k, rfl⟩ := Int.le.dest h
  have hsub : (low + (k : ℤ) - low).toNat = k := by omega
  have hne : (2 : ℚ) ^ low ≠ 0 := (zpow_grid_pos low).ne'
  have hpow : (2 : ℚ) ^ (low + (k : ℤ)) = 2 ^ low * 2 ^ k := by
    rw [zpow_add₀ (by norm_num), zpow_natCast]
  rw [eq_div_iff hne, value, hpow, scaled, hsub]
  cases s with
  | false =>
    rw [if_neg Bool.false_ne_true, if_neg Bool.false_ne_true]
    push_cast
    ring
  | true =>
    rw [if_pos rfl, if_pos rfl]
    push_cast
    ring

theorem scaled_lt_iff (s t : Bool) (m n : ℕ) (e f : ℤ) :
    scaled s m e (min e f) < scaled t n f (min e f) ↔ value s m e < value t n f := by
  rw [← Int.cast_lt (R := ℚ), scaled_eq (min_le_left e f), scaled_eq (min_le_right e f),
    div_lt_div_iff_of_pos_right (zpow_grid_pos _)]

theorem scaled_eq_iff (s t : Bool) (m n : ℕ) (e f : ℤ) :
    scaled s m e (min e f) = scaled t n f (min e f) ↔ value s m e = value t n f := by
  rw [← Int.cast_inj (α := ℚ), scaled_eq (min_le_left e f), scaled_eq (min_le_right e f),
    div_left_inj' (zpow_grid_pos _).ne']

/-- The comparisons are those of the extended line. -/
theorem lt_iff_extended (a b : SoftFloat) :
    a < b ↔ ∃ x y, extended a = some x ∧ extended b = some y ∧ x < y := by
  change lt a b = true ↔ _
  rcases a with _ | s | ⟨s, m, e⟩ <;> rcases b with _ | t | ⟨t, n, f⟩
  case finite.finite => simp [lt, extended, scaled_lt_iff, WithBot.coe_lt_coe, WithTop.coe_lt_coe]
  case inf.inf => cases s <;> cases t <;> simp [lt, extended]
  case inf.finite => cases s <;> simp [lt, extended]
  case finite.inf =>
    have htop : point (value s m e) < ⊤ :=
      WithBot.coe_lt_coe.mpr (WithTop.coe_lt_top _)
    cases t <;> simp [lt, extended, htop]
  all_goals simp [lt, extended]

theorem beq_iff_extended (a b : SoftFloat) :
    (a == b) = true ↔ ∃ x, extended a = some x ∧ extended b = some x := by
  change beq a b = true ↔ _
  rcases a with _ | s | ⟨s, m, e⟩ <;> rcases b with _ | t | ⟨t, n, f⟩
  case finite.finite =>
    simp [beq, extended, scaled_eq_iff, WithBot.coe_inj, WithTop.coe_inj, eq_comm]
  case inf.inf => cases s <;> cases t <;> simp [beq, extended]
  case inf.finite => cases s <;> simp [beq, extended]
  case finite.inf => cases t <;> simp [beq, extended]
  all_goals simp [beq, extended]

theorem le_iff_extended (a b : SoftFloat) :
    a ≤ b ↔ ∃ x y, extended a = some x ∧ extended b = some y ∧ x ≤ y := by
  have hle : a ≤ b ↔ a < b ∨ (a == b) = true := by
    change le a b = true ↔ lt a b = true ∨ beq a b = true
    rw [le, Bool.or_eq_true]
  rw [hle, lt_iff_extended, beq_iff_extended]
  constructor
  · rintro (⟨x, y, hx, hy, hlt⟩ | ⟨x, hx, hy⟩)
    · exact ⟨x, y, hx, hy, hlt.le⟩
    · exact ⟨x, x, hx, hy, le_rfl⟩
  · rintro ⟨x, y, hx, hy, hle⟩
    rcases hle.lt_or_eq with hlt | rfl
    · exact Or.inl ⟨x, y, hx, hy, hlt⟩
    · exact Or.inr ⟨x, hx, hy⟩

section Rounding

variable {m : ℕ} {e : ℤ} {sticky : Bool} {θ : ℚ}

/-- The binade of a mantissa with a rest. -/
theorem log_mantissa (hm : 0 < m) (h0 : 0 ≤ θ) (h1 : θ < 1) :
    Int.log 2 ((m + θ) * 2 ^ e) = Nat.log2 m + e := by
  have hlow : ((2 ^ Nat.log2 m : ℕ) : ℚ) ≤ m := by exact_mod_cast Nat.log2_self_le hm.ne'
  have hhigh : ((m + 1 : ℕ) : ℚ) ≤ ((2 ^ (Nat.log2 m + 1) : ℕ) : ℚ) := by
    exact_mod_cast Nat.lt_log2_self
  push_cast at hlow hhigh
  have hmpos : (0 : ℚ) < m := by exact_mod_cast hm
  have hpos : 0 < (m + θ) * 2 ^ e := mul_pos (by linarith) (zpow_grid_pos e)
  apply le_antisymm
  · rw [← Int.lt_add_one_iff, ← Int.lt_zpow_iff_log_lt (by decide) hpos]
    have hsplit : ((2 : ℕ) : ℚ) ^ ((Nat.log2 m : ℤ) + e + 1) = 2 ^ (Nat.log2 m + 1) * 2 ^ e := by
      rw [← zpow_natCast, ← zpow_add₀ (by norm_num)]
      push_cast
      congr 1
      omega
    rw [hsplit]
    exact mul_lt_mul_of_pos_right (by linarith) (zpow_grid_pos e)
  · rw [← Int.zpow_le_iff_le_log (by decide) hpos]
    have hsplit : ((2 : ℕ) : ℚ) ^ ((Nat.log2 m : ℤ) + e) = 2 ^ Nat.log2 m * 2 ^ e := by
      rw [← zpow_natCast, ← zpow_add₀ (by norm_num)]
      push_cast
      rfl
    rw [hsplit]
    exact mul_le_mul_of_nonneg_right (by linarith) (zpow_grid_pos e).le

/-- Shifting a mantissa with a rest out and rounding half to even. -/
theorem roundEven_shift (k : ℕ) (h0 : 0 ≤ θ) (h1 : θ < 1) (hsticky : sticky = true ↔ 0 < θ) :
    roundEven ((m + θ) / 2 ^ (k + 1)) =
      ((if (decide (2 ^ k < m % 2 ^ (k + 1)) ||
          (decide (m % 2 ^ (k + 1) = 2 ^ k) &&
            (sticky || decide (m / 2 ^ (k + 1) % 2 = 1)))) = true
        then m / 2 ^ (k + 1) + 1 else m / 2 ^ (k + 1) : ℕ) : ℤ) := by
  obtain ⟨q, hq⟩ : ∃ q, m / 2 ^ (k + 1) = q := ⟨_, rfl⟩
  obtain ⟨r, hr⟩ : ∃ r, m % 2 ^ (k + 1) = r := ⟨_, rfl⟩
  have hpow : (0 : ℚ) < 2 ^ (k + 1) := by positivity
  have hsplit : (m : ℚ) = q * 2 ^ (k + 1) + r := by
    have hdiv := Nat.div_add_mod m (2 ^ (k + 1))
    rw [hq, hr] at hdiv
    rw [← hdiv]
    push_cast
    ring
  have hrlt : (r : ℚ) + 1 ≤ 2 ^ (k + 1) := by
    have hlt : r < 2 ^ (k + 1) := by
      rw [← hr]
      exact Nat.mod_lt _ (Nat.pow_pos (by decide))
    exact_mod_cast hlt
  have hrnonneg : (0 : ℚ) ≤ r := Nat.cast_nonneg r
  have ha : (m + θ) / 2 ^ (k + 1) = q + (r + θ) / 2 ^ (k + 1) := by
    rw [hsplit]
    field_simp
    ring
  have hfrac0 : 0 ≤ (r + θ) / 2 ^ (k + 1) := div_nonneg (by linarith) hpow.le
  have hfrac1 : (r + θ) / 2 ^ (k + 1) < 1 := by
    rw [div_lt_one hpow]
    linarith
  have hfloor : ⌊(m + θ) / 2 ^ (k + 1)⌋ = (q : ℤ) := by
    rw [Int.floor_eq_iff, ha]
    push_cast
    constructor <;> linarith
  have hfract : Int.fract ((m + θ) / 2 ^ (k + 1)) = (r + θ) / 2 ^ (k + 1) := by
    rw [Int.fract, hfloor, ha]
    push_cast
    ring
  have hhalf : (2 : ℚ) ^ (k + 1) = 2 * 2 ^ k := pow_succ' 2 k
  have hup : 1 / 2 < (r + θ) / 2 ^ (k + 1) ↔ 2 ^ k < r + θ := by
    rw [lt_div_iff₀ hpow, hhalf, ← mul_assoc]
    norm_num
  have htie : (r + θ) / 2 ^ (k + 1) = 1 / 2 ↔ r + θ = 2 ^ k := by
    rw [div_eq_iff hpow.ne', hhalf, ← mul_assoc]
    norm_num
  rw [hq, hr, roundEven, hfloor, hfract]
  simp only [hup, htie]
  rcases lt_trichotomy r (2 ^ k) with hlt | heq | hgt
  · have hbelow : (r : ℚ) + 1 ≤ 2 ^ k := by exact_mod_cast hlt
    have hnot : ¬((2 : ℚ) ^ k < r + θ ∨ r + θ = 2 ^ k ∧ (q : ℤ) % 2 = 1) := by
      rintro (hup | ⟨htie, _⟩) <;> linarith
    have hnot' : ¬(decide (2 ^ k < r) || (decide (r = 2 ^ k) &&
        (sticky || decide (q % 2 = 1)))) = true := by
      simp only [Bool.or_eq_true, Bool.and_eq_true, decide_eq_true_eq]
      omega
    rw [if_neg hnot, if_neg hnot']
  · have hr' : (r : ℚ) = 2 ^ k := by exact_mod_cast heq
    have hiff : ((2 : ℚ) ^ k < r + θ ∨ r + θ = 2 ^ k ∧ (q : ℤ) % 2 = 1) ↔
        (decide (2 ^ k < r) || (decide (r = 2 ^ k) && (sticky || decide (q % 2 = 1)))) = true := by
      have hodd : (q : ℤ) % 2 = 1 ↔ q % 2 = 1 := by omega
      rw [hr', hodd]
      simp only [Bool.or_eq_true, Bool.and_eq_true, decide_eq_true_eq, hsticky, heq, true_and,
        lt_irrefl, false_or, lt_add_iff_pos_right, add_eq_left]
      rcases h0.lt_or_eq with hpos | hzero
      · simp [hpos]
      · simp [← hzero]
    rw [if_congr hiff rfl rfl]
    split <;> push_cast <;> rfl
  · have habove : (2 : ℚ) ^ k < r + θ := by
      have hcast : (2 : ℚ) ^ k < r := by exact_mod_cast hgt
      linarith
    rw [if_pos (Or.inl habove), if_pos (by simp [hgt])]
    push_cast
    rfl

/-- The place of a number of the grid: from `2 ^ 128` on it is infinite. -/
def gridPlace (g : ℚ) : WithBot (WithTop ℚ) := if 2 ^ 128 ≤ g then ⊤ else point g

theorem gridPlace_of_lt {g : ℚ} (h : g < 2 ^ 128) : gridPlace g = point g := if_neg (not_le.mpr h)

theorem gridPlace_mono {g g' : ℚ} (h : g ≤ g') : gridPlace g ≤ gridPlace g' := by
  unfold gridPlace
  by_cases hbig : 2 ^ 128 ≤ g'
  · rw [if_pos hbig]
    exact le_top
  · rw [if_neg hbig, if_neg fun hbig' => hbig (hbig'.trans h)]
    exact_mod_cast h

/-- The largest exponent of a finite number. -/
theorem two_zpow_overflow {t : ℤ} : 104 < t ↔ (2 : ℚ) ^ 128 ≤ 2 ^ (t + 24 - 1) := by
  have hpow : (2 : ℚ) ^ 128 = 2 ^ (128 : ℤ) := by norm_cast
  rw [hpow, zpow_le_zpow_iff_right₀ (by norm_num)]
  omega

/-- A mantissa that reaches the next binade is carried over, or overflows. -/
theorem extended_carry {q : ℕ} {t : ℤ} (hq : q ≤ 2 ^ 24)
    (hnormal : minExponent < t → (2 : ℚ) ^ (t + 24 - 1) ≤ q * 2 ^ t) :
    extended
        (match if q = 2 ^ 24 then (2 ^ 23, t + 1) else (q, t) with
          | (q, target) => if 104 < target then .inf false else .finite false q target) =
      some (gridPlace ((q : ℤ) * 2 ^ t)) := by
  have hcast : (((q : ℕ) : ℤ) : ℚ) * 2 ^ t = q * 2 ^ t := by push_cast; rfl
  rw [hcast]
  by_cases hcarry : q = 2 ^ 24
  · have hvalue : (q : ℚ) * 2 ^ t = 2 ^ (t + 1 + 24 - 1) := by
      have hsum : t + 1 + 24 - 1 = t + (24 : ℕ) := by push_cast; ring
      rw [hcarry, hsum, zpow_add₀ (by norm_num), zpow_natCast]
      push_cast
      ring
    rw [if_pos hcarry]
    dsimp only
    rw [gridPlace, hvalue]
    by_cases hbig : 104 < t + 1
    · rw [if_pos hbig, if_pos (two_zpow_overflow.mp hbig)]
      rfl
    · rw [if_neg hbig, if_neg fun h => hbig (two_zpow_overflow.mpr h), extended, value,
        if_neg Bool.false_ne_true, one_mul, ← hvalue, hcarry, zpow_add_one₀ (by norm_num)]
      refine congrArg (fun v => some (point v)) ?_
      push_cast
      ring
  · rw [if_neg hcarry]
    dsimp only
    by_cases hbig : 104 < t
    · have hmin : minExponent < t := by
        unfold minExponent
        omega
      rw [if_pos hbig, gridPlace, if_pos ((two_zpow_overflow.mp hbig).trans (hnormal hmin))]
      rfl
    · have hlt : (q : ℚ) * 2 ^ t < 2 ^ 128 := by
        have hfew : (q : ℚ) < 2 ^ 24 := by exact_mod_cast lt_of_le_of_ne hq hcarry
        have hle : (2 : ℚ) ^ t ≤ 2 ^ (104 : ℤ) := zpow_le_zpow_right₀ (by norm_num) (by omega)
        have hsplit : (2 : ℚ) ^ 128 = 2 ^ 24 * 2 ^ (104 : ℤ) := by norm_num
        rw [hsplit]
        exact mul_lt_mul hfew hle (zpow_grid_pos t) (by norm_num)
      rw [if_neg hbig, gridPlace_of_lt hlt, extended, value, if_neg Bool.false_ne_true, one_mul]

/-- A mantissa whose number is at most the next binade. -/
theorem mantissa_le {q : ℕ} {t : ℤ} (h : (q : ℚ) * 2 ^ t ≤ 2 ^ (t + (24 : ℕ))) : q ≤ 2 ^ 24 := by
  rw [zpow_add₀ (by norm_num), mul_comm, mul_le_mul_iff_right₀ (zpow_grid_pos t), zpow_natCast] at h
  exact_mod_cast h

/-- Rounding rounds to the grid, and overflows from `2 ^ 128` on. -/
theorem extended_roundTo_gridPlace (hm : 0 < m) (h0 : 0 ≤ θ) (h1 : θ < 1)
    (hsticky : sticky = true ↔ 0 < θ) (hshift : sticky = true → 2 ^ 24 ≤ m) :
    extended (roundTo false m e sticky) =
      some (gridPlace (roundGrid 24 minExponent ((m + θ) * 2 ^ e))) := by
  have hmpos : (0 : ℚ) < m := by exact_mod_cast hm
  have hxpos : 0 < (m + θ) * 2 ^ e := mul_pos (by linarith) (zpow_grid_pos e)
  have hlog := log_mantissa (e := e) hm h0 h1
  obtain ⟨target, htarget⟩ : ∃ target, max (e + (Nat.log2 m + 1 : ℕ) - 24) minExponent = target :=
    ⟨_, rfl⟩
  have hgrid : gridExponent 24 minExponent ((m + θ) * 2 ^ e) = target := by
    rw [gridExponent, hlog, ← htarget]
    push_cast
    ring_nf
  have hnormal : minExponent < target →
      (2 : ℚ) ^ (target + 24 - 1) ≤ roundGrid 24 minExponent ((m + θ) * 2 ^ e) := by
    intro hmin
    have hle := @binade_le_roundGrid 24 minExponent _ (by decide) hxpos (by rw [hgrid]; exact hmin)
    rw [hgrid] at hle
    exact_mod_cast hle
  rw [roundTo, if_neg hm.ne']
  dsimp only
  rw [htarget]
  by_cases hexact : target ≤ e
  · have hzero : θ = 0 := by
      by_contra hne
      have hbig := hshift (hsticky.mpr (lt_of_le_of_ne h0 (Ne.symm hne)))
      have hbits : 24 ≤ Nat.log2 m := (Nat.le_log2 hm.ne').mpr hbig
      rw [← htarget] at hexact
      push_cast at hexact
      omega
    obtain ⟨k, rfl⟩ := Int.le.dest hexact
    have hwhole : (m + θ) * 2 ^ (target + (k : ℤ)) / 2 ^ target = ((m * 2 ^ k : ℕ) : ℤ) := by
      rw [hzero, zpow_add₀ (by norm_num), zpow_natCast]
      have hne := (zpow_grid_pos target).ne'
      field_simp
      push_cast
      ring
    have hsub : (target + (k : ℤ) - target).toNat = k := by omega
    have hround : roundGrid 24 minExponent ((m + θ) * 2 ^ (target + (k : ℤ))) =
        (m * 2 ^ k : ℕ) * 2 ^ target := by
      rw [roundGrid, hgrid, hwhole, roundEven_intCast]
      push_cast
      rfl
    rw [if_pos hexact, hsub]
    by_cases hbig : 104 < target
    · have hmin : minExponent < target := by
        unfold minExponent
        omega
      rw [if_pos hbig, gridPlace, if_pos ((two_zpow_overflow.mp hbig).trans (hnormal hmin))]
      rfl
    · have hlt : ((m * 2 ^ k : ℕ) : ℚ) * 2 ^ target < 2 ^ 128 := by
        have hnext := @lt_next_binade 24 minExponent ((m + θ) * 2 ^ (target + (k : ℤ)))
        rw [hgrid] at hnext
        have hle : (2 : ℚ) ^ (target + (24 : ℕ)) ≤ 2 ^ (128 : ℤ) :=
          zpow_le_zpow_right₀ (by norm_num) (by push_cast; omega)
        have heq : (m + θ) * 2 ^ (target + (k : ℤ)) = ((m * 2 ^ k : ℕ) : ℚ) * 2 ^ target := by
          rw [hzero, zpow_add₀ (by norm_num), zpow_natCast]
          push_cast
          ring
        rw [← heq]
        exact_mod_cast hnext.trans_le hle
      rw [if_neg hbig, hround, gridPlace_of_lt hlt, extended, value, if_neg Bool.false_ne_true,
        one_mul]
  · obtain ⟨k, rfl⟩ : ∃ k : ℕ, target = e + (k + 1 : ℕ) := ⟨(target - e).toNat - 1, by omega⟩
    have hsub : (e + ((k + 1 : ℕ) : ℤ) - e).toNat = k + 1 := by omega
    have hscale : (m + θ) * 2 ^ e / 2 ^ (e + ((k + 1 : ℕ) : ℤ)) = (m + θ) / 2 ^ (k + 1) := by
      rw [zpow_add₀ (by norm_num), zpow_natCast]
      have hne := (zpow_grid_pos e).ne'
      field_simp
    have hle := @roundGrid_le_next_binade 24 minExponent ((m + θ) * 2 ^ e)
    rw [roundGrid, hgrid, hscale, roundEven_shift k h0 h1 hsticky] at hnormal hle ⊢
    rw [if_neg hexact, hsub, Nat.add_sub_cancel]
    exact extended_carry (mantissa_le (by exact_mod_cast hle)) fun hmin => by
      exact_mod_cast hnormal hmin

/-- A number of moderate size does not overflow. -/
theorem gridPlace_moderate {x : ℚ} (h0 : 0 ≤ x) (hx : x ≤ 2 ^ 24) :
    gridPlace (roundGrid 24 minExponent x) = point (roundGrid 24 minExponent x) := by
  have htop : gridExponent 24 minExponent ((2 : ℚ) ^ 24) = 1 := by
    have hlog := Int.log_zpow (R := ℚ) (b := 2) (by decide) 24
    have hcast : Int.log 2 ((2 : ℚ) ^ 24) = 24 := by exact_mod_cast hlog
    rw [gridExponent, hcast]
    decide
  apply gridPlace_of_lt
  calc roundGrid 24 minExponent x
      ≤ roundGrid 24 minExponent (2 ^ 24) := roundGrid_mono (by decide) h0 hx
    _ ≤ 2 ^ (gridExponent 24 minExponent ((2 : ℚ) ^ 24) + (24 : ℕ)) := roundGrid_le_next_binade _
    _ < 2 ^ 128 := by
      rw [htop]
      norm_num

/-- A number of moderate size is rounded to the grid. -/
theorem extended_roundTo (hm : 0 < m) (h0 : 0 ≤ θ) (h1 : θ < 1)
    (hsticky : sticky = true ↔ 0 < θ) (hshift : sticky = true → 2 ^ 24 ≤ m)
    (hx : (m + θ) * 2 ^ e ≤ 2 ^ 24) :
    extended (roundTo false m e sticky) =
      some (point (roundGrid 24 minExponent ((m + θ) * 2 ^ e))) := by
  have hmpos : (0 : ℚ) < m := by exact_mod_cast hm
  have hxpos : 0 < (m + θ) * 2 ^ e := mul_pos (by linarith) (zpow_grid_pos e)
  rw [extended_roundTo_gridPlace hm h0 h1 hsticky hshift, gridPlace_moderate hxpos.le hx]

/-- A whole mantissa, even of zero, is rounded to the grid. -/
theorem extended_roundTo_whole (m : ℕ) (e : ℤ) : extended (roundTo false m e false) =
    some (gridPlace (roundGrid 24 minExponent (m * 2 ^ e))) := by
  rcases m.eq_zero_or_pos with rfl | hm
  · rw [roundTo, if_pos rfl, zero, extended, value, Nat.cast_zero, zero_mul, zero_mul, mul_zero,
      roundGrid_zero, gridPlace_of_lt (by norm_num)]
  · have hround := extended_roundTo_gridPlace (θ := 0) (e := e) hm le_rfl zero_lt_one
      (by simp : false = true ↔ (0 : ℚ) < 0) (by simp)
    rwa [add_zero] at hround

/-- A short mantissa is exact, whatever is below its last place. -/
theorem roundTo_few (hm : 0 < m) (hfew : m < 2 ^ 24) (he : minExponent ≤ e) :
    roundTo false m e sticky = roundTo false m e false := by
  have hbits : Nat.log2 m < 24 := (Nat.log2_lt hm.ne').mpr hfew
  have htarget : max (e + (Nat.log2 m + 1 : ℕ) - 24) minExponent ≤ e := by
    push_cast
    omega
  rw [roundTo, roundTo]
  dsimp only
  rw [if_neg hm.ne', if_neg hm.ne', if_pos htarget, if_pos htarget]

/-- Rounding keeps the sign. -/
theorem roundTo_cases (s : Bool) (m : ℕ) (e : ℤ) (sticky : Bool) :
    (∃ q t, roundTo s m e sticky = .finite s q t) ∨ roundTo s m e sticky = .inf s := by
  have hfits : ∀ p : ℕ × ℤ,
      (∃ q t, (if 104 < p.2 then .inf s else .finite s p.1 p.2) = SoftFloat.finite s q t) ∨
        (if 104 < p.2 then .inf s else .finite s p.1 p.2) = SoftFloat.inf s := by
    intro p
    split
    · exact Or.inr rfl
    · exact Or.inl ⟨_, _, rfl⟩
  unfold roundTo
  dsimp only
  split
  · exact Or.inl ⟨_, _, rfl⟩
  · split
    · split
      · exact Or.inr rfl
      · exact Or.inl ⟨_, _, rfl⟩
    · exact hfits _

end Rounding

section Values

variable {s t : Bool} {m k n : ℕ} {e f : ℤ} {x y w : SoftFloat}

/-- Small whole numbers are exact. -/
theorem extended_ofNat (hn : n < 2 ^ 24) :
    extended (Binary32.ofNat n : SoftFloat) = some (point n) := by
  have hsmall : ((n : ℕ) : ℚ) ≤ 2 ^ 24 := by exact_mod_cast hn.le
  change extended (roundTo false n 0 false) = _
  rw [extended_roundTo_whole, zpow_zero, mul_one, gridPlace_moderate (Nat.cast_nonneg n) hsmall,
    roundGrid_natCast (by decide) hn]

theorem extended_zero : extended (0.0 : SoftFloat) = some (point 0) := by
  have hzero : (0.0 : SoftFloat) = .finite false 0 minExponent := by decide +kernel
  rw [hzero, extended, value]
  simp

/-- A number between zero and a small whole number is finite. -/
theorem finite_of_bounds (h0 : (0.0 : SoftFloat) ≤ x) (hn : n < 2 ^ 24) (h : x ≤ Binary32.ofNat n) :
    ∃ s m e, x = .finite s m e ∧ 0 ≤ value s m e ∧ value s m e ≤ n := by
  rw [le_iff_extended, extended_zero] at h0
  rw [le_iff_extended, extended_ofNat hn] at h
  obtain ⟨_, a, hzero, hx, hle⟩ := h0
  obtain ⟨_, _, hx', hbound, hle'⟩ := h
  obtain rfl := Option.some.inj (hx.symm.trans hx')
  obtain rfl := Option.some.inj hzero
  obtain rfl := Option.some.inj hbound
  rcases x with _ | s | ⟨s, m, e⟩
  · nomatch hx
  · obtain rfl := Option.some.inj hx
    cases s with
    | true => exact absurd hle (by simp)
    | false => exact absurd hle' (by simp)
  · obtain rfl := Option.some.inj hx
    refine ⟨s, m, e, rfl, ?_, ?_⟩
    · exact_mod_cast hle
    · exact_mod_cast hle'

theorem value_mul : value s m e * value t k f = value (s != t) (m * k) (e + f) := by
  rw [value, value, value, zpow_add₀ (by norm_num)]
  cases s <;> cases t <;> push_cast <;> simp <;> ring

/-- A value that is not negative has a positive sign or no mantissa. -/
theorem sign_of_nonneg (h : 0 ≤ value s m e) : s = false ∨ m = 0 := by
  cases s with
  | false => exact Or.inl rfl
  | true =>
    have hle : (m : ℚ) * 2 ^ e ≤ 0 := by
      rw [value, if_pos rfl] at h
      linarith
    have hm : (m : ℚ) ≤ 0 := nonpos_of_mul_nonpos_left hle (zpow_grid_pos e)
    exact Or.inr (by exact_mod_cast le_antisymm hm (Nat.cast_nonneg m))

/-- A product of numbers that are not negative is rounded to the grid. -/
theorem extended_mul_gridPlace (hx : 0 ≤ value s m e) (hy : 0 ≤ value t k f) :
    extended (SoftFloat.finite s m e * .finite t k f) =
      some (gridPlace (roundGrid 24 minExponent (value s m e * value t k f))) := by
  change extended (roundTo (s != t) (m * k) (e + f) false) = _
  rcases Nat.eq_zero_or_pos (m * k) with hzero | hpos
  · have hvalue : ∀ b i, value b 0 i = 0 := fun b i => by simp [value]
    rw [value_mul, roundTo, if_pos hzero, hzero, zero, extended, hvalue, hvalue, roundGrid_zero,
      gridPlace_of_lt (by norm_num)]
  · obtain ⟨hm, hk⟩ : 0 < m ∧ 0 < k := by
      constructor <;> by_contra hnot <;> simp_all
    obtain rfl := (sign_of_nonneg hx).resolve_right hm.ne'
    obtain rfl := (sign_of_nonneg hy).resolve_right hk.ne'
    have hvalue : value false m e * value false k f = ((m * k : ℕ) : ℚ) * 2 ^ (e + f) := by
      rw [value_mul, value]
      simp
    rw [hvalue]
    exact extended_roundTo_whole (m * k) (e + f)

/-- A moderate product of numbers that are not negative is rounded to the grid. -/
theorem extended_mul (hx : 0 ≤ value s m e) (hy : 0 ≤ value t k f)
    (hsmall : value s m e * value t k f ≤ 2 ^ 24) :
    extended (SoftFloat.finite s m e * .finite t k f) =
      some (point (roundGrid 24 minExponent (value s m e * value t k f))) := by
  rw [extended_mul_gridPlace hx hy, gridPlace_moderate (mul_nonneg hx hy) hsmall]

/-- Truncation does not exceed a value that is not negative. -/
theorem toNat_le_value (h : 0 ≤ value s m e) :
    (Binary32.toNat (SoftFloat.finite s m e) : ℚ) ≤ value s m e := by
  change ((if s then 0 else min (wholePart m e).1 (2 ^ 32 - 1) : ℕ) : ℚ) ≤ _
  cases s with
  | true => simpa using h
  | false =>
    have hvalue : value false m e = m * 2 ^ e := by simp [value]
    have hmin : ((min (wholePart m e).1 (2 ^ 32 - 1) : ℕ) : ℚ) ≤ (wholePart m e).1 := by
      exact_mod_cast Nat.min_le_left _ _
    refine hmin.trans ?_
    rw [hvalue, wholePart]
    split
    · rename_i hnonneg
      obtain ⟨k, rfl⟩ := Int.eq_ofNat_of_zero_le hnonneg
      rw [Int.toNat_natCast, zpow_natCast]
      push_cast
      exact le_rfl
    · rename_i hneg
      obtain ⟨k, rfl⟩ : ∃ k : ℕ, e = -k := ⟨(-e).toNat, by omega⟩
      have hpos : (0 : ℚ) < 2 ^ k := by positivity
      rw [neg_neg, Int.toNat_natCast, zpow_neg, zpow_natCast, ← div_eq_mul_inv, le_div_iff₀ hpos]
      exact_mod_cast Nat.div_mul_le_self m (2 ^ k)

theorem toNat_le_of_extended {v : ℚ} (h : extended x = some (point v)) (h0 : 0 ≤ v) :
    (Binary32.toNat x : ℚ) ≤ v := by
  rcases x with _ | s | ⟨s, m, e⟩
  · nomatch h
  · cases s <;> simp [extended] at h
  · obtain rfl : value s m e = v := by
      simpa [extended, WithBot.coe_inj, WithTop.coe_inj] using h
    exact toNat_le_value h0

/-- A negative number truncates to zero. -/
theorem toNat_negative (m : ℕ) (e : ℤ) (sticky : Bool) :
    Binary32.toNat (roundTo true m e sticky) = 0 := by
  rcases roundTo_cases true m e sticky with ⟨q, t, h⟩ | h
  · rw [h]
    rfl
  · rw [h]
    rfl

end Values

/-- The shifted quotient and its rest are the quotient. -/
theorem quotient_value (m : ℕ) {d : ℕ} (hd : 0 < d) :
    ((m * 2 ^ 128 / d : ℕ) + ((m * 2 ^ 128 % d : ℕ) / d : ℚ)) * 2 ^ (0 - 128 : ℤ) = m / d := by
  have hdq : (d : ℚ) ≠ 0 := by exact_mod_cast hd.ne'
  have hsplit : (m : ℚ) * 2 ^ 128 = d * (m * 2 ^ 128 / d : ℕ) + (m * 2 ^ 128 % d : ℕ) := by
    exact_mod_cast (Nat.div_add_mod (m * 2 ^ 128) d).symm
  have hsum : ((m * 2 ^ 128 / d : ℕ) + ((m * 2 ^ 128 % d : ℕ) / d : ℚ)) = m * 2 ^ 128 / d := by
    rw [hsplit]
    field_simp
  have hne : (2 : ℚ) ^ (128 : ℤ) = 2 ^ 128 := by norm_cast
  rw [hsum, zero_sub, zpow_neg, hne]
  field_simp

/-- A quotient that is not tiny is rounded to the grid. -/
theorem extended_quotient (m : ℕ) {d : ℕ} (hd : 0 < d) (hq : 2 ^ 24 ≤ m * 2 ^ 128 / d) :
    extended (quotient false m d 0) = some (gridPlace (roundGrid 24 minExponent (m / d))) := by
  have hdq : (0 : ℚ) < d := by exact_mod_cast hd
  have hrlt : ((m * 2 ^ 128 % d : ℕ) : ℚ) < d := by exact_mod_cast Nat.mod_lt _ hd
  have hsticky : decide (m * 2 ^ 128 % d ≠ 0) = true ↔ 0 < ((m * 2 ^ 128 % d : ℕ) / d : ℚ) := by
    rw [decide_eq_true_eq, div_pos_iff_of_pos_right hdq, Nat.cast_pos]
    exact Nat.pos_iff_ne_zero.symm
  rw [quotient, extended_roundTo_gridPlace (lt_of_lt_of_le (by norm_num) hq)
    (div_nonneg (Nat.cast_nonneg _) hdq.le) ((div_lt_one hdq).mpr hrlt) hsticky (fun _ => hq),
    quotient_value m hd]

/-- A decimal is not above a whole number that bounds it. -/
theorem decimal_le_ofNat {m k n : ℕ} (h : m ≤ n * 10 ^ k) (hn : n < 2 ^ 24) :
    (Binary32.ofDecimal m k : SoftFloat) ≤ Binary32.ofNat n := by
  rw [le_iff_extended, extended_ofNat hn]
  suffices hround : ∃ v : ℚ, extended (quotient false m (10 ^ k) 0) = some (point v) ∧ v ≤ n by
    obtain ⟨v, hv, hle⟩ := hround
    exact ⟨_, _, hv, rfl, by exact_mod_cast hle⟩
  obtain ⟨d, hd⟩ : ∃ d, 10 ^ k = d := ⟨_, rfl⟩
  have hdpos : 0 < d := hd ▸ Nat.pow_pos (by decide)
  rw [hd] at h ⊢
  have hdq : (0 : ℚ) < d := by exact_mod_cast hdpos
  have hbound : (m : ℚ) / d ≤ n := by
    rw [div_le_iff₀ hdq]
    exact_mod_cast h
  have hround : ∀ v : ℚ, 0 ≤ v → v ≤ n → roundGrid 24 minExponent v ≤ n := fun v h0 hv =>
    (roundGrid_mono (by decide) h0 hv).trans_eq (roundGrid_natCast (by decide) hn)
  have hsmall : (n : ℚ) ≤ 2 ^ 24 := by exact_mod_cast hn.le
  by_cases hfew : m * 2 ^ 128 / d < 2 ^ 24
  · -- a tiny quotient loses its rest
    have hexact := quotient_value m hdpos
    rw [quotient]
    generalize m * 2 ^ 128 / d = q at hfew hexact
    have hrest : (0 : ℚ) ≤ (m * 2 ^ 128 % d : ℕ) / d := div_nonneg (Nat.cast_nonneg _) hdq.le
    have hwhole : (q : ℚ) * 2 ^ (0 - 128 : ℤ) ≤ m / d := by
      rw [← hexact]
      exact mul_le_mul_of_nonneg_right (by linarith) (zpow_grid_pos _).le
    have hnonneg : 0 ≤ (q : ℚ) * 2 ^ (0 - 128 : ℤ) :=
      mul_nonneg (Nat.cast_nonneg q) (zpow_grid_pos _).le
    have hrounded : roundTo false q (0 - 128) (decide (m * 2 ^ 128 % d ≠ 0)) =
        roundTo false q (0 - 128) false := by
      rcases q.eq_zero_or_pos with rfl | hqpos
      · rw [roundTo, roundTo, if_pos rfl, if_pos rfl]
      · exact roundTo_few hqpos hfew (by decide)
    rw [hrounded, extended_roundTo_whole,
      gridPlace_moderate hnonneg (hwhole.trans (hbound.trans hsmall))]
    exact ⟨_, rfl, hround _ hnonneg (hwhole.trans hbound)⟩
  · have hnonneg : (0 : ℚ) ≤ m / d := div_nonneg (Nat.cast_nonneg m) hdq.le
    rw [extended_quotient m hdpos (Nat.le_of_not_lt hfew),
      gridPlace_moderate hnonneg (hbound.trans hsmall)]
    exact ⟨_, rfl, hround _ hnonneg hbound⟩

/-- A share of a number that is not negative. -/
theorem extended_share {x w : SoftFloat} {n : ℕ} (h0 : (0.0 : SoftFloat) ≤ x)
    (hxn : x ≤ Binary32.ofNat n) (hn : n < 2 ^ 24) (hw0 : (0.0 : SoftFloat) ≤ w)
    (hw1 : w ≤ Binary32.ofNat 1) :
    ∃ a b : ℚ, extended x = some (point a) ∧ extended w = some (point b) ∧ 0 ≤ a ∧ a ≤ n ∧
      0 ≤ b ∧ b ≤ 1 ∧ extended (x * w) = some (point (roundGrid 24 minExponent (a * b))) := by
  obtain ⟨s, m, e, rfl, hm0, hmn⟩ := finite_of_bounds h0 hn hxn
  obtain ⟨t, k, f, rfl, hk0, hk1⟩ := finite_of_bounds hw0 (by decide) hw1
  rw [Nat.cast_one] at hk1
  have hsmall : value s m e * value t k f ≤ 2 ^ 24 := by
    have hle : (n : ℚ) ≤ 2 ^ 24 := by exact_mod_cast hn.le
    exact (mul_le_of_le_one_right hm0 hk1).trans (hmn.trans hle)
  exact ⟨_, _, rfl, rfl, hm0, hmn, hk0, hk1, extended_mul hm0 hk0 hsmall⟩

theorem le_trans_soft {x y z : SoftFloat} (hxy : x ≤ y) (hyz : y ≤ z) : x ≤ z := by
  rw [le_iff_extended] at hxy hyz ⊢
  obtain ⟨a, b, ha, hb, hab⟩ := hxy
  obtain ⟨b', c, hb', hc, hbc⟩ := hyz
  obtain rfl := Option.some.inj (hb.symm.trans hb')
  exact ⟨a, c, ha, hc, hab.trans hbc⟩

instance : LawfulBinary32 SoftFloat where
  le_trans := le_trans_soft
  le_total hx hy := by
    rw [le_iff_extended] at hx hy
    obtain ⟨a, _, ha, _⟩ := hx
    obtain ⟨b, _, hb, _⟩ := hy
    rcases le_total a b with hle | hle
    · exact Or.inl ((le_iff_extended _ _).mpr ⟨a, b, ha, hb, hle⟩)
    · exact Or.inr ((le_iff_extended _ _).mpr ⟨b, a, hb, ha, hle⟩)
  number_of_le h := by
    obtain ⟨a, b, ha, hb, _⟩ := (le_iff_extended _ _).mp h
    exact ⟨(le_iff_extended _ _).mpr ⟨a, a, ha, ha, le_rfl⟩,
      (le_iff_extended _ _).mpr ⟨b, b, hb, hb, le_rfl⟩⟩
  lt_iff := by
    intro x y
    rw [lt_iff_extended, le_iff_extended, le_iff_extended]
    constructor
    · rintro ⟨a, b, ha, hb, hlt⟩
      refine ⟨⟨a, b, ha, hb, hlt.le⟩, ?_⟩
      rintro ⟨b', a', hb', ha', hle⟩
      obtain rfl := Option.some.inj (ha.symm.trans ha')
      obtain rfl := Option.some.inj (hb.symm.trans hb')
      exact absurd hlt (not_lt.mpr hle)
    · rintro ⟨⟨a, b, ha, hb, _⟩, hnot⟩
      exact ⟨a, b, ha, hb, lt_of_not_ge fun hle => hnot ⟨b, a, hb, ha, hle⟩⟩
  beq_iff := by
    intro x y
    rw [beq_iff_extended, le_iff_extended, le_iff_extended]
    constructor
    · rintro ⟨a, ha, hb⟩
      exact ⟨⟨a, a, ha, hb, le_rfl⟩, ⟨a, a, hb, ha, le_rfl⟩⟩
    · rintro ⟨⟨a, b, ha, hb, hab⟩, ⟨b', a', hb', ha', hba⟩⟩
      obtain rfl := Option.some.inj (ha.symm.trans ha')
      obtain rfl := Option.some.inj (hb.symm.trans hb')
      exact ⟨a, ha, by rw [hb, le_antisymm hab hba]⟩
  maximum_cases := by
    intro x y hx
    have hmax : Binary32.maximum x y =
        if lt x y || instBEqOfDecidableEq.beq x nan then y else x := rfl
    have hnumber : instBEqOfDecidableEq.beq x nan = false := by
      apply decide_eq_false
      rintro rfl
      obtain ⟨a, _, ha, _⟩ := (le_iff_extended _ _).mp hx
      nomatch ha
    rw [hmax, hnumber, Bool.or_false]
    by_cases hlt : lt x y = true
    · rw [if_pos hlt]
      obtain ⟨a, b, ha, hb, hab⟩ := (lt_iff_extended x y).mp hlt
      exact Or.inr ⟨rfl, (le_iff_extended x y).mpr ⟨a, b, ha, hb, hab.le⟩⟩
    · rw [if_neg hlt]
      exact Or.inl ⟨rfl, hlt⟩
  zero_le_decimal m k := by
    rw [le_iff_extended, extended_zero]
    rcases roundTo_cases false (m * 2 ^ 128 / 10 ^ k) (0 - 128)
      (decide (m * 2 ^ 128 % 10 ^ k ≠ 0)) with ⟨q, t, h⟩ | h
    · refine ⟨_, point (value false q t), rfl, congrArg extended h, ?_⟩
      have hnonneg : 0 ≤ value false q t := by
        rw [value, if_neg Bool.false_ne_true, one_mul]
        exact mul_nonneg (Nat.cast_nonneg q) (zpow_grid_pos t).le
      exact_mod_cast hnonneg
    · exact ⟨_, ⊤, rfl, congrArg extended h, le_top⟩
  decimal_le_ofNat := decimal_le_ofNat
  mul_le_mul := by
    intro x y w n h0 hxy hyn hn hw0 hw1
    have hxn : x ≤ Binary32.ofNat n := le_trans_soft hxy hyn
    have h0y : (0.0 : SoftFloat) ≤ y := le_trans_soft h0 hxy
    obtain ⟨a, c, ha, hc, ha0, _, hc0, _, hx⟩ := extended_share h0 hxn hn hw0 hw1
    obtain ⟨b, c', hb, hc', _, _, _, _, hy⟩ := extended_share h0y hyn hn hw0 hw1
    obtain rfl : c = c' := by simpa [WithBot.coe_inj, WithTop.coe_inj] using hc.symm.trans hc'
    obtain ⟨_, _, ha', hb', hab⟩ := (le_iff_extended x y).mp hxy
    rw [ha, Option.some.injEq] at ha'
    rw [hb, Option.some.injEq] at hb'
    rw [← ha', ← hb'] at hab
    have hle : a ≤ b := by exact_mod_cast hab
    rw [le_iff_extended]
    refine ⟨_, _, hx, hy, ?_⟩
    exact_mod_cast roundGrid_mono (by decide) (mul_nonneg ha0 hc0)
      (mul_le_mul_of_nonneg_right hle hc0)
  mul_le_zero := by
    intro x w h0 hx hw0 hw1
    have hzero : (0.0 : SoftFloat) ≤ Binary32.ofNat 0 := by decide +kernel
    obtain ⟨a, b, _, _, ha0, ha1, _, _, hmul⟩ :=
      extended_share h0 (le_trans_soft hx hzero) (by decide) hw0 hw1
    have ha : a = 0 := le_antisymm (by simpa using ha1) ha0
    rw [ha, zero_mul, roundGrid_zero] at hmul
    exact (le_iff_extended _ _).mpr ⟨_, _, hmul, extended_zero, le_rfl⟩
  powi_share := by
    intro w n h0 h1
    induction n with
    | zero =>
      have hone : Binary32.powi w 0 = Binary32.ofNat 1 := rfl
      rw [hone]
      exact ⟨by decide +kernel, by decide +kernel⟩
    | succ n ih =>
      obtain ⟨a, b, _, _, ha0, ha1, hb0, hb1, hmul⟩ :=
        extended_share ih.1 ih.2 (by decide) h0 h1
      have hpow : Binary32.powi w (n + 1) = Binary32.powi w n * w := rfl
      rw [Nat.cast_one] at ha1
      have hle : roundGrid 24 minExponent (a * b) ≤ 1 := by
        have hone := @roundGrid_natCast 24 minExponent (by decide) 1 (by decide)
        rw [Nat.cast_one] at hone
        rw [← hone]
        exact roundGrid_mono (by decide) (mul_nonneg ha0 hb0) (mul_le_one₀ ha1 hb0 hb1)
      have hge : 0 ≤ roundGrid 24 minExponent (a * b) := roundGrid_nonneg (mul_nonneg ha0 hb0)
      rw [hpow, le_iff_extended, le_iff_extended, extended_zero, extended_ofNat (by decide), hmul]
      refine ⟨⟨_, _, rfl, rfl, by exact_mod_cast hge⟩, ⟨_, _, rfl, rfl, ?_⟩⟩
      rw [Nat.cast_one]
      exact_mod_cast hle
  toNat_lt := by
    intro x n h0 h hn
    have hle : x ≤ Binary32.ofNat n := by
      obtain ⟨a, b, ha, hb, hab⟩ := (lt_iff_extended _ _).mp h
      exact (le_iff_extended _ _).mpr ⟨a, b, ha, hb, hab.le⟩
    obtain ⟨s, m, e, rfl, hm0, _⟩ := finite_of_bounds h0 hn hle
    obtain ⟨_, _, ha, hb, hab⟩ := (lt_iff_extended _ _).mp h
    obtain rfl := Option.some.inj ha
    obtain rfl := Option.some.inj ((extended_ofNat hn).symm.trans hb)
    have hlt : value s m e < n := by exact_mod_cast hab
    exact_mod_cast (toNat_le_value hm0).trans_lt hlt
  toNat_share_le := by
    intro w n hw hn
    obtain ⟨s, m, e, hx, hm0, hmn⟩ := finite_of_bounds (x := Binary32.ofNat n) (n := n)
      ((le_iff_extended _ _).mpr ⟨_, _, extended_zero, extended_ofNat hn, by
        exact_mod_cast Nat.cast_nonneg (α := ℚ) n⟩) hn
      ((le_iff_extended _ _).mpr ⟨_, _, extended_ofNat hn, extended_ofNat hn, le_rfl⟩)
    rw [hx]
    obtain ⟨a, _, ha, h1, hle⟩ := (le_iff_extended _ _).mp hw
    obtain rfl := Option.some.inj ((extended_ofNat (by decide)).symm.trans h1)
    rw [Nat.cast_one] at hle
    rcases w with _ | t | ⟨t, k, f⟩
    · nomatch ha
    · obtain rfl := Option.some.inj ha
      cases t with
      | false => exact absurd hle (by simp)
      | true =>
        change toNat (if m = 0 then nan else inf (s != true)) ≤ n
        rcases sign_of_nonneg hm0 with rfl | rfl
        · split <;> exact Nat.zero_le n
        · exact Nat.zero_le n
    · obtain rfl := Option.some.inj ha
      have hk1 : value t k f ≤ 1 := by exact_mod_cast hle
      by_cases hk0 : 0 ≤ value t k f
      · have hsmall : value s m e * value t k f ≤ n :=
          (mul_le_of_le_one_right hm0 hk1).trans hmn
        have hmul := extended_mul hm0 hk0 (hsmall.trans (by exact_mod_cast hn.le))
        have hbound : roundGrid 24 minExponent (value s m e * value t k f) ≤ n :=
          (roundGrid_mono (by decide) (mul_nonneg hm0 hk0) hsmall).trans_eq
            (roundGrid_natCast (by decide) hn)
        exact_mod_cast (toNat_le_of_extended hmul
          (roundGrid_nonneg (mul_nonneg hm0 hk0))).trans hbound
      · have htrue : t = true := by
          cases t with
          | true => rfl
          | false =>
            refine absurd ?_ hk0
            rw [value, if_neg Bool.false_ne_true, one_mul]
            exact mul_nonneg (Nat.cast_nonneg k) (zpow_grid_pos f).le
        rw [htrue]
        change toNat (roundTo (s != true) (m * k) (e + f) false) ≤ n
        rcases sign_of_nonneg hm0 with rfl | rfl
        · exact (toNat_negative (m * k) (e + f) false).trans_le (Nat.zero_le n)
        · rw [Nat.zero_mul, roundTo, if_pos rfl]
          cases s <;> exact Nat.zero_le n

end SoftFloat

end Gemacast.Core
