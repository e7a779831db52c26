import Mathlib.Algebra.BigOperators.Group.List.Basic
import Mathlib.Algebra.Order.BigOperators.Group.List
import Mathlib.Data.List.Induction
import Mathlib.Order.Bounds.Basic
import Gemacast.Core.LawfulBinary32
import Gemacast.Jitter.Stats

/-!
# Mass of the delay histogram

The histogram of relative delays is a distribution in units of `2 ^ -30`. Forgetting
truncates every bin, the observed bin takes what was forgotten, and the drift of the
truncations is put back, so that every update ends with the whole mass. The bins, the
factor and the walk for the percentile are bounded, so nothing overflows 64 bits.
-/

namespace Gemacast.Jitter

open Gemacast.Core

/-- A signed 64-bit result, absent when it overflows. -/
def checkedI64 (x : ℤ) : Option ℤ := if -2 ^ 63 ≤ x ∧ x < 2 ^ 63 then some x else none

theorem checkedI64_of_bounds {x : ℤ} (hlo : -2 ^ 63 ≤ x) (hhi : x < 2 ^ 63) :
    checkedI64 x = some x := if_pos ⟨hlo, hhi⟩

namespace JitterStats

variable {F : Type} [Binary32 F]

section Checked

/-- Scale every bin by the factor and add the bins up, in 64 bits. -/
def forgetChecked (factor : ℤ) : List ℤ → ℤ → Option (List ℤ × ℤ)
  | [], vectorSum => some ([], vectorSum)
  | bin :: bins, vectorSum => do
    let product ← checkedI64 (bin * factor)
    let vectorSum ← checkedI64 (vectorSum + product >>> (15 : ℕ))
    let (bins, vectorSum) ← forgetChecked factor bins vectorSum
    some (product >>> (15 : ℕ) :: bins, vectorSum)

/-- Take the drift out of the bins in 64 bits; what remains of it is returned. -/
def absorbDriftChecked (flip : ℤ) : List ℤ → ℤ → Option (List ℤ × ℤ)
  | [], vectorSum => some ([], vectorSum)
  | bin :: bins, vectorSum =>
    if vectorSum = 0 then some (bin :: bins, vectorSum)
    else do
      let magnitude ← checkedI64 vectorSum.natAbs
      let correction ← checkedI64 (flip * min magnitude (bin >>> (4 : ℕ)))
      let bin ← checkedI64 (bin + correction)
      let vectorSum ← checkedI64 (vectorSum + correction)
      let (bins, vectorSum) ← absorbDriftChecked flip bins vectorSum
      some (bin :: bins, vectorSum)

/-- Walk the reverse distribution in 64 bits. -/
def percentileWalkChecked : List ℤ → ℤ → ℕ → Option ℕ
  | [], _, index => some index
  | bin :: bins, sum, index =>
    if limitProbability < sum then do
      let sum ← checkedI64 (sum - bin)
      percentileWalkChecked bins sum (index + 1)
    else some index

/-- The update in 64-bit arithmetic, absent when an operation overflows or an index is out
of bounds; with the drift that could not be absorbed. -/
def updateIatHistogramChecked (s : JitterStats F) (delayFrames : F) :
    Option (JitterStats F × ℤ) :=
  match histogramBin delayFrames with
  | none => some (s, 0)
  | some bin => do
    let (forgotten, vectorSum) ← forgetChecked s.iatFactor s.iatHistogram 0
    let complement ← checkedI64 (32768 - s.iatFactor)
    let increment ← checkedI64 (complement <<< (15 : ℕ))
    let observed ← forgotten[bin]?
    let observed ← checkedI64 (observed + increment)
    let vectorSum ← checkedI64 (vectorSum + increment)
    let vectorSum ← checkedI64 (vectorSum - histogramUnit)
    let flip : ℤ := if 0 < vectorSum then -1 else 1
    let (bins, drift) ← absorbDriftChecked flip (forgotten.set bin observed) vectorSum
    let distance ← checkedI64 (iatFactorSteady - s.iatFactor)
    let distance ← checkedI64 (distance + 3)
    let iatFactor ← checkedI64 (s.iatFactor + distance >>> (2 : ℕ))
    let sum ← checkedI64 (histogramUnit - bins.headD 0)
    let index ← percentileWalkChecked bins.tail sum 0
    some
      ({ s with iatHistogram := bins, iatFactor, iatPercentileTarget := Binary32.ofNat index },
        drift)

end Checked

section Forget

variable {bins : List ℤ} {factor : ℤ}

/-- A truncated bin lies below its exact share by less than one. -/
theorem forget_bin {bin : ℤ} (hbin : 0 ≤ bin) (hfactor : 0 ≤ factor) (hle : factor ≤ 32768) :
    0 ≤ (bin * factor) >>> (15 : ℕ) ∧ (bin * factor) >>> (15 : ℕ) ≤ bin ∧
      32768 * ((bin * factor) >>> (15 : ℕ)) ≤ bin * factor ∧
      bin * factor ≤ 32768 * ((bin * factor) >>> (15 : ℕ)) + 32767 := by
  have hprod : 0 ≤ bin * factor := Int.mul_nonneg hbin hfactor
  have hbound : bin * factor ≤ bin * 32768 := Int.mul_le_mul_of_nonneg_left hle hbin
  rw [Int.shiftRight_eq_div_pow]
  norm_num
  omega

/-- Forgetting keeps the bins non-negative and loses less than one unit a bin. -/
theorem forget_bins (hbins : ∀ bin ∈ bins, 0 ≤ bin) (hfactor : 0 ≤ factor) (hle : factor ≤ 32768) :
    let forgotten := bins.map fun bin => (bin * factor) >>> (15 : ℕ)
    (∀ bin ∈ forgotten, 0 ≤ bin) ∧ forgotten.sum ≤ bins.sum ∧
      32768 * forgotten.sum ≤ bins.sum * factor ∧
      bins.sum * factor ≤ 32768 * forgotten.sum + 32767 * bins.length := by
  induction bins with
  | nil => simp
  | cons bin bins ih =>
    obtain ⟨hnonneg, hsum, hlow, hhigh⟩ := ih fun b hb => hbins b (List.mem_cons_of_mem _ hb)
    obtain ⟨h0, h1, h2, h3⟩ := forget_bin (hbins bin List.mem_cons_self) hfactor hle
    simp only [List.map_cons, List.sum_cons, List.mem_cons, List.length_cons, add_mul]
    refine ⟨?_, by omega, by omega, by push_cast; omega⟩
    rintro b (rfl | hb)
    · exact h0
    · exact hnonneg b hb

/-- Scaling bins of moderate mass does not overflow. -/
theorem forgetChecked_eq {vectorSum : ℤ} (hbins : ∀ bin ∈ bins, 0 ≤ bin) (hfactor : 0 ≤ factor)
    (hle : factor ≤ 32768) (hacc : 0 ≤ vectorSum) (hmass : vectorSum + bins.sum ≤ 2 ^ 31) :
    forgetChecked factor bins vectorSum =
      some (bins.map fun bin => (bin * factor) >>> (15 : ℕ),
        vectorSum + (bins.map fun bin => (bin * factor) >>> (15 : ℕ)).sum) := by
  induction bins generalizing vectorSum with
  | nil => simp [forgetChecked]
  | cons bin bins ih =>
    have hbin := hbins bin List.mem_cons_self
    have hrest : ∀ b ∈ bins, 0 ≤ b := fun b hb => hbins b (List.mem_cons_of_mem _ hb)
    have hsum := List.sum_nonneg hrest
    obtain ⟨h0, h1, _, _⟩ := forget_bin hbin hfactor hle
    rw [List.sum_cons] at hmass
    have hprod0 : 0 ≤ bin * factor := Int.mul_nonneg hbin hfactor
    have hprod1 : bin * factor ≤ bin * 32768 := Int.mul_le_mul_of_nonneg_left hle hbin
    rw [forgetChecked, checkedI64_of_bounds (by omega) (by omega), Option.bind_eq_bind,
      Option.bind_some, checkedI64_of_bounds (by omega) (by omega), Option.bind_eq_bind,
      Option.bind_some, ih hrest (by omega) (by omega)]
    simp [add_assoc]

end Forget

section Absorb

variable {bins : List ℤ} {vectorSum : ℤ}

/-- Without a drift the bins stay as they are. -/
theorem absorbDrift_zero (flip : ℤ) :
    absorbDriftChecked flip bins 0 = some (bins, 0) ∧ absorbDrift flip bins 0 = bins := by
  cases bins with
  | nil => exact ⟨rfl, rfl⟩
  | cons bin bins => exact ⟨if_pos rfl, if_pos rfl⟩

/-- A small negative drift is taken up completely once a bin is large enough, and no
operation overflows. -/
theorem absorbDriftChecked_eq (hbins : ∀ bin ∈ bins, 0 ≤ bin ∧ bin ≤ 2 ^ 31)
    (hlow : -64 ≤ vectorSum) (hhigh : vectorSum ≤ 0) (hlarge : ∃ bin ∈ bins, 1024 ≤ bin) :
    absorbDriftChecked 1 bins vectorSum = some (absorbDrift 1 bins vectorSum, 0) ∧
      (absorbDrift 1 bins vectorSum).sum = bins.sum - vectorSum ∧
      (absorbDrift 1 bins vectorSum).length = bins.length ∧
      ∀ bin ∈ absorbDrift 1 bins vectorSum, 0 ≤ bin := by
  induction bins generalizing vectorSum with
  | nil => obtain ⟨bin, hbin, _⟩ := hlarge; nomatch hbin
  | cons bin bins ih =>
    obtain ⟨hbin0, hbin1⟩ := hbins bin List.mem_cons_self
    have hrest : ∀ b ∈ bins, 0 ≤ b ∧ b ≤ 2 ^ 31 := fun b hb => hbins b (List.mem_cons_of_mem _ hb)
    by_cases hspent : vectorSum = 0
    · simp only [absorbDriftChecked, absorbDrift, hspent, if_true, sub_zero, true_and]
      intro b hb
      exact (hbins b hb).1
    · obtain ⟨c, hc⟩ : ∃ c, min (vectorSum.natAbs : ℤ) (bin >>> (4 : ℕ)) = c := ⟨_, rfl⟩
      have hshift : bin >>> (4 : ℕ) = bin / 16 := Int.shiftRight_eq_div_pow bin 4
      have hc0 : 0 ≤ c := by omega
      have hc1 : c ≤ -vectorSum := by omega
      have hchecked : absorbDriftChecked 1 (bin :: bins) vectorSum =
          (absorbDriftChecked 1 bins (vectorSum + c)).bind fun rest =>
            some ((bin + c) :: rest.1, rest.2) := by
        have h1 : checkedI64 vectorSum.natAbs = some (vectorSum.natAbs : ℤ) :=
          checkedI64_of_bounds (by omega) (by omega)
        have h2 : checkedI64 c = some c := checkedI64_of_bounds (by omega) (by omega)
        have h3 : checkedI64 (bin + c) = some (bin + c) :=
          checkedI64_of_bounds (by omega) (by omega)
        have h4 : checkedI64 (vectorSum + c) = some (vectorSum + c) :=
          checkedI64_of_bounds (by omega) (by omega)
        simp only [absorbDriftChecked, if_neg hspent, h1, Option.bind_eq_bind, Option.bind_some,
          one_mul, hc, h2, h3, h4]
      have hplain : absorbDrift 1 (bin :: bins) vectorSum =
          (bin + c) :: absorbDrift 1 bins (vectorSum + c) := by
        rw [absorbDrift, if_neg hspent]
        dsimp only
        rw [one_mul, hc]
      have htail : absorbDriftChecked 1 bins (vectorSum + c) =
            some (absorbDrift 1 bins (vectorSum + c), 0) ∧
          (absorbDrift 1 bins (vectorSum + c)).sum = bins.sum - (vectorSum + c) ∧
          (absorbDrift 1 bins (vectorSum + c)).length = bins.length ∧
          ∀ b ∈ absorbDrift 1 bins (vectorSum + c), 0 ≤ b := by
        obtain ⟨b, hb, hbig⟩ := hlarge
        rcases List.mem_cons.mp hb with rfl | hb
        · have hall : vectorSum + c = 0 := by omega
          rw [hall, (absorbDrift_zero 1).1, (absorbDrift_zero 1).2, sub_zero]
          exact ⟨rfl, rfl, rfl, fun b hb => (hrest b hb).1⟩
        · exact ih hrest (by omega) (by omega) ⟨b, hb, hbig⟩
      obtain ⟨htail, hsum, hlength, hnonneg⟩ := htail
      rw [hchecked, hplain, htail, Option.bind_some, List.sum_cons, List.sum_cons, hsum,
        List.length_cons, hlength]
      refine ⟨rfl, by omega, rfl, ?_⟩
      rintro b hb
      rcases List.mem_cons.mp hb with rfl | hb
      · omega
      · exact hnonneg b hb

end Absorb

section Percentile

/-- The walk stops at the first tail within the limit. -/
theorem isLeast_percentileWalk (tail : List ℤ) (k : ℕ) :
    ∃ j, percentileWalk tail tail.sum k = k + j ∧
      IsLeast {i | i ≤ tail.length ∧ (tail.drop i).sum ≤ limitProbability} j := by
  induction tail generalizing k with
  | nil => exact ⟨0, rfl, ⟨le_rfl, by decide⟩, fun i _ => Nat.zero_le i⟩
  | cons bin bins ih =>
    by_cases hover : limitProbability < (bin :: bins).sum
    · obtain ⟨j, hj, ⟨hlength, htail⟩, hleast⟩ := ih (k + 1)
      have hrest : (bin :: bins).sum - bin = bins.sum := by
        rw [List.sum_cons]
        omega
      rw [percentileWalk, if_pos hover, hrest, hj]
      refine ⟨j + 1, by omega, ⟨Nat.succ_le_succ hlength, htail⟩, ?_⟩
      rintro i ⟨hi, hbound⟩
      cases i with
      | zero => exact absurd hbound (not_le.mpr hover)
      | succ i => exact Nat.succ_le_succ (hleast ⟨Nat.le_of_succ_le_succ hi, hbound⟩)
    · refine ⟨0, ?_, ⟨Nat.zero_le _, not_lt.mp hover⟩, fun i _ => Nat.zero_le i⟩
      rw [percentileWalk, if_neg hover, Nat.add_zero]

/-- The walk over bins of moderate mass does not overflow. -/
theorem percentileWalkChecked_eq {tail : List ℤ} (k : ℕ) (htail : ∀ bin ∈ tail, 0 ≤ bin)
    (hmass : tail.sum ≤ 2 ^ 31) :
    percentileWalkChecked tail tail.sum k = some (percentileWalk tail tail.sum k) := by
  induction tail generalizing k with
  | nil => rfl
  | cons bin bins ih =>
    have hbin := htail bin List.mem_cons_self
    have hrest : ∀ b ∈ bins, 0 ≤ b := fun b hb => htail b (List.mem_cons_of_mem _ hb)
    have hsum := List.sum_nonneg hrest
    rw [List.sum_cons] at hmass ⊢
    have hsub : bin + bins.sum - bin = bins.sum := by omega
    rw [percentileWalkChecked, percentileWalk, hsub]
    split
    · rw [checkedI64_of_bounds (by omega) (by omega), Option.bind_eq_bind, Option.bind_some,
        ih _ hrest (by omega)]
    · rfl

end Percentile

section Update

/-- Raising one entry of a list. -/
theorem modify_add {bins : List ℤ} {k : ℕ} (hk : k < bins.length) (c : ℤ) :
    ∃ old ∈ bins, bins[k]? = some old ∧ bins.modify k (· + c) = bins.set k (old + c) ∧
      (bins.set k (old + c)).sum = bins.sum + c := by
  induction bins generalizing k with
  | nil => nomatch hk
  | cons bin bins ih =>
    cases k with
    | zero =>
      refine ⟨bin, List.mem_cons_self, rfl, rfl, ?_⟩
      rw [List.set_cons_zero, List.sum_cons, List.sum_cons]
      omega
    | succ k =>
      obtain ⟨old, hmem, hget, hmodify, hsum⟩ := ih (Nat.lt_of_succ_lt_succ hk)
      refine ⟨old, List.mem_cons_of_mem _ hmem, hget, ?_, ?_⟩
      · rw [List.modify_succ_cons, hmodify, List.set_cons_succ]
      · rw [List.set_cons_succ, List.sum_cons, List.sum_cons, hsum]
        omega

/-- The target is a whole number of frames. -/
def IsFrames (x : F) (n : ℕ) : Prop := x = Binary32.ofNat n ∨ x = Binary32.ofDecimal (n * 10) 1

/-- What every update keeps. -/
structure HistogramInv (s : JitterStats F) : Prop where
  length : s.iatHistogram.length = iatHistogramBins
  nonneg : ∀ bin ∈ s.iatHistogram, 0 ≤ bin
  mass_le : s.iatHistogram.sum ≤ histogramUnit
  mass : s.iatFactor = 0 ∨ s.iatHistogram.sum = histogramUnit
  factor_nonneg : 0 ≤ s.iatFactor
  factor_le : s.iatFactor ≤ iatFactorSteady
  percentile : ∃ index, IsFrames s.iatPercentileTarget index ∧
    IsLeast {i | i < iatHistogramBins ∧ (s.iatHistogram.drop (i + 1)).sum ≤ limitProbability} index

/-- The seeded histogram lacks one unit, which the first update forgets. -/
theorem HistogramInv.seeded (s : JitterStats F) : s.resetHistogramToSeed.HistogramInv where
  length := by rw [resetHistogramToSeed, seedHistogram, List.length_map, List.length_range]
  nonneg bin hbin := by
    obtain ⟨i, _, rfl⟩ := List.mem_map.mp hbin
    exact Int.ediv_nonneg (by decide) (Int.pow_nonneg (by decide))
  mass_le := by
    change seedHistogram.sum ≤ histogramUnit
    decide +kernel
  mass := Or.inl rfl
  factor_nonneg := le_rfl
  factor_le := by
    change 0 ≤ iatFactorSteady
    decide
  percentile := by
    have hfour : 4 < iatHistogramBins ∧ (seedHistogram.drop (4 + 1)).sum ≤ limitProbability := by
      decide +kernel
    refine ⟨4, Or.inr rfl, ⟨hfour, ?_⟩⟩
    rintro i ⟨_, hi⟩
    by_contra hlt
    have hfew : i < 4 := Nat.lt_of_not_le hlt
    have htails : ∀ j < 4, ¬(seedHistogram.drop (j + 1)).sum ≤ limitProbability := by decide +kernel
    exact htails i hfew hi

/-- An accepted delay has a bin. -/
theorem histogramBin_lt [LawfulBinary32 F] {delayFrames : F} {bin : ℕ}
    (h : histogramBin delayFrames = some bin) : bin < iatHistogramBins := by
  unfold histogramBin at h
  split at h
  · rename_i hrange
    rw [← Option.some.inj h]
    exact LawfulBinary32.toNat_lt hrange.1 hrange.2 (by decide)
  · nomatch h

/-- The factor moves a quarter of the way to its steady state. -/
theorem factor_step {factor : ℤ} (hle : factor ≤ iatFactorSteady) :
    factor ≤ factor + (iatFactorSteady - factor + 3) >>> (2 : ℕ) ∧
      factor + (iatFactorSteady - factor + 3) >>> (2 : ℕ) ≤ iatFactorSteady := by
  rw [Int.shiftRight_eq_div_pow]
  norm_num
  omega

/-- The bins after forgetting and raising the observed one: the drift is less than one unit
a bin and not positive, and the observed bin can take it up. -/
theorem forget_observe {bins : List ℤ} {factor : ℤ} {bin : ℕ}
    (hlength : bins.length = iatHistogramBins) (hnonneg : ∀ b ∈ bins, 0 ≤ b)
    (hmassle : bins.sum ≤ histogramUnit) (hmass : factor = 0 ∨ bins.sum = histogramUnit)
    (hf0 : 0 ≤ factor) (hf1 : factor ≤ iatFactorSteady) (hbin : bin < iatHistogramBins) :
    ∃ forgotten old observed increment vectorSum,
      bins.map (fun b => (b * factor) >>> (15 : ℕ)) = forgotten ∧
      (32768 - factor) <<< (15 : ℕ) = increment ∧
      forgotten.sum + increment - histogramUnit = vectorSum ∧
      forgotten[bin]? = some old ∧ forgotten.modify bin (· + increment) = observed ∧
      forgotten.set bin (old + increment) = observed ∧
      forgetChecked factor bins 0 = some (forgotten, forgotten.sum) ∧
      0 ≤ forgotten.sum ∧ forgotten.sum ≤ 2 ^ 30 ∧ 0 ≤ increment ∧ increment ≤ 2 ^ 30 ∧
      0 ≤ old ∧ old ≤ 2 ^ 30 ∧ -64 ≤ vectorSum ∧ vectorSum ≤ 0 ∧
      observed.length = iatHistogramBins ∧ observed.sum - vectorSum = histogramUnit ∧
      (∀ b ∈ observed, 0 ≤ b ∧ b ≤ 2 ^ 31) ∧ ∃ b ∈ observed, 1024 ≤ b := by
  have hunit : histogramUnit = 2 ^ 30 := rfl
  have hsteady : iatFactorSteady = 32711 := rfl
  have hbins : ((iatHistogramBins : ℕ) : ℤ) = 65 := rfl
  obtain ⟨hfnonneg, hfsum, hflow, hfhigh⟩ := forget_bins hnonneg hf0 (by omega : factor ≤ 32768)
  have hchecked := forgetChecked_eq hnonneg hf0 (by omega : factor ≤ 32768) (le_refl (0 : ℤ))
    (by omega)
  obtain ⟨forgotten, hforgotten⟩ : ∃ forgotten,
      bins.map (fun b => (b * factor) >>> (15 : ℕ)) = forgotten := ⟨_, rfl⟩
  obtain ⟨increment, hincrement⟩ : ∃ increment, (32768 - factor) <<< (15 : ℕ) = increment :=
    ⟨_, rfl⟩
  have hshift : increment = (32768 - factor) * 32768 := by
    rw [← hincrement, Int.shiftLeft_eq]
    norm_num
  have hexact : bins.sum * factor = 32768 * (32768 * factor) := by
    rcases hmass with hzero | hwhole
    · rw [hzero]
      ring
    · rw [hwhole, hunit]
      ring
  rw [hforgotten, zero_add] at hchecked
  rw [hforgotten] at hfnonneg hfsum hflow hfhigh
  rw [hexact] at hflow hfhigh
  rw [hlength, hbins] at hfhigh
  have hfsum0 : 0 ≤ forgotten.sum := List.sum_nonneg hfnonneg
  have hflength : forgotten.length = iatHistogramBins := by
    rw [← hforgotten, List.length_map, hlength]
  have hin : bin < forgotten.length := by
    rw [hflength]
    exact hbin
  obtain ⟨old, hold, hget, hmodify, hsetsum⟩ := modify_add hin increment
  have hold0 := hfnonneg old hold
  have hold1 := List.single_le_sum hfnonneg old hold
  refine ⟨forgotten, old, _, increment, _, hforgotten, hincrement, rfl, hget, hmodify, rfl,
    hchecked, hfsum0, by omega, by omega, by omega, hold0, by omega, by omega, by omega, ?_, ?_,
    fun b hb => ?_, old + increment, List.mem_set hin _, by omega⟩
  · rw [List.length_set, hflength]
  · rw [hsetsum]
    omega
  · rcases List.mem_or_eq_of_mem_set hb with hb | rfl
    · have hle := List.single_le_sum hfnonneg b hb
      exact ⟨hfnonneg b hb, by omega⟩
    · omega

/-- An update with a sample in range: it keeps the invariant, ends with the whole mass and
nothing overflows. -/
theorem HistogramInv.update {s : JitterStats F} (h : s.HistogramInv) {delayFrames : F} {bin : ℕ}
    (hdelay : histogramBin delayFrames = some bin) (hbin : bin < iatHistogramBins) :
    (s.updateIatHistogram delayFrames).HistogramInv ∧
      (s.updateIatHistogram delayFrames).iatHistogram.sum = histogramUnit ∧
      s.iatFactor ≤ (s.updateIatHistogram delayFrames).iatFactor ∧
      s.updateIatHistogramChecked delayFrames = some (s.updateIatHistogram delayFrames, 0) := by
  obtain ⟨hlength, hnonneg, hmassle, hmass, hf0, hf1, _⟩ := h
  obtain ⟨forgotten, old, observed, increment, vectorSum, hforgotten, hincrement, hvector, hget,
    hmodify, hset, hforget, hs0, hs1, hi0, hi1, ho0, ho1, hv0, hv1, holength, hosum, hobounds,
    hlarge⟩ := forget_observe hlength hnonneg hmassle hmass hf0 hf1 hbin
  obtain ⟨hchecked, hsum, hblength, hbnonneg⟩ := absorbDriftChecked_eq hobounds hv0 hv1 hlarge
  obtain ⟨bins, hbins⟩ : ∃ bins, absorbDrift 1 observed vectorSum = bins := ⟨_, rfl⟩
  rw [hbins] at hchecked hsum hblength hbnonneg
  have hwhole : bins.sum = histogramUnit := hsum.trans hosum
  have hflip : (if 0 < vectorSum then -1 else 1 : ℤ) = 1 := if_neg (by omega)
  have habsorb : (if vectorSum = 0 then observed else absorbDrift 1 observed vectorSum) = bins := by
    by_cases hzero : vectorSum = 0
    · rw [if_pos hzero, ← hbins, hzero, (absorbDrift_zero 1).2]
    · rw [if_neg hzero, hbins]
  obtain ⟨hfmono, hfle⟩ := factor_step hf1
  obtain ⟨first, tail, rfl⟩ : ∃ first tail, bins = first :: tail :=
    List.exists_cons_of_length_pos (by rw [hblength, holength]; decide)
  have htail : histogramUnit - first = tail.sum := by
    rw [← hwhole, List.sum_cons]
    omega
  have htnonneg : ∀ b ∈ tail, 0 ≤ b := fun b hb => hbnonneg b (List.mem_cons_of_mem _ hb)
  have hfirst := hbnonneg first List.mem_cons_self
  have htsum := List.sum_nonneg htnonneg
  have hunit : histogramUnit = 2 ^ 30 := rfl
  have hsteady : iatFactorSteady = 32711 := rfl
  have hwalk := percentileWalkChecked_eq 0 htnonneg (by omega)
  obtain ⟨index, hindex, ⟨hile, hitail⟩, hleast⟩ := isLeast_percentileWalk tail 0
  rw [Nat.zero_add] at hindex
  rw [hindex] at hwalk
  have hupdate : s.updateIatHistogram delayFrames =
      { s with
        iatHistogram := first :: tail
        iatFactor := s.iatFactor + ((iatFactorSteady - s.iatFactor + 3) >>> (2 : ℕ))
        iatPercentileTarget := Binary32.ofNat index } := by
    rw [updateIatHistogram, hdelay]
    dsimp only
    rw [hforgotten, hincrement, hmodify, hvector, hflip, habsorb, List.tail_cons, List.headD_cons,
      htail, hindex]
  have hchecks : ∀ x : ℤ, -2 ^ 63 ≤ x → x < 2 ^ 63 → checkedI64 x = some x :=
    fun x => checkedI64_of_bounds
  rw [hupdate]
  refine ⟨⟨hblength.trans holength, hbnonneg, hwhole.le, Or.inr hwhole, hf0.trans hfmono, hfle,
    index, Or.inl rfl, ⟨?_, hitail⟩, ?_⟩, hwhole, hfmono, ?_⟩
  · have hlen := hblength.trans holength
    rw [List.length_cons] at hlen
    omega
  · rintro i ⟨hi, hbound⟩
    have hlen := hblength.trans holength
    rw [List.length_cons] at hlen
    exact hleast ⟨by omega, hbound⟩
  · have hstep : (iatFactorSteady - s.iatFactor + 3) >>> (2 : ℕ) =
        s.iatFactor + (iatFactorSteady - s.iatFactor + 3) >>> (2 : ℕ) - s.iatFactor := by omega
    rw [updateIatHistogramChecked, hdelay]
    simp only [hforget, Option.bind_eq_bind, Option.bind_some]
    rw [hchecks _ (by omega) (by omega), Option.bind_some, hincrement,
      hchecks increment (by omega) (by omega), Option.bind_some, hget, Option.bind_some,
      hchecks _ (by omega) (by omega), Option.bind_some, hset,
      hchecks _ (by omega) (by omega), Option.bind_some, hvector,
      hchecks vectorSum (by omega) (by omega), Option.bind_some, hflip, hchecked, Option.bind_some,
      hchecks _ (by omega) (by omega), Option.bind_some, hchecks _ (by omega) (by omega),
      Option.bind_some, hchecks _ (by omega) (by omega), Option.bind_some, List.headD_cons,
      htail, hchecks _ (by omega) (by omega), Option.bind_some, List.tail_cons, hwalk]
    rfl

/-- A sample out of range changes nothing. -/
theorem updateIatHistogram_of_none {s : JitterStats F} {delayFrames : F}
    (h : histogramBin delayFrames = none) :
    s.updateIatHistogram delayFrames = s ∧
      s.updateIatHistogramChecked delayFrames = some (s, 0) := by
  rw [updateIatHistogram, updateIatHistogramChecked, h]
  exact ⟨rfl, rfl⟩

/-- The statistics after a sequence of updates from the seeded state. -/
def histogramRun (s : JitterStats F) (delays : List F) : JitterStats F :=
  delays.foldl updateIatHistogram s.resetHistogramToSeed

theorem histogramRun_append (s : JitterStats F) (delays : List F) (delayFrames : F) :
    s.histogramRun (delays ++ [delayFrames]) =
      (s.histogramRun delays).updateIatHistogram delayFrames := by
  rw [histogramRun, List.foldl_append]
  rfl

/-- The invariant holds along every sequence of updates, and from the first sample in range
on the mass is whole. -/
theorem histogramRun_inv [LawfulBinary32 F] (s : JitterStats F) (delays : List F) :
    (s.histogramRun delays).HistogramInv ∧
      ((∃ delayFrames ∈ delays, (histogramBin delayFrames).isSome) →
        (s.histogramRun delays).iatHistogram.sum = histogramUnit) := by
  induction delays using List.reverseRecOn with
  | nil => exact ⟨HistogramInv.seeded s, by simp⟩
  | append_singleton delays delayFrames ih =>
    rw [histogramRun_append]
    cases hdelay : histogramBin delayFrames with
    | none =>
      rw [(updateIatHistogram_of_none hdelay).1]
      refine ⟨ih.1, ?_⟩
      rintro ⟨d, hd, hsome⟩
      rcases List.mem_append.mp hd with hd | hd
      · exact ih.2 ⟨d, hd, hsome⟩
      · rw [List.mem_singleton.mp hd, hdelay] at hsome
        exact absurd hsome Bool.false_ne_true
    | some bin =>
      obtain ⟨hinv, hwhole, _, _⟩ := ih.1.update hdelay (histogramBin_lt hdelay)
      exact ⟨hinv, fun _ => hwhole⟩

/-- One update after a sequence of updates. -/
structure ConservesMass (s : JitterStats F) (delays : List F) (delayFrames : F) : Prop where
  /-- Every bin stays non-negative. -/
  nonneg : ∀ bin ∈ (s.histogramRun (delays ++ [delayFrames])).iatHistogram, 0 ≤ bin
  /-- Once a sample was in range, the bins sum to the whole mass. -/
  mass : (∃ d ∈ delays ++ [delayFrames], (histogramBin d).isSome) →
    (s.histogramRun (delays ++ [delayFrames])).iatHistogram.sum = histogramUnit
  /-- No operation overflows, no index is out of bounds, and no drift remains. -/
  checked : (s.histogramRun delays).updateIatHistogramChecked delayFrames =
    some (s.histogramRun (delays ++ [delayFrames]), 0)
  /-- The factor never decreases and stays within its steady state. -/
  factor_le : (s.histogramRun delays).iatFactor ≤
      (s.histogramRun (delays ++ [delayFrames])).iatFactor ∧
    (s.histogramRun (delays ++ [delayFrames])).iatFactor ≤ iatFactorSteady
  /-- The target is the first bin whose upper tail is within the limit. -/
  percentile : ∃ index,
    IsFrames (s.histogramRun (delays ++ [delayFrames])).iatPercentileTarget index ∧
    IsLeast {i | i < iatHistogramBins ∧
      ((s.histogramRun (delays ++ [delayFrames])).iatHistogram.drop (i + 1)).sum ≤
        limitProbability} index
  /-- A sample out of range leaves the whole statistic unchanged. -/
  unchanged : ¬((0.0 : F) ≤ delayFrames ∧ delayFrames < Binary32.ofNat iatHistogramBins) →
    s.histogramRun (delays ++ [delayFrames]) = s.histogramRun delays

end Update

end JitterStats

end Gemacast.Jitter
