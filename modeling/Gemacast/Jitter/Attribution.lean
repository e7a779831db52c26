import Gemacast.Core.MonotoneBinary32
import Gemacast.Jitter.Target

/-!
# The term that set the depth

The raw target is the largest of the floor, the histogram and the gap, rounded up and
clamped. The winning term is the first of the three whose value is that maximum, also where
the histogram is not a number, and the depth grows with the histogram and with the gap. The
gap between bursts is reported only.
-/

namespace Gemacast.Jitter

open Gemacast.Core LawfulBinary32 MonotoneBinary32

variable {F : Type} [Binary32 F]

namespace TargetBreakdown

/-- The value of a term. -/
def value (b : TargetBreakdown F) : TargetTerm → F
  | .minDepth => b.minDepth
  | .histogram => b.histogramBase
  | .gapFloor => b.gapFloor
  | .static => b.preClamp

/-- The first of the three terms whose value is the maximum before clamping. -/
def earliest (b : TargetBreakdown F) : Option TargetTerm :=
  [TargetTerm.minDepth, .histogram, .gapFloor].find? fun term => b.value term == b.preClamp

end TargetBreakdown

namespace TargetController

/-- The worst gap with its headroom. -/
def gapHeadroom (gap : F) (burst : Bool) : F :=
  if 1.0 < gap then if burst then gap * 1.25 + 1.0 else gap + 1.0 else 0.0

/-- The maximum of the three terms, the middle one maybe not a number. -/
def deepest (minDepth histogram gapFloor : F) : F :=
  Binary32.maximum (Binary32.maximum minDepth histogram) gapFloor

/-- The winner among the three terms. -/
def winner (minDepth histogram gapFloor : F) : TargetTerm :=
  if Binary32.maximum histogram gapFloor ≤ minDepth then .minDepth
  else if gapFloor ≤ histogram then .histogram
  else .gapFloor

/-- The depth of a maximum under a floor and a cap. -/
def clampDepth (deepest minDepth cap : F) : F :=
  Binary32.clamp (Binary32.ceil deepest) minDepth (Binary32.maximum cap minDepth)

/-- The breakdown without a static target, by its parts. -/
theorem targetBreakdown_adaptive {config : JitterConfig F} (h : config.staticTargetMs = none)
    (stats : JitterStats F) (capOverride : Option F) :
    ∃ burstFloor, targetBreakdown config stats capOverride =
      let minDepth := Binary32.ofNat (minDepthFrames config)
      let gapFloor := gapHeadroom stats.maxGapFrames stats.burstDetected
      let preClamp := deepest minDepth stats.iatPercentileTarget gapFloor
      { histogramBase := stats.iatPercentileTarget
        burstFloor
        gapFloor
        minDepth
        preClamp
        winning := winner minDepth stats.iatPercentileTarget gapFloor
        raw := Binary32.toNat
          (clampDepth preClamp minDepth (capOverride.getD (comfortCapFrames config))) } := by
  unfold targetBreakdown
  rw [h]
  exact ⟨_, rfl⟩

section Terms

variable [MonotoneBinary32 F]
  {minDepth histogram histogram' gapFloor gapFloor' gap gap' cap x y : F}
  {burst : Bool}

/-- The headroom of a burst is between one and two times the gap. -/
theorem headroom_bounds : Binary32.ofNat 1 ≤ (1.25 : F) ∧ (1.25 : F) ≤ Binary32.ofNat 2 :=
  ⟨ofNat_le_decimal (m := 125) (k := 2) (by decide),
    decimal_le_ofNat (m := 125) (k := 2) (by decide) (by decide)⟩

theorem zero_le_one : (0.0 : F) ≤ 1.0 := zero_le_decimal 10 1

/-- The gap with its headroom is a number that is not negative. -/
theorem zero_le_gapHeadroom (gap : F) (burst : Bool) : 0.0 ≤ gapHeadroom gap burst := by
  unfold gapHeadroom
  split
  · next hgap =>
    have hpos : (0.0 : F) ≤ gap := le_trans zero_le_one (lt_iff.mp hgap).1
    split
    · exact zero_le_add (zero_le_scale hpos headroom_bounds.1 headroom_bounds.2 (by decide))
        zero_le_one
    · exact zero_le_add hpos zero_le_one
  · exact zero_le_decimal 0 1

/-- The headroom grows with the gap. -/
theorem gapHeadroom_le (h : gap ≤ gap') (burst : Bool) :
    gapHeadroom gap burst ≤ gapHeadroom gap' burst := by
  by_cases hgap : 1.0 < gap
  · have hpos : (0.0 : F) ≤ gap := le_trans zero_le_one (lt_iff.mp hgap).1
    have hgap' : 1.0 < gap' := by
      obtain ⟨hle, hnot⟩ := lt_iff.mp hgap
      exact lt_iff.mpr ⟨le_trans hle h, fun hback => hnot (le_trans h hback)⟩
    unfold gapHeadroom
    rw [if_pos hgap, if_pos hgap']
    split
    · exact add_le_add (zero_le_scale hpos headroom_bounds.1 headroom_bounds.2 (by decide))
        (scale_le_scale hpos h headroom_bounds.1 headroom_bounds.2 (by decide)) zero_le_one
    · exact add_le_add hpos h zero_le_one
  · have hnone : gapHeadroom gap burst = 0.0 := if_neg hgap
    rw [hnone]
    exact zero_le_gapHeadroom gap' burst

/-- The maximum of the terms lies below what the terms lie below. -/
theorem deepest_le_iff (hmin : minDepth ≤ minDepth) (hgap : gapFloor ≤ gapFloor) :
    deepest minDepth histogram gapFloor ≤ x ↔
      minDepth ≤ x ∧ (histogram ≤ histogram → histogram ≤ x) ∧ gapFloor ≤ x := by
  unfold deepest
  rw [maximum_le_iff (Or.inr hgap)]
  have hinner : Binary32.maximum minDepth histogram ≤ Binary32.maximum minDepth histogram :=
    (number_of_le (le_maximum_left hmin)).2
  have hiff := maximum_le_iff (y := histogram) (z := x) (Or.inl hmin)
  constructor
  · rintro ⟨hleft, hright⟩
    obtain ⟨hm, hh⟩ := hiff.mp (hleft hinner)
    exact ⟨hm hmin, hh, hright hgap⟩
  · rintro ⟨hm, hh, hg⟩
    exact ⟨fun _ => hiff.mpr ⟨fun _ => hm, hh⟩, fun _ => hg⟩

/-- The maximum is a number, at or above each term that is one. -/
theorem le_deepest (hmin : minDepth ≤ minDepth) (hgap : gapFloor ≤ gapFloor) :
    minDepth ≤ deepest minDepth histogram gapFloor ∧
      (histogram ≤ histogram → histogram ≤ deepest minDepth histogram gapFloor) ∧
      gapFloor ≤ deepest minDepth histogram gapFloor := by
  have hnumber : deepest minDepth histogram gapFloor ≤ deepest minDepth histogram gapFloor :=
    (number_of_le (le_maximum_right hgap)).2
  exact (deepest_le_iff hmin hgap).mp hnumber

/-- The floor is the maximum exactly if what was observed does not exceed it. -/
theorem minDepth_beq_iff (hmin : minDepth ≤ minDepth) (hgap : gapFloor ≤ gapFloor) :
    (minDepth == deepest minDepth histogram gapFloor) = true ↔
      Binary32.maximum histogram gapFloor ≤ minDepth := by
  rw [beq_iff, deepest_le_iff hmin hgap, maximum_le_iff (Or.inr hgap)]
  constructor
  · rintro ⟨-, -, hh, hg⟩
    exact ⟨hh, fun _ => hg⟩
  · rintro ⟨hh, hg⟩
    exact ⟨(le_deepest hmin hgap).1, hmin, hh, hg hgap⟩

/-- Above the floor the histogram is the maximum exactly if the gap does not exceed it. -/
theorem histogram_beq_iff (hmin : minDepth ≤ minDepth) (hgap : gapFloor ≤ gapFloor)
    (hover : ¬Binary32.maximum histogram gapFloor ≤ minDepth) :
    (histogram == deepest minDepth histogram gapFloor) = true ↔ gapFloor ≤ histogram := by
  rw [beq_iff, deepest_le_iff hmin hgap]
  constructor
  · rintro ⟨-, -, -, hg⟩
    exact hg
  · intro hle
    obtain ⟨-, hnumber⟩ := number_of_le hle
    have hfloor : minDepth ≤ histogram := by
      refine (le_total hmin hnumber).resolve_right fun hunder => hover ?_
      exact (maximum_le_iff (Or.inr hgap)).mpr ⟨fun _ => hunder, fun _ => le_trans hle hunder⟩
    exact ⟨(le_deepest hmin hgap).2.1 hnumber, hfloor, fun _ => hnumber, hle⟩

/-- Above the floor and the histogram the gap is the maximum. -/
theorem gapFloor_beq (hmin : minDepth ≤ minDepth) (hgap : gapFloor ≤ gapFloor)
    (hover : ¬Binary32.maximum histogram gapFloor ≤ minDepth) (hover' : ¬gapFloor ≤ histogram) :
    (gapFloor == deepest minDepth histogram gapFloor) = true := by
  have hunder : histogram ≤ histogram → histogram ≤ gapFloor := fun hnumber =>
    (le_total hnumber hgap).resolve_right hover'
  have hfloor : minDepth ≤ gapFloor := by
    refine (le_total hmin hgap).resolve_right fun hlow => hover ?_
    exact (maximum_le_iff (Or.inr hgap)).mpr
      ⟨fun hnumber => le_trans (hunder hnumber) hlow, fun _ => hlow⟩
  rw [beq_iff, deepest_le_iff hmin hgap]
  exact ⟨(le_deepest hmin hgap).2.2, hfloor, hunder, hgap⟩

/-- The winner is the first term that equals the maximum. -/
theorem earliest_eq (hmin : minDepth ≤ minDepth) (hgap : gapFloor ≤ gapFloor) {burstFloor : F}
    {raw : ℕ} :
    TargetBreakdown.earliest
        { histogramBase := histogram
          burstFloor
          gapFloor
          minDepth
          preClamp := deepest minDepth histogram gapFloor
          winning := winner minDepth histogram gapFloor
          raw } = some (winner minDepth histogram gapFloor) := by
  have hfirst : (minDepth == deepest minDepth histogram gapFloor) = true ↔
      Binary32.maximum histogram gapFloor ≤ minDepth := minDepth_beq_iff hmin hgap
  unfold TargetBreakdown.earliest winner
  simp only [List.find?, TargetBreakdown.value]
  by_cases hover : Binary32.maximum histogram gapFloor ≤ minDepth
  · rw [hfirst.mpr hover, if_pos hover]
  · have hsecond := histogram_beq_iff hmin hgap hover
    rw [Bool.eq_false_iff.mpr (mt hfirst.mp hover), if_neg hover]
    by_cases hsettled : gapFloor ≤ histogram
    · rw [hsecond.mpr hsettled, if_pos hsettled]
    · rw [Bool.eq_false_iff.mpr (mt hsecond.mp hsettled), if_neg hsettled,
        gapFloor_beq hmin hgap hover hsettled]

/-- The maximum grows with the histogram and with the gap. -/
theorem deepest_le_deepest (hmin : minDepth ≤ minDepth)
    (hhistogram : histogram ≤ histogram' ∨ histogram = histogram') (hgap : gapFloor ≤ gapFloor') :
    deepest minDepth histogram gapFloor ≤ deepest minDepth histogram' gapFloor' :=
  maximum_le_maximum (maximum_le_maximum hmin hhistogram) (Or.inl hgap)

/-- The bounds of a depth are in order, also where the cap is not a number. -/
theorem clampDepth_bounds (cap : F) (hmin : minDepth ≤ minDepth) (hzero : (0.0 : F) ≤ x) :
    minDepth ≤ clampDepth x minDepth cap ∧
      clampDepth x minDepth cap ≤ Binary32.maximum cap minDepth :=
  clamp_bounds (le_maximum_right hmin)
    (ceil_le_ceil hzero (number_of_le hzero).2)

theorem clampDepth_le (hmin : minDepth ≤ minDepth) (hzero : (0.0 : F) ≤ x) (h : x ≤ y) :
    clampDepth x minDepth cap ≤ clampDepth y minDepth cap :=
  clamp_le_clamp (le_maximum_right hmin) (ceil_le_ceil hzero h)

end Terms

/-- What the breakdown without a static target says about its depth. -/
structure Attributed (config : JitterConfig F) (capOverride : Option F) (stats : JitterStats F) :
    Prop where
  /-- The winner is the first term that is the maximum. -/
  winning : (targetBreakdown config stats capOverride).earliest =
    some (targetBreakdown config stats capOverride).winning
  /-- The depth is the maximum, rounded up and clamped between the floor and the cap, or the
  floor alone where that is greater. -/
  clamped : ∃ depth,
    depth = Binary32.clamp (Binary32.ceil (targetBreakdown config stats capOverride).preClamp)
      (Binary32.ofNat (minDepthFrames config))
      (Binary32.maximum (capOverride.getD (comfortCapFrames config))
        (Binary32.ofNat (minDepthFrames config))) ∧
    Binary32.ofNat (minDepthFrames config) ≤ depth ∧
    depth ≤ Binary32.maximum (capOverride.getD (comfortCapFrames config))
      (Binary32.ofNat (minDepthFrames config)) ∧
    (targetBreakdown config stats capOverride).raw = Binary32.toNat depth
  /-- It grows with the histogram and with the gap. -/
  monotone : ∀ stats' : JitterStats F, stats'.burstDetected = stats.burstDetected →
    (stats.iatPercentileTarget ≤ stats'.iatPercentileTarget ∨
      stats.iatPercentileTarget = stats'.iatPercentileTarget) →
    (stats.maxGapFrames ≤ stats'.maxGapFrames ∨ stats.maxGapFrames = stats'.maxGapFrames) →
    (targetBreakdown config stats capOverride).raw ≤
      (targetBreakdown config stats' capOverride).raw
  /-- Beside the histogram, the gap and the flag, the statistics enter what is reported only. -/
  burstFree : ∀ stats' : JitterStats F, stats'.burstDetected = stats.burstDetected →
    stats.iatPercentileTarget = stats'.iatPercentileTarget →
    stats.maxGapFrames = stats'.maxGapFrames →
    { targetBreakdown config stats capOverride with
      burstFloor := (targetBreakdown config stats' capOverride).burstFloor } =
        targetBreakdown config stats' capOverride

/-- Whatever the statistics are, the winner is the first term that is the maximum, the depth
is the clamped maximum and grows with the histogram and the gap, and the gap between bursts
has no part in it. -/
theorem targetBreakdown_attributed [MonotoneBinary32 F] (config : JitterConfig F)
    (hadaptive : config.staticTargetMs = none) (capOverride : Option F) (stats : JitterStats F) :
    Attributed config capOverride stats := by
  have hzero : (0.0 : F) ≤ Binary32.ofNat (minDepthFrames config) := zero_le_ofNat _
  have hmin := (number_of_le hzero).2
  have hheadroom : ∀ stats : JitterStats F,
      gapHeadroom stats.maxGapFrames stats.burstDetected ≤
        gapHeadroom stats.maxGapFrames stats.burstDetected :=
    fun stats => (number_of_le (zero_le_gapHeadroom _ _)).2
  have hdeep : ∀ stats : JitterStats F, (0.0 : F) ≤ deepest (Binary32.ofNat (minDepthFrames config))
      stats.iatPercentileTarget (gapHeadroom stats.maxGapFrames stats.burstDetected) :=
    fun stats => le_trans hzero (le_deepest hmin (hheadroom stats)).1
  obtain ⟨burstFloor, heq⟩ := targetBreakdown_adaptive hadaptive stats capOverride
  refine ⟨?_, ?_, fun stats' hburst hhistogram hgap => ?_, fun stats' hburst hhistogram hgap => ?_⟩
  · rw [heq]
    exact earliest_eq hmin (hheadroom stats)
  · rw [heq]
    obtain ⟨hlow, hhigh⟩ := clampDepth_bounds (capOverride.getD (comfortCapFrames config))
      hmin (hdeep stats)
    exact ⟨_, rfl, hlow, hhigh, rfl⟩
  · obtain ⟨burstFloor', heq'⟩ := targetBreakdown_adaptive hadaptive stats' capOverride
    rw [heq, heq']
    refine toNat_le_toNat (clampDepth_le hmin (hdeep stats)
      (deepest_le_deepest hmin hhistogram ?_))
    rw [hburst]
    obtain hle | hsame := hgap
    · exact gapHeadroom_le hle _
    · rw [hsame]
      exact (number_of_le (zero_le_gapHeadroom _ _)).2
  · obtain ⟨burstFloor', heq'⟩ := targetBreakdown_adaptive hadaptive stats' capOverride
    rw [heq, heq', hburst, hhistogram, hgap]

/-- Statistics after a burst, with a histogram of four frames. -/
def burstStats : JitterStats SoftFloat :=
  { JitterStats.new with burstDetected := true, interBurstGapFrames := 57.0 }

theorem targetBreakdown_attributed_burstStats :
    Attributed ⟨20, 400, 0, 0.25, none⟩ (some 12.0) burstStats :=
  targetBreakdown_attributed _ rfl _ _

end TargetController

end Gemacast.Jitter
