import Gemacast.Jitter.Stats

/-!
# The target depth controller

Turns the arrival statistics and the configuration into the depth the buffer is
steered to: the raw target as the largest of three terms, then hysteresis,
quantisation, rate-limited ramps, downward probing and the floor learned from
starvations. The decision band around the target belongs here too.
-/

namespace Gemacast.Jitter

open Gemacast.Core

/-- Widest dead zone of the target, in frames. -/
def hysteresisBand : ℕ := 3

/-- Widest step the target is snapped to, in frames. -/
def targetQuantum : ℕ := 4

/-- Callbacks between downward steps. -/
def rampInterval : ℕ := 5

/-- Frames of one upward step. -/
def rampUpStep : ℕ := 2

/-- Callbacks between upward steps. -/
def rampIntervalUp : ℕ := 2

/-- Callbacks before the first downward probe. -/
def probeDownInterval : ℕ := 200

/-- Milliseconds the target must stay below the band before it falls. -/
def downDwellMs : ℕ := 2000

/-- Seconds a starvation is remembered. -/
def starvationWindowSecs : ℕ := 30

/-- Callbacks between probes after a recent starvation. -/
def probeGatedInterval : ℕ := 600

/-- Seconds without starvation before the learned floor relaxes. -/
def floorHoldSecs : ℕ := 8

/-- Seconds between relaxations of the learned floor. -/
def floorDecaySecs : ℕ := 2

/-- Least spread of the decision band, in frames. -/
def minBand : ℕ := 20 / millisPerFrame

/-- The term that produced the raw target. -/
inductive TargetTerm
  | minDepth
  | histogram
  | gapFloor
  | static
  deriving DecidableEq, Repr

/-- The inputs of one depth decision, and the term that won it. -/
structure TargetBreakdown (F : Type) where
  /-- 95th percentile of the relative arrival delay. -/
  histogramBase : F
  /-- What the removed burst term would demand; reported only. -/
  burstFloor : F
  /-- Worst recent gap plus headroom. -/
  gapFloor : F
  /-- The configured floor. -/
  minDepth : F
  /-- The maximum before clamping. -/
  preClamp : F
  /-- The winning term. -/
  winning : TargetTerm
  /-- The raw target, in frames. -/
  raw : ℕ

/-- The decision band around the effective target. -/
structure Band where
  /-- Below this level the buffer is stretched. -/
  low : ℕ
  /-- From this level on the buffer is drained. -/
  high : ℕ
  deriving DecidableEq, Repr

/-- The controller state. -/
structure TargetController where
  /-- The smoothed target, in frames. -/
  effectiveTarget : ℕ
  /-- Consecutive callbacks outside the dead zone. -/
  targetExitCount : ℕ
  /-- The pending transition points down. -/
  exitFalling : Bool
  /-- The goal of the ramp. -/
  rampGoal : ℕ
  /-- Callbacks until the next step. -/
  rampCountdown : ℕ
  /-- Callbacks until the next probe. -/
  probeDownCountdown : ℕ
  /-- The floor learned from starvations. -/
  probeFloor : ℕ
  /-- Recent starvations, oldest first. -/
  starvationTimestamps : List Instant
  /-- Last starvation. -/
  lastStarvation : Option Instant
  /-- Last relaxation of the floor. -/
  lastFloorDecay : Instant

namespace TargetController

variable {F : Type} [Binary32 F]

/-- A fresh controller. -/
def new (clock : Instant) : TargetController where
  effectiveTarget := 2
  targetExitCount := 0
  exitFalling := false
  rampGoal := 2
  rampCountdown := 0
  probeDownCountdown := probeDownInterval
  probeFloor := 0
  starvationTimestamps := []
  lastStarvation := none
  lastFloorDecay := clock

/-- The configured floor, in frames. -/
def minDepthFrames (config : JitterConfig F) : ℕ := msToFramesCeil config.minDepthMs

/-- The configured cap, in frames. -/
def comfortCapFrames (config : JitterConfig F) : F :=
  Binary32.ofNat (msToFramesCeil config.comfortCapMs)

/-- The configured cap as the integer code reads it. -/
def comfortCap (config : JitterConfig F) : ℕ := Binary32.toNat (comfortCapFrames config)

/-- Snap to the nearest multiple of the quantum. -/
def quantizeTarget (raw quantum : ℕ) : ℕ :=
  if quantum = 0 then raw else (raw + quantum / 2) / quantum * quantum

/-- Step size for the configured cap. -/
def adaptiveQuantum (config : JitterConfig F) : ℕ :=
  min (max (comfortCap config / 16) 1) targetQuantum

/-- Dead zone for the configured cap. -/
def adaptiveHysteresis (config : JitterConfig F) : ℕ :=
  min (max (comfortCap config / 8) 1) hysteresisBand

/-- Callbacks a rise must persist. -/
def adaptiveDwell (config : JitterConfig F) : ℕ := max (40 - min (comfortCap config / 2) 25) 15

/-- Callbacks a fall must persist. -/
def downDwell : ℕ := downDwellMs / millisPerFrame

/-- The raw target with every term that entered it. -/
def targetBreakdown (config : JitterConfig F) (stats : JitterStats F)
    (tcpCapOverride : Option F) : TargetBreakdown F :=
  match config.staticTargetMs with
  | some staticMs =>
    { histogramBase := 0.0
      burstFloor := 0.0
      gapFloor := 0.0
      minDepth := Binary32.ofNat (minDepthFrames config)
      preClamp := Binary32.ofNat (msToFramesCeil staticMs)
      winning := .static
      raw := msToFramesCeil staticMs }
  | none =>
    let histogramBase := stats.iatPercentileTarget
    let burstFloor := if stats.burstDetected then stats.interBurstGapFrames + 2.0 else 0.0
    let gap := stats.maxGapFrames
    let gapFloor :=
      if 1.0 < gap then
        if stats.burstDetected then gap * 1.25 + 1.0 else gap + 1.0
      else 0.0
    let minDepth := Binary32.ofNat (minDepthFrames config)
    let target := Binary32.maximum (Binary32.maximum minDepth histogramBase) gapFloor
    let winning :=
      if Binary32.maximum histogramBase gapFloor ≤ minDepth then TargetTerm.minDepth
      else if gapFloor ≤ histogramBase then TargetTerm.histogram
      else TargetTerm.gapFloor
    let cap := tcpCapOverride.getD (comfortCapFrames config)
    let safeCap := Binary32.maximum cap minDepth
    { histogramBase, burstFloor, gapFloor, minDepth
      preClamp := target
      winning
      raw := Binary32.toNat (Binary32.clamp (Binary32.ceil target) minDepth safeCap) }

/-- The decision band of a target. -/
def bufferLimits (target : ℕ) : Band :=
  let low := target * 3 / 4
  { low, high := max target (low + minBand) }

/-- Start over for a new configuration. -/
def resetForConfig (c : TargetController) (config : JitterConfig F) (clock : Instant) :
    TargetController :=
  let effectiveTarget := max (msToFramesCeil config.minDepthMs) 2
  { c with
    effectiveTarget
    rampGoal := effectiveTarget
    targetExitCount := 0
    rampCountdown := 0
    probeDownCountdown := probeDownInterval
    probeFloor := 0
    starvationTimestamps := []
    lastStarvation := none
    lastFloorDecay := clock }

/-- Start over for a new stream on the same network. -/
def reset (c : TargetController) : TargetController :=
  let effectiveTarget := max c.probeFloor 2
  { c with
    effectiveTarget
    rampGoal := effectiveTarget
    targetExitCount := 0
    rampCountdown := 0
    probeDownCountdown := probeDownInterval }

/-- Relax the learned floor by one quantum when it is due. -/
def relaxProbeFloor (c : TargetController) (quantum minDepth : ℕ) (now : Instant) :
    TargetController :=
  if c.probeFloor ≤ minDepth then c
  else if c.lastStarvation.any fun t => (now.durationSince t).asSecs < floorHoldSecs then c
  else if (now.durationSince c.lastFloorDecay).asSecs < floorDecaySecs then c
  else
    { c with lastFloorDecay := now, probeFloor := max (c.probeFloor - quantum) minDepth }

/-- Count the evidence against the current target and commit to a new goal. -/
def dwell (c : TargetController) (config : JitterConfig F) (quantized : ℕ) : TargetController :=
  let diff := max c.effectiveTarget quantized - min c.effectiveTarget quantized
  if diff ≤ adaptiveHysteresis config then { c with targetExitCount := 0 }
  else
    let falling := decide (quantized < c.effectiveTarget)
    let c :=
      if c.targetExitCount = 0 ∨ falling ≠ c.exitFalling then
        { c with exitFalling := falling, targetExitCount := 0 }
      else c
    let c := { c with targetExitCount := c.targetExitCount + 1 }
    let needed := if falling then downDwell else adaptiveDwell config
    if needed ≤ c.targetExitCount then
      { c with rampGoal := max quantized c.probeFloor, targetExitCount := 0 }
    else c

/-- One rate-limited step towards the goal. -/
def ramp (c : TargetController) : TargetController :=
  let c :=
    if c.rampCountdown = 0 then
      if c.effectiveTarget < c.rampGoal then
        { c with
          effectiveTarget := min (c.effectiveTarget + rampUpStep) c.rampGoal
          rampCountdown := rampIntervalUp }
      else
        { c with
          effectiveTarget := max (c.effectiveTarget - 1) c.probeFloor
          rampCountdown := rampInterval }
    else c
  { c with rampCountdown := c.rampCountdown - 1 }

/-- Starvations still remembered. -/
def recentStarvationCount (c : TargetController) (now : Instant) : ℕ :=
  c.starvationTimestamps.countP fun t =>
    now.durationSince t ≤ Duration.fromSecs starvationWindowSecs

/-- Probe one quantum lower when the network is calm. -/
def probeDown (c : TargetController) (stats : JitterStats F) (quantum minDepth : ℕ)
    (now : Instant) : TargetController :=
  let probeInterval :=
    if 0 < c.recentStarvationCount now ∨ stats.burstDetected = true then probeGatedInterval
    else if 0.8 < stats.stabilityRatio then 60
    else 120
  let countdown := c.probeDownCountdown - 1
  if countdown = 0 then
    let probeGoal :=
      max (max (quantizeTarget (c.effectiveTarget - quantum) quantum) minDepth) c.probeFloor
    { c with
      probeDownCountdown := probeInterval
      rampGoal := if probeGoal < c.effectiveTarget then probeGoal else c.rampGoal }
  else { c with probeDownCountdown := countdown }

/-- The calm that probing asks for. -/
def probeAllowed (c : TargetController) (stats : JitterStats F) (minDepth : ℕ) (now : Instant) :
    Prop :=
  0.2 < stats.stabilityRatio ∧ minDepth < c.effectiveTarget ∧
    (stats.unstableRegimeUntil.any fun regimeEnd =>
      now < regimeEnd ∧ stats.stabilityRatio < 0.5) = false

instance (c : TargetController) (stats : JitterStats F) (minDepth : ℕ) (now : Instant) :
    Decidable (c.probeAllowed stats minDepth now) :=
  inferInstanceAs (Decidable (_ ∧ _))

/-- Follow the raw target for one callback; the result is the effective target. -/
def advance (c : TargetController) (config : JitterConfig F) (stats : JitterStats F)
    (rawTarget minDepth : ℕ) (now : Instant) : TargetController :=
  match config.staticTargetMs with
  | some _ => { c with effectiveTarget := rawTarget, rampGoal := rawTarget }
  | none =>
    let quantum := adaptiveQuantum config
    let quantized :=
      min (max (quantizeTarget rawTarget quantum) minDepth) (max (comfortCap config) minDepth)
    let c := (c.relaxProbeFloor quantum minDepth now).dwell config quantized
    if c.effectiveTarget ≠ c.rampGoal then c.ramp
    else if c.probeAllowed stats minDepth now then c.probeDown stats quantum minDepth now
    else c

/-- Raise the learned floor after a starvation no arrival gap explains. -/
def applyStarvationFloor (c : TargetController) (config : JitterConfig F)
    (stats : JitterStats F) : TargetController :=
  let gap := stats.maxGapFrames
  if 1.0 < gap ∧ Binary32.ofNat c.effectiveTarget ≤ gap then c
  else
    { c with
      probeFloor :=
        min (max c.probeFloor (c.effectiveTarget + adaptiveQuantum config))
          (max (comfortCap config / 2) 1) }

/-- Jump to the learned floor after a starvation. -/
def jumpToFloor (c : TargetController) : TargetController :=
  if c.effectiveTarget < c.probeFloor then
    { c with effectiveTarget := c.probeFloor, rampGoal := c.probeFloor, targetExitCount := 0 }
  else c

/-- Remember a starvation and forget the expired ones. -/
def recordStarvation (c : TargetController) (now : Instant) : TargetController :=
  { c with
    lastStarvation := some now
    starvationTimestamps := (c.starvationTimestamps ++ [now]).dropWhile fun t =>
      Duration.fromSecs starvationWindowSecs < now.durationSince t }

end TargetController

end Gemacast.Jitter
