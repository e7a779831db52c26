import Gemacast.Jitter.Config

/-!
# Arrival statistics

The network-observation actor: from the sequence numbers and arrival instants of
packets it keeps the jitter averages, the histogram of relative arrival delays,
the ring of per-second worst delivery gaps and the burst detector, which the
depth controller reads.
-/

namespace Gemacast.Jitter

open Gemacast.Core

/-- Below this inter-arrival time, in milliseconds, packets share a cluster. -/
def clusterIatThresholdMs {F : Type} [Binary32 F] : F := 3.0

/-- Above this inter-arrival time, in milliseconds, a cluster has ended. -/
def clusterGapThresholdMs {F : Type} [Binary32 F] : F := 30.0

/-- Packets a cluster needs to count. -/
def minClusterSize : ℕ := 3

/-- Seconds without a cluster after which the burst flag is cleared. -/
def burstExpirySecs : ℕ := 5

/-- Packets the relative-arrival-delay window looks back. -/
def delayHistoryPackets : ℕ := 100

/-- Bins of the delay histogram, one frame wide each. -/
def iatHistogramBins : ℕ := 65

/-- Seconds of the delivery-gap window. -/
def gapWindowBuckets : ℕ := 24

instance : NeZero gapWindowBuckets := ⟨by decide⟩

/-- Age in seconds up to which a gap counts in full. -/
def gapFreshSecs : ℕ := 8

/-- Decay per second of older gaps. -/
def gapStaleDecay {F : Type} [Binary32 F] : F := 0.85

/-- Gaps are clamped to this many frames. -/
def gapClampFrames {F : Type} [Binary32 F] : F := 120.0

/-- One histogram count of probability one. -/
def histogramUnit : ℤ := 2 ^ 30

/-- Steady state of the forgetting factor. -/
def iatFactorSteady : ℤ := 32711

/-- Tail probability of the percentile. -/
def limitProbability : ℤ := histogramUnit / 20

/-- Milliseconds per frame as a float. -/
def frameMs {F : Type} [Binary32 F] : F := Binary32.ofNat millisPerFrame

/-- Rolling statistics of packet arrivals. -/
structure JitterStats (F : Type) where
  /-- Average inter-arrival jitter, in frames. -/
  emaJitter : F
  /-- Average squared jitter. -/
  emaJitterVar : F
  /-- Consecutive packets below the clean threshold. -/
  cleanStreak : ℕ
  /-- Last major jitter spike. -/
  lastMacroSpike : Option Instant
  /-- End of the unstable regime. -/
  unstableRegimeUntil : Option Instant
  /-- Sequence number of the last accepted packet. -/
  lastIngestSeq : Option UInt64
  /-- Arrival of the last accepted packet. -/
  lastNetworkArrival : Option Instant
  /-- Signed inter-arrival excess of the last packets, in frames. -/
  delayHistory : List F
  /-- Histogram of relative arrival delays. -/
  iatHistogram : List ℤ
  /-- Forgetting factor. -/
  iatFactor : ℤ
  /-- 95th percentile of the histogram, in frames. -/
  iatPercentileTarget : F
  /-- Packets of the current cluster. -/
  clusterPacketCount : ℕ
  /-- First arrival of the current cluster. -/
  clusterStartTime : Option Instant
  /-- First arrival of the previous completed cluster. -/
  lastClusterStart : Option Instant
  /-- Average gap between clusters, in frames. -/
  interBurstGapFrames : F
  /-- Packets arrive in clusters. -/
  burstDetected : Bool
  /-- Last completed cluster. -/
  lastBurstTime : Option Instant
  /-- Worst gap of each of the last seconds, in frames. -/
  gapBuckets : Fin gapWindowBuckets → F
  /-- The bucket of the current second. -/
  gapBucketIdx : Fin gapWindowBuckets
  /-- Start of the current second. -/
  gapBucketStart : Option Instant
  /-- Packets accepted since the last log line. -/
  arrivalCount : ℕ

namespace JitterStats

variable {F : Type} [Binary32 F]

/-- The geometric start distribution of the histogram. -/
def seedHistogram : List ℤ := (List.range iatHistogramBins).map fun i => 2 ^ 29 / 2 ^ i

/-- Back to the start distribution. -/
def resetHistogramToSeed (s : JitterStats F) : JitterStats F :=
  { s with iatHistogram := seedHistogram, iatFactor := 0, iatPercentileTarget := 4.0 }

/-- Fresh statistics. -/
def new : JitterStats F where
  emaJitter := 0.0
  emaJitterVar := 0.0
  cleanStreak := 0
  lastMacroSpike := none
  unstableRegimeUntil := none
  lastIngestSeq := none
  lastNetworkArrival := none
  delayHistory := []
  iatHistogram := seedHistogram
  iatFactor := 0
  iatPercentileTarget := 4.0
  clusterPacketCount := 0
  clusterStartTime := none
  lastClusterStart := none
  interBurstGapFrames := 0.0
  burstDetected := false
  lastBurstTime := none
  gapBuckets := fun _ => 0.0
  gapBucketIdx := 0
  gapBucketStart := none
  arrivalCount := 0

/-- Push one excess onto the bounded history. -/
def updateDelayHistory (s : JitterStats F) (iatDelay : F) : JitterStats F :=
  let pushed := s.delayHistory ++ [iatDelay]
  { s with delayHistory := if delayHistoryPackets < pushed.length then pushed.tail else pushed }

/-- Delay of the newest packet against the one before the history. -/
def relativePacketArrivalDelay (s : JitterStats F) : F :=
  s.delayHistory.foldl (fun acc delay => Binary32.maximum (acc + delay) 0.0) 0.0

/-- The bin of a delay inside the range of the histogram. -/
def histogramBin (delayFrames : F) : Option ℕ :=
  if 0.0 ≤ delayFrames ∧ delayFrames < Binary32.ofNat iatHistogramBins then
    some (Binary32.toNat delayFrames)
  else none

/-- Take the rounding drift `vectorSum` out of the bins, in order, until it is spent. -/
def absorbDrift (flip : ℤ) : List ℤ → ℤ → List ℤ
  | [], _ => []
  | bin :: bins, vectorSum =>
    if vectorSum = 0 then bin :: bins
    else
      let correction := flip * min (vectorSum.natAbs : ℤ) (bin >>> (4 : ℕ))
      (bin + correction) :: absorbDrift flip bins (vectorSum + correction)

/-- Walk the reverse distribution until the tail is within the limit. -/
def percentileWalk : List ℤ → ℤ → ℕ → ℕ
  | [], _, index => index
  | bin :: bins, sum, index =>
    if limitProbability < sum then percentileWalk bins (sum - bin) (index + 1) else index

/-- Fold one relative delay into the histogram and read the percentile off it. -/
def updateIatHistogram (s : JitterStats F) (delayFrames : F) : JitterStats F :=
  match histogramBin delayFrames with
  | none => s
  | some bin =>
    let forgotten := s.iatHistogram.map fun b => (b * s.iatFactor) >>> (15 : ℕ)
    let increment := (32768 - s.iatFactor) <<< (15 : ℕ)
    let bumped := forgotten.modify bin (· + increment)
    let vectorSum := forgotten.sum + increment - histogramUnit
    let flip : ℤ := if 0 < vectorSum then -1 else 1
    let bins := if vectorSum = 0 then bumped else absorbDrift flip bumped vectorSum
    let index := percentileWalk bins.tail (histogramUnit - bins.headD 0) 0
    { s with
      iatHistogram := bins
      iatFactor := s.iatFactor + ((iatFactorSteady - s.iatFactor + 3) >>> (2 : ℕ))
      iatPercentileTarget := Binary32.ofNat index }

/-- Share of a full clean streak. -/
def stabilityRatio (s : JitterStats F) : F := Binary32.ofNat (min s.cleanStreak 400) / 400.0

/-- Jitter below which a packet is clean. -/
def cleanThreshold (s : JitterStats F) : F := Binary32.minimum (s.emaJitter * 1.5 + 1.0) 10.0

/-- Move on by `steps` seconds, emptying the buckets passed. -/
def rotateGapBuckets (s : JitterStats F) : ℕ → JitterStats F
  | 0 => s
  | steps + 1 =>
    let idx := s.gapBucketIdx + 1
    rotateGapBuckets
      { s with gapBucketIdx := idx, gapBuckets := Function.update s.gapBuckets idx 0.0 } steps

/-- Fold one delivery gap into the window. -/
def recordGap (s : JitterStats F) (gapFrames : F) (arrivalTime : Instant) : JitterStats F :=
  let gap := Binary32.clamp gapFrames 0.0 gapClampFrames
  let s :=
    match s.gapBucketStart with
    | none => { s with gapBucketStart := some arrivalTime }
    | some start =>
      let elapsedSecs := (arrivalTime.durationSince start).asSecs
      if 1 ≤ elapsedSecs then
        { s.rotateGapBuckets (min elapsedSecs gapWindowBuckets) with
          gapBucketStart := some (start + Duration.fromSecs elapsedSecs) }
      else s
  { s with
    gapBuckets := Function.update s.gapBuckets s.gapBucketIdx
      (Binary32.maximum (s.gapBuckets s.gapBucketIdx) gap) }

/-- The age-weighted worst gap and the age of the bucket it comes from. -/
def weightedGapPeak (s : JitterStats F) : F × ℕ :=
  (List.finRange gapWindowBuckets).foldl
    (fun (best : F × ℕ) i =>
      let gap := s.gapBuckets i
      if gap ≤ 0.0 then best
      else
        let age := (s.gapBucketIdx.val + gapWindowBuckets - i.val) % gapWindowBuckets
        let weighted :=
          if age ≤ gapFreshSecs then gap
          else gap * Binary32.powi gapStaleDecay (age - gapFreshSecs)
        if best.1 < weighted ∨ ((weighted == best.1) = true ∧ age < best.2) then (weighted, age)
        else best)
    (0.0, 0)

/-- Worst recent delivery gap, in frames, weighted down by age. -/
def maxGapFrames (s : JitterStats F) : F := s.weightedGapPeak.1

/-- Age of the bucket that sets the worst gap. -/
def maxGapAgeSecs (s : JitterStats F) : ℕ := s.weightedGapPeak.2

/-- Clear the delivery-gap window. -/
def resetGapWindow (s : JitterStats F) : JitterStats F :=
  { s with gapBuckets := fun _ => 0.0, gapBucketIdx := 0, gapBucketStart := none }

/-- Drop the burst flag and its anchor after a long time without clusters. -/
def expireBurst (s : JitterStats F) (arrivalTime : Instant) : JitterStats F :=
  if s.burstDetected ∧
      s.lastBurstTime.any fun last => burstExpirySecs ≤ (arrivalTime.durationSince last).asSecs then
    { s with burstDetected := false, interBurstGapFrames := 0.0, lastClusterStart := none }
  else s

/-- Seconds of a duration as a float. -/
def secsF32 (d : Duration) : F :=
  Binary32.ofNat d.asSecs + Binary32.ofNat (d % 1000000000) / Binary32.ofNat 1000000000

/-- Close the current cluster; one of sufficient size sets the burst flag. -/
def completeCluster (s : JitterStats F) (arrivalTime : Instant) : JitterStats F :=
  if minClusterSize ≤ s.clusterPacketCount then
    let interBurstGap :=
      match s.lastClusterStart, s.clusterStartTime with
      | some prevStart, some curStart =>
        let gapFrames := secsF32 (curStart.durationSince prevStart) * 1000.0 / frameMs
        if gapFrames ≤ gapClampFrames then
          if s.interBurstGapFrames == 0.0 then gapFrames
          else s.interBurstGapFrames * 0.7 + gapFrames * 0.3
        else s.interBurstGapFrames
      | _, _ => s.interBurstGapFrames
    { s with
      interBurstGapFrames := interBurstGap
      lastClusterStart := s.clusterStartTime
      burstDetected := true
      lastBurstTime := some arrivalTime }
  else s

/-- Assign the packet to a cluster by its inter-arrival time. -/
def trackCluster (s : JitterStats F) (iatActual : F) (arrivalTime : Instant) : JitterStats F :=
  if iatActual < clusterIatThresholdMs then
    { s with
      clusterPacketCount := s.clusterPacketCount + 1
      clusterStartTime := s.clusterStartTime.or (some arrivalTime) }
  else if clusterGapThresholdMs < iatActual then
    { s.completeCluster arrivalTime with
      clusterPacketCount := 1
      clusterStartTime := some arrivalTime }
  else { s with clusterPacketCount := 0, clusterStartTime := none }

/-- Extend, halve or drop the clean streak. -/
def trackCleanStreak (s : JitterStats F) (jitterFrames : F) : JitterStats F :=
  let cleanThresh := s.cleanThreshold
  if jitterFrames < cleanThresh then { s with cleanStreak := s.cleanStreak + 1 }
  else if cleanThresh * 2.0 < jitterFrames then { s with cleanStreak := 0 }
  else { s with cleanStreak := s.cleanStreak / 2 }

/-- Update the jitter averages: fast attack, decay scaled by stability. -/
def trackJitter (s : JitterStats F) (jitterFrames : F) : JitterStats F :=
  let alpha := if s.emaJitter < jitterFrames then 0.15 else lerp 0.005 0.04 s.stabilityRatio
  { s with
    emaJitterVar := s.emaJitterVar * 0.95 + jitterFrames * jitterFrames * 0.05
    emaJitter := s.emaJitter * (1.0 - alpha) + jitterFrames * alpha }

/-- Note a major spike; frequent ones open the unstable regime. -/
def trackMacroSpike (s : JitterStats F) (jitterFrames : F) (arrivalTime : Instant) :
    JitterStats F :=
  if 10.0 ≤ jitterFrames then
    match s.lastMacroSpike with
    | none => { s with lastMacroSpike := some arrivalTime }
    | some lastSpike =>
      let interval := (arrivalTime.durationSince lastSpike).asMillis
      if 500 < interval then
        { s with
          lastMacroSpike := some arrivalTime
          unstableRegimeUntil :=
            if interval < 10000 then some (arrivalTime + Duration.fromSecs 20)
            else s.unstableRegimeUntil }
      else s
  else s

/-- Update every statistic from a packet `seqDiff` numbers ahead, `elapsed` after the last. -/
def observeForward (s : JitterStats F) (seqDiff : ℕ) (elapsed : Duration) (arrivalTime : Instant) :
    JitterStats F :=
  let iatActual : F := Binary32.ofNat elapsed.asMillis
  let iatExpected : F := Binary32.ofNat seqDiff * frameMs
  let jitterFrames := Binary32.maximum (iatActual - iatExpected) 0.0 / frameMs
  let iatPackets := iatActual / frameMs
  let s := s.updateDelayHistory (iatPackets - Binary32.ofNat seqDiff)
  let s := s.updateIatHistogram s.relativePacketArrivalDelay
  let s := s.recordGap iatPackets arrivalTime
  let s := (s.expireBurst arrivalTime).trackCluster iatActual arrivalTime
  let s := (s.trackCleanStreak jitterFrames).trackJitter jitterFrames
  s.trackMacroSpike jitterFrames arrivalTime

/-- Anchor the next packet at this one and count it. -/
def acceptArrival (s : JitterStats F) (seqNum : UInt64) (arrivalTime : Instant) : JitterStats F :=
  { s with
    lastNetworkArrival := some arrivalTime
    lastIngestSeq := some seqNum
    arrivalCount := s.arrivalCount + 1 }

/-- Distance and elapsed time anchor of a packet ahead of the last one. -/
def forwardOf (s : JitterStats F) (seqNum : UInt64) : Option (ℕ × Instant) :=
  match s.lastNetworkArrival, s.lastIngestSeq with
  | some lastTime, some lastSeq =>
    if lastSeq < seqNum then some ((seqNum - lastSeq).toNat, lastTime) else none
  | _, _ => none

/-- Observe an arrival; `false` when the clock ran backwards and the packet is dropped. -/
def observe (s : JitterStats F) (seqNum : UInt64) (arrivalTime : Instant) :
    JitterStats F × Bool :=
  match s.forwardOf seqNum with
  | some (seqDiff, lastTime) =>
    if seqDiff < 1000 then
      match arrivalTime.checkedDurationSince lastTime with
      | some elapsed =>
        ((s.observeForward seqDiff elapsed arrivalTime).acceptArrival seqNum arrivalTime, true)
      | none => (s, false)
    else (s.acceptArrival seqNum arrivalTime, true)
  | none => (s.acceptArrival seqNum arrivalTime, true)

/-- Read and clear the arrival counter. -/
def takeArrivalCount (s : JitterStats F) : JitterStats F × ℕ :=
  ({ s with arrivalCount := 0 }, s.arrivalCount)

/-- What both resets clear. -/
def clearLearned (s : JitterStats F) : JitterStats F :=
  resetGapWindow
    { s.resetHistogramToSeed with
      emaJitter := 0.0
      cleanStreak := 0
      emaJitterVar := 0.0
      delayHistory := []
      clusterPacketCount := 0
      clusterStartTime := none
      lastClusterStart := none
      interBurstGapFrames := 0.0
      burstDetected := false
      lastBurstTime := none }

/-- Forget the stream that ended. -/
def resetOnStreamRestart (s : JitterStats F) : JitterStats F :=
  { s.clearLearned with lastIngestSeq := none }

/-- Start convergence over for a new configuration. -/
def resetOnConfigChange (s : JitterStats F) : JitterStats F := s.clearLearned

section ArrivalCount

variable (s : JitterStats F)

@[simp] theorem updateIatHistogram_arrivalCount (delayFrames : F) :
    (s.updateIatHistogram delayFrames).arrivalCount = s.arrivalCount := by
  unfold updateIatHistogram
  split <;> rfl

@[simp] theorem rotateGapBuckets_arrivalCount (steps : ℕ) :
    (s.rotateGapBuckets steps).arrivalCount = s.arrivalCount := by
  induction steps generalizing s with
  | zero => rfl
  | succ steps ih => exact ih _

@[simp] theorem recordGap_arrivalCount (gapFrames : F) (arrivalTime : Instant) :
    (s.recordGap gapFrames arrivalTime).arrivalCount = s.arrivalCount := by
  unfold recordGap
  dsimp only
  split
  · rfl
  · split
    · exact s.rotateGapBuckets_arrivalCount _
    · rfl

@[simp] theorem expireBurst_arrivalCount (arrivalTime : Instant) :
    (s.expireBurst arrivalTime).arrivalCount = s.arrivalCount := by
  unfold expireBurst
  split <;> rfl

@[simp] theorem completeCluster_arrivalCount (arrivalTime : Instant) :
    (s.completeCluster arrivalTime).arrivalCount = s.arrivalCount := by
  unfold completeCluster
  split <;> rfl

@[simp] theorem trackCluster_arrivalCount (iatActual : F) (arrivalTime : Instant) :
    (s.trackCluster iatActual arrivalTime).arrivalCount = s.arrivalCount := by
  unfold trackCluster
  split
  · rfl
  · split
    · exact s.completeCluster_arrivalCount arrivalTime
    · rfl

@[simp] theorem trackCleanStreak_arrivalCount (jitterFrames : F) :
    (s.trackCleanStreak jitterFrames).arrivalCount = s.arrivalCount := by
  unfold trackCleanStreak
  dsimp only
  split
  · rfl
  · split <;> rfl

@[simp] theorem trackJitter_arrivalCount (jitterFrames : F) :
    (s.trackJitter jitterFrames).arrivalCount = s.arrivalCount := rfl

@[simp] theorem trackMacroSpike_arrivalCount (jitterFrames : F) (arrivalTime : Instant) :
    (s.trackMacroSpike jitterFrames arrivalTime).arrivalCount = s.arrivalCount := by
  unfold trackMacroSpike
  split
  · split
    · rfl
    · dsimp only
      split <;> rfl
  · rfl

@[simp] theorem observeForward_arrivalCount (seqDiff : ℕ) (elapsed : Duration)
    (arrivalTime : Instant) :
    (s.observeForward seqDiff elapsed arrivalTime).arrivalCount = s.arrivalCount := by
  unfold observeForward
  simp only [trackMacroSpike_arrivalCount, trackJitter_arrivalCount, trackCleanStreak_arrivalCount,
    trackCluster_arrivalCount, expireBurst_arrivalCount, recordGap_arrivalCount,
    updateIatHistogram_arrivalCount]
  rfl

/-- An arrival is counted exactly when it is accepted. -/
theorem observe_arrivalCount (seqNum : UInt64) (arrivalTime : Instant) :
    (s.observe seqNum arrivalTime).1.arrivalCount =
      s.arrivalCount + if (s.observe seqNum arrivalTime).2 then 1 else 0 := by
  unfold observe
  split
  · split
    · split
      · exact congrArg (· + 1) (s.observeForward_arrivalCount _ _ _)
      · rfl
    · rfl
  · rfl

end ArrivalCount

end JitterStats

end Gemacast.Jitter
