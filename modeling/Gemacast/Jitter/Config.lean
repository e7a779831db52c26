import Gemacast.Core.Binary32
import Gemacast.Jitter.Types

/-!
# Configuration and shared constants

The player's jitter configuration, the link it was detected on, and the numeric
constants that several actors of the pipeline read.
-/

namespace Gemacast.Jitter

open Gemacast.Core

/-- The depth policy of a session. -/
structure JitterConfig (F : Type) where
  /-- Floor of the buffer depth. -/
  minDepthMs : ℕ
  /-- Ceiling of the adaptive depth. -/
  comfortCapMs : ℕ
  /-- Half-life of the removed peak statistic; only compared. -/
  peakDecayHalflifeMs : ℕ
  /-- Share of the target at which a hold releases the playhead. -/
  resumeThresholdPct : F
  /-- Depth pinned by the user; zero asks for no buffering. -/
  staticTargetMs : Option ℕ

/-- Two configurations are equal field by field, the share by number comparison. -/
def JitterConfig.same {F : Type} [Binary32 F] (a b : JitterConfig F) : Bool :=
  a.minDepthMs == b.minDepthMs && a.comfortCapMs == b.comfortCapMs &&
    a.peakDecayHalflifeMs == b.peakDecayHalflifeMs &&
    a.resumeThresholdPct == b.resumeThresholdPct && a.staticTargetMs == b.staticTargetMs

/-- The detected network link of one side. -/
inductive NetworkLink
  | adb
  | usbTether
  | wifi5Ghz
  | wifi2_4Ghz
  | ethernet
  | wifiUnknown
  | unknown
  deriving DecidableEq, Repr

/-- Crossfade length of a splice, in sample frames. -/
def olaLen : ℕ := 128

/-- Longest lag of the pitch search, in sample frames. -/
def searchRange : ℕ := 720

/-- Decoded frames the accelerate window can hold. -/
def accelWindowFrames : ℕ := 2

/-- Decimation of the coarse pitch search. -/
def pitchDecimation : ℕ := 12

/-- Coarse correlation peaks refined at full rate. -/
def coarsePeaks : ℕ := 3

section Levels

variable {F : Type} [Binary32 F]

/-- Frames below this energy count as silence. -/
def silenceRms : F := 0.005

/-- Splices on frames at or above this energy are counted as unmasked. -/
def artifactMaskRms : F := 0.08

/-- Correlation a preemptive expand must reach. -/
def expandNccThreshold : F := 0.85

/-- Gain a long concealment run decays to. -/
def concealFadeFloor : F := 0.15

/-- Linear interpolation. -/
def lerp (a b t : F) : F := a + (b - a) * t

end Levels

end Gemacast.Jitter
