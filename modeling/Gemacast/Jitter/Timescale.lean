import Gemacast.Jitter.Config

/-!
# The time-scaler

Waveform-similarity overlap-add on interleaved stereo samples: stretch, shrink,
splice across a flush and conceal by repeating a pitch period. Windows are the
valid parts of the scratch buffers; an append to the playback buffer is the list
of samples appended.
-/

namespace Gemacast.Jitter

open Gemacast.Core

/-- Capacity of the accelerate window, in interleaved samples. -/
def accelWindowSamples : ℕ := accelWindowFrames * opusFrameSamples

/-- Fewest sample frames a pitch search can work on. -/
def minSearchFrames : ℕ := 2 * olaLen + 16

section Samples

variable {F : Type} [Binary32 F]

/-- The rising half of the crossfade, one gain for each sample frame. -/
def fadeRamp : List F :=
  (List.range olaLen).map fun i =>
    0.5 * (1.0 - Binary32.cos (Binary32.pi * Binary32.ofNat i / Binary32.ofNat (olaLen - 1)))

/-- The crossfade gains of interleaved stereo. -/
def stereoRamp : List F := fadeRamp.flatMap fun gain => [gain, gain]

/-- The mean of both channels of each sample frame. -/
def mono : List F → List F
  | left :: right :: samples => (left + right) * 0.5 :: mono samples
  | _ => []

/-- The sample frames `[start, stop)` of an interleaved window. -/
def sampleFrames (win : List F) (start stop : ℕ) : List F :=
  (win.drop (start * opusChannels)).take ((stop - start) * opusChannels)

/-- Crossfade one region out and another one in, both of the crossfade length. -/
def crossfade (early late : List F) : List F :=
  List.zipWith (fun (gain : F) (pair : F × F) => pair.1 * (1.0 - gain) + pair.2 * gain)
    stereoRamp (early.zip late)

/-- Sum of squares. -/
def energy (samples : List F) : F := samples.foldl (fun sum v => sum + v * v) 0.0

/-- Normalised cross-correlation of a reference of known energy with a candidate. -/
def ncc (reference : List F) (refEnergy : F) (cand : List F) : F :=
  let cross := (reference.zip cand).foldl (fun sum pair => sum + pair.1 * pair.2) 0.0
  let denom := Binary32.sqrt (refEnergy * energy cand)
  if 1e-10 < denom then cross / denom else 0.0

/-- Keep the better of a running best lag and a lag with its correlation. -/
def better (best : ℕ × F) (d : ℕ) (corr : F) : ℕ × F :=
  if best.2 < corr then (d, corr) else best

/-- The best lag of `[lo, hi)`, starting from a running best. -/
def bestLag (corr : ℕ → F) (lo hi : ℕ) (best : ℕ × F) : ℕ × F :=
  (List.range' lo (hi - lo)).foldl (fun best d => better best d (corr d)) best

/-- A coarse peak: its correlation and its lag, none while the slot is unused. -/
abbrev Peak (F : Type) := F × Option ℕ

/-- Index of the weakest coarse peak. -/
def weakestPeak (peaks : List (Peak F)) : ℕ :=
  (List.range peaks.length).foldl
    (fun weakest i =>
      if (peaks.getD i default).1 < (peaks.getD weakest default).1 then i else weakest) 0

/-- Let a coarse lag compete with the peak it belongs to, or with the weakest one. -/
def offerPeak (peaks : List (Peak F)) (k : ℕ) (corr : F) : List (Peak F) :=
  let slot :=
    (peaks.findIdx? fun peak => peak.2.any fun p => max p k - min p k ≤ 1).getD (weakestPeak peaks)
  if (peaks.getD slot default).1 < corr then peaks.set slot (corr, some k) else peaks

end Samples

/-- The geometry of one pitch search, in sample frames. -/
structure SearchGeometry where
  /-- Frames of the window. -/
  n : ℕ
  /-- Start of the reference region. -/
  anchor : ℕ
  /-- Bound of the lags tried. -/
  searchLimit : ℕ
  deriving DecidableEq, Repr

/-- Search the pitch of a window: coarsely on a decimated signal, then at full rate
around the coarse peaks. The result is the best lag and its correlation. -/
def findPitchPeriod {F : Type} [Binary32 F] (win : List F) (geom : SearchGeometry) : ℕ × F :=
  let monoBuf := (mono win).take geom.n
  let decLen := geom.n / pitchDecimation
  let refTaps := olaLen / pitchDecimation
  if decLen ≤ refTaps ∨ refTaps = 0 then (0, Binary32.negInfinity)
  else
    let dec := (List.range decLen).map fun j => monoBuf.getD (j * pitchDecimation) default
    let decRefStart := decLen - refTaps
    let decRef := (dec.drop decRefStart).take refTaps
    let decEnergy := energy decRef
    let maxDec := min (geom.searchLimit / pitchDecimation) decRefStart
    let peaks :=
      (List.range (maxDec + 1)).foldl
        (fun peaks k => offerPeak peaks k (ncc decRef decEnergy ((dec.drop k).take refTaps)))
        (List.replicate coarsePeaks (Binary32.negInfinity, none))
    let reference := (monoBuf.drop geom.anchor).take olaLen
    let refEnergy := energy reference
    peaks.foldl
      (fun best peak =>
        match peak.2 with
        | none => best
        | some pk =>
          let lo := pk * pitchDecimation - pitchDecimation
          let hi :=
            min (min ((pk + 1) * pitchDecimation + pitchDecimation) geom.searchLimit)
              (geom.anchor - olaLen)
          bestLag (fun d => ncc reference refEnergy ((monoBuf.drop d).take olaLen)) lo hi best)
      (0, Binary32.negInfinity)

/-- The scratch buffers of the time-scaler. -/
structure TimeScaler (F : Type) where
  /-- The frame before a flush. -/
  wsolaBuf : List F
  /-- The window of the last splice. -/
  accelWindow : List F
  /-- The remembered frame. -/
  histBuf : List F

namespace TimeScaler

variable {F : Type} [Binary32 F]

/-- Empty buffers. -/
def new : TimeScaler F := ⟨[], [], []⟩

/-- Hold the frame before a flush. -/
def snapshot (ts : TimeScaler F) (pcm : List F) : TimeScaler F :=
  if 0 < pcm.length then { ts with wsolaBuf := pcm } else ts

/-- The held frame. -/
def snapshotted (ts : TimeScaler F) (len : ℕ) : List F := ts.wsolaBuf.take len

/-- Stage the first frame of an accelerate window. -/
def windowBegin (ts : TimeScaler F) (pcm : List F) : TimeScaler F :=
  { ts with accelWindow := pcm.take accelWindowSamples }

/-- Append a frame to the window, if it fits. -/
def windowExtend (ts : TimeScaler F) (pcm : List F) : TimeScaler F × Bool :=
  if accelWindowSamples < ts.accelWindow.length + pcm.length then (ts, false)
  else ({ ts with accelWindow := ts.accelWindow ++ pcm }, true)

/-- Samples that still fit the window. -/
def windowHeadroom (ts : TimeScaler F) : ℕ := accelWindowSamples - ts.accelWindow.length

/-- Crossfade from the held frame into the best aligned lag of `pcm2`; nothing when a
side is too short. -/
def overlapAdd (ts : TimeScaler F) (pcm1Len : ℕ) (pcm2 : List F) (forceCrossfade : Bool) :
    Option (List F) :=
  let pcm1 := ts.snapshotted pcm1Len
  let n1 := pcm1Len / opusChannels
  let n2 := pcm2.length / opusChannels
  if n1 < olaLen + 16 ∨ n2 < olaLen + 16 then none
  else
    let anchor := n1 - olaLen
    let searchLimit := min searchRange (n2 - olaLen)
    let reference := mono (sampleFrames pcm1 anchor (anchor + olaLen))
    let refEnergy := energy reference
    let cands := mono pcm2
    let (bestD, bestCorr) :=
      bestLag (fun d => ncc reference refEnergy ((cands.drop d).take olaLen)) 0 searchLimit
        (0, Binary32.negInfinity)
    if forceCrossfade = false ∧ bestCorr < 0.9 then none
    else
      some (sampleFrames pcm1 0 anchor ++
        crossfade (sampleFrames pcm1 anchor (anchor + olaLen))
          (sampleFrames pcm2 bestD (bestD + olaLen)) ++
        pcm2.drop ((bestD + olaLen) * opusChannels))

/-- Remember the frame about to be overwritten. -/
def remember (ts : TimeScaler F) (pcm : List F) : TimeScaler F :=
  { ts with histBuf := pcm.take opusFrameSamples }

/-- Drop the remembered frame. -/
def forget (ts : TimeScaler F) : TimeScaler F := { ts with histBuf := [] }

/-- One period of a concealment: the last period of the history, its end faded into
the sample frames one period earlier. -/
def concealPeriod (win : List F) (anchor bestD : ℕ) : List F :=
  let n := anchor + olaLen
  let period := anchor - bestD
  let verbatim := period - olaLen
  let head := n - period
  sampleFrames win head (head + verbatim) ++
    crossfade (sampleFrames win anchor (anchor + olaLen))
      (sampleFrames win bestD (bestD + olaLen))

/-- One packet of a repeated block. -/
def repeatBlock (block : List F) (len : ℕ) : DecodedFrame F :=
  ⟨(List.range opusFrameSamples).map fun k => block.getD (k % len) default, by
    rw [List.length_map, List.length_range]⟩

/-- Repeat the pitch period of the remembered frame for one packet, and remember the
result; nothing when the history is too short. -/
def concealFrame (ts : TimeScaler F) : TimeScaler F × Option (DecodedFrame F) :=
  let n := ts.histBuf.length / opusChannels
  if n < minSearchFrames then (ts, none)
  else
    let ts := { ts with accelWindow := ts.histBuf }
    let anchor := n - olaLen
    let searchLimit := min searchRange (anchor - olaLen)
    if searchLimit = 0 then (ts, none)
    else
      let (bestD, _) := findPitchPeriod ts.accelWindow ⟨n, anchor, searchLimit⟩
      let period := anchor - bestD
      if period < olaLen then (ts, none)
      else
        let block := concealPeriod ts.accelWindow anchor bestD
        let out := repeatBlock block (period * opusChannels)
        ({ ts with histBuf := out.val }, some out)

/-- Stretch a frame by one pitch period found in the history and the frame. The result
is what is emitted, and the number of samples inserted. -/
def expandInner (ts : TimeScaler F) (pcm : List F) (rms : F) (conceal : Bool) :
    TimeScaler F × Option (List F × ℕ) :=
  if accelWindowSamples < pcm.length then (ts, none)
  else
    let hist := if ts.histBuf.length + pcm.length ≤ accelWindowSamples then ts.histBuf else []
    let ts := { ts with accelWindow := hist ++ pcm }
    let win := ts.accelWindow
    let n := win.length / opusChannels
    let histFrames := hist.length / opusChannels
    if n < minSearchFrames then (ts, none)
    else
      let anchor := n - olaLen
      if anchor < histFrames then (ts, none)
      else
        let searchLimit := min searchRange (anchor - olaLen)
        if searchLimit = 0 then (ts, none)
        else
          let (bestD, bestCorr) := findPitchPeriod win ⟨n, anchor, searchLimit⟩
          if conceal = false ∧ bestCorr < expandNccThreshold ∧ silenceRms ≤ rms then (ts, none)
          else
            let pitchPeriod := anchor - bestD
            if pitchPeriod < olaLen then (ts, none)
            else
              (ts, some (sampleFrames win histFrames anchor ++
                crossfade (sampleFrames win anchor (anchor + olaLen))
                  (sampleFrames win bestD (bestD + olaLen)) ++
                win.drop ((bestD + olaLen) * opusChannels), pitchPeriod * opusChannels))

/-- Preemptive expansion, gated on the correlation. -/
def expand (ts : TimeScaler F) (pcm : List F) (rms : F) : TimeScaler F × Option (List F × ℕ) :=
  ts.expandInner pcm rms false

/-- Expansion at the edge of an underrun, without the gate. -/
def expandConceal (ts : TimeScaler F) (pcm : List F) (rms : F) :
    TimeScaler F × Option (List F × ℕ) :=
  ts.expandInner pcm rms true

/-- Shorten the staged window by one pitch period. The result is what is emitted, and
the number of samples removed. -/
def accelerate (ts : TimeScaler F) (fastMode : Bool) (rms : F) : Option (List F × ℕ) :=
  let win := ts.accelWindow
  let n := win.length / opusChannels
  if n < minSearchFrames then none
  else
    let anchor := n - olaLen
    let searchLimit := min searchRange (anchor - olaLen)
    if searchLimit = 0 then none
    else
      let (bestD, bestCorr) := findPitchPeriod win ⟨n, anchor, searchLimit⟩
      let threshold : F := if fastMode then 0.5 else 0.9
      if bestCorr < threshold ∧ silenceRms ≤ rms then none
      else
        let pitchPeriod := anchor - bestD
        if pitchPeriod < olaLen then none
        else
          let spliceStart := bestD + pitchPeriod
          if n < spliceStart + olaLen then none
          else
            some (sampleFrames win 0 bestD ++
              crossfade (sampleFrames win bestD (bestD + olaLen))
                (sampleFrames win spliceStart (spliceStart + olaLen)) ++
              win.drop ((spliceStart + olaLen) * opusChannels), pitchPeriod * opusChannels)

end TimeScaler

end Gemacast.Jitter
