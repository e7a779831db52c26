import Mathlib.Algebra.Group.Even
import Gemacast.Core.Splice
import Gemacast.Jitter.Timescale

/-!
# The splices of the time-scaler

What `accelerate` and `expand` append to the playback buffer, push by push, and what of
the window that is: a shortened window is the window without one pitch period, a
stretched frame is the frame up to its last crossfade and one more pitch period of what
was staged.
-/

namespace Gemacast.Jitter

open Gemacast.Core

section Windows

variable {F : Type}

theorem sampleFrames_eq_slice (win : List F) (start stop : ℕ) :
    sampleFrames win start stop = slice win (start * opusChannels) (stop * opusChannels) := by
  rw [sampleFrames, slice, Nat.sub_mul]

theorem sampleFrames_zero (win : List F) (stop : ℕ) :
    sampleFrames win 0 stop = win.take (stop * opusChannels) := by
  rw [sampleFrames, Nat.zero_mul, List.drop_zero, Nat.sub_zero]

theorem length_sampleFrames {win : List F} {start stop : ℕ}
    (h : stop * opusChannels ≤ win.length) :
    (sampleFrames win start stop).length = (stop - start) * opusChannels := by
  rw [sampleFrames_eq_slice, length_slice h, Nat.sub_mul]

/-- A tail is appended when there is one. -/
theorem append_tail (playbackBuf l : List F) (start : ℕ) :
    (if start < l.length then playbackBuf ++ l.drop start else playbackBuf) =
      playbackBuf ++ l.drop start := by
  split
  · rfl
  · rw [List.drop_eq_nil_of_le (by omega), List.append_nil]

end Windows

section Crossfade

variable {F : Type} [Binary32 F]

/-- One sample of a crossfade: sample frame `i` and channel `c` of both regions. -/
def fadedSample (src : List F) (srcAt : ℕ) (dst : List F) (dstAt i c : ℕ) : F :=
  let fadeIn := fadeRamp.getD i default
  let fadeOut := 1.0 - fadeIn
  src.getD ((srcAt + i) * opusChannels + c) default * fadeOut +
    dst.getD ((dstAt + i) * opusChannels + c) default * fadeIn

/-- Push a crossfade sample by sample. -/
def pushCrossfade (src : List F) (srcAt : ℕ) (dst : List F) (dstAt : ℕ)
    (playbackBuf : List F) : List F :=
  (List.range olaLen).foldl
    (fun buf i => (List.range opusChannels).foldl
      (fun buf c => buf ++ [fadedSample src srcAt dst dstAt i c]) buf) playbackBuf

theorem stereoRamp_length : (stereoRamp : List F).length = olaLen * opusChannels := by
  rw [stereoRamp, length_flatMap_pair, fadeRamp, List.length_map, List.length_range, Nat.mul_comm]
  rfl

/-- A crossfade of two regions of its length has that length. -/
theorem crossfade_length {early late : List F} (hearly : early.length = olaLen * opusChannels)
    (hlate : late.length = olaLen * opusChannels) :
    (crossfade early late).length = olaLen * opusChannels := by
  rw [crossfade, List.length_zipWith, List.length_zip, stereoRamp_length, hearly, hlate]
  simp

/-- One sample of the crossfade of two regions. -/
theorem getElem?_crossfade {src dst : List F} {srcAt dstAt : ℕ}
    (hsrc : (srcAt + olaLen) * opusChannels ≤ src.length)
    (hdst : (dstAt + olaLen) * opusChannels ≤ dst.length) {k : ℕ}
    (hk : k < olaLen * opusChannels) :
    (crossfade (sampleFrames src srcAt (srcAt + olaLen))
        (sampleFrames dst dstAt (dstAt + olaLen)))[k]? =
      some (fadedSample src srcAt dst dstAt (k / 2) (k % 2)) := by
  have hsplit : ∀ at' : ℕ, (at' + k / 2) * opusChannels + k % 2 = at' * opusChannels + k := by
    intro at'
    unfold opusChannels
    omega
  have hhalf : k / 2 < olaLen := by
    unfold opusChannels at hk
    omega
  unfold opusChannels at hsrc hdst hk
  have hs : srcAt * 2 + k < src.length := by omega
  have hd : dstAt * 2 + k < dst.length := by omega
  have hramp : (stereoRamp : List F)[k]? = fadeRamp[k / 2]? := by
    rw [stereoRamp, getElem?_flatMap_pair]
    simp
  have hgain : k / 2 < (fadeRamp : List F).length := by
    rw [fadeRamp, List.length_map, List.length_range]
    exact hhalf
  have hearly : (sampleFrames src srcAt (srcAt + olaLen))[k]? = src[srcAt * opusChannels + k]? := by
    rw [sampleFrames_eq_slice, getElem?_slice]
    unfold opusChannels
    omega
  have hlate : (sampleFrames dst dstAt (dstAt + olaLen))[k]? = dst[dstAt * opusChannels + k]? := by
    rw [sampleFrames_eq_slice, getElem?_slice]
    unfold opusChannels
    omega
  rw [crossfade, List.getElem?_zipWith, hramp, List.zip, List.getElem?_zipWith, hearly, hlate]
  simp only [fadedSample, hsplit, List.getD_eq_getElem?_getD]
  simp [opusChannels, hs, hd, hgain]
/-- The crossfade of two regions, sample frame by sample frame. -/
theorem crossfade_eq {src dst : List F} {srcAt dstAt : ℕ}
    (hsrc : (srcAt + olaLen) * opusChannels ≤ src.length)
    (hdst : (dstAt + olaLen) * opusChannels ≤ dst.length) :
    crossfade (sampleFrames src srcAt (srcAt + olaLen))
        (sampleFrames dst dstAt (dstAt + olaLen)) =
      (List.range olaLen).flatMap fun i =>
        [fadedSample src srcAt dst dstAt i 0, fadedSample src srcAt dst dstAt i 1] := by
  apply List.ext_getElem?
  intro k
  by_cases hk : k < olaLen * opusChannels
  · have hhalf : k / 2 < olaLen := by
      unfold opusChannels at hk
      omega
    rw [getElem?_crossfade hsrc hdst hk, getElem?_flatMap_pair, List.getElem?_range hhalf]
    obtain hmod | hmod := Nat.mod_two_eq_zero_or_one k <;> simp [hmod]
  · rw [List.getElem?_eq_none, List.getElem?_eq_none]
    · rw [length_flatMap_pair, List.length_range]
      unfold opusChannels at hk
      omega
    · rw [crossfade_length]
      · omega
      · rw [length_sampleFrames hsrc, Nat.add_sub_cancel_left]
      · rw [length_sampleFrames hdst, Nat.add_sub_cancel_left]

/-- Pushing a crossfade appends it. -/
theorem pushCrossfade_eq {src dst : List F} {srcAt dstAt : ℕ}
    (hsrc : (srcAt + olaLen) * opusChannels ≤ src.length)
    (hdst : (dstAt + olaLen) * opusChannels ≤ dst.length) (playbackBuf : List F) :
    pushCrossfade src srcAt dst dstAt playbackBuf =
      playbackBuf ++ crossfade (sampleFrames src srcAt (srcAt + olaLen))
        (sampleFrames dst dstAt (dstAt + olaLen)) := by
  rw [crossfade_eq hsrc hdst, pushCrossfade]
  generalize List.range olaLen = frames
  induction frames generalizing playbackBuf with
  | nil => simp
  | cons i frames ih =>
    rw [List.foldl_cons, ih, List.flatMap_cons, ← List.append_assoc]
    congr 1
    simp [opusChannels, List.range_succ]

end Crossfade

namespace TimeScaler

variable {F : Type} [Binary32 F]

/-- `accelerate` with the playback buffer it appends to. -/
def accelerateInto (ts : TimeScaler F) (fastMode : Bool) (rms : F) (playbackBuf : List F) :
    List F × Option ℕ :=
  let win := ts.accelWindow
  let n := win.length / opusChannels
  if n < minSearchFrames then (playbackBuf, none)
  else
    let anchor := n - olaLen
    let searchLimit := min searchRange (anchor - olaLen)
    if searchLimit = 0 then (playbackBuf, none)
    else
      let (bestD, bestCorr) := findPitchPeriod win ⟨n, anchor, searchLimit⟩
      let threshold : F := if fastMode then 0.5 else 0.9
      if bestCorr < threshold ∧ silenceRms ≤ rms then (playbackBuf, none)
      else
        let pitchPeriod := anchor - bestD
        if pitchPeriod < olaLen then (playbackBuf, none)
        else
          let spliceStart := bestD + pitchPeriod
          if n < spliceStart + olaLen then (playbackBuf, none)
          else
            let playbackBuf := playbackBuf ++ win.take (bestD * opusChannels)
            let playbackBuf := pushCrossfade win bestD win spliceStart playbackBuf
            let tailStart := (spliceStart + olaLen) * opusChannels
            let playbackBuf :=
              if tailStart < win.length then playbackBuf ++ win.drop tailStart else playbackBuf
            (playbackBuf, some (pitchPeriod * opusChannels))

/-- The remembered frame as `expandInner` stages it: dropped when the pair would overflow. -/
def stagedHistory (ts : TimeScaler F) (pcm : List F) : List F :=
  if ts.histBuf.length + pcm.length ≤ accelWindowSamples then ts.histBuf else []

/-- `expandInner` with the playback buffer it appends to. -/
def expandInto (ts : TimeScaler F) (pcm : List F) (rms : F) (playbackBuf : List F)
    (conceal : Bool) : TimeScaler F × List F × Option ℕ :=
  let hist := ts.stagedHistory pcm
  if accelWindowSamples < pcm.length then (ts, playbackBuf, none)
  else
    let ts := { ts with accelWindow := hist ++ pcm }
    let win := ts.accelWindow
    let n := win.length / opusChannels
    let histFrames := hist.length / opusChannels
    if n < minSearchFrames then (ts, playbackBuf, none)
    else
      let anchor := n - olaLen
      if anchor < histFrames then (ts, playbackBuf, none)
      else
        let searchLimit := min searchRange (anchor - olaLen)
        if searchLimit = 0 then (ts, playbackBuf, none)
        else
          let (bestD, bestCorr) := findPitchPeriod win ⟨n, anchor, searchLimit⟩
          if conceal = false ∧ bestCorr < expandNccThreshold ∧ silenceRms ≤ rms then
            (ts, playbackBuf, none)
          else
            let pitchPeriod := anchor - bestD
            if pitchPeriod < olaLen then (ts, playbackBuf, none)
            else
              let playbackBuf := playbackBuf ++ sampleFrames win histFrames anchor
              let playbackBuf := pushCrossfade win anchor win bestD playbackBuf
              let tailStart := (bestD + olaLen) * opusChannels
              let playbackBuf :=
                if tailStart < win.length then playbackBuf ++ win.drop tailStart else playbackBuf
              (ts, playbackBuf, some (pitchPeriod * opusChannels))

/-- Shortening appends what `accelerate` answers, or nothing. -/
theorem accelerateInto_eq (ts : TimeScaler F) (fastMode : Bool) (rms : F) (playbackBuf : List F) :
    ts.accelerateInto fastMode rms playbackBuf =
      match ts.accelerate fastMode rms with
      | some (appended, k) => (playbackBuf ++ appended, some k)
      | none => (playbackBuf, none) := by
  unfold accelerateInto accelerate
  dsimp only
  simp only [append_tail]
  generalize (if fastMode = true then 0.5 else 0.9 : F) = threshold
  generalize findPitchPeriod ts.accelWindow _ = found
  split_ifs with hshort hlag hgate hperiod hroom
  · rfl
  · rfl
  · rfl
  · rfl
  · rfl
  · have hin := Nat.div_mul_le_self ts.accelWindow.length opusChannels
    have hlate := (Nat.mul_le_mul_right opusChannels (not_lt.mp hroom)).trans hin
    have hearly : (found.1 + olaLen) * opusChannels ≤ ts.accelWindow.length := by
      refine le_trans (Nat.mul_le_mul_right _ ?_) hlate
      omega
    rw [pushCrossfade_eq hearly hlate, sampleFrames_zero]
    simp only [List.append_assoc]

/-- Stretching appends what `expandInner` answers, or nothing. -/
theorem expandInto_eq (ts : TimeScaler F) (pcm : List F) (rms : F) (playbackBuf : List F)
    (conceal : Bool) :
    ts.expandInto pcm rms playbackBuf conceal =
      match ts.expandInner pcm rms conceal with
      | (ts, some (appended, k)) => (ts, playbackBuf ++ appended, some k)
      | (ts, none) => (ts, playbackBuf, none) := by
  unfold expandInto expandInner
  dsimp only
  simp only [append_tail]
  rw [← stagedHistory]
  generalize findPitchPeriod (ts.stagedHistory pcm ++ pcm) _ = found
  split_ifs with hlong hshort hhist hlag hgate hperiod
  · rfl
  · rfl
  · rfl
  · rfl
  · rfl
  · rfl
  · have hin := Nat.div_mul_le_self (ts.stagedHistory pcm ++ pcm).length opusChannels
    unfold minSearchFrames olaLen at hshort
    unfold olaLen at hperiod
    have hearly : ((ts.stagedHistory pcm ++ pcm).length / opusChannels - olaLen + olaLen) *
        opusChannels ≤ (ts.stagedHistory pcm ++ pcm).length := by
      refine le_trans (Nat.mul_le_mul_right _ ?_) hin
      unfold olaLen
      omega
    have hlate : (found.1 + olaLen) * opusChannels ≤ (ts.stagedHistory pcm ++ pcm).length := by
      refine le_trans (Nat.mul_le_mul_right _ ?_) hin
      unfold olaLen
      omega
    rw [pushCrossfade_eq hearly hlate]
    simp only [List.append_assoc]

end TimeScaler

/-- `appended` is the window `win` without the `k` samples of one pitch period: it leaves
the window at `bestD` and is back in it one period later. -/
structure Shortened {F : Type} [Binary32 F] (win appended : List F)
    (k bestD pitchPeriod : ℕ) : Prop where
  /-- What is missing is one pitch period. -/
  removed : k = pitchPeriod * opusChannels
  long : olaLen ≤ pitchPeriod
  length : appended.length + k = win.length
  /-- The second region of the crossfade lies in the window. -/
  fits : (bestD + pitchPeriod + olaLen) * opusChannels ≤ win.length
  head : appended.take (bestD * opusChannels) = win.take (bestD * opusChannels)
  blend : sampleFrames appended bestD (bestD + olaLen) =
    crossfade (sampleFrames win bestD (bestD + olaLen))
      (sampleFrames win (bestD + pitchPeriod) (bestD + pitchPeriod + olaLen))
  tail : appended.drop ((bestD + olaLen) * opusChannels) =
    win.drop ((bestD + pitchPeriod + olaLen) * opusChannels)

/-- `appended` is the frame `pcm`, faded in its last sample frames into an earlier place of
`[hist | pcm]` from where the last `k` samples of that pair are played again. -/
structure Stretched {F : Type} [Binary32 F] (hist pcm appended : List F)
    (k pitchPeriod : ℕ) : Prop where
  /-- What is inserted is one pitch period. -/
  inserted : k = pitchPeriod * opusChannels
  long : olaLen ≤ pitchPeriod
  length : appended.length = pcm.length + k
  /-- The first region of the crossfade lies in the frame, the second one in the pair. -/
  fits : olaLen * opusChannels ≤ pcm.length ∧
    k + olaLen * opusChannels ≤ hist.length + pcm.length
  head : appended.take (pcm.length - olaLen * opusChannels) =
    pcm.take (pcm.length - olaLen * opusChannels)
  blend : slice appended (pcm.length - olaLen * opusChannels) pcm.length =
    crossfade (pcm.drop (pcm.length - olaLen * opusChannels))
      (slice (hist ++ pcm) (hist.length + pcm.length - k - olaLen * opusChannels)
        (hist.length + pcm.length - k))
  tail : appended.drop pcm.length = (hist ++ pcm).drop (hist.length + pcm.length - k)

/-- A call leaves the playback buffer alone, or appends what `P` says of its answer. -/
def Appends {F : Type} (playbackBuf : List F) (answer : List F × Option ℕ)
    (P : List F → ℕ → Prop) : Prop :=
  match answer with
  | (buf, none) => buf = playbackBuf
  | (buf, some k) => ∃ appended, buf = playbackBuf ++ appended ∧ P appended k

section Search

variable {F : Type} [Binary32 F]

/-- A search finds a lag of its range, or keeps the one it started with. -/
theorem bestLag_cases (corr : ℕ → F) (lo hi : ℕ) (best : ℕ × F) :
    (bestLag corr lo hi best).1 = best.1 ∨
      lo ≤ (bestLag corr lo hi best).1 ∧ (bestLag corr lo hi best).1 < hi := by
  have hlags : ∀ d ∈ List.range' lo (hi - lo), lo ≤ d ∧ d < hi := by
    intro d hd
    rw [List.mem_range'_1] at hd
    omega
  unfold bestLag
  generalize List.range' lo (hi - lo) = lags at hlags
  induction lags generalizing best with
  | nil => exact Or.inl rfl
  | cons d lags ih =>
    obtain ⟨hd, hlags⟩ := List.forall_mem_cons.mp hlags
    rw [List.foldl_cons]
    obtain hkept | hfound := ih (better best d (corr d)) hlags
    · rw [hkept, better]
      split
      · exact Or.inr hd
      · exact Or.inl rfl
    · exact Or.inr hfound

/-- A pitch search stays below its limit. -/
theorem findPitchPeriod_lt (win : List F) (geom : SearchGeometry) (hlimit : 0 < geom.searchLimit) :
    (findPitchPeriod win geom).1 < geom.searchLimit := by
  unfold findPitchPeriod
  dsimp only
  split
  · exact hlimit
  · generalize List.foldl _ (List.replicate coarsePeaks _) _ = peaks
    have hstart : (0, (Binary32.negInfinity : F)).1 < geom.searchLimit := hlimit
    generalize (0, (Binary32.negInfinity : F)) = best at hstart
    induction peaks generalizing best with
    | nil => exact hstart
    | cons peak peaks ih =>
      rw [List.foldl_cons]
      apply ih
      split
      · exact hstart
      · obtain hkept | hfound := bestLag_cases _ _ _ best
        · rw [hkept]
          exact hstart
        · omega

end Search

section Geometry

variable {F : Type} [Binary32 F]

/-- A crossover to a later place of the window shortens it. -/
theorem shortened_crossOver {win : List F} {bestD pitchPeriod : ℕ} (hlong : olaLen ≤ pitchPeriod)
    (hfits : (bestD + pitchPeriod + olaLen) * opusChannels ≤ win.length) :
    Shortened win
      (crossOver crossfade win win 0 (bestD * opusChannels) ((bestD + pitchPeriod) * opusChannels)
        (olaLen * opusChannels)) (pitchPeriod * opusChannels) bestD pitchPeriod := by
  have hlate := hfits
  rw [Nat.add_mul] at hlate
  have hearly : bestD * opusChannels + olaLen * opusChannels ≤ win.length := by
    rw [Nat.add_mul bestD] at hlate
    omega
  have hlen : bestD * opusChannels = 0 + bestD * opusChannels := (Nat.zero_add _).symm
  refine ⟨rfl, hlong, ?_, hfits, ?_, ?_, ?_⟩
  · rw [length_crossOver hlen (fun _ _ => crossfade_length) hearly hlate]
    rw [Nat.add_mul bestD] at hlate ⊢
    omega
  · rw [take_crossOver hlen ((Nat.le_add_right _ _).trans hearly), slice_zero]
  · rw [sampleFrames_eq_slice, sampleFrames_eq_slice, sampleFrames_eq_slice, Nat.add_mul _ olaLen,
      Nat.add_mul _ olaLen]
    exact slice_crossOver hlen (fun _ _ => crossfade_length) hearly hlate
  · rw [Nat.add_mul _ olaLen, Nat.add_mul _ olaLen]
    exact drop_crossOver hlen (fun _ _ => crossfade_length) hearly hlate

/-- A crossover from the end of the frame to an earlier place of the pair stretches it. -/
theorem stretched_crossOver {hist pcm : List F} {bestD pitchPeriod : ℕ}
    (hlong : olaLen ≤ pitchPeriod) (hfits : olaLen * opusChannels ≤ pcm.length)
    (hsum : (bestD + pitchPeriod + olaLen) * opusChannels = hist.length + pcm.length) :
    Stretched hist pcm
      (crossOver crossfade (hist ++ pcm) (hist ++ pcm) hist.length
        (hist.length + (pcm.length - olaLen * opusChannels)) (bestD * opusChannels)
        (olaLen * opusChannels)) (pitchPeriod * opusChannels) pitchPeriod := by
  rw [Nat.add_mul, Nat.add_mul] at hsum
  have hwin : (hist ++ pcm).length = hist.length + pcm.length := List.length_append
  have hend : pcm.length - olaLen * opusChannels + olaLen * opusChannels = pcm.length :=
    Nat.sub_add_cancel hfits
  have hearly : hist.length + (pcm.length - olaLen * opusChannels) + olaLen * opusChannels ≤
      (hist ++ pcm).length := by omega
  have hlate : bestD * opusChannels + olaLen * opusChannels ≤ (hist ++ pcm).length := by omega
  have hinto : bestD * opusChannels + olaLen * opusChannels =
      hist.length + pcm.length - pitchPeriod * opusChannels := by omega
  refine ⟨rfl, hlong, ?_, ⟨hfits, by omega⟩, ?_, ?_, ?_⟩
  · rw [length_crossOver rfl (fun _ _ => crossfade_length) hearly hlate]
    omega
  · have hhead := slice_append_right hist pcm 0 (pcm.length - olaLen * opusChannels)
    rw [slice_zero] at hhead
    rw [take_crossOver rfl ((Nat.le_add_right _ _).trans hearly)]
    exact hhead
  · have hblend := slice_crossOver rfl (fun _ _ => crossfade_length) hearly hlate
    rw [hend, Nat.add_assoc hist.length, hend, slice_append_right, slice_eq_drop le_rfl,
      hinto] at hblend
    rw [← hinto, Nat.add_sub_cancel, hinto]
    exact hblend
  · have htail := drop_crossOver rfl (fun _ _ => crossfade_length) hearly hlate
    rw [hend, hinto] at htail
    exact htail

end Geometry

namespace TimeScaler

variable {F : Type} [Binary32 F]

/-- What `accelerate` appends is the window without one pitch period. -/
theorem accelerate_shortened {ts : TimeScaler F} {fastMode : Bool} {rms : F} {appended : List F}
    {k : ℕ} (h : ts.accelerate fastMode rms = some (appended, k)) :
    ∃ bestD pitchPeriod, Shortened ts.accelWindow appended k bestD pitchPeriod := by
  unfold accelerate at h
  dsimp only at h
  generalize (if fastMode = true then 0.5 else 0.9 : F) = threshold at h
  generalize findPitchPeriod ts.accelWindow _ = found at h
  split_ifs at h with hshort hlag hgate hperiod hroom
  obtain ⟨rfl, rfl⟩ := Prod.mk.inj (Option.some.inj h)
  generalize ts.accelWindow.length / opusChannels - olaLen - found.1 = pitchPeriod at *
  have hfits : (found.1 + pitchPeriod + olaLen) * opusChannels ≤ ts.accelWindow.length :=
    (Nat.mul_le_mul_right opusChannels (not_lt.mp hroom)).trans (Nat.div_mul_le_self _ _)
  refine ⟨found.1, pitchPeriod, ?_⟩
  have hsplice := shortened_crossOver (not_lt.mp hperiod) hfits
  simpa only [crossOver, sampleFrames_eq_slice, Nat.zero_mul, Nat.add_mul] using hsplice

/-- What `expand` appends is the frame and one pitch period of the pair. -/
theorem expandInner_stretched {ts ts' : TimeScaler F} {pcm : List F} {rms : F} {conceal : Bool}
    {appended : List F} {k : ℕ} (hhist : Even (ts.stagedHistory pcm).length)
    (hpcm : Even pcm.length)
    (h : ts.expandInner pcm rms conceal = (ts', some (appended, k))) :
    ∃ pitchPeriod, Stretched (ts.stagedHistory pcm) pcm appended k pitchPeriod := by
  unfold expandInner at h
  dsimp only at h
  rw [← stagedHistory] at h
  generalize ts.stagedHistory pcm = hist at h hhist
  generalize findPitchPeriod (hist ++ pcm) _ = found at h
  obtain ⟨histFrames, hhist⟩ := hhist
  obtain ⟨pcmFrames, hpcm⟩ := hpcm
  have hn : (hist ++ pcm).length / opusChannels = histFrames + pcmFrames := by
    rw [List.length_append, opusChannels]
    omega
  have hframes : hist.length / opusChannels = histFrames := by
    rw [opusChannels]
    omega
  rw [hn, hframes] at h
  have hola : olaLen = 128 := rfl
  rw [minSearchFrames] at h
  split_ifs at h with hlong hshort hstart hlag hgate hperiod
  · cases (Prod.mk.inj h).2
  · cases (Prod.mk.inj h).2
  · cases (Prod.mk.inj h).2
  · cases (Prod.mk.inj h).2
  · cases (Prod.mk.inj h).2
  · cases (Prod.mk.inj h).2
  obtain ⟨rfl, rfl⟩ := Prod.mk.inj (Option.some.inj (Prod.mk.inj h).2)
  have hfits : olaLen * opusChannels ≤ pcm.length := by
    rw [opusChannels]
    omega
  have hsum : (found.1 + (histFrames + pcmFrames - olaLen - found.1) + olaLen) * opusChannels =
      hist.length + pcm.length := by
    rw [opusChannels]
    omega
  have hfrom : histFrames * opusChannels = hist.length := by
    rw [opusChannels]
    omega
  have hout : (histFrames + pcmFrames - olaLen) * opusChannels =
      hist.length + (pcm.length - olaLen * opusChannels) := by
    rw [opusChannels]
    omega
  refine ⟨histFrames + pcmFrames - olaLen - found.1, ?_⟩
  have hsplice := stretched_crossOver (not_lt.mp hperiod) hfits hsum
  simpa only [crossOver, sampleFrames_eq_slice, hfrom, hout, Nat.add_mul _ olaLen] using hsplice

/-- What the calls append is conserved: a shortened window misses one pitch period, a
stretched frame gains one, and a call that refuses appends nothing. -/
theorem timestretch_conserves (ts : TimeScaler F) (pcm playbackBuf : List F) (rms : F)
    (fastMode conceal : Bool) (hhist : Even ts.histBuf.length) (hpcm : Even pcm.length) :
    Appends playbackBuf (ts.accelerateInto fastMode rms playbackBuf) (fun appended k =>
      ∃ bestD pitchPeriod, Shortened ts.accelWindow appended k bestD pitchPeriod) ∧
    Appends playbackBuf (ts.expandInto pcm rms playbackBuf conceal).2 (fun appended k =>
      ∃ pitchPeriod, Stretched (ts.stagedHistory pcm) pcm appended k pitchPeriod) := by
  have hstaged : Even (ts.stagedHistory pcm).length := by
    unfold stagedHistory
    split
    · exact hhist
    · exact ⟨0, rfl⟩
  constructor
  · rw [accelerateInto_eq]
    cases hanswer : ts.accelerate fastMode rms with
    | none => rfl
    | some answer => exact ⟨answer.1, rfl, accelerate_shortened hanswer⟩
  · rw [expandInto_eq]
    cases hanswer : ts.expandInner pcm rms conceal with
    | mk ts' answer =>
      cases answer with
      | none => rfl
      | some answer => exact ⟨answer.1, rfl, expandInner_stretched hstaged hpcm hanswer⟩

/-- At the edge of an underrun a frame of at least one crossfade is always stretched, by
more than one crossfade, when the pair is long enough for a search. -/
theorem expandConceal_isSome (ts : TimeScaler F) (pcm : List F) (rms : F) {histFrames pcmFrames : ℕ}
    (hhist : (ts.stagedHistory pcm).length = histFrames * opusChannels)
    (hpcm : pcm.length = pcmFrames * opusChannels) (hlong : pcm.length ≤ accelWindowSamples)
    (hfade : olaLen ≤ pcmFrames) (hsearch : minSearchFrames ≤ histFrames + pcmFrames) :
    ∃ ts' appended k, ts.expandConceal pcm rms = (ts', some (appended, k)) ∧
      olaLen * opusChannels < k := by
  have hn : (ts.stagedHistory pcm ++ pcm).length / opusChannels = histFrames + pcmFrames := by
    rw [List.length_append, hhist, hpcm, ← Nat.add_mul]
    exact Nat.mul_div_cancel _ (by decide)
  have hframes : (ts.stagedHistory pcm).length / opusChannels = histFrames := by
    rw [hhist]
    exact Nat.mul_div_cancel _ (by decide)
  have hfloor : 2 * olaLen + 16 ≤ histFrames + pcmFrames := hsearch
  have hola : olaLen = 128 := rfl
  have hrange : searchRange = 720 := rfl
  have hlimit : 0 < min searchRange (histFrames + pcmFrames - olaLen - olaLen) := by omega
  have hfound := findPitchPeriod_lt (ts.stagedHistory pcm ++ pcm) ⟨histFrames + pcmFrames,
    histFrames + pcmFrames - olaLen, min searchRange (histFrames + pcmFrames - olaLen - olaLen)⟩
    hlimit
  dsimp only at hfound
  unfold expandConceal expandInner
  dsimp only
  rw [← stagedHistory, hn, hframes, if_neg (not_lt.mpr hlong), if_neg (not_lt.mpr hsearch),
    if_neg (by omega), if_neg hlimit.ne', if_neg (by simp), if_neg (by omega)]
  refine ⟨_, _, _, rfl, ?_⟩
  rw [opusChannels]
  omega

/-- A remembered frame of ones. -/
def loudHistory : TimeScaler SoftFloat := { new with histBuf := List.replicate 960 1.0 }

/-- A frame of 128 silent sample frames. -/
def shortFrame : List SoftFloat := List.replicate 256 0.0

theorem loudHistory_even : Even loudHistory.histBuf.length := by
  rw [loudHistory, List.length_replicate]
  exact ⟨480, rfl⟩

theorem shortFrame_length : shortFrame.length = 128 * opusChannels := List.length_replicate

theorem shortFrame_even : Even shortFrame.length := by
  rw [shortFrame_length]
  exact ⟨128, rfl⟩

theorem timestretch_conserves_shortFrame :
    Appends [] (loudHistory.accelerateInto false 0.0 []) (fun appended k =>
      ∃ bestD pitchPeriod, Shortened loudHistory.accelWindow appended k bestD pitchPeriod) ∧
    Appends [] (loudHistory.expandInto shortFrame 0.0 [] true).2 (fun appended k =>
      ∃ pitchPeriod, Stretched (loudHistory.stagedHistory shortFrame) shortFrame appended k
        pitchPeriod) :=
  timestretch_conserves loudHistory shortFrame [] 0.0 false true loudHistory_even shortFrame_even

/-- A stretched frame may end in samples of the history. -/
theorem not_conserves_shortFrame : ¬ ∀ (ts : TimeScaler SoftFloat) (pcm : List SoftFloat)
    (rms : SoftFloat) (conceal : Bool), Even ts.histBuf.length → Even pcm.length →
    ∀ playbackBuf ts' appended k,
      ts.expandInto pcm rms playbackBuf conceal = (ts', playbackBuf ++ appended, some k) →
      ∀ x ∈ appended.drop pcm.length, x ∈ pcm := by
  intro h
  have hstaged : loudHistory.stagedHistory shortFrame = List.replicate 960 1.0 := by
    unfold stagedHistory
    rw [shortFrame_length, loudHistory, List.length_replicate]
    rfl
  have hhist : (loudHistory.stagedHistory shortFrame).length = 480 * opusChannels := by
    rw [hstaged, List.length_replicate]
    rfl
  obtain ⟨ts', appended, k, hinner, hk⟩ := loudHistory.expandConceal_isSome shortFrame 0.0 hhist
    shortFrame_length (shortFrame_length.trans_le (by decide)) (by decide) (by decide)
  unfold expandConceal at hinner
  have hinto := loudHistory.expandInto_eq shortFrame 0.0 [] true
  rw [hinner] at hinto
  have hpure := h loudHistory shortFrame 0.0 true loudHistory_even shortFrame_even [] _ _ _ hinto
  have heven : Even (loudHistory.stagedHistory shortFrame).length := by
    rw [hhist]
    exact ⟨480, rfl⟩
  obtain ⟨pitchPeriod, hstretched⟩ := expandInner_stretched heven shortFrame_even hinner
  rw [hstretched.tail, hstaged, List.length_replicate, shortFrame_length] at hpure
  rw [opusChannels, olaLen] at hk
  rw [opusChannels, List.drop_append_of_le_length (by rw [List.length_replicate]; omega),
    List.drop_replicate] at hpure
  have hloud := hpure 1.0 (List.mem_append_left _ (List.mem_replicate.mpr ⟨by omega, rfl⟩))
  exact absurd (List.eq_of_mem_replicate hloud) (by decide)

end TimeScaler

end Gemacast.Jitter
