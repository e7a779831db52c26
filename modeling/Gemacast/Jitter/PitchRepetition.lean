import Gemacast.Core.Checked
import Gemacast.Core.Exact
import Gemacast.Jitter.Frames
import Gemacast.Jitter.Splices

/-!
# Pitch repetition

A frame that the codec cannot conceal repeats the last pitch period of the history, its end
faded into the period before. No read leaves the history, and wherever the repetition wraps
around or enters a crossfade, what follows in the output follows in the history.
-/

namespace Gemacast.Jitter

open Gemacast.Core

section Reads

variable {F : Type} [Binary32 F]

/-- The mean of both channels of one sample frame. -/
def readMono (win : List F) (i : ℕ) : Option F := do
  return ((← win[i * opusChannels]?) + (← win[i * opusChannels + 1]?)) * 0.5

/-- The best lag of `[lo, hi)` against a reference, reading the lags from `monoBuf`. -/
def readBestLag (monoBuf reference : List F) (refEnergy : F) (lo hi : ℕ) (best : ℕ × F) :
    Option (ℕ × F) :=
  (List.range' lo (hi - lo)).foldlM
    (fun best d => do
      return better best d (ncc reference refEnergy (← slice? monoBuf d (d + olaLen)))) best

/-- The pitch search with every index checked. -/
def readPitchPeriod (win : List F) (geom : SearchGeometry) : Option (ℕ × F) := do
  let monoBuf ← (List.range geom.n).mapM (readMono win)
  let decLen := geom.n / pitchDecimation
  let refTaps := olaLen / pitchDecimation
  if decLen ≤ refTaps ∨ refTaps = 0 then return (0, Binary32.negInfinity)
  else
    let dec ← (List.range decLen).mapM fun j => monoBuf[j * pitchDecimation]?
    let decRefStart := decLen - refTaps
    let decRef ← slice? dec decRefStart decLen
    let decEnergy := energy decRef
    let maxDec := min (geom.searchLimit / pitchDecimation) decRefStart
    let peaks ← (List.range (maxDec + 1)).foldlM
      (fun peaks k => do
        return offerPeak peaks k (ncc decRef decEnergy (← slice? dec k (k + refTaps))))
      (List.replicate coarsePeaks (Binary32.negInfinity, none))
    let reference ← slice? monoBuf geom.anchor (geom.anchor + olaLen)
    let refEnergy := energy reference
    peaks.foldlM
      (fun best peak =>
        match peak.2 with
        | none => some best
        | some pk =>
          let lo := pk * pitchDecimation - pitchDecimation
          let hi :=
            min (min ((pk + 1) * pitchDecimation + pitchDecimation) geom.searchLimit)
              (geom.anchor - olaLen)
          readBestLag monoBuf reference refEnergy lo hi best)
      (0, Binary32.negInfinity)

/-- Sample frame `i` of the downmix of a window. -/
theorem getElem?_mono (win : List F) (i : ℕ) :
    (mono win)[i]? = readMono win i := by
  unfold readMono
  induction win using mono.induct generalizing i with
  | case1 left right samples ih =>
    cases i with
    | zero => rfl
    | succ i =>
      have hnext : (i + 1) * opusChannels = i * opusChannels + 1 + 1 := by
        unfold opusChannels
        omega
      rw [mono, List.getElem?_cons_succ, ih, hnext, List.getElem?_cons_succ,
        List.getElem?_cons_succ, List.getElem?_cons_succ, List.getElem?_cons_succ]
  | case2 win hshort =>
    have hlength : win.length < 2 := by
      obtain _ | ⟨left, _ | ⟨right, samples⟩⟩ := win
      · simp
      · simp
      · exact absurd rfl (hshort left right samples)
    have hmono : mono win = [] := by
      obtain _ | ⟨left, _ | ⟨right, samples⟩⟩ := win
      · rfl
      · rfl
      · exact absurd rfl (hshort left right samples)
    have hright : win[i * opusChannels + 1]? = none := by
      apply List.getElem?_eq_none
      unfold opusChannels
      omega
    rw [hmono, hright]
    cases win[i * opusChannels]? <;> rfl

theorem length_mono (win : List F) : (mono win).length = win.length / opusChannels := by
  induction win using mono.induct with
  | case1 left right samples ih =>
    rw [mono, List.length_cons, ih, List.length_cons, List.length_cons]
    unfold opusChannels
    omega
  | case2 win hshort =>
    obtain _ | ⟨left, _ | ⟨right, samples⟩⟩ := win
    · simp [mono]
    · simp [mono, opusChannels]
    · exact absurd rfl (hshort left right samples)

/-- A window of `n` sample frames is downmixed without reading behind it. -/
theorem mapM_readMono {win : List F} {n : ℕ} (h : n * opusChannels ≤ win.length) :
    (List.range n).mapM (readMono win) = some ((mono win).take n) := by
  have hlength : n ≤ (mono win).length := by
    rw [length_mono]
    unfold opusChannels at h ⊢
    omega
  have hreads : ∀ i ∈ List.range n, readMono win i = some ((mono win).getD i default) := by
    intro i hi
    rw [← getElem?_mono]
    exact getElem?_eq_getD ((List.mem_range.mp hi).trans_le hlength) default
  rw [mapM_eq_some hreads]
  congr 1
  apply List.ext_getElem?
  intro i
  by_cases hi : i < n
  · rw [List.getElem?_map, List.getElem?_range hi, List.getElem?_take, if_pos hi,
      getElem?_eq_getD (hi.trans_le hlength) default]
    rfl
  · rw [List.getElem?_eq_none (by simpa using hi), List.getElem?_take, if_neg hi]

/-- A search over lags whose regions are there reads nothing else. -/
theorem readBestLag_eq {monoBuf reference : List F} {refEnergy : F} {lo hi : ℕ} (best : ℕ × F)
    (h : ∀ d < hi, d + olaLen ≤ monoBuf.length) :
    readBestLag monoBuf reference refEnergy lo hi best =
      some (bestLag (fun d => ncc reference refEnergy ((monoBuf.drop d).take olaLen)) lo hi
        best) := by
  apply foldlM_eq_some
  intro d hd best
  have hlt : d < hi := by
    rw [List.mem_range'_1] at hd
    omega
  rw [slice?_eq (Nat.le_add_right _ _) (h d hlt), slice, Nat.add_sub_cancel_left]
  rfl

/-- The reads of a pitch search lie in the sample frames of its geometry. -/
theorem readPitchPeriod_eq {win : List F} {geom : SearchGeometry}
    (hwin : geom.n * opusChannels ≤ win.length) (hanchor : geom.anchor + olaLen ≤ geom.n)
    (hola : olaLen ≤ geom.anchor) :
    readPitchPeriod win geom = some (findPitchPeriod win geom) := by
  have hmono : ((mono win).take geom.n).length = geom.n := by
    rw [List.length_take, length_mono]
    unfold opusChannels at hwin ⊢
    omega
  unfold readPitchPeriod findPitchPeriod
  rw [mapM_readMono hwin]
  generalize (mono win).take geom.n = monoBuf at hmono
  dsimp only [Option.bind_eq_bind, Option.bind_some, Option.pure_def]
  by_cases hsmall : geom.n / pitchDecimation ≤ olaLen / pitchDecimation ∨
      olaLen / pitchDecimation = 0
  · rw [if_pos hsmall, if_pos hsmall]
  · rw [if_neg hsmall, if_neg hsmall]
    have hdec : ∀ j ∈ List.range (geom.n / pitchDecimation),
        monoBuf[j * pitchDecimation]? = some (monoBuf.getD (j * pitchDecimation) default) := by
      intro j hj
      apply getElem?_eq_getD
      have hlt := List.mem_range.mp hj
      unfold pitchDecimation at hlt ⊢
      omega
    have hdecLength : ((List.range (geom.n / pitchDecimation)).map fun j =>
        monoBuf.getD (j * pitchDecimation) default).length = geom.n / pitchDecimation := by
      rw [List.length_map, List.length_range]
    rw [mapM_eq_some hdec]
    generalize (List.range (geom.n / pitchDecimation)).map
      (fun j => monoBuf.getD (j * pitchDecimation) default) = dec at hdecLength
    generalize geom.n / pitchDecimation = decLen at hsmall hdecLength ⊢
    generalize olaLen / pitchDecimation = refTaps at hsmall ⊢
    have hdecRef : slice? dec (decLen - refTaps) decLen =
        some ((dec.drop (decLen - refTaps)).take refTaps) := by
      have htaps : decLen - (decLen - refTaps) = refTaps := by omega
      rw [slice?_eq (Nat.sub_le _ _) hdecLength.ge, slice, htaps]
    have hreference : slice? monoBuf geom.anchor (geom.anchor + olaLen) =
        some ((monoBuf.drop geom.anchor).take olaLen) := by
      rw [slice?_eq (Nat.le_add_right _ _) (by rw [hmono]; exact hanchor), slice,
        Nat.add_sub_cancel_left]
    rw [Option.bind_some, hdecRef, Option.bind_some, hreference]
    generalize (dec.drop (decLen - refTaps)).take refTaps = decRef
    generalize (monoBuf.drop geom.anchor).take olaLen = reference
    -- the coarse lags
    have hcoarse : ∀ k ∈ List.range
        (min (geom.searchLimit / pitchDecimation) (decLen - refTaps) + 1),
        ∀ peaks : List (Peak F), ((slice? dec k (k + refTaps)).bind fun cand =>
          some (offerPeak peaks k (ncc decRef (energy decRef) cand))) =
        some (offerPeak peaks k (ncc decRef (energy decRef) ((dec.drop k).take refTaps))) := by
      intro k hk peaks
      have hle := List.mem_range.mp hk
      rw [slice?_eq (Nat.le_add_right _ _) (by omega), slice, Nat.add_sub_cancel_left]
      rfl
    rw [foldlM_eq_some hcoarse, Option.bind_some, Option.bind_some]
    -- the lags around a coarse peak
    apply foldlM_eq_some
    intro peak _ best
    cases peak.2 with
    | none => rfl
    | some pk =>
      apply readBestLag_eq
      intro d hd
      omega

end Reads

section Emission

variable {F : Type} [Binary32 F]

/-- One sample of a concealment, of sample frame `p` and channel `c`, with every index
checked. -/
def readConcealed (win : List F) (n anchor bestD p c : ℕ) : Option F := do
  let period := anchor - bestD
  let verbatim := period - olaLen
  let head := n - period
  let q := p % period
  if q < verbatim then win[(head + q) * opusChannels + c]?
  else
    let i := q - verbatim
    let fadeIn ← fadeRamp[i]?
    return (← win[(anchor + i) * opusChannels + c]?) * (1.0 - fadeIn) +
      (← win[(bestD + i) * opusChannels + c]?) * fadeIn

/-- The steepest step of one channel of a region, at least `slope`. -/
def readSlope (late : List F) (lateAt c : ℕ) (slope : F) : Option F := do
  let first ← late[lateAt * opusChannels + c]?
  let (slope, _) ← (List.range' 1 (olaLen - 1)).foldlM
    (fun (slope, prev) i => do
      let s ← late[(lateAt + i) * opusChannels + c]?
      return (Binary32.maximum slope (Binary32.abs (s - prev)), s)) (slope, first)
  return slope

/-- The slope, the residual and the last step of a seam, with one more channel. -/
def readSeamChannel (early : List F) (earlyAt : ℕ) (late : List F) (lateAt : ℕ) (handover : F) :
    F × F × F → ℕ → Option (F × F × F)
  | (slope, residual, lastStep), c => do
    let slope ← readSlope late lateAt c slope
    let lateLast ← late[(lateAt + (olaLen - 1)) * opusChannels + c]?
    let latePrev ← late[(lateAt + (olaLen - 2)) * opusChannels + c]?
    let earlyLast ← early[(earlyAt + (olaLen - 1)) * opusChannels + c]?
    let outLast := earlyLast * (1.0 - handover) + lateLast * handover
    return (slope, Binary32.maximum residual (Binary32.abs (outLast - lateLast)),
      Binary32.maximum lastStep (Binary32.abs (lateLast - latePrev)))

/-- The quality of a seam, in units of the steepest step of the incoming region; nothing on
flat material. -/
def readSeamStep (early : List F) (earlyAt : ℕ) (late : List F) (lateAt : ℕ) (handover : F) :
    Option (Option F) := do
  let (slope, residual, lastStep) ← (List.range opusChannels).foldlM
    (readSeamChannel early earlyAt late lateAt handover) (0.0, 0.0, 0.0)
  return if 1.1920929e-7 < slope then some ((residual + lastStep) / slope) else none

/-- The concealment of a frame with every index checked; `none` where one is not in the
window. The quality of its seam is kept for a log line only. -/
def TimeScaler.readConcealFrame (ts : TimeScaler F) : Option (TimeScaler F × Option (List F)) :=
  let n := ts.histBuf.length / opusChannels
  if n < minSearchFrames then some (ts, none)
  else
    let ts := { ts with accelWindow := ts.histBuf }
    let anchor := n - olaLen
    let searchLimit := min searchRange (anchor - olaLen)
    if searchLimit = 0 then some (ts, none)
    else do
      let (bestD, _) ← readPitchPeriod ts.accelWindow ⟨n, anchor, searchLimit⟩
      let period := anchor - bestD
      if period < olaLen then return (ts, none)
      else
        let out ← (List.range (opusFrameSamples / opusChannels)).mapM fun p =>
          (List.range opusChannels).mapM (readConcealed ts.accelWindow n anchor bestD p)
        let _ ← readSeamStep ts.accelWindow anchor ts.accelWindow bestD 0.0
        return ({ ts with histBuf := out.flatten }, some out.flatten)

/-- One sample of a concealment. -/
def concealedSample (win : List F) (anchor bestD q c : ℕ) : F :=
  if q < anchor - bestD - olaLen then win.getD ((bestD + olaLen + q) * opusChannels + c) default
  else fadedSample win anchor win bestD (q - (anchor - bestD - olaLen)) c

variable {win : List F} {anchor bestD q c : ℕ}

/-- Sample frame `q` of the repeated period. -/
theorem getElem?_concealPeriod (hwin : (anchor + olaLen) * opusChannels ≤ win.length)
    (hlong : bestD + olaLen ≤ anchor) (hq : q < anchor - bestD) (hc : c < opusChannels) :
    (TimeScaler.concealPeriod win anchor bestD)[q * opusChannels + c]? =
      some (concealedSample win anchor bestD q c) := by
  have hhead : anchor + olaLen - (anchor - bestD) = bestD + olaLen := by omega
  have hfits : (bestD + olaLen + (anchor - bestD - olaLen)) * opusChannels ≤ win.length := by
    unfold opusChannels at hwin ⊢
    omega
  have hverbatim : (sampleFrames win (bestD + olaLen)
      (bestD + olaLen + (anchor - bestD - olaLen))).length =
        (anchor - bestD - olaLen) * opusChannels := by
    rw [length_sampleFrames hfits, Nat.add_sub_cancel_left]
  unfold TimeScaler.concealPeriod concealedSample
  dsimp only
  rw [hhead]
  by_cases hpart : q < anchor - bestD - olaLen
  · have hin : q * opusChannels + c < (anchor - bestD - olaLen) * opusChannels := by
      unfold opusChannels at hc ⊢
      omega
    have hindex : (bestD + olaLen) * opusChannels + (q * opusChannels + c) =
        (bestD + olaLen + q) * opusChannels + c := by
      rw [Nat.add_mul _ q, Nat.add_assoc]
    have hread : (bestD + olaLen + q) * opusChannels + c < win.length := by
      unfold opusChannels at hc hwin ⊢
      omega
    rw [if_pos hpart, List.getElem?_append_left (by rw [hverbatim]; exact hin),
      sampleFrames_eq_slice, getElem?_slice (by unfold opusChannels at hin ⊢; omega), hindex,
      getElem?_eq_getD hread]
  · have hindex : q * opusChannels + c - (anchor - bestD - olaLen) * opusChannels =
        (q - (anchor - bestD - olaLen)) * opusChannels + c := by
      unfold opusChannels
      omega
    have hin : (q - (anchor - bestD - olaLen)) * opusChannels + c < olaLen * opusChannels := by
      unfold opusChannels at hc ⊢
      omega
    have hlate : (bestD + olaLen) * opusChannels ≤ win.length := by
      unfold opusChannels at hwin ⊢
      omega
    have hsplit : ((q - (anchor - bestD - olaLen)) * opusChannels + c) / 2 =
          q - (anchor - bestD - olaLen) ∧
        ((q - (anchor - bestD - olaLen)) * opusChannels + c) % 2 = c := by
      unfold opusChannels at hc ⊢
      omega
    have houtside : (anchor - bestD - olaLen) * opusChannels ≤ q * opusChannels + c := by
      unfold opusChannels
      omega
    rw [if_neg hpart, List.getElem?_append_right (by rw [hverbatim]; exact houtside), hverbatim,
      hindex, getElem?_crossfade hwin hlate hin, hsplit.1, hsplit.2]

/-- The sample at an index of a repeated block of whole sample frames. -/
theorem getElem?_repeatBlock {block : List F} {period p : ℕ} {x : F}
    (hp : p * opusChannels + c < opusFrameSamples) (hc : c < opusChannels)
    (hx : block[p % period * opusChannels + c]? = some x) :
    (TimeScaler.repeatBlock block (period * opusChannels)).val[p * opusChannels + c]? = some x := by
  have hmod : (p * opusChannels + c) % (period * opusChannels) = p % period * opusChannels + c := by
    have hdiv : (p * opusChannels + c) / opusChannels = p := by
      unfold opusChannels at hc ⊢
      omega
    have hrest : (p * opusChannels + c) % opusChannels = c := by
      unfold opusChannels at hc ⊢
      omega
    rw [Nat.mul_comm period, Nat.mod_mul, hdiv, hrest, Nat.add_comm, Nat.mul_comm]
  rw [TimeScaler.repeatBlock, List.getElem?_map, List.getElem?_range hp, Option.map_some, hmod,
    List.getD_eq_getElem?_getD, hx, Option.getD_some]

/-- The sample frames of a concealment, with every index checked. -/
theorem mapM_readConcealed (hwin : (anchor + olaLen) * opusChannels ≤ win.length)
    (hlong : bestD + olaLen < anchor) :
    ((List.range (opusFrameSamples / opusChannels)).mapM fun p =>
        (List.range opusChannels).mapM (readConcealed win (anchor + olaLen) anchor bestD p)) =
      some ((List.range (opusFrameSamples / opusChannels)).map fun p =>
        (List.range opusChannels).map fun c =>
          concealedSample win anchor bestD (p % (anchor - bestD)) c) := by
  apply mapM_eq_some
  intro p _
  apply mapM_eq_some
  intro c hc
  have hlt := List.mem_range.mp hc
  have hq : p % (anchor - bestD) < anchor - bestD := Nat.mod_lt _ (by omega)
  have hhead : anchor + olaLen - (anchor - bestD) = bestD + olaLen := by omega
  unfold readConcealed concealedSample
  dsimp only
  generalize p % (anchor - bestD) = q at hq ⊢
  rw [hhead]
  by_cases hpart : q < anchor - bestD - olaLen
  · rw [if_pos hpart, if_pos hpart]
    apply getElem?_eq_getD
    unfold opusChannels at hwin hlt ⊢
    omega
  · have hramp : q - (anchor - bestD - olaLen) < (fadeRamp : List F).length := by
      rw [fadeRamp, List.length_map, List.length_range]
      omega
    have hearly : (anchor + (q - (anchor - bestD - olaLen))) * opusChannels + c < win.length := by
      unfold opusChannels at hwin hlt ⊢
      omega
    have hlate : (bestD + (q - (anchor - bestD - olaLen))) * opusChannels + c < win.length := by
      unfold opusChannels at hwin hlt ⊢
      omega
    rw [if_neg hpart, if_neg hpart, getElem?_eq_getD hramp default, getElem?_eq_getD hearly default,
      getElem?_eq_getD hlate default]
    rfl

/-- The frame emitted is the checked one. -/
theorem repeatBlock_concealPeriod (hwin : (anchor + olaLen) * opusChannels ≤ win.length)
    (hlong : bestD + olaLen < anchor) :
    (TimeScaler.repeatBlock (TimeScaler.concealPeriod win anchor bestD)
        ((anchor - bestD) * opusChannels)).val =
      ((List.range (opusFrameSamples / opusChannels)).map fun p =>
        (List.range opusChannels).map fun c =>
          concealedSample win anchor bestD (p % (anchor - bestD)) c).flatten := by
  have hpairs : ((List.range (opusFrameSamples / opusChannels)).map fun p =>
        (List.range opusChannels).map fun c =>
          concealedSample win anchor bestD (p % (anchor - bestD)) c).flatten =
      (List.range (opusFrameSamples / opusChannels)).flatMap fun p =>
        [concealedSample win anchor bestD (p % (anchor - bestD)) 0,
          concealedSample win anchor bestD (p % (anchor - bestD)) 1] := by
    rw [List.flatMap_def]
    rfl
  rw [hpairs]
  apply List.ext_getElem?
  intro k
  by_cases hk : k < opusFrameSamples
  · have hframe : k / opusChannels < opusFrameSamples / opusChannels := by
      unfold opusFrameSamples opusChannels at hk ⊢
      omega
    have hc : k % opusChannels < opusChannels := Nat.mod_lt _ (by decide)
    have hq : k / opusChannels % (anchor - bestD) < anchor - bestD := Nat.mod_lt _ (by omega)
    have hread := getElem?_repeatBlock (by rw [Nat.div_add_mod']; exact hk) hc
      (getElem?_concealPeriod hwin hlong.le hq hc)
    rw [Nat.div_add_mod'] at hread
    rw [hread, getElem?_flatMap_pair]
    have hrange : (List.range (opusFrameSamples / opusChannels))[k / 2]? = some (k / 2) :=
      List.getElem?_range hframe
    rw [hrange, Option.map_some]
    unfold opusChannels
    obtain hmod | hmod := Nat.mod_two_eq_zero_or_one k <;> simp [hmod]
  · rw [List.getElem?_eq_none, List.getElem?_eq_none]
    · rw [length_flatMap_pair, List.length_range]
      unfold opusFrameSamples opusChannels at hk ⊢
      omega
    · simpa [TimeScaler.repeatBlock] using hk

/-- A sample of a region that the window holds. -/
theorem getElem?_region {l : List F} {start i : ℕ} (hl : (start + olaLen) * opusChannels ≤ l.length)
    (hi : i < olaLen) (hc : c < opusChannels) : l[(start + i) * opusChannels + c]? =
      some (l.getD ((start + i) * opusChannels + c) default) := by
  apply getElem?_eq_getD
  unfold opusChannels at hl hc ⊢
  omega

theorem readSlope_isSome {late : List F} {lateAt : ℕ} (slope : F)
    (hlate : (lateAt + olaLen) * opusChannels ≤ late.length) (hc : c < opusChannels) :
    ∃ steepest, readSlope late lateAt c slope = some steepest := by
  have hfirst := getElem?_region hlate (show 0 < olaLen by decide) hc
  have hsteps : ∀ i ∈ List.range' 1 (olaLen - 1), ∀ sums : F × F,
      ((late[(lateAt + i) * opusChannels + c]?).bind fun s =>
        some (Binary32.maximum sums.1 (Binary32.abs (s - sums.2)), s)).isSome = true := by
    intro i hi sums
    rw [List.mem_range'_1] at hi
    rw [getElem?_region hlate (by omega) hc]
    rfl
  obtain ⟨sums, hsums⟩ := Option.isSome_iff_exists.mp
    (foldlM_isSome hsteps (slope, late.getD ((lateAt + 0) * opusChannels + c) default))
  refine ⟨sums.1, ?_⟩
  rw [Nat.add_zero] at hfirst
  unfold readSlope
  rw [hfirst]
  exact congrArg (Option.bind · _) hsums

/-- The quality of a seam is measured inside both regions. -/
theorem readSeamStep_isSome {early late : List F} {earlyAt lateAt : ℕ} (handover : F)
    (hearly : (earlyAt + olaLen) * opusChannels ≤ early.length)
    (hlate : (lateAt + olaLen) * opusChannels ≤ late.length) :
    ∃ step, readSeamStep early earlyAt late lateAt handover = some step := by
  have hchannels : ∀ c ∈ List.range opusChannels, ∀ sums : F × F × F,
      (readSeamChannel early earlyAt late lateAt handover sums c).isSome = true := by
    rintro c hc ⟨start, residual, lastStep⟩
    have hlt := List.mem_range.mp hc
    obtain ⟨slope, hslope⟩ := readSlope_isSome start hlate hlt
    rw [readSeamChannel, hslope, getElem?_region hlate (show olaLen - 1 < olaLen by decide) hlt,
      getElem?_region hlate (show olaLen - 2 < olaLen by decide) hlt,
      getElem?_region hearly (show olaLen - 1 < olaLen by decide) hlt]
    rfl
  obtain ⟨sums, hsums⟩ := Option.isSome_iff_exists.mp (foldlM_isSome hchannels (0.0, 0.0, 0.0))
  unfold readSeamStep
  rw [hsums]
  exact ⟨_, rfl⟩

end Emission

section Conceal

variable {F : Type} [Binary32 F]

namespace TimeScaler

/-- The start of the reference of a concealment, in sample frames of the history. -/
def concealAnchor (ts : TimeScaler F) : ℕ := ts.histBuf.length / opusChannels - olaLen

/-- The lag that a concealment finds in the history. -/
def concealLag (ts : TimeScaler F) : ℕ :=
  (findPitchPeriod ts.histBuf ⟨ts.histBuf.length / opusChannels, ts.concealAnchor,
    min searchRange (ts.concealAnchor - olaLen)⟩).1

/-- The period that a concealment repeats. -/
def repeatedPeriod (ts : TimeScaler F) : ℕ := ts.concealAnchor - ts.concealLag

variable {ts : TimeScaler F}

omit [Binary32 F] in
/-- A long history has room for the reference and a whole lag in front of it. -/
theorem concealAnchor_bounds (hlong : minSearchFrames ≤ ts.histBuf.length / opusChannels) :
    olaLen + 16 ≤ ts.concealAnchor ∧
      ts.concealAnchor + olaLen = ts.histBuf.length / opusChannels ∧
      (ts.concealAnchor + olaLen) * opusChannels ≤ ts.histBuf.length := by
  unfold minSearchFrames at hlong
  have hdiv := Nat.div_mul_le_self ts.histBuf.length opusChannels
  have hsum : ts.concealAnchor + olaLen = ts.histBuf.length / opusChannels := by
    unfold concealAnchor
    omega
  refine ⟨?_, hsum, hsum ▸ hdiv⟩
  unfold concealAnchor
  omega

/-- The period found is longer than a crossfade. -/
theorem concealLag_add_lt (hlong : minSearchFrames ≤ ts.histBuf.length / opusChannels) :
    ts.concealLag + olaLen < ts.concealAnchor := by
  obtain ⟨hanchor, -, -⟩ := concealAnchor_bounds hlong
  have hlag : ts.concealLag < min searchRange (ts.concealAnchor - olaLen) := by
    apply findPitchPeriod_lt
    rw [lt_min_iff]
    exact ⟨by decide, by omega⟩
  omega

/-- What is emitted for a long history. -/
def concealment (ts : TimeScaler F) : DecodedFrame F :=
  repeatBlock (concealPeriod ts.histBuf ts.concealAnchor ts.concealLag)
    (ts.repeatedPeriod * opusChannels)

/-- A long history is always concealed from, and replaced by what is emitted. -/
theorem concealFrame_eq (hlong : minSearchFrames ≤ ts.histBuf.length / opusChannels) :
    ts.concealFrame =
      ({ ts with accelWindow := ts.histBuf, histBuf := ts.concealment.val },
        some ts.concealment) := by
  obtain ⟨hanchor, -, -⟩ := concealAnchor_bounds hlong
  have hlag := concealLag_add_lt hlong
  have hlimit : ¬min searchRange (ts.histBuf.length / opusChannels - olaLen - olaLen) = 0 := by
    change ¬min searchRange (ts.concealAnchor - olaLen) = 0
    have hrange : 0 < searchRange := by decide
    omega
  unfold concealFrame
  dsimp only
  rw [if_neg (by omega), if_neg hlimit]
  exact if_neg (show ¬ts.concealAnchor - ts.concealLag < olaLen by omega)

/-- No index that a concealment reads is outside the history. -/
theorem readConcealFrame_eq (ts : TimeScaler F) :
    ts.readConcealFrame = some (ts.concealFrame.1, ts.concealFrame.2.map Subtype.val) := by
  by_cases hlong : minSearchFrames ≤ ts.histBuf.length / opusChannels
  · obtain ⟨hanchor, hsum, hwin⟩ := concealAnchor_bounds hlong
    have hlag := concealLag_add_lt hlong
    have hsearch : readPitchPeriod ts.histBuf
        ⟨ts.histBuf.length / opusChannels, ts.concealAnchor,
          min searchRange (ts.concealAnchor - olaLen)⟩ = some (findPitchPeriod ts.histBuf
        ⟨ts.histBuf.length / opusChannels, ts.concealAnchor,
          min searchRange (ts.concealAnchor - olaLen)⟩) :=
      readPitchPeriod_eq (Nat.div_mul_le_self _ _) hsum.le
        (show olaLen ≤ ts.concealAnchor by omega)
    have hlimit : ¬min searchRange (ts.concealAnchor - olaLen) = 0 := by
      have hrange : 0 < searchRange := by decide
      omega
    have hshort : ¬ts.concealAnchor - ts.concealLag < olaLen := by omega
    have hout := mapM_readConcealed hwin hlag
    rw [hsum] at hout
    obtain ⟨step, hstep⟩ := readSeamStep_isSome (0.0 : F) hwin
      (show (ts.concealLag + olaLen) * opusChannels ≤ ts.histBuf.length by
        unfold opusChannels at hwin ⊢; omega)
    rw [concealFrame_eq hlong]
    unfold readConcealFrame
    dsimp only
    rw [if_neg (by omega)]
    change (if min searchRange (ts.concealAnchor - olaLen) = 0 then _ else _) = _
    rw [if_neg hlimit]
    change (readPitchPeriod ts.histBuf ⟨ts.histBuf.length / opusChannels, ts.concealAnchor,
      min searchRange (ts.concealAnchor - olaLen)⟩ >>= _) = _
    rw [hsearch, Option.bind_eq_bind, Option.bind_some]
    change (if ts.concealAnchor - ts.concealLag < olaLen then _ else _) = _
    rw [if_neg hshort]
    change (((List.range (opusFrameSamples / opusChannels)).mapM fun p =>
      (List.range opusChannels).mapM (readConcealed ts.histBuf (ts.histBuf.length / opusChannels)
        ts.concealAnchor ts.concealLag p)) >>= _) = _
    rw [hout, Option.bind_eq_bind, Option.bind_some]
    change (readSeamStep ts.histBuf ts.concealAnchor ts.histBuf ts.concealLag 0.0 >>= _) = _
    rw [hstep, Option.bind_eq_bind, Option.bind_some, ← repeatBlock_concealPeriod hwin hlag]
    rfl
  · have hshort : ts.histBuf.length / opusChannels < minSearchFrames := by omega
    unfold readConcealFrame concealFrame
    dsimp only
    rw [if_pos hshort, if_pos hshort]
    rfl

/-- A concealment fills one packet. -/
theorem length_concealment : ts.concealment.val.length = opusFrameSamples := by
  rw [concealment, repeatBlock, List.length_map, List.length_range]

/-- Sample frame `p` of a concealment is sample frame `p` of the period, counted around. -/
theorem getElem?_concealment (hlong : minSearchFrames ≤ ts.histBuf.length / opusChannels)
    {p c : ℕ} (hp : p < opusFrameSamples / opusChannels) (hc : c < opusChannels) :
    ts.concealment.val[p * opusChannels + c]? =
      some (concealedSample ts.histBuf ts.concealAnchor ts.concealLag (p % ts.repeatedPeriod)
        c) := by
  obtain ⟨-, -, hwin⟩ := concealAnchor_bounds hlong
  have hlag := concealLag_add_lt hlong
  have hpos : 0 < ts.repeatedPeriod := by
    unfold repeatedPeriod
    omega
  apply getElem?_repeatBlock
  · unfold opusFrameSamples opusChannels at *
    omega
  · exact hc
  · exact getElem?_concealPeriod hwin hlag.le (Nat.mod_lt _ hpos) hc

end TimeScaler

/-- A crossfade starts on the samples faded out and ends on those faded in. -/
def FadesExactly (F : Type) [Binary32 F] : Prop :=
  ∀ a b : F, a * (1.0 - fadeRamp.getD 0 default) + b * fadeRamp.getD 0 default = a ∧
    a * (1.0 - fadeRamp.getD (olaLen - 1) default) + b * fadeRamp.getD (olaLen - 1) default = b

/-- In exact arithmetic the ramp is zero at its start and one at its end. -/
theorem fadesExactly_exact : FadesExactly Exact := by
  have hramp : ∀ i < olaLen, ((fadeRamp : List Exact).getD i default).val =
      (1 - Real.cos (Real.pi * i / 127)) / 2 := by
    intro i hi
    rw [List.getD_eq_getElem?_getD, fadeRamp, List.getElem?_map, List.getElem?_range hi,
      Option.map_some, Option.getD_some]
    simp only [Exact.mul_val, Exact.sub_val, Exact.cos_val, Exact.div_val, Exact.pi_val,
      Exact.ofNat_val, Exact.literal_val, olaLen]
    norm_num
    ring
  have hstart : ((fadeRamp : List Exact).getD 0 default).val = 0 := by
    rw [hramp 0 (by decide)]
    simp
  have hend : ((fadeRamp : List Exact).getD (olaLen - 1) default).val = 1 := by
    rw [hramp (olaLen - 1) (by decide)]
    have hpi : Real.pi * ((olaLen - 1 : ℕ) : ℝ) / 127 = Real.pi := by
      unfold olaLen
      norm_num
    rw [hpi, Real.cos_pi]
    norm_num
  intro a b
  constructor
  · ext
    simp only [Exact.add_val, Exact.mul_val, Exact.sub_val, hstart, Exact.literal_val]
    norm_num
  · ext
    simp only [Exact.add_val, Exact.mul_val, Exact.sub_val, hend, Exact.literal_val]
    norm_num

/-- Sample frames `p` and `p + 1` of the output are two consecutive ones of the history. -/
def SourceAdjacent (hist out : List F) (p : ℕ) : Prop :=
  ∃ j, j + 1 < hist.length / opusChannels ∧ ∀ c < opusChannels,
    out[p * opusChannels + c]? = hist[j * opusChannels + c]? ∧
      out[(p + 1) * opusChannels + c]? = hist[(j + 1) * opusChannels + c]?

variable {win : List F} {anchor bestD q c : ℕ}

/-- Up to the first sample of its crossfade, a period is a piece of the history. -/
theorem concealedSample_of_le (hexact : FadesExactly F) (hlong : bestD + olaLen ≤ anchor)
    (hq : q ≤ anchor - bestD - olaLen) : concealedSample win anchor bestD q c =
      win.getD ((bestD + olaLen + q) * opusChannels + c) default := by
  unfold concealedSample
  split
  · rfl
  · have hentry : q = anchor - bestD - olaLen := by omega
    have hplace : bestD + olaLen + q = anchor := by omega
    rw [hplace, hentry, Nat.sub_self]
    exact (hexact _ _).1

/-- The last sample of a period precedes its first one in the history. -/
theorem concealedSample_last (hexact : FadesExactly F) (hlong : bestD + olaLen ≤ anchor) :
    concealedSample win anchor bestD (anchor - bestD - 1) c =
      win.getD ((bestD + olaLen - 1) * opusChannels + c) default := by
  have hola : 0 < olaLen := by decide
  have hlast : anchor - bestD - 1 - (anchor - bestD - olaLen) = olaLen - 1 := by omega
  have hplace : bestD + (olaLen - 1) = bestD + olaLen - 1 := by omega
  unfold concealedSample
  rw [if_neg (by omega), hlast]
  unfold fadedSample
  rw [hplace]
  exact (hexact _ _).2

/-- Where a period wraps around, and where it enters its crossfade, the concealment goes on
as the history does. -/
theorem concealment_continues {ts : TimeScaler F} (hexact : FadesExactly F)
    (hlong : minSearchFrames ≤ ts.histBuf.length / opusChannels) {p : ℕ}
    (hp : p + 1 < opusFrameSamples / opusChannels)
    (hplace : (p + 1) % ts.repeatedPeriod ≤ ts.repeatedPeriod - olaLen) :
    SourceAdjacent ts.histBuf ts.concealment.val p := by
  obtain ⟨-, hsum, hwin⟩ := TimeScaler.concealAnchor_bounds hlong
  have hlag := TimeScaler.concealLag_add_lt hlong
  have hola : 0 < olaLen := by decide
  have hperiod : ts.repeatedPeriod = ts.concealAnchor - ts.concealLag := rfl
  have hread : ∀ j < ts.concealAnchor + olaLen, ∀ c < opusChannels,
      ts.histBuf[j * opusChannels + c]? =
        some (ts.histBuf.getD (j * opusChannels + c) default) := by
    intro j hj c hc
    apply getElem?_eq_getD
    unfold opusChannels at hwin hc ⊢
    omega
  have hlt : p % ts.repeatedPeriod < ts.repeatedPeriod := Nat.mod_lt _ (by omega)
  have hstep : (p + 1) % ts.repeatedPeriod = (p % ts.repeatedPeriod + 1) % ts.repeatedPeriod :=
    (Nat.mod_add_mod p _ 1).symm
  -- the sample frame that follows, which is no later than the first one of the crossfade
  have hnext : ∀ c < opusChannels, ts.concealment.val[(p + 1) * opusChannels + c]? =
      ts.histBuf[(ts.concealLag + olaLen + (p + 1) % ts.repeatedPeriod) * opusChannels + c]? := by
    intro c hc
    rw [TimeScaler.getElem?_concealment hlong hp hc, hread _ (by omega) c hc,
      concealedSample_of_le hexact hlag.le (by omega)]
  by_cases hwrap : p % ts.repeatedPeriod + 1 = ts.repeatedPeriod
  · have hzero : (p + 1) % ts.repeatedPeriod = 0 := by rw [hstep, hwrap, Nat.mod_self]
    have hlast : p % ts.repeatedPeriod = ts.concealAnchor - ts.concealLag - 1 := by omega
    refine ⟨ts.concealLag + olaLen - 1, by omega, fun c hc => ⟨?_, ?_⟩⟩
    · rw [TimeScaler.getElem?_concealment hlong (by omega) hc, hlast,
        concealedSample_last hexact hlag.le, hread _ (by omega) c hc]
    · have hplace : ts.concealLag + olaLen - 1 + 1 = ts.concealLag + olaLen := by omega
      rw [hnext c hc, hzero, hplace]
      rfl
  · have hsucc : (p + 1) % ts.repeatedPeriod = p % ts.repeatedPeriod + 1 := by
      rw [hstep, Nat.mod_eq_of_lt (by omega)]
    refine ⟨ts.concealLag + olaLen + p % ts.repeatedPeriod, by omega, fun c hc => ⟨?_, ?_⟩⟩
    · rw [TimeScaler.getElem?_concealment hlong (by omega) hc, hread _ (by omega) c hc,
        concealedSample_of_le hexact hlag.le (by omega)]
    · rw [hnext c hc, hsucc]
      rfl

/-- For every history with a reference, a crossfade and some slack, a whole packet is filled
from indices of the history, its period is longer than a crossfade, in arithmetic that fades
exactly it goes on as the history does wherever the period wraps around or enters its
crossfade, and it becomes the history of the next concealment. -/
theorem concealFrame_seamless (ts : TimeScaler F)
    (hlong : minSearchFrames ≤ ts.histBuf.length / opusChannels) : FadesExactly Exact ∧
    ∃ ts' out, ts.concealFrame = (ts', some out) ∧
      ts.readConcealFrame = some (ts', some out.val) ∧ out.val.length = opusFrameSamples ∧
      olaLen < ts.repeatedPeriod ∧
      (FadesExactly F → ∀ p, p + 1 < opusFrameSamples / opusChannels →
        ((p + 1) % ts.repeatedPeriod = 0 → SourceAdjacent ts.histBuf out.val p) ∧
        ((p + 1) % ts.repeatedPeriod = ts.repeatedPeriod - olaLen →
          SourceAdjacent ts.histBuf out.val p)) ∧
      ts'.histBuf = out.val ∧ ts'.concealFrame.2.isSome = true := by
  have hconceal := TimeScaler.concealFrame_eq hlong
  have hlag := TimeScaler.concealLag_add_lt hlong
  have hread := ts.readConcealFrame_eq
  rw [hconceal] at hread
  refine ⟨fadesExactly_exact, _, _, hconceal, hread, TimeScaler.length_concealment, ?_, ?_, ?_,
    ?_⟩
  · unfold TimeScaler.repeatedPeriod
    omega
  · intro hexact p hp
    constructor
    · intro hwrap
      apply concealment_continues hexact hlong hp
      rw [hwrap]
      exact Nat.zero_le _
    · intro hentry
      exact concealment_continues hexact hlong hp hentry.le
  · dsimp only
  · have hagain : minSearchFrames ≤ ({ ts with
        accelWindow := ts.histBuf
        histBuf := ts.concealment.val } : TimeScaler F).histBuf.length / opusChannels := by
      dsimp only
      rw [TimeScaler.length_concealment]
      decide
    rw [TimeScaler.concealFrame_eq hagain]
    exact Option.isSome_some

/-- A constant history of one packet. -/
noncomputable def heldNote : TimeScaler Exact :=
  { TimeScaler.new with histBuf := List.replicate opusFrameSamples default }

theorem heldNote_long : minSearchFrames ≤ heldNote.histBuf.length / opusChannels := by
  have hlength : heldNote.histBuf.length = opusFrameSamples := List.length_replicate
  rw [hlength]
  decide

theorem concealFrame_seamless_heldNote : FadesExactly Exact ∧
    minSearchFrames ≤ heldNote.histBuf.length / opusChannels ∧
    ∃ ts' out, heldNote.concealFrame = (ts', some out) ∧
      heldNote.readConcealFrame = some (ts', some out.val) ∧ out.val.length = opusFrameSamples ∧
      olaLen < heldNote.repeatedPeriod ∧
      (∀ p, p + 1 < opusFrameSamples / opusChannels →
        ((p + 1) % heldNote.repeatedPeriod = 0 → SourceAdjacent heldNote.histBuf out.val p) ∧
        ((p + 1) % heldNote.repeatedPeriod = heldNote.repeatedPeriod - olaLen →
          SourceAdjacent heldNote.histBuf out.val p)) ∧
      ts'.histBuf = out.val ∧ ts'.concealFrame.2.isSome = true := by
  obtain ⟨hexact, ts', out, hconceal, hread, hfill, hperiod, hseams, hhist, hagain⟩ :=
    concealFrame_seamless heldNote heldNote_long
  exact ⟨hexact, heldNote_long, ts', out, hconceal, hread, hfill, hperiod, hseams hexact, hhist,
    hagain⟩

end Conceal

section History

variable {F : Type} [Binary32 F] [FrameMark F] {C : Codec F}

/-- The concealment fade does not reach the history. -/
theorem JitterBufferManager.generatePlc_timescale (m : JitterBufferManager C) :
    m.generatePlc.timescale =
      if m.decoder.plcReady = true then m.timescale else m.timescale.concealFrame.1 := by
  obtain ⟨decoder, timescale, tally, source, heq, -, htimescale, -⟩ := m.generatePlc_eq
  exact (congrArg JitterBufferManager.timescale heq).trans htimescale

end History

end Gemacast.Jitter
