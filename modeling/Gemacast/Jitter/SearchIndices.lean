import Gemacast.Core.Blocks
import Gemacast.Jitter.PitchRepetition

/-!
# The indices of a pitch search

The search works in scratch buffers that are never resized: the staged window, its downmix and
the decimated downmix. Every index it computes is checked against the whole buffer; for the
windows its callers stage none is outside, and what an earlier search has left behind is not
read.
-/

namespace Gemacast.Jitter

open Gemacast.Core

variable {F : Type}

/-- What was written at the front is read back. -/
theorem take_overwrite (buf head : List F) (h : head.length ≤ buf.length) :
    (overwrite buf 0 head).take head.length = head := by
  have hread := overwrite_zero_take buf head
  rwa [List.take_of_length_le h] at hread

/-- A region in front of `n` is that of the first `n` entries. -/
theorem region_take {l : List F} {n start len : ℕ} (h : start + len ≤ n) :
    (l.drop start).take len = ((l.take n).drop start).take len := by
  rw [List.drop_take, List.take_take, Nat.min_eq_left (by omega)]

/-- The scratch buffers of the pitch search. -/
structure SearchBuffers (F : Type) where
  /-- The staged window, and behind it what was staged before. -/
  accelWindow : List F
  /-- The downmix of the window. -/
  monoBuf : List F
  /-- The decimated downmix. -/
  monoDec : List F
  accelWindow_length : accelWindow.length = accelWindowSamples
  monoBuf_length : monoBuf.length = accelWindowSamples / opusChannels
  monoDec_length : monoDec.length = accelWindowSamples / opusChannels / pitchDecimation + 1

/-- What a caller asks for: a window between the shortest one that has room for a reference and
a lag and the longest one that can be staged, the reference at its end, and lags that leave
room for a crossfade in front of the reference. -/
structure SearchGeometry.Callable (geom : SearchGeometry) : Prop where
  long : minSearchFrames ≤ geom.n
  staged : geom.n ≤ accelWindowSamples / opusChannels
  anchor : geom.anchor = geom.n - olaLen
  limit : geom.searchLimit ≤ geom.anchor - olaLen
  range : geom.searchLimit ≤ searchRange

/-- The geometry that every caller builds from a staged window of `len` samples. -/
def callerGeometry (len : ℕ) : SearchGeometry :=
  let n := len / opusChannels
  let anchor := n - olaLen
  ⟨n, anchor, min searchRange (anchor - olaLen)⟩

/-- A window that was staged and is not refused as too short is asked for properly. -/
theorem callerGeometry_callable {len : ℕ} (hstaged : len ≤ accelWindowSamples)
    (hlong : minSearchFrames ≤ len / opusChannels) : (callerGeometry len).Callable where
  long := hlong
  staged := Nat.div_le_div_right hstaged
  anchor := rfl
  limit := Nat.min_le_right _ _
  range := Nat.min_le_left _ _

namespace SearchBuffers

variable [Binary32 F]

/-- The buffers of a new time-scaler. -/
def new : SearchBuffers F where
  accelWindow := List.replicate accelWindowSamples 0.0
  monoBuf := List.replicate (accelWindowSamples / opusChannels) 0.0
  monoDec := List.replicate (accelWindowSamples / opusChannels / pitchDecimation + 1) 0.0
  accelWindow_length := List.length_replicate
  monoBuf_length := List.length_replicate
  monoDec_length := List.length_replicate

/-- The products of a reference with a candidate summed up, and the energy of the candidate. -/
def correlate (product : F → F → F) (buf : List F) (refStart start taps : ℕ) : Option (F × F) :=
  (List.range taps).foldlM
    (fun (cross, candEnergy) t => do
      let rv ← buf[refStart + t]?
      let cv ← buf[start + t]?
      return (cross + product rv cv, candEnergy + cv * cv)) (0.0, 0.0)

/-- The correlation, normalised by both energies. -/
def normalize (refEnergy cross candEnergy : F) : F :=
  let denom := Binary32.sqrt (refEnergy * candEnergy)
  if 1e-10 < denom then cross / denom else 0.0

/-- Correlation of the decimated window at a coarse lag. -/
def coarseNcc (bufs : SearchBuffers F) (k decRefStart refTaps : ℕ) (refEnergy : F) : Option F := do
  let (cross, candEnergy) ← correlate (fun rv cv => cv * rv) bufs.monoDec decRefStart k refTaps
  return normalize refEnergy cross candEnergy

/-- Correlation of the window at a lag. -/
def lagNcc (bufs : SearchBuffers F) (refStart d : ℕ) (refEnergy : F) : Option F := do
  let (cross, candEnergy) ← correlate (fun rv cv => rv * cv) bufs.monoBuf refStart d olaLen
  return normalize refEnergy cross candEnergy

/-- Mix the window down. -/
def downmix (bufs : SearchBuffers F) (n : ℕ) : Option (SearchBuffers F) := do
  let head ← (List.range (min n bufs.monoBuf.length)).mapM (readMono bufs.accelWindow)
  return { bufs with
    monoBuf := overwrite bufs.monoBuf 0 head
    monoBuf_length := (length_overwrite _ _ _).trans bufs.monoBuf_length }

/-- Keep every twelfth sample frame of the downmix. -/
def decimate (bufs : SearchBuffers F) (decLen : ℕ) : Option (SearchBuffers F) := do
  let head ← (List.range (min decLen bufs.monoDec.length)).mapM fun j =>
    bufs.monoBuf[j * pitchDecimation]?
  return { bufs with
    monoDec := overwrite bufs.monoDec 0 head
    monoDec_length := (length_overwrite _ _ _).trans bufs.monoDec_length }

/-- The best lag around a coarse peak, starting from a running best. -/
def refine (bufs : SearchBuffers F) (geom : SearchGeometry) (refEnergy : F) (best : ℕ × F)
    (peak : Peak F) : Option (ℕ × F) :=
  match peak.2 with
  | none => some best
  | some pk =>
    let lo := pk * pitchDecimation - pitchDecimation
    let hi :=
      min (min ((pk + 1) * pitchDecimation + pitchDecimation) geom.searchLimit)
        (geom.anchor - olaLen)
    (List.range' lo (hi - lo)).foldlM
      (fun best d => do return better best d (← bufs.lagNcc geom.anchor d refEnergy)) best

/-- The pitch search in the scratch buffers; `none` where an index is outside of one. -/
def findPitchPeriod (bufs : SearchBuffers F) (geom : SearchGeometry) :
    Option (SearchBuffers F × ℕ × F) := do
  let bufs ← bufs.downmix geom.n
  let decLen := geom.n / pitchDecimation
  let refTaps := olaLen / pitchDecimation
  if decLen ≤ refTaps ∨ refTaps = 0 then return (bufs, 0, Binary32.negInfinity)
  else
    let bufs ← bufs.decimate decLen
    let decRefStart := decLen - refTaps
    let refEnergyDec := energy (← slice? bufs.monoDec decRefStart decLen)
    let maxDec := min (geom.searchLimit / pitchDecimation) decRefStart
    let peaks ← (List.range (maxDec + 1)).foldlM
      (fun peaks k => do
        return offerPeak peaks k (← bufs.coarseNcc k decRefStart refTaps refEnergyDec))
      (List.replicate coarsePeaks (Binary32.negInfinity, none))
    let refEnergy := energy (← slice? bufs.monoBuf geom.anchor (geom.anchor + olaLen))
    let best ← peaks.foldlM (bufs.refine geom refEnergy) (0, Binary32.negInfinity)
    return (bufs, best)

/-- Correlation of a reference of known energy with a candidate, by the products of their
entries. -/
def nccBy (product : F → F → F) (reference : List F) (refEnergy : F) (cand : List F) : F :=
  normalize refEnergy
    ((reference.zip cand).foldl (fun sum pair => sum + product pair.1 pair.2) 0.0) (energy cand)

/-- The reads of a correlation are those of its two regions. -/
theorem correlate_eq (product : F → F → F) {buf : List F} {refStart start taps : ℕ}
    (href : refStart + taps ≤ buf.length) (hcand : start + taps ≤ buf.length) :
    correlate product buf refStart start taps =
      some ((((buf.drop refStart).take taps).zip ((buf.drop start).take taps)).foldl
          (fun sum pair => sum + product pair.1 pair.2) 0.0,
        energy ((buf.drop start).take taps)) := by
  induction taps with
  | zero => rfl
  | succ taps ih =>
    have hrv := getElem?_eq_getD (show refStart + taps < buf.length by omega) default
    have hcv := getElem?_eq_getD (show start + taps < buf.length by omega) default
    have hlengths :
        ((buf.drop refStart).take taps).length = ((buf.drop start).take taps).length := by
      rw [List.length_take, List.length_take, List.length_drop, List.length_drop]
      omega
    have hprev := ih (by omega) (by omega)
    unfold correlate at hprev ⊢
    rw [List.range_succ, List.foldlM_append, hprev, Option.bind_eq_bind, Option.bind_some,
      List.foldlM_cons, hrv, hcv, List.take_add_one, List.take_add_one, List.getElem?_drop,
      List.getElem?_drop, hrv, hcv, Option.toList_some, Option.toList_some,
      List.zip_append hlengths, List.foldl_append, energy, energy, List.foldl_append]
    rfl

/-- The downmix of a window that fits reads nothing else. -/
theorem downmix_eq (bufs : SearchBuffers F) {n : ℕ} (hn : n ≤ accelWindowSamples / opusChannels) :
    ∃ next, bufs.downmix n = some next ∧ next.accelWindow = bufs.accelWindow ∧
      next.monoBuf.take n = (mono bufs.accelWindow).take n := by
  have hwin : n * opusChannels ≤ bufs.accelWindow.length := by
    rw [bufs.accelWindow_length]
    exact (Nat.mul_le_mul_right _ hn).trans (Nat.div_mul_le_self _ _)
  have hlength : ((mono bufs.accelWindow).take n).length = n := by
    rw [List.length_take, length_mono, bufs.accelWindow_length]
    exact Nat.min_eq_left hn
  have hfits : ((mono bufs.accelWindow).take n).length ≤ bufs.monoBuf.length := by
    rw [hlength, bufs.monoBuf_length]
    exact hn
  have hmin : min n bufs.monoBuf.length = n := by
    rw [bufs.monoBuf_length]
    exact Nat.min_eq_left hn
  unfold downmix
  rw [hmin, mapM_readMono hwin]
  refine ⟨_, rfl, rfl, ?_⟩
  have hread := take_overwrite _ _ hfits
  rwa [hlength] at hread

/-- The decimation reads the downmix of the window. -/
theorem decimate_eq (bufs : SearchBuffers F) {n : ℕ} (hn : n ≤ accelWindowSamples / opusChannels) :
    ∃ next, bufs.decimate (n / pitchDecimation) = some next ∧
      next.accelWindow = bufs.accelWindow ∧ next.monoBuf = bufs.monoBuf ∧
      next.monoDec.take (n / pitchDecimation) = (List.range (n / pitchDecimation)).map fun j =>
        (bufs.monoBuf.take n).getD (j * pitchDecimation) default := by
  have hdec : n / pitchDecimation ≤ bufs.monoDec.length := by
    rw [bufs.monoDec_length]
    exact (Nat.div_le_div_right hn).trans (Nat.le_succ _)
  have hreads : ∀ j ∈ List.range (n / pitchDecimation), bufs.monoBuf[j * pitchDecimation]? =
      some ((bufs.monoBuf.take n).getD (j * pitchDecimation) default) := by
    intro j hj
    have hlt : j * pitchDecimation < n := by
      have hrange := List.mem_range.mp hj
      unfold pitchDecimation at hrange ⊢
      omega
    have hin : j * pitchDecimation < bufs.monoBuf.length := by
      rw [bufs.monoBuf_length]
      exact hlt.trans_le hn
    rw [List.getD_eq_getElem?_getD, List.getElem?_take, if_pos hlt, getElem?_eq_getD hin default,
      Option.getD_some]
  unfold decimate
  rw [Nat.min_eq_left hdec, mapM_eq_some hreads]
  refine ⟨_, rfl, rfl, rfl, ?_⟩
  have hread := take_overwrite bufs.monoDec
    ((List.range (n / pitchDecimation)).map fun j =>
      (bufs.monoBuf.take n).getD (j * pitchDecimation) default)
    (by rw [List.length_map, List.length_range]; exact hdec)
  rwa [List.length_map, List.length_range] at hread

/-- The coarse peaks of a decimated window, the products taken as the search takes them. -/
def coarsePeaksOf (product : F → F → F) (dec : List F) (decRefStart refTaps maxDec : ℕ) :
    List (Peak F) :=
  let decRef := (dec.drop decRefStart).take refTaps
  (List.range (maxDec + 1)).foldl
    (fun peaks k =>
      offerPeak peaks k (nccBy product decRef (energy decRef) ((dec.drop k).take refTaps)))
    (List.replicate coarsePeaks (Binary32.negInfinity, none))

/-- The best lag around all coarse peaks. -/
def refinedLag (monoBuf : List F) (geom : SearchGeometry) (peaks : List (Peak F)) : ℕ × F :=
  let reference := (monoBuf.drop geom.anchor).take olaLen
  let refEnergy := energy reference
  peaks.foldl
    (fun best peak =>
      match peak.2 with
      | none => best
      | some pk =>
        let lo := pk * pitchDecimation - pitchDecimation
        let hi :=
          min (min ((pk + 1) * pitchDecimation + pitchDecimation) geom.searchLimit)
            (geom.anchor - olaLen)
        bestLag (fun d => ncc reference refEnergy ((monoBuf.drop d).take olaLen)) lo hi best)
    (0, Binary32.negInfinity)

theorem coarseNcc_eq (bufs : SearchBuffers F) {k decRefStart refTaps : ℕ} (refEnergy : F)
    (href : decRefStart + refTaps ≤ bufs.monoDec.length)
    (hk : k + refTaps ≤ bufs.monoDec.length) :
    bufs.coarseNcc k decRefStart refTaps refEnergy =
      some (nccBy (fun rv cv => cv * rv) ((bufs.monoDec.drop decRefStart).take refTaps) refEnergy
        ((bufs.monoDec.drop k).take refTaps)) := by
  unfold coarseNcc
  rw [correlate_eq _ href hk]
  rfl

theorem lagNcc_eq (bufs : SearchBuffers F) {refStart d : ℕ} (refEnergy : F)
    (href : refStart + olaLen ≤ bufs.monoBuf.length) (hd : d + olaLen ≤ bufs.monoBuf.length) :
    bufs.lagNcc refStart d refEnergy =
      some (ncc ((bufs.monoBuf.drop refStart).take olaLen) refEnergy
        ((bufs.monoBuf.drop d).take olaLen)) := by
  unfold lagNcc
  rw [correlate_eq _ href hd]
  rfl

/-- The search around the coarse peaks stays in the downmix. -/
theorem foldlM_refine (bufs : SearchBuffers F) {geom : SearchGeometry} (peaks : List (Peak F))
    (hanchor : geom.anchor + olaLen ≤ bufs.monoBuf.length) (hola : olaLen ≤ geom.anchor) :
    peaks.foldlM (bufs.refine geom (energy ((bufs.monoBuf.drop geom.anchor).take olaLen)))
      (0, Binary32.negInfinity) = some (refinedLag bufs.monoBuf geom peaks) := by
  apply foldlM_eq_some
  intro peak _ best
  unfold refine
  cases peak.2 with
  | none => rfl
  | some pk =>
    apply foldlM_eq_some
    intro d hd best
    have hlt : d < geom.anchor - olaLen := by
      rw [List.mem_range'_1] at hd
      omega
    rw [lagNcc_eq bufs _ hanchor (by omega)]
    rfl

/-- The coarse lags stay in the decimated downmix. -/
theorem foldlM_coarseNcc (bufs : SearchBuffers F) {decLen refTaps maxDec : ℕ}
    (hdec : decLen ≤ bufs.monoDec.length) (htaps : refTaps ≤ decLen)
    (hmax : maxDec ≤ decLen - refTaps) :
    ((List.range (maxDec + 1)).foldlM
      (fun peaks k => do
        return offerPeak peaks k (← bufs.coarseNcc k (decLen - refTaps) refTaps
          (energy ((bufs.monoDec.drop (decLen - refTaps)).take refTaps))))
      (List.replicate coarsePeaks (Binary32.negInfinity, none))) =
      some (coarsePeaksOf (fun rv cv => cv * rv) bufs.monoDec (decLen - refTaps) refTaps
        maxDec) := by
  apply foldlM_eq_some
  intro k hk peaks
  have hle := List.mem_range.mp hk
  rw [coarseNcc_eq bufs _ (by omega) (by omega)]
  rfl

/-- The coarse peaks are those of the entries written. -/
theorem coarsePeaksOf_take (product : F → F → F) (dec : List F) {decLen refTaps maxDec : ℕ}
    (htaps : refTaps ≤ decLen) (hmax : maxDec ≤ decLen - refTaps) :
    coarsePeaksOf product dec (decLen - refTaps) refTaps maxDec =
      coarsePeaksOf product (dec.take decLen) (decLen - refTaps) refTaps maxDec := by
  unfold coarsePeaksOf
  dsimp only
  rw [region_take (show decLen - refTaps + refTaps ≤ decLen by omega)]
  apply List.foldl_ext
  intro peaks k hk
  have hlt := List.mem_range.mp hk
  rw [region_take (show k + refTaps ≤ decLen by omega)]

/-- The best lag is that of the sample frames of the window. -/
theorem refinedLag_take (monoBuf : List F) {geom : SearchGeometry} (peaks : List (Peak F))
    (hanchor : geom.anchor + olaLen ≤ geom.n) (hola : olaLen ≤ geom.anchor) :
    refinedLag monoBuf geom peaks = refinedLag (monoBuf.take geom.n) geom peaks := by
  unfold refinedLag
  dsimp only
  rw [region_take hanchor]
  apply List.foldl_ext
  intro best peak _
  cases peak.2 with
  | none => rfl
  | some pk =>
    apply List.foldl_ext
    intro best d hd
    have hlt : d < geom.anchor - olaLen := by
      rw [List.mem_range'_1] at hd
      omega
    dsimp only
    rw [region_take (show d + olaLen ≤ geom.n by omega)]

/-- The coarse peaks of the downmix of a window. -/
def windowPeaks (product : F → F → F) (monoBuf : List F) (geom : SearchGeometry) : List (Peak F) :=
  let decLen := geom.n / pitchDecimation
  let refTaps := olaLen / pitchDecimation
  coarsePeaksOf product
    ((List.range decLen).map fun j => monoBuf.getD (j * pitchDecimation) default)
    (decLen - refTaps) refTaps (min (geom.searchLimit / pitchDecimation) (decLen - refTaps))

/-- A proper window is decimated to more than the taps of a reference. -/
theorem refTaps_lt_decLen {n : ℕ} (hlong : minSearchFrames ≤ n) :
    olaLen / pitchDecimation < n / pitchDecimation := by
  unfold minSearchFrames olaLen pitchDecimation at *
  omega

/-- What a search computes for a proper geometry: no index is outside its buffer, and no entry
is read that the search has not written. -/
theorem findPitchPeriod_eq (bufs : SearchBuffers F) {geom : SearchGeometry} (h : geom.Callable) :
    ∃ next, next.accelWindow = bufs.accelWindow ∧
      bufs.findPitchPeriod geom = some (next, refinedLag ((mono bufs.accelWindow).take geom.n) geom
        (windowPeaks (fun rv cv => cv * rv) ((mono bufs.accelWindow).take geom.n) geom)) := by
  have htaps := refTaps_lt_decLen h.long
  obtain ⟨hlong, hstaged, hanchor, -, -⟩ := h
  unfold minSearchFrames at hlong
  have hreference : geom.anchor + olaLen ≤ geom.n := by omega
  have hola : olaLen ≤ geom.anchor := by omega
  have hnonzero : 0 < olaLen / pitchDecimation := by decide
  obtain ⟨mixed, hmixed, hwindow, hmono⟩ := downmix_eq bufs hstaged
  obtain ⟨next, hnext, hkept, hbuf, hdec⟩ := decimate_eq mixed hstaged
  have hmonoFits : geom.anchor + olaLen ≤ next.monoBuf.length := by
    rw [next.monoBuf_length]
    exact hreference.trans hstaged
  have hdecFits : geom.n / pitchDecimation ≤ next.monoDec.length := by
    rw [next.monoDec_length]
    exact (Nat.div_le_div_right hstaged).trans (Nat.le_succ _)
  refine ⟨next, hkept.trans hwindow, ?_⟩
  unfold findPitchPeriod windowPeaks
  dsimp only
  generalize geom.n / pitchDecimation = decLen at *
  generalize olaLen / pitchDecimation = refTaps at *
  have hdecRef : slice? next.monoDec (decLen - refTaps) decLen =
      some ((next.monoDec.drop (decLen - refTaps)).take refTaps) := by
    rw [slice?_eq (Nat.sub_le _ _) hdecFits, slice, Nat.sub_sub_self htaps.le]
  have href : slice? next.monoBuf geom.anchor (geom.anchor + olaLen) =
      some ((next.monoBuf.drop geom.anchor).take olaLen) := by
    rw [slice?_eq (Nat.le_add_right _ _) hmonoFits, slice, Nat.add_sub_cancel_left]
  have hcoarse := foldlM_coarseNcc next hdecFits htaps.le
    (Nat.min_le_right (geom.searchLimit / pitchDecimation) (decLen - refTaps))
  rw [hmixed]
  dsimp only [Option.bind_eq_bind, Option.bind_some, Option.pure_def] at hcoarse ⊢
  rw [if_neg (by omega), hnext]
  dsimp only [Option.bind_some]
  rw [hdecRef, Option.bind_some, hcoarse, Option.bind_some, href, Option.bind_some,
    foldlM_refine next _ hmonoFits hola, Option.bind_some, refinedLag_take _ _ hreference hola,
    coarsePeaksOf_take _ _ htaps.le (Nat.min_le_right _ _), hdec, hbuf, hmono]

/-- Where products do not depend on the order of their factors, the lag found is that of the
search without checks. -/
theorem findPitchPeriod_of_comm (hcomm : ∀ x y : F, x * y = y * x) (bufs : SearchBuffers F)
    {geom : SearchGeometry} (h : geom.Callable) :
    ∃ next, bufs.findPitchPeriod geom =
      some (next, Jitter.findPitchPeriod bufs.accelWindow geom) := by
  obtain ⟨next, -, hnext⟩ := findPitchPeriod_eq bufs h
  have hswap : (fun rv cv : F => cv * rv) = fun rv cv => rv * cv := by
    funext rv cv
    exact hcomm cv rv
  have htaps := refTaps_lt_decLen h.long
  have hnonzero : 0 < olaLen / pitchDecimation := by decide
  refine ⟨next, ?_⟩
  rw [hnext, hswap]
  unfold Jitter.findPitchPeriod
  dsimp only
  rw [if_neg (by omega)]
  rfl

end SearchBuffers

/-- The lag found around coarse peaks leaves a crossfade in front of the reference. -/
theorem refinedLag_add_le [Binary32 F] (monoBuf : List F) {geom : SearchGeometry}
    (peaks : List (Peak F)) (hola : olaLen ≤ geom.anchor) :
    (SearchBuffers.refinedLag monoBuf geom peaks).1 + olaLen ≤ geom.anchor := by
  unfold SearchBuffers.refinedLag
  dsimp only
  have hstart : (0, (Binary32.negInfinity : F)).1 + olaLen ≤ geom.anchor := by
    rw [Nat.zero_add]
    exact hola
  generalize (0, (Binary32.negInfinity : F)) = best at hstart ⊢
  induction peaks generalizing best with
  | nil => exact hstart
  | cons peak peaks ih =>
    rw [List.foldl_cons]
    apply ih
    cases peak.2 with
    | none => exact hstart
    | some pk =>
      dsimp only
      obtain hkept | hfound := bestLag_cases _ _ _ best
      · rw [hkept]
        exact hstart
      · omega

/-- No index of a pitch search is outside its buffer, and the lag it answers leaves a period that
holds a crossfade: the regions faded out and in lie in the window. -/
theorem findPitchPeriod_inBounds [Binary32 F] (bufs : SearchBuffers F) {geom : SearchGeometry}
    (h : geom.Callable) :
    ∃ next bestD bestCorr, bufs.findPitchPeriod geom = some (next, bestD, bestCorr) ∧
      bestD ≤ geom.anchor ∧ olaLen ≤ geom.anchor - bestD ∧
      ∀ i < olaLen, ∀ c < opusChannels,
        (geom.anchor + i) * opusChannels + c < geom.n * opusChannels ∧
          (bestD + i) * opusChannels + c < geom.n * opusChannels := by
  obtain ⟨next, -, hnext⟩ := SearchBuffers.findPitchPeriod_eq bufs h
  obtain ⟨hlong, -, hanchor, -, -⟩ := h
  unfold minSearchFrames at hlong
  have hola : olaLen ≤ geom.anchor := by omega
  obtain ⟨best, hbest, hlag⟩ : ∃ best, bufs.findPitchPeriod geom = some (next, best) ∧
      best.1 + olaLen ≤ geom.anchor := ⟨_, hnext, refinedLag_add_le _ _ hola⟩
  refine ⟨next, best.1, best.2, hbest, by omega, by omega, fun i hi c hc => ?_⟩
  unfold opusChannels at *
  omega

/-- The window of one remembered frame, in buffers that nothing was written to. -/
theorem findPitchPeriod_inBounds_oneFrame :
    ∃ next bestD bestCorr,
      (SearchBuffers.new : SearchBuffers SoftFloat).findPitchPeriod
          (callerGeometry opusFrameSamples) = some (next, bestD, bestCorr) ∧
        bestD ≤ 352 ∧ 128 ≤ 352 - bestD ∧
        ∀ i < olaLen, ∀ c < opusChannels, (352 + i) * opusChannels + c < 480 * opusChannels ∧
          (bestD + i) * opusChannels + c < 480 * opusChannels :=
  findPitchPeriod_inBounds SearchBuffers.new
    (callerGeometry_callable (show opusFrameSamples ≤ accelWindowSamples by decide) (by decide))

end Gemacast.Jitter
