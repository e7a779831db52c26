import Mathlib.Data.Fin.Basic
import Mathlib.Data.List.Induction
import Gemacast.Core.LawfulBinary32
import Gemacast.Jitter.Stats

/-!
# The gap window as a log

The ring of per-second maxima stands for the log of all recorded gaps: the bucket of age
`k` holds the worst gap of the second `k` seconds before the newest one. The weighted
peak is the worst of the weighted gaps of the log.
-/

namespace Gemacast.Jitter

open Gemacast.Core

/-- A recorded gap and its instant. -/
abbrev GapRecord (F : Type) := F × Instant

namespace JitterStats

variable {F : Type} [Binary32 F]

/-- The gap as it is recorded. -/
def clampGap (gapFrames : F) : F := Binary32.clamp gapFrames 0.0 gapClampFrames

/-- What a gap of an age counts. -/
def weightedGap (age : ℕ) (gap : F) : F :=
  if age ≤ gapFreshSecs then gap else gap * Binary32.powi gapStaleDecay (age - gapFreshSecs)

section Log

/-- The whole seconds from the first record of the log to an instant. -/
def gapSecond (log : List (GapRecord F)) (instant : Instant) : ℕ :=
  match log.head? with
  | some first => (instant.durationSince first.2).asSecs
  | none => 0

/-- The second of the newest record. -/
def newestSecond (log : List (GapRecord F)) : ℕ :=
  match log.getLast? with
  | some last => gapSecond log last.2
  | none => 0

/-- The age of a record in whole seconds before the newest one. -/
def gapAge (log : List (GapRecord F)) (r : GapRecord F) : ℕ := newestSecond log - gapSecond log r.2

/-- The gaps recorded in the second of an age. -/
def gapsOfAge (log : List (GapRecord F)) (age : ℕ) : List F :=
  (log.filter fun r => gapSecond log r.2 + age = newestSecond log).map fun r => clampGap r.1

/-- The bucket of an age. -/
def bucketOfAge (s : JitterStats F) (age : ℕ) : F :=
  s.gapBuckets (s.gapBucketIdx - Fin.ofNat gapWindowBuckets age)

/-- The value is the maximum of zero and the gaps that are numbers. -/
structure HoldsMax (gaps : List F) (value : F) : Prop where
  zero_le : (0.0 : F) ≤ value
  le_clamp : value ≤ gapClampFrames
  attained : value = 0.0 ∨ value ∈ gaps
  le : ∀ gap ∈ gaps, gap ≤ gap → gap ≤ value

end Log

section Rotate

variable {s : JitterStats F}

theorem slot_val (idx : Fin gapWindowBuckets) (age : ℕ) :
    (idx - Fin.ofNat gapWindowBuckets age).val = (24 - age % 24 + idx.val) % 24 := rfl

/-- A bucket keeps its place while the ring moves on. -/
theorem slot_step (idx : Fin gapWindowBuckets) (age : ℕ) :
    idx + 1 - Fin.ofNat gapWindowBuckets (age + 1) = idx - Fin.ofNat gapWindowBuckets age := by
  have hnext : (idx + 1).val = (idx.val + 1) % 24 := rfl
  apply Fin.ext
  rw [slot_val, slot_val, hnext]
  omega

/-- Ages below the length of the ring have buckets of their own. -/
theorem slot_inj {idx : Fin gapWindowBuckets} {a b : ℕ} (ha : a < gapWindowBuckets)
    (hb : b < gapWindowBuckets)
    (h : idx - Fin.ofNat gapWindowBuckets a = idx - Fin.ofNat gapWindowBuckets b) : a = b := by
  have hval := congrArg Fin.val h
  rw [slot_val, slot_val] at hval
  unfold gapWindowBuckets at ha hb
  omega

theorem slot_zero (idx : Fin gapWindowBuckets) : idx - Fin.ofNat gapWindowBuckets 0 = idx := by
  have hidx : idx.val < 24 := idx.isLt
  apply Fin.ext
  rw [slot_val]
  omega

/-- Only the newest bucket stands at the index. -/
theorem slot_ne {idx : Fin gapWindowBuckets} {age : ℕ} (hage : age < gapWindowBuckets)
    (hpos : age ≠ 0) : idx - Fin.ofNat gapWindowBuckets age ≠ idx := by
  intro h
  exact hpos (slot_inj hage (by decide) (h.trans (slot_zero idx).symm))

/-- One step makes every bucket older and starts an empty one. -/
theorem bucketOfAge_step {age : ℕ} (hage : age < gapWindowBuckets) :
    bucketOfAge
      { s with
        gapBucketIdx := s.gapBucketIdx + 1
        gapBuckets := Function.update s.gapBuckets (s.gapBucketIdx + 1) 0.0 } age =
      if age = 0 then 0.0 else s.bucketOfAge (age - 1) := by
  unfold bucketOfAge
  dsimp only
  cases age with
  | zero => rw [if_pos rfl, slot_zero, Function.update_self]
  | succ age =>
    rw [if_neg (Nat.succ_ne_zero age), Nat.add_sub_cancel,
      Function.update_of_ne (slot_ne hage (Nat.succ_ne_zero age)), slot_step]

/-- Moving on by some seconds empties the buckets passed. -/
theorem bucketOfAge_rotate (steps : ℕ) {age : ℕ} (hage : age < gapWindowBuckets) :
    (s.rotateGapBuckets steps).bucketOfAge age =
      if age < steps then 0.0 else s.bucketOfAge (age - steps) := by
  induction steps generalizing s with
  | zero => rw [if_neg (Nat.not_lt_zero age), Nat.sub_zero]; rfl
  | succ steps ih =>
    rw [rotateGapBuckets, ih]
    by_cases hlt : age < steps
    · rw [if_pos hlt, if_pos (Nat.lt_succ_of_lt hlt)]
    · rw [if_neg hlt, bucketOfAge_step (by omega)]
      by_cases heq : age = steps
      · rw [if_pos (by omega), if_pos (by omega)]
      · rw [if_neg (by omega), if_neg (by omega), Nat.sub_sub]

omit [Binary32 F] in
/-- Recording a gap raises the newest bucket. -/
theorem bucketOfAge_update {age : ℕ} (hage : age < gapWindowBuckets) (value : F) :
    bucketOfAge { s with gapBuckets := Function.update s.gapBuckets s.gapBucketIdx value } age =
      if age = 0 then value else s.bucketOfAge age := by
  unfold bucketOfAge
  dsimp only
  by_cases hzero : age = 0
  · rw [if_pos hzero, hzero, slot_zero, Function.update_self]
  · rw [if_neg hzero, Function.update_of_ne (slot_ne hage hzero)]

end Rotate

section Record

variable [LawfulBinary32 F] {gaps : List F} {value gap : F}

/-- The clamp bounds are numbers in order. -/
theorem zero_le_clampFrames : (0.0 : F) ≤ 0.0 ∧ (0.0 : F) ≤ gapClampFrames ∧
    (gapClampFrames : F) ≤ gapClampFrames := by
  have hzero : (0.0 : F) ≤ 0.0 := LawfulBinary32.zero_le_decimal 0 1
  have hclamp : (0.0 : F) ≤ gapClampFrames := LawfulBinary32.zero_le_decimal 1200 1
  exact ⟨hzero, hclamp, (LawfulBinary32.number_of_le hclamp).2⟩

/-- A number that is not below another is at least it. -/
theorem le_of_not_lt {x y : F} (hx : x ≤ x) (hy : y ≤ y) (h : ¬x < y) : y ≤ x := by
  by_contra hnot
  rcases LawfulBinary32.le_total hx hy with hle | hle
  · exact h (LawfulBinary32.lt_iff.mpr ⟨hle, hnot⟩)
  · exact hnot hle

/-- A clamped gap that is a number lies in the range. -/
theorem clampGap_bounds (h : clampGap gap ≤ clampGap gap) :
    (0.0 : F) ≤ clampGap gap ∧ clampGap gap ≤ gapClampFrames := by
  obtain ⟨hzero, hrange, htop⟩ := @zero_le_clampFrames F _ _
  unfold clampGap Binary32.clamp at h ⊢
  by_cases hlow : gap < 0.0
  · rw [if_pos hlow]
    exact ⟨hzero, hrange⟩
  · rw [if_neg hlow] at h ⊢
    by_cases hhigh : gapClampFrames < gap
    · rw [if_pos hhigh]
      exact ⟨hrange, htop⟩
    · rw [if_neg hhigh] at h ⊢
      exact ⟨le_of_not_lt h hzero hlow, le_of_not_lt htop h hhigh⟩

/-- The maximum of a bucket and a new gap. -/
theorem HoldsMax.record (h : HoldsMax gaps value) (gapFrames : F) :
    HoldsMax (gaps ++ [clampGap gapFrames]) (Binary32.maximum value (clampGap gapFrames)) := by
  obtain ⟨hzero, hrange, hattained, hle⟩ := h
  have hvalue := (LawfulBinary32.number_of_le hzero).2
  obtain ⟨new, hnew⟩ : ∃ new, clampGap gapFrames = new := ⟨_, rfl⟩
  have hbounds : new ≤ new → (0.0 : F) ≤ new ∧ new ≤ gapClampFrames := by
    rw [← hnew]
    exact clampGap_bounds
  rw [hnew]
  rcases LawfulBinary32.maximum_cases (y := new) hvalue with ⟨hmax, hnot⟩ | ⟨hmax, hup⟩
  · rw [hmax]
    refine ⟨hzero, hrange, hattained.imp_right (List.mem_append_left _), fun g hg hnumber => ?_⟩
    rcases List.mem_append.mp hg with hg | hg
    · exact hle g hg hnumber
    · rw [List.mem_singleton.mp hg] at hnumber ⊢
      exact le_of_not_lt hvalue hnumber hnot
  · have hnumber := (LawfulBinary32.number_of_le hup).2
    rw [hmax]
    refine ⟨(hbounds hnumber).1, (hbounds hnumber).2, Or.inr (by simp), fun g hg hg' => ?_⟩
    rcases List.mem_append.mp hg with hg | hg
    · exact LawfulBinary32.le_trans (hle g hg hg') hup
    · rw [List.mem_singleton.mp hg]
      exact hnumber

/-- Nothing recorded leaves an empty bucket. -/
theorem HoldsMax.nil : HoldsMax ([] : List F) 0.0 := by
  obtain ⟨hzero, hrange, _⟩ := @zero_le_clampFrames F _ _
  exact ⟨hzero, hrange, Or.inl rfl, by simp⟩

end Record

section Runs

variable {log : List (GapRecord F)} {r : GapRecord F}

/-- The instants of the records do not decrease. -/
def Chronicle (log : List (GapRecord F)) : Prop := log.Pairwise fun a b => a.2 ≤ b.2

instance (log : List (GapRecord F)) : Decidable (Chronicle log) :=
  inferInstanceAs (Decidable (List.Pairwise _ _))

omit [Binary32 F] in
theorem gapSecond_mono {a b : Instant} (h : a ≤ b) : gapSecond log a ≤ gapSecond log b := by
  unfold gapSecond
  cases log.head? with
  | none => exact le_rfl
  | some first => exact Nat.div_le_div_right (Nat.sub_le_sub_right h first.2)

omit [Binary32 F] in
/-- The newest record is in the newest second. -/
theorem gapSecond_le_newest (h : Chronicle log) (hr : r ∈ log) :
    gapSecond log r.2 ≤ newestSecond log := by
  obtain ⟨front, last, rfl⟩ : ∃ front last, log = front ++ [last] :=
    ⟨log.dropLast, log.getLast (List.ne_nil_of_mem hr), (List.dropLast_append_getLast _).symm⟩
  rw [newestSecond, List.getLast?_concat]
  apply gapSecond_mono
  rcases List.mem_append.mp hr with hr | hr
  · exact (List.pairwise_append.mp h).2.2 r hr last (by simp)
  · rw [List.mem_singleton.mp hr]

/-- The window stands for the log. -/
structure RepresentsLog (s : JitterStats F) (log : List (GapRecord F)) : Prop where
  start : s.gapBucketStart =
    log.head?.map fun first => first.2 + Duration.fromSecs (newestSecond log)
  buckets : ∀ age < gapWindowBuckets, HoldsMax (gapsOfAge log age) (s.bucketOfAge age)

variable [LawfulBinary32 F]

theorem RepresentsLog.empty (s : JitterStats F) : RepresentsLog s.resetGapWindow [] :=
  ⟨rfl, fun _ _ => HoldsMax.nil⟩

omit [LawfulBinary32 F] in
/-- The gaps of an age after a record has been added. -/
theorem gapsOfAge_append (hlog : log ≠ []) (h : Chronicle (log ++ [r])) (age : ℕ) :
    newestSecond (log ++ [r]) = gapSecond log r.2 ∧ newestSecond log ≤ gapSecond log r.2 ∧
      gapsOfAge (log ++ [r]) age =
        (if age < gapSecond log r.2 - newestSecond log then []
          else gapsOfAge log (age - (gapSecond log r.2 - newestSecond log))) ++
        if age = 0 then [clampGap r.1] else [] := by
  have hsecond : ∀ t, gapSecond (log ++ [r]) t = gapSecond log t := by
    intro t
    unfold gapSecond
    rw [List.head?_append_of_ne_nil _ hlog]
  have hnewest : newestSecond (log ++ [r]) = gapSecond log r.2 := by
    rw [newestSecond, List.getLast?_concat]
    exact hsecond r.2
  obtain ⟨hold, _, hlast⟩ := List.pairwise_append.mp h
  have hle : ∀ x ∈ log, gapSecond log x.2 ≤ newestSecond log := fun x hx =>
    gapSecond_le_newest hold hx
  have hmono : newestSecond log ≤ gapSecond log r.2 := by
    rw [newestSecond, List.getLast?_eq_some_getLast hlog]
    exact gapSecond_mono (hlast _ (List.getLast_mem hlog) r (by simp))
  refine ⟨hnewest, hmono, ?_⟩
  rw [gapsOfAge, hnewest, List.filter_append, List.map_append]
  simp only [hsecond]
  congr 1
  · split
    · rename_i hyoung
      rw [List.map_eq_nil_iff, List.filter_eq_nil_iff]
      intro x hx
      have := hle x hx
      simp only [decide_eq_true_eq]
      omega
    · rename_i hold
      rw [gapsOfAge]
      refine congrArg _ (List.filter_congr fun x hx => ?_)
      have := hle x hx
      rw [decide_eq_decide]
      omega
  · by_cases hzero : age = 0 <;> simp [hzero]

omit [LawfulBinary32 F] in
/-- Recording a gap moves the ring on by the whole seconds that have passed and raises the
newest bucket. -/
theorem recordGap_buckets {s : JitterStats F} {start : Instant} (gapFrames : F)
    (arrivalTime : Instant) (h : s.gapBucketStart = some start) :
    let elapsed := (arrivalTime.durationSince start).asSecs
    (s.recordGap gapFrames arrivalTime).gapBucketStart =
        some (start + Duration.fromSecs elapsed) ∧
      ∀ age < gapWindowBuckets, (s.recordGap gapFrames arrivalTime).bucketOfAge age =
        let old := if age < elapsed then 0.0 else s.bucketOfAge (age - elapsed)
        if age = 0 then Binary32.maximum old (clampGap gapFrames) else old := by
  intro elapsed
  obtain ⟨m, hm, hstart, hbuckets⟩ : ∃ m : JitterStats F,
      s.recordGap gapFrames arrivalTime =
        { m with
          gapBuckets := Function.update m.gapBuckets m.gapBucketIdx
            (Binary32.maximum (m.gapBuckets m.gapBucketIdx) (clampGap gapFrames)) } ∧
      m.gapBucketStart = some (start + Duration.fromSecs elapsed) ∧
      ∀ age < gapWindowBuckets, m.bucketOfAge age =
        if age < elapsed then 0.0 else s.bucketOfAge (age - elapsed) := by
    unfold recordGap
    rw [h]
    by_cases hmoved : 1 ≤ elapsed
    · refine ⟨_, rfl, ?_, fun age hage => ?_⟩
      · dsimp only
        rw [if_pos hmoved]
      · dsimp only
        rw [if_pos hmoved]
        change (s.rotateGapBuckets (min elapsed gapWindowBuckets)).bucketOfAge age = _
        rw [bucketOfAge_rotate _ hage]
        by_cases hlt : age < elapsed
        · rw [if_pos hlt, if_pos (by omega)]
        · rw [if_neg hlt, if_neg (by omega), min_eq_left (by omega)]
    · have hzero : elapsed = 0 := by omega
      refine ⟨_, rfl, ?_, fun age hage => ?_⟩
      · dsimp only
        rw [if_neg hmoved, h, hzero]
        rfl
      · dsimp only
        rw [if_neg hmoved, hzero, if_neg (Nat.not_lt_zero age), Nat.sub_zero]
  rw [hm]
  refine ⟨hstart, fun age hage => ?_⟩
  rw [bucketOfAge_update hage, ← hbuckets age hage]
  by_cases hzero : age = 0
  · rw [if_pos hzero, hzero]
    dsimp only
    rw [if_pos rfl, bucketOfAge, slot_zero]
  · rw [if_neg hzero]
    dsimp only
    rw [if_neg hzero]

/-- Recording a gap in the window is appending it to the log. -/
theorem RepresentsLog.record {s : JitterStats F} (h : RepresentsLog s log)
    (hlog : Chronicle (log ++ [r])) : RepresentsLog (s.recordGap r.1 r.2) (log ++ [r]) := by
  obtain ⟨hstart, hbuckets⟩ := h
  cases log with
  | nil =>
    have hzero : newestSecond [r] = 0 := by
      simp [newestSecond, gapSecond, Instant.durationSince, Duration.asSecs]
    have hgaps : ∀ age, gapsOfAge [r] age = if age = 0 then [clampGap r.1] else [] := by
      intro age
      by_cases hage : age = 0 <;>
        simp [gapsOfAge, hzero, gapSecond, Instant.durationSince, Duration.asSecs, hage]
    have hrecord : s.recordGap r.1 r.2 =
        { { s with gapBucketStart := some r.2 } with
          gapBuckets := Function.update s.gapBuckets s.gapBucketIdx
            (Binary32.maximum (s.gapBuckets s.gapBucketIdx) (clampGap r.1)) } := by
      unfold recordGap
      rw [hstart]
      rfl
    rw [hrecord, List.nil_append]
    refine ⟨by simp [hzero, Duration.fromSecs], fun age hage => ?_⟩
    have hage' := @bucketOfAge_update F { s with gapBucketStart := some r.2 } age hage
      (Binary32.maximum (s.gapBuckets s.gapBucketIdx) (clampGap r.1))
    dsimp only at hage'
    rw [hage', hgaps]
    by_cases hpos : age = 0
    · have hempty := (hbuckets 0 (by decide)).record r.1
      rw [bucketOfAge, slot_zero] at hempty
      rw [if_pos hpos, if_pos hpos]
      exact hempty
    · rw [if_neg hpos, if_neg hpos]
      exact hbuckets age hage
  | cons first rest =>
    obtain ⟨hnewest, hmono, hgaps⟩ := gapsOfAge_append (by simp) hlog 0
    have helapsed : (r.2.durationSince
        (first.2 + Duration.fromSecs (newestSecond (first :: rest)))).asSecs =
          gapSecond (first :: rest) r.2 - newestSecond (first :: rest) := by
      simp only [gapSecond, List.head?_cons, Instant.durationSince, Duration.asSecs,
        Duration.fromSecs]
      omega
    obtain ⟨hstart', hbuckets'⟩ := recordGap_buckets r.1 r.2 hstart
    rw [helapsed] at hstart' hbuckets'
    obtain ⟨elapsed, hdiff⟩ : ∃ elapsed,
        gapSecond (first :: rest) r.2 - newestSecond (first :: rest) = elapsed := ⟨_, rfl⟩
    refine ⟨?_, fun age hage => ?_⟩
    · rw [hstart', hnewest]
      have hsum : gapSecond (first :: rest) r.2 = newestSecond (first :: rest) + elapsed := by
        omega
      simp only [List.cons_append, List.head?_cons, Option.map_some, hsum, Duration.fromSecs,
        Nat.add_sub_cancel_left]
      congr 1
      rw [Nat.add_mul, Nat.add_assoc]
    · rw [hbuckets' age hage, (gapsOfAge_append (by simp) hlog age).2.2, hdiff]
      dsimp only
      have hold : HoldsMax (if age < elapsed then [] else gapsOfAge (first :: rest) (age - elapsed))
          (if age < elapsed then 0.0 else s.bucketOfAge (age - elapsed)) := by
        by_cases hyoung : age < elapsed
        · rw [if_pos hyoung, if_pos hyoung]
          exact HoldsMax.nil
        · rw [if_neg hyoung, if_neg hyoung]
          exact hbuckets _ (by omega)
      by_cases hzero : age = 0
      · rw [if_pos hzero, if_pos hzero]
        exact hold.record r.1
      · rw [if_neg hzero, if_neg hzero, List.append_nil]
        exact hold

/-- The statistics after recording a log in an empty window. -/
def recordGaps (s : JitterStats F) (log : List (GapRecord F)) : JitterStats F :=
  log.foldl (fun s r => s.recordGap r.1 r.2) s.resetGapWindow

/-- Along every log in order of time the window stands for the log. -/
theorem representsLog_recordGaps (s : JitterStats F) (h : Chronicle log) :
    RepresentsLog (s.recordGaps log) log := by
  induction log using List.reverseRecOn with
  | nil => exact RepresentsLog.empty s
  | append_singleton log r ih =>
    have hstep : s.recordGaps (log ++ [r]) = (s.recordGaps log).recordGap r.1 r.2 := by
      rw [recordGaps, List.foldl_append]
      rfl
    rw [hstep]
    exact (ih (List.pairwise_append.mp h).1).record h

end Runs

section Peak

variable {s : JitterStats F}

/-- The age of a bucket. -/
def ageOfBucket (s : JitterStats F) (i : Fin gapWindowBuckets) : ℕ :=
  (s.gapBucketIdx.val + gapWindowBuckets - i.val) % gapWindowBuckets

/-- What a bucket counts in the peak. -/
def weightedBucket (s : JitterStats F) (i : Fin gapWindowBuckets) : F :=
  weightedGap (s.ageOfBucket i) (s.gapBuckets i)

/-- One bucket of the search for the peak. -/
def peakStep (s : JitterStats F) (best : F × ℕ) (i : Fin gapWindowBuckets) : F × ℕ :=
  if s.gapBuckets i ≤ 0.0 then best
  else if best.1 < s.weightedBucket i ∨
      ((s.weightedBucket i == best.1) = true ∧ s.ageOfBucket i < best.2) then
    (s.weightedBucket i, s.ageOfBucket i)
  else best

theorem weightedGapPeak_eq_foldl :
    s.weightedGapPeak = (List.finRange gapWindowBuckets).foldl s.peakStep (0.0, 0) := rfl

omit [Binary32 F] in
theorem bucketOfAge_ageOfBucket (i : Fin gapWindowBuckets) :
    s.bucketOfAge (s.ageOfBucket i) = s.gapBuckets i := by
  have hidx : s.gapBucketIdx.val < 24 := s.gapBucketIdx.isLt
  have hi : i.val < 24 := i.isLt
  have hslot : s.gapBucketIdx - Fin.ofNat gapWindowBuckets (s.ageOfBucket i) = i := by
    apply Fin.ext
    rw [slot_val]
    unfold ageOfBucket gapWindowBuckets
    omega
  rw [bucketOfAge, hslot]

omit [Binary32 F] in
theorem ageOfBucket_lt (i : Fin gapWindowBuckets) : s.ageOfBucket i < gapWindowBuckets :=
  Nat.mod_lt _ (by decide)

omit [Binary32 F] in
/-- Every age of the window belongs to a bucket. -/
theorem exists_ageOfBucket {age : ℕ} (h : age < gapWindowBuckets) :
    ∃ i, s.ageOfBucket i = age := by
  have hidx : s.gapBucketIdx.val < 24 := s.gapBucketIdx.isLt
  refine ⟨s.gapBucketIdx - Fin.ofNat gapWindowBuckets age, ?_⟩
  rw [ageOfBucket, slot_val]
  unfold gapWindowBuckets at h ⊢
  omega

/-- The best of the buckets searched. -/
structure PeakOf (s : JitterStats F) (searched : List (Fin gapWindowBuckets))
    (best : F × ℕ) : Prop where
  zero_le : (0.0 : F) ≤ best.1
  attained : best = (0.0, 0) ∨
    ∃ i ∈ searched, ¬s.gapBuckets i ≤ 0.0 ∧ best = (s.weightedBucket i, s.ageOfBucket i)
  le : ∀ i ∈ searched, ¬s.gapBuckets i ≤ 0.0 → s.weightedBucket i ≤ best.1

variable [LawfulBinary32 F] {age : ℕ} {gap : F}

/-- The decay of an age is a share. -/
theorem gapStaleDecay_powi (n : ℕ) :
    (0.0 : F) ≤ Binary32.powi gapStaleDecay n ∧
      (Binary32.powi gapStaleDecay n : F) ≤ Binary32.ofNat 1 :=
  LawfulBinary32.powi_share n (LawfulBinary32.zero_le_decimal 85 2)
    (LawfulBinary32.decimal_le_ofNat (by decide) (by decide))

/-- Weighting keeps the order of clamped gaps. -/
theorem weightedGap_mono {x y : F} (hzero : (0.0 : F) ≤ x) (hle : x ≤ y)
    (htop : y ≤ gapClampFrames) : weightedGap age x ≤ weightedGap age y := by
  have hbound : y ≤ Binary32.ofNat 120 :=
    LawfulBinary32.le_trans htop (LawfulBinary32.decimal_le_ofNat (by decide) (by decide))
  obtain ⟨hlow, hhigh⟩ := @gapStaleDecay_powi F _ _ (age - gapFreshSecs)
  unfold weightedGap
  by_cases hfresh : age ≤ gapFreshSecs
  · rw [if_pos hfresh, if_pos hfresh]
    exact hle
  · rw [if_neg hfresh, if_neg hfresh]
    exact LawfulBinary32.mul_le_mul hzero hle hbound (by decide) hlow hhigh

/-- An empty bucket counts nothing. -/
theorem weightedGap_le_zero (hzero : (0.0 : F) ≤ gap) (h : gap ≤ 0.0) :
    weightedGap age gap ≤ 0.0 := by
  obtain ⟨hlow, hhigh⟩ := @gapStaleDecay_powi F _ _ (age - gapFreshSecs)
  unfold weightedGap
  by_cases hfresh : age ≤ gapFreshSecs
  · rw [if_pos hfresh]
    exact h
  · rw [if_neg hfresh]
    exact LawfulBinary32.mul_le_zero hzero h hlow hhigh

/-- The search keeps the best of the buckets searched. -/
theorem PeakOf.step {searched : List (Fin gapWindowBuckets)} {best : F × ℕ}
    (h : PeakOf s searched best) {i : Fin gapWindowBuckets}
    (hnumber : s.weightedBucket i ≤ s.weightedBucket i) :
    PeakOf s (searched ++ [i]) (s.peakStep best i) := by
  obtain ⟨hzero, hattained, hle⟩ := h
  have hbest := (LawfulBinary32.number_of_le hzero).2
  have hkeep : best = (0.0, 0) ∨ ∃ j ∈ searched ++ [i], ¬s.gapBuckets j ≤ 0.0 ∧
      best = (s.weightedBucket j, s.ageOfBucket j) :=
    hattained.imp_right fun ⟨j, hj, hrest⟩ => ⟨j, List.mem_append_left _ hj, hrest⟩
  unfold peakStep
  by_cases hempty : s.gapBuckets i ≤ 0.0
  · rw [if_pos hempty]
    refine ⟨hzero, hkeep, fun j hj hpos => ?_⟩
    rcases List.mem_append.mp hj with hj | hj
    · exact hle j hj hpos
    · rw [List.mem_singleton.mp hj] at hpos
      exact absurd hempty hpos
  · rw [if_neg hempty]
    by_cases hbetter : best.1 < s.weightedBucket i ∨
        ((s.weightedBucket i == best.1) = true ∧ s.ageOfBucket i < best.2)
    · have hup : best.1 ≤ s.weightedBucket i := by
        rcases hbetter with hlt | ⟨heq, _⟩
        · exact (LawfulBinary32.lt_iff.mp hlt).1
        · exact (LawfulBinary32.beq_iff.mp heq).2
      rw [if_pos hbetter]
      refine ⟨LawfulBinary32.le_trans hzero hup, Or.inr ⟨i, by simp, hempty, rfl⟩,
        fun j hj hpos => ?_⟩
      rcases List.mem_append.mp hj with hj | hj
      · exact LawfulBinary32.le_trans (hle j hj hpos) hup
      · rw [List.mem_singleton.mp hj]
        exact hnumber
    · rw [if_neg hbetter]
      refine ⟨hzero, hkeep, fun j hj hpos => ?_⟩
      rcases List.mem_append.mp hj with hj | hj
      · exact hle j hj hpos
      · rw [List.mem_singleton.mp hj]
        exact le_of_not_lt hbest hnumber fun hlt => hbetter (Or.inl hlt)

/-- The weighted peak is the best of all buckets. -/
theorem peakOf_weightedGapPeak
    (h : ∀ i, (0.0 : F) ≤ s.gapBuckets i ∧ s.gapBuckets i ≤ gapClampFrames) :
    PeakOf s (List.finRange gapWindowBuckets) s.weightedGapPeak := by
  rw [weightedGapPeak_eq_foldl]
  generalize List.finRange gapWindowBuckets = buckets
  induction buckets using List.reverseRecOn with
  | nil => exact ⟨LawfulBinary32.zero_le_decimal 0 1, Or.inl rfl, by simp⟩
  | append_singleton searched i ih =>
    obtain ⟨hzero, htop⟩ := h i
    rw [List.foldl_append]
    exact ih.step (weightedGap_mono hzero (LawfulBinary32.number_of_le hzero).2 htop)

end Peak

section Refinement

variable {log : List (GapRecord F)}

/-- What a gap of an age counts, nothing once its bucket has left the window. -/
def countedGap (age : ℕ) (gap : F) : F :=
  if age < gapWindowBuckets then weightedGap age gap else 0.0

/-- The window answers as the log does. -/
structure RefinesLog (s : JitterStats F) (log : List (GapRecord F)) : Prop where
  /-- The bucket of an age holds the worst gap of its second. -/
  bucket : ∀ age < gapWindowBuckets, HoldsMax (gapsOfAge log age) (s.bucketOfAge age)
  zero_le_peak : (0.0 : F) ≤ s.maxGapFrames
  /-- No gap of the log counts more than the peak. -/
  le_peak : ∀ r ∈ log, clampGap r.1 ≤ clampGap r.1 →
    countedGap (gapAge log r) (clampGap r.1) ≤ s.maxGapFrames
  /-- The peak is what some gap of the log counts, or nothing counts. -/
  attained : s.maxGapFrames = 0.0 ∨
    ∃ r ∈ log, gapAge log r < gapWindowBuckets ∧ s.maxGapAgeSecs = gapAge log r ∧
      s.maxGapFrames = countedGap (gapAge log r) (clampGap r.1)
  /-- Fresh gaps count in full. -/
  fresh_le_peak : ∀ r ∈ log, gapAge log r ≤ gapFreshSecs → clampGap r.1 ≤ clampGap r.1 →
    clampGap r.1 ≤ s.maxGapFrames
  /-- The reported age is that of a bucket attaining the peak. -/
  age_lt : s.maxGapAgeSecs < gapWindowBuckets
  age_attains : (weightedGap s.maxGapAgeSecs (s.bucketOfAge s.maxGapAgeSecs) == s.maxGapFrames) =
    true

variable [LawfulBinary32 F]

/-- Along every log in order of time, idle or not, the window answers as the log does. -/
theorem recordGaps_refinesLog (s : JitterStats F) (h : Chronicle log) :
    RefinesLog (s.recordGaps log) log := by
  obtain ⟨_, hbucket⟩ := representsLog_recordGaps s h
  generalize s.recordGaps log = s at hbucket ⊢
  have hrange : ∀ i, (0.0 : F) ≤ s.gapBuckets i ∧ s.gapBuckets i ≤ gapClampFrames := by
    intro i
    have hheld := hbucket _ (ageOfBucket_lt (s := s) i)
    rw [bucketOfAge_ageOfBucket] at hheld
    exact ⟨hheld.zero_le, hheld.le_clamp⟩
  obtain ⟨hzero, hattained, hle⟩ := peakOf_weightedGapPeak hrange
  have hbuckets : ∀ age < gapWindowBuckets,
      weightedGap age (s.bucketOfAge age) ≤ s.maxGapFrames := by
    intro age hage
    obtain ⟨i, rfl⟩ := exists_ageOfBucket (s := s) hage
    rw [bucketOfAge_ageOfBucket]
    by_cases hempty : s.gapBuckets i ≤ 0.0
    · exact LawfulBinary32.le_trans (weightedGap_le_zero (hrange i).1 hempty) hzero
    · exact hle i (List.mem_finRange i) hempty
  have hrecord : ∀ r ∈ log, gapAge log r < gapWindowBuckets → clampGap r.1 ≤ clampGap r.1 →
      weightedGap (gapAge log r) (clampGap r.1) ≤ s.maxGapFrames := by
    intro r hr hage hnumber
    have hsecond := gapSecond_le_newest h hr
    have hheld := hbucket _ hage
    have hmem : clampGap r.1 ∈ gapsOfAge log (gapAge log r) := by
      refine List.mem_map_of_mem (List.mem_filter.mpr ⟨hr, decide_eq_true ?_⟩)
      rw [gapAge]
      omega
    exact LawfulBinary32.le_trans
      (weightedGap_mono (clampGap_bounds hnumber).1 (hheld.le _ hmem hnumber) hheld.le_clamp)
      (hbuckets _ hage)
  refine ⟨hbucket, hzero, fun r hr hnumber => ?_, ?_, fun r hr hfresh hnumber => ?_, ?_, ?_⟩
  · unfold countedGap
    by_cases hage : gapAge log r < gapWindowBuckets
    · rw [if_pos hage]
      exact hrecord r hr hage hnumber
    · rw [if_neg hage]
      exact hzero
  · rcases hattained with hnone | ⟨i, _, hpos, hbest⟩
    · exact Or.inl (congrArg Prod.fst hnone)
    · have hheld := hbucket _ (ageOfBucket_lt (s := s) i)
      rw [bucketOfAge_ageOfBucket] at hheld
      rcases hheld.attained with hnone | hmem
      · rw [hnone] at hpos
        exact absurd (LawfulBinary32.zero_le_decimal 0 1) hpos
      · obtain ⟨r, hr, hgap⟩ := List.mem_map.mp hmem
        obtain ⟨hr, hsecond⟩ := List.mem_filter.mp hr
        have hage : gapAge log r = s.ageOfBucket i := by
          have hsecond := of_decide_eq_true hsecond
          rw [gapAge]
          omega
        refine Or.inr ⟨r, hr, ?_, ?_, ?_⟩
        · rw [hage]
          exact ageOfBucket_lt i
        · rw [hage]
          exact congrArg Prod.snd hbest
        · rw [hage, countedGap, if_pos (ageOfBucket_lt i), hgap]
          exact congrArg Prod.fst hbest
  · have hage : gapAge log r < gapWindowBuckets := lt_of_le_of_lt hfresh (by decide)
    have hcount := hrecord r hr hage hnumber
    rw [weightedGap, if_pos hfresh] at hcount
    exact hcount
  · rcases hattained with hnone | ⟨i, _, _, hbest⟩
    · rw [maxGapAgeSecs, hnone]
      exact Nat.zero_lt_succ 23
    · rw [maxGapAgeSecs, hbest]
      exact ageOfBucket_lt i
  · rcases hattained with hnone | ⟨i, _, _, hbest⟩
    · have hfirst := hbuckets 0 (by decide)
      have hheld := (hbucket 0 (by decide)).zero_le
      rw [maxGapAgeSecs, maxGapFrames, hnone] at *
      exact LawfulBinary32.beq_iff.mpr ⟨hfirst, hheld⟩
    · obtain ⟨hlow, htop⟩ := hrange i
      have hnumber : s.weightedBucket i ≤ s.weightedBucket i :=
        weightedGap_mono hlow (LawfulBinary32.number_of_le hlow).2 htop
      rw [maxGapAgeSecs, maxGapFrames, hbest, bucketOfAge_ageOfBucket]
      exact LawfulBinary32.beq_iff.mpr ⟨hnumber, hnumber⟩

/-- Two gaps in one second, an idle time longer than the ring, and one more gap. -/
def idleLog : List (GapRecord SoftFloat) :=
  [(5.0, 0), (9.0, 300000000), (3.0, 40000000000)]

theorem recordGaps_refinesLog_idleLog :
    RefinesLog ((new : JitterStats SoftFloat).recordGaps idleLog) idleLog :=
  recordGaps_refinesLog _ (by decide)

end Refinement

end JitterStats

end Gemacast.Jitter
