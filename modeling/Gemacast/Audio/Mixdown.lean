import Mathlib.Data.Set.Finite.Lemmas
import Mathlib.Tactic.Linarith
import Gemacast.Core.Blocks
import Gemacast.Core.Exact

/-!
# Folding channels down to stereo

A captured frame of any number of channels becomes one stereo pair. The weights of the
channels that are folded in are divided out again, so that no layout can clip; a frame that
is cut off at the end of the input is dropped, except by the branch for stereo input.
-/

namespace Gemacast.Audio

open Gemacast.Core

section Downmix

variable {F : Type} [Binary32 F]

/-- The sum of the weights of the folded channels. -/
def downmixNorm (channels : ℕ) : F :=
  if 8 ≤ channels then 1.0 + 0.707 + 0.3 + 0.707 + 0.707
  else if 6 ≤ channels then 1.0 + 0.707 + 0.3 + 0.707
  else if 4 ≤ channels then 1.0 + 0.707 + 0.3
  else 1.0 + 0.707

/-- Add channel `i` to the left and channel `j` to the right side, when the layout has them;
`none` where an index is out of range. -/
def addChannels (frame : List F) (i j : ℕ) (weight : F) (present : Bool) (sides : F × F) :
    Option (F × F) :=
  if present then do
    pure (sides.1 + (← frame[i]?) * weight, sides.2 + (← frame[j]?) * weight)
  else some sides

/-- Fold one frame of more than two channels. -/
def foldFrame (channels : ℕ) (frame : List F) : Option (List F) := do
  -- FL (0), FR (1), C (2)
  let center := (frame[2]?).getD 0.0 * 0.707
  let left ← frame[0]?
  let right ← frame[1]?
  -- LFE (3)
  let sides ← addChannels frame 3 3 0.3 (4 ≤ channels) (left + center, right + center)
  -- RL (4), RR (5)
  let sides ← addChannels frame 4 5 0.707 (6 ≤ channels) sides
  -- SL (6), SR (7)
  let sides ← addChannels frame 6 7 0.707 (8 ≤ channels) sides
  pure [sides.1 / downmixNorm channels, sides.2 / downmixNorm channels]

/-- Fold interleaved audio down to interleaved stereo. -/
def downmixToStereo (input : List F) (channels : ℕ) : Option (List F) :=
  if channels = 0 then some []
  else
    let frames := input.length / channels
    match channels with
    | 1 => some ((input.take frames).flatMap fun s => [s, s])
    | 2 => some input
    | _ => ((chunksExact channels input).mapM (foldFrame channels)).map List.flatten

variable {channels : ℕ} {frame input : List F}

/-- A whole frame has the channels that its layout has. -/
theorem addChannels_isSome {least i j : ℕ} (hframe : frame.length = channels) (hi : i < least)
    (hj : j < least) (weight : F) (sides : F × F) :
    ∃ sides', addChannels frame i j weight (least ≤ channels) sides = some sides' := by
  unfold addChannels
  by_cases hleast : least ≤ channels
  · rw [if_pos (decide_eq_true hleast), List.getElem?_eq_getElem (show i < frame.length by omega),
      List.getElem?_eq_getElem (show j < frame.length by omega)]
    exact ⟨_, rfl⟩
  · rw [if_neg (by simpa using hleast)]
    exact ⟨sides, rfl⟩

/-- No index of a whole frame is out of range, and the frame becomes one pair. -/
theorem foldFrame_pair (hframe : frame.length = channels) (hchannels : 2 < channels) :
    ∃ left right, foldFrame channels frame = some [left, right] := by
  unfold foldFrame
  rw [List.getElem?_eq_getElem (show 0 < frame.length by omega),
    List.getElem?_eq_getElem (show 1 < frame.length by omega)]
  dsimp only [Option.bind_eq_bind, Option.bind_some, Option.pure_def]
  obtain ⟨front, hfront⟩ := addChannels_isSome (i := 3) (j := 3) hframe (by decide : 3 < 4)
    (by decide) 0.3
    (frame[0] + (frame[2]?).getD 0.0 * 0.707, frame[1] + (frame[2]?).getD 0.0 * 0.707)
  obtain ⟨rear, hrear⟩ := addChannels_isSome (i := 4) (j := 5) hframe (by decide : 4 < 6)
    (by decide) 0.707 front
  obtain ⟨sides, hsides⟩ := addChannels_isSome (i := 6) (j := 7) hframe (by decide : 6 < 8)
    (by decide) 0.707 rear
  rw [hfront, Option.bind_some, hrear, Option.bind_some, hsides]
  exact ⟨_, _, rfl⟩

/-- Folding whole frames succeeds, with one pair for each. -/
theorem mapM_foldFrame {frames : List (List F)}
    (hframes : ∀ frame ∈ frames, frame.length = channels) (hchannels : 2 < channels) :
    ∃ pairs, frames.mapM (foldFrame channels) = some pairs ∧
      pairs.flatten.length = 2 * frames.length := by
  induction frames with
  | nil => exact ⟨[], rfl, rfl⟩
  | cons frame frames ih =>
    obtain ⟨left, right, hpair⟩ := foldFrame_pair (hframes frame List.mem_cons_self) hchannels
    obtain ⟨pairs, hpairs, hlength⟩ :=
      ih fun frame hmem => hframes frame (List.mem_cons_of_mem _ hmem)
    refine ⟨[left, right] :: pairs, ?_, ?_⟩
    · rw [List.mapM_cons, hpair, hpairs]
      rfl
    · rw [List.flatten_cons, List.length_append, hlength, List.length_cons]
      simp only [List.length_cons, List.length_nil]
      omega

/-- A folded pair is the fold of one of the frames. -/
theorem exists_frame_of_mem {frames pairs : List (List F)} {pair : List F}
    (h : frames.mapM (foldFrame channels) = some pairs) (hpair : pair ∈ pairs) :
    ∃ frame ∈ frames, foldFrame channels frame = some pair := by
  induction frames generalizing pairs with
  | nil =>
    cases h
    exact absurd hpair List.not_mem_nil
  | cons frame frames ih =>
    rw [List.mapM_cons] at h
    simp only [Option.bind_eq_bind, Option.pure_def, Option.bind_eq_some_iff] at h
    obtain ⟨first, hfirst, rest, hrest, heq⟩ := h
    cases heq
    obtain rfl | hmem := List.mem_cons.mp hpair
    · exact ⟨frame, List.mem_cons_self, hfirst⟩
    · obtain ⟨frame', hframe', hfold⟩ := ih hrest hmem
      exact ⟨frame', List.mem_cons_of_mem _ hframe', hfold⟩

/-- Every downmix returns, and with one pair for each whole frame if the input is no stereo. -/
theorem downmixToStereo_isSome (input : List F) (channels : ℕ) :
    ∃ output, downmixToStereo input channels = some output ∧
      output.length = if channels = 2 then input.length else 2 * (input.length / channels) := by
  unfold downmixToStereo
  match channels with
  | 0 => exact ⟨[], rfl, by simp⟩
  | 1 =>
    refine ⟨_, rfl, ?_⟩
    simp [List.length_flatMap, Nat.mul_comm]
  | 2 => exact ⟨input, rfl, rfl⟩
  | channels + 3 =>
    have hframes : ∀ frame ∈ chunksExact (channels + 3) input, frame.length = channels + 3 :=
      fun _ => length_of_mem_chunksExact
    obtain ⟨pairs, hpairs, hlength⟩ := mapM_foldFrame hframes (by omega)
    refine ⟨pairs.flatten, ?_, ?_⟩
    · rw [if_neg (Nat.succ_ne_zero _)]
      dsimp only
      rw [hpairs]
      rfl
    · rw [hlength, length_chunksExact, if_neg (by omega)]

end Downmix

section Bound

variable {channels : ℕ} {frame input : List Exact} {M : ℝ}

/-- Both sides are at most `weight` times the bound. -/
def Within (M weight : ℝ) (sides : Exact × Exact) : Prop :=
  |sides.1.val| ≤ weight * M ∧ |sides.2.val| ≤ weight * M

/-- A sample added with a weight adds that weight to the bound. -/
theorem abs_weighted_le {side x w : Exact} {total : ℝ} (hside : |side.val| ≤ total * M)
    (hx : |x.val| ≤ M) (hw : 0 ≤ w.val) : |(side + x * w).val| ≤ (total + w.val) * M := by
  calc |(side + x * w).val| ≤ |side.val| + |x.val * w.val| := abs_add_le _ _
    _ = |side.val| + |x.val| * w.val := by rw [abs_mul, abs_of_nonneg hw]
    _ ≤ total * M + M * w.val := add_le_add hside (mul_le_mul_of_nonneg_right hx hw)
    _ = (total + w.val) * M := by ring

theorem addChannels_within (hframe : ∀ x ∈ frame, |x.val| ≤ M) {i j : ℕ} {w : Exact}
    (hw : 0 ≤ w.val) {present : Bool} {sides sides' : Exact × Exact} {total : ℝ}
    (hsides : Within M total sides)
    (h : addChannels frame i j w present sides = some sides') :
    Within M (total + if present then w.val else 0) sides' := by
  unfold addChannels at h
  cases present with
  | false =>
    cases h
    simpa using hsides
  | true =>
    simp only [if_true, Option.bind_eq_bind, Option.pure_def, Option.bind_eq_some_iff] at h
    obtain ⟨x, hx, y, hy, heq⟩ := h
    cases heq
    exact ⟨abs_weighted_le hsides.1 (hframe x (List.mem_of_getElem? hx)) hw,
      abs_weighted_le hsides.2 (hframe y (List.mem_of_getElem? hy)) hw⟩

/-- The weights that a fold adds are those that it divides out. -/
theorem downmixNorm_val (channels : ℕ) : (downmixNorm channels : Exact).val =
    1 + 0.707 + (if 4 ≤ channels then 0.3 else 0) + (if 6 ≤ channels then 0.707 else 0) +
      (if 8 ≤ channels then 0.707 else 0) := by
  unfold downmixNorm
  by_cases h4 : 4 ≤ channels
  · by_cases h6 : 6 ≤ channels
    · by_cases h8 : 8 ≤ channels
      · simp only [h4, h6, h8, if_true, Exact.add_val, Exact.literal_val]
        norm_num
      · simp only [h4, h6, h8, if_true, if_false, Exact.add_val, Exact.literal_val]
        norm_num
    · have h8 : ¬8 ≤ channels := by omega
      simp only [h4, h6, h8, if_true, if_false, Exact.add_val, Exact.literal_val]
      norm_num
  · have h6 : ¬6 ≤ channels := by omega
    have h8 : ¬8 ≤ channels := by omega
    simp only [h4, h6, h8, if_false, Exact.add_val, Exact.literal_val]
    norm_num

/-- A folded pair is at most as large as the samples folded. -/
theorem foldFrame_bounded {pair : List Exact} (hframe : ∀ x ∈ frame, |x.val| ≤ M)
    (h : foldFrame channels frame = some pair) : ∀ y ∈ pair, |y.val| ≤ M := by
  unfold foldFrame at h
  simp only [Option.bind_eq_bind, Option.pure_def, Option.bind_eq_some_iff] at h
  obtain ⟨left, hleft, right, hright, front, hfront, rear, hrear, sides, hsides, heq⟩ := h
  cases heq
  have hM : 0 ≤ M := (abs_nonneg _).trans (hframe left (List.mem_of_getElem? hleft))
  have hcenter : |((frame[2]?).getD (0.0 : Exact)).val| ≤ M := by
    cases hget : frame[2]? with
    | none => simpa using hM
    | some x => exact hframe x (List.mem_of_getElem? hget)
  have hfirst : Within M (1 + (0.707 : Exact).val)
      (left + (frame[2]?).getD 0.0 * 0.707, right + (frame[2]?).getD 0.0 * 0.707) := by
    have hone : ∀ x ∈ frame, |x.val| ≤ 1 * M := by simpa using hframe
    have hw : 0 ≤ (0.707 : Exact).val := by rw [Exact.literal_val]; positivity
    exact ⟨abs_weighted_le (hone left (List.mem_of_getElem? hleft)) hcenter hw,
      abs_weighted_le (hone right (List.mem_of_getElem? hright)) hcenter hw⟩
  have hlast := addChannels_within hframe (by rw [Exact.literal_val]; positivity)
    (addChannels_within hframe (by rw [Exact.literal_val]; positivity)
      (addChannels_within hframe (by rw [Exact.literal_val]; positivity) hfirst hfront) hrear)
    hsides
  have hnorm := downmixNorm_val channels
  have hpos : 0 < (downmixNorm channels : Exact).val := by
    rw [hnorm]
    positivity
  have htotal : Within M (downmixNorm channels : Exact).val sides := by
    convert hlast using 1
    rw [hnorm]
    simp only [Exact.literal_val, decide_eq_true_eq]
    norm_num
  intro y hy
  have hdivided : ∀ side : Exact, |side.val| ≤ (downmixNorm channels : Exact).val * M →
      |(side / downmixNorm channels).val| ≤ M := by
    intro side hside
    rw [Exact.div_val, abs_div, abs_of_pos hpos, div_le_iff₀ hpos, mul_comm]
    exact hside
  obtain rfl | hy := List.mem_cons.mp hy
  · exact hdivided _ htotal.1
  · rw [List.mem_singleton.mp hy]
    exact hdivided _ htotal.2

/-- No output sample is louder than every input sample. -/
def NeverLouder (input : List Exact) (channels : ℕ) : Prop :=
  ∀ output, downmixToStereo input channels = some output →
    ∀ y ∈ output, ∃ x ∈ input, |y.val| ≤ |x.val|

/-- No layout can clip. -/
theorem neverLouder (input : List Exact) (channels : ℕ) : NeverLouder input channels := by
  intro output h y hy
  unfold downmixToStereo at h
  match channels with
  | 0 =>
    cases h
    exact absurd hy List.not_mem_nil
  | 1 =>
    cases h
    obtain ⟨s, hs, hmem⟩ := List.mem_flatMap.mp hy
    have heq : y = s := by simpa using hmem
    exact ⟨s, List.mem_of_mem_take hs, (congrArg (|·.val|) heq).le⟩
  | 2 =>
    cases h
    exact ⟨y, hy, le_rfl⟩
  | channels + 3 =>
    rw [if_neg (Nat.succ_ne_zero _)] at h
    obtain ⟨pairs, hpairs, heq⟩ := Option.map_eq_some_iff.mp h
    cases heq
    obtain ⟨pair, hpair, hmem⟩ := List.mem_flatten.mp hy
    obtain ⟨frame, hframe, hfold⟩ := exists_frame_of_mem hpairs hpair
    -- the loudest sample of the frame bounds the pair
    have hlength := length_of_mem_chunksExact hframe
    have hnonempty : {x | x ∈ frame}.Nonempty :=
      List.exists_mem_of_length_pos (by omega)
    obtain ⟨x, hx, hmax⟩ :=
      Set.exists_max_image {x | x ∈ frame} (|·.val|) frame.finite_toSet hnonempty
    exact ⟨x, mem_of_mem_chunksExact hframe hx, foldFrame_bounded hmax hfold y hmem⟩

end Bound

section Shape

variable {F : Type} [Binary32 F]

/-- The output is one pair for each whole frame. -/
def PairPerFrame (input : List F) (channels : ℕ) : Prop :=
  ∃ output, downmixToStereo input channels = some output ∧
    output.length = 2 * (input.length / channels)

theorem pairPerFrame_iff (input : List F) (channels : ℕ) :
    PairPerFrame input channels ↔ (channels = 2 → input.length % 2 = 0) := by
  obtain ⟨output, heq, hlength⟩ := downmixToStereo_isSome input channels
  unfold PairPerFrame
  rw [heq]
  simp only [Option.some.injEq, exists_eq_left', hlength]
  by_cases hstereo : channels = 2
  · rw [if_pos hstereo, hstereo]
    omega
  · rw [if_neg hstereo]
    exact iff_of_true rfl fun h => absurd h hstereo

/-- The downmix has one pair for each whole frame and, read as exact numbers, no sample louder
than the input, exactly when stereo input ends with a whole frame. -/
theorem downmix_iff (value : F → ℝ) (input : List F) (channels : ℕ) :
    PairPerFrame input channels ∧ NeverLouder (input.map fun x => ⟨value x⟩) channels ↔
      (channels = 2 → input.length % 2 = 0) := by
  rw [pairPerFrame_iff]
  exact and_iff_left (neverLouder _ _)

/-- One sample of stereo input. -/
def halfPair : List SoftFloat := [0.5]

/-- The rest of stereo input is not dropped. -/
theorem not_downmix_halfPair :
    ¬(PairPerFrame halfPair 2 ∧ NeverLouder (halfPair.map fun x => ⟨x.toReal⟩) 2) := by
  rintro ⟨⟨output, heq, hlength⟩, -⟩
  cases heq
  exact absurd hlength (by decide)

end Shape

end Gemacast.Audio
