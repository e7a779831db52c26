import Gemacast.Core.Pursuit
import Gemacast.Jitter.Discipline

/-!
# Callbacks in a row

What one callback in adaptive mode does to each part of the controller, and the target and its
goal along a sequence of callbacks. The target pursues the goal: off its goal it is moved by
the ramp, and a target that is pressed to one side is committed to a new goal in the end.
-/

namespace Gemacast.Jitter

open Gemacast.Core

namespace TargetController

variable {F : Type} [Binary32 F] {c : TargetController} {config : JitterConfig F}
  {stats : JitterStats F} {rawTarget minDepth quantum : ℕ} {now start : Instant}

section Advance

/-- Settling keeps the goal, or probes below the target. -/
theorem settle_rampGoal (c : TargetController) (stats : JitterStats F) (quantum minDepth : ℕ)
    (now : Instant) :
    (c.settle stats quantum minDepth now).probeFloor = c.probeFloor ∧
      ((c.settle stats quantum minDepth now).rampGoal = c.rampGoal ∨
        c.effectiveTarget = c.rampGoal ∧ 0.2 < stats.stabilityRatio ∧
          minDepth < c.effectiveTarget ∧
          (c.settle stats quantum minDepth now).rampGoal < c.effectiveTarget ∧
          minDepth ≤ (c.settle stats quantum minDepth now).rampGoal) := by
  unfold settle
  split_ifs with hramp hprobe
  · exact ⟨c.ramp_spec.1, Or.inl c.ramp_spec.2.1⟩
  · obtain ⟨hfloor, -, hgoal⟩ := c.probeDown_spec stats quantum minDepth now
    refine ⟨hfloor, hgoal.imp_right fun ⟨hlower, habove⟩ => ?_⟩
    exact ⟨not_not.mp hramp, hprobe.1, hprobe.2.1, hlower, (le_max_left _ _).trans habove⟩
  · exact ⟨rfl, Or.inl rfl⟩

/-- Dwelling keeps the goal, or commits to the quantised target. -/
theorem dwelt_rampGoal (c : TargetController) (config : JitterConfig F)
    (rawTarget minDepth : ℕ) (now : Instant) :
    (c.dwelt config rawTarget minDepth now).rampGoal = c.rampGoal ∨
      ∃ falling, c.Commits config (quantizedTarget config rawTarget minDepth) falling ∧
        (c.dwelt config rawTarget minDepth now).rampGoal =
          max (quantizedTarget config rawTarget minDepth)
            (c.dwelt config rawTarget minDepth now).probeFloor := by
  obtain ⟨_, _, hrelaxed, -⟩ := c.relaxProbeFloor_eq (adaptiveQuantum config) minDepth now
  obtain ⟨hfloor, -, -⟩ := (c.relaxProbeFloor (adaptiveQuantum config) minDepth now).dwell_spec
    config (quantizedTarget config rawTarget minDepth)
  unfold dwelt
  rw [hfloor]
  rcases (c.relaxProbeFloor (adaptiveQuantum config) minDepth now).dwell_rampGoal config
    (quantizedTarget config rawTarget minDepth) with hkept | ⟨falling, hcommits, hgoal⟩
  · rw [hkept, hrelaxed]
    exact Or.inl rfl
  · refine Or.inr ⟨falling, ?_, hgoal⟩
    rw [hrelaxed] at hcommits
    exact hcommits

/-- A callback keeps the goal, commits to the quantised target, or probes below the target. -/
theorem advance_rampGoal (hadaptive : config.staticTargetMs = none) (c : TargetController)
    (stats : JitterStats F) (rawTarget minDepth : ℕ) (now : Instant) :
    (c.advance config stats rawTarget minDepth now).rampGoal = c.rampGoal ∨
      (∃ falling, c.Commits config (quantizedTarget config rawTarget minDepth) falling ∧
        (c.advance config stats rawTarget minDepth now).rampGoal =
          max (quantizedTarget config rawTarget minDepth)
            (c.advance config stats rawTarget minDepth now).probeFloor) ∨
      0.2 < stats.stabilityRatio ∧ minDepth < c.effectiveTarget ∧
        (c.advance config stats rawTarget minDepth now).rampGoal < c.effectiveTarget ∧
        minDepth ≤ (c.advance config stats rawTarget minDepth now).rampGoal := by
  rw [advance_eq hadaptive]
  obtain ⟨_, _, _, _, _, hdwelt, -⟩ := c.dwelt_eq config rawTarget minDepth now
  have htarget : (c.dwelt config rawTarget minDepth now).effectiveTarget = c.effectiveTarget := by
    rw [hdwelt]
  obtain ⟨hfloor, hsettled⟩ := (c.dwelt config rawTarget minDepth now).settle_rampGoal stats
    (adaptiveQuantum config) minDepth now
  rcases hsettled with hkept | ⟨-, hcalm, habove, hlower, hdepth⟩
  · rw [hkept]
    refine (c.dwelt_rampGoal config rawTarget minDepth now).imp_right fun ⟨f, hf, hgoal⟩ => ?_
    exact Or.inl ⟨f, hf, by rw [hgoal, hfloor]⟩
  · rw [htarget] at habove hlower
    exact Or.inr (Or.inr ⟨hcalm, habove, hlower, hdepth⟩)

end Advance

section Unrest

/-- A step of the ramp touches the target and its countdown only. -/
theorem ramp_eq (c : TargetController) :
    ∃ effectiveTarget rampCountdown, c.ramp = { c with effectiveTarget, rampCountdown } := by
  unfold ramp
  dsimp only
  split_ifs <;> exact ⟨_, _, rfl⟩

/-- Settling touches the target, the goal and the countdowns only. -/
theorem settle_eq (c : TargetController) (stats : JitterStats F) (quantum minDepth : ℕ)
    (now : Instant) :
    ∃ effectiveTarget rampGoal rampCountdown probeDownCountdown,
      c.settle stats quantum minDepth now =
        { c with effectiveTarget, rampGoal, rampCountdown, probeDownCountdown } := by
  unfold settle
  split_ifs
  · obtain ⟨_, _, heq⟩ := c.ramp_eq
    exact ⟨_, _, _, _, heq⟩
  · obtain ⟨_, _, heq⟩ := c.probeDown_eq stats quantum minDepth now
    exact ⟨_, _, _, _, heq⟩
  · exact ⟨_, _, _, _, rfl⟩

/-- What a callback does to the floor and its timer is what relaxing does. -/
theorem advance_floor (hadaptive : config.staticTargetMs = none) (c : TargetController)
    (stats : JitterStats F) (rawTarget minDepth : ℕ) (now : Instant) :
    (c.advance config stats rawTarget minDepth now).probeFloor =
        (c.relaxProbeFloor (adaptiveQuantum config) minDepth now).probeFloor ∧
      (c.advance config stats rawTarget minDepth now).lastFloorDecay =
        (c.relaxProbeFloor (adaptiveQuantum config) minDepth now).lastFloorDecay ∧
      (c.advance config stats rawTarget minDepth now).lastStarvation = c.lastStarvation := by
  obtain ⟨_, _, _, _, hsettle⟩ := (c.dwelt config rawTarget minDepth now).settle_eq stats
    (adaptiveQuantum config) minDepth now
  obtain ⟨_, _, _, hdwell⟩ := (c.relaxProbeFloor (adaptiveQuantum config) minDepth now).dwell_eq
    config (quantizedTarget config rawTarget minDepth)
  have hstarved : (c.relaxProbeFloor (adaptiveQuantum config) minDepth now).lastStarvation =
      c.lastStarvation := by
    obtain ⟨_, _, hrelaxed, -⟩ := c.relaxProbeFloor_eq (adaptiveQuantum config) minDepth now
    rw [hrelaxed]
  rw [advance_eq hadaptive, hsettle]
  unfold dwelt
  rw [hdwell]
  exact ⟨rfl, rfl, hstarved⟩

/-- A quantum is at least one frame. -/
theorem adaptiveQuantum_pos (config : JitterConfig F) : 0 < adaptiveQuantum config := by
  unfold adaptiveQuantum targetQuantum
  omega

/-- Whole seconds have passed. -/
theorem le_asSecs {now earlier secs : ℕ} (h : earlier + Duration.fromSecs secs ≤ now) :
    secs ≤ (Instant.durationSince now earlier).asSecs := by
  unfold Instant.durationSince Duration.asSecs
  unfold Duration.fromSecs at h
  omega

/-- A floor above the configured one is lowered, unless a starvation or the last relaxation is
too recent. -/
theorem relaxProbeFloor_due (hquantum : 0 < quantum) (hfloor : minDepth < c.probeFloor)
    (hstarved : ∀ t ∈ c.lastStarvation, t + Duration.fromSecs floorHoldSecs ≤ now)
    (hdecayed : c.lastFloorDecay + Duration.fromSecs floorDecaySecs ≤ now) :
    (c.relaxProbeFloor quantum minDepth now).probeFloor < c.probeFloor := by
  have hheld : ¬(c.lastStarvation.any fun t =>
      (now.durationSince t).asSecs < floorHoldSecs) = true := by
    rw [Option.any_eq_true]
    rintro ⟨t, ht, hrecent⟩
    exact absurd (le_asSecs (hstarved t ht)) (Nat.not_le.mpr (of_decide_eq_true hrecent))
  have hwait : ¬(now.durationSince c.lastFloorDecay).asSecs < floorDecaySecs :=
    Nat.not_lt.mpr (le_asSecs hdecayed)
  unfold relaxProbeFloor
  rw [if_neg (by omega), if_neg hheld, if_neg hwait]
  dsimp only
  omega

/-- A floor that is not lowered keeps its timer. -/
theorem relaxProbeFloor_kept (hquantum : 0 < quantum) (hfloor : minDepth < c.probeFloor)
    (hkept : (c.relaxProbeFloor quantum minDepth now).probeFloor = c.probeFloor) :
    (c.relaxProbeFloor quantum minDepth now).lastFloorDecay = c.lastFloorDecay := by
  unfold relaxProbeFloor at hkept ⊢
  split_ifs at hkept ⊢
  · rfl
  · rfl
  · rfl
  · dsimp only at hkept
    omega

/-- Off its goal the callback takes a step of the ramp. -/
theorem advance_of_ramping (hadaptive : config.staticTargetMs = none) (stats : JitterStats F)
    (h : (c.dwelt config rawTarget minDepth now).rampGoal ≠ c.effectiveTarget) :
    c.advance config stats rawTarget minDepth now =
      (c.dwelt config rawTarget minDepth now).ramp := by
  have htarget : (c.dwelt config rawTarget minDepth now).effectiveTarget = c.effectiveTarget := by
    obtain ⟨_, _, _, _, _, heq, -⟩ := c.dwelt_eq config rawTarget minDepth now
    rw [heq]
  rw [advance_eq hadaptive]
  exact if_pos (by rw [htarget]; exact h.symm)

/-- A step of the ramp that is due moves the target, unless it falls onto the floor. -/
theorem ramp_moves (hdue : c.rampCountdown = 0) (hoff : c.rampGoal ≠ c.effectiveTarget)
    (hfloor : c.rampGoal < c.effectiveTarget → c.probeFloor < c.effectiveTarget) :
    c.ramp.effectiveTarget ≠ c.effectiveTarget := by
  unfold ramp
  rw [if_pos hdue]
  split_ifs with hup
  · dsimp only [rampUpStep]
    omega
  · dsimp only
    omega

/-- A step of the ramp that is not due comes closer. -/
theorem ramp_waits (hdue : c.rampCountdown ≠ 0) : c.ramp.rampCountdown < c.rampCountdown := by
  unfold ramp
  rw [if_neg hdue]
  dsimp only
  omega

/-- A multiple of the quantum is found below every positive depth. -/
theorem quantizeTarget_lt {depth : ℕ} (hquantum : 0 < quantum) (hdepth : 0 < depth) :
    quantizeTarget (depth - quantum) quantum < depth := by
  unfold quantizeTarget
  rw [if_neg (by omega)]
  by_cases hle : quantum ≤ depth
  · have hdown := Nat.div_mul_le_self (depth - quantum + quantum / 2) quantum
    omega
  · have hzero : (depth - quantum + quantum / 2) / quantum = 0 :=
      Nat.div_eq_of_lt (by omega)
    rw [hzero]
    omega

/-- A probe lowers the goal below the target when it is due, and comes closer otherwise. -/
theorem probeDown_due (stats : JitterStats F) (now : Instant) (hquantum : 0 < quantum)
    (hdepth : minDepth < c.effectiveTarget) (hfloor : c.probeFloor ≤ minDepth) :
    (c.probeDown stats quantum minDepth now).rampGoal < c.effectiveTarget ∨
      c.probeDownCountdown ≠ 0 ∧
        (c.probeDown stats quantum minDepth now).probeDownCountdown < c.probeDownCountdown := by
  have hlower := quantizeTarget_lt hquantum (Nat.zero_lt_of_lt hdepth)
  unfold probeDown
  dsimp only
  by_cases hdue : c.probeDownCountdown - 1 = 0
  · rw [if_pos hdue]
    refine Or.inl ?_
    dsimp only
    rw [if_pos (by omega)]
    omega
  · rw [if_neg hdue]
    refine Or.inr ⟨by omega, ?_⟩
    dsimp only
    omega

/-- A callback that presses to a side and does not commit counts. -/
theorem advance_counts (hadaptive : config.staticTargetMs = none) (stats : JitterStats F)
    {falling : Bool}
    (hpress : Presses config (quantizedTarget config rawTarget minDepth) c.effectiveTarget falling)
    (hwait : c.evidence falling < dwellOf config falling) :
    (c.advance config stats rawTarget minDepth now).evidence falling =
      c.evidence falling + 1 := by
  have hpos : c.evidence falling ≠ 0 := by
    unfold evidence
    split_ifs <;> omega
  have hdwelt : (c.dwelt config rawTarget minDepth now).targetExitCount = c.evidence falling ∧
      (c.dwelt config rawTarget minDepth now).exitFalling = falling := by
    obtain ⟨htarget, hevidence⟩ := c.relaxProbeFloor_evidence (adaptiveQuantum config) minDepth now
    unfold dwelt
    rw [dwell_of_presses (htarget.symm ▸ hpress), hevidence, if_neg (Nat.not_le.mpr hwait)]
    exact ⟨rfl, rfl⟩
  obtain ⟨hcount, hside⟩ := (c.dwelt config rawTarget minDepth now).settle_evidence stats
    (adaptiveQuantum config) minDepth now
  rw [advance_eq hadaptive]
  generalize (c.dwelt config rawTarget minDepth now).settle stats (adaptiveQuantum config)
    minDepth now = settled at *
  have hlast : settled.targetExitCount = c.evidence falling := hcount.trans hdwelt.1
  have hsame : settled.exitFalling = falling := hside.trans hdwelt.2
  generalize c.evidence falling = count at *
  unfold evidence
  rw [hlast, hsame, if_neg (by simp [hpos])]

/-- A callback that commits has the quantised target for its goal, or the floor above it. -/
theorem dwelt_of_commits {falling : Bool}
    (h : c.Commits config (quantizedTarget config rawTarget minDepth) falling) :
    (c.dwelt config rawTarget minDepth now).rampGoal =
      max (quantizedTarget config rawTarget minDepth)
        (c.dwelt config rawTarget minDepth now).probeFloor := by
  obtain ⟨htarget, hevidence⟩ := c.relaxProbeFloor_evidence (adaptiveQuantum config) minDepth now
  obtain ⟨hpress, hdue⟩ := h
  unfold dwelt
  rw [dwell_of_presses (htarget.symm ▸ hpress), hevidence, if_pos hdue]

end Unrest

end TargetController

/-- Callbacks of an adaptive controller, one after the other. -/
structure DepthTrace (F : Type) [Binary32 F] where
  /-- The configuration in force. -/
  config : JitterConfig F
  /-- The controller before the first callback. -/
  first : TargetController
  /-- The statistics at each callback. -/
  stats : ℕ → JitterStats F
  /-- The raw target at each callback. -/
  rawTarget : ℕ → ℕ
  /-- The instant of each callback. -/
  now : ℕ → Instant
  /-- The target is computed from the statistics. -/
  adaptive : config.staticTargetMs = none

namespace DepthTrace

variable {F : Type} [Binary32 F] {t : DepthTrace F} {n k level : ℕ}

/-- The configured floor, in frames. -/
def minDepth (t : DepthTrace F) : ℕ := TargetController.minDepthFrames t.config

/-- The dead zone around the target, in frames. -/
def hysteresis (t : DepthTrace F) : ℕ := TargetController.adaptiveHysteresis t.config

/-- The quantised target of a callback. -/
def quantized (t : DepthTrace F) (n : ℕ) : ℕ :=
  TargetController.quantizedTarget t.config (t.rawTarget n) t.minDepth

/-- The controller after `n` callbacks. -/
def control (t : DepthTrace F) : ℕ → TargetController
  | 0 => t.first
  | n + 1 => (t.control n).advance t.config (t.stats n) (t.rawTarget n) t.minDepth (t.now n)

/-- The controller once callback `n` has dwelt. -/
def dwelt (t : DepthTrace F) (n : ℕ) : TargetController :=
  (t.control n).dwelt t.config (t.rawTarget n) t.minDepth (t.now n)

/-- The target after `n` callbacks. -/
def target (t : DepthTrace F) (n : ℕ) : ℕ := (t.control n).effectiveTarget

/-- The goal after `n` callbacks. -/
def goal (t : DepthTrace F) (n : ℕ) : ℕ := (t.control n).rampGoal

/-- The bounds that hold of every adaptive controller. -/
def Within (t : DepthTrace F) : Prop :=
  t.first.Bounded t.minDepth (TargetController.comfortCap t.config)

/-- The callbacks as calls of the controller. -/
def advances (t : DepthTrace F) (n : ℕ) : List (DepthCall F) :=
  (List.range n).map fun i => .advance (t.stats i) (t.rawTarget i) (t.now i)

section Runs

/-- The callbacks are calls of the controller. -/
theorem runFrom_advances (M : Machine (DepthDrive F) (DepthCall F) ℕ)
    (hM : M.step = DepthDrive.step)
    (t : DepthTrace F) (n : ℕ) :
    M.runFrom ⟨t.config, t.first⟩ (t.advances n) = ⟨t.config, t.control n⟩ := by
  induction n with
  | zero => rfl
  | succ n ih =>
    have hmore : t.advances (n + 1) =
        t.advances n ++ [.advance (t.stats n) (t.rawTarget n) (t.now n)] := by
      unfold advances
      rw [List.range_succ, List.map_append]
      rfl
    rw [hmore, Machine.runFrom_append, ih, Machine.runFrom_cons, Machine.runFrom_nil, hM]
    rfl

/-- A controller that was driven to the first callback is within the bounds. -/
theorem within_of_run (config : JitterConfig F) (clock : Instant) (calls : List (DepthCall F))
    (h : (DepthDrive.machine config clock).run calls = ⟨t.config, t.first⟩) : t.Within := by
  have hbounded := DepthDrive.depth_bounded config clock calls (by rw [h]; exact t.adaptive)
  rw [h] at hbounded
  exact hbounded

end Runs

section Steps

theorem minDepth_le_quantized (t : DepthTrace F) (n : ℕ) : t.minDepth ≤ t.quantized n := by
  unfold quantized TargetController.quantizedTarget
  omega

/-- A callback follows the raw target. -/
theorem control_follows (t : DepthTrace F) (n : ℕ) :
    TargetController.Follows t.minDepth (TargetController.comfortCap t.config) (t.control n)
      (t.control (n + 1)) :=
  TargetController.advance_follows t.adaptive (t.control n) (t.stats n) (t.rawTarget n) t.minDepth
    (t.now n)

/-- The bounds hold along the callbacks. -/
theorem control_within (ht : t.Within) (n : ℕ) :
    (t.control n).Bounded t.minDepth (TargetController.comfortCap t.config) := by
  induction n with
  | zero => exact ht
  | succ n ih => exact (t.control_follows n).bounded ih

theorem target_le (ht : t.Within) (n : ℕ) :
    t.target n ≤ max (TargetController.comfortCap t.config) (max t.minDepth 2) :=
  (control_within ht n).target_le

/-- The target pursues the goal. -/
theorem pursues (ht : t.Within) : Pursues t.target t.goal := by
  refine ⟨fun n hup => ?_, fun n hdown => ?_⟩
  · obtain ⟨-, -, htarget⟩ := t.control_follows n
    unfold target goal at *
    omega
  · obtain ⟨hle, -, htarget⟩ := t.control_follows n
    have hfloor := (control_within ht n).floor_le_target
    unfold target goal at *
    omega

/-- Dwelling touches the goal and the evidence, and lowers the floor at most. -/
theorem dwelt_same (t : DepthTrace F) (n : ℕ) :
    (t.dwelt n).effectiveTarget = t.target n ∧
      (t.dwelt n).rampCountdown = (t.control n).rampCountdown ∧
      (t.dwelt n).probeDownCountdown = (t.control n).probeDownCountdown ∧
      (t.dwelt n).probeFloor ≤ (t.control n).probeFloor := by
  obtain ⟨_, _, _, _, _, heq, hle⟩ :=
    (t.control n).dwelt_eq t.config (t.rawTarget n) t.minDepth (t.now n)
  unfold dwelt
  rw [heq]
  exact ⟨rfl, rfl, rfl, hle⟩

/-- Then the callback settles. -/
theorem control_settle (t : DepthTrace F) (n : ℕ) :
    t.control (n + 1) = (t.dwelt n).settle (t.stats n) (TargetController.adaptiveQuantum t.config)
      t.minDepth (t.now n) :=
  TargetController.advance_eq t.adaptive (t.control n) (t.stats n) (t.rawTarget n) t.minDepth
    (t.now n)

/-- The goal is kept, committed to, or probed down. -/
theorem goal_succ (t : DepthTrace F) (n : ℕ) :
    t.goal (n + 1) = t.goal n ∨
      (∃ falling, (t.control n).Commits t.config (t.quantized n) falling ∧
        t.goal (n + 1) = max (t.quantized n) (t.control (n + 1)).probeFloor) ∨
      0.2 < (t.stats n).stabilityRatio ∧ t.minDepth < t.target n ∧
        t.goal (n + 1) < t.target n ∧ t.minDepth ≤ t.goal (n + 1) :=
  TargetController.advance_rampGoal t.adaptive (t.control n) (t.stats n) (t.rawTarget n) t.minDepth
    (t.now n)

/-- Once the goal honours the configured floor it goes on to. -/
theorem goal_minDepth (h : t.minDepth ≤ t.goal k) (hn : k ≤ n) : t.minDepth ≤ t.goal n := by
  induction n, hn using Nat.le_induction with
  | base => exact h
  | succ n _ ih =>
    have hle := t.minDepth_le_quantized n
    rcases t.goal_succ n with hkept | ⟨_, -, hgoal⟩ | ⟨-, -, -, hdepth⟩ <;> omega

/-- Once target and goal honour the configured floor the target goes on to. -/
theorem target_minDepth (ht : t.Within) (htarget : t.minDepth ≤ t.target k)
    (hgoal : t.minDepth ≤ t.goal (k + 1)) (hn : k ≤ n) : t.minDepth ≤ t.target n := by
  induction n, hn using Nat.le_induction with
  | base => exact htarget
  | succ n hn ih =>
    have hlater := goal_minDepth hgoal (Nat.succ_le_succ hn)
    by_cases hup : t.target n < t.goal (n + 1)
    · exact ih.trans ((pursues ht).up n hup).1
    · exact hlater.trans ((pursues ht).down n (Nat.le_of_not_lt hup)).1

/-- Off its goal the target is left to the ramp. -/
theorem control_of_ramping (h : (t.dwelt n).rampGoal ≠ t.target n) :
    t.control (n + 1) = (t.dwelt n).ramp :=
  TargetController.advance_of_ramping t.adaptive (t.stats n) h

/-- The ramp keeps the goal. -/
theorem goal_of_ramping (h : (t.dwelt n).rampGoal ≠ t.target n) :
    t.goal (n + 1) = (t.dwelt n).rampGoal := by
  unfold goal
  rw [control_of_ramping h]
  exact (t.dwelt n).ramp_spec.2.1

end Steps

section Progress

/-- Off its goal the target does not rest: the ramp moves it. -/
theorem not_rests_of_ramping (hrest : ∀ n ≥ k, t.target n = level)
    (hfloor : ∀ n ≥ k, (t.dwelt n).rampGoal < level → (t.control n).probeFloor < level)
    (hoff : ∀ n ≥ k, (t.dwelt n).rampGoal ≠ level) : False := by
  have hstep : ∀ n ≥ k, t.control (n + 1) = (t.dwelt n).ramp := by
    intro n hn
    apply control_of_ramping
    rw [hrest n hn]
    exact hoff n hn
  obtain ⟨n, hn, hdue⟩ := exists_eq_zero_of_countdown
    (f := fun n => (t.control n).rampCountdown) (k := k) (by
      intro n hn hwait
      obtain ⟨-, hcountdown, -⟩ := t.dwelt_same n
      rw [hstep n hn, ← hcountdown]
      exact TargetController.ramp_waits (hcountdown ▸ hwait))
  obtain ⟨htarget, hcountdown, -, hle⟩ := t.dwelt_same n
  rw [hrest n hn] at htarget
  refine TargetController.ramp_moves (c := t.dwelt n) (hcountdown.trans hdue)
    (htarget.symm ▸ hoff n hn) (fun hdown => ?_) ?_
  · rw [htarget] at hdown ⊢
    exact lt_of_le_of_lt hle (hfloor n hn hdown)
  rw [← hstep n hn, htarget]
  exact hrest (n + 1) (Nat.le_succ_of_le hn)

/-- Callbacks that press the target to one side commit in the end. -/
theorem commits_of_presses (falling : Bool)
    (hpress : ∀ n ≥ k, TargetController.Presses t.config (t.quantized n) (t.target n) falling) :
    ∃ n ≥ k, (t.control n).Commits t.config (t.quantized n) falling := by
  obtain ⟨n, hn, hdue⟩ := exists_eq_zero_of_countdown
    (f := fun n => TargetController.dwellOf t.config falling - (t.control n).evidence falling)
    (k := k) (by
      intro n hn hwait
      have hcounts : (t.control (n + 1)).evidence falling = (t.control n).evidence falling + 1 :=
        TargetController.advance_counts t.adaptive (t.stats n) (hpress n hn) (by omega)
      omega)
  exact ⟨n, hn, hpress n hn, by omega⟩

end Progress

end DepthTrace

end Gemacast.Jitter
