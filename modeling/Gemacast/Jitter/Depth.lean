import Gemacast.Core.LawfulBinary32
import Gemacast.Jitter.Frames

/-!
# The depth controller as it is driven

The calls the manager makes on the controller, with the configuration in force. Along
every sequence of them an adaptive controller stays below its caps and above the floor
it learned; the configured floor is honoured from a state that honours it, as long as
no stream reset starts below it.
-/

set_option linter.unusedSectionVars false

namespace Gemacast.Jitter

open Gemacast.Core

/-- The controller and the configuration in force. -/
structure DepthDrive (F : Type) where
  /-- The configuration in force. -/
  config : JitterConfig F
  /-- The controller. -/
  control : TargetController

/-- A call on the controller. -/
inductive DepthCall (F : Type)
  /-- A callback follows a raw target. -/
  | advance (stats : JitterStats F) (rawTarget : ℕ) (now : Instant)
  /-- A starvation is over. -/
  | recover (stats : JitterStats F) (now : Instant)
  /-- The stream is reset. -/
  | reset
  /-- A configuration is taken over. -/
  | resetForConfig (config : JitterConfig F) (clock : Instant)

namespace DepthDrive

variable {F : Type} [Binary32 F] {d : DepthDrive F}

/-- The target is computed from the statistics. -/
def Adaptive (d : DepthDrive F) : Prop := d.config.staticTargetMs = none

/-- The configured floor, in frames. -/
def minDepth (d : DepthDrive F) : ℕ := TargetController.minDepthFrames d.config

/-- The configured cap, in frames. -/
def cap (d : DepthDrive F) : ℕ := TargetController.comfortCap d.config

/-- One call; the answer is the target in force after it. -/
def step (d : DepthDrive F) (call : DepthCall F) : DepthDrive F × ℕ :=
  let d :=
    match call with
    | .advance stats rawTarget now =>
      { d with control := d.control.advance d.config stats rawTarget d.minDepth now }
    | .recover stats now =>
      { d with
        control :=
          ((d.control.recordStarvation now).applyStarvationFloor d.config stats).jumpToFloor }
    | .reset => { d with control := d.control.reset }
    | .resetForConfig config clock => ⟨config, d.control.resetForConfig config clock⟩
  (d, d.control.effectiveTarget)

/-- The controller as a machine. -/
def machine (config : JitterConfig F) (clock : Instant) :
    Machine (DepthDrive F) (DepthCall F) ℕ where
  init := ⟨config, TargetController.new clock⟩
  step := step

end DepthDrive

namespace TargetController

variable {F : Type} [Binary32 F] {c : TargetController} {config : JitterConfig F}

section Steps

/-- The floor relaxes towards the configured floor and nothing else changes. -/
theorem relaxProbeFloor_spec (c : TargetController) (quantum minDepth : ℕ) (now : Instant) :
    (c.relaxProbeFloor quantum minDepth now).probeFloor ≤ c.probeFloor ∧
      (c.relaxProbeFloor quantum minDepth now).effectiveTarget = c.effectiveTarget ∧
      (c.relaxProbeFloor quantum minDepth now).rampGoal = c.rampGoal := by
  unfold relaxProbeFloor
  split_ifs
  · exact ⟨le_rfl, rfl, rfl⟩
  · exact ⟨le_rfl, rfl, rfl⟩
  · exact ⟨le_rfl, rfl, rfl⟩
  · exact ⟨by dsimp only; omega, rfl, rfl⟩

/-- The dwell may commit to a new goal and touches neither the target nor the floor. -/
theorem dwell_spec (c : TargetController) (config : JitterConfig F) (quantized : ℕ) :
    (c.dwell config quantized).probeFloor = c.probeFloor ∧
      (c.dwell config quantized).effectiveTarget = c.effectiveTarget ∧
      ((c.dwell config quantized).rampGoal = c.rampGoal ∨
        (c.dwell config quantized).rampGoal = max quantized c.probeFloor) := by
  unfold dwell
  dsimp only
  split_ifs <;> exact ⟨rfl, rfl, by simp⟩

/-- A step of the ramp approaches the goal, but never goes below the learned floor. -/
theorem ramp_spec (c : TargetController) :
    c.ramp.probeFloor = c.probeFloor ∧ c.ramp.rampGoal = c.rampGoal ∧
      (c.ramp.effectiveTarget = c.effectiveTarget ∨
        c.effectiveTarget < c.rampGoal ∧
          c.ramp.effectiveTarget = min (c.effectiveTarget + rampUpStep) c.rampGoal ∨
        c.rampGoal ≤ c.effectiveTarget ∧
          c.ramp.effectiveTarget = max (c.effectiveTarget - 1) c.probeFloor) := by
  unfold ramp
  dsimp only
  split_ifs with hdue hup
  · exact ⟨rfl, rfl, Or.inr (Or.inl ⟨hup, rfl⟩)⟩
  · exact ⟨rfl, rfl, Or.inr (Or.inr ⟨by omega, rfl⟩)⟩
  · exact ⟨rfl, rfl, Or.inl rfl⟩

/-- A probe lowers the goal, but neither below the configured nor the learned floor. -/
theorem probeDown_spec (c : TargetController) (stats : JitterStats F) (quantum minDepth : ℕ)
    (now : Instant) :
    (c.probeDown stats quantum minDepth now).probeFloor = c.probeFloor ∧
      (c.probeDown stats quantum minDepth now).effectiveTarget = c.effectiveTarget ∧
      ((c.probeDown stats quantum minDepth now).rampGoal = c.rampGoal ∨
        (c.probeDown stats quantum minDepth now).rampGoal < c.effectiveTarget ∧
          max minDepth c.probeFloor ≤ (c.probeDown stats quantum minDepth now).rampGoal) := by
  unfold probeDown
  dsimp only
  by_cases hdue : c.probeDownCountdown - 1 = 0
  · rw [if_pos hdue]
    by_cases hlower : max (max (quantizeTarget (c.effectiveTarget - quantum) quantum) minDepth)
        c.probeFloor < c.effectiveTarget
    · refine ⟨rfl, rfl, Or.inr ?_⟩
      dsimp only
      rw [if_pos hlower]
      exact ⟨hlower, by omega⟩
    · exact ⟨rfl, rfl, Or.inl (if_neg hlower)⟩
  · rw [if_neg hdue]
    exact ⟨rfl, rfl, Or.inl rfl⟩

/-- What one callback in adaptive mode can do to the target, the goal and the floor. -/
structure Follows (minDepth cap : ℕ) (c c' : TargetController) : Prop where
  floor_le : c'.probeFloor ≤ c.probeFloor
  /-- The goal stays, is committed to within the caps, or is probed down. -/
  goal : c'.rampGoal = c.rampGoal ∨
    minDepth ≤ c'.rampGoal ∧ c'.rampGoal ≤ max (max cap minDepth) c.probeFloor ∨
    minDepth ≤ c'.rampGoal ∧ c'.rampGoal < c.effectiveTarget
  /-- The target stays, rises towards the goal, or falls towards it. -/
  target : c'.effectiveTarget = c.effectiveTarget ∨
    c.effectiveTarget < c'.rampGoal ∧ c.effectiveTarget ≤ c'.effectiveTarget ∧
      c'.effectiveTarget ≤ c'.rampGoal ∨
    c'.rampGoal < c.effectiveTarget ∧
      c'.effectiveTarget = max (c.effectiveTarget - 1) c'.probeFloor

/-- In adaptive mode a callback follows the raw target within the caps. -/
theorem advance_follows (hadaptive : config.staticTargetMs = none) (c : TargetController)
    (stats : JitterStats F) (rawTarget minDepth : ℕ) (now : Instant) :
    Follows minDepth (comfortCap config) c (c.advance config stats rawTarget minDepth now) := by
  unfold advance
  rw [hadaptive]
  dsimp only
  obtain ⟨quantized, hlow, hhigh, hquantized⟩ : ∃ quantized, minDepth ≤ quantized ∧
      quantized ≤ max (comfortCap config) minDepth ∧
      min (max (quantizeTarget rawTarget (adaptiveQuantum config)) minDepth)
        (max (comfortCap config) minDepth) = quantized :=
    ⟨_, by omega, by omega, rfl⟩
  rw [hquantized]
  obtain ⟨hfloor, htarget, hgoal⟩ :=
    c.relaxProbeFloor_spec (adaptiveQuantum config) minDepth now
  generalize c.relaxProbeFloor (adaptiveQuantum config) minDepth now = relaxed at *
  obtain ⟨hfloor', htarget', hgoal'⟩ := relaxed.dwell_spec config quantized
  generalize relaxed.dwell config quantized = dwelt at *
  have hdwelt : dwelt.rampGoal = c.rampGoal ∨
      minDepth ≤ dwelt.rampGoal ∧
        dwelt.rampGoal ≤ max (max (comfortCap config) minDepth) c.probeFloor := by
    rcases hgoal' with hsame | hcommit
    · exact Or.inl (hsame.trans hgoal)
    · rw [hcommit]
      exact Or.inr ⟨by omega, by omega⟩
  split_ifs with hramp hprobe
  · obtain ⟨hfloor'', hgoal'', hramped⟩ := dwelt.ramp_spec
    generalize dwelt.ramp = ramped at *
    refine ⟨by omega, ?_, ?_⟩
    · rw [hgoal'']
      exact hdwelt.imp_right Or.inl
    · rw [hgoal'', hfloor'']
      rcases hramped with hsame | ⟨hup, hrise⟩ | ⟨hdown, hfall⟩
      · exact Or.inl (by omega)
      · exact Or.inr (Or.inl ⟨by omega, by omega, by omega⟩)
      · exact Or.inr (Or.inr ⟨by omega, by omega⟩)
  · obtain ⟨hfloor'', htarget'', hprobed⟩ :=
      dwelt.probeDown_spec stats (adaptiveQuantum config) minDepth now
    generalize dwelt.probeDown stats (adaptiveQuantum config) minDepth now = probed at *
    refine ⟨by omega, ?_, Or.inl (by omega)⟩
    rcases hprobed with hsame | ⟨hlower, habove⟩
    · rw [hsame]
      exact hdwelt.imp_right Or.inl
    · exact Or.inr (Or.inr ⟨by omega, by omega⟩)
  · exact ⟨by omega, hdwelt.imp_right Or.inl, Or.inl (by omega)⟩

/-- After a starvation the floor is raised within half the cap, and the target and the
goal are at least lifted to it. -/
theorem recover_spec (c : TargetController) (config : JitterConfig F) (stats : JitterStats F)
    (now : Instant) :
    let c' := ((c.recordStarvation now).applyStarvationFloor config stats).jumpToFloor
    c'.probeFloor ≤ max c.probeFloor (max (comfortCap config / 2) 1) ∧
      (c'.effectiveTarget = c.effectiveTarget ∧ c'.rampGoal = c.rampGoal ∧
          c'.probeFloor ≤ c.effectiveTarget ∨
        c.effectiveTarget < c'.probeFloor ∧ c'.effectiveTarget = c'.probeFloor ∧
          c'.rampGoal = c'.probeFloor) := by
  have hfloor : ((c.recordStarvation now).applyStarvationFloor config stats).probeFloor ≤
        max c.probeFloor (max (comfortCap config / 2) 1) ∧
      ((c.recordStarvation now).applyStarvationFloor config stats).effectiveTarget =
        c.effectiveTarget ∧
      ((c.recordStarvation now).applyStarvationFloor config stats).rampGoal = c.rampGoal := by
    unfold applyStarvationFloor
    dsimp only
    split_ifs
    · exact ⟨le_max_left _ _, rfl, rfl⟩
    · exact ⟨by dsimp only; omega, rfl, rfl⟩
  obtain ⟨hle, htarget, hgoal⟩ := hfloor
  generalize (c.recordStarvation now).applyStarvationFloor config stats = raised at *
  intro c'
  by_cases hjump : raised.effectiveTarget < raised.probeFloor
  · have hc : c' = { raised with
        effectiveTarget := raised.probeFloor, rampGoal := raised.probeFloor
        targetExitCount := 0 } := if_pos hjump
    rw [hc]
    exact ⟨hle, Or.inr ⟨by dsimp only; omega, rfl, rfl⟩⟩
  · have hc : c' = raised := if_neg hjump
    rw [hc]
    exact ⟨hle, Or.inl ⟨htarget, hgoal, by omega⟩⟩

end Steps

section Bounds

/-- The learned floor stays within half the cap, the target above the floor and, with the
goal, below the caps. -/
structure Bounded (minDepth cap : ℕ) (c : TargetController) : Prop where
  floor_le : c.probeFloor ≤ max (cap / 2) 1
  floor_le_target : c.probeFloor ≤ c.effectiveTarget
  target_le : c.effectiveTarget ≤ max cap (max minDepth 2)
  goal_le : c.rampGoal ≤ max cap (max minDepth 2)
  /-- The learned floor alone stays below the cap. -/
  floor_lt : c.probeFloor < max cap 2

/-- The configured floor is honoured, now and by the goal. -/
structure Honours (minDepth : ℕ) (c : TargetController) : Prop where
  target : minDepth ≤ c.effectiveTarget
  goal : minDepth ≤ c.rampGoal

variable {minDepth cap : ℕ} {c' : TargetController}

theorem Follows.bounded (h : Follows minDepth cap c c') (hc : c.Bounded minDepth cap) :
    c'.Bounded minDepth cap := by
  obtain ⟨hfloor, hbelow, htarget, hgoal, hlt⟩ := hc
  obtain ⟨hfloor', hgoal', htarget'⟩ := h
  have hle : c'.rampGoal ≤ max cap (max minDepth 2) := by omega
  refine ⟨by omega, ?_, ?_, hle, by omega⟩
  · rcases htarget' with hsame | ⟨_, hrise, _⟩ | ⟨_, hfall⟩ <;> omega
  · rcases htarget' with hsame | ⟨_, _, hrise⟩ | ⟨_, hfall⟩ <;> omega

theorem Follows.honours (h : Follows minDepth cap c c') (hc : c.Honours minDepth) :
    c'.Honours minDepth := by
  obtain ⟨htarget, hgoal⟩ := hc
  obtain ⟨_, hgoal', htarget'⟩ := h
  have hle : minDepth ≤ c'.rampGoal := by omega
  exact ⟨by omega, hle⟩

theorem recover_bounded (hc : c.Bounded minDepth (comfortCap config)) (stats : JitterStats F)
    (now : Instant) :
    (((c.recordStarvation now).applyStarvationFloor config stats).jumpToFloor).Bounded minDepth
      (comfortCap config) := by
  obtain ⟨hfloor, hbelow, htarget, hgoal, hlt⟩ := hc
  obtain ⟨hfloor', hlifted⟩ := c.recover_spec config stats now
  rcases hlifted with ⟨htarget', hgoal', hle⟩ | ⟨hle, htarget', hgoal'⟩ <;>
    exact ⟨by omega, by omega, by omega, by omega, by omega⟩

theorem recover_honours (hc : c.Honours minDepth) (config : JitterConfig F)
    (stats : JitterStats F) (now : Instant) :
    (((c.recordStarvation now).applyStarvationFloor config stats).jumpToFloor).Honours
      minDepth := by
  obtain ⟨htarget, hgoal⟩ := hc
  obtain ⟨_, hlifted⟩ := c.recover_spec config stats now
  rcases hlifted with ⟨htarget', hgoal', _⟩ | ⟨hle, htarget', hgoal'⟩ <;>
    exact ⟨by omega, by omega⟩

theorem reset_bounded (hc : c.Bounded minDepth cap) : c.reset.Bounded minDepth cap := by
  obtain ⟨hfloor, hbelow, htarget, hgoal, hlt⟩ := hc
  refine ⟨hfloor, le_max_left _ _, ?_, ?_, hlt⟩ <;> dsimp only [reset] <;> omega

theorem reset_honours (h : minDepth ≤ max c.probeFloor 2) : c.reset.Honours minDepth := ⟨h, h⟩

theorem resetForConfig_bounded (c : TargetController) (config : JitterConfig F)
    (clock : Instant) :
    (c.resetForConfig config clock).Bounded (minDepthFrames config) cap :=
  ⟨Nat.zero_le _, Nat.zero_le _, le_max_right _ _, le_max_right _ _,
    lt_of_lt_of_le Nat.zero_lt_two (le_max_right _ _)⟩

theorem resetForConfig_honours (c : TargetController) (config : JitterConfig F)
    (clock : Instant) : (c.resetForConfig config clock).Honours (minDepthFrames config) :=
  ⟨le_max_left _ _, le_max_left _ _⟩

end Bounds

end TargetController

namespace DepthDrive

variable {F : Type} [Binary32 F] {d : DepthDrive F}

section Bounds

/-- The controller is within the bounds of the configuration in force. -/
def Bounded (d : DepthDrive F) : Prop := d.control.Bounded d.minDepth d.cap

/-- Every call keeps an adaptive controller within its bounds. -/
theorem step_bounded (h : d.Adaptive → d.Bounded) (call : DepthCall F) :
    (d.step call).1.Adaptive → (d.step call).1.Bounded := by
  intro hadaptive
  cases call with
  | advance stats rawTarget now =>
    have hfollows := TargetController.advance_follows hadaptive d.control stats rawTarget
      d.minDepth now
    exact hfollows.bounded (h hadaptive)
  | recover stats now => exact TargetController.recover_bounded (h hadaptive) stats now
  | reset => exact TargetController.reset_bounded (h hadaptive)
  | resetForConfig config clock => exact d.control.resetForConfig_bounded config clock

/-- Along every sequence of calls an adaptive controller stays within its bounds. -/
theorem depth_bounded (config : JitterConfig F) (clock : Instant) (calls : List (DepthCall F))
    (hadaptive : ((machine config clock).run calls).Adaptive) :
    ((machine config clock).run calls).Bounded := by
  have hinit : (machine config clock).init.Adaptive → (machine config clock).init.Bounded :=
    fun _ => ⟨Nat.zero_le _, Nat.zero_le _, by
      change 2 ≤ _
      omega, by
      change 2 ≤ _
      omega, lt_of_lt_of_le Nat.zero_lt_two (le_max_right _ _)⟩
  exact ((machine config clock).invariant (I := fun d => d.Adaptive → d.Bounded)
    (p := fun _ _ => True) hinit (fun _ call h _ => step_bounded h call) fun _ _ => trivial).2
    hadaptive

/-- A rise, a starvation during the ramp, a stream reset and one more callback. -/
def starvedCalls : List (DepthCall SoftFloat) :=
  [.resetForConfig ⟨30, 100, 0, 0.5, none⟩ 0, .advance JitterStats.new 20 0,
    .recover JitterStats.new 1, .recover JitterStats.new 2, .reset, .advance JitterStats.new 90 3]

theorem depth_bounded_starvedCalls :
    ((machine ⟨30, 400, 0, 0.25, none⟩ 0).run starvedCalls).Bounded :=
  depth_bounded _ _ _ rfl

end Bounds

section Floor

/-- The configured floor is honoured. -/
def Honours (d : DepthDrive F) : Prop := d.Adaptive → d.control.Honours d.minDepth

/-- Packets at which a hold releases the playhead. -/
def unpauseThreshold (d : DepthDrive F) (target : ℕ) : ℕ :=
  max (Binary32.toNat (Binary32.ofNat target * d.config.resumeThresholdPct)) d.minDepth

/-- A stream reset of an adaptive controller starts at the configured floor or above it. -/
def ResetsAbove (d : DepthDrive F) (call : DepthCall F) : Prop :=
  match call with
  | .reset => d.Adaptive → d.minDepth ≤ max d.control.probeFloor 2
  | _ => True

/-- Every other call keeps the floor honoured. -/
theorem step_honours (h : d.Honours) {call : DepthCall F} (hreset : d.ResetsAbove call) :
    (d.step call).1.Honours := by
  intro hadaptive
  cases call with
  | advance stats rawTarget now =>
    have hfollows := TargetController.advance_follows hadaptive d.control stats rawTarget
      d.minDepth now
    exact hfollows.honours (h hadaptive)
  | recover stats now => exact TargetController.recover_honours (h hadaptive) d.config stats now
  | reset => exact TargetController.reset_honours (hreset hadaptive)
  | resetForConfig config clock => exact d.control.resetForConfig_honours config clock

/-- The order of the depths of a callback with a target. -/
structure DepthChain (d : DepthDrive F) (target : ℕ) : Prop where
  target_le_high : target ≤ (TargetController.bufferLimits target).high
  minDepth_le_target : d.minDepth ≤ target
  minDepth_le_unpause : d.minDepth ≤ d.unpauseThreshold target
  /-- A share of a target that single precision holds is at most the target. -/
  unpause_le_target : d.config.resumeThresholdPct ≤ 1.0 → target < 2 ^ 24 →
    d.unpauseThreshold target ≤ target

/-- From a state that honours the configured floor on, as long as every stream reset
starts above it, the depths of every callback are in order. -/
theorem depthChain_of_run [LawfulBinary32 F] (config : JitterConfig F) (clock : Instant)
    (before calls : List (DepthCall F))
    (hstart : ((machine config clock).run before).Honours)
    (hreset : ∀ e ∈ (machine config clock).eventsFrom ((machine config clock).run before) calls,
      e.before.ResetsAbove e.input) :
    ∀ e ∈ (machine config clock).eventsFrom ((machine config clock).run before) calls,
      e.after.Adaptive → e.after.DepthChain e.output := by
  intro e he hadaptive
  have hhonours := (((machine config clock).invariant_from (I := Honours) (p := ResetsAbove)
    (fun _ _ h hok => step_honours h hok) hstart hreset).1 e he).2 hadaptive
  have houtput : e.output = e.after.control.effectiveTarget := by
    rw [(machine config clock).eq_eventAt_of_mem he]
    rfl
  have hfloor : e.after.minDepth ≤ e.output := houtput ▸ hhonours.target
  refine ⟨le_max_left _ _, hfloor, le_max_right _ _, fun hpct hsmall => max_le ?_ hfloor⟩
  have hone : (1.0 : F) ≤ Binary32.ofNat 1 :=
    LawfulBinary32.decimal_le_ofNat (by decide) (by decide)
  exact LawfulBinary32.toNat_share_le (LawfulBinary32.le_trans hpct hone) hsmall

/-- A configuration is taken over, the target rises, a starvation ends, and the stream is
reset at the learned floor. -/
def honouringCalls : List (DepthCall SoftFloat) :=
  [.advance JitterStats.new 20 0, .recover JitterStats.new 1, .reset,
    .advance JitterStats.new 3 2]

theorem depthChain_of_run_honouringCalls :
    honouringCalls.length = 4 ∧
      ∀ e ∈ (machine ⟨0, 400, 0, 0.5, none⟩ 0).eventsFrom
          ((machine ⟨0, 400, 0, 0.5, none⟩ 0).run [.resetForConfig ⟨30, 400, 0, 0.25, none⟩ 0])
          honouringCalls,
        e.after.Adaptive → e.after.DepthChain e.output := by
  refine ⟨rfl, depthChain_of_run _ _ _ _
    (fun _ => TargetController.resetForConfig_honours _ _ _) ?_⟩
  intro e he
  simp only [honouringCalls, Machine.eventsFrom_cons, Machine.eventsFrom_nil, List.mem_cons,
    List.not_mem_nil, or_false] at he
  rcases he with rfl | rfl | rfl | rfl
  · exact trivial
  · exact trivial
  · exact fun _ => by decide +kernel
  · exact trivial

/-- The default configuration of a fast wireless link before it is taken over, with a
quiet network: the target stays in its dead zone below the configured floor. And a hold
that waits for more than the configured floor. -/
theorem not_depthChain :
    ¬ (∀ (config : JitterConfig SoftFloat) (clock : Instant) (calls : List (DepthCall SoftFloat)),
      ∀ e ∈ (machine config clock).events calls, e.after.Adaptive →
        e.after.minDepth ≤ e.output) ∧
    ¬ (∀ (config : JitterConfig SoftFloat) (clock : Instant) (calls : List (DepthCall SoftFloat)),
      ∀ e ∈ (machine config clock).events calls, e.after.Adaptive →
        e.after.config.resumeThresholdPct ≤ 1.0 → e.after.unpauseThreshold e.output ≤
          e.after.minDepth) := by
  constructor
  · intro h
    have hbelow := h ⟨30, 400, 0, 0.25, none⟩ 0 [.advance JitterStats.new 3 0] _
      List.mem_cons_self rfl
    revert hbelow
    decide +kernel
  · intro h
    have hbelow := h ⟨0, 400, 0, 1.0, none⟩ 0 [.advance JitterStats.new 0 0] _
      List.mem_cons_self rfl (by decide +kernel)
    revert hbelow
    decide +kernel

end Floor

end DepthDrive

namespace JitterBufferManager

variable {F : Type} [Binary32 F] [FrameMark F] {C : Codec F} {m m' m'' : JitterBufferManager C}
  {ctx : FrameContext}

section Drive

/-- The controller of the player thread. -/
def depth (m : JitterBufferManager C) : DepthDrive F := ⟨m.config, m.control⟩

/-- From `m` to `m'` the controller is driven by calls only. -/
def Drives (m m' : JitterBufferManager C) : Prop :=
  ∃ calls : List (DepthCall F),
    m'.depth = calls.foldl (fun d call => (d.step call).1) m.depth

theorem Drives.of_eq (h : m'.depth = m.depth) : m.Drives m' := ⟨[], h⟩

theorem Drives.call (call : DepthCall F) (h : m'.depth = (m.depth.step call).1) : m.Drives m' :=
  ⟨[call], h⟩

theorem Drives.trans (h : m.Drives m') (h' : m'.Drives m'') : m.Drives m'' := by
  obtain ⟨calls, heq⟩ := h
  obtain ⟨calls', heq'⟩ := h'
  exact ⟨calls ++ calls', by rw [heq', heq, List.foldl_append]⟩

theorem flushWithCrossfade_depth (m : JitterBufferManager C) (flushTo : ℕ) :
    (m.flushWithCrossfade flushTo).depth = m.depth := by
  obtain ⟨_, _, _, _, _, heq, -⟩ := m.flushWithCrossfade_eq flushTo
  rw [heq]
  rfl

/-- A new configuration restarts the controller; the poll itself leaves it alone. -/
theorem reloadConfigIfChanged_drives (m : JitterBufferManager C) (tick : Tick F) :
    m.Drives (m.reloadConfigIfChanged tick) := by
  unfold reloadConfigIfChanged
  split
  · dsimp only
    split
    · rename_i newConfig _
      split
      · exact .of_eq rfl
      · refine .call (.resetForConfig newConfig tick.configClock) ?_
        unfold adoptConfig
        dsimp only
        split
        · exact flushWithCrossfade_depth _ _
        · rfl
    · exact .of_eq rfl
  · exact .of_eq rfl

/-- The controller answers the target of the callback. -/
theorem resolveTarget_depth (m : JitterBufferManager C) (tick : Tick F) :
    (m.resolveTarget tick).1.depth =
        (m.depth.step (.advance m.stats (m.resolvedBreakdown tick.tcpMode).raw tick.now)).1 ∧
      (m.resolveTarget tick).2.1.target =
        (m.resolveTarget tick).1.depth.control.effectiveTarget ∧
      (m.resolveTarget tick).2.1.minDepth = (m.resolveTarget tick).1.depth.minDepth := by
  unfold resolveTarget
  dsimp only
  obtain ⟨stats, logWindow, heq⟩ := logDepthAuthority_eq
    { m with
      control := m.control.advance m.config m.stats (m.resolvedBreakdown tick.tcpMode).raw
        m.minDepthFrames tick.now } tick.now
  rw [heq]
  exact ⟨rfl, rfl, rfl⟩

/-- The target of a callback is that of the controller once the depth is settled, and the
floor handed on is the configured one. -/
theorem settleDepth_drives (m : JitterBufferManager C) (tick : Tick F) :
    m.Drives (m.settleDepth tick).1 ∧
      (m.settleDepth tick).2.1.target = (m.settleDepth tick).1.depth.control.effectiveTarget ∧
      (m.settleDepth tick).2.1.minDepth = (m.settleDepth tick).1.depth.minDepth := by
  have hbegin : m.Drives (m.beginCallback tick) := .of_eq rfl
  have hreload := (m.beginCallback tick).reloadConfigIfChanged_drives tick
  have hflush : (m.settleDepth tick).1.depth =
      (((m.beginCallback tick).reloadConfigIfChanged tick).resolveTarget tick).1.depth := by
    unfold settleDepth applyNoBufferFlush
    dsimp only
    split
    · exact flushWithCrossfade_depth _ _
    · rfl
  obtain ⟨hresolved, htarget, hfloor⟩ :=
    ((m.beginCallback tick).reloadConfigIfChanged tick).resolveTarget_depth tick
  refine ⟨hbegin.trans (hreload.trans (.call _ (hflush.trans hresolved))), ?_, ?_⟩
  · rw [hflush]
    exact htarget
  · rw [hflush]
    exact hfloor

/-- The threshold of a hold is that of the controller's chain. -/
theorem unpauseThreshold_depth (m : JitterBufferManager C) (tick : Tick F) :
    (m.settleDepth tick).1.unpauseThreshold (m.settleDepth tick).2.1 =
      (m.settleDepth tick).1.depth.unpauseThreshold (m.settleDepth tick).2.1.target := by
  unfold unpauseThreshold
  rw [(m.settleDepth_drives tick).2.2]
  rfl

theorem generatePlc_depth (m : JitterBufferManager C) : m.generatePlc.depth = m.depth := by
  obtain ⟨decoder, timescale, tally, source, heq, -⟩ := m.generatePlc_eq
  rw [heq]
  rfl

/-- A real frame lifts the controller at most, when it ends a starvation. -/
theorem endOutage_drives (m : JitterBufferManager C) (ctx : FrameContext) :
    m.Drives (m.endOutage ctx) := by
  obtain ⟨flow, hobserve, -⟩ := observeDelivery_eq
    { m with flow := { m.flow with gapHoldCount := 0, missingCount := 0, concealRun := 0 } } false
  unfold endOutage
  dsimp only
  rw [hobserve]
  unfold leaveStarvation
  split
  · dsimp only
    split
    · exact .of_eq rfl
    · split
      · exact .call (.recover m.stats ctx.now) rfl
      · exact .of_eq rfl
  · exact .of_eq rfl

theorem playNextFrame_drives (m : JitterBufferManager C) (ctx : FrameContext) :
    m.Drives (m.playNextFrame ctx) := by
  have hplay : ∀ m : JitterBufferManager C, (m.playPrepared ctx).depth = m.depth := by
    intro m
    obtain ⟨⟨_, _, _, _, _, _, _, _, hscaled⟩, -, -⟩ := m.runTimescale_scaled ctx
    obtain ⟨_, _, heq⟩ := m.playPrepared_eq ctx
    rw [heq, hscaled]
    rfl
  have hmask : ∀ m : JitterBufferManager C, m.maskSplice.depth = m.depth := by
    intro m
    unfold maskSplice
    dsimp only
    split <;> rfl
  refine (m.endOutage_drives ctx).trans ?_
  unfold playNextFrame
  dsimp only
  split
  · exact .of_eq ((hplay _).trans (hmask _))
  · exact .of_eq rfl

/-- Up to the frame point the controller is only driven when the depth is settled. -/
theorem framePoint_drives {tick : Tick F} {p : JitterBufferManager C}
    (hp : m.framePoint tick = some (p, ctx)) : p.depth = (m.settleDepth tick).1.depth := by
  obtain ⟨g, hg, rfl⟩ := framePoint_cases hp
  obtain ⟨_, _, _, _, _, hgap, -⟩ := g.tryFastForwardOverGap_eq ctx
  have happroach : g.depth = (m.settleDepth tick).1.depth := by
    unfold gapPoint at hg
    split at hg
    · simp at hg
    · rename_i served hserve
      obtain ⟨rfl, -⟩ := Prod.mk.inj (Option.some.inj hg)
      have hserved : served.depth = (m.settleDepth tick).1.depth := by
        unfold servePrebuffering at hserve
        split at hserve
        · split at hserve
          · obtain rfl := (Prod.mk.inj hserve).1
            unfold release
            dsimp only
            split
            · exact flushWithCrossfade_depth _ _
            · rfl
          · simp at hserve
        · rw [(Prod.mk.inj hserve).1]
      have hstartup : (served.applyStartupFlush (m.settleDepth tick).2.1).depth =
          served.depth := by
        unfold applyStartupFlush
        dsimp only
        split
        · split
          · exact flushWithCrossfade_depth _ _
          · rfl
        · rfl
      have hstatic : ∀ m' : JitterBufferManager C,
          (m'.applyStaticTargetFlush (m.settleDepth tick).2.1).depth = m'.depth := by
        intro m'
        unfold applyStaticTargetFlush
        split
        · exact flushWithCrossfade_depth _ _
        · rfl
      exact (hstatic _).trans (hstartup.trans hserved)
  rw [hgap]
  exact happroach

/-- A callback drives the controller by calls only. -/
theorem processNextFrame_drives (m : JitterBufferManager C) (tick : Tick F) :
    m.Drives (m.processNextFrame tick).1 := by
  have hsettle := (m.settleDepth_drives tick).1
  rcases m.processNextFrame_cases tick with ⟨-, -, -, heq⟩ | ⟨p, ctx, hpoint, heq⟩
  · rw [heq]
    refine hsettle.trans ?_
    obtain ⟨-, -, flow, hhold⟩ | ⟨flow, hhold, -⟩ := (m.settleDepth tick).1.hold_cases
    · exact .call .reset (by rw [hhold]; rfl)
    · exact .of_eq (by rw [hhold]; exact generatePlc_depth _)
  · rw [heq]
    refine hsettle.trans ((Drives.of_eq (framePoint_drives hpoint)).trans ?_)
    unfold playOrMiss
    split
    · exact p.playNextFrame_drives ctx
    · obtain ⟨-, flow, hmiss⟩ | ⟨-, flow, hmiss, -⟩ := p.handleMissingFrame_cases ctx
      · exact .call .reset (by rw [hmiss]; rfl)
      · exact .of_eq (by rw [hmiss]; exact generatePlc_depth _)

/-- Every step of the player thread drives the controller by calls only. -/
theorem step_drives (m : JitterBufferManager C) (i : Input F) : m.Drives (m.step i).1 := by
  cases i with
  | ingest pkts =>
    obtain ⟨_, _, _, _, heq, -⟩ := m.ingestPackets_eq pkts
    have hdepth : (m.ingestPackets pkts).depth = m.depth := by
      rw [heq]
      rfl
    exact .of_eq hdepth
  | callback tick =>
    unfold step
    dsimp only
    split
    · exact (Drives.of_eq rfl).trans (processNextFrame_drives { m with emissions := [] } tick)
    · exact .of_eq rfl
  | consume take => exact .of_eq rfl
  | reset => exact .call .reset rfl

/-- Along every run of the player thread the controller is a run of its own machine, so
what holds of every sequence of calls holds of the player thread. -/
theorem run_drives (C : Codec F) (config : JitterConfig F) (networkLink : NetworkLink)
    (clock : Instant) (inputs : List (Input F)) :
    ∃ calls, ((machine C config networkLink clock).run inputs).depth =
      (DepthDrive.machine config clock).run calls := by
  have hfold : ∀ (calls : List (DepthCall F)) (d : DepthDrive F),
      calls.foldl (fun d call => (d.step call).1) d =
        (DepthDrive.machine config clock).runFrom d calls := by
    intro calls
    induction calls with
    | nil => exact fun _ => rfl
    | cons call calls ih => exact fun d => ih (d.step call).1
  have hdrives : Drives (machine C config networkLink clock).init
      ((machine C config networkLink clock).run inputs) :=
    (machine C config networkLink clock).related_from (p := fun _ _ => True)
      (fun m => Drives.of_eq rfl) (fun _ _ _ h h' => h.trans h') (fun m i _ => m.step_drives i)
      fun _ _ => trivial
  obtain ⟨calls, heq⟩ := hdrives
  exact ⟨calls, heq.trans (hfold calls _)⟩

end Drive

end JitterBufferManager

end Gemacast.Jitter
