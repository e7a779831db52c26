import Gemacast.Jitter.Steady
import Mathlib.Tactic.IntervalCases

/-!
# The cap of ADB and USB mode

In TCP mode the raw target is capped at twelve frames, whatever comfort cap is configured. The
controller caps the quantised target at the comfort cap once more, so that only a configured
floor takes the target of a low cap to twelve frames.
-/

namespace Gemacast.Jitter

open Gemacast.Core Filter

namespace JitterBufferManager

variable {F : Type} [Binary32 F] [FrameMark F] {C : Codec F}

/-- In TCP mode a callback of an adaptive configuration follows the raw target capped at twelve
frames, and uses the target that comes of it. -/
theorem resolveTarget_tcp (m : JitterBufferManager C) {tick : Tick F} (htcp : tick.tcpMode = true)
    (hadaptive : m.depth.Adaptive) :
    (m.resolveTarget tick).1.depth = (m.depth.step (.advance m.stats
        (TargetController.targetBreakdown m.config m.stats (some 12.0)).raw tick.now)).1 ∧
      (m.resolveTarget tick).2.1.target =
        (m.resolveTarget tick).1.depth.control.effectiveTarget := by
  obtain ⟨hdepth, htarget, -⟩ := m.resolveTarget_depth tick
  have hnone : m.config.staticTargetMs = none := hadaptive
  have hraw : m.resolvedBreakdown tick.tcpMode =
      TargetController.targetBreakdown m.config m.stats (some 12.0) := by
    unfold resolvedBreakdown
    rw [if_pos htcp, hnone]
  rw [hraw] at hdepth
  exact ⟨hdepth, htarget⟩

end JitterBufferManager

namespace TargetController

variable {F : Type} [Binary32 F] {config : JitterConfig F} {rawTarget minDepth : ℕ}

theorem adaptiveQuantum_of_low (hcap : comfortCap config < 12) : adaptiveQuantum config = 1 := by
  unfold adaptiveQuantum targetQuantum
  omega

theorem adaptiveHysteresis_of_low (hcap : comfortCap config < 12) :
    adaptiveHysteresis config = 1 := by
  unfold adaptiveHysteresis hysteresisBand
  omega

theorem quantizeTarget_one (raw : ℕ) : quantizeTarget raw 1 = raw := by
  unfold quantizeTarget
  rw [if_neg Nat.one_ne_zero]
  omega

/-- Below a low cap the quantised target is the raw one between floor and cap. -/
theorem quantizedTarget_of_low (hcap : comfortCap config < 12) :
    quantizedTarget config rawTarget minDepth =
      min (max rawTarget minDepth) (max (comfortCap config) minDepth) := by
  unfold quantizedTarget
  rw [adaptiveQuantum_of_low hcap, quantizeTarget_one]

end TargetController

namespace DepthDrive

variable {F : Type} [Binary32 F] {d : DepthDrive F}

/-- The goal is a learned floor at most, or honours the configured one. -/
def GoalApart (d : DepthDrive F) : Prop :=
  d.control.rampGoal ≤ max (d.cap / 2) 2 ∨ d.minDepth ≤ d.control.rampGoal

theorem step_goalApart (h : d.Adaptive → d.Bounded ∧ d.GoalApart) (call : DepthCall F) :
    (d.step call).1.Adaptive → (d.step call).1.Bounded ∧ (d.step call).1.GoalApart := by
  intro hadaptive
  refine ⟨step_bounded (fun h' => (h h').1) call hadaptive, ?_⟩
  cases call with
  | advance stats rawTarget now =>
    obtain ⟨-, hgoal, -⟩ := TargetController.advance_follows hadaptive d.control stats rawTarget
      d.minDepth now
    have hapart : d.GoalApart := (h hadaptive).2
    rcases hgoal with hkept | ⟨hle, -⟩ | ⟨hle, -⟩
    · unfold GoalApart at hapart ⊢
      change (d.step (.advance stats rawTarget now)).1.control.rampGoal = _ at hkept
      rw [hkept]
      exact hapart
    · exact Or.inr hle
    · exact Or.inr hle
  | recover stats now =>
    obtain ⟨hfloor, hlifted⟩ := d.control.recover_spec d.config stats now
    obtain ⟨hbounded, hapart⟩ := h hadaptive
    have hlow : d.control.probeFloor ≤ max (d.cap / 2) 1 := hbounded.floor_le
    unfold GoalApart at hapart ⊢
    change (d.step (.recover stats now)).1.control.probeFloor ≤ max _ (max (d.cap / 2) 1) at hfloor
    change (d.step (.recover stats now)).1.control.rampGoal ≤ max (d.cap / 2) 2 ∨
      d.minDepth ≤ _
    rcases hlifted with ⟨-, hgoal, -⟩ | ⟨-, -, hgoal⟩
    · change (d.step (.recover stats now)).1.control.rampGoal = _ at hgoal
      omega
    · change (d.step (.recover stats now)).1.control.rampGoal =
        (d.step (.recover stats now)).1.control.probeFloor at hgoal
      omega
  | reset =>
    have hlow : d.control.probeFloor ≤ max (d.cap / 2) 1 := (h hadaptive).1.floor_le
    refine Or.inl ?_
    change max d.control.probeFloor 2 ≤ max (d.cap / 2) 2
    omega
  | resetForConfig config clock => exact Or.inr (le_max_left _ _)

/-- Along every sequence of calls the goal of an adaptive controller stays apart. -/
theorem goalApart_of_run (config : JitterConfig F) (clock : Instant) (calls : List (DepthCall F))
    (hadaptive : ((machine config clock).run calls).Adaptive) :
    ((machine config clock).run calls).GoalApart := by
  have hinit : (machine config clock).init.Adaptive →
      (machine config clock).init.Bounded ∧ (machine config clock).init.GoalApart :=
    fun h => ⟨depth_bounded config clock [] h, Or.inl (le_max_right _ _)⟩
  exact (((machine config clock).invariant (I := fun d => d.Adaptive → d.Bounded ∧ d.GoalApart)
    (p := fun _ _ => True) hinit (fun _ call h _ => step_goalApart h call) fun _ _ => trivial).2
    hadaptive).2

end DepthDrive

namespace DepthTrace

variable {F : Type} [Binary32 F] {t : DepthTrace F} {n k : ℕ}

section Honoured

/-- The callbacks demand the configured floor, which lies above the cap, from a controller
whose goal is apart. -/
structure DemandsFloor (t : DepthTrace F) : Prop where
  within : t.Within
  quantized : ∀ n, t.quantized n = t.minDepth
  cap_le : TargetController.comfortCap t.config ≤ t.minDepth
  apart : t.goal 0 ≤ max (TargetController.comfortCap t.config / 2) 2 ∨ t.minDepth ≤ t.goal 0
  /-- The floor lies beyond the dead zone above the learned floors. -/
  high : max (TargetController.comfortCap t.config / 2) 2 + t.hysteresis < t.minDepth

namespace DemandsFloor

theorem target_le (h : t.DemandsFloor) (n : ℕ) : t.target n ≤ t.minDepth := by
  have hle := DepthTrace.target_le h.within n
  have hcap := h.cap_le
  have hhigh := h.high
  omega

theorem floor_le (h : t.DemandsFloor) (n : ℕ) :
    (t.control n).probeFloor ≤ max (TargetController.comfortCap t.config / 2) 2 := by
  have hfloor := (DepthTrace.control_within h.within n).floor_le
  omega

/-- No callback probes, so the goal is the one dwelt for. -/
theorem goal_eq_dwelt (h : t.DemandsFloor) (n : ℕ) : t.goal (n + 1) = (t.dwelt n).rampGoal := by
  obtain ⟨-, hsettled⟩ := (t.dwelt n).settle_rampGoal (t.stats n)
    (TargetController.adaptiveQuantum t.config) t.minDepth (t.now n)
  obtain ⟨htarget, -⟩ := t.dwelt_same n
  unfold goal
  rw [t.control_settle n]
  rcases hsettled with hkept | ⟨-, -, habove, -, -⟩
  · exact hkept
  · have hle := h.target_le n
    omega

/-- The goal is kept, or it becomes the configured floor. -/
theorem goal_cases (h : t.DemandsFloor) (n : ℕ) :
    t.goal (n + 1) = t.goal n ∨ t.goal (n + 1) = t.minDepth := by
  have hhigh := h.high
  have hfloor := h.floor_le (n + 1)
  rcases t.goal_succ n with hkept | ⟨_, -, hgoal⟩ | ⟨-, habove, -, -⟩
  · exact Or.inl hkept
  · rw [h.quantized n] at hgoal
    omega
  · have hle := h.target_le n
    omega

/-- The goal becomes the configured floor in the end. -/
theorem exists_goal (h : t.DemandsFloor) : ∃ k, t.minDepth ≤ t.goal k := by
  by_contra hnever
  have hbelow : ∀ n, t.goal n < t.minDepth := fun n =>
    Nat.lt_of_not_le fun hle => hnever ⟨n, hle⟩
  have hhigh := h.high
  have hlow : ∀ n, t.goal n ≤ max (TargetController.comfortCap t.config / 2) 2 := by
    intro n
    induction n with
    | zero => exact h.apart.resolve_right (Nat.not_le.mpr (hbelow 0))
    | succ n ih =>
      rcases h.goal_cases n with hkept | hgoal
      · exact hkept ▸ ih
      · exact absurd hgoal (hbelow (n + 1)).ne
  have hpursues := DepthTrace.pursues h.within
  by_cases hfar : ∃ k, t.target k + t.hysteresis < t.minDepth
  · -- the target is pressed up from there on, so the dwell commits
    obtain ⟨k, hk⟩ := hfar
    have hstays : ∀ n ≥ k, t.target n + t.hysteresis < t.minDepth := by
      intro n hn
      induction n, hn using Nat.le_induction with
      | base => exact hk
      | succ n hn ih =>
        have hgoal := hlow (n + 1)
        by_cases hup : t.target n < t.goal (n + 1)
        · have hle := (hpursues.up n hup).2
          omega
        · have hle := (hpursues.down n (Nat.le_of_not_lt hup)).2
          omega
    obtain ⟨n, -, hcommits⟩ := commits_of_presses (t := t) (k := k) false fun n hn => by
      rw [h.quantized n]
      exact hstays n hn
    have hgoal : (t.dwelt n).rampGoal = max (t.quantized n) (t.dwelt n).probeFloor :=
      TargetController.dwelt_of_commits hcommits
    rw [h.quantized n, ← h.goal_eq_dwelt n] at hgoal
    have hless := hbelow (n + 1)
    omega
  · -- the target falls towards the goal, and must not come to rest above it
    have hnear : ∀ k, t.minDepth ≤ t.target k + t.hysteresis := fun k =>
      Nat.le_of_not_lt fun hlt => hfar ⟨k, hlt⟩
    obtain ⟨k, hk⟩ := eventuallyConst_atTop.mp (eventuallyConst_of_succ_le (f := t.target)
      (k := 0) fun n _ => (hpursues.down n (by
        have hgoal := hlow (n + 1)
        have hclose := hnear n
        omega)).2)
    have hclose := hnear k
    refine not_rests_of_ramping hk (fun n hn _ => ?_) fun n hn => ?_
    · have hfloor := h.floor_le n
      omega
    · have hgoal := hlow (n + 1)
      rw [h.goal_eq_dwelt n] at hgoal
      omega

/-- The target comes up to the configured floor and stays there. -/
theorem exists_target (h : t.DemandsFloor) : ∃ k, ∀ n ≥ k, t.minDepth ≤ t.target n := by
  obtain ⟨k, hk⟩ := h.exists_goal
  have hgoals : ∀ n ≥ k, t.minDepth ≤ t.goal (n + 1) := fun n hn =>
    goal_minDepth hk (Nat.le_succ_of_le hn)
  rcases (DepthTrace.pursues h.within).eventuallyConst_or_le h.target_le hgoals with
    hconst | ⟨m, -, hm⟩
  · obtain ⟨m, hm⟩ := eventuallyConst_atTop.mp hconst
    refine ⟨m, fun n hn => ?_⟩
    by_contra hbelow
    have hlevel : t.target m < t.minDepth := by
      rw [← hm n hn]
      exact Nat.lt_of_not_le hbelow
    have habove : ∀ i ≥ max k m, t.target m < (t.dwelt i).rampGoal := by
      intro i hi
      rw [← h.goal_eq_dwelt i]
      exact lt_of_lt_of_le hlevel (hgoals i ((le_max_left _ _).trans hi))
    have hrest : ∀ i ≥ max k m, t.target i = t.target m := fun i hi =>
      hm i ((le_max_right _ _).trans hi)
    refine not_rests_of_ramping hrest (fun i hi hdown => ?_) fun i hi => ?_
    · exact absurd hdown (habove i hi).not_gt
    · exact (habove i hi).ne'
  · exact ⟨m, hm⟩

end DemandsFloor

end Honoured

section Stuck

variable {level : ℕ}

/-- A target on its goal stays there, inside the dead zone and without probing. -/
theorem stays_of_inside (hcalm : ∀ n, ¬(0.2 : F) < (t.stats n).stabilityRatio)
    (hinside : ∀ n f, ¬TargetController.Presses t.config (t.quantized n) level f)
    (htarget : t.target 0 = level) (hgoal : t.goal 0 = level) (n : ℕ) :
    t.target n = level ∧ t.goal n = level := by
  induction n with
  | zero => exact ⟨htarget, hgoal⟩
  | succ n ih =>
    obtain ⟨htarget, hgoal⟩ := ih
    have hkept : t.goal (n + 1) = level := by
      rcases t.goal_succ n with hkept | ⟨f, ⟨hpress, -⟩, -⟩ | ⟨hprobes, -, -, -⟩
      · exact hkept.trans hgoal
      · change TargetController.Presses t.config (t.quantized n) (t.target n) f at hpress
        rw [htarget] at hpress
        exact absurd hpress (hinside n f)
      · exact absurd hprobes (hcalm n)
    refine ⟨?_, hkept⟩
    obtain ⟨-, -, hmoves⟩ := t.control_follows n
    unfold target goal at *
    omega

end Stuck

end DepthTrace

/-- Callbacks in TCP mode whose raw target stays at twelve frames or more, from a controller
that was driven there. -/
structure TcpDemand (F : Type) [Binary32 F] extends DepthTrace F where
  /-- The raw target is the one capped at twelve frames. -/
  tcp : ∀ n, rawTarget n =
    (TargetController.targetBreakdown config (stats n) (some 12.0)).raw
  /-- The demand is sustained. -/
  demand : ∀ n, 12 ≤ rawTarget n
  /-- The controller was driven there. -/
  driven : ∃ initial clock calls,
    (DepthDrive.machine initial clock).run calls = ⟨config, first⟩

namespace TcpDemand

variable {F : Type} [Binary32 F] {t : TcpDemand F} {n : ℕ}

/-- The target is up to twelve frames, within quantisation and hysteresis. -/
def Reaches (t : TcpDemand F) (n : ℕ) : Prop :=
  TargetController.quantizeTarget 12 (TargetController.adaptiveQuantum t.config) ≤
    t.target n + t.hysteresis

/-- Below a low cap that is within one frame. -/
theorem reaches_iff (hcap : TargetController.comfortCap t.config < 12) :
    t.Reaches n ↔ 11 ≤ t.target n := by
  unfold Reaches DepthTrace.hysteresis
  rw [TargetController.adaptiveQuantum_of_low hcap, TargetController.quantizeTarget_one,
    TargetController.adaptiveHysteresis_of_low hcap]
  omega

theorem within (t : TcpDemand F) : t.Within := by
  obtain ⟨initial, clock, calls, hrun⟩ := t.driven
  exact DepthTrace.within_of_run initial clock calls hrun

/-- A configured floor of eleven frames takes the target up. -/
theorem eventually_reaches (hcap : TargetController.comfortCap t.config < 12)
    (hfloor : 11 ≤ t.minDepth) : ∀ᶠ n in atTop, t.Reaches n := by
  have hdemands : t.DemandsFloor := by
    refine ⟨t.within, fun n => ?_, by omega, ?_, ?_⟩
    · have hraw := t.demand n
      unfold DepthTrace.quantized
      rw [TargetController.quantizedTarget_of_low hcap]
      omega
    · obtain ⟨initial, clock, calls, hrun⟩ := t.driven
      have hapart := DepthDrive.goalApart_of_run initial clock calls (by
        rw [hrun]
        exact t.adaptive)
      rw [hrun] at hapart
      exact hapart
    · unfold DepthTrace.hysteresis
      rw [TargetController.adaptiveHysteresis_of_low hcap]
      omega
  obtain ⟨k, hk⟩ := hdemands.exists_target
  refine eventually_atTop.mpr ⟨k, fun n hn => ?_⟩
  rw [reaches_iff hcap]
  exact hfloor.trans (hk n hn)

section Declined

variable {config : JitterConfig SoftFloat}

/-- Packets late by twelve frames, on a network that is not calm. -/
def lateStats : JitterStats SoftFloat := { JitterStats.new with iatPercentileTarget := 12.0 }

/-- In TCP mode they demand twelve frames. -/
theorem raw_lateStats (hadaptive : config.staticTargetMs = none)
    (hfloor : TargetController.minDepthFrames config ≤ 10) :
    12 ≤ (TargetController.targetBreakdown config lateStats (some 12.0)).raw := by
  unfold TargetController.targetBreakdown
  rw [hadaptive]
  dsimp only [Option.getD_some]
  generalize TargetController.minDepthFrames config = minDepth at *
  interval_cases minDepth <;> decide +kernel

/-- The demand of late packets, from a controller that was driven there. -/
def lateDemand (hadaptive : config.staticTargetMs = none)
    (hfloor : TargetController.minDepthFrames config ≤ 10) {first : TargetController}
    (driven : ∃ initial clock calls,
      (DepthDrive.machine initial clock).run calls = ⟨config, first⟩) : TcpDemand SoftFloat where
  config := config
  first := first
  stats := fun _ => lateStats
  rawTarget := fun _ => (TargetController.targetBreakdown config lateStats (some 12.0)).raw
  now := fun _ => 0
  adaptive := hadaptive
  tcp := fun _ => rfl
  demand := fun _ => raw_lateStats hadaptive hfloor
  driven := driven

/-- A fresh network does not allow probing. -/
theorem not_calm_new :
    ¬(0.2 : SoftFloat) < (JitterStats.new : JitterStats SoftFloat).stabilityRatio := by
  decide +kernel

/-- A fresh network with a raw target of ten frames. -/
def tenLink (hadaptive : config.staticTargetMs = none) : SteadyLink SoftFloat :=
  ⟨config, JitterStats.new, 10, 0, hadaptive⟩

theorem tenLink_quantized (hadaptive : config.staticTargetMs = none)
    (hcap : TargetController.comfortCap config = 11)
    (hfloor : TargetController.minDepthFrames config ≤ 10) :
    (tenLink hadaptive).quantized = 10 := by
  change TargetController.quantizedTarget config 10 (TargetController.minDepthFrames config) = 10
  rw [TargetController.quantizedTarget_of_low (by omega)]
  omega

/-- A fresh controller on it has learned nothing, and its goal is two frames or ten. -/
theorem tenLink_goal (hadaptive : config.staticTargetMs = none)
    (hcap : TargetController.comfortCap config = 11)
    (hfloor : TargetController.minDepthFrames config ≤ 10) (n : ℕ) :
    (((tenLink hadaptive).trace (TargetController.new 0)).control n).probeFloor = 0 ∧
      (((tenLink hadaptive).trace (TargetController.new 0)).goal n = 2 ∨
        ((tenLink hadaptive).trace (TargetController.new 0)).goal n = 10) := by
  have hquantized := tenLink_quantized hadaptive hcap hfloor
  induction n with
  | zero => exact ⟨rfl, Or.inl rfl⟩
  | succ n ih =>
    obtain ⟨hlearned, hgoal⟩ := ih
    have hle := (((tenLink hadaptive).trace (TargetController.new 0)).control_follows n).floor_le
    have hnone : (((tenLink hadaptive).trace (TargetController.new 0)).control
        (n + 1)).probeFloor = 0 := by omega
    refine ⟨hnone, ?_⟩
    rcases ((tenLink hadaptive).trace (TargetController.new 0)).goal_succ n with
      hkept | ⟨_, -, hcommit⟩ | ⟨hprobes, -⟩
    · rwa [hkept]
    · change _ = max (tenLink hadaptive).quantized _ at hcommit
      omega
    · exact absurd hprobes not_calm_new

/-- A controller with a cap of eleven frames can be driven to rest at ten. -/
theorem driven_ten (hadaptive : config.staticTargetMs = none)
    (hcap : TargetController.comfortCap config = 11)
    (hfloor : TargetController.minDepthFrames config ≤ 10) :
    ∃ calls c, (DepthDrive.machine config 0).run calls = ⟨config, c⟩ ∧
      c.effectiveTarget = 10 ∧ c.rampGoal = 10 := by
  have hquantized := tenLink_quantized hadaptive hcap hfloor
  have hgoals := tenLink_goal hadaptive hcap hfloor
  have hhysteresis : (tenLink hadaptive).hysteresis = 1 :=
    TargetController.adaptiveHysteresis_of_low (hcap.trans_lt (by decide))
  have hwithin : ((tenLink hadaptive).trace (TargetController.new 0)).Within :=
    DepthTrace.within_of_run config 0 [] rfl
  obtain ⟨k, level, hrest⟩ := SteadyLink.restsFrom_of_const
    (SteadyLink.target_rests hwithin (Or.inl not_calm_new))
  have hnear := hrest.not_presses
  rw [hquantized, hhysteresis] at hnear
  have hdwelt := hrest.goal_eq fun n _ => by
    rw [(hgoals n).1]
    omega
  have hgoal : ((tenLink hadaptive).trace (TargetController.new 0)).goal (k + 1) = level := by
    obtain ⟨-, hsettled⟩ := (((tenLink hadaptive).trace (TargetController.new 0)).dwelt
      k).settle_rampGoal (JitterStats.new : JitterStats SoftFloat)
        (TargetController.adaptiveQuantum config)
        (TargetController.minDepthFrames config) ((tenLink hadaptive).tick k)
    unfold DepthTrace.goal
    rw [DepthTrace.control_settle]
    rcases hsettled with hkept | ⟨-, hprobes, -⟩
    · exact hkept.trans hdwelt
    · exact absurd hprobes not_calm_new
  have hten : level = 10 := by
    have hcases := (hgoals (k + 1)).2
    omega
  exact ⟨_, _, DepthTrace.runFrom_advances (DepthDrive.machine config 0) rfl
    ((tenLink hadaptive).trace (TargetController.new 0)) (k + 1),
    (hrest.target (k + 1) (Nat.le_succ k)).trans hten, hgoal.trans hten⟩

/-- Below a configured floor of eleven frames a low cap can hold the target down for ever. -/
theorem exists_not_reaches (config : JitterConfig SoftFloat)
    (hadaptive : config.staticTargetMs = none)
    (hcap : TargetController.comfortCap config < 12)
    (hfloor : TargetController.minDepthFrames config ≤ 10) :
    ∃ t : TcpDemand SoftFloat, t.config = config ∧ ∀ n, ¬t.Reaches n := by
  by_cases hten : TargetController.comfortCap config = 11
  · obtain ⟨calls, c, hrun, htarget, hgoal⟩ := driven_ten hadaptive hten hfloor
    have hinside : ∀ n f, ¬TargetController.Presses config
        ((lateDemand hadaptive hfloor ⟨config, 0, calls, hrun⟩).quantized n) 10 f := by
      intro n f hpress
      have hquantized : (lateDemand hadaptive hfloor ⟨config, 0, calls, hrun⟩).quantized n ≤ 11 ∧
          9 ≤ (lateDemand hadaptive hfloor ⟨config, 0, calls, hrun⟩).quantized n := by
        have hraw := raw_lateStats hadaptive hfloor
        change TargetController.quantizedTarget config
            (TargetController.targetBreakdown config lateStats (some 12.0)).raw
            (TargetController.minDepthFrames config) ≤ 11 ∧
          9 ≤ TargetController.quantizedTarget config
            (TargetController.targetBreakdown config lateStats (some 12.0)).raw
            (TargetController.minDepthFrames config)
        rw [TargetController.quantizedTarget_of_low hcap]
        omega
      unfold TargetController.Presses at hpress
      rw [TargetController.adaptiveHysteresis_of_low hcap] at hpress
      split at hpress <;> omega
    refine ⟨lateDemand hadaptive hfloor ⟨config, 0, calls, hrun⟩, rfl, fun n => ?_⟩
    obtain ⟨hstays, -⟩ := DepthTrace.stays_of_inside
      (t := (lateDemand hadaptive hfloor ⟨config, 0, calls, hrun⟩).toDepthTrace)
      (fun _ => not_calm_new) hinside htarget hgoal n
    rw [reaches_iff hcap, hstays]
    decide
  · refine ⟨lateDemand hadaptive hfloor ⟨config, 0, [], rfl⟩, rfl, fun n => ?_⟩
    rw [reaches_iff hcap]
    have hle := DepthTrace.target_le
      (lateDemand hadaptive hfloor ⟨config, 0, [], rfl⟩).within n
    change _ ≤ max (TargetController.comfortCap config)
      (max (TargetController.minDepthFrames config) 2) at hle
    omega

/-- In TCP mode a sustained demand of twelve frames takes the target of an adaptive
configuration with a low cap up to them exactly when the configured floor does, by eleven
frames or more. -/
theorem tcpOverride_iff (config : JitterConfig SoftFloat)
    (hadaptive : config.staticTargetMs = none)
    (hcap : TargetController.comfortCap config < 12) :
    ((∀ t : TcpDemand SoftFloat, t.config = config → ∃ n, t.Reaches n) ↔
        11 ≤ TargetController.minDepthFrames config) ∧
      ((∀ t : TcpDemand SoftFloat, t.config = config → ∀ᶠ n in atTop, t.Reaches n) ↔
        11 ≤ TargetController.minDepthFrames config) := by
  have hstays : 11 ≤ TargetController.minDepthFrames config →
      ∀ t : TcpDemand SoftFloat, t.config = config → ∀ᶠ n in atTop, t.Reaches n := by
    intro hfloor t ht
    refine eventually_reaches (ht ▸ hcap) ?_
    unfold DepthTrace.minDepth
    rw [ht]
    exact hfloor
  have hreaches : (∀ t : TcpDemand SoftFloat, t.config = config → ∃ n, t.Reaches n) →
      11 ≤ TargetController.minDepthFrames config := by
    intro h
    by_contra hlow
    obtain ⟨t, ht, hnever⟩ := exists_not_reaches config hadaptive hcap (by omega)
    obtain ⟨n, hn⟩ := h t ht
    exact hnever n hn
  refine ⟨⟨hreaches, fun hfloor t ht => (hstays hfloor t ht).exists⟩, ⟨fun h => ?_, hstays⟩⟩
  exact hreaches fun t ht => (h t ht).exists

/-- The configuration of an ADB link: a floor of three frames, and a cap of ten. -/
def cableConfig : JitterConfig SoftFloat := ⟨30, 100, 500, 0.2, none⟩

/-- Its target never comes up to twelve frames. -/
theorem not_tcpOverride_cableConfig :
    ¬∀ t : TcpDemand SoftFloat, t.config = cableConfig → ∃ n, t.Reaches n := by
  intro h
  obtain ⟨t, ht, hnever⟩ :=
    exists_not_reaches cableConfig rfl (by decide +kernel) (by decide +kernel)
  obtain ⟨n, hn⟩ := h t ht
  exact hnever n hn

/-- The same cap with a floor of eleven frames. -/
def flooredConfig : JitterConfig SoftFloat := { cableConfig with minDepthMs := 110 }

theorem tcpOverride_iff_flooredConfig :
    (∀ t : TcpDemand SoftFloat, t.config = flooredConfig → ∃ n, t.Reaches n) ↔
      11 ≤ TargetController.minDepthFrames flooredConfig :=
  (tcpOverride_iff flooredConfig rfl (by decide +kernel)).1

end Declined

end TcpDemand

end Gemacast.Jitter
