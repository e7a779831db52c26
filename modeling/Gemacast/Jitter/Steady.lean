import Gemacast.Jitter.DepthTrace

/-!
# The target on a steady link

Callbacks a frame apart, with one raw target and one set of statistics. The target comes to
rest unless probing lowers it out of the dead zone below what the raw target demands: then it
is dwelt for and ramped up again, and probed down again, for ever.
-/

namespace Gemacast.Jitter

open Gemacast.Core Filter

/-- A link whose raw target and statistics stay, with an adaptive configuration. -/
structure SteadyLink (F : Type) [Binary32 F] where
  /-- The configuration in force. -/
  config : JitterConfig F
  /-- The statistics at every callback. -/
  stats : JitterStats F
  /-- The raw target at every callback. -/
  rawTarget : ℕ
  /-- The first callback. -/
  start : Instant
  /-- The target is computed from the statistics. -/
  adaptive : config.staticTargetMs = none

namespace SteadyLink

variable {F : Type} [Binary32 F] {l : SteadyLink F} {c : TargetController} {n k : ℕ}

/-- The configured floor, in frames. -/
def minDepth (l : SteadyLink F) : ℕ := TargetController.minDepthFrames l.config

/-- The dead zone around the target, in frames. -/
def hysteresis (l : SteadyLink F) : ℕ := TargetController.adaptiveHysteresis l.config

/-- The quantised target. -/
def quantized (l : SteadyLink F) : ℕ :=
  TargetController.quantizedTarget l.config l.rawTarget l.minDepth

/-- The instant of a callback; they are a frame apart. -/
def tick (l : SteadyLink F) (n : ℕ) : Instant :=
  l.start + n * Duration.fromMillis millisPerFrame

/-- The callbacks of a controller on the link. -/
def trace (l : SteadyLink F) (c : TargetController) : DepthTrace F where
  config := l.config
  first := c
  stats := fun _ => l.stats
  rawTarget := fun _ => l.rawTarget
  now := l.tick
  adaptive := l.adaptive

section Rest

theorem minDepth_le_quantized (l : SteadyLink F) : l.minDepth ≤ l.quantized :=
  (l.trace (TargetController.new 0)).minDepth_le_quantized 0

/-- The goal is lifted over the target by a commit only, to the quantised target at least. -/
theorem of_lifts (hc : (l.trace c).Within)
    (h : Lifts (l.trace c).target (l.trace c).goal n) :
    (l.trace c).target n + l.hysteresis < l.quantized ∧
      l.quantized ≤ (l.trace c).goal (n + 1) := by
  obtain ⟨hat, hlifted⟩ := h
  rcases (l.trace c).goal_succ n with hkept | ⟨falling, ⟨hpress, -⟩, hgoal⟩ | ⟨-, -, hlower, -⟩
  · omega
  · have hle : ((l.trace c).control (n + 1)).probeFloor ≤ ((l.trace c).control n).probeFloor :=
      ((l.trace c).control_follows n).floor_le
    have hfloor : ((l.trace c).control n).probeFloor ≤ (l.trace c).target n :=
      (DepthTrace.control_within hc n).floor_le_target
    change (l.trace c).goal (n + 1) = max l.quantized _ at hgoal
    change TargetController.Presses l.config l.quantized ((l.trace c).target n) falling at hpress
    unfold TargetController.Presses at hpress
    cases falling with
    | false =>
      simp only [Bool.false_eq_true, if_false] at hpress
      exact ⟨hpress, by omega⟩
    | true =>
      simp only [if_true] at hpress
      omega
  · omega

/-- Without probing the goal stays at the quantised target or above it. -/
theorem goal_quantized (hcalm : ¬(0.2 : F) < l.stats.stabilityRatio)
    (h : l.quantized ≤ (l.trace c).goal k) (hn : k ≤ n) : l.quantized ≤ (l.trace c).goal n := by
  induction n, hn using Nat.le_induction with
  | base => exact h
  | succ n _ ih =>
    rcases (l.trace c).goal_succ n with hkept | ⟨_, -, hgoal⟩ | ⟨hprobes, -, -, -⟩
    · omega
    · change (l.trace c).goal (n + 1) = max l.quantized _ at hgoal
      omega
    · exact absurd hprobes hcalm

/-- Without probing, or when the raw target demands no more than the dead zone above the
configured floor, the target comes to rest. -/
theorem target_rests (hc : (l.trace c).Within)
    (h : ¬(0.2 : F) < l.stats.stabilityRatio ∨ l.quantized ≤ l.minDepth + l.hysteresis) :
    EventuallyConst (l.trace c).target atTop := by
  have hle := l.minDepth_le_quantized
  have hpursues := DepthTrace.pursues hc
  rcases h with hcalm | hclose
  · refine hpursues.eventuallyConst_of_lifts l.quantized (DepthTrace.target_le hc) ?_
    intro n hlift
    obtain ⟨hpress, hgoal⟩ := of_lifts hc hlift
    exact ⟨by omega, fun m hm => goal_quantized hcalm hgoal (Nat.succ_le_succ hm)⟩
  · refine hpursues.eventuallyConst_of_lifts l.minDepth (DepthTrace.target_le hc) ?_
    intro n hlift
    obtain ⟨hpress, hgoal⟩ := of_lifts hc hlift
    refine ⟨by omega, fun m hm => ?_⟩
    exact DepthTrace.goal_minDepth (t := l.trace c) (hle.trans hgoal) (Nat.succ_le_succ hm)

end Rest

section Unrest

variable {level : ℕ}

theorem le_tick (l : SteadyLink F) (n : ℕ) : n ≤ l.tick n := by
  have hfactor : n ≤ n * Duration.fromMillis millisPerFrame :=
    Nat.le_mul_of_pos_right n (by decide)
  exact hfactor.trans (Nat.le_add_left _ _)

/-- What a callback does to the floor and its timer. -/
theorem control_floor (l : SteadyLink F) (c : TargetController) (n : ℕ) :
    ((l.trace c).control (n + 1)).probeFloor = (((l.trace c).control n).relaxProbeFloor
        (TargetController.adaptiveQuantum l.config) l.minDepth (l.tick n)).probeFloor ∧
      ((l.trace c).control (n + 1)).lastFloorDecay = (((l.trace c).control n).relaxProbeFloor
        (TargetController.adaptiveQuantum l.config) l.minDepth (l.tick n)).lastFloorDecay ∧
      ((l.trace c).control (n + 1)).lastStarvation = ((l.trace c).control n).lastStarvation :=
  TargetController.advance_floor l.adaptive ((l.trace c).control n) l.stats l.rawTarget
    l.minDepth (l.tick n)

/-- The callbacks record no starvation. -/
theorem control_lastStarvation (l : SteadyLink F) (c : TargetController) (n : ℕ) :
    ((l.trace c).control n).lastStarvation = c.lastStarvation := by
  induction n with
  | zero => rfl
  | succ n ih => exact (l.control_floor c n).2.2.trans ih

/-- The learned floor relaxes to the configured one. -/
theorem floor_relaxes (l : SteadyLink F) (c : TargetController) :
    ∃ k, ∀ n ≥ k, ((l.trace c).control n).probeFloor ≤ l.minDepth := by
  have hquantum := TargetController.adaptiveQuantum_pos l.config
  have hfall : ∀ n, ((l.trace c).control (n + 1)).probeFloor ≤
      ((l.trace c).control n).probeFloor := fun n => ((l.trace c).control_follows n).floor_le
  obtain ⟨k, hk⟩ := eventuallyConst_atTop.mp (eventuallyConst_of_succ_le
    (f := fun n => ((l.trace c).control n).probeFloor) (k := 0) fun n _ => hfall n)
  refine ⟨k, fun n hn => ?_⟩
  by_contra hhigh
  have hfloor : ∀ m ≥ k, l.minDepth < ((l.trace c).control m).probeFloor := by
    intro m hm
    have hsame := (hk m hm).trans (hk n hn).symm
    omega
  have hkept : ∀ m ≥ k, ((l.trace c).control (m + 1)).probeFloor =
      ((l.trace c).control m).probeFloor :=
    fun m hm => (hk (m + 1) (Nat.le_succ_of_le hm)).trans (hk m hm).symm
  have hdecay : ∀ m ≥ k, ((l.trace c).control m).lastFloorDecay =
      ((l.trace c).control k).lastFloorDecay := by
    intro m hm
    induction m, hm using Nat.le_induction with
    | base => rfl
    | succ m hm ih =>
      obtain ⟨hrelaxed, htimer, -⟩ := l.control_floor c m
      rw [htimer, ← ih]
      exact TargetController.relaxProbeFloor_kept hquantum (hfloor m hm)
        (hrelaxed.symm.trans (hkept m hm))
  obtain ⟨quiet, hquiet⟩ : ∃ quiet : ℕ, ∀ t ∈ c.lastStarvation,
      t + Duration.fromSecs floorHoldSecs ≤ quiet := by
    cases c.lastStarvation with
    | none => exact ⟨0, fun t ht => nomatch ht⟩
    | some last =>
      refine ⟨last + Duration.fromSecs floorHoldSecs, fun t ht => ?_⟩
      rw [Option.mem_some.mp ht]
  -- a callback long after the last starvation and the last relaxation
  obtain ⟨past, hpast⟩ : ∃ past : ℕ, quiet ≤ past ∧
      ((l.trace c).control k).lastFloorDecay + Duration.fromSecs floorDecaySecs ≤ past :=
    ⟨_, le_max_left _ _, le_max_right _ _⟩
  obtain ⟨m, hm, hlate⟩ : ∃ m ≥ k, past ≤ l.tick m :=
    ⟨max k past, le_max_left _ _, (le_max_right _ _).trans (l.le_tick _)⟩
  have hless : (((l.trace c).control m).relaxProbeFloor
      (TargetController.adaptiveQuantum l.config) l.minDepth (l.tick m)).probeFloor <
        ((l.trace c).control m).probeFloor := by
    refine TargetController.relaxProbeFloor_due hquantum (hfloor m hm) ?_ ?_
    · intro t ht
      rw [l.control_lastStarvation] at ht
      exact (hquiet t ht).trans (hpast.1.trans hlate)
    · rw [hdecay m hm]
      exact hpast.2.trans hlate
  rw [← (l.control_floor c m).1, hkept m hm] at hless
  exact lt_irrefl _ hless

/-- An unstable regime is over some time. -/
theorem regime_ends (l : SteadyLink F) : ∃ k, ∀ n ≥ k,
    (l.stats.unstableRegimeUntil.any fun regimeEnd =>
      l.tick n < regimeEnd ∧ l.stats.stabilityRatio < 0.5) = false := by
  cases hregime : l.stats.unstableRegimeUntil with
  | none => exact ⟨0, fun _ _ => rfl⟩
  | some regimeEnd =>
    refine ⟨regimeEnd, fun n hn => ?_⟩
    have hpast : ¬l.tick n < regimeEnd := Nat.not_lt.mpr (hn.trans (l.le_tick n))
    rw [Option.any_some]
    exact decide_eq_false fun hearly => hpast hearly.1

/-- What the dwell does to the goal once the floor is relaxed: a commit is to the quantised
target, and to nothing else. -/
theorem dwelt_goal (hfloor : ∀ n ≥ k, ((l.trace c).control n).probeFloor ≤ l.minDepth)
    (hn : k ≤ n) :
    ((l.trace c).dwelt n).rampGoal = (l.trace c).goal n ∨
      l.quantized ≠ (l.trace c).target n ∧ ((l.trace c).dwelt n).rampGoal = l.quantized := by
  obtain ⟨-, -, -, hle⟩ := (l.trace c).dwelt_same n
  have hlow : ((l.trace c).dwelt n).probeFloor ≤ l.quantized :=
    hle.trans ((hfloor n hn).trans l.minDepth_le_quantized)
  refine (((l.trace c).control n).dwelt_rampGoal l.config l.rawTarget l.minDepth
    (l.tick n)).imp_right ?_
  rintro ⟨falling, ⟨hpress, -⟩, hgoal⟩
  refine ⟨?_, hgoal.trans (max_eq_left hlow)⟩
  change TargetController.Presses l.config l.quantized ((l.trace c).target n) falling at hpress
  unfold TargetController.Presses at hpress
  split at hpress <;> omega

/-- From callback `k` on the target stays where it is, the learned floor is down to the
configured one and no unstable regime is in force. -/
structure RestsFrom (l : SteadyLink F) (c : TargetController) (k level : ℕ) : Prop where
  target : ∀ n ≥ k, (l.trace c).target n = level
  floor : ∀ n ≥ k, ((l.trace c).control n).probeFloor ≤ l.minDepth
  regime : ∀ n ≥ k, (l.stats.unstableRegimeUntil.any fun regimeEnd =>
    l.tick n < regimeEnd ∧ l.stats.stabilityRatio < 0.5) = false

namespace RestsFrom

variable {m : ℕ}

theorem mono (h : l.RestsFrom c k level) (hn : k ≤ n) : l.RestsFrom c n level :=
  ⟨fun m hm => h.target m (hn.trans hm), fun m hm => h.floor m (hn.trans hm),
    fun m hm => h.regime m (hn.trans hm)⟩

/-- A goal off the target stays, unless the quantised target takes its place. -/
theorem goal_stays (h : l.RestsFrom c k level) (hoff : ((l.trace c).dwelt k).rampGoal ≠ level)
    (hm : k ≤ m) :
    ((l.trace c).dwelt m).rampGoal = ((l.trace c).dwelt k).rampGoal ∨
      l.quantized ≠ level ∧ ((l.trace c).dwelt m).rampGoal = l.quantized := by
  induction m, hm using Nat.le_induction with
  | base => exact Or.inl rfl
  | succ m hm ih =>
    have hkept : (l.trace c).goal (m + 1) = ((l.trace c).dwelt m).rampGoal := by
      apply DepthTrace.goal_of_ramping
      rw [h.target m hm]
      rcases ih with hsame | ⟨hne, hsame⟩ <;> omega
    rcases dwelt_goal h.floor (Nat.le_succ_of_le hm) with hsame | ⟨hne, hsame⟩
    · rw [hsame, hkept]
      exact ih
    · rw [h.target (m + 1) (Nat.le_succ_of_le hm)] at hne
      exact Or.inr ⟨hne, hsame⟩

/-- The target is not pressed up: the goal would become the quantised target, and the ramp
would take the target there. -/
theorem not_presses (h : l.RestsFrom c k level) : ¬level + l.hysteresis < l.quantized := by
  intro hpress
  have hle := l.minDepth_le_quantized
  obtain ⟨n, hn, hcommits⟩ := DepthTrace.commits_of_presses (t := l.trace c) (k := k)
    false fun n hn => by
      rw [h.target n hn]
      exact hpress
  have hrest := h.mono hn
  have hgoal : ((l.trace c).dwelt n).rampGoal = l.quantized := by
    obtain ⟨-, -, -, hlow⟩ := (l.trace c).dwelt_same n
    have hfloor := hlow.trans (h.floor n hn)
    exact (TargetController.dwelt_of_commits hcommits).trans (max_eq_left (hfloor.trans hle))
  have hstays : ∀ m ≥ n, ((l.trace c).dwelt m).rampGoal = l.quantized := by
    intro m hm
    rcases hrest.goal_stays (by omega) hm with hsame | ⟨-, hsame⟩
    · exact hsame.trans hgoal
    · exact hsame
  refine DepthTrace.not_rests_of_ramping hrest.target (fun m hm hdown => ?_) fun m hm => ?_
  · rw [hstays m hm] at hdown
    omega
  · rw [hstays m hm]
    omega

/-- Above the learned floor the goal is the target. -/
theorem goal_eq (h : l.RestsFrom c k level)
    (hfloor : ∀ n ≥ k, ((l.trace c).control n).probeFloor < level) :
    ((l.trace c).dwelt k).rampGoal = level := by
  by_contra hoff
  refine DepthTrace.not_rests_of_ramping h.target (fun m hm _ => hfloor m hm) fun m hm => ?_
  rcases h.goal_stays hoff hm with hsame | ⟨hne, hsame⟩
  · rwa [hsame]
  · rwa [hsame]

/-- So it is above the configured floor. -/
theorem goal_of_above (h : l.RestsFrom c k level) (habove : l.minDepth < level) :
    ((l.trace c).dwelt k).rampGoal = level :=
  h.goal_eq fun n hn => lt_of_le_of_lt (h.floor n hn) habove

/-- Above the configured floor every callback probes. -/
theorem control_succ (h : l.RestsFrom c k level) (hcalm : (0.2 : F) < l.stats.stabilityRatio)
    (habove : l.minDepth < level) :
    (l.trace c).control (k + 1) = ((l.trace c).dwelt k).probeDown l.stats
      (TargetController.adaptiveQuantum l.config) l.minDepth (l.tick k) := by
  have htarget : ((l.trace c).dwelt k).effectiveTarget = level :=
    ((l.trace c).dwelt_same k).1.trans (h.target k le_rfl)
  rw [(l.trace c).control_settle k]
  unfold TargetController.settle
  rw [if_neg (by rw [h.goal_of_above habove, htarget]; exact not_not.mpr rfl), if_pos]
  · rfl
  · exact ⟨hcalm, by rw [htarget]; exact habove, h.regime k le_rfl⟩

/-- The target rests at the configured floor or below it: a probe would lower the goal. -/
theorem level_le (h : l.RestsFrom c k level) (hcalm : (0.2 : F) < l.stats.stabilityRatio) :
    level ≤ l.minDepth := by
  by_contra habove
  rw [Nat.not_le] at habove
  have hlowers : ∀ n ≥ k, ((l.trace c).control n).probeDownCountdown ≠ 0 ∧
      ((l.trace c).control (n + 1)).probeDownCountdown <
        ((l.trace c).control n).probeDownCountdown := by
    intro n hn
    have hstep := (h.mono hn).control_succ hcalm habove
    obtain ⟨htarget, -, hcountdown, hfloor⟩ := (l.trace c).dwelt_same n
    rw [h.target n hn] at htarget
    rcases ((l.trace c).dwelt n).probeDown_due l.stats (l.tick n)
      (TargetController.adaptiveQuantum_pos l.config) (htarget.symm ▸ habove)
      (hfloor.trans (h.floor n hn)) with hlower | hcloser
    · have hgoal : ((l.trace c).dwelt (n + 1)).rampGoal = level :=
        (h.mono (Nat.le_succ_of_le hn)).goal_of_above habove
      have hlow : (l.trace c).goal (n + 1) < level := by
        unfold DepthTrace.goal
        rw [hstep, ← htarget]
        exact hlower
      rcases dwelt_goal (n := n + 1) h.floor (Nat.le_succ_of_le hn) with hsame | ⟨hne, hsame⟩
      · omega
      · rw [h.target (n + 1) (Nat.le_succ_of_le hn)] at hne
        omega
    · rw [hstep, ← hcountdown]
      exact hcloser
  obtain ⟨n, hn, hdue⟩ := exists_eq_zero_of_countdown
    (f := fun n => ((l.trace c).control n).probeDownCountdown) (k := k)
    fun n hn _ => (hlowers n hn).2
  exact (hlowers n hn).1 hdue

end RestsFrom

/-- A target that rests does so from a callback on at which the floor and the regime are out
of the way. -/
theorem restsFrom_of_const (h : EventuallyConst (l.trace c).target atTop) :
    ∃ k level, l.RestsFrom c k level := by
  obtain ⟨rest, hrest⟩ := eventuallyConst_atTop.mp h
  obtain ⟨relaxed, hrelaxed⟩ := l.floor_relaxes c
  obtain ⟨calm, hregime⟩ := l.regime_ends
  obtain ⟨k, hk, hk', hk''⟩ : ∃ k, rest ≤ k ∧ relaxed ≤ k ∧ calm ≤ k :=
    ⟨max rest (max relaxed calm), by omega, by omega, by omega⟩
  exact ⟨k, (l.trace c).target rest, fun n hn => hrest n (hk.trans hn),
    fun n hn => hrelaxed n (hk'.trans hn), fun n hn => hregime n (hk''.trans hn)⟩

/-- With probing, and a raw target that demands more than the dead zone above the configured
floor, the target does not come to rest. -/
theorem not_rests (hcalm : (0.2 : F) < l.stats.stabilityRatio)
    (hdemand : l.minDepth + l.hysteresis < l.quantized) :
    ¬EventuallyConst (l.trace c).target atTop := by
  intro hconst
  obtain ⟨k, level, h⟩ := restsFrom_of_const hconst
  have hlow := h.level_le hcalm
  have hpress := h.not_presses
  omega

end Unrest

section Hunting

/-- After the dwell the callback lowers the goal: it probes. -/
def Probes (l : SteadyLink F) (c : TargetController) (n : ℕ) : Prop :=
  (l.trace c).goal (n + 1) ≠ ((l.trace c).dwelt n).rampGoal

/-- A probe goes below a target above the configured floor, and not below that floor. -/
theorem of_probes (h : l.Probes c n) :
    (0.2 : F) < l.stats.stabilityRatio ∧ l.minDepth ≤ (l.trace c).target n ∧
      l.minDepth ≤ (l.trace c).goal (n + 1) := by
  have hgoal : (l.trace c).goal (n + 1) = (((l.trace c).dwelt n).settle l.stats
      (TargetController.adaptiveQuantum l.config) l.minDepth (l.tick n)).rampGoal :=
    congrArg TargetController.rampGoal ((l.trace c).control_settle n)
  obtain ⟨htarget, -⟩ := (l.trace c).dwelt_same n
  obtain ⟨-, hsettled⟩ := ((l.trace c).dwelt n).settle_rampGoal l.stats
    (TargetController.adaptiveQuantum l.config) l.minDepth (l.tick n)
  rcases hsettled with hkept | ⟨-, hcalm, habove, -, hdepth⟩
  · exact absurd (hgoal.trans hkept) h
  · exact ⟨hcalm, htarget ▸ habove.le, hgoal.symm ▸ hdepth⟩

/-- Without probing, or when the raw target demands no more than the dead zone above the
configured floor, no probe has to be ramped up again. -/
theorem not_commits_of_probes (hc : (l.trace c).Within)
    (h : ¬(0.2 : F) < l.stats.stabilityRatio ∨ l.quantized ≤ l.minDepth + l.hysteresis)
    {m : ℕ} (hm : n < m) (hprobes : l.Probes c n) :
    ¬((l.trace c).control m).Commits l.config l.quantized false := by
  obtain ⟨hcalm, htarget, hgoal⟩ := of_probes hprobes
  have hclose := h.resolve_left (not_not.mpr hcalm)
  rintro ⟨hpress, -⟩
  have hlater : l.minDepth ≤ ((l.trace c).control m).effectiveTarget :=
    DepthTrace.target_minDepth hc htarget hgoal hm.le
  change ((l.trace c).control m).effectiveTarget + l.hysteresis < _ at hpress
  omega

/-- From every adaptive controller a steady link brings the target to rest, without ramping
up again what it probed down, exactly when it does not probe or the raw target demands no
more than the dead zone above the configured floor. -/
theorem no_hunting_iff (config : JitterConfig F) (clock : Instant) (calls : List (DepthCall F))
    (l : SteadyLink F) (c : TargetController)
    (hrun : (DepthDrive.machine config clock).run calls = ⟨l.config, c⟩) :
    (EventuallyConst (fun n => ((DepthDrive.machine config clock).run
        (calls ++ (l.trace c).advances n)).control.effectiveTarget) atTop ∧
      ∀ n m, n < m → l.Probes c n → ¬((DepthDrive.machine config clock).run
        (calls ++ (l.trace c).advances m)).control.Commits l.config l.quantized false) ↔
      ¬(0.2 : F) < l.stats.stabilityRatio ∨ l.quantized ≤ l.minDepth + l.hysteresis := by
  have hwithin : (l.trace c).Within := DepthTrace.within_of_run config clock calls hrun
  have hruns : ∀ n, (DepthDrive.machine config clock).run (calls ++ (l.trace c).advances n) =
      ⟨l.config, (l.trace c).control n⟩ := by
    intro n
    unfold Machine.run at hrun ⊢
    rw [Machine.runFrom_append, hrun]
    exact DepthTrace.runFrom_advances _ rfl (l.trace c) n
  simp only [hruns]
  refine ⟨fun ⟨hconst, _⟩ => ?_, fun h => ⟨target_rests hwithin h, fun n m hm hprobes => ?_⟩⟩
  · by_contra hnot
    obtain ⟨hcalm, hdemand⟩ := not_or.mp hnot
    exact not_rests (not_not.mp hcalm) (Nat.lt_of_not_le hdemand) hconst
  · exact not_commits_of_probes hwithin h hm hprobes

/-- A calm link whose raw target stays at twenty frames. -/
def calmLink : SteadyLink SoftFloat where
  config := DepthDrive.quietConfig
  stats := { JitterStats.new with cleanStreak := 300, iatPercentileTarget := 20.0 }
  rawTarget := 20
  start := 0
  adaptive := rfl

/-- Probing takes the target of twenty frames down until the dwell ramps it up again. -/
theorem not_no_hunting_calmLink :
    ¬EventuallyConst (fun n => ((DepthDrive.machine DepthDrive.quietConfig 0).run
      ((calmLink.trace (TargetController.new 0)).advances n)).control.effectiveTarget) atTop := by
  have hruns : ∀ n, (DepthDrive.machine DepthDrive.quietConfig 0).run
      ((calmLink.trace (TargetController.new 0)).advances n) =
        ⟨calmLink.config, (calmLink.trace (TargetController.new 0)).control n⟩ :=
    DepthTrace.runFrom_advances _ rfl (calmLink.trace (TargetController.new 0))
  simp only [hruns]
  exact not_rests (by decide) (by decide)

/-- The calm link without a demand. -/
def flatLink : SteadyLink SoftFloat := { calmLink with rawTarget := 0 }

theorem no_hunting_iff_flatLink :
    EventuallyConst (fun n => ((DepthDrive.machine DepthDrive.quietConfig 0).run
      ([] ++ (flatLink.trace (TargetController.new 0)).advances n)).control.effectiveTarget)
      atTop :=
  ((no_hunting_iff DepthDrive.quietConfig 0 [] flatLink (TargetController.new 0) rfl).mpr
    (Or.inr (by decide))).1

end Hunting

end SteadyLink

end Gemacast.Jitter
