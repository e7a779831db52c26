import Gemacast.Jitter.CapOverride

/-!
# What a declined floor leaves to the gap

A starvation that the delivery gap explains raises no floor: the gap term of the raw target lies
above the starved depth already. The target follows the raw target only from outside the dead
zone, after the dwell. As long as nothing takes the target down meanwhile, it rises within the
dwell and a ramp interval exactly when the quantised target clears the dead zone for long enough.
-/

namespace Gemacast.Jitter

open Gemacast.Core

namespace TargetController

variable {F : Type} [Binary32 F] {c : TargetController} {config : JitterConfig F}
  {stats : JitterStats F} {rawTarget minDepth : ℕ} {now : Instant}

/-- The gap covers the starved depth. -/
def Declines (c : TargetController) (gap : F) : Prop :=
  1.0 < gap ∧ Binary32.ofNat c.effectiveTarget ≤ gap

instance (c : TargetController) (gap : F) : Decidable (c.Declines gap) :=
  inferInstanceAs (Decidable (_ ∧ _))

/-- Then the starvation raises no floor. -/
theorem applyStarvationFloor_of_declines (h : c.Declines stats.maxGapFrames) :
    c.applyStarvationFloor config stats = c :=
  if_pos h

/-- A probe of the controller at rest lowers the goal. -/
def ProbesLower (c : TargetController) (config : JitterConfig F) (stats : JitterStats F)
    (minDepth : ℕ) (now : Instant) : Prop :=
  c.probeAllowed stats minDepth now ∧ c.probeDownCountdown ≤ 1 ∧
    max (max (quantizeTarget (c.effectiveTarget - adaptiveQuantum config) (adaptiveQuantum config))
      minDepth) (c.relaxProbeFloor (adaptiveQuantum config) minDepth now).probeFloor <
        c.effectiveTarget

/-- A probe that lowers nothing leaves target, goal and ramp. -/
theorem probeDown_of_not_lower {quantum : ℕ} (stats : JitterStats F) (now : Instant)
    (h : ¬(c.probeDownCountdown ≤ 1 ∧
      max (max (quantizeTarget (c.effectiveTarget - quantum) quantum) minDepth) c.probeFloor <
        c.effectiveTarget)) :
    (c.probeDown stats quantum minDepth now).effectiveTarget = c.effectiveTarget ∧
      (c.probeDown stats quantum minDepth now).rampGoal = c.rampGoal ∧
      (c.probeDown stats quantum minDepth now).rampCountdown = c.rampCountdown := by
  unfold probeDown
  dsimp only
  by_cases hdue : c.probeDownCountdown - 1 = 0
  · rw [if_pos hdue]
    refine ⟨rfl, if_neg fun hlower => h ⟨by omega, hlower⟩, rfl⟩
  · rw [if_neg hdue]
    exact ⟨rfl, rfl, rfl⟩

/-- A callback that is not pressed up keeps no evidence for a rise. -/
theorem advance_drops (hadaptive : config.staticTargetMs = none) (c : TargetController)
    (stats : JitterStats F) (now : Instant)
    (h : ¬Presses config (quantizedTarget config rawTarget minDepth) c.effectiveTarget false) :
    (c.advance config stats rawTarget minDepth now).evidence false = 1 := by
  apply if_pos
  rcases advance_evidence hadaptive c stats rawTarget minDepth now with
    hcount | ⟨falling, hpress, hside, -⟩
  · exact Or.inl hcount
  · rw [hside]
    cases falling with
    | false => exact absurd hpress h
    | true => exact Or.inr Bool.false_ne_true

end TargetController

namespace DepthTrace

variable {F : Type} [Binary32 F] {t : DepthTrace F} {level window n m k : ℕ}

/-- As long as the target is at the level, no callback commits to a lower goal or probes below. -/
def Undisturbed (t : DepthTrace F) (level window : ℕ) : Prop :=
  ∀ n < window, t.target n = level →
    ¬(t.control n).Commits t.config (t.quantized n) true ∧
      ¬(t.control n).ProbesLower t.config (t.stats n) t.minDepth (t.now n)

/-- The evidence for a rise from the level once callback `n` is counted, were it to press. -/
def streak (t : DepthTrace F) (level : ℕ) : ℕ → ℕ
  | 0 => t.first.evidence false
  | n + 1 => if level + t.hysteresis < t.quantized n then t.streak level n + 1 else 1

/-- At callback `n` the quantised target has cleared the dead zone above the level for the whole
dwell. -/
def DwellEnds (t : DepthTrace F) (level n : ℕ) : Prop :=
  level + t.hysteresis < t.quantized n ∧
    TargetController.adaptiveDwell t.config ≤ t.streak level n

instance (t : DepthTrace F) (level : ℕ) : DecidablePred (t.DwellEnds level) := fun _ =>
  inferInstanceAs (Decidable (_ ∧ _))

section Steps

/-- A goal that is not below the target goes above it by a commitment only. -/
theorem lt_dwelt_goal_iff (htarget : t.target n = level) (hgoal : level ≤ t.goal n)
    (hcommits : ¬(t.control n).Commits t.config (t.quantized n) true) :
    level ≤ (t.dwelt n).rampGoal ∧
      (level < (t.dwelt n).rampGoal ↔
        level < t.goal n ∨ (t.control n).Commits t.config (t.quantized n) false) := by
  have hup (h : (t.control n).Commits t.config (t.quantized n) false) :
      level < (t.dwelt n).rampGoal := by
    have hdwelt : (t.dwelt n).rampGoal = max (t.quantized n) (t.dwelt n).probeFloor :=
      TargetController.dwelt_of_commits h
    have hpress : t.target n + t.hysteresis < t.quantized n := h.1
    omega
  rcases (t.control n).dwelt_rampGoal t.config (t.rawTarget n) t.minDepth (t.now n) with
    hkept | ⟨falling, hfalling, -⟩
  · have hsame : (t.dwelt n).rampGoal = t.goal n := hkept
    refine ⟨hsame.symm ▸ hgoal, fun h => Or.inl (hsame ▸ h), ?_⟩
    rintro (h | h)
    · exact hsame.symm ▸ h
    · exact hup h
  · cases falling with
    | true => exact absurd hfalling hcommits
    | false => exact ⟨(hup hfalling).le, fun _ => Or.inr hfalling, fun _ => hup hfalling⟩

/-- On its goal the target stays, unless a probe lowers the goal. -/
theorem rest_step (htarget : t.target n = level) (hgoal : (t.dwelt n).rampGoal = level)
    (hprobes : ¬(t.control n).ProbesLower t.config (t.stats n) t.minDepth (t.now n)) :
    t.target (n + 1) = level ∧ t.goal (n + 1) = level ∧
      (t.control (n + 1)).rampCountdown = (t.control n).rampCountdown := by
  obtain ⟨hsame, hcountdown, hprobe, -⟩ := t.dwelt_same n
  have hfloor : (t.dwelt n).probeFloor = ((t.control n).relaxProbeFloor
      (TargetController.adaptiveQuantum t.config) t.minDepth (t.now n)).probeFloor :=
    (TargetController.dwell_spec _ t.config (t.quantized n)).1
  unfold target goal
  rw [t.control_settle n, TargetController.settle, if_neg (by rw [hsame, htarget, hgoal]; simp)]
  split_ifs with hallowed
  · rw [TargetController.probeAllowed, hsame] at hallowed
    have hkept := TargetController.probeDown_of_not_lower (t.stats n) (t.now n) (by
      rw [hprobe, hfloor, hsame]
      exact fun h => hprobes ⟨hallowed, h⟩)
    rw [hsame, hgoal, hcountdown] at hkept
    exact ⟨hkept.1.trans htarget, hkept.2⟩
  · exact ⟨hsame.trans htarget, hgoal, hcountdown⟩

/-- Below its goal the target rises when a step of the ramp is due, and waits until then. -/
theorem climb_step (htarget : t.target n = level) (hup : level < (t.dwelt n).rampGoal) :
    t.goal (n + 1) = (t.dwelt n).rampGoal ∧
      ((t.control n).rampCountdown = 0 → level < t.target (n + 1)) ∧
      ((t.control n).rampCountdown ≠ 0 → t.target (n + 1) = level ∧
        (t.control (n + 1)).rampCountdown + 1 = (t.control n).rampCountdown) := by
  obtain ⟨hsame, hcountdown, -, -⟩ := t.dwelt_same n
  have hoff : (t.dwelt n).rampGoal ≠ t.target n := by omega
  refine ⟨goal_of_ramping hoff, fun hdue => ?_, fun hwait => ?_⟩
  · unfold target
    rw [control_of_ramping hoff, TargetController.ramp, if_pos (hcountdown.trans hdue),
      if_pos (by omega)]
    dsimp only [rampUpStep]
    omega
  · unfold target
    rw [control_of_ramping hoff, TargetController.ramp, if_neg (by omega)]
    dsimp only
    omega

/-- From below its goal the target waits for the ramp, whatever the dwell does meanwhile. -/
theorem waits_for_ramp (h : t.Undisturbed level window) (htarget : t.target k = level)
    (hup : level < (t.dwelt k).rampGoal) (n : ℕ) (hn : n ≤ (t.control k).rampCountdown)
    (hwindow : k + n < window) :
    t.target (k + n) = level ∧ level < (t.dwelt (k + n)).rampGoal ∧
      (t.control (k + n)).rampCountdown + n = (t.control k).rampCountdown := by
  induction n with
  | zero => exact ⟨htarget, hup, rfl⟩
  | succ n ih =>
    obtain ⟨hlevel, habove, hcountdown⟩ := ih (by omega) (by omega)
    obtain ⟨hgoal, -, hwaits⟩ := climb_step hlevel habove
    obtain ⟨hlater, hnext⟩ := hwaits (by omega)
    have hgoals : level < t.goal (k + n + 1) := by rwa [hgoal]
    obtain ⟨hcommits, -⟩ := h (k + n + 1) hwindow hlater
    have hdwelt := (lt_dwelt_goal_iff hlater hgoals.le hcommits).2.mpr (Or.inl hgoals)
    rw [← Nat.add_assoc]
    exact ⟨hlater, hdwelt, by omega⟩

/-- So it rises if the window is long enough, and else stays for the rest of the window. -/
theorem rises_iff (h : t.Undisturbed level window) (htarget : t.target k = level)
    (hup : level < (t.dwelt k).rampGoal) :
    (∃ n, k ≤ n ∧ n ≤ window ∧ level < t.target n) ↔
      k + (t.control k).rampCountdown < window := by
  constructor
  · rintro ⟨n, hn, hwindow, hrises⟩
    by_contra hlate
    obtain ⟨i, rfl⟩ := Nat.exists_eq_add_of_le hn
    cases i with
    | zero => exact absurd hrises (by rw [Nat.add_zero, htarget]; exact Nat.lt_irrefl _)
    | succ i =>
      obtain ⟨hlevel, habove, hcountdown⟩ :=
        waits_for_ramp h htarget hup i (by omega) (by omega)
      obtain ⟨-, -, hwaits⟩ := climb_step hlevel habove
      have hstays := (hwaits (by omega)).1
      rw [← Nat.add_assoc, hstays] at hrises
      exact Nat.lt_irrefl _ hrises
  · intro hsoon
    obtain ⟨hlevel, habove, hcountdown⟩ :=
      waits_for_ramp h htarget hup _ le_rfl hsoon
    obtain ⟨-, hdue, -⟩ := climb_step hlevel habove
    exact ⟨_, by omega, by omega, hdue (by omega)⟩

/-- As long as no dwell ends, the target rests on its goal and gathers evidence. -/
theorem rests_until (h : t.Undisturbed level window) (htarget : t.target 0 = level)
    (hgoal : t.goal 0 = level) (n : ℕ) (hn : n ≤ window) (hends : ∀ i < n, ¬t.DwellEnds level i) :
    t.target n = level ∧ t.goal n = level ∧
      (t.control n).rampCountdown = t.first.rampCountdown ∧
      (t.control n).evidence false = t.streak level n := by
  induction n with
  | zero => exact ⟨htarget, hgoal, rfl, rfl⟩
  | succ n ih =>
    obtain ⟨hlevel, hrests, hcountdown, hevidence⟩ :=
      ih (by omega) fun i hi => hends i (by omega)
    obtain ⟨hdown, hprobes⟩ := h n hn hlevel
    have hup : ¬(t.control n).Commits t.config (t.quantized n) false := by
      rintro ⟨hpress, hdwell⟩
      change t.target n + t.hysteresis < t.quantized n at hpress
      rw [hlevel] at hpress
      exact hends n (Nat.lt_succ_self n) ⟨hpress, hevidence ▸ hdwell⟩
    obtain ⟨hle, hlt⟩ := lt_dwelt_goal_iff hlevel hrests.ge hdown
    have hsame : (t.dwelt n).rampGoal = level := by
      by_contra hne
      exact (hlt.mp (by omega)).elim (by omega) hup
    obtain ⟨hnext, hgoal', hcountdown'⟩ := rest_step hlevel hsame hprobes
    refine ⟨hnext, hgoal', hcountdown'.trans hcountdown, ?_⟩
    rw [streak]
    split_ifs with hdemands
    · rw [← hevidence]
      refine TargetController.advance_counts t.adaptive (t.stats n) ?_ ?_
      · change t.target n + t.hysteresis < t.quantized n
        rwa [hlevel]
      · by_contra hlong
        refine hup ⟨?_, Nat.le_of_not_lt hlong⟩
        change t.target n + t.hysteresis < t.quantized n
        rwa [hlevel]
    · refine TargetController.advance_drops t.adaptive (t.control n) (t.stats n) (t.now n) ?_
      change ¬t.target n + t.hysteresis < t.quantized n
      rwa [hlevel]

/-- A target below its goal rises within the window if the ramp is due in it. -/
theorem rises_of_goal (h : t.Undisturbed (t.target 0) window) (hwindow : 0 < window)
    (hgoal : t.target 0 < t.goal 0) :
    (∃ n ≤ window, t.target 0 < t.target n) ↔ t.first.rampCountdown < window := by
  have hup := (lt_dwelt_goal_iff rfl hgoal.le (h 0 hwindow rfl).1).2.mpr (Or.inl hgoal)
  have hiff := rises_iff h rfl hup
  simp only [Nat.zero_le, true_and, Nat.zero_add] at hiff
  exact hiff

/-- Among the dwells that end there is a first. -/
theorem exists_first_ends (hends : t.DwellEnds level m) :
    ∃ k ≤ m, t.DwellEnds level k ∧ ∀ i < k, ¬t.DwellEnds level i :=
  ⟨Nat.find ⟨m, hends⟩, Nat.find_min' _ hends, Nat.find_spec _, fun _ hi => Nat.find_min _ hi⟩

/-- A target at rest rises after the first dwell that ends, if the ramp is due in the window. -/
theorem rises_of_ends (h : t.Undisturbed (t.target 0) window) (hgoal : t.goal 0 = t.target 0)
    (hends : t.DwellEnds (t.target 0) m) (hwindow : m < window)
    (hfirst : ∀ i < m, ¬t.DwellEnds (t.target 0) i) :
    (∃ n ≤ window, t.target 0 < t.target n) ↔ m + t.first.rampCountdown < window := by
  obtain ⟨hlevel, hrests, hcountdown, hevidence⟩ := rests_until h rfl hgoal m hwindow.le hfirst
  have hcommits : (t.control m).Commits t.config (t.quantized m) false := by
    refine ⟨?_, hevidence.symm ▸ hends.2⟩
    change t.target m + t.hysteresis < t.quantized m
    rw [hlevel]
    exact hends.1
  have hup := (lt_dwelt_goal_iff hlevel hrests.ge (h m hwindow hlevel).1).2.mpr (Or.inr hcommits)
  rw [← hcountdown, ← rises_iff h hlevel hup]
  refine exists_congr fun n =>
    ⟨fun ⟨hn, hrises⟩ => ⟨?_, hn, hrises⟩, fun ⟨_, hn, hrises⟩ => ⟨hn, hrises⟩⟩
  by_contra hearly
  have hstays := (rests_until h rfl hgoal n hn fun i hi => hfirst i (by omega)).1
  exact hrises.ne' hstays

end Steps

/-- A target that nothing takes down rises above its first level within the window exactly when
its goal is above that level, or a dwell ends, early enough for the ramp. -/
theorem rises_within_iff (h : t.Undisturbed (t.target 0) window) (hwindow : 0 < window)
    (hgoal : t.target 0 ≤ t.goal 0) :
    (∃ n ≤ window, t.target 0 < t.target n) ↔ ∃ m, m + t.first.rampCountdown < window ∧
      (t.target 0 < t.goal 0 ∨ t.DwellEnds (t.target 0) m) := by
  rcases hgoal.lt_or_eq with hup | hrest
  · rw [rises_of_goal h hwindow hup]
    exact ⟨fun hsoon => ⟨0, by omega, Or.inl hup⟩, fun ⟨m, hsoon, _⟩ => by omega⟩
  constructor
  · rintro ⟨n, hn, hrises⟩
    by_cases hends : ∃ m < n, t.DwellEnds (t.target 0) m
    · obtain ⟨m, hm, hends⟩ := hends
      obtain ⟨k, hk, hends, hfirst⟩ := exists_first_ends hends
      exact ⟨k, (rises_of_ends h hrest.symm hends (by omega) hfirst).mp ⟨n, hn, hrises⟩,
        Or.inr hends⟩
    · have hstays := (rests_until h rfl hrest.symm n hn fun i hi hi' => hends ⟨i, hi, hi'⟩).1
      exact absurd hstays hrises.ne'
  · rintro ⟨m, hsoon, hm⟩
    obtain ⟨k, hk, hends, hfirst⟩ := exists_first_ends (hm.resolve_left hrest.not_lt)
    exact (rises_of_ends h hrest.symm hends (by omega) hfirst).mpr (by omega)

end DepthTrace

/-- A starvation whose floor is declined below the cap, and the callbacks after it while the gap
stays what it is. -/
structure DeclinedFloor (F : Type) [Binary32 F] where
  /-- The configuration in force. -/
  config : JitterConfig F
  /-- The controller that has declined the floor. -/
  first : TargetController
  /-- The cap of TCP mode. -/
  capOverride : Option F
  /-- The statistics at each callback. -/
  stats : ℕ → JitterStats F
  /-- The instant of each callback. -/
  now : ℕ → Instant
  /-- The worst delivery gap. -/
  gap : F
  /-- The gap covers the starved depth. -/
  declines : first.Declines gap
  /-- The gap stays. -/
  held : ∀ n, (stats n).maxGapFrames = gap
  /-- There is room for a quantum below the cap. -/
  room : first.effectiveTarget + TargetController.adaptiveQuantum config ≤
    TargetController.comfortCap config

namespace DeclinedFloor

variable {F : Type} [Binary32 F] {d : DeclinedFloor F}

/-- The depth that starved. -/
def starved (d : DeclinedFloor F) : ℕ := d.first.effectiveTarget

/-- The raw target of a callback. -/
def rawTarget (d : DeclinedFloor F) (n : ℕ) : ℕ :=
  (TargetController.targetBreakdown d.config (d.stats n) d.capOverride).raw

/-- The controller after `n` callbacks. -/
def control (d : DeclinedFloor F) : ℕ → TargetController
  | 0 => d.first
  | n + 1 => (d.control n).advance d.config (d.stats n) (d.rawTarget n)
      (TargetController.minDepthFrames d.config) (d.now n)

/-- The dwell of a rise, and a ramp interval. -/
def window (d : DeclinedFloor F) : ℕ := TargetController.adaptiveDwell d.config + rampInterval

/-- The target rises above the starved depth in time without a floor. -/
def Redundant (d : DeclinedFloor F) : Prop :=
  ∃ n ≤ d.window, d.starved < (d.control n).effectiveTarget

/-- The callbacks of an adaptive controller. -/
def trace (d : DeclinedFloor F) (hadaptive : d.config.staticTargetMs = none) : DepthTrace F :=
  ⟨d.config, d.first, d.stats, d.rawTarget, d.now, hadaptive⟩

/-- Nothing takes an adaptive controller down from the starved depth: its goal is not below, no
callback commits to a lower goal, and none probes. -/
def Undisturbed (d : DeclinedFloor F) : Prop :=
  ∀ hadaptive : d.config.staticTargetMs = none, d.starved ≤ d.first.rampGoal ∧
    (d.trace hadaptive).Undisturbed d.starved d.window

/-- The static target lies above the starved depth; or the controller is adaptive, its goal lies
above that depth or a dwell ends in which the quantised target clears the dead zone above it, and
the ramp is due before the window ends. -/
def Clears (d : DeclinedFloor F) : Prop :=
  (∃ staticMs, d.config.staticTargetMs = some staticMs ∧ d.starved < msToFramesCeil staticMs) ∨
    ∃ hadaptive : d.config.staticTargetMs = none, ∃ m, m + d.first.rampCountdown < d.window ∧
      (d.starved < d.first.rampGoal ∨ (d.trace hadaptive).DwellEnds d.starved m)

theorem window_pos (d : DeclinedFloor F) : 0 < d.window := by
  unfold window rampInterval
  omega

theorem control_trace (hadaptive : d.config.staticTargetMs = none) (n : ℕ) :
    (d.trace hadaptive).control n = d.control n := by
  induction n with
  | zero => rfl
  | succ n ih =>
    rw [DepthTrace.control, ih]
    rfl

/-- A static target is taken over at once. -/
theorem control_of_static {staticMs : ℕ} (hstatic : d.config.staticTargetMs = some staticMs)
    (n : ℕ) : (d.control (n + 1)).effectiveTarget = msToFramesCeil staticMs := by
  have hraw : d.rawTarget n = msToFramesCeil staticMs := by
    unfold rawTarget TargetController.targetBreakdown
    rw [hstatic]
  rw [control, TargetController.advance, hstatic]
  exact hraw

theorem redundant_of_static {staticMs : ℕ} (hstatic : d.config.staticTargetMs = some staticMs) :
    d.Redundant ↔ d.starved < msToFramesCeil staticMs := by
  constructor
  · rintro ⟨n, -, hrises⟩
    cases n with
    | zero => exact absurd hrises (Nat.lt_irrefl _)
    | succ n => exact control_of_static hstatic n ▸ hrises
  · intro hrises
    exact ⟨1, d.window_pos, (control_of_static hstatic 0).symm ▸ hrises⟩

theorem redundant_of_adaptive (hadaptive : d.config.staticTargetMs = none)
    (h : d.Undisturbed) : d.Redundant ↔ ∃ m, m + d.first.rampCountdown < d.window ∧
      (d.starved < d.first.rampGoal ∨ (d.trace hadaptive).DwellEnds d.starved m) := by
  obtain ⟨hgoal, hundisturbed⟩ := h hadaptive
  have hiff := DepthTrace.rises_within_iff hundisturbed d.window_pos hgoal
  simp only [DepthTrace.target, DepthTrace.goal, control_trace] at hiff
  exact hiff

/-- A link with a delivery gap of the given frames and no jitter, never calm. -/
def gappedStats (gap : SoftFloat) : JitterStats SoftFloat :=
  { JitterStats.new with iatPercentileTarget := 1.0, gapBuckets := fun _ => gap }

theorem not_calm_gappedStats (gap : SoftFloat) :
    ¬(0.2 : SoftFloat) < (gappedStats gap).stabilityRatio :=
  TcpDemand.not_calm_new

/-- A fresh controller starves at two frames, with a gap of eight. -/
def wideGap : DeclinedFloor SoftFloat where
  config := DepthDrive.quietConfig
  first := TargetController.new 0
  capOverride := none
  stats _ := gappedStats 8.0
  now _ := 0
  gap := 8.0
  declines := by decide +kernel
  held _ := by decide +kernel
  room := by decide +kernel

/-- A fresh controller starves at two frames, with a gap of two. -/
def narrowGap : DeclinedFloor SoftFloat where
  config := DepthDrive.quietConfig
  first := TargetController.new 0
  capOverride := none
  stats _ := gappedStats 2.0
  now _ := 0
  gap := 2.0
  declines := by decide +kernel
  held _ := by decide +kernel
  room := by decide +kernel

end DeclinedFloor

end Gemacast.Jitter
