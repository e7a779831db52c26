import Gemacast.Jitter.Depth

/-!
# How fast and on what evidence the target moves

A callback in adaptive mode gathers evidence against the target on one side at a time, and
commits to a new goal when the dwell of that side is over. The ramp then takes a step of at
most two frames up in two callbacks, or of one frame down in five.
-/

namespace Gemacast.Jitter

open Gemacast.Core

namespace TargetController

variable {F : Type} [Binary32 F] {c : TargetController} {config : JitterConfig F}
  {stats : JitterStats F} {quantized rawTarget minDepth : ℕ} {now : Instant} {falling : Bool}

section Dwell

/-- The raw target, snapped to the quantum and kept between the floor and the cap. -/
def quantizedTarget (config : JitterConfig F) (rawTarget minDepth : ℕ) : ℕ :=
  min (max (quantizeTarget rawTarget (adaptiveQuantum config)) minDepth)
    (max (comfortCap config) minDepth)

/-- The quantised target lies outside the dead zone around the target, on the given side. -/
def Presses (config : JitterConfig F) (quantized effective : ℕ) (falling : Bool) : Prop :=
  if falling then quantized + adaptiveHysteresis config < effective
  else effective + adaptiveHysteresis config < quantized

instance (config : JitterConfig F) (quantized effective : ℕ) (falling : Bool) :
    Decidable (Presses config quantized effective falling) := by
  unfold Presses
  infer_instance

/-- Callbacks the evidence must last. -/
def dwellOf (config : JitterConfig F) (falling : Bool) : ℕ :=
  if falling then downDwell else adaptiveDwell config

/-- The evidence on a side once this callback is counted. -/
def evidence (c : TargetController) (falling : Bool) : ℕ :=
  if c.targetExitCount = 0 ∨ falling ≠ c.exitFalling then 1 else c.targetExitCount + 1

/-- The callback commits to the quantised target. -/
def Commits (c : TargetController) (config : JitterConfig F) (quantized : ℕ) (falling : Bool) :
    Prop :=
  Presses config quantized c.effectiveTarget falling ∧
    dwellOf config falling ≤ c.evidence falling

/-- The target is pressed to one side at most. -/
theorem Presses.side {f f' : Bool} {effective : ℕ} (h : Presses config quantized effective f)
    (h' : Presses config quantized effective f') : f = f' := by
  unfold Presses at h h'
  cases f <;> cases f' <;> simp_all <;> omega

/-- Inside the dead zone the evidence is dropped. -/
theorem dwell_of_inside (h : ∀ f, ¬Presses config quantized c.effectiveTarget f) :
    c.dwell config quantized = { c with targetExitCount := 0 } := by
  have hup : ¬c.effectiveTarget + adaptiveHysteresis config < quantized := h false
  have hdown : ¬quantized + adaptiveHysteresis config < c.effectiveTarget := h true
  exact if_pos (by omega)

/-- Outside the dead zone the callback counts, and commits when the dwell is over. -/
theorem dwell_of_presses (h : Presses config quantized c.effectiveTarget falling) :
    c.dwell config quantized =
      if dwellOf config falling ≤ c.evidence falling then
        { c with
          exitFalling := falling, rampGoal := max quantized c.probeFloor, targetExitCount := 0 }
      else { c with exitFalling := falling, targetExitCount := c.evidence falling } := by
  have hside : decide (quantized < c.effectiveTarget) = falling := by
    unfold Presses at h
    cases falling <;> simp_all <;> omega
  have hout : ¬max c.effectiveTarget quantized - min c.effectiveTarget quantized ≤
      adaptiveHysteresis config := by
    unfold Presses at h
    cases falling <;> simp_all <;> omega
  unfold dwell evidence dwellOf
  dsimp only
  rw [if_neg hout, hside]
  by_cases hnew : c.targetExitCount = 0 ∨ falling ≠ c.exitFalling
  · simp only [if_pos hnew, Nat.zero_add]
  · simp only [if_neg hnew]
    obtain ⟨-, hsame⟩ := not_or.mp hnew
    rw [not_not.mp hsame]

/-- Dwelling touches the evidence and the goal only. -/
theorem dwell_eq (c : TargetController) (config : JitterConfig F) (quantized : ℕ) :
    ∃ exitFalling rampGoal targetExitCount, c.dwell config quantized =
      { c with exitFalling, rampGoal, targetExitCount } := by
  by_cases hpress : ∃ f, Presses config quantized c.effectiveTarget f
  · obtain ⟨f, hf⟩ := hpress
    rw [dwell_of_presses hf]
    split <;> exact ⟨_, _, _, rfl⟩
  · rw [dwell_of_inside (not_exists.mp hpress)]
    exact ⟨_, _, _, rfl⟩

/-- The goal is committed to by evidence only. -/
theorem dwell_rampGoal (c : TargetController) (config : JitterConfig F) (quantized : ℕ) :
    (c.dwell config quantized).rampGoal = c.rampGoal ∨
      ∃ falling, c.Commits config quantized falling ∧
        (c.dwell config quantized).rampGoal = max quantized c.probeFloor := by
  by_cases hpress : ∃ f, Presses config quantized c.effectiveTarget f
  · obtain ⟨f, hf⟩ := hpress
    rw [dwell_of_presses hf]
    split
    · rename_i hdue
      exact Or.inr ⟨f, ⟨hf, hdue⟩, rfl⟩
    · exact Or.inl rfl
  · rw [dwell_of_inside (not_exists.mp hpress)]
    exact Or.inl rfl

end Dwell

section Settle

/-- The controller once it has relaxed its floor and dwelt. -/
def dwelt (c : TargetController) (config : JitterConfig F) (rawTarget minDepth : ℕ)
    (now : Instant) : TargetController :=
  (c.relaxProbeFloor (adaptiveQuantum config) minDepth now).dwell config
    (quantizedTarget config rawTarget minDepth)

/-- What a callback does once it has dwelt: a step of the ramp, or a probe. -/
def settle (c : TargetController) (stats : JitterStats F) (quantum minDepth : ℕ) (now : Instant) :
    TargetController :=
  if c.effectiveTarget ≠ c.rampGoal then c.ramp
  else if c.probeAllowed stats minDepth now then c.probeDown stats quantum minDepth now
  else c

/-- A callback in adaptive mode relaxes the floor, dwells and settles. -/
theorem advance_eq (hadaptive : config.staticTargetMs = none) (c : TargetController)
    (stats : JitterStats F) (rawTarget minDepth : ℕ) (now : Instant) :
    c.advance config stats rawTarget minDepth now =
      (c.dwelt config rawTarget minDepth now).settle stats (adaptiveQuantum config) minDepth
        now := by
  unfold advance
  rw [hadaptive]
  rfl

/-- Relaxing touches the floor and its timer only. -/
theorem relaxProbeFloor_eq (c : TargetController) (quantum minDepth : ℕ) (now : Instant) :
    ∃ probeFloor lastFloorDecay, c.relaxProbeFloor quantum minDepth now =
      { c with probeFloor, lastFloorDecay } ∧ probeFloor ≤ c.probeFloor := by
  unfold relaxProbeFloor
  split_ifs
  · exact ⟨_, _, rfl, le_rfl⟩
  · exact ⟨_, _, rfl, le_rfl⟩
  · exact ⟨_, _, rfl, le_rfl⟩
  · exact ⟨_, _, rfl, by omega⟩

/-- Relaxing keeps the target and the evidence against it. -/
theorem relaxProbeFloor_evidence (c : TargetController) (quantum minDepth : ℕ) (now : Instant) :
    (c.relaxProbeFloor quantum minDepth now).effectiveTarget = c.effectiveTarget ∧
      (c.relaxProbeFloor quantum minDepth now).evidence = c.evidence := by
  obtain ⟨_, _, heq, -⟩ := c.relaxProbeFloor_eq quantum minDepth now
  rw [heq]
  exact ⟨rfl, rfl⟩

/-- Probing touches the goal and its timer only. -/
theorem probeDown_eq (c : TargetController) (stats : JitterStats F) (quantum minDepth : ℕ)
    (now : Instant) :
    ∃ rampGoal probeDownCountdown, c.probeDown stats quantum minDepth now =
      { c with rampGoal, probeDownCountdown } := by
  unfold probeDown
  dsimp only
  split_ifs <;> exact ⟨_, _, rfl⟩

/-- Settling keeps the evidence. -/
theorem settle_evidence (c : TargetController) (stats : JitterStats F) (quantum minDepth : ℕ)
    (now : Instant) :
    (c.settle stats quantum minDepth now).targetExitCount = c.targetExitCount ∧
      (c.settle stats quantum minDepth now).exitFalling = c.exitFalling := by
  unfold settle
  split_ifs
  · unfold ramp
    dsimp only
    split_ifs <;> exact ⟨rfl, rfl⟩
  · obtain ⟨_, _, heq⟩ := c.probeDown_eq stats quantum minDepth now
    rw [heq]
    exact ⟨rfl, rfl⟩
  · exact ⟨rfl, rfl⟩

/-- The target waits, or it is due: a rise of at most two frames makes the next step wait for
one callback, a fall of at most one frame makes it wait for four. -/
inductive Paced (c c' : TargetController) : Prop
  | waits (htarget : c'.effectiveTarget = c.effectiveTarget)
      (hcountdown : c.rampCountdown ≤ c'.rampCountdown + 1)
  | rises (hdue : c.rampCountdown = 0) (hlow : c.effectiveTarget ≤ c'.effectiveTarget)
      (hhigh : c'.effectiveTarget ≤ c.effectiveTarget + 2) (hcountdown : c'.rampCountdown = 1)
  | falls (hdue : c.rampCountdown = 0) (hlow : c.effectiveTarget ≤ c'.effectiveTarget + 1)
      (hhigh : c'.effectiveTarget ≤ c.effectiveTarget) (hcountdown : c'.rampCountdown = 4)

/-- A step of the ramp is paced, above the learned floor. -/
theorem ramp_paced (hfloor : c.probeFloor ≤ c.effectiveTarget) : c.Paced c.ramp := by
  unfold ramp
  dsimp only
  split_ifs with hdue hup
  · refine .rises hdue ?_ ?_ rfl
    · dsimp only
      omega
    · dsimp only [rampUpStep]
      omega
  · refine .falls hdue ?_ ?_ rfl
    · dsimp only
      omega
    · dsimp only
      omega
  · refine .waits rfl ?_
    dsimp only
    omega

/-- Settling is paced, above the learned floor. -/
theorem settle_paced (hfloor : c.probeFloor ≤ c.effectiveTarget) (stats : JitterStats F)
    (quantum minDepth : ℕ) (now : Instant) : c.Paced (c.settle stats quantum minDepth now) := by
  unfold settle
  split_ifs
  · exact ramp_paced hfloor
  · obtain ⟨_, _, heq⟩ := c.probeDown_eq stats quantum minDepth now
    rw [heq]
    exact .waits rfl (Nat.le_succ _)
  · exact .waits rfl (Nat.le_succ _)

/-- Up to there the target and its countdowns stay, and the floor is at most lowered. -/
theorem dwelt_eq (c : TargetController) (config : JitterConfig F) (rawTarget minDepth : ℕ)
    (now : Instant) :
    ∃ probeFloor lastFloorDecay exitFalling rampGoal targetExitCount,
      c.dwelt config rawTarget minDepth now =
        { c with probeFloor, lastFloorDecay, exitFalling, rampGoal, targetExitCount } ∧
      probeFloor ≤ c.probeFloor := by
  obtain ⟨probeFloor, lastFloorDecay, hrelaxed, hle⟩ :=
    c.relaxProbeFloor_eq (adaptiveQuantum config) minDepth now
  obtain ⟨exitFalling, rampGoal, targetExitCount, hdwelt⟩ :=
    (c.relaxProbeFloor (adaptiveQuantum config) minDepth now).dwell_eq config
      (quantizedTarget config rawTarget minDepth)
  refine ⟨probeFloor, lastFloorDecay, exitFalling, rampGoal, targetExitCount, ?_, hle⟩
  rw [dwelt, hdwelt, hrelaxed]

/-- A callback in adaptive mode is paced, above the learned floor. -/
theorem advance_paced (hadaptive : config.staticTargetMs = none)
    (hfloor : c.probeFloor ≤ c.effectiveTarget) (stats : JitterStats F)
    (rawTarget minDepth : ℕ) (now : Instant) :
    c.Paced (c.advance config stats rawTarget minDepth now) := by
  have hsame : (c.dwelt config rawTarget minDepth now).effectiveTarget = c.effectiveTarget ∧
      (c.dwelt config rawTarget minDepth now).rampCountdown = c.rampCountdown ∧
      (c.dwelt config rawTarget minDepth now).probeFloor ≤ c.probeFloor := by
    obtain ⟨_, _, _, _, _, heq, hle⟩ := c.dwelt_eq config rawTarget minDepth now
    rw [heq]
    exact ⟨rfl, rfl, hle⟩
  obtain ⟨htarget, hcountdown, hle⟩ := hsame
  have hpaced := settle_paced (htarget ▸ hle.trans hfloor) stats (adaptiveQuantum config)
    minDepth now
  rw [advance_eq hadaptive]
  cases hpaced with
  | waits hstays hwait => exact .waits (hstays.trans htarget) (hcountdown ▸ hwait)
  | rises hdue hlow hhigh hnext =>
    exact .rises (hcountdown ▸ hdue) (htarget ▸ hlow) (htarget ▸ hhigh) hnext
  | falls hdue hlow hhigh hnext =>
    exact .falls (hcountdown ▸ hdue) (htarget ▸ hlow) (htarget ▸ hhigh) hnext

/-- A callback in adaptive mode keeps no evidence, or counts on one side. -/
theorem advance_evidence (hadaptive : config.staticTargetMs = none) (c : TargetController)
    (stats : JitterStats F) (rawTarget minDepth : ℕ) (now : Instant) :
    (c.advance config stats rawTarget minDepth now).targetExitCount = 0 ∨
      ∃ falling, Presses config (quantizedTarget config rawTarget minDepth) c.effectiveTarget
          falling ∧
        (c.advance config stats rawTarget minDepth now).exitFalling = falling ∧
        (c.advance config stats rawTarget minDepth now).targetExitCount = c.evidence falling := by
  rw [advance_eq hadaptive]
  obtain ⟨hcount, hside⟩ := (c.dwelt config rawTarget minDepth now).settle_evidence stats
    (adaptiveQuantum config) minDepth now
  rw [hcount, hside]
  unfold dwelt
  obtain ⟨htarget, hevidence⟩ :=
    c.relaxProbeFloor_evidence (adaptiveQuantum config) minDepth now
  generalize c.relaxProbeFloor (adaptiveQuantum config) minDepth now = relaxed at *
  rw [← htarget, ← hevidence]
  by_cases hpress : ∃ f, Presses config (quantizedTarget config rawTarget minDepth)
      relaxed.effectiveTarget f
  · obtain ⟨f, hf⟩ := hpress
    rw [dwell_of_presses hf]
    split
    · exact Or.inl rfl
    · exact Or.inr ⟨f, hf, rfl, rfl⟩
  · rw [dwell_of_inside (not_exists.mp hpress)]
    exact Or.inl rfl

/-- A starvation that does not lift the target leaves the ramp and the evidence alone. -/
theorem recover_smooth (c : TargetController) (config : JitterConfig F) (stats : JitterStats F)
    (now : Instant)
    (h :
      (((c.recordStarvation now).applyStarvationFloor config stats).jumpToFloor).effectiveTarget =
      c.effectiveTarget) :
    ∃ probeFloor starvationTimestamps lastStarvation,
      ((c.recordStarvation now).applyStarvationFloor config stats).jumpToFloor =
        { c with probeFloor, starvationTimestamps, lastStarvation } := by
  obtain ⟨probeFloor, starvationTimestamps, lastStarvation, heq⟩ : ∃ probeFloor
      starvationTimestamps lastStarvation, (c.recordStarvation now).applyStarvationFloor config
        stats = { c with probeFloor, starvationTimestamps, lastStarvation } := by
    unfold applyStarvationFloor
    dsimp only
    split_ifs <;> exact ⟨_, _, _, rfl⟩
  rw [heq] at h ⊢
  refine ⟨probeFloor, starvationTimestamps, lastStarvation, ?_⟩
  unfold jumpToFloor at h ⊢
  dsimp only at h ⊢
  split_ifs with hjump
  · rw [if_pos hjump] at h
    dsimp only at h
    omega
  · rfl

/-- A starvation that lifts the target drops the evidence. -/
theorem recover_jump (c : TargetController) (config : JitterConfig F) (stats : JitterStats F)
    (now : Instant)
    (h :
      (((c.recordStarvation now).applyStarvationFloor config stats).jumpToFloor).effectiveTarget ≠
      c.effectiveTarget) :
    (((c.recordStarvation now).applyStarvationFloor config stats).jumpToFloor).targetExitCount =
      0 := by
  have htarget : ((c.recordStarvation now).applyStarvationFloor config stats).effectiveTarget =
      c.effectiveTarget := by
    unfold applyStarvationFloor
    dsimp only
    split_ifs <;> rfl
  generalize (c.recordStarvation now).applyStarvationFloor config stats = raised at *
  unfold jumpToFloor at h ⊢
  split_ifs at h ⊢ with hjump
  · rfl
  · exact absurd htarget h

end Settle

end TargetController

namespace DepthCall

/-- The call is a callback. -/
def isAdvance {F : Type} : DepthCall F → Bool
  | .advance _ _ _ => true
  | _ => false

end DepthCall

namespace DepthDrive

variable {F : Type} [Binary32 F] {d : DepthDrive F}

/-- The call is a callback, or the end of a starvation that does not lift the target to the
floor. -/
def Smooth (d : DepthDrive F) (call : DepthCall F) : Prop :=
  match call with
  | .advance _ _ _ => True
  | .recover _ _ => (d.step call).1.control.effectiveTarget = d.control.effectiveTarget
  | .reset | .resetForConfig _ _ => False

/-- The call is smooth, and a callback presses the target to the given side. -/
def PressedBy (d : DepthDrive F) (falling : Bool) (call : DepthCall F) : Prop :=
  d.Smooth call ∧
    match call with
    | .advance _ rawTarget _ => d.Adaptive ∧ TargetController.Presses d.config
        (TargetController.quantizedTarget d.config rawTarget d.minDepth)
        d.control.effectiveTarget falling
    | _ => True

/-- The callback commits to the quantised target. -/
def Commits (d : DepthDrive F) (rawTarget : ℕ) (falling : Bool) : Prop :=
  d.control.Commits d.config (TargetController.quantizedTarget d.config rawTarget d.minDepth)
    falling

/-- The controller once a callback has dwelt. -/
def dwelt (d : DepthDrive F) (rawTarget : ℕ) (now : Instant) : TargetController :=
  d.control.dwelt d.config rawTarget d.minDepth now

section Pace

/-- While the ramp waits the target stays; then it takes one step before it waits again. -/
theorem paced_run (M : Machine (DepthDrive F) (DepthCall F) ℕ) (hM : M.step = step)
    {calls : List (DepthCall F)} (hadaptive : d.Adaptive) (hbounded : d.Bounded)
    (hsmooth : ∀ e ∈ M.eventsFrom d calls, e.before.Smooth e.input) :
    (calls.countP DepthCall.isAdvance ≤ d.control.rampCountdown →
      (M.runFrom d calls).control.effectiveTarget = d.control.effectiveTarget) ∧
    (calls.countP DepthCall.isAdvance ≤ d.control.rampCountdown + 2 →
      (M.runFrom d calls).control.effectiveTarget ≤ d.control.effectiveTarget + 2) ∧
    (calls.countP DepthCall.isAdvance ≤ d.control.rampCountdown + 5 →
      d.control.effectiveTarget ≤ (M.runFrom d calls).control.effectiveTarget + 1) := by
  induction calls generalizing d with
  | nil =>
    rw [Machine.runFrom_nil]
    exact ⟨fun _ => rfl, fun _ => Nat.le_add_right _ _, fun _ => Nat.le_add_right _ _⟩
  | cons call calls ih =>
    have hfirst := hsmooth (M.eventAt d call) (by simp)
    have hrest := fun e he => hsmooth e (by
      rw [Machine.eventsFrom_cons]
      exact List.mem_cons_of_mem _ he)
    rw [Machine.runFrom_cons, List.countP_cons, hM] at *
    cases call with
    | advance stats rawTarget now =>
      have hnext : (d.step (.advance stats rawTarget now)).1.Adaptive := hadaptive
      have hbounded' := step_bounded (fun _ => hbounded) (.advance stats rawTarget now) hnext
      obtain ⟨hstay, hrise, hfall⟩ := ih hnext hbounded' hrest
      have hpaced := TargetController.advance_paced hadaptive hbounded.floor_le_target stats
        rawTarget d.minDepth now
      change d.control.Paced (d.step (.advance stats rawTarget now)).1.control at hpaced
      simp only [DepthCall.isAdvance, if_true]
      generalize (d.step (.advance stats rawTarget now)).1 = d' at *
      cases hpaced with
      | waits htarget hcountdown => exact ⟨by omega, by omega, by omega⟩
      | rises hdue hlow hhigh hcountdown => exact ⟨by omega, by omega, by omega⟩
      | falls hdue hlow hhigh hcountdown => exact ⟨by omega, by omega, by omega⟩
    | recover stats now =>
      have hnext : (d.step (.recover stats now)).1.Adaptive := hadaptive
      have hbounded' := step_bounded (fun _ => hbounded) (.recover stats now) hnext
      obtain ⟨_, _, _, heq⟩ := d.control.recover_smooth d.config stats now hfirst
      have hsame : (d.step (.recover stats now)).1.control.rampCountdown =
          d.control.rampCountdown := by
        have hcountdown := congrArg TargetController.rampCountdown heq
        exact hcountdown
      obtain ⟨hstay, hrise, hfall⟩ := ih hnext hbounded' hrest
      have htarget : (d.step (.recover stats now)).1.control.effectiveTarget =
        d.control.effectiveTarget := hfirst
      simp only [DepthCall.isAdvance, Bool.false_eq_true, if_false]
      exact ⟨by omega, by omega, by omega⟩
    | reset => exact hfirst.elim
    | resetForConfig config clock => exact hfirst.elim

end Pace

section Evidence

/-- In static mode there is no evidence. -/
theorem step_static (h : ¬d.Adaptive → d.control.targetExitCount = 0) (call : DepthCall F) :
    ¬(d.step call).1.Adaptive → (d.step call).1.control.targetExitCount = 0 := by
  intro hstatic
  cases call with
  | advance stats rawTarget now =>
    have hmode : d.config.staticTargetMs ≠ none := hstatic
    obtain ⟨staticMs, hstaticMs⟩ := Option.ne_none_iff_exists'.mp hmode
    change (d.control.advance d.config stats rawTarget d.minDepth now).targetExitCount = 0
    unfold TargetController.advance
    rw [hstaticMs]
    exact h hstatic
  | recover stats now =>
    change (((d.control.recordStarvation now).applyStarvationFloor d.config
      stats).jumpToFloor).targetExitCount = 0
    have hraised : ((d.control.recordStarvation now).applyStarvationFloor d.config
        stats).targetExitCount = d.control.targetExitCount := by
      unfold TargetController.applyStarvationFloor
      dsimp only
      split_ifs <;> rfl
    unfold TargetController.jumpToFloor
    split_ifs
    · rfl
    · exact hraised.trans (h hstatic)
  | reset => rfl
  | resetForConfig config clock => rfl

/-- The calls end with `n` callbacks that all press the target to the given side, with no call
between them that lifts it or starts over. -/
def EndsPressed (config : JitterConfig F) (clock : Instant) (calls : List (DepthCall F))
    (falling : Bool) (n : ℕ) : Prop :=
  ∃ front back, calls = front ++ back ∧ n ≤ back.countP DepthCall.isAdvance ∧
    ∀ e ∈ (machine config clock).eventsFrom ((machine config clock).run front) back,
      e.before.PressedBy falling e.input

variable {config : JitterConfig F} {clock : Instant} {calls : List (DepthCall F)} {n : ℕ}

theorem endsPressed_zero (falling : Bool) : EndsPressed config clock calls falling 0 :=
  ⟨calls, [], by simp, Nat.zero_le _, by simp⟩

/-- One more call that presses to the side. -/
theorem EndsPressed.concat (h : EndsPressed config clock calls falling n) {call : DepthCall F}
    (hcall : ((machine config clock).run calls).PressedBy falling call) :
    EndsPressed config clock (calls ++ [call]) falling
      (if call.isAdvance then n + 1 else n) := by
  obtain ⟨front, back, rfl, hn, hback⟩ := h
  refine ⟨front, back ++ [call], by rw [List.append_assoc], ?_, ?_⟩
  · rw [List.countP_append, List.countP_singleton]
    split <;> omega
  · intro e he
    rw [Machine.eventsFrom_append, List.mem_append] at he
    rcases he with he | he
    · exact hback e he
    · rw [Machine.eventsFrom_cons, Machine.eventsFrom_nil, List.mem_singleton] at he
      rw [he]
      unfold Machine.run at hcall
      rw [Machine.runFrom_append] at hcall
      exact hcall

/-- A callback that presses to a side ends as many in a row as the evidence counts. -/
theorem endsPressed_evidence {d : DepthDrive F} (hd : (machine config clock).run calls = d)
    (hends : EndsPressed config clock calls d.control.exitFalling d.control.targetExitCount)
    (hadaptive : d.Adaptive) (stats : JitterStats F) {rawTarget : ℕ} (now : Instant)
    {falling : Bool}
    (hpress : TargetController.Presses d.config
      (TargetController.quantizedTarget d.config rawTarget d.minDepth) d.control.effectiveTarget
      falling) :
    EndsPressed config clock (calls ++ [.advance stats rawTarget now]) falling
      (d.control.evidence falling) := by
  have hcall : ((machine config clock).run calls).PressedBy falling
      (.advance stats rawTarget now) := by
    rw [hd]
    exact ⟨trivial, hadaptive, hpress⟩
  unfold TargetController.evidence
  split_ifs with hnew
  · exact (endsPressed_zero falling).concat hcall
  · obtain ⟨-, hsame⟩ := not_or.mp hnew
    rw [← not_not.mp hsame] at hends
    exact hends.concat hcall

/-- The count is the number of callbacks the calls end with that press to its side. -/
theorem endsPressed_of_run (config : JitterConfig F) (clock : Instant)
    (calls : List (DepthCall F)) :
    (¬((machine config clock).run calls).Adaptive →
      ((machine config clock).run calls).control.targetExitCount = 0) ∧
    EndsPressed config clock calls ((machine config clock).run calls).control.exitFalling
      ((machine config clock).run calls).control.targetExitCount := by
  induction calls using List.reverseRecOn with
  | nil => exact ⟨fun _ => rfl, endsPressed_zero _⟩
  | append_singleton calls call ih =>
    obtain ⟨hstatic, hends⟩ := ih
    rw [Machine.run_concat]
    refine ⟨step_static hstatic call, ?_⟩
    generalize hd : (machine config clock).run calls = d at *
    change EndsPressed config clock (calls ++ [call]) (d.step call).1.control.exitFalling
      (d.step call).1.control.targetExitCount
    cases call with
    | advance stats rawTarget now =>
      by_cases hadaptive : d.Adaptive
      · rcases TargetController.advance_evidence hadaptive d.control stats rawTarget d.minDepth
          now with hzero | ⟨falling, hpress, hside, hcount⟩
        · change (d.step (.advance stats rawTarget now)).1.control.targetExitCount = 0 at hzero
          rw [hzero]
          exact endsPressed_zero _
        · change (d.step (.advance stats rawTarget now)).1.control.exitFalling = falling at hside
          change (d.step (.advance stats rawTarget now)).1.control.targetExitCount = _ at hcount
          rw [hside, hcount]
          exact endsPressed_evidence hd hends hadaptive stats now hpress
      · have hzero := step_static hstatic (.advance stats rawTarget now) hadaptive
        rw [hzero]
        exact endsPressed_zero _
    | recover stats now =>
      by_cases hsmooth : d.Smooth (.recover stats now)
      · obtain ⟨_, _, _, heq⟩ := d.control.recover_smooth d.config stats now hsmooth
        have hsame : (d.step (.recover stats now)).1.control.exitFalling = d.control.exitFalling ∧
            (d.step (.recover stats now)).1.control.targetExitCount =
              d.control.targetExitCount := by
          change (((d.control.recordStarvation now).applyStarvationFloor d.config
            stats).jumpToFloor).exitFalling = _ ∧ (((d.control.recordStarvation
              now).applyStarvationFloor d.config stats).jumpToFloor).targetExitCount = _
          rw [heq]
          exact ⟨rfl, rfl⟩
        rw [hsame.1, hsame.2]
        have hcall : ((machine config clock).run calls).PressedBy d.control.exitFalling
            (.recover stats now) := by
          rw [hd]
          exact ⟨hsmooth, trivial⟩
        exact hends.concat hcall
      · have hzero : (d.step (.recover stats now)).1.control.targetExitCount = 0 :=
          d.control.recover_jump d.config stats now hsmooth
        rw [hzero]
        exact endsPressed_zero _
    | reset => exact endsPressed_zero _
    | resetForConfig config' clock' => exact endsPressed_zero _

end Evidence

/-- Ramp and dwell of every adaptive controller: between resets and jumps to the floor the
target rises by at most two frames in two callbacks and falls by at most one in five; the
goal is dwelt for on one side, and a commit to it comes after as many callbacks in a row as
the dwell of that side asks for, each of which pressed the target to it. -/
theorem discipline_of_run (config : JitterConfig F) (clock : Instant) :
    (∀ before calls, ((machine config clock).run before).Adaptive →
      (∀ e ∈ (machine config clock).eventsFrom ((machine config clock).run before) calls,
        e.before.Smooth e.input) →
      (calls.countP DepthCall.isAdvance ≤ 2 →
        ((machine config clock).run (before ++ calls)).control.effectiveTarget ≤
          ((machine config clock).run before).control.effectiveTarget + 2) ∧
      (calls.countP DepthCall.isAdvance ≤ 5 →
        ((machine config clock).run before).control.effectiveTarget ≤
          ((machine config clock).run (before ++ calls)).control.effectiveTarget + 1)) ∧
    ∀ calls stats rawTarget now, ((machine config clock).run calls).Adaptive →
      ((((machine config clock).run calls).dwelt rawTarget now).rampGoal =
          ((machine config clock).run calls).control.rampGoal ∨
        ∃ falling, ((machine config clock).run calls).Commits rawTarget falling) ∧
      ∀ falling, ((machine config clock).run calls).Commits rawTarget falling →
        EndsPressed config clock (calls ++ [.advance stats rawTarget now]) falling
          (if falling then 200
            else TargetController.adaptiveDwell ((machine config clock).run calls).config) := by
  refine ⟨?_, ?_⟩
  · intro before calls hadaptive hsmooth
    obtain ⟨-, hrise, hfall⟩ := paced_run (machine config clock) rfl hadaptive
      (depth_bounded config clock before hadaptive) hsmooth
    unfold Machine.run at *
    rw [Machine.runFrom_append]
    exact ⟨fun hfew => hrise (hfew.trans (Nat.le_add_left _ _)),
      fun hfew => hfall (hfew.trans (Nat.le_add_left _ _))⟩
  · intro calls stats rawTarget now hadaptive
    obtain ⟨-, hends⟩ := endsPressed_of_run config clock calls
    generalize hd : (machine config clock).run calls = d at *
    refine ⟨?_, ?_⟩
    · obtain ⟨_, _, hrelaxed, -⟩ := d.control.relaxProbeFloor_eq
        (TargetController.adaptiveQuantum d.config) d.minDepth now
      unfold dwelt TargetController.dwelt
      rw [hrelaxed]
      refine (TargetController.dwell_rampGoal _ d.config _).imp_right ?_
      rintro ⟨falling, hcommits, -⟩
      exact ⟨falling, hcommits⟩
    · rintro falling ⟨hpress, hdue⟩
      obtain ⟨front, back, heq, hn, hback⟩ :=
        endsPressed_evidence hd hends hadaptive stats now hpress
      exact ⟨front, back, heq, hdue.trans hn, hback⟩

/-- The default configuration with the cap of a fast link. -/
def quietConfig : JitterConfig SoftFloat := ⟨0, 400, 0, 0.5, none⟩

/-- Two callbacks with a raw target of twenty frames. -/
def risingCalls : List (DepthCall SoftFloat) :=
  [.advance JitterStats.new 20 0, .advance JitterStats.new 20 0]

theorem discipline_of_run_risingCalls :
    ((machine quietConfig 0).run ([.recover JitterStats.new 0] ++
        risingCalls)).control.effectiveTarget ≤
      ((machine quietConfig 0).run [.recover JitterStats.new 0]).control.effectiveTarget + 2 := by
  refine ((discipline_of_run quietConfig 0).1 [.recover JitterStats.new 0] risingCalls rfl
    ?_).1 (by decide)
  intro e he
  simp only [risingCalls, Machine.eventsFrom_cons, Machine.eventsFrom_nil, List.mem_cons,
    List.not_mem_nil, or_false] at he
  rcases he with rfl | rfl <;> exact trivial

end DepthDrive

end Gemacast.Jitter
