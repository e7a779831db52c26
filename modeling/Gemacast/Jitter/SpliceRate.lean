import Gemacast.Core.Countdown
import Gemacast.Jitter.Outage

/-!
# The rate of the splices

Stretching a frame and growing on silence both lengthen what is heard, and too many of them in
a row are heard as a rattle. A cooldown keeps them apart, whatever the link, the level and the
audio do; only packets that are shed in between cut it short.
-/

set_option linter.unusedSectionVars false

namespace Gemacast.Jitter

open Gemacast.Core

/-- Samples are inserted. -/
def Source.Inserts {F : Type} : Source F → Prop
  | .expanded _ | .growth => True
  | _ => False

instance {F : Type} : DecidablePred (Source.Inserts (F := F)) := fun s =>
  match s with
  | .expanded _ | .growth => isTrue trivial
  | .verbatim | .shed | .accelerated | .declined | .flush | .codecPlc | .pitchConceal _
  | .resetSilence => isFalse not_false

/-- Callbacks that an insertion keeps the next one away. -/
def Source.interval {F : Type} : Source F → ℕ
  | .expanded _ => minExpandInterval
  | .growth => minSilenceGrowInterval
  | _ => 0

theorem Source.le_interval {F : Type} {source : Source F} (h : source.Inserts) :
    minSilenceGrowInterval ≤ source.interval := by
  cases source with
  | growth => exact Nat.le_refl _
  | expanded frame =>
    change minSilenceGrowInterval ≤ minExpandInterval
    decide
  | _ => exact h.elim

theorem minTimescaleInterval_le (target : ℕ) :
    minTimescaleInterval ≤ timescaleInterval target :=
  Nat.le_max_right _ _

namespace JitterBufferManager

variable {F : Type} [Binary32 F] [FrameMark F] {C : Codec F} {m m' m'' : JitterBufferManager C}
  {ctx : FrameContext}

/-- From `m` to `m'` the cooldown stays as it is; nothing is inserted and nothing shed. -/
def Calm (m m' : JitterBufferManager C) : Prop :=
  m'.timescaleCooldown = m.timescaleCooldown ∧ ∃ appended, m'.emissions = m.emissions ++ appended ∧
    ∀ e ∈ appended, ¬e.source.Inserts ∧ e.source ≠ .shed

/-- From `m` to `m'` the cooldown lets nothing be inserted before it is over, an insertion sets
it anew, and nothing lowers it but a shed, which leaves the shortest wait of a splice. -/
def Paced (m m' : JitterBufferManager C) : Prop :=
  min m.timescaleCooldown minTimescaleInterval ≤ m'.timescaleCooldown ∧
    ∃ appended, m'.emissions = m.emissions ++ appended ∧
      (∀ e ∈ appended, e.source.Inserts →
        m.timescaleCooldown = 0 ∧ e.source.interval ≤ m'.timescaleCooldown) ∧
      ((∀ e ∈ appended, e.source ≠ .shed) → 0 < m.timescaleCooldown →
        m.timescaleCooldown ≤ m'.timescaleCooldown)

theorem calm_of_eq (hcooldown : m'.timescaleCooldown = m.timescaleCooldown)
    (hemissions : m'.emissions = m.emissions) : m.Calm m' :=
  ⟨hcooldown, [], by rw [hemissions, List.append_nil], by rintro e ⟨⟩⟩

theorem calm_refl (m : JitterBufferManager C) : m.Calm m := calm_of_eq rfl rfl

theorem Calm.trans (h : m.Calm m') (h' : m'.Calm m'') : m.Calm m'' := by
  obtain ⟨hcooldown, appended, heq, happended⟩ := h
  obtain ⟨hcooldown', appended', heq', happended'⟩ := h'
  refine ⟨hcooldown'.trans hcooldown, appended ++ appended', ?_, fun e he => ?_⟩
  · rw [heq', heq, List.append_assoc]
  · exact (List.mem_append.mp he).elim (happended e) (happended' e)

theorem Calm.isPaced (h : m.Calm m') : m.Paced m' := by
  obtain ⟨hcooldown, appended, heq, happended⟩ := h
  refine ⟨hcooldown ▸ Nat.min_le_left _ _, appended, heq, fun e he hinserts => ?_,
    fun _ _ => hcooldown.ge⟩
  exact absurd hinserts (happended e he).1

/-- What goes before a paced step calmly is part of it. -/
theorem Calm.trans_paced (h : m.Calm m') (h' : m'.Paced m'') : m.Paced m'' := by
  obtain ⟨hcooldown, appended, heq, happended⟩ := h
  obtain ⟨hshort, appended', heq', hdue, hwhole⟩ := h'
  rw [hcooldown] at hshort hdue hwhole
  refine ⟨hshort, appended ++ appended', ?_, fun e he hinserts => ?_, fun hshed => ?_⟩
  · rw [heq', heq, List.append_assoc]
  · obtain hbefore | hnew := List.mem_append.mp he
    · exact absurd hinserts (happended e hbefore).1
    · exact hdue e hnew hinserts
  · exact hwhole fun e he => hshed e (List.mem_append_right _ he)

/-- What follows a paced step calmly is part of it. -/
theorem Paced.trans_calm (h : m.Paced m') (h' : m'.Calm m'') : m.Paced m'' := by
  obtain ⟨hshort, appended, heq, hdue, hwhole⟩ := h
  obtain ⟨hcooldown, appended', heq', happended⟩ := h'
  rw [← hcooldown] at hshort hdue hwhole
  refine ⟨hshort, appended ++ appended', ?_, fun e he hinserts => ?_, fun hshed => ?_⟩
  · rw [heq', heq, List.append_assoc]
  · obtain hbefore | hnew := List.mem_append.mp he
    · exact hdue e hbefore hinserts
    · exact absurd hinserts (happended e hnew).1
  · exact hwhole fun e he => hshed e (List.mem_append_left _ he)

/-- One append that neither inserts nor sheds. -/
theorem calm_emit (m : JitterBufferManager C) (samples : List F) {s : Source F}
    (hinserts : ¬s.Inserts) (hshed : s ≠ .shed) : m.Calm (m.emit s samples) := by
  refine ⟨rfl, [⟨s, samples⟩], rfl, fun e he => ?_⟩
  rw [List.mem_singleton.mp he]
  exact ⟨hinserts, hshed⟩

section Approach

theorem calm_flush (m : JitterBufferManager C) (flushTo : ℕ) :
    m.Calm (m.flushWithCrossfade flushTo) := by
  obtain ⟨_, _, _, _, splices, heq, -, hflush⟩ := m.flushWithCrossfade_eq flushTo
  rw [heq]
  refine ⟨rfl, splices, rfl, fun e he => ?_⟩
  rw [hflush e he]
  exact ⟨id, by rintro ⟨⟩⟩

theorem calm_flush_or {p : Prop} [Decidable p] (m : JitterBufferManager C) (flushTo : ℕ) :
    m.Calm (if p then m.flushWithCrossfade flushTo else m) := by
  split
  · exact m.calm_flush flushTo
  · exact calm_of_eq rfl rfl

theorem calm_reloadConfig (m : JitterBufferManager C) (tick : Tick F) :
    m.Calm (m.reloadConfigIfChanged tick) := by
  unfold reloadConfigIfChanged
  split
  · dsimp only
    split
    · split
      · exact calm_of_eq rfl rfl
      · exact calm_flush_or (restartConvergence _ _ _) _
    · exact calm_of_eq rfl rfl
  · exact calm_of_eq rfl rfl

theorem calm_resolveTarget (m : JitterBufferManager C) (tick : Tick F) :
    m.Calm (m.resolveTarget tick).1 := by
  unfold resolveTarget
  dsimp only
  obtain ⟨stats, logWindow, heq⟩ := logDepthAuthority_eq { m with control := _ } tick.now
  rw [heq]
  exact calm_of_eq rfl rfl

/-- The phases before the hold, once the cooldown has been counted down. -/
theorem calm_settleDepth (m : JitterBufferManager C) (tick : Tick F) :
    (m.beginCallback tick).Calm (m.settleDepth tick).1 :=
  ((calm_reloadConfig _ tick).trans (calm_resolveTarget _ tick)).trans (calm_flush_or _ _)

theorem calm_framePoint {tick : Tick F} {p : JitterBufferManager C}
    (hp : m.framePoint tick = some (p, ctx)) : (m.beginCallback tick).Calm p := by
  obtain ⟨g, hg, rfl⟩ := framePoint_cases hp
  have hskipped : g.Calm (g.tryFastForwardOverGap ctx) := by
    obtain ⟨_, _, _, _, _, heq, -⟩ := g.tryFastForwardOverGap_eq ctx
    rw [heq]
    exact calm_of_eq rfl rfl
  refine Calm.trans ?_ hskipped
  unfold gapPoint at hg
  split at hg
  · cases hg
  · next m' hserve =>
    obtain ⟨rfl, -⟩ := Prod.mk.inj (Option.some.inj hg)
    have hreleased : (m.settleDepth tick).1.Calm m' := by
      unfold servePrebuffering at hserve
      split at hserve
      · split at hserve
        · obtain ⟨rfl, -⟩ := Prod.mk.inj hserve
          exact calm_flush_or _ _
        · cases (Prod.mk.inj hserve).2
      · obtain ⟨rfl, -⟩ := Prod.mk.inj hserve
        exact calm_of_eq rfl rfl
    have hstarted : m'.Calm (m'.applyStartupFlush (m.settleDepth tick).2.1) := by
      unfold applyStartupFlush
      split
      · exact calm_flush_or { m' with startupFlushPending := false } _
      · exact calm_of_eq rfl rfl
    exact (m.calm_settleDepth tick).trans (hreleased.trans (hstarted.trans (calm_flush_or _ _)))

end Approach

section Splice

theorem paced_shedSilence (m : JitterBufferManager C) (ctx : FrameContext) (highLimit : ℕ) :
    m.Paced (m.shedSilence ctx highLimit) := by
  obtain ⟨_, _, _, _, heq⟩ := (m.emit .shed m.decoder.decoded).shedLoop_eq highLimit
    (min (max ((Binary32.toNat m.flow.filteredBufferLevel - highLimit) / 2) 1) 4)
  unfold shedSilence
  dsimp only
  rw [heq]
  refine ⟨(Nat.min_le_right _ _).trans (minTimescaleInterval_le _),
    [⟨.shed, m.decoder.decoded⟩], rfl, fun e he hinserts => ?_, fun hshed => ?_⟩
  · rw [List.mem_singleton.mp he] at hinserts
    exact hinserts.elim
  · exact absurd rfl (hshed _ List.mem_cons_self)

/-- A drain that is not fast waits for the cooldown, and a fast one leaves it as it is. -/
theorem paced_drain (m : JitterBufferManager C) (ctx : FrameContext) {isFast : Bool} (rms : F)
    (hdue : isFast = true ∨ m.timescaleCooldown = 0) : m.Paced (m.drain ctx isFast rms) := by
  obtain ⟨decoder, buffer, timescale, logWindow, heq, -⟩ := m.stageWindow_eq
  have hstaged : m.Calm { m with decoder, buffer, timescale, logWindow } := calm_of_eq rfl rfl
  unfold drain
  rw [heq]
  dsimp only
  split
  · next out removed hsplice =>
    have hemitted := hstaged.trans (calm_emit _ out (s := .accelerated) id (by rintro ⟨⟩))
    split
    · exact (hemitted.trans (calm_of_eq rfl rfl)).isPaced
    · next hslow =>
      have hover := hdue.resolve_left hslow
      obtain ⟨-, appended, hemissions, happended⟩ := hemitted
      refine ⟨?_, appended, hemissions, fun e he hinserts => ?_, fun _ hwait => ?_⟩
      · rw [hover, Nat.zero_min]
        exact Nat.zero_le _
      · exact absurd hinserts (happended e he).1
      · omega
  · exact ((hstaged.trans (calm_of_eq rfl rfl)).trans
      (calm_emit _ _ (s := .declined) id (by rintro ⟨⟩))).isPaced

/-- An insertion on a spent cooldown sets it anew. -/
theorem paced_insertion {e : Emission F} (hover : m.timescaleCooldown = 0)
    (hemissions : m'.emissions = m.emissions ++ [e])
    (hset : e.source.interval ≤ m'.timescaleCooldown) : m.Paced m' := by
  refine ⟨?_, [e], hemissions, fun e' he' _ => ?_, fun _ hwait => ?_⟩
  · rw [hover, Nat.zero_min]
    exact Nat.zero_le _
  · rw [List.mem_singleton.mp he']
    exact ⟨hover, hset⟩
  · omega

theorem paced_growSilence (hover : m.timescaleCooldown = 0) : m.Paced m.growSilence :=
  paced_insertion hover rfl le_rfl

theorem paced_stretch (hover : m.timescaleCooldown = 0) (rms : F) : m.Paced (m.stretch rms).1 := by
  unfold stretch
  dsimp only
  split
  · exact paced_insertion (e := ⟨.expanded m.decoder.decoded, _⟩) hover rfl le_rfl
  · exact (calm_of_eq rfl rfl).isPaced

/-- The time-scaler keeps to the cooldown. -/
theorem paced_runTimescale (m : JitterBufferManager C) (ctx : FrameContext) :
    m.Paced (m.runTimescale ctx).1 := by
  have hcounted : ∀ f, m.Calm (m.count f) := fun _ => calm_of_eq rfl rfl
  unfold runTimescale
  dsimp only
  by_cases hdeclined : decide (Binary32.ofNat (TargetController.bufferLimits ctx.target).high ≤
      m.flow.filteredBufferLevel) = true ∧ m.flow.stretchAllowed ctx.now = false
  · rw [if_pos hdeclined]
    simp only [hdeclined.2, Bool.false_eq_true, false_and, if_false]
    split_ifs with _ hgrow
    · exact (hcounted _).trans_paced (paced_growSilence hgrow.2.1)
    · exact (hcounted _).isPaced
    · exact (hcounted _).isPaced
  · rw [if_neg hdeclined]
    split_ifs with _ _ hdue _ hgrow hstretch
    · exact m.paced_shedSilence ctx _
    · exact m.paced_drain ctx _ hdue
    · exact (hcounted _).isPaced
    · exact paced_growSilence hgrow.2.1
    · exact paced_stretch hstretch.2.1 _
    · exact m.calm_refl.isPaced
    · exact m.calm_refl.isPaced

theorem paced_playPrepared (m : JitterBufferManager C) (ctx : FrameContext) :
    m.Paced (m.playPrepared ctx) := by
  have hscaled := m.paced_runTimescale ctx
  unfold playPrepared
  cases hanswer : m.runTimescale ctx with
  | mk answer emitted =>
    rw [hanswer] at hscaled
    cases emitted with
    | true => exact hscaled
    | false => exact hscaled.trans_calm (calm_emit _ _ (s := .verbatim) id (by rintro ⟨⟩))

end Splice

section Refill

theorem calm_generatePlc (m : JitterBufferManager C) : m.Calm m.generatePlc := by
  obtain ⟨decoder, timescale, tally, source, heq, -, -, hsource⟩ := m.generatePlc_eq
  rw [heq]
  refine ⟨rfl, [⟨source, decoder.decoded⟩], rfl, fun e he => ?_⟩
  rw [List.mem_singleton.mp he]
  obtain rfl | ⟨rfl, -⟩ := hsource
  · exact ⟨id, by rintro ⟨⟩⟩
  · exact ⟨id, by rintro ⟨⟩⟩

theorem calm_resetSilence (m : JitterBufferManager C) :
    m.Calm (m.triggerReset.emit .resetSilence silence.val) :=
  Calm.trans (calm_of_eq rfl rfl) (calm_emit m.triggerReset _ id (by rintro ⟨⟩))

theorem calm_hold (m : JitterBufferManager C) : m.Calm m.hold := by
  have hflow : ∀ flow, m.Calm { m with flow } := fun _ => calm_of_eq rfl rfl
  obtain ⟨-, -, flow, heq⟩ | ⟨flow, heq, -⟩ := m.hold_cases
  · rw [heq]
    exact (hflow flow).trans (calm_resetSilence _)
  · rw [heq]
    exact (hflow flow).trans (calm_generatePlc _)

theorem calm_handleMissing (m : JitterBufferManager C) (ctx : FrameContext) :
    m.Calm (m.handleMissingFrame ctx) := by
  have hflow : ∀ flow, m.Calm { m with flow } := fun _ => calm_of_eq rfl rfl
  obtain ⟨-, flow, heq⟩ | ⟨-, flow, heq, -⟩ := m.handleMissingFrame_cases ctx
  · rw [heq]
    exact (hflow flow).trans (calm_resetSilence _)
  · rw [heq]
    exact (hflow flow).trans (calm_generatePlc _)

theorem paced_playNextFrame (hnext : m.buffer.hasNext = true) :
    m.Paced (m.playNextFrame ctx) := by
  obtain ⟨pkt, control, flow, captured, -, -, -, -, rfl, -, hplayed⟩ := frames_of_hasNext ctx hnext
  rw [hplayed]
  refine Calm.trans_paced ?_ (paced_playPrepared _ ctx)
  unfold maskSplice
  dsimp only
  split <;> exact calm_of_eq rfl rfl

/-- A callback counts the cooldown down and keeps to it from there. -/
theorem paced_processNextFrame (m : JitterBufferManager C) (tick : Tick F) :
    (m.beginCallback tick).Paced (m.processNextFrame tick).1 := by
  obtain ⟨-, -, -, heq⟩ | ⟨p, ctx, hpoint, heq⟩ := m.processNextFrame_cases tick
  · rw [heq]
    exact ((m.calm_settleDepth tick).trans (calm_hold _)).isPaced
  · rw [heq, playOrMiss]
    refine (calm_framePoint hpoint).trans_paced ?_
    split
    · next hnext => exact paced_playNextFrame hnext
    · exact (calm_handleMissing p ctx).isPaced

end Refill

section Run

/-- The refill inserted samples. -/
def Inserts (e : PlayerEvent C) : Prop := Refills e ∧ ∃ a ∈ e.after.emissions, a.source.Inserts

/-- The refill stretched its frame. -/
def Stretches (e : PlayerEvent C) : Prop :=
  Refills e ∧ ∃ a ∈ e.after.emissions, ∃ frame, a.source = .expanded frame

/-- The refill shed packets. -/
def Sheds (e : PlayerEvent C) : Prop := Refills e ∧ ∃ a ∈ e.after.emissions, a.source = .shed

/-- What a refill does to the cooldown. -/
theorem refill_paced {i : Input F} (hrefills : (m.refill i).isSome) :
    min (m.timescaleCooldown - 1) minTimescaleInterval ≤ (m.step i).1.timescaleCooldown ∧
      (∀ a ∈ (m.step i).1.emissions, a.source.Inserts →
        m.timescaleCooldown ≤ 1 ∧ a.source.interval ≤ (m.step i).1.timescaleCooldown) ∧
      ((∀ a ∈ (m.step i).1.emissions, a.source ≠ .shed) → 1 < m.timescaleCooldown →
        m.timescaleCooldown - 1 ≤ (m.step i).1.timescaleCooldown) := by
  obtain ⟨tick, hrefill⟩ := Option.isSome_iff_exists.mp hrefills
  obtain ⟨hshort, appended, heq, hdue, hwhole⟩ :=
    paced_processNextFrame { m with emissions := [] } tick
  have hemissions : (processNextFrame { m with emissions := [] } tick).1.emissions = appended := heq
  rw [step_of_refill hrefill, hemissions]
  refine ⟨hshort, fun a ha hinserts => ?_, fun hshed hwait => ?_⟩
  · obtain ⟨hover, hset⟩ := hdue a ha hinserts
    exact ⟨Nat.sub_eq_zero_iff_le.mp hover, hset⟩
  · exact hwhole hshed (Nat.sub_pos_of_lt hwait)

/-- Nothing but a refill touches the cooldown. -/
theorem cooldown_of_not_refill {i : Input F} (hrefill : ¬(m.refill i).isSome) :
    (m.step i).1.timescaleCooldown = m.timescaleCooldown := by
  cases i with
  | ingest pkts =>
    obtain ⟨_, _, _, _, heq, -⟩ := m.ingestPackets_eq pkts
    change (m.ingestPackets pkts).timescaleCooldown = _
    rw [heq]
  | callback tick =>
    unfold refill at hrefill
    unfold step
    dsimp only at hrefill ⊢
    split at hrefill
    · exact absurd rfl hrefill
    · next hheld => rw [if_neg hheld]
  | consume take => rfl
  | reset => rfl

theorem countsDown (C : Codec F) (config : JitterConfig F) (networkLink : NetworkLink)
    (clock : Instant) (m : JitterBufferManager C) (i : Input F) :
    (machine C config networkLink clock).CountsDown timescaleCooldown
      (fun m i => (m.refill i).isSome) minTimescaleInterval m i :=
  ⟨fun hrefill => (cooldown_of_not_refill hrefill).ge, fun hrefill _ => (refill_paced hrefill).1⟩

/-- Only packets that are shed cut the wait short. -/
theorem countsDown_of_not_shed (C : Codec F) (config : JitterConfig F) (networkLink : NetworkLink)
    (clock : Instant) {m : JitterBufferManager C} {i : Input F}
    (hshed : ¬Sheds ((machine C config networkLink clock).eventAt m i)) :
    (machine C config networkLink clock).CountsDown timescaleCooldown
      (fun m i => (m.refill i).isSome) minExpandInterval m i := by
  refine ⟨fun hrefill => (cooldown_of_not_refill hrefill).ge, fun hrefill hwait => ?_⟩
  have hwhole := (refill_paced hrefill).2.2
  exact (Nat.min_le_left _ _).trans
    (hwhole (fun a ha hsource => hshed ⟨hrefill, a, ha, hsource⟩) hwait)

/-- An insertion waits for the cooldown and sets it anew. -/
theorem cooldown_of_inserts {config : JitterConfig F} {networkLink : NetworkLink}
    {clock : Instant} {e : PlayerEvent C}
    (he : e = (machine C config networkLink clock).eventAt e.before e.input) (hrefills : Refills e)
    {a : Emission F} (ha : a ∈ e.after.emissions) (hinserts : a.source.Inserts) :
    e.before.timescaleCooldown ≤ 1 ∧ a.source.interval ≤ e.after.timescaleCooldown := by
  rw [congrArg Event.after he] at ha ⊢
  exact (refill_paced hrefills).2.1 a ha hinserts

/-- Two callbacks that insert samples are three callbacks apart at least, and twenty when the
first one stretched a frame and no packet was shed since. -/
theorem spaced_of_run (C : Codec F) (config : JitterConfig F) (networkLink : NetworkLink)
    (clock : Instant) (inputs : List (Input F)) {pre mid post : List (PlayerEvent C)}
    {a b : PlayerEvent C}
    (h : (machine C config networkLink clock).events inputs = pre ++ a :: mid ++ b :: post)
    (ha : Inserts a) (hb : Inserts b) :
    minSilenceGrowInterval ≤ mid.countP (fun e => Refills e) + 1 ∧
      (Stretches a → (∀ e ∈ mid, ¬Sheds e) →
        minExpandInterval ≤ mid.countP (fun e => Refills e) + 1) := by
  obtain ⟨as, bs, cs, -, -, -, ha', hmid, -, hb'⟩ := Machine.eventsFrom_between _ h
  obtain ⟨hrefills, em, hem, hinserts⟩ := ha
  obtain ⟨hrefills', em', hem', hinserts'⟩ := hb
  have hwaits := (cooldown_of_inserts hb' hrefills' hem' hinserts').1
  constructor
  · refine Machine.le_ticks_between _
      (fun m i (_ : True) => countsDown C config networkLink clock m i) h (Nat.le_refl _) ?_
      (fun _ _ => trivial) hwaits
    exact (Source.le_interval hinserts).trans (cooldown_of_inserts ha' hrefills hem hinserts).2
  · rintro ⟨-, em, hem, frame, hsource⟩ hcalm
    refine Machine.le_ticks_between _ (fun m i => countsDown_of_not_shed C config networkLink clock)
      h (Nat.le_succ _) ?_ (fun e he => ?_) hwaits
    · have hset := (cooldown_of_inserts ha' hrefills hem (by rw [hsource]; trivial)).2
      rwa [hsource] at hset
    · have hevent := Machine.eq_eventAt_of_mem _ (hmid ▸ he)
      rw [← hevent]
      exact hcalm e he

instance (e : PlayerEvent C) : Decidable (Inserts e) := inferInstanceAs (Decidable (_ ∧ _))

/-- Silence, two late packets, and silence again. -/
def quietInputs : List (Input SoftFloat) :=
  [.ingest [rawZero 5 0], .callback (steadyTick 1), .consume 960, .callback (steadyTick 11),
    .consume 960, .callback (steadyTick 21), .consume 960, .ingest [rawZero 6 30],
    .callback (steadyTick 31)]

/-- The events of the quiet run. -/
def quietEvents : List (PlayerEvent (Codec.unfed SoftFloat)) :=
  (machine (Codec.unfed SoftFloat) eagerConfig .ethernet 0).events quietInputs

theorem quietEvents_eq : quietEvents = quietEvents.take 1 ++ quietEvents.get ⟨1, by decide⟩ ::
    (quietEvents.drop 2).take 6 ++ quietEvents.get ⟨8, by decide⟩ :: [] := rfl

theorem spaced_of_run_quietInputs :
    minSilenceGrowInterval ≤ ((quietEvents.drop 2).take 6).countP (fun e => Refills e) + 1 :=
  (spaced_of_run (Codec.unfed SoftFloat) eagerConfig .ethernet 0 quietInputs quietEvents_eq
    (by decide +kernel) (by decide +kernel)).1

end Run

end JitterBufferManager

end Gemacast.Jitter
