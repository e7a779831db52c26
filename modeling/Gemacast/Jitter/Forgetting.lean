import Gemacast.Jitter.FillOutput
import Gemacast.Jitter.Frames

/-!
# What a reset forgets

A reset drops every packet and every sample the player holds that is ever read again: what is
left in the buffers of a flush and of an accelerate window is written over before it is read.
Two players that differ only in the audio they hold play the same from a reset on.
-/

set_option linter.unusedSectionVars false

namespace Gemacast.Jitter

open Gemacast.Core

section Loop

variable {F σ δ : Type} [Binary32 F] {Q : VecDeque F δ} {process : σ → σ × List F}
  {R : σ → σ → Prop}

/-- A buffer is filled alike from states between which the producer makes no difference. -/
theorem fillLoop_congr
    (hprocess : ∀ s s', R s s' → R (process s).1 (process s').1 ∧ (process s).2 = (process s').2)
    {volume : F} {fuel need : ℕ} {s : σ} (s' : σ) {d : δ} (hs : R s s') {t : σ} {d' : δ}
    {output : List F} (h : fillLoop Q process volume fuel s d need = some (t, d', output)) :
    ∃ t', fillLoop Q process volume fuel s' d need = some (t', d', output) ∧ R t t' := by
  induction fuel generalizing s s' d need output with
  | zero =>
    cases need with
    | zero =>
      cases h
      exact ⟨s', rfl, hs⟩
    | succ need => cases h
  | succ fuel ih =>
    cases need with
    | zero =>
      cases h
      exact ⟨s', rfl, hs⟩
    | succ need =>
      have hrefill : R (refillEmpty Q process s d).1 (refillEmpty Q process s' d).1 ∧
          (refillEmpty Q process s d).2 = (refillEmpty Q process s' d).2 := by
        obtain ⟨hnext, hblock⟩ := hprocess s s' hs
        by_cases hempty : Q.len d = 0
        · have hcall : ∀ s, refillEmpty Q process s d = ((process s).1, Q.extend d (process s).2) :=
            fun s => if_pos hempty
          rw [hcall, hcall]
          exact ⟨hnext, congrArg (Q.extend d) hblock⟩
        · rw [refillEmpty_of_held hempty, refillEmpty_of_held hempty]
          exact ⟨hs, rfl⟩
      rw [fillLoop] at h ⊢
      generalize refillEmpty Q process s d = refilled at h hrefill
      generalize refillEmpty Q process s' d = refilled' at hrefill ⊢
      obtain ⟨t₁, d₁⟩ := refilled
      obtain ⟨t₁', d₁'⟩ := refilled'
      obtain ⟨hrelated, rfl⟩ := hrefill
      dsimp only at h ⊢
      split at h
      · next hnone =>
        cases h
        rw [if_pos hnone]
        exact ⟨t₁', rfl, hrelated⟩
      · next hsome =>
        rw [if_neg hsome]
        obtain ⟨⟨t₂, d₂, rest⟩, hrest, heq⟩ := Option.map_eq_some_iff.mp h
        cases heq
        obtain ⟨t₂', hrest', hrelated'⟩ := ih _ hrelated hrest
        exact ⟨t₂', by rw [hrest']; rfl, hrelated'⟩

end Loop

namespace TimeScaler

variable {F : Type} [Binary32 F] {ts ts' : TimeScaler F}

/-- A splice of a flush reads the held frame only. -/
theorem overlapAdd_congr (h : ts'.wsolaBuf = ts.wsolaBuf) (pcm1Len : ℕ) (pcm2 : List F)
    (forceCrossfade : Bool) :
    ts'.overlapAdd pcm1Len pcm2 forceCrossfade = ts.overlapAdd pcm1Len pcm2 forceCrossfade := by
  unfold overlapAdd snapshotted
  rw [h]

/-- A concealment reads the remembered frame only. -/
theorem concealFrame_congr (h : ts'.histBuf = ts.histBuf) :
    ts'.concealFrame.1.histBuf = ts.concealFrame.1.histBuf ∧
      ts'.concealFrame.2 = ts.concealFrame.2 := by
  unfold concealFrame
  dsimp only
  rw [h]
  split_ifs
  · exact ⟨h, rfl⟩
  · exact ⟨rfl, rfl⟩
  · exact ⟨rfl, rfl⟩
  · exact ⟨rfl, rfl⟩

/-- A stretch reads the remembered frame and the frame it stretches. -/
theorem expandInner_congr (h : ts'.histBuf = ts.histBuf) (pcm : List F) (rms : F) (conceal : Bool) :
    (ts'.expandInner pcm rms conceal).1.histBuf = (ts.expandInner pcm rms conceal).1.histBuf ∧
      (ts'.expandInner pcm rms conceal).2 = (ts.expandInner pcm rms conceal).2 := by
  rw [expandInner_histBuf, expandInner_histBuf]
  refine ⟨h, ?_⟩
  unfold expandInner
  dsimp only
  rw [h]
  split_ifs <;> rfl

/-- What an extended window holds depends on the window alone. -/
theorem windowExtend_eq (ts : TimeScaler F) (pcm : List F) :
    (ts.windowExtend pcm).1 =
      { ts with accelWindow :=
        if accelWindowSamples < ts.accelWindow.length + pcm.length then ts.accelWindow
        else ts.accelWindow ++ pcm } := by
  unfold windowExtend
  split <;> rfl

/-- A shortening reads the staged window only. -/
theorem accelerate_congr (h : ts'.accelWindow = ts.accelWindow) (fastMode : Bool) (rms : F) :
    ts'.accelerate fastMode rms = ts.accelerate fastMode rms := by
  unfold accelerate
  rw [h]

end TimeScaler

namespace JitterBufferManager

variable {F : Type} [Binary32 F] [FrameMark F] {C : Codec F} {m m' : JitterBufferManager C}
  {ctx : FrameContext}

/-- The same player with other contents of the buffers that are written before they are read. -/
def withScratch (m : JitterBufferManager C) (wsolaBuf accelWindow : List F)
    (emissions : List (Emission F)) : JitterBufferManager C :=
  { m with timescale := { m.timescale with wsolaBuf, accelWindow }, emissions }

/-- The players differ in these buffers only. -/
def Alike (m m' : JitterBufferManager C) : Prop :=
  ∃ wsolaBuf accelWindow emissions, m' = m.withScratch wsolaBuf accelWindow emissions

namespace Alike

theorem refl (m : JitterBufferManager C) : Alike m m := ⟨_, _, _, rfl⟩

/-- The players agree on everything else. -/
theorem same {α : Type} {f : JitterBufferManager C → α}
    (hf : ∀ m w a es, f (withScratch m w a es) = f m) (h : Alike m m') : f m' = f m := by
  obtain ⟨w, a, es, rfl⟩ := h
  exact hf m w a es

theorem decoder (h : Alike m m') : m'.decoder = m.decoder :=
  h.same (f := JitterBufferManager.decoder) fun _ _ _ _ => rfl

theorem buffer (h : Alike m m') : m'.buffer = m.buffer :=
  h.same (f := JitterBufferManager.buffer) fun _ _ _ _ => rfl

theorem flow (h : Alike m m') : m'.flow = m.flow :=
  h.same (f := JitterBufferManager.flow) fun _ _ _ _ => rfl

theorem config (h : Alike m m') : m'.config = m.config :=
  h.same (f := JitterBufferManager.config) fun _ _ _ _ => rfl

theorem control (h : Alike m m') : m'.control = m.control :=
  h.same (f := JitterBufferManager.control) fun _ _ _ _ => rfl

theorem playbackBuf (h : Alike m m') : m'.playbackBuf = m.playbackBuf :=
  h.same (f := JitterBufferManager.playbackBuf) fun _ _ _ _ => rfl

theorem timescaleCooldown (h : Alike m m') : m'.timescaleCooldown = m.timescaleCooldown :=
  h.same (f := JitterBufferManager.timescaleCooldown) fun _ _ _ _ => rfl

theorem histBuf (h : Alike m m') : m'.timescale.histBuf = m.timescale.histBuf :=
  h.same (f := fun m => m.timescale.histBuf) fun _ _ _ _ => rfl

/-- A change that leaves these buffers alone. -/
theorem map {g : JitterBufferManager C → JitterBufferManager C}
    (hg : ∀ m w a es, g (withScratch m w a es) = (g m).withScratch w a es) (h : Alike m m') :
    Alike (g m) (g m') := by
  obtain ⟨w, a, es, rfl⟩ := h
  exact ⟨w, a, es, hg m w a es⟩

/-- A change of the time-scaler that agrees on what it remembers. -/
theorem withTimescale (h : Alike m m') {ts ts' : TimeScaler F} (hts : ts'.histBuf = ts.histBuf) :
    Alike { m with timescale := ts } { m' with timescale := ts' } := by
  obtain ⟨w, a, es, rfl⟩ := h
  obtain ⟨w', a', hist⟩ := ts'
  obtain rfl := hts
  exact ⟨w', a', es, rfl⟩

theorem emit (h : Alike m m') (source source' : Source F) {samples samples' : List F}
    (hsamples : samples' = samples) : Alike (m.emit source samples) (m'.emit source' samples') := by
  obtain ⟨w, a, es, rfl⟩ := h
  subst hsamples
  exact ⟨w, a, _, rfl⟩

theorem count (h : Alike m m') (f : TimescaleTally → TimescaleTally) :
    Alike (m.count f) (m'.count f) := h.map (g := fun m => m.count f) fun _ _ _ _ => rfl

theorem capture (h : Alike m m') (pkt : RawPacket) : Alike (m.capture pkt) (m'.capture pkt) :=
  h.map (g := fun m => m.capture pkt) fun _ _ _ _ => rfl

theorem withDecoder (h : Alike m m') (decoder : FrameDecoder C) :
    Alike { m with decoder } { m' with decoder } :=
  h.map (g := fun m => { m with decoder }) fun _ _ _ _ => rfl

theorem withBuffer (h : Alike m m') (buffer : JitterBuffer) :
    Alike { m with buffer } { m' with buffer } :=
  h.map (g := fun m => { m with buffer }) fun _ _ _ _ => rfl

theorem withFlow (h : Alike m m') (flow : PlaybackFlow F) :
    Alike { m with flow } { m' with flow } :=
  h.map (g := fun m => { m with flow }) fun _ _ _ _ => rfl

theorem withCooldown (h : Alike m m') (timescaleCooldown : ℕ) :
    Alike { m with timescaleCooldown } { m' with timescaleCooldown } :=
  h.map (g := fun m => { m with timescaleCooldown }) fun _ _ _ _ => rfl

theorem adjust (h : Alike m m') (deltaFrames : F) :
    Alike { m with flow := m.flow.adjustFilteredLevel deltaFrames }
      { m' with flow := m'.flow.adjustFilteredLevel deltaFrames } :=
  h.map (g := fun m => { m with flow := m.flow.adjustFilteredLevel deltaFrames })
    fun _ _ _ _ => rfl

theorem ite {n n' : JitterBufferManager C} (c : Prop) [Decidable c] (h : Alike m m')
    (h' : Alike n n') : Alike (if c then m else n) (if c then m' else n') := by
  split
  · exact h
  · exact h'

/-! ### Taking packets and resetting -/

theorem ingestPacket (h : Alike m m') (pkt : RawPacket) :
    Alike (m.ingestPacket pkt) (m'.ingestPacket pkt) := by
  obtain ⟨w, a, es, rfl⟩ := h
  refine ⟨w, a, es, ?_⟩
  unfold JitterBufferManager.ingestPacket
  dsimp only [withScratch]
  obtain ⟨stats, _ | _⟩ := m.stats.observe pkt.seqNum pkt.arrivalTime
  · rfl
  · obtain ⟨buffer, _ | _ | _⟩ := m.buffer.insert pkt <;> rfl

theorem ingestPackets (h : Alike m m') (pkts : List RawPacket) :
    Alike (m.ingestPackets pkts) (m'.ingestPackets pkts) := by
  induction pkts generalizing m m' with
  | nil => exact h
  | cons pkt pkts ih => exact ih (h.ingestPacket pkt)

theorem triggerReset (h : Alike m m') : Alike m.triggerReset m'.triggerReset :=
  h.map (g := JitterBufferManager.triggerReset) fun _ _ _ _ => rfl

theorem checkResetOnMissing (h : Alike m m') :
    Alike m.checkResetOnMissing.1 m'.checkResetOnMissing.1 ∧
      m'.checkResetOnMissing.2 = m.checkResetOnMissing.2 := by
  have hover : m.outageOver ↔ m'.outageOver := by
    obtain ⟨w, a, es, rfl⟩ := h
    exact Iff.rfl
  unfold JitterBufferManager.checkResetOnMissing
  by_cases hreset : m.outageOver
  · rw [if_pos hreset, if_pos (hover.mp hreset)]
    exact ⟨h.triggerReset.emit _ _ rfl, rfl⟩
  · rw [if_neg hreset, if_neg (hover.not.mp hreset)]
    exact ⟨h, rfl⟩

/-! ### Flushing -/

/-- Removing the packets of a flush leaves these buffers alone. -/
theorem flushLoop (h : Alike m m') (flushTo fuel : ℕ) :
    Alike (m.flushLoop flushTo fuel) (m'.flushLoop flushTo fuel) ∧
      (m.flushLoop flushTo fuel).timescale = m.timescale := by
  induction fuel generalizing m m' with
  | zero => exact ⟨h, rfl⟩
  | succ fuel ih =>
    rw [JitterBufferManager.flushLoop, JitterBufferManager.flushLoop, h.buffer]
    split
    · obtain ⟨buffer, _ | pkt⟩ := m.buffer.popNext
      · exact ih (h.withBuffer buffer.advanceOne)
      · exact ih ((h.withBuffer buffer).capture pkt)
    · exact ⟨h, rfl⟩

/-- A splice reads the frame held before the flush, if there was one. -/
theorem spliceFlush (h : Alike m m') {preFlushLen : ℕ}
    (hheld : 0 < preFlushLen → m'.timescale.wsolaBuf = m.timescale.wsolaBuf) :
    Alike (m.spliceFlush preFlushLen) (m'.spliceFlush preFlushLen) := by
  unfold JitterBufferManager.spliceFlush
  rw [h.decoder]
  split
  · next hboth =>
    have hsame := hheld hboth.1
    rw [TimeScaler.overlapAdd_congr hsame]
    split
    · exact h.emit _ _ rfl
    · unfold TimeScaler.snapshotted
      rw [hsame]
      exact (h.emit _ _ rfl).emit _ _ rfl
  · exact h

/-- A flush holds the frame in the decode buffer before it reads the held one. -/
theorem flushWithCrossfade (h : Alike m m') (flushTo : ℕ) :
    Alike (m.flushWithCrossfade flushTo) (m'.flushWithCrossfade flushTo) := by
  unfold JitterBufferManager.flushWithCrossfade
  rw [h.buffer, h.decoder]
  refine ite _ h ?_
  have hsnapshot : ∀ ts : TimeScaler F, 0 < m.decoder.decodeLen →
      (ts.snapshot m.decoder.decoded).wsolaBuf = m.decoder.decoded := fun ts hheld =>
    congrArg TimeScaler.wsolaBuf (if_pos hheld)
  have hremembers : ∀ ts : TimeScaler F, (ts.snapshot m.decoder.decoded).histBuf = ts.histBuf := by
    intro ts
    unfold TimeScaler.snapshot
    split <;> rfl
  have hbegin : Alike (m.beginFlush flushTo) (m'.beginFlush flushTo) := by
    unfold beginFlush
    rw [h.buffer, h.decoder]
    refine (h.count _).withTimescale ?_
    rw [hremembers, hremembers, h.histBuf]
  obtain ⟨hloop, hkept⟩ := hbegin.flushLoop flushTo bufferCapacity
  obtain ⟨-, hkept'⟩ := (refl (m'.beginFlush flushTo)).flushLoop flushTo bufferCapacity
  refine hloop.spliceFlush fun hheld => ?_
  rw [hkept, hkept']
  change (m'.timescale.snapshot m'.decoder.decoded).wsolaBuf =
    (m.timescale.snapshot m.decoder.decoded).wsolaBuf
  rw [h.decoder, hsnapshot _ hheld, hsnapshot _ hheld]

/-! ### Concealing -/

theorem concealInto (h : Alike m m') : Alike m.concealInto.1 m'.concealInto.1 := by
  obtain ⟨hremembers, hframe⟩ := TimeScaler.concealFrame_congr h.histBuf
  unfold JitterBufferManager.concealInto
  rw [h.decoder]
  split
  · exact h.withDecoder m.decoder.decodePlc
  · generalize m.timescale.concealFrame = frame at hremembers hframe
    generalize m'.timescale.concealFrame = frame' at hremembers hframe
    obtain ⟨ts, out⟩ := frame
    obtain ⟨ts', out'⟩ := frame'
    obtain rfl := hframe
    have hnext := h.withTimescale hremembers
    cases out' with
    | none => exact hnext.withDecoder m.decoder.decodePlc
    | some out =>
      exact (hnext.withDecoder (m.decoder.load out)).count fun tally =>
        { tally with pitchConceals := tally.pitchConceals + 1 }

theorem fadeConceal (h : Alike m m') : Alike m.fadeConceal m'.fadeConceal := by
  unfold JitterBufferManager.fadeConceal
  rw [h.flow]
  refine ite _ ?_ h
  dsimp only
  have hfloor := ite (Binary32.maximum (1.0 - Binary32.ofNat (m.flow.concealRun - 3) / 12.0)
    concealFadeFloor ≤ (concealFadeFloor : F)) (h.count fun tally =>
      { tally with floorFrames := tally.floorFrames + 1 }) h
  rw [hfloor.decoder]
  exact hfloor.withDecoder _

theorem generatePlc (h : Alike m m') : Alike m.generatePlc m'.generatePlc := by
  have hrun : Alike m.extendConcealRun m'.extendConcealRun :=
    h.map (g := extendConcealRun) fun _ _ _ _ => rfl
  have hfaded := hrun.concealInto.fadeConceal
  unfold JitterBufferManager.generatePlc
  dsimp only
  rw [hfaded.decoder]
  exact hfaded.emit _ _ rfl

/-! ### The depth and the hold -/

theorem adoptConfig (h : Alike m m') (newConfig : JitterConfig F) (clock : Instant) :
    Alike (m.adoptConfig newConfig clock) (m'.adoptConfig newConfig clock) := by
  have hrestart : Alike (m.restartConvergence newConfig clock)
      (m'.restartConvergence newConfig clock) :=
    h.map (g := fun m => m.restartConvergence newConfig clock) fun _ _ _ _ => rfl
  unfold JitterBufferManager.adoptConfig
  dsimp only
  rw [hrestart.buffer, hrestart.control]
  exact ite _ (hrestart.flushWithCrossfade _) hrestart

theorem reloadConfigIfChanged (h : Alike m m') (tick : Tick F) :
    Alike (m.reloadConfigIfChanged tick) (m'.reloadConfigIfChanged tick) := by
  have hcountdown : m'.configCheckCountdown = m.configCheckCountdown :=
    h.same (f := JitterBufferManager.configCheckCountdown) fun _ _ _ _ => rfl
  have hset : ∀ configCheckCountdown, Alike { m with configCheckCountdown }
      { m' with configCheckCountdown } := fun configCheckCountdown =>
    h.map (g := fun m => { m with configCheckCountdown }) fun _ _ _ _ => rfl
  unfold JitterBufferManager.reloadConfigIfChanged
  rw [hcountdown]
  refine ite _ ?_ (hset _)
  dsimp only
  cases tick.sharedConfig with
  | none => exact hset 0
  | some newConfig =>
    have hsame : newConfig.same m'.config = newConfig.same m.config := congrArg _ h.config
    dsimp only
    rw [hsame]
    exact ite _ (hset 0) ((hset 0).adoptConfig newConfig tick.configClock)

theorem resolveTarget (h : Alike m m') (tick : Tick F) :
    Alike (m.resolveTarget tick).1 (m'.resolveTarget tick).1 ∧
      (m'.resolveTarget tick).2 = (m.resolveTarget tick).2 := by
  obtain ⟨w, a, es, rfl⟩ := h
  have hbreakdown : (m.withScratch w a es).resolvedBreakdown tick.tcpMode =
      m.resolvedBreakdown tick.tcpMode := rfl
  have hfloor : (m.withScratch w a es).minDepthFrames = m.minDepthFrames := rfl
  unfold JitterBufferManager.resolveTarget logDepthAuthority
  rw [hbreakdown, hfloor]
  dsimp only [withScratch]
  split
  · exact ⟨⟨w, a, es, rfl⟩, rfl⟩
  · exact ⟨⟨w, a, es, rfl⟩, rfl⟩

theorem settleDepth (h : Alike m m') (tick : Tick F) :
    Alike (m.settleDepth tick).1 (m'.settleDepth tick).1 ∧
      (m'.settleDepth tick).2 = (m.settleDepth tick).2 := by
  have hbegin : Alike (m.beginCallback tick) (m'.beginCallback tick) :=
    h.map (g := fun m => m.beginCallback tick) fun _ _ _ _ => rfl
  obtain ⟨hnext, hctx⟩ := (hbegin.reloadConfigIfChanged tick).resolveTarget tick
  unfold JitterBufferManager.settleDepth
  generalize ((m.beginCallback tick).reloadConfigIfChanged tick).resolveTarget tick = r
    at hnext hctx ⊢
  generalize ((m'.beginCallback tick).reloadConfigIfChanged tick).resolveTarget tick = r'
    at hnext hctx ⊢
  obtain ⟨n, ctx, line⟩ := r
  obtain ⟨n', ctx', line'⟩ := r'
  cases hctx
  refine ⟨?_, rfl⟩
  dsimp only at hnext ⊢
  unfold applyNoBufferFlush
  rw [hnext.buffer]
  exact ite _ (hnext.flushWithCrossfade _) hnext

theorem release (h : Alike m m') (ctx : FrameContext) :
    Alike (m.release ctx) (m'.release ctx) := by
  obtain ⟨w, a, es, rfl⟩ := h
  have hopen : Alike { m with flow := { m.flow with isPrebuffering := false } }
      { m.withScratch w a es with flow := { m.flow with isPrebuffering := false } } :=
    ⟨w, a, es, rfl⟩
  exact ite _ (hopen.flushWithCrossfade _) hopen

theorem hold (h : Alike m m') : Alike m.hold m'.hold := by
  have hconceal : ∀ {n n' : JitterBufferManager C}, Alike n n' →
      Alike (JitterBufferManager.generatePlc { n with flow := n.flow.discardConcealWindow })
        (JitterBufferManager.generatePlc { n' with flow := n'.flow.discardConcealWindow }) :=
    fun hn => (hn.map (g := fun n => { n with flow := n.flow.discardConcealWindow })
      fun _ _ _ _ => rfl).generatePlc
  have hcount : Alike { m with flow := { m.flow with missingCount := m.flow.missingCount + 1 } }
      { m' with flow := { m'.flow with missingCount := m'.flow.missingCount + 1 } } :=
    h.map (g := fun m => { m with flow := { m.flow with missingCount := m.flow.missingCount + 1 } })
      fun _ _ _ _ => rfl
  obtain ⟨hreset, hwas⟩ := hcount.checkResetOnMissing
  have hsame : m'.buffer.occupiedCount = m.buffer.occupiedCount := congrArg _ h.buffer
  unfold JitterBufferManager.hold
  rw [hsame]
  by_cases hempty : m.buffer.occupiedCount = 0
  · rw [if_pos hempty, if_pos hempty]
    dsimp only
    rw [hwas]
    exact ite _ hreset (hconceal hreset)
  · rw [if_neg hempty, if_neg hempty]
    exact hconceal h

theorem servePrebuffering (h : Alike m m') (ctx : FrameContext) :
    Alike (m.servePrebuffering ctx).1 (m'.servePrebuffering ctx).1 ∧
      (m'.servePrebuffering ctx).2 = (m.servePrebuffering ctx).2 := by
  have hthreshold : m'.unpauseThreshold ctx = m.unpauseThreshold ctx :=
    h.same (f := fun m => m.unpauseThreshold ctx) fun _ _ _ _ => rfl
  unfold JitterBufferManager.servePrebuffering
  rw [h.flow, h.buffer, hthreshold]
  split
  · split
    · exact ⟨h.release ctx, rfl⟩
    · exact ⟨h.hold, rfl⟩
  · exact ⟨h, rfl⟩

/-! ### The frame -/

theorem skipGapTo (h : Alike m m') (lo : UInt64) : Alike (m.skipGapTo lo) (m'.skipGapTo lo) := by
  have hdiff : (saturatingSub lo m'.buffer.nextPlaySeq).toNat =
      (saturatingSub lo m.buffer.nextPlaySeq).toNat := by rw [h.buffer]
  have hnext : Alike (noteSkip { m with buffer := m.buffer.fastForward lo }
        ((saturatingSub lo m.buffer.nextPlaySeq).toNat % 2 ^ 32))
      (noteSkip { m' with buffer := m'.buffer.fastForward lo }
        ((saturatingSub lo m.buffer.nextPlaySeq).toNat % 2 ^ 32)) :=
    h.map (g := fun n => noteSkip { n with buffer := n.buffer.fastForward lo }
      ((saturatingSub lo m.buffer.nextPlaySeq).toNat % 2 ^ 32)) fun _ _ _ _ => rfl
  unfold JitterBufferManager.skipGapTo
  dsimp only
  rw [hdiff]
  exact ite _ (hnext.map (g := fun n => { n with decoder := n.decoder.resync })
    fun _ _ _ _ => rfl) hnext

theorem tryFastForwardOverGap (h : Alike m m') (ctx : FrameContext) :
    Alike (m.tryFastForwardOverGap ctx) (m'.tryFastForwardOverGap ctx) := by
  obtain ⟨w, a, es, rfl⟩ := h
  unfold JitterBufferManager.tryFastForwardOverGap
  dsimp only [withScratch]
  refine ite _ ?_ ⟨w, a, es, rfl⟩
  obtain ⟨buffer, _ | lo⟩ := m.buffer.lowestAvailableSeq
  · exact ite _ ⟨w, a, es, rfl⟩ ⟨w, a, es, rfl⟩
  · dsimp only
    refine ite _ (skipGapTo ⟨w, a, es, rfl⟩ lo) ⟨w, a, es, rfl⟩

theorem approachFrame (h : Alike m m') (ctx : FrameContext) :
    Alike (m.approachFrame ctx) (m'.approachFrame ctx) := by
  have hstartup : Alike (m.applyStartupFlush ctx) (m'.applyStartupFlush ctx) := by
    obtain ⟨w, a, es, rfl⟩ := h
    unfold applyStartupFlush
    dsimp only [withScratch]
    exact ite _ (ite _ (flushWithCrossfade ⟨w, a, es, rfl⟩ _) ⟨w, a, es, rfl⟩) ⟨w, a, es, rfl⟩
  have hstatic : Alike ((m.applyStartupFlush ctx).applyStaticTargetFlush ctx)
      ((m'.applyStartupFlush ctx).applyStaticTargetFlush ctx) := by
    unfold applyStaticTargetFlush
    rw [hstartup.config, hstartup.buffer]
    exact ite _ (hstartup.flushWithCrossfade _) hstartup
  exact hstatic.tryFastForwardOverGap ctx

theorem observeDelivery (h : Alike m m') (concealed : Bool) :
    Alike (m.observeDelivery concealed) (m'.observeDelivery concealed) := by
  have hdeep : (concealed = false ∧ m'.minDepthFrames < m'.buffer.occupiedCount) ↔
      (concealed = false ∧ m.minDepthFrames < m.buffer.occupiedCount) := by
    obtain ⟨w, a, es, rfl⟩ := h
    exact Iff.rfl
  unfold JitterBufferManager.observeDelivery
  rw [h.flow]
  simp only [hdeep]
  generalize (if concealed = false ∧ m.minDepthFrames < m.buffer.occupiedCount then
    m.flow.closeStarvationEpisode else m.flow) = flow
  split
  · exact h.withFlow _
  · obtain ⟨flow', _ | verdict⟩ := flow.observeDelivery concealed
    · exact h.withFlow _
    · exact h.withFlow _

theorem leaveStarvation (h : Alike m m') (ctx : FrameContext) :
    Alike (m.leaveStarvation ctx) (m'.leaveStarvation ctx) := by
  obtain ⟨w, a, es, rfl⟩ := h
  unfold JitterBufferManager.leaveStarvation
  dsimp only [withScratch]
  refine ite _ ?_ ⟨w, a, es, rfl⟩
  cases ctx.tcpMode with
  | true => exact ⟨w, a, es, rfl⟩
  | false => exact ⟨w, a, es, rfl⟩

theorem endOutage (h : Alike m m') (ctx : FrameContext) :
    Alike (m.endOutage ctx) (m'.endOutage ctx) :=
  ((h.map (g := fun m => { m with flow :=
      { m.flow with gapHoldCount := 0, missingCount := 0, concealRun := 0 } })
    fun _ _ _ _ => rfl).observeDelivery false).leaveStarvation ctx

theorem prepareFrame (h : Alike m m') (ctx : FrameContext) (pkt : RawPacket) :
    Alike (m.prepareFrame ctx pkt) (m'.prepareFrame ctx pkt) := by
  have hdecoded : Alike (m.decodeNext ctx pkt) (m'.decodeNext ctx pkt) :=
    h.map (g := fun m => m.decodeNext ctx pkt) fun _ _ _ _ => rfl
  unfold JitterBufferManager.prepareFrame maskSplice
  have hpending : (m'.decodeNext ctx pkt).pendingGapFadein =
      (m.decodeNext ctx pkt).pendingGapFadein :=
    hdecoded.same (f := pendingGapFadein) fun _ _ _ _ => rfl
  rw [hdecoded.flow, hpending]
  exact (ite _ (hdecoded.map (g := fadeIn) fun _ _ _ _ => rfl) hdecoded).map
    (g := fun m => { m with pendingGapFadein := false }) fun _ _ _ _ => rfl

/-! ### The time-scaler -/

theorem shedLoop (h : Alike m m') (highLimit n : ℕ) :
    Alike (m.shedLoop highLimit n) (m'.shedLoop highLimit n) := by
  induction n generalizing m m' with
  | zero => exact h
  | succ n ih =>
    rw [JitterBufferManager.shedLoop, JitterBufferManager.shedLoop, h.buffer]
    refine ite _ ?_ (ih h)
    obtain ⟨buffer, _ | extra⟩ := m.buffer.popNext
    · exact h
    · exact ih ((((h.withBuffer buffer).capture extra).adjust (0.0 - 1.0)).count fun tally =>
        { tally with shed := tally.shed + 1 })

theorem shedSilence (h : Alike m m') (ctx : FrameContext) (highLimit : ℕ) :
    Alike (m.shedSilence ctx highLimit) (m'.shedSilence ctx highLimit) := by
  have hshed := (h.emit .shed .shed (rfl : m.decoder.decoded = _)).shedLoop highLimit
    (min (max ((Binary32.toNat m.flow.filteredBufferLevel - highLimit) / 2) 1) 4)
  unfold JitterBufferManager.shedSilence
  rw [h.decoder, h.flow]
  exact hshed.map (g := fun m => { m with
    timescale := m.timescale.forget, timescaleCooldown := timescaleInterval ctx.target })
    fun _ _ _ _ => rfl

/-- The window is staged afresh. -/
theorem stageWindow (h : Alike m m') : ∃ wsolaBuf emissions, m'.stageWindow =
    m.stageWindow.withScratch wsolaBuf m.stageWindow.timescale.accelWindow emissions := by
  obtain ⟨w, a, es, rfl⟩ := h
  refine ⟨w, es, ?_⟩
  unfold JitterBufferManager.stageWindow
  have hroom : ((m.withScratch w a es).timescale.windowBegin m.decoder.decoded).windowHeadroom =
      (m.timescale.windowBegin m.decoder.decoded).windowHeadroom := rfl
  have hbuffer : (m.withScratch w a es).buffer = m.buffer := rfl
  have hdecoder : (m.withScratch w a es).decoder = m.decoder := rfl
  dsimp only
  rw [hdecoder, hbuffer, hroom]
  by_cases hfits : m.buffer.hasNext = true ∧
      m.decoder.decodeLen ≤ (m.timescale.windowBegin m.decoder.decoded).windowHeadroom
  · rw [if_pos hfits, if_pos hfits]
    obtain ⟨buffer, _ | nextPkt⟩ := m.buffer.popNext
    · rfl
    · dsimp only
      rw [TimeScaler.windowExtend_eq, TimeScaler.windowExtend_eq]
      rfl
  · rw [if_neg hfits, if_neg hfits]
    rfl

theorem drain (h : Alike m m') (ctx : FrameContext) (isFast : Bool) (rms : F) :
    Alike (m.drain ctx isFast rms) (m'.drain ctx isFast rms) := by
  obtain ⟨w, es, hstaged⟩ := h.stageWindow
  have hwindow : m'.stageWindow.timescale.accelWindow = m.stageWindow.timescale.accelWindow := by
    rw [hstaged]
    rfl
  replace hstaged : Alike m.stageWindow m'.stageWindow := ⟨w, _, es, hstaged⟩
  unfold JitterBufferManager.drain
  dsimp only
  rw [TimeScaler.accelerate_congr hwindow]
  cases m.stageWindow.timescale.accelerate isFast rms with
  | none =>
    exact (hstaged.count fun tally =>
      { tally with declinedNcc := tally.declinedNcc + 1 }).emit _ _ hwindow
  | some shortened =>
    obtain ⟨out, removedSamples⟩ := shortened
    have hcounted := ((hstaged.emit .accelerated .accelerated (rfl : out = out)).adjust
      (0.0 - Binary32.ofNat removedSamples / Binary32.ofNat opusFrameSamples)).count fun tally =>
        { tally with
          accelerated := tally.accelerated + 1
          fastAccelerated := tally.fastAccelerated + if isFast then 1 else 0
          loudSplices := tally.loudSplices + if rms < artifactMaskRms then 0 else 1 }
    exact ite _ hcounted (hcounted.withCooldown _)

theorem growSilence (h : Alike m m') : Alike m.growSilence m'.growSilence := by
  unfold JitterBufferManager.growSilence
  rw [h.decoder]
  exact (((h.emit .growth .growth rfl).adjust 1.0).count fun tally =>
    { tally with grown := tally.grown + 1 }).withCooldown _

theorem stretch (h : Alike m m') (rms : F) :
    Alike (m.stretch rms).1 (m'.stretch rms).1 ∧ (m'.stretch rms).2 = (m.stretch rms).2 := by
  unfold JitterBufferManager.stretch
  rw [h.decoder, h.buffer]
  dsimp only
  generalize decide (m.buffer.occupiedCount ≤ 1) = imminentUnderrun
  have hspliced :
      (if imminentUnderrun then m'.timescale.expandConceal m.decoder.decoded rms
        else m'.timescale.expand m.decoder.decoded rms).1.histBuf =
      (if imminentUnderrun then m.timescale.expandConceal m.decoder.decoded rms
        else m.timescale.expand m.decoder.decoded rms).1.histBuf ∧
      (if imminentUnderrun then m'.timescale.expandConceal m.decoder.decoded rms
        else m'.timescale.expand m.decoder.decoded rms).2 =
      (if imminentUnderrun then m.timescale.expandConceal m.decoder.decoded rms
        else m.timescale.expand m.decoder.decoded rms).2 := by
    cases imminentUnderrun with
    | true => exact TimeScaler.expandInner_congr h.histBuf _ _ true
    | false => exact TimeScaler.expandInner_congr h.histBuf _ _ false
  generalize (if imminentUnderrun then m.timescale.expandConceal m.decoder.decoded rms
    else m.timescale.expand m.decoder.decoded rms) = spliced at hspliced ⊢
  generalize (if imminentUnderrun then m'.timescale.expandConceal m.decoder.decoded rms
    else m'.timescale.expand m.decoder.decoded rms) = spliced' at hspliced ⊢
  obtain ⟨ts, out⟩ := spliced
  obtain ⟨ts', out'⟩ := spliced'
  obtain ⟨hremembers, hout⟩ := hspliced
  obtain rfl : out' = out := hout
  have hnext := h.withTimescale hremembers
  rw [h.decoder, h.buffer] at hnext
  obtain _ | ⟨out, insertedSamples⟩ := out'
  · exact ⟨hnext.count fun tally =>
      { tally with
        declinedPreemptiveNcc := tally.declinedPreemptiveNcc + if imminentUnderrun then 0 else 1
        declinedUnderrunNcc := tally.declinedUnderrunNcc + if imminentUnderrun then 1 else 0 }, rfl⟩
  · refine ⟨?_, rfl⟩
    exact (((hnext.emit _ _ rfl).adjust _).count fun tally =>
      { tally with
        expanded := tally.expanded + 1
        preemptive := tally.preemptive + if imminentUnderrun then 0 else 1 }).withCooldown _

theorem runTimescale (h : Alike m m') (ctx : FrameContext) :
    Alike (m.runTimescale ctx).1 (m'.runTimescale ctx).1 ∧
      (m'.runTimescale ctx).2 = (m.runTimescale ctx).2 := by
  have hite : ∀ {r r' t t' : JitterBufferManager C × Bool} (c : Prop) [Decidable c],
      Alike r.1 r'.1 ∧ r'.2 = r.2 → Alike t.1 t'.1 ∧ t'.2 = t.2 →
      Alike (if c then r else t).1 (if c then r' else t').1 ∧
        (if c then r' else t').2 = (if c then r else t).2 := by
    intro r r' t t' c _ hr ht
    split
    · exact hr
    · exact ht
  unfold JitterBufferManager.runTimescale
  dsimp only
  rw [h.flow, h.decoder]
  have hn := ite (decide (Binary32.ofNat (TargetController.bufferLimits ctx.target).high ≤
      m.flow.filteredBufferLevel) = true ∧ m.flow.stretchAllowed ctx.now = false)
    (h.count fun tally => { tally with declinedRecovery := tally.declinedRecovery + 1 }) h
  revert hn
  generalize (if decide (Binary32.ofNat (TargetController.bufferLimits ctx.target).high ≤
      m.flow.filteredBufferLevel) = true ∧ m.flow.stretchAllowed ctx.now = false then
    m.count fun tally => { tally with declinedRecovery := tally.declinedRecovery + 1 } else m) = n
  generalize (if decide (Binary32.ofNat (TargetController.bufferLimits ctx.target).high ≤
      m.flow.filteredBufferLevel) = true ∧ m.flow.stretchAllowed ctx.now = false then
    m'.count fun tally => { tally with declinedRecovery := tally.declinedRecovery + 1 }
    else m') = n'
  intro hn
  rw [hn.buffer, hn.timescaleCooldown, hn.config]
  refine hite _ (hite _ ⟨hn.shedSilence ctx _, rfl⟩ (hite _ ⟨hn.drain ctx _ _, rfl⟩ ?_))
    (hite _ (hite _ ⟨hn.growSilence, rfl⟩ (hite _ (hn.stretch _) ⟨hn, rfl⟩)) ⟨hn, rfl⟩)
  exact ⟨hn.count fun tally => { tally with declinedCooldown := tally.declinedCooldown + 1 }, rfl⟩

theorem playPrepared (h : Alike m m') (ctx : FrameContext) :
    Alike (m.playPrepared ctx) (m'.playPrepared ctx) := by
  obtain ⟨hnext, hemitted⟩ := h.runTimescale ctx
  unfold JitterBufferManager.playPrepared
  generalize m.runTimescale ctx = r at hnext hemitted ⊢
  generalize m'.runTimescale ctx = r' at hnext hemitted ⊢
  obtain ⟨n, emitted⟩ := r
  obtain ⟨n', emitted'⟩ := r'
  obtain rfl := hemitted
  dsimp only at hnext ⊢
  cases emitted' with
  | true => exact hnext
  | false =>
    dsimp only
    rw [hnext.decoder]
    exact hnext.emit _ _ rfl

theorem playNextFrame (h : Alike m m') (ctx : FrameContext) :
    Alike (m.playNextFrame ctx) (m'.playNextFrame ctx) := by
  have hended := h.endOutage ctx
  unfold JitterBufferManager.playNextFrame
  dsimp only
  rw [hended.buffer]
  obtain ⟨buffer, _ | pkt⟩ := (m.endOutage ctx).buffer.popNext
  · exact hended
  · exact ((hended.withBuffer buffer).prepareFrame ctx pkt).playPrepared ctx

theorem handleMissingFrame (h : Alike m m') (ctx : FrameContext) :
    Alike (m.handleMissingFrame ctx) (m'.handleMissingFrame ctx) := by
  have hcounted := (h.map (g := fun m => { m with flow :=
      { m.flow with missingCount := m.flow.missingCount + 1 } })
    fun _ _ _ _ => rfl).observeDelivery true
  dsimp only at hcounted
  unfold JitterBufferManager.handleMissingFrame
  dsimp only
  generalize JitterBufferManager.observeDelivery
    { m with flow := { m.flow with missingCount := m.flow.missingCount + 1 } } true = n
    at hcounted ⊢
  generalize JitterBufferManager.observeDelivery
    { m' with flow := { m'.flow with missingCount := m'.flow.missingCount + 1 } } true = n'
    at hcounted ⊢
  have hstarve : Alike (n.starve ctx) (n'.starve ctx) := by
    obtain ⟨w, a, es, rfl⟩ := hcounted
    exact ⟨w, a, es, rfl⟩
  rw [hcounted.buffer]
  have hstarved := ite (n.buffer.occupiedCount = 0) hstarve hcounted
  revert hstarved
  generalize (if n.buffer.occupiedCount = 0 then n.starve ctx else n) = k
  generalize (if n.buffer.occupiedCount = 0 then n'.starve ctx else n') = k'
  intro hstarved
  obtain ⟨hnext, hreset⟩ := hstarved.checkResetOnMissing
  generalize k.checkResetOnMissing = r at hnext hreset ⊢
  generalize k'.checkResetOnMissing = r' at hnext hreset ⊢
  obtain ⟨n, wasReset⟩ := r
  obtain ⟨n', wasReset'⟩ := r'
  obtain rfl : wasReset' = wasReset := hreset
  cases wasReset' with
  | true => exact hnext
  | false => exact hnext.generatePlc

theorem playOrMiss (h : Alike m m') (ctx : FrameContext) :
    Alike (m.playOrMiss ctx) (m'.playOrMiss ctx) := by
  unfold JitterBufferManager.playOrMiss
  rw [h.buffer]
  exact ite _ (h.playNextFrame ctx) (h.handleMissingFrame ctx)

/-- One callback plays the same. -/
theorem processNextFrame (h : Alike m m') (tick : Tick F) :
    Alike (m.processNextFrame tick).1 (m'.processNextFrame tick).1 := by
  obtain ⟨hsettled, hctx⟩ := h.settleDepth tick
  unfold JitterBufferManager.processNextFrame
  generalize m.settleDepth tick = r at hsettled hctx ⊢
  generalize m'.settleDepth tick = r' at hsettled hctx ⊢
  obtain ⟨n, ctx, line⟩ := r
  obtain ⟨n', ctx', line'⟩ := r'
  cases hctx
  dsimp only at hsettled ⊢
  obtain ⟨hserved, hdone⟩ := hsettled.servePrebuffering ctx
  generalize n.servePrebuffering ctx = r at hserved hdone ⊢
  generalize n'.servePrebuffering ctx = r' at hserved hdone ⊢
  obtain ⟨n, done⟩ := r
  obtain ⟨n', done'⟩ := r'
  obtain rfl := hdone
  cases done' with
  | true => exact hserved
  | false => exact (hserved.approachFrame ctx).playOrMiss ctx

theorem withQueue (h : Alike m m') (samples : List F) :
    Alike (m.withQueue samples) (m'.withQueue samples) :=
  h.map (g := fun m => m.withQueue samples) fun _ _ _ _ => rfl

theorem withoutEmissions (h : Alike m m') :
    Alike { m with emissions := [] } { m' with emissions := [] } := by
  obtain ⟨w, a, es, rfl⟩ := h
  exact ⟨w, a, [], rfl⟩

/-- Both players produce the same blocks. -/
theorem nextBlock (ticks : ℕ → Tick F) {s s' : JitterBufferManager C × ℕ}
    (h : Alike s.1 s'.1 ∧ s'.2 = s.2) :
    (Alike (nextBlock ticks s).1.1 (nextBlock ticks s').1.1 ∧
        (nextBlock ticks s').1.2 = (nextBlock ticks s).1.2) ∧
      (nextBlock ticks s).2 = (nextBlock ticks s').2 := by
  obtain ⟨m, k⟩ := s
  obtain ⟨m', k'⟩ := s'
  obtain ⟨halike, rfl⟩ := h
  have hrefilled : Alike (m.refilled (ticks k')) (m'.refilled (ticks k')) :=
    (halike.withQueue []).withoutEmissions.processNextFrame (ticks k')
  exact ⟨⟨hrefilled.withQueue [], rfl⟩, hrefilled.playbackBuf.symm⟩

end Alike

/-! ### The audio held -/

/-- The players differ only in the audio they hold: the packets of the buffer, the samples ready
for the device, what the codec and the decode buffer hold, and the buffers of the time-scaler. -/
def SameButAudio (m m' : JitterBufferManager C) : Prop :=
  ∃ buffer playbackBuf state decodeBuf codecState timescale emissions,
    m' = { m with
      buffer, playbackBuf, timescale, emissions
      decoder := { m.decoder with decoder := state, decodeBuf, codecState } }

theorem SameButAudio.triggerReset (h : SameButAudio m m') :
    SameButAudio m.triggerReset m'.triggerReset := by
  obtain ⟨buffer, playbackBuf, state, decodeBuf, codecState, timescale, emissions, rfl⟩ := h
  exact ⟨_, _, _, _, _, _, _, rfl⟩

/-- A reset forgets the audio, if a reset of the codec makes it as good as new. -/
theorem SameButAudio.forgotten (hreset : ∀ state, C.resetState state = C.init)
    (h : SameButAudio m m') : Alike m.triggerReset m'.triggerReset := by
  obtain ⟨buffer, playbackBuf, state, decodeBuf, codecState, timescale, emissions, rfl⟩ := h
  refine ⟨timescale.wsolaBuf, timescale.accelWindow, emissions, ?_⟩
  unfold JitterBufferManager.triggerReset FrameDecoder.reset
  rw [hreset, hreset]
  rfl

end JitterBufferManager

end Gemacast.Jitter
