import Mathlib.Logic.Relation
import Gemacast.Jitter.BufferMoves
import Gemacast.Jitter.Callback

/-!
# The phases of a callback

What the phases before the frame do. All of them are bookkeeping and flushes, but
for the depth line and the gap skip, so a property of a callback is checked on
these. Up to the gap skip a callback only moves the playhead on, appends nothing but
splices of flushes, and keeps the counters of missing frames, the pending fade-in
and the remembered frame.
-/

set_option linter.unusedSectionVars false

namespace Gemacast.Jitter

open Gemacast.Core

@[simp] theorem TimeScaler.snapshot_histBuf {F : Type} (ts : TimeScaler F) (pcm : List F) :
    (ts.snapshot pcm).histBuf = ts.histBuf := by
  unfold snapshot
  split <;> rfl

namespace JitterBufferManager

variable {F : Type} [Binary32 F] [FrameMark F] {C : Codec F} {m : JitterBufferManager C}
  {ctx : FrameContext} {Q : RawPacket → Prop}

section Flush

/-- The flush loop touches the decoder and the buffer only. -/
theorem flushLoop_eq (m : JitterBufferManager C) (flushTo fuel : ℕ) :
    ∃ decoder buffer, m.flushLoop flushTo fuel = { m with decoder, buffer } := by
  induction fuel generalizing m with
  | zero => exact ⟨_, _, rfl⟩
  | succ fuel ih =>
    unfold flushLoop
    split
    · split <;> exact ih _
    · exact ⟨_, _, rfl⟩

/-- The splice of a flush appends at most two lists of samples. -/
theorem spliceFlush_eq (m : JitterBufferManager C) (preFlushLen : ℕ) :
    ∃ playbackBuf splices, (∀ e ∈ splices, e.source = .flush) ∧ m.spliceFlush preFlushLen =
      { m with playbackBuf, emissions := m.emissions ++ splices } := by
  unfold spliceFlush
  split
  · split
    · exact ⟨_, [⟨.flush, _⟩], by simp, rfl⟩
    · refine ⟨m.playbackBuf ++ m.timescale.snapshotted preFlushLen ++ m.decoder.decoded,
        [⟨.flush, m.timescale.snapshotted preFlushLen⟩, ⟨.flush, m.decoder.decoded⟩],
        by simp, ?_⟩
      simp only [emit, List.append_assoc, List.singleton_append]
  · exact ⟨_, [], by simp, by rw [List.append_nil]⟩

/-- A flush is its loop for the buffer and the decoder: with nothing to discard the loop ends
where it starts. -/
theorem flushWithCrossfade_loop (m : JitterBufferManager C) (flushTo : ℕ) :
    (m.flushWithCrossfade flushTo).buffer =
        ((m.beginFlush flushTo).flushLoop flushTo bufferCapacity).buffer ∧
      (m.flushWithCrossfade flushTo).decoder =
        ((m.beginFlush flushTo).flushLoop flushTo bufferCapacity).decoder := by
  unfold flushWithCrossfade
  split
  · next hidle =>
    have hloop : (m.beginFlush flushTo).flushLoop flushTo bufferCapacity = m.beginFlush flushTo :=
      if_neg (Nat.not_lt.mpr hidle)
    rw [hloop]
    exact ⟨rfl, rfl⟩
  · obtain ⟨playbackBuf, splices, -, hsplice⟩ :=
      ((m.beginFlush flushTo).flushLoop flushTo bufferCapacity).spliceFlush_eq m.decoder.decodeLen
    rw [hsplice]
    exact ⟨rfl, rfl⟩

/-- The flush loop keeps the buffer sound, moves the playhead on, and leaves exactly
`flushTo` packets when it starts with more and may pass all of them. -/
theorem flushLoop_spec (h : m.buffer.Sound Q) (flushTo fuel : ℕ)
    (hle : flushTo ≤ m.buffer.occupiedCount)
    (hfuel : ∀ k ∈ m.buffer.stored, k < m.buffer.playhead + fuel) :
    (m.flushLoop flushTo fuel).buffer.Sound Q ∧
      m.buffer.Onwards (m.flushLoop flushTo fuel).buffer ∧
      (m.flushLoop flushTo fuel).buffer.occupiedCount = flushTo := by
  induction fuel generalizing m with
  | zero =>
    have hempty : m.buffer.stored = ∅ := by
      rw [Finset.eq_empty_iff_forall_notMem]
      intro k hk
      have := hfuel k hk
      have := (h.wellFormed.mem_window hk).1
      omega
    rw [h.wellFormed.occupiedCount_eq, hempty, Finset.card_empty] at hle
    refine ⟨h, .refl h.wellFormed, ?_⟩
    change m.buffer.occupiedCount = flushTo
    rw [h.wellFormed.occupiedCount_eq, hempty, Finset.card_empty]
    omega
  | succ fuel ih =>
    unfold flushLoop
    by_cases hmore : flushTo < m.buffer.occupiedCount
    · have hne : m.buffer.stored.Nonempty := by
        rw [← Finset.card_pos, ← h.wellFormed.occupiedCount_eq]
        omega
      have hpop := h.popNext_onwards hne
      have hplay := h.popNext_playhead hne
      have hocc := h.popNext_occupied
      have hsome := h.popNext_isSome
      rw [if_pos hmore]
      cases hp : m.buffer.popNext with
      | mk buffer answer =>
        simp only [hp] at hpop hplay hocc hsome
        have hs : buffer.Sound Q := by simpa only [hp] using h.popNext
        cases answer with
        | some pkt =>
          have hnext : m.buffer.hasNext = true := hsome.symm
          rw [hnext, if_pos rfl] at hocc
          obtain ⟨h1, h2, h3⟩ := ih (m := { m with buffer }.capture pkt) hs
            (by change flushTo ≤ buffer.occupiedCount; omega) (fun k hk => by
              change k < buffer.playhead + fuel
              have := hfuel k (hpop.subset hk)
              omega)
          exact ⟨h1, hpop.trans h2, h3⟩
        | none =>
          have hnext : m.buffer.hasNext = false := hsome.symm
          rw [hnext, if_neg (by simp), add_zero] at hocc
          have hne' : buffer.stored.Nonempty := by
            rw [← Finset.card_pos, ← hs.wellFormed.occupiedCount_eq]
            omega
          have hadv := hs.advanceOne_onwards hne'
          have hplay' := hs.advanceOne_playhead hne'
          have hocc' := hs.advanceOne_occupied
          obtain ⟨h1, h2, h3⟩ := ih (m := { m with buffer := buffer.advanceOne }) hs.advanceOne
            (by change flushTo ≤ buffer.advanceOne.occupiedCount; split at hocc' <;> omega)
            (fun k hk => by
              change k < buffer.advanceOne.playhead + fuel
              have := hfuel k (hpop.subset (hadv.subset hk))
              omega)
          exact ⟨h1, hpop.trans (hadv.trans h2), h3⟩
    · rw [if_neg hmore]
      exact ⟨h, .refl h.wellFormed, by omega⟩

/-- A flush keeps the buffer sound, moves the playhead on and leaves at most `flushTo`
packets. -/
theorem flushWithCrossfade_sound (h : m.buffer.Sound Q) (flushTo : ℕ) :
    (m.flushWithCrossfade flushTo).buffer.Sound Q ∧
      m.buffer.Onwards (m.flushWithCrossfade flushTo).buffer ∧
      (m.flushWithCrossfade flushTo).buffer.occupiedCount =
        min m.buffer.occupiedCount flushTo := by
  unfold flushWithCrossfade
  by_cases hle : m.buffer.occupiedCount ≤ flushTo
  · rw [if_pos hle]
    exact ⟨h, .refl h.wellFormed, by omega⟩
  · rw [if_neg hle]
    obtain ⟨h1, h2, h3⟩ := flushLoop_spec (m := m.beginFlush flushTo) h flushTo bufferCapacity
      (Nat.le_of_not_le hle) fun k hk => (h.wellFormed.mem_window hk).2
    obtain ⟨playbackBuf, splices, -, hsplice⟩ :=
      ((m.beginFlush flushTo).flushLoop flushTo bufferCapacity).spliceFlush_eq m.decoder.decodeLen
    rw [hsplice]
    exact ⟨h1, h2, h3.trans (min_eq_right (Nat.le_of_not_le hle)).symm⟩

/-- A flush leaves alone what it does not name, keeps the remembered frame, appends
splices and counts the packets above `flushTo` as discards. -/
theorem flushWithCrossfade_eq (m : JitterBufferManager C) (flushTo : ℕ) :
    ∃ decoder buffer playbackBuf timescale splices,
      m.flushWithCrossfade flushTo =
        { m.count fun tally =>
            { tally with
              flushDiscards := tally.flushDiscards + (m.buffer.occupiedCount - flushTo) } with
          decoder, buffer, playbackBuf, timescale, emissions := m.emissions ++ splices } ∧
      timescale.histBuf = m.timescale.histBuf ∧ ∀ e ∈ splices, e.source = .flush := by
  unfold flushWithCrossfade
  split
  · rename_i hle
    refine ⟨m.decoder, m.buffer, m.playbackBuf, m.timescale, [], ?_, rfl, by simp⟩
    rw [Nat.sub_eq_zero_of_le hle, List.append_nil]
    rfl
  · obtain ⟨decoder, buffer, hloop⟩ := (m.beginFlush flushTo).flushLoop_eq flushTo bufferCapacity
    obtain ⟨playbackBuf, splices, hflush, hsplice⟩ :=
      spliceFlush_eq { m.beginFlush flushTo with decoder, buffer } m.decoder.decodeLen
    rw [hloop, hsplice]
    exact ⟨_, _, _, _, splices, rfl, TimeScaler.snapshot_histBuf _ _, hflush⟩

end Flush

section Settle

/-- From `m` to `m'` nothing changed but the configuration, the statistics, the depth
controller, the log and the parts of the lifecycle that count no callback. -/
structure Keeps (m m' : JitterBufferManager C) : Prop where
  decoder : m'.decoder = m.decoder
  buffer : m'.buffer = m.buffer
  playbackBuf : m'.playbackBuf = m.playbackBuf
  timescale : m'.timescale = m.timescale
  emissions : m'.emissions = m.emissions
  networkLink : m'.networkLink = m.networkLink
  pendingGapFadein : m'.pendingGapFadein = m.pendingGapFadein
  missingCount : m'.flow.missingCount = m.flow.missingCount
  starvationCount : m'.flow.starvationCount = m.flow.starvationCount
  gapHoldCount : m'.flow.gapHoldCount = m.flow.gapHoldCount

/-- One step of the phases that settle the depth: bookkeeping that keeps the log and
the count of arrivals, or a flush. -/
inductive SettleStep : JitterBufferManager C → JitterBufferManager C → Prop
  | keep {m m' : JitterBufferManager C} (h : m.Keeps m') (hlog : m'.logWindow = m.logWindow)
      (harrivals : m'.stats.arrivalCount = m.stats.arrivalCount) : SettleStep m m'
  | flush (m : JitterBufferManager C) (flushTo : ℕ) : SettleStep m (m.flushWithCrossfade flushTo)

/-- A sequence of such steps. -/
abbrev Settles : JitterBufferManager C → JitterBufferManager C → Prop :=
  Relation.ReflTransGen SettleStep

/-- What bookkeeping and flushes keep holds after the phases that settle the depth. -/
theorem Settles.preserves {P : JitterBufferManager C → Prop} {m m' : JitterBufferManager C}
    (h : m.Settles m') (hstep : ∀ a b : JitterBufferManager C, SettleStep a b → P a → P b)
    (hm : P m) : P m' := by
  induction h with
  | refl => exact hm
  | tail _ hlast ih => exact hstep _ _ hlast ih

theorem settles_flush (m : JitterBufferManager C) (flushTo : ℕ) :
    m.Settles (m.flushWithCrossfade flushTo) :=
  .single (.flush m flushTo)

theorem beginCallback_settles (m : JitterBufferManager C) (tick : Tick F) :
    m.Settles (m.beginCallback tick) :=
  .single (.keep ⟨rfl, rfl, rfl, rfl, rfl, rfl, rfl, rfl, rfl, rfl⟩ rfl rfl)

theorem adoptConfig_settles (m : JitterBufferManager C) (newConfig : JitterConfig F)
    (clock : Instant) : m.Settles (m.adoptConfig newConfig clock) := by
  have hrestart : m.Settles (m.restartConvergence newConfig clock) :=
    .single (.keep ⟨rfl, rfl, rfl, rfl, rfl, rfl, rfl, rfl, rfl, rfl⟩ rfl rfl)
  unfold adoptConfig
  dsimp only
  split
  · exact hrestart.trans (settles_flush _ _)
  · exact hrestart

theorem reloadConfigIfChanged_settles (m : JitterBufferManager C) (tick : Tick F) :
    m.Settles (m.reloadConfigIfChanged tick) := by
  have hcounted : ∀ configCheckCountdown, m.Settles { m with configCheckCountdown } := fun _ =>
    .single (.keep ⟨rfl, rfl, rfl, rfl, rfl, rfl, rfl, rfl, rfl, rfl⟩ rfl rfl)
  unfold reloadConfigIfChanged
  split
  · dsimp only
    split
    · split
      · exact hcounted 0
      · exact (hcounted 0).trans (adoptConfig_settles _ _ _)
    · exact hcounted 0
  · exact hcounted _

/-- Emitting the depth line touches the statistics and the log window only. -/
theorem logDepthAuthority_eq (m : JitterBufferManager C) (now : Instant) :
    ∃ stats logWindow, (m.logDepthAuthority now).1 = { m with stats, logWindow } := by
  unfold logDepthAuthority
  dsimp only
  split <;> exact ⟨_, _, rfl⟩

/-- Resolving the target is bookkeeping, but for the log. -/
theorem resolveTarget_keeps (m : JitterBufferManager C) (tick : Tick F) :
    m.Keeps (m.resolveTarget tick).1 := by
  unfold resolveTarget
  dsimp only
  obtain ⟨stats, logWindow, heq⟩ := logDepthAuthority_eq { m with control := _ } tick.now
  rw [heq]
  exact ⟨rfl, rfl, rfl, rfl, rfl, rfl, rfl, rfl, rfl, rfl⟩

theorem applyNoBufferFlush_settles (m : JitterBufferManager C) (ctx : FrameContext) :
    m.Settles (m.applyNoBufferFlush ctx) := by
  unfold applyNoBufferFlush
  split
  · exact settles_flush _ _
  · exact .refl

/-- Before the hold: bookkeeping and flushes, the target, bookkeeping and flushes. -/
theorem settleDepth_cases (m : JitterBufferManager C) (tick : Tick F) :
    ∃ m', m.Settles m' ∧ (m'.resolveTarget tick).1.Settles (m.settleDepth tick).1 ∧
      (m.settleDepth tick).2 = (m'.resolveTarget tick).2 :=
  ⟨_, (m.beginCallback_settles tick).trans (reloadConfigIfChanged_settles _ tick),
    applyNoBufferFlush_settles _ _, rfl⟩

theorem release_settles (m : JitterBufferManager C) (ctx : FrameContext) :
    m.Settles (m.release ctx) := by
  have hreleased : m.Settles { m with flow := { m.flow with isPrebuffering := false } } :=
    .single (.keep ⟨rfl, rfl, rfl, rfl, rfl, rfl, rfl, rfl, rfl, rfl⟩ rfl rfl)
  unfold release
  dsimp only
  split
  · exact hreleased.trans (settles_flush _ _)
  · exact hreleased

theorem applyStartupFlush_settles (m : JitterBufferManager C) (ctx : FrameContext) :
    m.Settles (m.applyStartupFlush ctx) := by
  have hstarted : m.Settles { m with startupFlushPending := false } :=
    .single (.keep ⟨rfl, rfl, rfl, rfl, rfl, rfl, rfl, rfl, rfl, rfl⟩ rfl rfl)
  unfold applyStartupFlush
  dsimp only
  split
  · split
    · exact hstarted.trans (settles_flush _ _)
    · exact hstarted
  · exact .refl

theorem applyStaticTargetFlush_settles (m : JitterBufferManager C) (ctx : FrameContext) :
    m.Settles (m.applyStaticTargetFlush ctx) := by
  unfold applyStaticTargetFlush
  split
  · exact settles_flush _ _
  · exact .refl

/-- Settling the depth keeps the counters, the pending fade-in and the remembered
frame, and appends nothing but splices of flushes. -/
structure Settled (m m' : JitterBufferManager C) : Prop where
  networkLink : m'.networkLink = m.networkLink
  pendingGapFadein : m'.pendingGapFadein = m.pendingGapFadein
  missingCount : m'.flow.missingCount = m.flow.missingCount
  starvationCount : m'.flow.starvationCount = m.flow.starvationCount
  gapHoldCount : m'.flow.gapHoldCount = m.flow.gapHoldCount
  histBuf : m'.timescale.histBuf = m.timescale.histBuf
  flushed : ∃ splices, m'.emissions = m.emissions ++ splices ∧ ∀ e ∈ splices, e.source = .flush

theorem Settled.trans {m₁ m₂ m₃ : JitterBufferManager C} (h : m₁.Settled m₂)
    (h' : m₂.Settled m₃) : m₁.Settled m₃ := by
  obtain ⟨splices, heq, hflush⟩ := h.flushed
  obtain ⟨splices', heq', hflush'⟩ := h'.flushed
  exact
    { networkLink := h'.networkLink.trans h.networkLink
      pendingGapFadein := h'.pendingGapFadein.trans h.pendingGapFadein
      missingCount := h'.missingCount.trans h.missingCount
      starvationCount := h'.starvationCount.trans h.starvationCount
      gapHoldCount := h'.gapHoldCount.trans h.gapHoldCount
      histBuf := h'.histBuf.trans h.histBuf
      flushed := ⟨splices ++ splices', by rw [heq', heq, List.append_assoc], fun e he =>
        (List.mem_append.mp he).elim (hflush e) (hflush' e)⟩ }

theorem Keeps.settled {m m' : JitterBufferManager C} (h : m.Keeps m') : m.Settled m' :=
  ⟨h.networkLink, h.pendingGapFadein, h.missingCount, h.starvationCount, h.gapHoldCount,
    by rw [h.timescale], [], by rw [h.emissions, List.append_nil], by simp⟩

theorem SettleStep.settled {m m' : JitterBufferManager C} (h : SettleStep m m') :
    m.Settled m' := by
  cases h with
  | keep h => exact h.settled
  | flush flushTo =>
    obtain ⟨_, _, _, _, splices, heq, hhist, hflush⟩ := m.flushWithCrossfade_eq flushTo
    rw [heq]
    exact ⟨rfl, rfl, rfl, rfl, rfl, hhist, splices, rfl, hflush⟩

theorem Settles.settled {m m' : JitterBufferManager C} (h : m.Settles m') : m.Settled m' :=
  h.preserves (fun _ _ hstep hm => hm.trans hstep.settled)
    ⟨rfl, rfl, rfl, rfl, rfl, rfl, [], (List.append_nil _).symm, by simp⟩

/-- Settling the depth keeps the buffer sound and moves the playhead on. -/
theorem Settles.sound {m m' : JitterBufferManager C} (hsettle : m.Settles m')
    (h : m.buffer.Sound Q) : m'.buffer.Sound Q ∧ m.buffer.Onwards m'.buffer := by
  refine hsettle.preserves (P := fun a => a.buffer.Sound Q ∧ m.buffer.Onwards a.buffer) ?_
    ⟨h, .refl h.wellFormed⟩
  rintro a b hstep ⟨hs, honwards⟩
  cases hstep with
  | keep hkeep =>
    rw [hkeep.buffer]
    exact ⟨hs, honwards⟩
  | flush flushTo =>
    obtain ⟨h1, h2, -⟩ := flushWithCrossfade_sound hs flushTo
    exact ⟨h1, honwards.trans h2⟩

end Settle

section Gap

@[simp] theorem noteSkip_buffer (skipped : ℕ) : (m.noteSkip skipped).buffer = m.buffer := rfl

@[simp] theorem skipGapTo_buffer (lo : UInt64) :
    (m.skipGapTo lo).buffer = m.buffer.fastForward lo := by
  unfold skipGapTo
  dsimp only
  split <;> rfl

/-- Packets are stored, but not the one at the playhead. -/
def AtGap (m : JitterBufferManager C) : Prop :=
  0 < m.buffer.occupiedCount ∧ m.buffer.hasNext = false

/-- One more callback spent at a gap, with the lowest stored number looked up. -/
def waited (m : JitterBufferManager C) : JitterBufferManager C :=
  { m with
    buffer := m.buffer.lowestAvailableSeq.1
    flow := { m.flow with gapHoldCount := m.flow.gapHoldCount + 1 } }

/-- The callback skips to `lo`: it is far ahead, or the tolerance is spent. -/
def SkipsTo (m : JitterBufferManager C) (ctx : FrameContext) (lo : UInt64) : Prop :=
  20 < (absDiff lo m.buffer.nextPlaySeq).toNat ∨
    reorderToleranceFor m.networkLink ctx.isNoBuffer ≤ m.flow.gapHoldCount + 1

/-- Away from a gap nothing happens; at a gap the callback waits while the tolerance
lasts, or skips to the answer of the lookup. -/
theorem tryFastForwardOverGap_cases (h : m.buffer.Sound Q) (ctx : FrameContext) :
    (¬m.AtGap ∧ m.tryFastForwardOverGap ctx = m) ∨
      (m.AtGap ∧ ∃ lo, m.buffer.lowestAvailableSeq.2 = some lo ∧
        (¬m.SkipsTo ctx lo ∧ m.tryFastForwardOverGap ctx = m.waited ∨
          m.SkipsTo ctx lo ∧ m.tryFastForwardOverGap ctx = m.waited.skipGapTo lo)) := by
  by_cases hgap : m.AtGap
  · have hgap' : 0 < m.buffer.occupiedCount ∧ m.buffer.hasNext = false := hgap
    have hne : m.buffer.lowestAvailableSeq.2 ≠ none := by
      intro hnone
      have hempty := h.lowestAvailableSeq_eq_none.mp hnone
      have hpos := hgap.1
      rw [h.wellFormed.occupiedCount_eq, hempty, Finset.card_empty] at hpos
      omega
    obtain ⟨lo, hlo⟩ := Option.ne_none_iff_exists'.mp hne
    obtain ⟨buffer, hlow⟩ : ∃ buffer, m.buffer.lowestAvailableSeq = (buffer, some lo) :=
      ⟨_, Prod.ext rfl hlo⟩
    have hnext : buffer.nextPlaySeq = m.buffer.nextPlaySeq := by
      have := m.buffer.lowestAvailableSeq_nextPlaySeq
      rwa [hlow] at this
    have hwaited : m.waited = { m with
        buffer, flow := { m.flow with gapHoldCount := m.flow.gapHoldCount + 1 } } := by
      rw [waited, hlow]
    refine Or.inr ⟨hgap, lo, hlo, ?_⟩
    rw [hwaited]
    have hiff : m.SkipsTo ctx lo ↔ 20 < (absDiff lo buffer.nextPlaySeq).toNat ∨
        reorderToleranceFor m.networkLink ctx.isNoBuffer ≤ m.flow.gapHoldCount + 1 := by
      rw [hnext]
      exact Iff.rfl
    by_cases hskip : m.SkipsTo ctx lo
    · refine Or.inr ⟨hskip, ?_⟩
      simp only [tryFastForwardOverGap, if_pos hgap', hlow, if_pos (hiff.mp hskip)]
    · refine Or.inl ⟨hskip, ?_⟩
      simp only [tryFastForwardOverGap, if_pos hgap', hlow, if_neg (mt hiff.mpr hskip)]
  · exact Or.inl ⟨hgap, if_neg hgap⟩

/-- A gap skip leaves alone what it does not name; the samples in the decode buffer
stay. -/
theorem tryFastForwardOverGap_eq (m : JitterBufferManager C) (ctx : FrameContext) :
    ∃ buffer flow logWindow pendingGapFadein decoder, m.tryFastForwardOverGap ctx =
        { m with buffer, flow, logWindow, pendingGapFadein, decoder } ∧
      decoder.decodeBuf = m.decoder.decodeBuf ∧ decoder.frame = m.decoder.frame ∧
      flow.missingCount = m.flow.missingCount ∧ flow.starvationCount = m.flow.starvationCount ∧
      flow.isPrebuffering = m.flow.isPrebuffering := by
  unfold tryFastForwardOverGap
  split
  · dsimp only
    split
    · split
      · unfold skipGapTo
        dsimp only
        split <;> exact ⟨_, _, _, _, _, rfl, rfl, rfl, rfl, rfl, rfl⟩
      · exact ⟨_, _, _, _, _, rfl, rfl, rfl, rfl, rfl, rfl⟩
    · split <;> exact ⟨_, _, _, _, _, rfl, rfl, rfl, rfl, rfl, rfl⟩
  · exact ⟨_, _, _, _, _, rfl, rfl, rfl, rfl, rfl, rfl⟩

/-- A gap skip keeps the buffer sound and moves the playhead on. -/
theorem tryFastForwardOverGap_spec (h : m.buffer.Sound Q) (ctx : FrameContext) :
    (m.tryFastForwardOverGap ctx).buffer.Sound Q ∧
      m.buffer.Onwards (m.tryFastForwardOverGap ctx).buffer := by
  rcases tryFastForwardOverGap_cases h ctx with
    ⟨-, heq⟩ | ⟨-, lo, hlo, ⟨-, heq⟩ | ⟨-, heq⟩⟩
  · rw [heq]
    exact ⟨h, .refl h.wellFormed⟩
  · rw [heq]
    exact ⟨h.lowestAvailableSeq, h.lowestAvailableSeq_onwards⟩
  · have hmem : lo.toNat ∈ m.buffer.lowestAvailableSeq.1.stored := by
      rw [JitterBuffer.lowestAvailableSeq_stored]
      exact h.lowestAvailableSeq_mem hlo
    rw [heq, skipGapTo_buffer]
    exact ⟨h.lowestAvailableSeq.fastForward hmem,
      h.lowestAvailableSeq_onwards.trans (h.lowestAvailableSeq.fastForward_onwards hmem)⟩

end Gap

section Play

/-- The state and the context in which a callback looks at the gap, unless the hold
finishes it. -/
def gapPoint (m : JitterBufferManager C) (tick : Tick F) :
    Option (JitterBufferManager C × FrameContext) :=
  match (m.settleDepth tick).1.servePrebuffering (m.settleDepth tick).2.1 with
  | (_, true) => none
  | (m', false) =>
    some ((m'.applyStartupFlush (m.settleDepth tick).2.1).applyStaticTargetFlush
      (m.settleDepth tick).2.1, (m.settleDepth tick).2.1)

/-- The state and the context in which it decides between the next frame and its
absence. -/
def framePoint (m : JitterBufferManager C) (tick : Tick F) :
    Option (JitterBufferManager C × FrameContext) :=
  (m.gapPoint tick).map fun point => (point.1.tryFastForwardOverGap point.2, point.2)

/-- A callback that the hold does not finish plays or misses a frame at its frame point;
one that the hold finishes ends there. -/
theorem processNextFrame_cases (m : JitterBufferManager C) (tick : Tick F) :
    (m.framePoint tick = none ∧
        (m.settleDepth tick).1.flow.isPrebuffering = true ∧
        (m.settleDepth tick).1.buffer.occupiedCount <
          (m.settleDepth tick).1.unpauseThreshold (m.settleDepth tick).2.1 ∧
        (m.processNextFrame tick).1 = (m.settleDepth tick).1.hold) ∨
      ∃ p ctx, m.framePoint tick = some (p, ctx) ∧
        (m.processNextFrame tick).1 = p.playOrMiss ctx := by
  unfold framePoint gapPoint processNextFrame
  dsimp only
  cases hserve : (m.settleDepth tick).1.servePrebuffering (m.settleDepth tick).2.1 with
  | mk m' finished =>
    cases finished with
    | true =>
      refine Or.inl ⟨rfl, ?_⟩
      unfold servePrebuffering at hserve
      split at hserve
      · rename_i hprebuffering
        split at hserve
        · simp at hserve
        · rename_i hbelow
          simp only [Prod.mk.injEq, and_true] at hserve
          exact ⟨hprebuffering, by omega, hserve.symm⟩
      · simp at hserve
    | false => exact Or.inr ⟨_, _, rfl, rfl⟩

/-- The hold released the playhead, or was not in force. -/
theorem servePrebuffering_settles {m' : JitterBufferManager C}
    (hserve : m.servePrebuffering ctx = (m', false)) : m.Settles m' := by
  unfold servePrebuffering at hserve
  split at hserve
  · split at hserve
    · simp only [Prod.mk.injEq, and_true] at hserve
      exact hserve ▸ m.release_settles ctx
    · simp at hserve
  · simp only [Prod.mk.injEq, and_true] at hserve
    exact hserve ▸ .refl

/-- The gap is reached by settling the depth. -/
theorem gapPoint_cases {tick : Tick F} {g : JitterBufferManager C}
    (hg : m.gapPoint tick = some (g, ctx)) :
    ctx = (m.settleDepth tick).2.1 ∧ (m.settleDepth tick).1.Settles g := by
  unfold gapPoint at hg
  split at hg
  · simp at hg
  · rename_i m' hserve
    simp only [Option.some.injEq, Prod.mk.injEq] at hg
    obtain ⟨rfl, rfl⟩ := hg
    exact ⟨rfl, (servePrebuffering_settles hserve).trans
      ((m'.applyStartupFlush_settles _).trans (applyStaticTargetFlush_settles _ _))⟩

/-- The frame is reached by one look at the gap. -/
theorem framePoint_cases {tick : Tick F} {p : JitterBufferManager C}
    (hp : m.framePoint tick = some (p, ctx)) :
    ∃ g, m.gapPoint tick = some (g, ctx) ∧ p = g.tryFastForwardOverGap ctx := by
  obtain ⟨⟨g, ctx'⟩, hg, heq⟩ := Option.map_eq_some_iff.mp hp
  obtain ⟨rfl, rfl⟩ := Prod.mk.inj heq
  exact ⟨g, hg, rfl⟩

/-- Settling the depth, the target included. -/
theorem settleDepth_settled (m : JitterBufferManager C) (tick : Tick F) :
    m.Settled (m.settleDepth tick).1 := by
  obtain ⟨m', hbefore, hafter, -⟩ := m.settleDepth_cases tick
  exact hbefore.settled.trans ((m'.resolveTarget_keeps tick).settled.trans hafter.settled)

theorem settleDepth_sound (h : m.buffer.Sound Q) (tick : Tick F) :
    (m.settleDepth tick).1.buffer.Sound Q ∧ m.buffer.Onwards (m.settleDepth tick).1.buffer := by
  obtain ⟨m', hbefore, hafter, -⟩ := m.settleDepth_cases tick
  obtain ⟨h1, hon⟩ := hbefore.sound h
  rw [← (m'.resolveTarget_keeps tick).buffer] at h1 hon
  obtain ⟨h2, hon'⟩ := hafter.sound h1
  exact ⟨h2, hon.trans hon'⟩

/-- What a callback keeps up to its frame point. -/
structure Approached (m p : JitterBufferManager C) : Prop where
  networkLink : p.networkLink = m.networkLink
  missingCount : p.flow.missingCount = m.flow.missingCount
  starvationCount : p.flow.starvationCount = m.flow.starvationCount
  histBuf : p.timescale.histBuf = m.timescale.histBuf
  flushed : ∃ splices, p.emissions = m.emissions ++ splices ∧ ∀ e ∈ splices, e.source = .flush

theorem framePoint_approached {tick : Tick F} {p : JitterBufferManager C}
    (hp : m.framePoint tick = some (p, ctx)) : m.Approached p := by
  obtain ⟨m', hg, rfl⟩ := framePoint_cases hp
  have hsettled := (m.settleDepth_settled tick).trans (gapPoint_cases hg).2.settled
  obtain ⟨_, _, _, _, _, heq, -, -, hmissing, hstarved, -⟩ := m'.tryFastForwardOverGap_eq ctx
  rw [heq]
  exact ⟨hsettled.networkLink, hmissing.trans hsettled.missingCount,
    hstarved.trans hsettled.starvationCount, hsettled.histBuf, hsettled.flushed⟩

theorem framePoint_sound (h : m.buffer.Sound Q) {tick : Tick F} {p : JitterBufferManager C}
    (hp : m.framePoint tick = some (p, ctx)) :
    p.buffer.Sound Q ∧ m.buffer.Onwards p.buffer := by
  obtain ⟨m', hg, rfl⟩ := framePoint_cases hp
  obtain ⟨h1, hon⟩ := settleDepth_sound h tick
  obtain ⟨h2, hon'⟩ := (gapPoint_cases hg).2.sound h1
  obtain ⟨h3, hon''⟩ := tryFastForwardOverGap_spec h2 ctx
  exact ⟨h3, hon.trans (hon'.trans hon'')⟩

end Play

end JitterBufferManager

end Gemacast.Jitter
