import Gemacast.Jitter.Frames

/-!
# Where packets go

Every packet taken out of the buffer is counted: as played, staged, shed, discarded
by a flush or rejected as stale. What a callback holds on its books, the packets
counted out in the current log window and those still stored, changes only when the
depth line closes the window and when a gap skip passes a stored packet.
-/

set_option linter.unusedSectionVars false

namespace Gemacast.Jitter

open Gemacast.Core

namespace JitterBufferManager

variable {F : Type} [Binary32 F] [FrameMark F] {C : Codec F} {m m' : JitterBufferManager C}
  {ctx : FrameContext} {Q : RawPacket → Prop}

/-- Packets counted out in the current log window. -/
def counted (m : JitterBufferManager C) : ℕ := m.logWindow.framesPlayed + m.logWindow.tally.sinks

/-- Packets on the books: counted out in the current log window, or still stored. -/
def onBooks (m : JitterBufferManager C) : ℕ := m.counted + m.buffer.occupiedCount

/-- From `m` to `m'` the playhead moved on and every packet it passed was counted. -/
structure Spends (Q : RawPacket → Prop) (m m' : JitterBufferManager C) : Prop where
  sound : m'.buffer.Sound Q
  onwards : m.buffer.Onwards m'.buffer
  books : m'.onBooks = m.onBooks
  arrivals : m'.stats.arrivalCount = m.stats.arrivalCount

namespace Spends

theorem trans {m₁ m₂ m₃ : JitterBufferManager C} (h : m₁.Spends Q m₂) (h' : m₂.Spends Q m₃) :
    m₁.Spends Q m₃ :=
  ⟨h'.sound, h.onwards.trans h'.onwards, h'.books.trans h.books,
    h'.arrivals.trans h.arrivals⟩

/-- A step that touches neither the buffer nor the counts. -/
theorem of_buffer_eq (h : m.buffer.Sound Q) (hbuffer : m'.buffer = m.buffer)
    (hcounted : m'.counted = m.counted)
    (harrivals : m'.stats.arrivalCount = m.stats.arrivalCount) : m.Spends Q m' := by
  refine ⟨hbuffer ▸ h, by rw [hbuffer]; exact .refl h.wellFormed, ?_, harrivals⟩
  rw [onBooks, onBooks, hbuffer, hcounted]

theorem refl (h : m.buffer.Sound Q) : m.Spends Q m := .of_buffer_eq h rfl rfl rfl

/-- A pop of the next packet that counts it. -/
theorem of_popNext (h : m.buffer.Sound Q) (hnext : m.buffer.hasNext = true)
    (hbuffer : m'.buffer = m.buffer.popNext.1) (hcounted : m'.counted = m.counted + 1)
    (harrivals : m'.stats.arrivalCount = m.stats.arrivalCount) : m.Spends Q m' := by
  have hne : m.buffer.stored.Nonempty := ⟨_, h.wellFormed.hasNext_iff.mp hnext⟩
  have hocc := h.popNext_occupied
  rw [hnext, if_pos rfl] at hocc
  refine ⟨hbuffer ▸ h.popNext, by rw [hbuffer]; exact h.popNext_onwards hne, ?_, harrivals⟩
  rw [onBooks, onBooks, hbuffer, hcounted]
  omega

end Spends

/-- A change of the tally that counts no packet out touches no books. -/
theorem count_spends (h : m.buffer.Sound Q) {f : TimescaleTally → TimescaleTally}
    (hf : SinkFree f) : m.Spends Q (m.count f) :=
  .of_buffer_eq h rfl (congrArg (_ + ·) (hf _)) rfl

section Settle

/-- A flush counts what it removes. -/
theorem flushWithCrossfade_spends (h : m.buffer.Sound Q) (flushTo : ℕ) :
    m.Spends Q (m.flushWithCrossfade flushTo) := by
  obtain ⟨hsound, honwards, hocc⟩ := flushWithCrossfade_sound h flushTo
  obtain ⟨_, _, _, _, _, heq, -, -⟩ := m.flushWithCrossfade_eq flushTo
  refine ⟨hsound, honwards, ?_, by rw [heq]; rfl⟩
  have hcounted : (m.flushWithCrossfade flushTo).counted =
      m.counted + (m.buffer.occupiedCount - flushTo) := by
    rw [heq]
    simp only [counted, TimescaleTally.sinks, count]
    omega
  rw [onBooks, onBooks, hocc, hcounted]
  omega

theorem SettleStep.spends (hstep : SettleStep m m') (h : m.buffer.Sound Q) : m.Spends Q m' := by
  cases hstep with
  | keep hkeep hlog harrivals =>
    exact .of_buffer_eq h hkeep.buffer (by rw [counted, hlog, counted]) harrivals
  | flush flushTo => exact flushWithCrossfade_spends h flushTo

theorem Settles.spends (hsettle : m.Settles m') (h : m.buffer.Sound Q) : m.Spends Q m' :=
  hsettle.preserves (fun _ _ hstep hspends => hspends.trans (hstep.spends hspends.sound))
    (.refl h)

end Settle

section Play

/-- Shedding counts every packet it pops. -/
theorem shedLoop_spends (h : m.buffer.Sound Q) (highLimit n : ℕ) :
    m.Spends Q (m.shedLoop highLimit n) := by
  induction n generalizing m with
  | zero => exact .refl h
  | succ n ih =>
    unfold shedLoop
    split
    · rename_i hmore
      split
      · rename_i buffer extra hpop
        dsimp only
        have hone : m.Spends Q (count { capture { m with buffer } extra with
            flow := m.flow.adjustFilteredLevel (0.0 - 1.0) } fun tally =>
              { tally with shed := tally.shed + 1 }) := by
          refine .of_popNext h hmore.2 (congrArg Prod.fst hpop).symm ?_ rfl
          simp only [counted, TimescaleTally.sinks, count, capture]
          omega
        exact hone.trans (ih hone.sound)
      · exact .refl h
    · exact ih h

/-- Staging counts the packet it pops. -/
theorem stageWindow_spends (h : m.buffer.Sound Q) : m.Spends Q m.stageWindow := by
  unfold stageWindow
  dsimp only
  split
  · rename_i hmore
    split
    · rename_i buffer nextPkt hpop
      refine .of_popNext h hmore.1 (congrArg Prod.fst hpop).symm ?_ rfl
      simp only [counted, TimescaleTally.sinks, count, capture]
      omega
    · exact .of_buffer_eq h rfl rfl rfl
  · exact .of_buffer_eq h rfl rfl rfl

/-- The time-scaler counts every packet it takes. -/
theorem Scales.spends {answer : JitterBufferManager C × Bool} (hscales : m.Scales ctx answer)
    (h : m.buffer.Sound Q) : m.Spends Q answer.1 := by
  cases hscales with
  | shed highLimit =>
    have hshed := shedLoop_spends (m := m.emit .shed m.decoder.decoded) h highLimit
      (min (max ((Binary32.toNat m.flow.filteredBufferLevel - highLimit) / 2) 1) 4)
    exact ⟨hshed.sound, hshed.onwards, hshed.books, hshed.arrivals⟩
  | drained isFast rms =>
    have hstage := stageWindow_spends h
    refine hstage.trans ?_
    unfold drain
    dsimp only
    split
    · split <;> exact .of_buffer_eq hstage.sound rfl rfl rfl
    · exact .of_buffer_eq hstage.sound rfl rfl rfl
  | grown => exact .of_buffer_eq h rfl rfl rfl
  | stretched rms =>
    unfold stretch
    dsimp only
    split <;> exact .of_buffer_eq h rfl rfl rfl
  | left => exact .refl h

theorem playPrepared_spends (h : m.buffer.Sound Q) (ctx : FrameContext) :
    m.Spends Q (m.playPrepared ctx) := by
  obtain ⟨f, hf, hscales⟩ := m.runTimescale_cases ctx
  have hcount := count_spends h hf
  have hscaled := hcount.trans (hscales.spends hcount.sound)
  obtain ⟨_, _, heq⟩ := m.playPrepared_eq ctx
  rw [heq]
  exact hscaled.trans (.of_buffer_eq hscaled.sound rfl rfl rfl)

/-- Moving on never adds a packet. -/
theorem Spends.occupiedCount_le (hspends : m.Spends Q m') (h : m.buffer.Sound Q) :
    m'.buffer.occupiedCount ≤ m.buffer.occupiedCount := by
  rw [hspends.sound.wellFormed.occupiedCount_eq, h.wellFormed.occupiedCount_eq]
  exact Finset.card_le_card hspends.onwards.subset

/-- What playing leaves alone: the lifecycle but for the filtered level, and the link. -/
theorem playPrepared_keeps (m : JitterBufferManager C) (ctx : FrameContext) :
    (m.playPrepared ctx).flow.missingCount = m.flow.missingCount ∧
      (m.playPrepared ctx).flow.gapHoldCount = m.flow.gapHoldCount ∧
      (m.playPrepared ctx).networkLink = m.networkLink := by
  obtain ⟨⟨_, _, _, _, _, _, _, _, hscaled⟩, -, -⟩ := m.runTimescale_scaled ctx
  obtain ⟨_, _, heq⟩ := m.playPrepared_eq ctx
  rw [heq, hscaled]
  exact ⟨rfl, rfl, rfl⟩

theorem maskSplice_keeps (m : JitterBufferManager C) :
    m.maskSplice.buffer = m.buffer ∧ m.maskSplice.logWindow = m.logWindow ∧
      m.maskSplice.stats = m.stats ∧ m.maskSplice.flow = m.flow ∧
      m.maskSplice.networkLink = m.networkLink := by
  unfold maskSplice
  dsimp only
  split <;> exact ⟨rfl, rfl, rfl, rfl, rfl⟩

/-- A real frame is counted as played, whatever the time-scaler takes beside it; the
buffer loses at least its packet. -/
theorem playNextFrame_spends (h : m.buffer.Sound Q) (hnext : m.buffer.hasNext = true)
    (ctx : FrameContext) :
    m.Spends Q (m.playNextFrame ctx) ∧
      (m.playNextFrame ctx).buffer.occupiedCount < m.buffer.occupiedCount := by
  obtain ⟨pkt, control, flow, captured, -, -, -, -, hcaptured, -, hplay⟩ :=
    frames_of_hasNext ctx hnext
  obtain ⟨hbuffer, hlog, hstats, -, -⟩ := captured.maskSplice_keeps
  have hpopped : captured.buffer = m.buffer.popNext.1 := by
    rw [hcaptured]
    rfl
  have hmask : m.Spends Q captured.maskSplice := by
    refine .of_popNext h hnext (hbuffer.trans hpopped) ?_ (by rw [hstats, hcaptured]; rfl)
    rw [counted, hlog, hcaptured]
    simp only [counted, decodeNext, capture]
    omega
  have hprepared := playPrepared_spends hmask.sound ctx
  rw [hplay]
  refine ⟨hmask.trans hprepared, ?_⟩
  have hle := hprepared.occupiedCount_le hmask.sound
  have hone := h.popNext_occupied
  rw [hnext, if_pos rfl] at hone
  rw [hbuffer, hpopped] at hle
  omega

/-- A real frame clears the counters of missing frames. -/
theorem playNextFrame_keeps (hnext : m.buffer.hasNext = true) (ctx : FrameContext) :
    (m.playNextFrame ctx).flow.missingCount = 0 ∧ (m.playNextFrame ctx).flow.gapHoldCount = 0 ∧
      (m.playNextFrame ctx).networkLink = m.networkLink := by
  obtain ⟨pkt, control, flow, captured, -, hmissing, hheld, -, hcaptured, -, hplay⟩ :=
    frames_of_hasNext ctx hnext
  obtain ⟨-, -, -, hflow, hlink⟩ := captured.maskSplice_keeps
  obtain ⟨h1, h2, h3⟩ := captured.maskSplice.playPrepared_keeps ctx
  have hcleared : captured.flow = flow ∧ captured.networkLink = m.networkLink := by
    rw [hcaptured]
    exact ⟨rfl, rfl⟩
  rw [hplay]
  rw [hflow, hcleared.1] at h1 h2
  rw [hlink, hcleared.2] at h3
  exact ⟨h1.trans hmissing, h2.trans hheld, h3⟩

end Play

section Conceal

/-- Concealing touches neither the buffer nor the packet counts. -/
theorem generatePlc_keeps (m : JitterBufferManager C) :
    m.generatePlc.buffer = m.buffer ∧ m.generatePlc.counted = m.counted ∧
      m.generatePlc.stats = m.stats ∧ m.generatePlc.networkLink = m.networkLink ∧
      m.generatePlc.flow.missingCount = m.flow.missingCount ∧
      m.generatePlc.flow.gapHoldCount = m.flow.gapHoldCount ∧
      m.generatePlc.flow.isPrebuffering = m.flow.isPrebuffering := by
  obtain ⟨decoder, timescale, tally, source, heq, hsinks, -⟩ := m.generatePlc_eq
  rw [heq]
  exact ⟨rfl, congrArg (m.logWindow.framesPlayed + ·) hsinks, rfl, rfl, rfl, rfl, rfl⟩

theorem generatePlc_spends (h : m.buffer.Sound Q) : m.Spends Q m.generatePlc := by
  obtain ⟨hbuffer, hcounted, hstats, -⟩ := m.generatePlc_keeps
  exact .of_buffer_eq h hbuffer hcounted (by rw [hstats])

end Conceal

section Process

/-- A gap skip counts nothing: the books lose what it passes. -/
theorem tryFastForwardOverGap_books (h : m.buffer.Sound Q) (ctx : FrameContext) :
    (m.tryFastForwardOverGap ctx).onBooks +
        (m.buffer.occupiedCount - (m.tryFastForwardOverGap ctx).buffer.occupiedCount) =
      m.onBooks ∧
      (m.tryFastForwardOverGap ctx).stats.arrivalCount = m.stats.arrivalCount := by
  obtain ⟨hsound, honwards⟩ := tryFastForwardOverGap_spec h ctx
  have hle : (m.tryFastForwardOverGap ctx).buffer.occupiedCount ≤ m.buffer.occupiedCount := by
    rw [hsound.wellFormed.occupiedCount_eq, h.wellFormed.occupiedCount_eq]
    exact Finset.card_le_card honwards.subset
  have hcounted : (m.tryFastForwardOverGap ctx).counted = m.counted ∧
      (m.tryFastForwardOverGap ctx).stats = m.stats := by
    rcases tryFastForwardOverGap_cases h ctx with ⟨-, heq⟩ | ⟨-, lo, -, ⟨-, heq⟩ | ⟨-, heq⟩⟩
    · rw [heq]
      exact ⟨rfl, rfl⟩
    · rw [heq]
      exact ⟨rfl, rfl⟩
    · rw [heq]
      unfold skipGapTo
      dsimp only
      split <;> exact ⟨rfl, rfl⟩
  rw [onBooks, onBooks, hcounted.1, hcounted.2]
  exact ⟨by omega, rfl⟩

/-- Holding keeps the buffer sound; short of a reset it touches no books. -/
theorem hold_sound (h : m.buffer.Sound Q) : m.hold.buffer.Sound Q := by
  obtain ⟨-, -, flow, heq⟩ | ⟨flow, heq, -⟩ := m.hold_cases
  · rw [heq]
    exact JitterBuffer.Sound.reset (b := m.buffer)
  · rw [heq]
    exact (generatePlc_spends (m := { m with flow }) h).sound

theorem handleMissingFrame_sound (h : m.buffer.Sound Q) (ctx : FrameContext) :
    (m.handleMissingFrame ctx).buffer.Sound Q := by
  obtain ⟨-, flow, heq⟩ | ⟨-, flow, heq, -⟩ := m.handleMissingFrame_cases ctx
  · rw [heq]
    exact JitterBuffer.Sound.reset (b := m.buffer)
  · rw [heq]
    exact (generatePlc_spends (m := { m with flow }) h).sound

theorem processNextFrame_sound (h : m.buffer.Sound Q) (tick : Tick F) :
    (m.processNextFrame tick).1.buffer.Sound Q := by
  rcases m.processNextFrame_cases tick with ⟨-, -, -, heq⟩ | ⟨p, ctx, hp, heq⟩
  · rw [heq]
    exact hold_sound (settleDepth_sound h tick).1
  · obtain ⟨hs, -⟩ := framePoint_sound h hp
    rw [heq, playOrMiss]
    split
    · rename_i hnext
      exact (playNextFrame_spends hs hnext ctx).1.sound
    · exact handleMissingFrame_sound hs ctx

/-- The packets a step takes satisfy `Q`, and their numbers leave room for the capacity
in a `u64`. -/
def Input.Admits (Q : RawPacket → Prop) : Input F → Prop
  | .ingest pkts => ∀ pkt ∈ pkts, pkt.seq + bufferCapacity < 2 ^ 64 ∧ Q pkt
  | _ => True

theorem ingestPacket_sound (h : m.buffer.Sound Q) {pkt : RawPacket}
    (hroom : pkt.seq + bufferCapacity < 2 ^ 64) (hQ : Q pkt) :
    (m.ingestPacket pkt).buffer.Sound Q := by
  have hinsert := h.insert hroom hQ
  unfold ingestPacket
  split
  · exact h
  · split <;> rename_i heq <;> rw [heq] at hinsert <;> exact hinsert

theorem ingestPackets_sound (h : m.buffer.Sound Q) {pkts : List RawPacket}
    (hpkts : ∀ pkt ∈ pkts, pkt.seq + bufferCapacity < 2 ^ 64 ∧ Q pkt) :
    (m.ingestPackets pkts).buffer.Sound Q := by
  induction pkts generalizing m with
  | nil => exact h
  | cons pkt pkts ih =>
    obtain ⟨hroom, hQ⟩ := hpkts pkt List.mem_cons_self
    exact ih (ingestPacket_sound h hroom hQ) fun q hq => hpkts q (List.mem_cons_of_mem _ hq)

/-- Every step keeps the buffer sound. -/
theorem step_sound (h : m.buffer.Sound Q) {i : Input F} (hi : i.Admits Q) :
    (m.step i).1.buffer.Sound Q := by
  cases i with
  | ingest pkts => exact ingestPackets_sound h hi
  | callback tick =>
    unfold step
    dsimp only
    split
    · exact processNextFrame_sound (m := { m with emissions := [] }) h tick
    · exact h
  | consume take => exact h
  | reset => exact JitterBuffer.Sound.reset (b := m.buffer)

end Process

end JitterBufferManager

end Gemacast.Jitter
