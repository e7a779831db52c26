import Gemacast.Jitter.Phases

/-!
# The frame of a callback

What a callback does once it has reached its frame point: the counters a real frame
clears, the packet it pops and decodes, and the ways in which the time-scaler emits
it. Every claim about what is played starts from these cases.
-/

set_option linter.unusedSectionVars false

namespace Gemacast.Jitter

open Gemacast.Core

/-- When the next packet is present a pop answers it. -/
theorem JitterBuffer.exists_popNext {b : JitterBuffer} (h : b.hasNext = true) :
    ∃ pkt, b.popNext.2 = some pkt := by
  unfold hasNext at h
  rw [Bool.and_eq_true, Option.any_eq_true] at h
  obtain ⟨hi, pkt, hslot, hseq⟩ := h
  refine ⟨pkt, ?_⟩
  simp only [popNext, hi, if_true, hslot, if_pos (of_decide_eq_true hseq)]

@[simp] theorem TimeScaler.expandInner_histBuf {F : Type} [Binary32 F] (ts : TimeScaler F)
    (pcm : List F) (rms : F) (conceal : Bool) :
    (ts.expandInner pcm rms conceal).1.histBuf = ts.histBuf := by
  unfold expandInner
  dsimp only
  split_ifs <;> rfl

/-- Pitch repetition succeeds only on a history long enough for a search. -/
theorem TimeScaler.concealFrame_isSome {F : Type} [Binary32 F] {ts ts' : TimeScaler F}
    {out : DecodedFrame F}
    (h : ts.concealFrame = (ts', some out)) :
    minSearchFrames ≤ ts.histBuf.length / opusChannels := by
  unfold TimeScaler.concealFrame at h
  dsimp only at h
  split at h
  · exact absurd (Prod.mk.inj h).2 (by simp)
  · omega

/-- Packets that left the buffer through a sink the tally counts. -/
def TimescaleTally.sinks (tally : TimescaleTally) : ℕ :=
  tally.stagedPops + tally.shed + tally.flushDiscards + tally.staleRejects

namespace JitterBufferManager

variable {F : Type} [Binary32 F] [FrameMark F] {C : Codec F} {m : JitterBufferManager C}
  {ctx : FrameContext} {Q : RawPacket → Prop}

section Outage

/-- Recording an outcome touches the lifecycle only, and there neither a counter of
missing frames nor the filtered level. -/
theorem observeDelivery_eq (m : JitterBufferManager C) (concealed : Bool) :
    ∃ flow, m.observeDelivery concealed = { m with flow } ∧
      flow.missingCount = m.flow.missingCount ∧ flow.starvationCount = m.flow.starvationCount ∧
      flow.gapHoldCount = m.flow.gapHoldCount := by
  have hclose : ∀ flow : PlaybackFlow F,
      flow.closeStarvationEpisode.missingCount = flow.missingCount ∧
        flow.closeStarvationEpisode.starvationCount = flow.starvationCount ∧
        flow.closeStarvationEpisode.gapHoldCount = flow.gapHoldCount := by
    intro flow
    unfold PlaybackFlow.closeStarvationEpisode
    split <;> exact ⟨rfl, rfl, rfl⟩
  have hrecord : ∀ flow : PlaybackFlow F,
      (flow.observeDelivery concealed).1.missingCount = flow.missingCount ∧
        (flow.observeDelivery concealed).1.starvationCount = flow.starvationCount ∧
        (flow.observeDelivery concealed).1.gapHoldCount = flow.gapHoldCount := by
    intro flow
    unfold PlaybackFlow.observeDelivery
    dsimp only
    split <;> exact ⟨rfl, rfl, rfl⟩
  unfold observeDelivery
  dsimp only
  generalize hopen : (if concealed = false ∧ m.minDepthFrames < m.buffer.occupiedCount then
    m.flow.closeStarvationEpisode else m.flow) = flow
  have hflow : flow.missingCount = m.flow.missingCount ∧
      flow.starvationCount = m.flow.starvationCount ∧
      flow.gapHoldCount = m.flow.gapHoldCount := by
    rw [← hopen]
    split
    · exact hclose m.flow
    · exact ⟨rfl, rfl, rfl⟩
  split
  · exact ⟨_, rfl, hflow⟩
  · obtain ⟨h1, h2, h3⟩ := hrecord flow
    split <;> rename_i hwindow <;> rw [hwindow] at h1 h2 h3 <;>
      exact ⟨_, rfl, h1.trans hflow.1, h2.trans hflow.2.1, h3.trans hflow.2.2⟩

/-- Leaving a starvation touches the controller and the lifecycle, and clears the count. -/
theorem leaveStarvation_eq (m : JitterBufferManager C) (ctx : FrameContext) :
    ∃ control flow, m.leaveStarvation ctx = { m with control, flow } ∧
      flow.missingCount = m.flow.missingCount ∧ flow.gapHoldCount = m.flow.gapHoldCount ∧
      flow.starvationCount = 0 := by
  unfold leaveStarvation
  split
  · dsimp only
    split <;> exact ⟨_, _, rfl, rfl, rfl, rfl⟩
  · rename_i hcount
    exact ⟨_, _, rfl, rfl, rfl, Nat.eq_zero_of_not_pos hcount⟩

/-- A real frame clears the counters of missing frames before it is decoded. -/
theorem endOutage_eq (m : JitterBufferManager C) (ctx : FrameContext) :
    ∃ control flow, m.endOutage ctx = { m with control, flow } ∧
      flow.missingCount = 0 ∧ flow.gapHoldCount = 0 ∧ flow.starvationCount = 0 := by
  obtain ⟨flow, hobserve, hmissing, -, hheld⟩ := observeDelivery_eq
    { m with flow := { m.flow with gapHoldCount := 0, missingCount := 0, concealRun := 0 } } false
  obtain ⟨control, flow', hleave, hmissing', hheld', hstarved⟩ :=
    leaveStarvation_eq { m with flow } ctx
  refine ⟨control, flow', ?_, hmissing'.trans hmissing, hheld'.trans hheld, hstarved⟩
  unfold endOutage
  dsimp only
  rw [hobserve]
  exact hleave

/-- Counting a starved callback touches the lifecycle only. -/
theorem starve_eq (m : JitterBufferManager C) (ctx : FrameContext) :
    ∃ flow, m.starve ctx = { m with flow } ∧ flow.missingCount = m.flow.missingCount := by
  unfold starve
  dsimp only
  split <;> exact ⟨_, rfl, rfl⟩

end Outage

/-- One executed step of the player thread. -/
abbrev PlayerEvent (C : Codec F) := Event (JitterBufferManager C) (Input F) (Option DepthLine)

section Play

/-- The clock and the configuration of a step that refills an empty playback buffer. -/
def refill (m : JitterBufferManager C) : Input F → Option (Tick F)
  | .callback tick => if m.playbackBuf.isEmpty then some tick else none
  | _ => none

/-- The state and the context in which a step plays a real frame. -/
def playPoint (m : JitterBufferManager C) (i : Input F) :
    Option (JitterBufferManager C × FrameContext) :=
  (m.refill i).bind fun tick =>
    (framePoint { m with emissions := [] } tick).filter fun p => p.1.buffer.hasNext

/-- Taking packets touches the statistics, the buffer, the decoder and the log only; the
samples in the decode buffer stay. -/
theorem ingestPackets_eq (m : JitterBufferManager C) (pkts : List RawPacket) :
    ∃ stats buffer decoder logWindow, m.ingestPackets pkts =
        { m with stats, buffer, decoder, logWindow } ∧
      decoder.decodeBuf = m.decoder.decodeBuf ∧ decoder.frame = m.decoder.frame := by
  induction pkts generalizing m with
  | nil => exact ⟨_, _, _, _, rfl, rfl, rfl⟩
  | cons pkt pkts ih =>
    have hone : ∃ stats buffer decoder logWindow, m.ingestPacket pkt =
          { m with stats, buffer, decoder, logWindow } ∧
        decoder.decodeBuf = m.decoder.decodeBuf ∧ decoder.frame = m.decoder.frame := by
      unfold ingestPacket
      split
      · exact ⟨_, _, _, _, rfl, rfl, rfl⟩
      · split <;> exact ⟨_, _, _, _, rfl, rfl, rfl⟩
    obtain ⟨stats, buffer, decoder, logWindow, heq, hbuf, hframe⟩ := hone
    obtain ⟨stats', buffer', decoder', logWindow', heq', hbuf', hframe'⟩ :=
      ih { m with stats, buffer, decoder, logWindow }
    refine ⟨stats', buffer', decoder', logWindow', ?_, hbuf'.trans hbuf, hframe'.trans hframe⟩
    change (m.ingestPacket pkt).ingestPackets pkts = _
    rw [heq]
    exact heq'

/-- The next packet decoded, before and after the mask of the splice. -/
def frames (p : JitterBufferManager C) (ctx : FrameContext) :
    Option (JitterBufferManager C × JitterBufferManager C) :=
  match (p.endOutage ctx).buffer.popNext with
  | (buffer, some pkt) =>
    some ({ p.endOutage ctx with buffer }.decodeNext ctx pkt,
      { p.endOutage ctx with buffer }.prepareFrame ctx pkt)
  | (_, none) => none

/-- A frame point with the next packet decodes and masks it, and the time-scaler plays
what the mask leaves. -/
theorem frames_of_hasNext (ctx : FrameContext) (h : m.buffer.hasNext = true) :
    ∃ pkt control flow captured,
      m.buffer.popNext.2 = some pkt ∧ flow.missingCount = 0 ∧ flow.gapHoldCount = 0 ∧
      flow.starvationCount = 0 ∧
      captured = decodeNext { m with buffer := m.buffer.popNext.1, control, flow } ctx pkt ∧
      m.frames ctx = some (captured, captured.maskSplice) ∧
      m.playNextFrame ctx = captured.maskSplice.playPrepared ctx := by
  obtain ⟨pkt, hpop⟩ := JitterBuffer.exists_popNext h
  obtain ⟨control, flow, heq, hmissing, hheld, hstarved⟩ := m.endOutage_eq ctx
  have hpair : m.buffer.popNext = (m.buffer.popNext.1, some pkt) := Prod.ext rfl hpop
  refine ⟨pkt, control, flow, _, hpop, hmissing, hheld, hstarved, rfl, ?_, ?_⟩
  · unfold frames
    rw [heq]
    change (match m.buffer.popNext with | (buffer, some pkt) => _ | (_, none) => _) = _
    rw [hpair]
    rfl
  · unfold playNextFrame
    rw [heq]
    change (match m.buffer.popNext with | (buffer, some pkt) => _ | (_, none) => _) = _
    rw [hpair]
    rfl

/-- Only a callback over an empty playback buffer refills. -/
theorem refill_eq_some {i : Input F} {tick : Tick F} (h : m.refill i = some tick) :
    i = .callback tick ∧ m.playbackBuf.isEmpty = true := by
  cases i with
  | ingest _ | consume _ | reset => nomatch h
  | callback tick' =>
    change (if m.playbackBuf.isEmpty = true then some tick' else none) = some tick at h
    split at h
    · rename_i hempty
      exact ⟨congrArg Input.callback (Option.some.inj h), hempty⟩
    · nomatch h

/-- A refill is one frame processed. -/
theorem step_of_refill {i : Input F} {tick : Tick F} (h : m.refill i = some tick) :
    m.step i = processNextFrame { m with emissions := [] } tick := by
  obtain ⟨rfl, hempty⟩ := refill_eq_some h
  exact if_pos hempty

/-- The play point of a refill is its frame point when the next packet is there. -/
theorem playPoint_of_refill {i : Input F} {tick : Tick F} (h : m.refill i = some tick) :
    m.playPoint i =
      (framePoint { m with emissions := [] } tick).filter fun p => p.1.buffer.hasNext := by
  unfold playPoint
  rw [h]
  rfl

/-- A step with a play point is a refill that ends in `playNextFrame`. -/
theorem step_of_playPoint {i : Input F} {p : JitterBufferManager C}
    (hp : m.playPoint i = some (p, ctx)) :
    p.buffer.hasNext = true ∧ (m.step i).1 = p.playNextFrame ctx ∧
      ∃ tick, m.refill i = some tick ∧
        framePoint { m with emissions := [] } tick = some (p, ctx) := by
  cases hrefill : m.refill i with
  | none =>
    unfold playPoint at hp
    rw [hrefill] at hp
    nomatch hp
  | some tick =>
    rw [playPoint_of_refill hrefill, Option.filter_eq_some_iff] at hp
    obtain ⟨hpoint, hnext⟩ := hp
    refine ⟨hnext, ?_, tick, rfl, hpoint⟩
    rcases processNextFrame_cases { m with emissions := [] } tick with
      ⟨hnone, -⟩ | ⟨p', ctx', hsome, heq⟩
    · nomatch hnone.symm.trans hpoint
    · obtain ⟨rfl, rfl⟩ := Prod.mk.inj (Option.some.inj (hsome.symm.trans hpoint))
      rw [step_of_refill hrefill, heq, playOrMiss, if_pos hnext]

end Play

section Emit

/-- What the time-scaler does with the frame in the decode buffer, and whether it
emitted it. -/
inductive Scales (m : JitterBufferManager C) (ctx : FrameContext) :
    JitterBufferManager C × Bool → Prop
  | shed (highLimit : ℕ) : m.Scales ctx (m.shedSilence ctx highLimit, true)
  | drained (isFast : Bool) (rms : F) : m.Scales ctx (m.drain ctx isFast rms, true)
  | grown : m.Scales ctx (m.growSilence, true)
  | stretched (rms : F) : m.Scales ctx (m.stretch rms)
  | left : m.Scales ctx (m, false)

/-- A change of the tally that counts no packet out. -/
def SinkFree (f : TimescaleTally → TimescaleTally) : Prop := ∀ tally, (f tally).sinks = tally.sinks

/-- Refusals apart, the time-scaler does one of these things. -/
theorem runTimescale_cases (m : JitterBufferManager C) (ctx : FrameContext) :
    ∃ f, SinkFree f ∧ (m.count f).Scales ctx (m.runTimescale ctx) := by
  have hnone : SinkFree id := fun _ => rfl
  have hrecovery : SinkFree fun tally =>
    { tally with declinedRecovery := tally.declinedRecovery + 1 } := fun _ => rfl
  have hcooldown : SinkFree fun tally =>
    { tally with declinedCooldown := tally.declinedCooldown + 1 } := fun _ => rfl
  unfold runTimescale
  dsimp only
  by_cases hdeclined : decide (Binary32.ofNat (TargetController.bufferLimits ctx.target).high ≤
      m.flow.filteredBufferLevel) = true ∧ m.flow.stretchAllowed ctx.now = false
  · rw [if_pos hdeclined]
    simp only [hdeclined.2, Bool.false_eq_true, false_and, if_false]
    split_ifs
    · exact ⟨_, hrecovery, .grown⟩
    · exact ⟨_, hrecovery, .left⟩
    · exact ⟨_, hrecovery, .left⟩
  · rw [if_neg hdeclined]
    split_ifs
    · exact ⟨id, hnone, .shed _⟩
    · exact ⟨id, hnone, .drained _ _⟩
    · exact ⟨_, hcooldown, .left⟩
    · exact ⟨id, hnone, .grown⟩
    · exact ⟨id, hnone, .stretched _⟩
    · exact ⟨id, hnone, .left⟩
    · exact ⟨id, hnone, .left⟩

/-- Shedding pops and decodes; it appends nothing. -/
theorem shedLoop_eq (m : JitterBufferManager C) (highLimit n : ℕ) :
    ∃ decoder buffer level logWindow, m.shedLoop highLimit n =
      { m with
        decoder, buffer, flow := { m.flow with filteredBufferLevel := level }, logWindow } := by
  induction n generalizing m with
  | zero => exact ⟨_, _, _, _, rfl⟩
  | succ n ih =>
    unfold shedLoop
    split
    · split
      · obtain ⟨_, _, _, _, heq⟩ := ih _
        exact ⟨_, _, _, _, heq⟩
      · exact ⟨_, _, _, _, rfl⟩
    · exact ih m

/-- Staging pops at most one packet; it appends nothing and keeps the history. -/
theorem stageWindow_eq (m : JitterBufferManager C) :
    ∃ decoder buffer timescale logWindow, m.stageWindow =
        { m with decoder, buffer, timescale, logWindow } ∧
      timescale.histBuf = m.timescale.histBuf ∧ timescale.wsolaBuf = m.timescale.wsolaBuf := by
  have hextend : ∀ (ts : TimeScaler F) (pcm : List F),
      (ts.windowExtend pcm).1.histBuf = ts.histBuf ∧
        (ts.windowExtend pcm).1.wsolaBuf = ts.wsolaBuf := by
    intro ts pcm
    unfold TimeScaler.windowExtend
    split <;> exact ⟨rfl, rfl⟩
  unfold stageWindow
  dsimp only
  split
  · split
    · obtain ⟨h1, h2⟩ := hextend (m.timescale.windowBegin m.decoder.decoded) _
      exact ⟨_, _, _, _, rfl, h1, h2⟩
    · exact ⟨_, _, _, _, rfl, rfl, rfl⟩
  · exact ⟨_, _, _, _, rfl, rfl, rfl⟩

/-- What the time-scaler leaves alone. When it emits the frame itself it appends once,
not verbatim; else it appends nothing and keeps the buffer, the frame and the history. -/
structure Scaled (m : JitterBufferManager C) (answer : JitterBufferManager C × Bool) : Prop where
  frame : ∃ decoder buffer playbackBuf timescale level cooldown logWindow emissions,
    answer.1 =
      { m with
        decoder, buffer, playbackBuf, timescale
        flow := { m.flow with filteredBufferLevel := level }
        timescaleCooldown := cooldown, logWindow, emissions }
  emitted : answer.2 = true → ∃ e : Emission F, answer.1.emissions = m.emissions ++ [e] ∧
    e.source ≠ .verbatim
  left : answer.2 = false → answer.1.emissions = m.emissions ∧ answer.1.buffer = m.buffer ∧
    answer.1.decoder = m.decoder ∧ answer.1.timescale.histBuf = m.timescale.histBuf

theorem shedSilence_scaled (m : JitterBufferManager C) (ctx : FrameContext) (highLimit : ℕ) :
    m.Scaled (m.shedSilence ctx highLimit, true) := by
  unfold shedSilence
  dsimp only
  obtain ⟨_, _, _, _, heq⟩ := (m.emit .shed m.decoder.decoded).shedLoop_eq highLimit
    (min (max ((Binary32.toNat m.flow.filteredBufferLevel - highLimit) / 2) 1) 4)
  rw [heq]
  exact ⟨⟨_, _, _, _, _, _, _, _, rfl⟩, fun _ => ⟨_, rfl, by simp⟩, by simp⟩

theorem drain_scaled (m : JitterBufferManager C) (ctx : FrameContext) (isFast : Bool) (rms : F) :
    m.Scaled (m.drain ctx isFast rms, true) := by
  obtain ⟨_, _, _, _, heq, -⟩ := m.stageWindow_eq
  unfold drain
  rw [heq]
  dsimp only
  split
  · split <;> exact ⟨⟨_, _, _, _, _, _, _, _, rfl⟩, fun _ => ⟨_, rfl, by simp⟩, by simp⟩
  · exact ⟨⟨_, _, _, _, _, _, _, _, rfl⟩, fun _ => ⟨_, rfl, by simp⟩, by simp⟩

theorem growSilence_scaled (m : JitterBufferManager C) : m.Scaled (m.growSilence, true) :=
  ⟨⟨_, _, _, _, _, _, _, _, rfl⟩, fun _ => ⟨_, rfl, by simp⟩, by simp⟩

theorem stretch_scaled (m : JitterBufferManager C) (rms : F) : m.Scaled (m.stretch rms) := by
  have hhist : (if decide (m.buffer.occupiedCount ≤ 1) = true then
      m.timescale.expandConceal m.decoder.decoded rms
      else m.timescale.expand m.decoder.decoded rms).1.histBuf = m.timescale.histBuf := by
    split <;> exact TimeScaler.expandInner_histBuf _ _ _ _
  unfold stretch
  dsimp only
  split <;> rename_i hspliced <;> rw [hspliced] at hhist
  · exact ⟨⟨_, _, _, _, _, _, _, _, rfl⟩, fun _ => ⟨_, rfl, by simp⟩, by simp⟩
  · exact ⟨⟨_, _, _, _, _, _, _, _, rfl⟩, by simp, fun _ => ⟨rfl, rfl, rfl, hhist⟩⟩

theorem Scales.scaled {answer : JitterBufferManager C × Bool} (h : m.Scales ctx answer) :
    m.Scaled answer := by
  cases h with
  | shed highLimit => exact m.shedSilence_scaled ctx highLimit
  | drained isFast rms => exact m.drain_scaled ctx isFast rms
  | grown => exact m.growSilence_scaled
  | stretched rms => exact m.stretch_scaled rms
  | left => exact ⟨⟨_, _, _, _, _, _, _, _, rfl⟩, by simp, fun _ => ⟨rfl, rfl, rfl, rfl⟩⟩

theorem runTimescale_scaled (m : JitterBufferManager C) (ctx : FrameContext) :
    m.Scaled (m.runTimescale ctx) := by
  obtain ⟨f, -, h⟩ := m.runTimescale_cases ctx
  obtain ⟨⟨_, _, _, _, _, _, _, _, heq⟩, hemitted, hleft⟩ := h.scaled
  exact ⟨⟨_, _, _, _, _, _, _, _, heq⟩, hemitted, hleft⟩

/-- Playing a prepared frame appends to what the time-scaler leaves, and no more. -/
theorem playPrepared_eq (m : JitterBufferManager C) (ctx : FrameContext) :
    ∃ playbackBuf emissions,
      m.playPrepared ctx = { (m.runTimescale ctx).1 with playbackBuf, emissions } := by
  unfold playPrepared
  cases m.runTimescale ctx with
  | mk m' emitted =>
    cases emitted with
    | true => exact ⟨_, _, rfl⟩
    | false => exact ⟨_, _, rfl⟩

/-- A prepared frame is appended once; verbatim only as it is, with the history kept. -/
theorem playPrepared_emission (m : JitterBufferManager C) (ctx : FrameContext) :
    ∃ e : Emission F, (m.playPrepared ctx).emissions = m.emissions ++ [e] ∧
      (e.source = .verbatim → e.samples = m.decoder.decoded ∧
        (m.playPrepared ctx).timescale.histBuf = m.timescale.histBuf) := by
  obtain ⟨-, hemitted, hleft⟩ := m.runTimescale_scaled ctx
  unfold playPrepared
  cases hanswer : m.runTimescale ctx with
  | mk m' emitted =>
    rw [hanswer] at hemitted hleft
    cases emitted with
    | true =>
      obtain ⟨e, heq, hsource⟩ := hemitted rfl
      exact ⟨e, heq, fun h => absurd h hsource⟩
    | false =>
      obtain ⟨heq, -, hframe, hhist⟩ := hleft rfl
      refine ⟨⟨.verbatim, m'.decoder.decoded⟩, ?_, fun _ => ⟨?_, hhist⟩⟩
      · exact congrArg (· ++ _) heq
      · exact congrArg FrameDecoder.decoded hframe

end Emit

section Conceal

/-- A concealed frame, or the silence of a reset: what it repeats is the remembered
frame, and long enough for a pitch search. -/
structure Conceals (histBuf : List F) (e : Emission F) : Prop where
  notReal : e.source ≠ .verbatim
  repeated : ∀ history, e.source = .pitchConceal history →
    history = histBuf ∧ minSearchFrames ≤ history.length / opusChannels

/-- What a concealed frame is taken from. -/
def ConcealedBy (m : JitterBufferManager C) (timescale : TimeScaler F) (source : Source F) : Prop :=
  (timescale = if m.decoder.plcReady = true then m.timescale else m.timescale.concealFrame.1) ∧
    (source = .codecPlc ∨ source = .pitchConceal m.timescale.histBuf ∧
      minSearchFrames ≤ m.timescale.histBuf.length / opusChannels)

/-- A concealment goes to the decode buffer, and counts no packet. -/
theorem concealInto_eq (m : JitterBufferManager C) :
    ∃ (decoder : FrameDecoder C) (timescale : TimeScaler F) (tally : TimescaleTally)
      (source : Source F),
      m.concealInto =
        ({ m with decoder, timescale, logWindow := { m.logWindow with tally } }, source) ∧
      tally.sinks = m.logWindow.tally.sinks ∧ m.ConcealedBy timescale source := by
  unfold concealInto
  split
  · next hready => exact ⟨_, _, _, _, rfl, rfl, (if_pos hready).symm, .inl rfl⟩
  · next hready =>
    have htimescale {timescale out} (hconceal : m.timescale.concealFrame = (timescale, out)) :
        timescale =
          if m.decoder.plcReady = true then m.timescale else m.timescale.concealFrame.1 := by
      rw [if_neg hready, hconceal]
    split
    · next hconceal =>
      exact ⟨_, _, _, _, rfl, rfl, htimescale hconceal,
        .inr ⟨rfl, TimeScaler.concealFrame_isSome hconceal⟩⟩
    · next hconceal => exact ⟨_, _, _, _, rfl, rfl, htimescale hconceal, .inl rfl⟩

/-- The fade touches the decode buffer alone, and counts no packet. -/
theorem fadeConceal_eq (m : JitterBufferManager C) :
    ∃ (decoder : FrameDecoder C) (tally : TimescaleTally),
      m.fadeConceal = { m with decoder, logWindow := { m.logWindow with tally } } ∧
      tally.sinks = m.logWindow.tally.sinks := by
  unfold fadeConceal
  split
  · dsimp only
    split
    · exact ⟨_, _, rfl, rfl⟩
    · exact ⟨_, _, rfl, rfl⟩
  · exact ⟨_, _, rfl, rfl⟩

/-- Concealing appends what is in the decode buffer then, and counts no packet. -/
theorem generatePlc_eq (m : JitterBufferManager C) :
    ∃ (decoder : FrameDecoder C) (timescale : TimeScaler F) (tally : TimescaleTally)
      (source : Source F),
      m.generatePlc = { m.extendConcealRun with
        decoder, timescale
        playbackBuf := m.playbackBuf ++ decoder.decoded
        emissions := m.emissions ++ [⟨source, decoder.decoded⟩]
        logWindow := { m.logWindow with tally } } ∧
      tally.sinks = m.logWindow.tally.sinks ∧ m.ConcealedBy timescale source := by
  obtain ⟨decoder, timescale, tally, source, hinto, hsinks, hsource⟩ :=
    m.extendConcealRun.concealInto_eq
  obtain ⟨decoder', tally', hfade, hsinks'⟩ := (m.extendConcealRun.concealInto).1.fadeConceal_eq
  refine ⟨decoder', timescale, tally', source, ?_, ?_, hsource⟩
  · have happend : m.generatePlc = (m.extendConcealRun.concealInto).1.fadeConceal.emit
        (m.extendConcealRun.concealInto).2
        (m.extendConcealRun.concealInto).1.fadeConceal.decoder.decoded := rfl
    rw [happend, hfade, hinto]
    rfl
  · rw [hsinks', hinto]
    exact hsinks

/-- Concealing appends one frame. -/
theorem generatePlc_emission (m : JitterBufferManager C) :
    ∃ e : Emission F, m.generatePlc.emissions = m.emissions ++ [e] ∧
      Conceals m.timescale.histBuf e := by
  obtain ⟨decoder, timescale, tally, source, heq, -, -, hsource⟩ := m.generatePlc_eq
  refine ⟨⟨source, decoder.decoded⟩, congrArg emissions heq, ?_⟩
  obtain rfl | ⟨rfl, hlong⟩ := hsource
  · exact ⟨nofun, nofun⟩
  · refine ⟨nofun, fun history hhistory => ?_⟩
    obtain rfl := Source.pitchConceal.inj hhistory
    exact ⟨rfl, hlong⟩

/-- The reset of an outage appends silence. -/
theorem checkResetOnMissing_cases (m : JitterBufferManager C) :
    (m.outageOver ∧ m.checkResetOnMissing = (m.triggerReset.emit .resetSilence silence.val, true)) ∨
      (¬m.outageOver ∧ m.checkResetOnMissing = (m, false)) := by
  unfold checkResetOnMissing
  by_cases hover : m.outageOver
  · exact Or.inl ⟨hover, if_pos hover⟩
  · exact Or.inr ⟨hover, if_neg hover⟩

/-- A held callback resets the stream over an empty buffer, or conceals; the missing
frame is counted only over an empty buffer. -/
theorem hold_cases (m : JitterBufferManager C) :
    (m.buffer.occupiedCount = 0 ∧ maxMissingFor m.networkLink < m.flow.missingCount + 1 ∧
        ∃ flow, m.hold = { m with flow }.triggerReset.emit .resetSilence silence.val) ∨
      ∃ flow, m.hold = { m with flow }.generatePlc ∧
        (m.buffer.occupiedCount = 0 ∧ m.flow.missingCount + 1 ≤ maxMissingFor m.networkLink ∧
            flow.missingCount = m.flow.missingCount + 1 ∨
          m.buffer.occupiedCount ≠ 0 ∧ flow.missingCount = m.flow.missingCount ∧
            flow.gapHoldCount = m.flow.gapHoldCount ∧
            flow.isPrebuffering = m.flow.isPrebuffering) := by
  by_cases hempty : m.buffer.occupiedCount = 0
  · obtain ⟨hover, heq⟩ | ⟨hunder, heq⟩ := checkResetOnMissing_cases
      { m with flow := { m.flow with missingCount := m.flow.missingCount + 1 } }
    · refine Or.inl ⟨hempty, hover, { m.flow with missingCount := m.flow.missingCount + 1 }, ?_⟩
      unfold hold
      rw [if_pos hempty, heq]
      rfl
    · refine Or.inr ⟨PlaybackFlow.discardConcealWindow
        { m.flow with missingCount := m.flow.missingCount + 1 }, ?_,
        Or.inl ⟨hempty, Nat.le_of_not_lt hunder, rfl⟩⟩
      unfold hold
      rw [if_pos hempty, heq]
      rfl
  · refine Or.inr ⟨m.flow.discardConcealWindow, ?_, Or.inr ⟨hempty, rfl, rfl, rfl⟩⟩
    unfold hold
    rw [if_neg hempty]
    rfl

/-- A held callback appends one frame. -/
theorem hold_emission (m : JitterBufferManager C) :
    ∃ e : Emission F, m.hold.emissions = m.emissions ++ [e] ∧ Conceals m.timescale.histBuf e := by
  obtain ⟨-, -, flow, heq⟩ | ⟨flow, heq, -⟩ := m.hold_cases
  · rw [heq]
    exact ⟨_, rfl, by simp, by simp⟩
  · rw [heq]
    exact generatePlc_emission { m with flow }

/-- A missing frame resets the stream when the outage is over, else it is concealed; a
gap that is waited for stays waited for. -/
theorem handleMissingFrame_cases (m : JitterBufferManager C) (ctx : FrameContext) :
    (maxMissingFor m.networkLink < m.flow.missingCount + 1 ∧
        ∃ flow, m.handleMissingFrame ctx =
          { m with flow }.triggerReset.emit .resetSilence silence.val) ∨
      (m.flow.missingCount + 1 ≤ maxMissingFor m.networkLink ∧
        ∃ flow, m.handleMissingFrame ctx = { m with flow }.generatePlc ∧
          flow.missingCount = m.flow.missingCount + 1 ∧
          (m.buffer.occupiedCount ≠ 0 → flow.gapHoldCount = m.flow.gapHoldCount)) := by
  obtain ⟨flow, hmissing, hheld, hresets, hconceals⟩ : ∃ flow : PlaybackFlow F,
      flow.missingCount = m.flow.missingCount + 1 ∧
      (m.buffer.occupiedCount ≠ 0 → flow.gapHoldCount = m.flow.gapHoldCount) ∧
      (∀ next, { m with flow }.checkResetOnMissing = (next, true) →
        m.handleMissingFrame ctx = next) ∧
      ∀ next, { m with flow }.checkResetOnMissing = (next, false) →
        m.handleMissingFrame ctx = next.generatePlc := by
    obtain ⟨flow, hobserve, hmissing, -, hheld⟩ := observeDelivery_eq
      { m with flow := { m.flow with missingCount := m.flow.missingCount + 1 } } true
    obtain ⟨flow', hstarve, hmissing'⟩ := starve_eq { m with flow } ctx
    unfold handleMissingFrame
    dsimp only
    rw [hobserve]
    by_cases hempty : m.buffer.occupiedCount = 0
    · rw [if_pos hempty, hstarve]
      exact ⟨flow', hmissing'.trans hmissing, fun hne => absurd hempty hne,
        fun next hreset => by rw [hreset], fun next hreset => by rw [hreset]⟩
    · rw [if_neg hempty]
      exact ⟨flow, hmissing, fun _ => hheld,
        fun next hreset => by rw [hreset], fun next hreset => by rw [hreset]⟩
  rw [← hmissing]
  obtain ⟨hover, hreset⟩ | ⟨hunder, hreset⟩ := checkResetOnMissing_cases { m with flow }
  · exact Or.inl ⟨hover, flow, hresets _ hreset⟩
  · exact Or.inr ⟨Nat.le_of_not_lt hunder, flow, hconceals _ hreset, rfl, hheld⟩

/-- A missing frame appends one frame. -/
theorem handleMissingFrame_emission (m : JitterBufferManager C) (ctx : FrameContext) :
    ∃ e : Emission F, (m.handleMissingFrame ctx).emissions = m.emissions ++ [e] ∧
      Conceals m.timescale.histBuf e := by
  obtain ⟨-, flow, heq⟩ | ⟨-, flow, heq, -⟩ := m.handleMissingFrame_cases ctx
  · rw [heq]
    exact ⟨_, rfl, by simp, by simp⟩
  · rw [heq]
    exact generatePlc_emission { m with flow }

/-- A refill without a real frame appends flush splices and one concealed frame. -/
theorem step_of_no_playPoint {i : Input F} {tick : Tick F} (hrefill : m.refill i = some tick)
    (hp : m.playPoint i = none) :
    ∃ splices, ∃ e : Emission F, (m.step i).1.emissions = splices ++ [e] ∧
      (∀ e ∈ splices, e.source = .flush) ∧ Conceals m.timescale.histBuf e := by
  rw [playPoint_of_refill hrefill] at hp
  rw [step_of_refill hrefill]
  rcases processNextFrame_cases { m with emissions := [] } tick with
    ⟨-, -, -, heq⟩ | ⟨p, ctx, hpoint, heq⟩
  · have hsettled := settleDepth_settled { m with emissions := [] } tick
    obtain ⟨splices, hsplices, hflush⟩ := hsettled.flushed
    obtain ⟨e, hemitted, hconceals⟩ :=
      (settleDepth { m with emissions := [] } tick).1.hold_emission
    rw [hsettled.histBuf] at hconceals
    rw [heq, hemitted, hsplices, List.nil_append]
    exact ⟨splices, e, rfl, hflush, hconceals⟩
  · have happroached := framePoint_approached hpoint
    obtain ⟨splices, hsplices, hflush⟩ := happroached.flushed
    have hmiss : p.buffer.hasNext = false := by simpa [hpoint] using hp
    obtain ⟨e, hemitted, hconceals⟩ := p.handleMissingFrame_emission ctx
    rw [happroached.histBuf] at hconceals
    rw [heq, playOrMiss, hmiss, if_neg (by simp), hemitted, hsplices, List.nil_append]
    exact ⟨splices, e, rfl, hflush, hconceals⟩

end Conceal

end JitterBufferManager

end Gemacast.Jitter
