import Gemacast.Jitter.FillOutput
import Gemacast.Jitter.StagedFrames

/-!
# The playback queue

The device is fed from one queue that the audio thread allocates once. A callback refills it
when it is empty: it always appends something, so that the device never plays padding, and it
never appends more than was reserved, so that the audio thread never allocates.
-/

set_option linter.unusedSectionVars false

namespace Gemacast.Jitter

open Gemacast.Core

/-- Samples the playback queue is allocated for. -/
def playbackCapacity : ℕ := opusFrameSamples * 100

/-- Whatever the codec decodes holds a sample frame. -/
def Codec.Yields {F : Type} (C : Codec F) : Prop :=
  ∀ state payload frames, (C.decodeFloat state payload).2 = some frames → frames.val ≠ []

theorem yields_unfed (F : Type) [Binary32 F] : (Codec.unfed F).Yields := by
  rintro state payload frames ⟨⟩
  exact List.ne_nil_of_length_pos (by rw [List.length_replicate]; decide)

section Samples

variable {F : Type} {win : List F}

theorem length_sampleFrames_le (win : List F) (start stop : ℕ) :
    (sampleFrames win start stop).length ≤ (stop - start) * 2 :=
  List.length_take_le _ _

theorem length_crossfade_le [Binary32 F] (early late : List F) :
    (crossfade early late).length ≤ olaLen * 2 := by
  rw [crossfade, List.length_zipWith, stereoRamp_length]
  exact Nat.min_le_left _ _

/-- A crossfade of two regions that lie in their windows is not empty. -/
theorem crossfade_ne_nil [Binary32 F] {win' : List F} {start start' : ℕ}
    (hstart : (start + olaLen) * opusChannels ≤ win.length)
    (hstart' : (start' + olaLen) * opusChannels ≤ win'.length) :
    crossfade (sampleFrames win start (start + olaLen))
      (sampleFrames win' start' (start' + olaLen)) ≠ [] := by
  have hearly : (sampleFrames win start (start + olaLen)).length = _ := length_sampleFrames hstart
  have hlate : (sampleFrames win' start' (start' + olaLen)).length = _ :=
    length_sampleFrames hstart'
  rw [Nat.add_sub_cancel_left] at hearly hlate
  refine List.ne_nil_of_length_pos ?_
  rw [crossfade_length hearly hlate]
  decide

theorem div_opusChannels_mul_le (n : ℕ) : n / opusChannels * 2 ≤ n := Nat.div_mul_le_self _ _

end Samples

namespace TimeScaler

variable {F : Type} [Binary32 F] {ts : TimeScaler F} {pcm out : List F} {k : ℕ}

/-- The splice of a flush is no longer than both frames together. -/
theorem length_overlapAdd_le {force : Bool} (h : ts.overlapAdd k pcm force = some out) :
    out.length ≤ k + pcm.length := by
  unfold overlapAdd at h
  dsimp only at h
  have hk := div_opusChannels_mul_le k
  generalize bestLag _ 0 _ ((0, Binary32.negInfinity) : ℕ × F) = found at h
  split_ifs at h with hshort
  obtain rfl := Option.some.inj h
  have hhead := length_sampleFrames_le (ts.snapshotted k) 0 (k / opusChannels - olaLen)
  have hblend := length_crossfade_le
    (sampleFrames (ts.snapshotted k) (k / opusChannels - olaLen)
      (k / opusChannels - olaLen + olaLen))
    (sampleFrames pcm found.1 (found.1 + olaLen))
  have htail : (pcm.drop ((found.1 + olaLen) * opusChannels)).length ≤ pcm.length := by
    rw [List.length_drop]
    exact Nat.sub_le _ _
  have hola : olaLen = 128 := rfl
  rw [List.length_append, List.length_append]
  omega

/-- A shortened window is not empty, and no longer than the window. -/
theorem accelerate_bounds {isFast : Bool} {rms : F} (h : ts.accelerate isFast rms = some (out, k)) :
    out ≠ [] ∧ out.length ≤ ts.accelWindow.length := by
  obtain ⟨bestD, pitchPeriod, hshort⟩ := accelerate_shortened h
  have hlength := hshort.length
  have hfits := hshort.fits
  have hremoved := hshort.removed
  have hola : olaLen = 128 := rfl
  rw [Nat.add_mul, Nat.add_mul, ← hremoved, hola, opusChannels] at hfits
  refine ⟨?_, by omega⟩
  rintro rfl
  rw [List.length_nil] at hlength
  omega

/-- A stretched frame is not empty, and no longer than two windows. -/
theorem expandInner_bounds {rms : F} {conceal : Bool} {spliced : List F × ℕ}
    (h : (ts.expandInner pcm rms conceal).2 = some spliced) :
    spliced.1 ≠ [] ∧ spliced.1.length ≤ 2 * accelWindowSamples := by
  unfold expandInner at h
  dsimp only at h
  have hwindow : accelWindowSamples < pcm.length ∨ ((if ts.histBuf.length + pcm.length ≤
      accelWindowSamples then ts.histBuf else []) ++ pcm).length ≤ accelWindowSamples := by
    rw [List.length_append]
    split
    · exact Or.inr ‹_›
    · rw [List.length_nil, Nat.zero_add]
      exact lt_or_ge _ _
  generalize (if ts.histBuf.length + pcm.length ≤ accelWindowSamples then ts.histBuf else []) =
    hist at h hwindow
  have hframes := div_opusChannels_mul_le (hist ++ pcm).length
  generalize (hist ++ pcm).length / opusChannels = n at h hframes
  generalize hist.length / opusChannels = histFrames at h
  generalize findPitchPeriod (hist ++ pcm) _ = found at h
  split_ifs at h with hlong hsearch hanchor hlimit hgate hperiod
  obtain rfl := Option.some.inj h
  have hfits := hwindow.resolve_left hlong
  have hola : olaLen = 128 := rfl
  have hfloor : minSearchFrames = 272 := rfl
  have hanchored : n - olaLen + olaLen = n := Nat.sub_add_cancel (by omega)
  have hfound : (found.1 + olaLen) * opusChannels ≤ (hist ++ pcm).length :=
    (Nat.mul_le_mul_right _ (by omega)).trans hframes
  dsimp only
  constructor
  · intro hnil
    obtain ⟨hfront, -⟩ := List.append_eq_nil_iff.mp hnil
    exact crossfade_ne_nil (by rwa [hanchored]) hfound (List.append_eq_nil_iff.mp hfront).2
  · have hhead := length_sampleFrames_le (hist ++ pcm) histFrames (n - olaLen)
    have hblend := length_crossfade_le
      (sampleFrames (hist ++ pcm) (n - olaLen) (n - olaLen + olaLen))
      (sampleFrames (hist ++ pcm) found.1 (found.1 + olaLen))
    have htail : ((hist ++ pcm).drop ((found.1 + olaLen) * opusChannels)).length ≤
        (hist ++ pcm).length := by
      rw [List.length_drop]
      exact Nat.sub_le _ _
    rw [List.length_append, List.length_append]
    omega

end TimeScaler

namespace FrameDecoder

variable {F : Type} [Binary32 F] [FrameMark F] {C : Codec F} {d : FrameDecoder C}

theorem load_ne_nil (d : FrameDecoder C) {samples : DecodedFrame F} (h : samples.val ≠ []) :
    (d.load samples).decoded ≠ [] := by
  change samples.val.map _ ≠ []
  rwa [Ne, List.map_eq_nil_iff]

theorem silence_ne_nil : (silence : DecodedFrame F).val ≠ [] := by
  refine List.ne_nil_of_length_pos ?_
  rw [silence, List.length_replicate]
  decide

theorem decoded_ne_nil {frames : StereoFrames F} (h : frames.val ≠ []) :
    frames.decoded.val ≠ [] := by
  have hpos := List.length_pos_of_ne_nil h
  intro hnil
  have hlength := congrArg List.length hnil
  rw [StereoFrames.decoded, interleave_length, List.length_nil] at hlength
  omega

/-- When the codec answers, there is something to play. -/
theorem accept_ne_nil (hC : C.Yields) (state : C.State) (payload : List UInt8)
    (h : (d.accept (C.decodeFloat state payload)).2 = true) :
    (d.accept (C.decodeFloat state payload)).1.decoded ≠ [] := by
  cases hanswer : C.decodeFloat state payload with
  | mk state' answer =>
    rw [hanswer] at h
    cases answer with
    | none => cases h
    | some frames =>
      exact d.load_ne_nil (decoded_ne_nil (hC state payload frames (by rw [hanswer])))

theorem decodePlc_ne_nil (hC : C.Yields) (d : FrameDecoder C) : d.decodePlc.decoded ≠ [] := by
  have hanswered := accept_ne_nil (d := d) hC d.decoder []
  unfold decodePlc
  split
  · next hd =>
    rw [hd] at hanswered
    exact hanswered rfl
  · exact load_ne_nil _ silence_ne_nil

/-- After a packet is decoded there is something to play. -/
theorem capture_ne_nil (hC : C.Yields) (d : FrameDecoder C) (pkt : RawPacket) :
    (d.capture pkt).decoded ≠ [] := by
  unfold capture
  dsimp only
  generalize d.bridgeGap pkt.seqNum = d
  split
  · exact d.load_ne_nil silence_ne_nil
  · split
    · change (d.captureUncompressed pkt).decoded ≠ []
      unfold captureUncompressed
      split
      · exact decodePlc_ne_nil hC d
      · next hsome =>
        refine d.load_ne_nil fun hnil => hsome ?_
        have hlength : (pcmFrame pkt : DecodedFrame F).val.length = f32Len pkt :=
          pcmSamples_length _ _ (Nat.min_le_left _ _)
        rw [← hlength, hnil, List.length_nil]
    · have hanswered := accept_ne_nil (d := d) hC d.decoder pkt.payload
      split
      · next hd =>
        rw [decodeOpus] at hd
        rw [hd] at hanswered
        exact hanswered rfl
      · exact decodePlc_ne_nil hC _

theorem mapBuf_ne_nil {g : ℕ → F → F} (h : d.decoded ≠ []) : (d.mapBuf g).decoded ≠ [] := by
  change d.decodeBuf.val.mapIdx g ≠ []
  rwa [Ne, List.mapIdx_eq_nil_iff]

end FrameDecoder

namespace JitterBufferManager

variable {F : Type} [Binary32 F] [FrameMark F] {C : Codec F} {m m' m'' : JitterBufferManager C}
  {ctx : FrameContext} {j k : ℕ}

/-- At most `k` samples were appended to the playback queue. -/
def Grows (k : ℕ) (m m' : JitterBufferManager C) : Prop :=
  m'.playbackBuf.length ≤ m.playbackBuf.length + k

theorem Grows.refl (m : JitterBufferManager C) : Grows 0 m m := le_rfl

theorem Grows.trans (h : Grows j m m') (h' : Grows k m' m'') : Grows (j + k) m m'' := by
  unfold Grows at *
  omega

theorem Grows.mono (h : Grows j m m') (hle : j ≤ k) : Grows k m m' := by
  unfold Grows at *
  omega

theorem grows_of_eq (h : m'.playbackBuf = m.playbackBuf) : Grows k m m' := by
  rw [Grows, h]
  exact Nat.le_add_right _ _

theorem grows_emit (source : Source F) {samples : List F} (h : samples.length ≤ k) :
    Grows k m (m.emit source samples) := by
  change (m.playbackBuf ++ samples).length ≤ _
  rw [List.length_append]
  omega

section Flush

/-- The splice of a flush appends at most two frames. -/
theorem grows_flush (m : JitterBufferManager C) (flushTo : ℕ) :
    Grows (2 * opusFrameSamples) m (m.flushWithCrossfade flushTo) := by
  unfold flushWithCrossfade
  split
  · exact grows_of_eq rfl
  · obtain ⟨decoder, buffer, hloop⟩ := (m.beginFlush flushTo).flushLoop_eq flushTo bufferCapacity
    rw [hloop]
    have hbefore := decoded_length_le m.decoder
    have hafter := decoded_length_le decoder
    unfold spliceFlush
    split
    · split
      · next out hsome =>
        have hout := TimeScaler.length_overlapAdd_le hsome
        refine grows_emit .flush ?_
        rw [FrameDecoder.decodeLen] at hout
        dsimp only at hout
        omega
      · have hheld : ((m.beginFlush flushTo).timescale.snapshotted m.decoder.decodeLen).length ≤
            m.decoder.decodeLen := List.length_take_le _ _
        rw [FrameDecoder.decodeLen] at hheld
        exact ((grows_emit .flush (hheld.trans hbefore)).trans
          (grows_emit .flush hafter)).mono (by omega)
    · exact grows_of_eq rfl

/-- A phase that flushes once or not at all. -/
theorem grows_flush_or {p : Prop} [Decidable p] (m : JitterBufferManager C) (flushTo : ℕ) :
    Grows (2 * opusFrameSamples) m (if p then m.flushWithCrossfade flushTo else m) := by
  split
  · exact m.grows_flush flushTo
  · exact grows_of_eq rfl

theorem grows_reloadConfig (m : JitterBufferManager C) (tick : Tick F) :
    Grows (2 * opusFrameSamples) m (m.reloadConfigIfChanged tick) := by
  unfold reloadConfigIfChanged
  split
  · dsimp only
    split
    · split
      · exact grows_of_eq rfl
      · exact grows_flush_or (restartConvergence _ _ _) _
    · exact grows_of_eq rfl
  · exact grows_of_eq rfl

/-- The target, the hold apart. -/
theorem grows_settleDepth (m : JitterBufferManager C) (tick : Tick F) :
    Grows (4 * opusFrameSamples) m (m.settleDepth tick).1 := by
  have hreloaded := ((m.beginCallback tick).grows_reloadConfig tick)
  have htargeted := grows_of_eq (k := 0)
    (((m.beginCallback tick).reloadConfigIfChanged tick).resolveTarget_keeps tick).playbackBuf
  have hflushed : Grows (2 * opusFrameSamples)
      (((m.beginCallback tick).reloadConfigIfChanged tick).resolveTarget tick).1
      (m.settleDepth tick).1 := grows_flush_or _ _
  have hbegun : Grows 0 m (m.beginCallback tick) := le_rfl
  exact ((hbegun.trans hreloaded).trans (htargeted.trans hflushed)).mono (by omega)

/-- A callback that reaches the gap has flushed five times at most. -/
theorem grows_gapPoint {tick : Tick F} {g : JitterBufferManager C}
    (hg : m.gapPoint tick = some (g, ctx)) : Grows (10 * opusFrameSamples) m g := by
  have hsettled := m.grows_settleDepth tick
  unfold gapPoint at hg
  split at hg
  · cases hg
  · next m' hserve =>
    obtain ⟨rfl, -⟩ := Prod.mk.inj (Option.some.inj hg)
    have hreleased : Grows (2 * opusFrameSamples) (m.settleDepth tick).1 m' := by
      unfold servePrebuffering at hserve
      split at hserve
      · split at hserve
        · obtain ⟨rfl, -⟩ := Prod.mk.inj hserve
          exact grows_flush_or _ _
        · cases (Prod.mk.inj hserve).2
      · obtain ⟨rfl, -⟩ := Prod.mk.inj hserve
        exact grows_of_eq rfl
    have hstarted : Grows (2 * opusFrameSamples) m'
        (m'.applyStartupFlush (m.settleDepth tick).2.1) := by
      unfold applyStartupFlush
      split
      · exact grows_flush_or { m' with startupFlushPending := false } _
      · exact grows_of_eq rfl
    exact ((hsettled.trans hreleased).trans (hstarted.trans (grows_flush_or _ _))).mono (by omega)

end Flush

section Produce

/-- Something was appended to the playback queue, two windows at most. -/
def Produces (m m' : JitterBufferManager C) : Prop :=
  ∃ samples : List F, m'.playbackBuf = m.playbackBuf ++ samples ∧ samples ≠ [] ∧
    samples.length ≤ 2 * accelWindowSamples

theorem Produces.grows (h : m.Produces m') : Grows (2 * accelWindowSamples) m m' := by
  obtain ⟨samples, heq, -, hlength⟩ := h
  rw [Grows, heq, List.length_append]
  omega

theorem Produces.ne_nil (h : m.Produces m') : m'.playbackBuf ≠ [] := by
  obtain ⟨samples, heq, hne, -⟩ := h
  rw [heq]
  exact List.append_ne_nil_of_right_ne_nil _ hne

theorem Produces.congr (h : m.Produces m') (hbefore : m.playbackBuf = m''.playbackBuf) :
    m''.Produces m' := by
  obtain ⟨samples, heq, hne⟩ := h
  exact ⟨samples, hbefore ▸ heq, hne⟩

theorem produces_emit (source : Source F) {samples : List F} (hne : samples ≠ [])
    (hlength : samples.length ≤ 2 * accelWindowSamples) : m.Produces (m.emit source samples) :=
  ⟨samples, rfl, hne, hlength⟩

theorem produces_decoded (m : JitterBufferManager C) (source : Source F)
    (hne : m.decoder.decoded ≠ []) : m.Produces (m.emit source m.decoder.decoded) :=
  produces_emit source hne ((decoded_length_le _).trans (by decide))

theorem produces_drain (m : JitterBufferManager C) (ctx : FrameContext) (isFast : Bool) (rms : F)
    (hne : m.decoder.decoded ≠ []) : m.Produces (m.drain ctx isFast rms) := by
  obtain ⟨e, -, heq, hsamples⟩ := (m.drain_emitsStaged ctx isFast rms).emitted
  have hstaged : m.stagedSamples.length ≤ accelWindowSamples := by
    have hfirst := decoded_length_le m.decoder
    have htwo : accelWindowSamples = opusFrameSamples + opusFrameSamples := rfl
    unfold stagedSamples
    rw [List.length_append]
    cases m.stagedPacket with
    | none =>
      rw [Option.map_none, Option.getD_none, List.length_nil]
      omega
    | some pkt =>
      have hsecond := decoded_length_le (m.decoder.capture pkt)
      rw [Option.map_some, Option.getD_some]
      omega
  refine ⟨e.samples, heq, ?_⟩
  obtain ⟨-, hwhole⟩ | ⟨-, k, bestD, pitchPeriod, hshort⟩ := hsamples
  · rw [hwhole]
    refine ⟨?_, by omega⟩
    exact List.append_ne_nil_of_left_ne_nil hne _
  · have hlength := hshort.length
    have hfits := hshort.fits
    have hola : olaLen = 128 := rfl
    rw [Nat.add_mul, Nat.add_mul, ← hshort.removed, hola, opusChannels] at hfits
    refine ⟨?_, by omega⟩
    intro hnil
    rw [hnil, List.length_nil] at hlength
    omega

theorem produces_growSilence (m : JitterBufferManager C) (hne : m.decoder.decoded ≠ []) :
    m.Produces m.growSilence := by
  have hlength := decoded_length_le m.decoder
  refine ⟨_, rfl, List.append_ne_nil_of_left_ne_nil hne _, ?_⟩
  rw [List.length_append, List.length_replicate, FrameDecoder.decodeLen]
  have htwo : accelWindowSamples = opusFrameSamples + opusFrameSamples := rfl
  omega

/-- A stretch appends its frame, or leaves it to be appended. -/
theorem stretch_produces (m : JitterBufferManager C) (rms : F) :
    ((m.stretch rms).2 = true → m.Produces (m.stretch rms).1) ∧
      ((m.stretch rms).2 = false → (m.stretch rms).1.playbackBuf = m.playbackBuf ∧
        (m.stretch rms).1.decoder = m.decoder) := by
  obtain ⟨conceal, hspliced⟩ : ∃ conceal,
      (if decide (m.buffer.occupiedCount ≤ 1) = true
        then m.timescale.expandConceal m.decoder.decoded rms
        else m.timescale.expand m.decoder.decoded rms) =
          m.timescale.expandInner m.decoder.decoded rms conceal := by
    split
    · exact ⟨true, rfl⟩
    · exact ⟨false, rfl⟩
  unfold stretch
  dsimp only
  rw [hspliced]
  split
  · next hanswer =>
    obtain ⟨hne, hlength⟩ := TimeScaler.expandInner_bounds (congrArg Prod.snd hanswer)
    exact ⟨fun _ => ⟨_, rfl, hne, hlength⟩, by rintro ⟨⟩⟩
  · exact ⟨by rintro ⟨⟩, fun _ => ⟨rfl, rfl⟩⟩

/-- The time-scaler appends its frame, or leaves it to be appended. -/
theorem Scales.produces {answer : JitterBufferManager C × Bool} (h : m.Scales ctx answer)
    (hne : m.decoder.decoded ≠ []) :
    (answer.2 = true → m.Produces answer.1) ∧
      (answer.2 = false → answer.1.playbackBuf = m.playbackBuf ∧
        answer.1.decoder = m.decoder) := by
  cases h with
  | shed highLimit =>
    obtain ⟨_, _, _, _, heq⟩ := (m.emit .shed m.decoder.decoded).shedLoop_eq highLimit
      (min (max ((Binary32.toNat m.flow.filteredBufferLevel - highLimit) / 2) 1) 4)
    refine ⟨fun _ => ?_, by rintro ⟨⟩⟩
    obtain ⟨samples, hsamples, hproduced⟩ := m.produces_decoded .shed hne
    refine ⟨samples, ?_, hproduced⟩
    unfold shedSilence
    dsimp only
    rw [heq]
    exact hsamples
  | drained isFast rms => exact ⟨fun _ => m.produces_drain ctx isFast rms hne, by rintro ⟨⟩⟩
  | grown => exact ⟨fun _ => m.produces_growSilence hne, by rintro ⟨⟩⟩
  | stretched rms => exact m.stretch_produces rms
  | left => exact ⟨by rintro ⟨⟩, fun _ => ⟨rfl, rfl⟩⟩

theorem playPrepared_produces (hne : m.decoder.decoded ≠ []) :
    m.Produces (m.playPrepared ctx) := by
  obtain ⟨f, -, hscales⟩ := m.runTimescale_cases ctx
  obtain ⟨hemitted, hleft⟩ := hscales.produces (m := m.count f) hne
  unfold playPrepared
  cases hanswer : m.runTimescale ctx with
  | mk answer emitted =>
    rw [hanswer] at hemitted hleft
    cases emitted with
    | true => exact (hemitted rfl).congr rfl
    | false =>
      obtain ⟨hqueue, hdecoder⟩ := hleft rfl
      refine (answer.produces_decoded .verbatim ?_).congr hqueue
      rw [hdecoder]
      exact hne

theorem playNextFrame_produces (hC : C.Yields) (hnext : m.buffer.hasNext = true) :
    m.Produces (m.playNextFrame ctx) := by
  obtain ⟨pkt, control, flow, captured, -, -, -, -, rfl, -, hplayed⟩ := frames_of_hasNext ctx hnext
  rw [hplayed]
  refine Produces.congr (playPrepared_produces ?_) ?_
  · have hcaptured := FrameDecoder.capture_ne_nil hC m.decoder pkt
    unfold maskSplice
    dsimp only
    split
    · exact FrameDecoder.mapBuf_ne_nil hcaptured
    · exact hcaptured
  · unfold maskSplice
    dsimp only
    split <;> rfl

theorem concealInto_ne_nil (hC : C.Yields) (m : JitterBufferManager C) :
    m.concealInto.1.decoder.decoded ≠ [] := by
  unfold concealInto
  split
  · exact FrameDecoder.decodePlc_ne_nil hC _
  · split
    · next out hanswer =>
      refine FrameDecoder.load_ne_nil _ ?_
      have hout := congrArg Prod.snd hanswer
      unfold TimeScaler.concealFrame at hout
      dsimp only at hout
      split_ifs at hout
      rw [← Option.some.inj hout]
      refine List.ne_nil_of_length_pos ?_
      simp only [TimeScaler.repeatBlock, List.length_map, List.length_range]
      decide
    · exact FrameDecoder.decodePlc_ne_nil hC _

theorem generatePlc_produces (hC : C.Yields) (m : JitterBufferManager C) :
    m.Produces m.generatePlc := by
  obtain ⟨_, _, _, _, hinto, -⟩ := m.extendConcealRun.concealInto_eq
  obtain ⟨_, _, hfade, -⟩ := m.extendConcealRun.concealInto.1.fadeConceal_eq
  have hconcealed := m.extendConcealRun.concealInto_ne_nil hC
  have hne : m.extendConcealRun.concealInto.1.fadeConceal.decoder.decoded ≠ [] := by
    unfold fadeConceal
    split
    · dsimp only
      split <;> exact FrameDecoder.mapBuf_ne_nil hconcealed
    · exact hconcealed
  refine ((produces_decoded _ m.extendConcealRun.concealInto.2 hne)).congr ?_
  rw [hfade, hinto]
  rfl

end Produce

section Refill

/-- Samples that one callback queues at most: the splices of five flushes and two windows. -/
def refillBound : ℕ := 10 * opusFrameSamples + 2 * accelWindowSamples

/-- The queue of a callback: something, and no more than the bound. -/
def Refilled (m : JitterBufferManager C) : Prop :=
  m.playbackBuf ≠ [] ∧ m.playbackBuf.length ≤ refillBound

/-- The silence of a reset is all that is queued then. -/
theorem refilled_resetSilence (m : JitterBufferManager C) :
    (m.triggerReset.emit .resetSilence silence.val).Refilled :=
  ⟨FrameDecoder.silence_ne_nil, (silence : DecodedFrame F).property.trans (by decide)⟩

theorem Produces.refilled (h : m'.Produces m'') (hempty : m.playbackBuf = [])
    (hgrows : Grows (10 * opusFrameSamples) m m') : m''.Refilled := by
  refine ⟨h.ne_nil, ?_⟩
  have hlength := hgrows.trans h.grows
  rw [Grows, hempty, List.length_nil, Nat.zero_add] at hlength
  exact hlength

/-- A callback over an empty queue refills it. -/
theorem processNextFrame_refilled (hC : C.Yields) (m : JitterBufferManager C)
    (hempty : m.playbackBuf = []) (tick : Tick F) : (m.processNextFrame tick).1.Refilled := by
  obtain ⟨-, -, -, heq⟩ | ⟨p, ctx, hpoint, heq⟩ := m.processNextFrame_cases tick
  · have hsettled := (m.grows_settleDepth tick).mono (k := 10 * opusFrameSamples) (by omega)
    rw [heq]
    obtain ⟨-, -, flow, hheld⟩ | ⟨flow, hheld, -⟩ := (m.settleDepth tick).1.hold_cases
    · rw [hheld]
      exact refilled_resetSilence _
    · rw [hheld]
      exact (generatePlc_produces hC _).refilled hempty hsettled
  · obtain ⟨g, hg, rfl⟩ := framePoint_cases hpoint
    have hreached : Grows (10 * opusFrameSamples) m (g.tryFastForwardOverGap ctx) := by
      have hgap := grows_gapPoint hg
      obtain ⟨_, _, _, _, _, hskipped, -⟩ := g.tryFastForwardOverGap_eq ctx
      rw [hskipped]
      exact hgap
    rw [heq, playOrMiss]
    split
    · next hnext => exact (playNextFrame_produces hC hnext).refilled hempty hreached
    · obtain ⟨-, flow, hmissed⟩ | ⟨-, flow, hmissed, -⟩ :=
        (g.tryFastForwardOverGap ctx).handleMissingFrame_cases ctx
      · rw [hmissed]
        exact refilled_resetSilence _
      · rw [hmissed]
        exact (generatePlc_produces hC _).refilled hempty hreached

end Refill

section Run

/-- A step leaves no more in the queue than there was, or refills it. -/
theorem step_queue (hC : C.Yields) (m : JitterBufferManager C) (i : Input F) :
    ((m.step i).1.playbackBuf.length ≤ m.playbackBuf.length ∧ m.refill i = none) ∨
      (m.step i).1.Refilled := by
  cases hrefill : m.refill i with
  | some tick =>
    obtain ⟨-, hempty⟩ := refill_eq_some hrefill
    refine Or.inr ?_
    rw [step_of_refill hrefill]
    exact processNextFrame_refilled hC { m with emissions := [] } (List.isEmpty_iff.mp hempty) tick
  | none =>
    refine Or.inl ⟨?_, rfl⟩
    cases i with
    | ingest pkts =>
      obtain ⟨_, _, _, _, heq, -⟩ := m.ingestPackets_eq pkts
      change (m.ingestPackets pkts).playbackBuf.length ≤ _
      rw [heq]
    | callback tick =>
      unfold refill at hrefill
      unfold step
      dsimp only at hrefill ⊢
      split at hrefill
      · cases hrefill
      · next hheld => rw [if_neg hheld]
    | consume take => exact List.length_drop.trans_le (Nat.sub_le _ _)
    | reset => exact Nat.zero_le _

/-- In every run the queue stays within what it was allocated for, and a refill never leaves it
empty. -/
theorem queue_of_run (hC : C.Yields) (config : JitterConfig F) (networkLink : NetworkLink)
    (clock : Instant) (inputs : List (Input F)) :
    ∀ e ∈ (machine C config networkLink clock).events inputs,
      e.after.playbackBuf.length ≤ playbackCapacity ∧
        ((e.before.refill e.input).isSome → e.after.playbackBuf ≠ []) := by
  have hbound : refillBound ≤ playbackCapacity := by decide
  have hkept := ((machine C config networkLink clock).invariant
    (I := fun m => m.playbackBuf.length ≤ refillBound) (p := fun _ _ => True) (Nat.zero_le _)
    (fun m i hm _ => (step_queue hC m i).elim (fun h => h.1.trans hm) fun h => h.2)
    fun e (_ : e ∈ (machine C config networkLink clock).events inputs) => trivial).1
  intro e he
  refine ⟨(hkept e he).2.trans hbound, fun hsome => ?_⟩
  have hevent := Machine.eq_eventAt_of_mem _ he
  have hafter : e.after = (e.before.step e.input).1 := congrArg Event.after hevent
  rw [hafter]
  obtain ⟨-, hnone⟩ | hrefilled := step_queue hC e.before e.input
  · rw [hnone] at hsome
    cases hsome
  · exact hrefilled.1

/-- The first callback after reordered packets. -/
def reorderedCallback : PlayerEvent (Codec.unfed SoftFloat) :=
  ((machine (Codec.unfed SoftFloat) eagerConfig .ethernet 0).events reorderedInputs).get
    ⟨1, by decide⟩

theorem queue_of_run_reorderedInputs :
    reorderedCallback.after.playbackBuf.length ≤ playbackCapacity ∧
      ((reorderedCallback.before.refill reorderedCallback.input).isSome →
        reorderedCallback.after.playbackBuf ≠ []) :=
  queue_of_run (yields_unfed SoftFloat) eagerConfig .ethernet 0 reorderedInputs _
    (List.get_mem ..)

end Run

end JitterBufferManager

section Device

open JitterBufferManager

variable {F δ ε : Type} [Binary32 F] [FrameMark F] {C : Codec F}

/-- A callback that refills an empty queue always produces a block. -/
theorem nextBlock_ne_nil (hC : C.Yields) (ticks : ℕ → Tick F) (s : JitterBufferManager C × ℕ) :
    (nextBlock ticks s).2 ≠ [] := by
  obtain ⟨m, k⟩ := s
  exact (processNextFrame_refilled hC { m.withQueue [] with emissions := [] } rfl (ticks k)).1

/-- Whatever buffers the device asks for, and whatever happens in between, every buffer is
filled with queued and freshly played samples, and with nothing else. -/
theorem device_filled (hC : C.Yields) (Q : VecDeque F δ) (ticks : ℕ → Tick F)
    (outside : ε → JitterBufferManager C × ℕ → JitterBufferManager C × ℕ)
    (s : JitterBufferManager C × ℕ) (d : δ) (turns : List (Turn F ε)) :
    ∀ e ∈ (playback Q (nextBlock ticks) outside s d).events turns,
      ∀ demand, e.input = .fill demand → ∃ taken blocks, taken.length = demand.size ∧
        e.output = some (taken.map (· * demand.volume)) ∧
        produce (nextBlock ticks) blocks.length e.before.1 = (e.after.1, blocks) ∧
        taken ++ Q.contents e.after.2 = Q.contents e.before.2 ++ blocks.flatten := by
  intro e he demand hin
  obtain ⟨taken, blocks, hserves⟩ : ∃ taken blocks,
      Serves Q (nextBlock ticks) outside e taken blocks := by
    rw [Machine.eq_eventAt_of_mem _ he]
    exact serve_serves Q (nextBlock ticks) outside s e.before.1 d e.before.2 e.input
  have hproduced := hserves.produced hin
  have hblocks : [] ∉ blocks := by
    have hnone := not_mem_produce (nextBlock_ne_nil hC ticks) blocks.length e.before.1
    rw [congrArg Prod.snd hproduced] at hnone
    exact hnone
  have hlength := hserves.length_taken hblocks
  have hat : e.input.At demand.volume := by
    rw [hin]
    rfl
  refine ⟨taken, blocks, ?_, hserves.output_of_full hat hblocks, hproduced, hserves.conserved⟩
  rw [hlength, hin]
  rfl

/-- The device asks for two buffers; packets arrive in between. -/
def bufferTurns : List (Turn SoftFloat (List RawPacket)) :=
  [.fill ⟨100, 1.0⟩, .outside [rawZero 5 0], .fill ⟨960, 0.5⟩]

/-- Packets arrive between two buffers. -/
def arrive (pkts : List RawPacket) : JitterBufferManager (Codec.unfed SoftFloat) × ℕ →
    JitterBufferManager (Codec.unfed SoftFloat) × ℕ :=
  Prod.map (ingestPackets · pkts) id

/-- The device gets its second buffer. -/
def secondBuffer :
    Event ((JitterBufferManager (Codec.unfed SoftFloat) × ℕ) × List SoftFloat)
      (Turn SoftFloat (List RawPacket)) (Option (List SoftFloat)) :=
  ((playback (VecDeque.list SoftFloat) (nextBlock steadyTick) arrive
    (new (Codec.unfed SoftFloat) eagerConfig .ethernet 0, 0) []).events bufferTurns).get
    ⟨2, by decide⟩

theorem device_filled_bufferTurns : ∃ taken blocks, taken.length = 960 ∧
    secondBuffer.output = some (taken.map (· * 0.5)) ∧
    produce (nextBlock steadyTick) blocks.length secondBuffer.before.1 =
      (secondBuffer.after.1, blocks) ∧
    taken ++ (VecDeque.list SoftFloat).contents secondBuffer.after.2 =
      (VecDeque.list SoftFloat).contents secondBuffer.before.2 ++ blocks.flatten :=
  device_filled (yields_unfed SoftFloat) (VecDeque.list SoftFloat) steadyTick arrive
    (new (Codec.unfed SoftFloat) eagerConfig .ethernet 0, 0) [] bufferTurns secondBuffer
    (List.get_mem ..) ⟨960, 0.5⟩ rfl

/-- With no packets in between, the sizes of the buffers make no difference to what is heard. -/
theorem heard_of_size_eq (hC : C.Yields) (Q : VecDeque F δ) (ticks : ℕ → Tick F)
    (outside : ε → JitterBufferManager C × ℕ → JitterBufferManager C × ℕ)
    (s : JitterBufferManager C × ℕ) (d : δ) {volume : F} {turns turns' : List (Turn F ε)}
    (hturns : ∀ turn ∈ turns, (∃ demand, turn = .fill demand) ∧ turn.At volume)
    (hturns' : ∀ turn ∈ turns', (∃ demand, turn = .fill demand) ∧ turn.At volume)
    (hsize : (turns.map Turn.size).sum = (turns'.map Turn.size).sum) :
    ((playback Q (nextBlock ticks) outside s d).events turns).flatMap (fun e => e.output.getD []) =
      ((playback Q (nextBlock ticks) outside s d).events turns').flatMap
        (fun e => e.output.getD []) :=
  outputs_eq_of_size_eq (nextBlock_ne_nil hC ticks) hturns hturns' hsize

end Device

end Gemacast.Jitter
