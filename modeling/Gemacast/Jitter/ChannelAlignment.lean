import Gemacast.Jitter.Ledger
import Gemacast.Jitter.SequenceRoom
import Gemacast.Jitter.Splices

/-!
# The channels stay in their places

The playback buffer is interleaved: left, right, left, right. As long as everything that is
appended to it has an even length, the channels stay where they belong. Every buffer of the
pipeline holds whole sample frames if every raw payload does; the decoder truncates a raw payload
to whole samples, and a payload of an odd number of samples shifts all that follows.
-/

set_option linter.unusedSectionVars false

namespace Gemacast.Jitter

open Gemacast.Core Gemacast.Player

section Lists

variable {F : Type} {l win : List F} {n : ℕ}

theorem even_mul_opusChannels (n : ℕ) : Even (n * opusChannels) := ⟨n, Nat.mul_two n⟩

theorem even_accelWindowSamples : Even accelWindowSamples := ⟨opusFrameSamples, rfl⟩

theorem even_take (hl : Even l.length) (hn : Even n) : Even (l.take n).length := by
  rw [List.length_take, min_def]
  split
  · exact hn
  · exact hl

theorem even_drop (hl : Even l.length) (hn : Even n) : Even (l.drop n).length := by
  obtain ⟨i, hi⟩ := hl
  obtain ⟨j, hj⟩ := hn
  rw [List.length_drop, hi, hj]
  exact ⟨i - j, by omega⟩

theorem even_append {l' : List F} (hl : Even l.length) (hl' : Even l'.length) :
    Even (l ++ l').length := by
  rw [List.length_append]
  exact hl.add hl'

theorem even_sampleFrames (h : Even win.length) (start stop : ℕ) :
    Even (sampleFrames win start stop).length :=
  even_take (even_drop h (even_mul_opusChannels _)) (even_mul_opusChannels _)

theorem even_crossfade [Binary32 F] {early late : List F} (hearly : Even early.length)
    (hlate : Even late.length) : Even (crossfade early late).length := by
  have hmin : ∀ {i j : ℕ}, Even i → Even j → Even (min i j) := by
    intro i j hi hj
    rw [min_def]
    split
    · exact hi
    · exact hj
  rw [crossfade, List.length_zipWith, List.length_zip, stereoRamp_length]
  exact hmin (even_mul_opusChannels _) (hmin hearly hlate)

end Lists

/-- A raw payload makes up whole sample frames. -/
def RawPacket.IsStereo (p : RawPacket) : Prop :=
  p.isSilence = false → p.isUncompressed = true → Even (f32Len p)

instance (p : RawPacket) : Decidable p.IsStereo := inferInstanceAs (Decidable (_ → _ → _))

/-- The frames of the time-scaler are whole sample frames. -/
structure TimeScaler.IsStereo {F : Type} (ts : TimeScaler F) : Prop where
  wsolaBuf : Even ts.wsolaBuf.length
  accelWindow : Even ts.accelWindow.length
  histBuf : Even ts.histBuf.length

namespace TimeScaler.IsStereo

variable {F : Type} [Binary32 F] {ts ts' : TimeScaler F} {pcm out : List F} {k : ℕ}

theorem new : (TimeScaler.new : TimeScaler F).IsStereo := ⟨Even.zero, Even.zero, Even.zero⟩

theorem snapshot (h : ts.IsStereo) (hpcm : Even pcm.length) : (ts.snapshot pcm).IsStereo := by
  unfold TimeScaler.snapshot
  split
  · exact ⟨hpcm, h.accelWindow, h.histBuf⟩
  · exact h

theorem windowBegin (h : ts.IsStereo) (hpcm : Even pcm.length) : (ts.windowBegin pcm).IsStereo :=
  ⟨h.wsolaBuf, even_take hpcm even_accelWindowSamples, h.histBuf⟩

theorem windowExtend (h : ts.IsStereo) (hpcm : Even pcm.length) :
    (ts.windowExtend pcm).1.IsStereo := by
  unfold TimeScaler.windowExtend
  split
  · exact h
  · exact ⟨h.wsolaBuf, even_append h.accelWindow hpcm, h.histBuf⟩

theorem remember (h : ts.IsStereo) (hpcm : Even pcm.length) : (ts.remember pcm).IsStereo :=
  ⟨h.wsolaBuf, h.accelWindow, even_take hpcm (even_mul_opusChannels opusFrameSize)⟩

theorem forget (h : ts.IsStereo) : ts.forget.IsStereo := ⟨h.wsolaBuf, h.accelWindow, Even.zero⟩

theorem snapshotted (h : ts.IsStereo) (hk : Even k) : Even (ts.snapshotted k).length :=
  even_take h.wsolaBuf hk

theorem overlapAdd (h : ts.IsStereo) (hk : Even k) (hpcm : Even pcm.length) {force : Bool}
    (hsome : ts.overlapAdd k pcm force = some out) : Even out.length := by
  unfold TimeScaler.overlapAdd at hsome
  dsimp only at hsome
  split_ifs at hsome
  obtain rfl := Option.some.inj hsome
  have hheld := h.snapshotted hk
  exact even_append (even_append (even_sampleFrames hheld _ _)
    (even_crossfade (even_sampleFrames hheld _ _) (even_sampleFrames hpcm _ _)))
    (even_drop hpcm (even_mul_opusChannels _))

theorem even_repeatBlock (block : List F) (len : ℕ) : Even (repeatBlock block len).val.length := by
  simp only [repeatBlock, List.length_map, List.length_range]
  exact even_mul_opusChannels opusFrameSize

theorem concealFrame (h : ts.IsStereo) : ts.concealFrame.1.IsStereo ∧
    ∀ out, ts.concealFrame.2 = some out → Even out.val.length := by
  unfold TimeScaler.concealFrame
  dsimp only
  split_ifs
  · exact ⟨h, by rintro out ⟨⟩⟩
  · exact ⟨⟨h.wsolaBuf, h.histBuf, h.histBuf⟩, by rintro out ⟨⟩⟩
  · exact ⟨⟨h.wsolaBuf, h.histBuf, h.histBuf⟩, by rintro out ⟨⟩⟩
  · refine ⟨⟨h.wsolaBuf, h.histBuf, ?_⟩, ?_⟩
    · dsimp only
      exact even_repeatBlock _ _
    · intro out hout
      rw [← Option.some.inj hout]
      exact even_repeatBlock _ _

theorem expandInner (h : ts.IsStereo) (hpcm : Even pcm.length) (rms : F) (conceal : Bool) :
    (ts.expandInner pcm rms conceal).1.IsStereo ∧
      ∀ spliced, (ts.expandInner pcm rms conceal).2 = some spliced → Even spliced.1.length := by
  unfold TimeScaler.expandInner
  dsimp only
  have hhist : Even (if ts.histBuf.length + pcm.length ≤ accelWindowSamples then ts.histBuf
      else []).length := by
    split
    · exact h.histBuf
    · exact Even.zero
  generalize (if ts.histBuf.length + pcm.length ≤ accelWindowSamples then ts.histBuf else []) =
    hist at hhist ⊢
  have hwin := even_append hhist hpcm
  have hstaged : (⟨ts.wsolaBuf, hist ++ pcm, ts.histBuf⟩ : TimeScaler F).IsStereo :=
    ⟨h.wsolaBuf, hwin, h.histBuf⟩
  split_ifs
  · exact ⟨h, by rintro out ⟨⟩⟩
  · exact ⟨hstaged, by rintro out ⟨⟩⟩
  · exact ⟨hstaged, by rintro out ⟨⟩⟩
  · exact ⟨hstaged, by rintro out ⟨⟩⟩
  · exact ⟨hstaged, by rintro out ⟨⟩⟩
  · exact ⟨hstaged, by rintro out ⟨⟩⟩
  · refine ⟨hstaged, ?_⟩
    rintro spliced ⟨⟩
    exact even_append (even_append (even_sampleFrames hwin _ _)
      (even_crossfade (even_sampleFrames hwin _ _) (even_sampleFrames hwin _ _)))
      (even_drop hwin (even_mul_opusChannels _))

theorem accelerate (h : ts.IsStereo) {isFast : Bool} {rms : F}
    (hsome : ts.accelerate isFast rms = some (out, k)) : Even out.length := by
  unfold TimeScaler.accelerate at hsome
  dsimp only at hsome
  generalize (if isFast = true then 0.5 else 0.9 : F) = threshold at hsome
  split_ifs at hsome
  obtain ⟨rfl, -⟩ := Prod.mk.inj (Option.some.inj hsome)
  have hwin := h.accelWindow
  exact even_append (even_append (even_sampleFrames hwin _ _)
    (even_crossfade (even_sampleFrames hwin _ _) (even_sampleFrames hwin _ _)))
    (even_drop hwin (even_mul_opusChannels _))

end TimeScaler.IsStereo

/-- Every stored packet has the property. -/
def JitterBuffer.Holds (Q : RawPacket → Prop) (b : JitterBuffer) : Prop :=
  ∀ i p, b.slots i = some p → Q p

namespace JitterBuffer.Holds

variable {Q : RawPacket → Prop} {b b' : JitterBuffer} {p : RawPacket}

theorem none (hempty : b.slots = fun _ => .none) : b.Holds Q := by
  intro i p hp
  rw [hempty] at hp
  cases hp

theorem of_drops (h : b.Holds Q) (hdrops : b.Drops b') : b'.Holds Q :=
  fun i p hp => h i p (hdrops.slots i p hp)

theorem anchor (h : b.Holds Q) : (b.anchor p).Holds Q := by
  unfold JitterBuffer.anchor
  split
  · exact h
  · exact h

theorem makeRoom (h : b.Holds Q) : (b.makeRoom p).Holds Q := by
  unfold JitterBuffer.makeRoom
  split
  · exact h.of_drops (b.skipTo_drops _)
  · exact h

theorem store (h : b.Holds Q) (hp : Q p) : (b.store p).Holds Q := by
  intro i q hq
  obtain hold | rfl := store_eq_some hq
  · exact h i q hold
  · exact hp

theorem insert (h : b.Holds Q) (hp : Q p) : (b.insert p).1.Holds Q := by
  unfold JitterBuffer.insert
  dsimp only
  split
  · split
    · exact (makeRoom (none rfl)).store hp
    · exact h.anchor
  · exact h.anchor.makeRoom.store hp

theorem lowestAvailableSeq (h : b.Holds Q) : b.lowestAvailableSeq.1.Holds Q := by
  unfold Holds
  rw [lowestAvailableSeq_slots]
  exact h

theorem popped (h : b.Holds Q) (hpop : b.popNext.2 = some p) : Q p :=
  have ⟨i, hp⟩ := popNext_stored hpop
  h i p hp

end JitterBuffer.Holds

namespace FrameDecoder

variable {F : Type} [Binary32 F] [FrameMark F] {C : Codec F} {d : FrameDecoder C}

theorem even_load (d : FrameDecoder C) {samples : DecodedFrame F} (h : Even samples.val.length) :
    Even (d.load samples).decodeLen := by
  change Even (samples.val.map _).length
  rwa [List.length_map]

theorem even_silence : Even (silence : DecodedFrame F).val.length := by
  rw [silence, List.length_replicate]
  exact even_mul_opusChannels opusFrameSize

theorem even_decoded (frames : StereoFrames F) : Even frames.decoded.val.length := by
  rw [StereoFrames.decoded, interleave_length]
  exact even_two_mul _

/-- An answer of the codec is whole sample frames; a refusal leaves the buffer as it was. -/
theorem accept_cases (d : FrameDecoder C) (answer : C.State × Option (StereoFrames F)) :
    ((d.accept answer).2 = true ∧ Even (d.accept answer).1.decodeLen) ∨
      ((d.accept answer).2 = false ∧ (d.accept answer).1.decodeBuf = d.decodeBuf) := by
  unfold accept
  split
  · next frames => exact Or.inl ⟨rfl, d.even_load (even_decoded frames)⟩
  · exact Or.inr ⟨rfl, rfl⟩

theorem even_decodePlc (d : FrameDecoder C) : Even d.decodePlc.decodeLen := by
  unfold decodePlc
  obtain ⟨hok, heven⟩ | ⟨hno, -⟩ := d.accept_cases (C.decodeFloat d.decoder [])
  · split
    · next d' hd => 
      rw [hd] at heven
      exact heven
    · next d' hd => 
      rw [hd] at hok
      cases hok
  · split
    · next d' hd =>
      rw [hd] at hno
      cases hno
    · exact even_load _ even_silence

theorem even_captureUncompressed (d : FrameDecoder C) {pkt : RawPacket}
    (hpkt : Even (f32Len pkt)) : Even (d.captureUncompressed pkt).decodeLen := by
  unfold captureUncompressed
  split
  · exact d.even_decodePlc
  · refine d.even_load ?_
    have hlength : (pcmFrame pkt : DecodedFrame F).val.length = f32Len pkt :=
      pcmSamples_length _ _ (Nat.min_le_left _ _)
    rwa [hlength]

/-- A packet of whole sample frames is decoded to whole sample frames. -/
theorem even_capture (d : FrameDecoder C) {pkt : RawPacket} (hpkt : pkt.IsStereo) :
    Even (d.capture pkt).decodeLen := by
  unfold capture
  dsimp only
  generalize d.bridgeGap pkt.seqNum = d
  split
  · exact d.even_load even_silence
  · next hsilent =>
    split
    · next hraw => exact d.even_captureUncompressed (hpkt (Bool.not_eq_true _ ▸ hsilent) hraw)
    · obtain ⟨hok, heven⟩ | ⟨hno, -⟩ := d.accept_cases (C.decodeFloat d.decoder pkt.payload)
      · split
        · next d' hd =>
          rw [decodeOpus] at hd
          rw [hd] at heven
          exact heven
        · next d' hd =>
          rw [decodeOpus] at hd
          rw [hd] at hok
          cases hok
      · split
        · next d' hd =>
          rw [decodeOpus] at hd
          rw [hd] at hno
          cases hno
        · exact even_decodePlc _

theorem even_mapBuf {g : ℕ → F → F} (h : Even d.decodeLen) : Even (d.mapBuf g).decodeLen := by
  change Even (d.decodeBuf.val.mapIdx g).length
  rw [List.length_mapIdx]
  exact h

end FrameDecoder

namespace JitterBufferManager

variable {F : Type} [Binary32 F] [FrameMark F] {C : Codec F}

/-- Everything the player thread holds and has appended is whole sample frames; the playback
buffer is too, if the device takes whole ones. -/
structure IsStereo (device : Prop) (m : JitterBufferManager C) : Prop where
  decoded : Even m.decoder.decodeLen
  timescale : m.timescale.IsStereo
  stored : m.buffer.Holds RawPacket.IsStereo
  emitted : ∀ e ∈ m.emissions, Even e.samples.length
  queued : device → Even m.playbackBuf.length

namespace IsStereo

variable {device : Prop} {m m' : JitterBufferManager C} {ctx : FrameContext} {pkt : RawPacket}

theorem new (config : JitterConfig F) (networkLink : NetworkLink) (clock : Instant) :
    (JitterBufferManager.new C config networkLink clock).IsStereo device :=
  ⟨Even.zero, .new, .none rfl, by rintro e ⟨⟩, fun _ => Even.zero⟩

theorem emit (h : m.IsStereo device) (source : Source F) {samples : List F}
    (hsamples : Even samples.length) : (m.emit source samples).IsStereo device := by
  refine ⟨h.decoded, h.timescale, h.stored, fun e he => ?_, fun hd => ?_⟩
  · obtain hold | hnew := List.mem_append.mp he
    · exact h.emitted e hold
    · rw [List.mem_singleton.mp hnew]
      exact hsamples
  · exact even_append (h.queued hd) hsamples

theorem capture (h : m.IsStereo device) (hpkt : pkt.IsStereo) :
    (m.capture pkt).IsStereo device :=
  ⟨m.decoder.even_capture hpkt, h.timescale, h.stored, h.emitted, h.queued⟩

theorem setBuffer (h : m.IsStereo device) {buffer : JitterBuffer}
    (hbuffer : buffer.Holds RawPacket.IsStereo) :
    IsStereo device { m with buffer } :=
  ⟨h.decoded, h.timescale, hbuffer, h.emitted, h.queued⟩

theorem setTimescale (h : m.IsStereo device) {timescale : TimeScaler F}
    (htimescale : timescale.IsStereo) : IsStereo device { m with timescale } :=
  ⟨h.decoded, htimescale, h.stored, h.emitted, h.queued⟩

theorem setDecoder (h : m.IsStereo device) {decoder : FrameDecoder C}
    (hdecoder : Even decoder.decodeLen) : IsStereo device { m with decoder } :=
  ⟨hdecoder, h.timescale, h.stored, h.emitted, h.queued⟩

/-- The packet popped next is decoded. -/
theorem capturePopped (h : m.IsStereo device) {buffer : JitterBuffer}
    (hpop : m.buffer.popNext = (buffer, some pkt)) :
    ({ m with buffer }.capture pkt).IsStereo device := by
  have hdrops := m.buffer.popNext_drops
  rw [hpop] at hdrops
  exact (h.setBuffer (h.stored.of_drops hdrops)).capture
    (h.stored.popped (congrArg Prod.snd hpop))

theorem keeps (h : m.IsStereo device) (hkeeps : m.Keeps m') : m'.IsStereo device := by
  refine ⟨?_, ?_, ?_, ?_, ?_⟩
  · rw [hkeeps.decoder]
    exact h.decoded
  · rw [hkeeps.timescale]
    exact h.timescale
  · rw [hkeeps.buffer]
    exact h.stored
  · rw [hkeeps.emissions]
    exact h.emitted
  · rw [hkeeps.playbackBuf]
    exact h.queued

section Flush

theorem flushLoop (h : m.IsStereo device) (flushTo fuel : ℕ) :
    (m.flushLoop flushTo fuel).IsStereo device := by
  induction fuel generalizing m with
  | zero => exact h
  | succ fuel ih =>
    unfold JitterBufferManager.flushLoop
    split
    · split
      · next hpop => exact ih (h.capturePopped hpop)
      · next buffer hpop =>
        have hdrops := m.buffer.popNext_drops
        rw [hpop] at hdrops
        exact ih (h.setBuffer ((h.stored.of_drops hdrops).of_drops buffer.advanceOne_drops))
    · exact h

theorem spliceFlush (h : m.IsStereo device) {preFlushLen : ℕ} (hlen : Even preFlushLen) :
    (m.spliceFlush preFlushLen).IsStereo device := by
  unfold JitterBufferManager.spliceFlush
  split
  · split
    · next hsome => exact h.emit .flush (h.timescale.overlapAdd hlen h.decoded hsome)
    · exact (h.emit .flush (h.timescale.snapshotted hlen)).emit .flush h.decoded
  · exact h

theorem flushWithCrossfade (h : m.IsStereo device) (flushTo : ℕ) :
    (m.flushWithCrossfade flushTo).IsStereo device := by
  have hbegun : (m.beginFlush flushTo).IsStereo device :=
    ⟨h.decoded, h.timescale.snapshot h.decoded, h.stored, h.emitted, h.queued⟩
  unfold JitterBufferManager.flushWithCrossfade
  split
  · exact h
  · exact (hbegun.flushLoop flushTo bufferCapacity).spliceFlush h.decoded

theorem settles (h : m.IsStereo device) (hsettles : m.Settles m') : m'.IsStereo device := by
  refine hsettles.preserves (fun a b hstep ha => ?_) h
  cases hstep with
  | keep hkeeps => exact ha.keeps hkeeps
  | flush flushTo => exact ha.flushWithCrossfade flushTo

end Flush

section Gap

theorem skipGapTo (h : m.IsStereo device) (lo : UInt64) : (m.skipGapTo lo).IsStereo device := by
  have hskipped : (m.buffer.fastForward lo).Holds RawPacket.IsStereo :=
    h.stored.of_drops (m.buffer.skipTo_drops lo)
  unfold JitterBufferManager.skipGapTo
  dsimp only
  split
  · exact ⟨h.decoded, h.timescale, hskipped, h.emitted, h.queued⟩
  · exact ⟨h.decoded, h.timescale, hskipped, h.emitted, h.queued⟩

theorem tryFastForwardOverGap (h : m.IsStereo device) (ctx : FrameContext) :
    (m.tryFastForwardOverGap ctx).IsStereo device := by
  have hlowest := h.stored.lowestAvailableSeq
  unfold JitterBufferManager.tryFastForwardOverGap
  split
  · dsimp only
    split
    · next buffer lo hlow =>
      rw [hlow] at hlowest
      have hlooked : IsStereo device { m with
          buffer, flow := { m.flow with gapHoldCount := m.flow.gapHoldCount + 1 } } :=
        ⟨h.decoded, h.timescale, hlowest, h.emitted, h.queued⟩
      split
      · exact hlooked.skipGapTo lo
      · exact hlooked
    · next buffer hlow =>
      rw [hlow] at hlowest
      split
      · exact ⟨h.decoded, h.timescale, hlowest.of_drops buffer.advanceOne_drops, h.emitted,
          h.queued⟩
      · exact ⟨h.decoded, h.timescale, hlowest, h.emitted, h.queued⟩
  · exact h

end Gap

section Play

theorem decodeNext (h : m.IsStereo device) (ctx : FrameContext) (hpkt : pkt.IsStereo) :
    (m.decodeNext ctx pkt).IsStereo device := by
  refine capture ?_ hpkt
  exact ⟨h.decoded, h.timescale.remember h.decoded, h.stored, h.emitted, h.queued⟩

theorem maskSplice (h : m.IsStereo device) : m.maskSplice.IsStereo device := by
  unfold JitterBufferManager.maskSplice
  dsimp only
  split
  · exact ⟨FrameDecoder.even_mapBuf h.decoded, h.timescale.forget, h.stored, h.emitted, h.queued⟩
  · exact ⟨h.decoded, h.timescale, h.stored, h.emitted, h.queued⟩

theorem shedLoop (h : m.IsStereo device) (highLimit n : ℕ) :
    (m.shedLoop highLimit n).IsStereo device := by
  induction n generalizing m with
  | zero => exact h
  | succ n ih =>
    unfold JitterBufferManager.shedLoop
    split
    · split
      · next hpop =>
        have hshed := h.capturePopped hpop
        exact ih ⟨hshed.decoded, hshed.timescale, hshed.stored, hshed.emitted, hshed.queued⟩
      · exact h
    · exact ih h

theorem shedSilence (h : m.IsStereo device) (ctx : FrameContext) (highLimit : ℕ) :
    (m.shedSilence ctx highLimit).IsStereo device := by
  have hshed := (h.emit .shed h.decoded).shedLoop highLimit
    (min (max ((Binary32.toNat m.flow.filteredBufferLevel - highLimit) / 2) 1) 4)
  exact ⟨hshed.decoded, hshed.timescale.forget, hshed.stored, hshed.emitted, hshed.queued⟩

theorem stageWindow (h : m.IsStereo device) : m.stageWindow.IsStereo device := by
  have hbegun := h.setTimescale (h.timescale.windowBegin h.decoded)
  unfold JitterBufferManager.stageWindow
  dsimp only
  split
  · split
    · next hpop =>
      have hstaged := hbegun.capturePopped hpop
      exact ⟨hstaged.decoded, hstaged.timescale.windowExtend hstaged.decoded, hstaged.stored,
        hstaged.emitted, hstaged.queued⟩
    · exact hbegun
  · exact hbegun

theorem drain (h : m.IsStereo device) (ctx : FrameContext) (isFast : Bool) (rms : F) :
    (m.drain ctx isFast rms).IsStereo device := by
  have hstaged := h.stageWindow
  unfold JitterBufferManager.drain
  dsimp only
  split
  · next hsome =>
    have hshort := hstaged.emit .accelerated (hstaged.timescale.accelerate hsome)
    split <;>
      exact ⟨hshort.decoded, hshort.timescale, hshort.stored, hshort.emitted, hshort.queued⟩
  · have hwhole := hstaged.emit .declined hstaged.timescale.accelWindow
    exact ⟨hwhole.decoded, hwhole.timescale, hwhole.stored, hwhole.emitted, hwhole.queued⟩

theorem growSilence (h : m.IsStereo device) : m.growSilence.IsStereo device := by
  have hsilence : Even (List.replicate m.decoder.decodeLen (0.0 : F)).length := by
    rw [List.length_replicate]
    exact h.decoded
  have hgrown := h.emit .growth (even_append h.decoded hsilence)
  exact ⟨hgrown.decoded, hgrown.timescale, hgrown.stored, hgrown.emitted, hgrown.queued⟩

theorem stretch (h : m.IsStereo device) (rms : F) : (m.stretch rms).1.IsStereo device := by
  obtain ⟨conceal, hspliced⟩ : ∃ conceal,
      (if decide (m.buffer.occupiedCount ≤ 1) = true
        then m.timescale.expandConceal m.decoder.decoded rms
        else m.timescale.expand m.decoder.decoded rms) =
          m.timescale.expandInner m.decoder.decoded rms conceal := by
    split
    · exact ⟨true, rfl⟩
    · exact ⟨false, rfl⟩
  obtain ⟨htimescale, hout⟩ := h.timescale.expandInner h.decoded rms conceal
  unfold JitterBufferManager.stretch
  dsimp only
  rw [hspliced]
  split
  · next hanswer =>
    rw [hanswer] at htimescale hout
    have hlong := (h.setTimescale htimescale).emit (.expanded m.decoder.decoded)
      (hout _ rfl)
    exact ⟨hlong.decoded, hlong.timescale, hlong.stored, hlong.emitted, hlong.queued⟩
  · next hanswer =>
    rw [hanswer] at htimescale
    exact ⟨h.decoded, htimescale, h.stored, h.emitted, h.queued⟩

theorem scales (h : m.IsStereo device) {answer : JitterBufferManager C × Bool}
    (hscales : m.Scales ctx answer) : answer.1.IsStereo device := by
  cases hscales with
  | shed highLimit => exact h.shedSilence ctx highLimit
  | drained isFast rms => exact h.drain ctx isFast rms
  | grown => exact h.growSilence
  | stretched rms => exact h.stretch rms
  | left => exact h

theorem playPrepared (h : m.IsStereo device) (ctx : FrameContext) :
    (m.playPrepared ctx).IsStereo device := by
  obtain ⟨f, -, hscales⟩ := m.runTimescale_cases ctx
  have hcounted : (m.count f).IsStereo device :=
    ⟨h.decoded, h.timescale, h.stored, h.emitted, h.queued⟩
  have hscaled := hcounted.scales hscales
  unfold JitterBufferManager.playPrepared
  split
  · next hanswer =>
    rw [hanswer] at hscaled
    exact hscaled
  · next hanswer =>
    rw [hanswer] at hscaled
    exact hscaled.emit .verbatim hscaled.decoded

theorem playNextFrame (h : m.IsStereo device) (ctx : FrameContext) :
    (m.playNextFrame ctx).IsStereo device := by
  obtain ⟨control, flow, heq, -⟩ := m.endOutage_eq ctx
  have hended : (m.endOutage ctx).IsStereo device := by
    rw [heq]
    exact ⟨h.decoded, h.timescale, h.stored, h.emitted, h.queued⟩
  unfold JitterBufferManager.playNextFrame
  dsimp only
  split
  · next buffer pkt hpop =>
    have hdrops := (m.endOutage ctx).buffer.popNext_drops
    rw [hpop] at hdrops
    have hpkt := hended.stored.popped (congrArg Prod.snd hpop)
    exact ((hended.setBuffer (hended.stored.of_drops hdrops)).decodeNext ctx
      hpkt).maskSplice.playPrepared ctx
  · exact hended

end Play

section Conceal

theorem extendConcealRun (h : m.IsStereo device) : m.extendConcealRun.IsStereo device :=
  ⟨h.decoded, h.timescale, h.stored, h.emitted, h.queued⟩

theorem concealInto (h : m.IsStereo device) : m.concealInto.1.IsStereo device := by
  obtain ⟨htimescale, hout⟩ := h.timescale.concealFrame
  unfold JitterBufferManager.concealInto
  split
  · exact h.setDecoder (m.decoder.even_decodePlc)
  · split
    · next hanswer =>
      rw [hanswer] at htimescale hout
      exact ⟨m.decoder.even_load (hout _ rfl), htimescale, h.stored, h.emitted, h.queued⟩
    · next hanswer =>
      rw [hanswer] at htimescale
      exact ⟨m.decoder.even_decodePlc, htimescale, h.stored, h.emitted, h.queued⟩

theorem fadeConceal (h : m.IsStereo device) : m.fadeConceal.IsStereo device := by
  unfold JitterBufferManager.fadeConceal
  split
  · dsimp only
    split <;>
      exact ⟨FrameDecoder.even_mapBuf h.decoded, h.timescale, h.stored, h.emitted, h.queued⟩
  · exact h

theorem generatePlc (h : m.IsStereo device) : m.generatePlc.IsStereo device := by
  have hfaded := h.extendConcealRun.concealInto.fadeConceal
  exact hfaded.emit _ hfaded.decoded

theorem triggerReset (h : m.IsStereo device) : m.triggerReset.IsStereo device :=
  ⟨Even.zero, h.timescale.forget, .none rfl, h.emitted, fun _ => Even.zero⟩

theorem resetSilence (h : m.IsStereo device) :
    (m.triggerReset.emit .resetSilence silence.val).IsStereo device :=
  h.triggerReset.emit .resetSilence FrameDecoder.even_silence

theorem setFlow (h : m.IsStereo device) (flow : PlaybackFlow F) :
    IsStereo device { m with flow } :=
  ⟨h.decoded, h.timescale, h.stored, h.emitted, h.queued⟩

theorem hold (h : m.IsStereo device) : m.hold.IsStereo device := by
  obtain ⟨-, -, flow, heq⟩ | ⟨flow, heq, -⟩ := m.hold_cases
  · rw [heq]
    exact (h.setFlow flow).resetSilence
  · rw [heq]
    exact (h.setFlow flow).generatePlc

theorem handleMissingFrame (h : m.IsStereo device) (ctx : FrameContext) :
    (m.handleMissingFrame ctx).IsStereo device := by
  obtain ⟨-, flow, heq⟩ | ⟨-, flow, heq, -⟩ := m.handleMissingFrame_cases ctx
  · rw [heq]
    exact (h.setFlow flow).resetSilence
  · rw [heq]
    exact (h.setFlow flow).generatePlc

end Conceal

section Run

theorem settleDepth (h : m.IsStereo device) (tick : Tick F) :
    (m.settleDepth tick).1.IsStereo device := by
  obtain ⟨m', hbefore, hafter, -⟩ := m.settleDepth_cases tick
  exact ((h.settles hbefore).keeps (m'.resolveTarget_keeps tick)).settles hafter

theorem processNextFrame (h : m.IsStereo device) (tick : Tick F) :
    (m.processNextFrame tick).1.IsStereo device := by
  obtain ⟨-, -, -, heq⟩ | ⟨p, ctx, hpoint, heq⟩ := m.processNextFrame_cases tick
  · rw [heq]
    exact (h.settleDepth tick).hold
  · obtain ⟨g, hg, rfl⟩ := framePoint_cases hpoint
    have hreached :=
      ((h.settleDepth tick).settles (gapPoint_cases hg).2).tryFastForwardOverGap ctx
    rw [heq, playOrMiss]
    split
    · exact hreached.playNextFrame ctx
    · exact hreached.handleMissingFrame ctx

theorem ingestPacket (h : m.IsStereo device) (hpkt : pkt.IsStereo) :
    (m.ingestPacket pkt).IsStereo device := by
  have hinserted := h.stored.insert hpkt
  unfold JitterBufferManager.ingestPacket
  split
  · exact h
  · split <;> next hinsert =>
      rw [hinsert] at hinserted
      exact ⟨h.decoded, h.timescale, hinserted, h.emitted, h.queued⟩

theorem ingestPackets (h : m.IsStereo device) {pkts : List RawPacket}
    (hpkts : ∀ p ∈ pkts, p.IsStereo) : (m.ingestPackets pkts).IsStereo device := by
  induction pkts generalizing m with
  | nil => exact h
  | cons pkt pkts ih =>
    obtain ⟨hpkt, hpkts⟩ := List.forall_mem_cons.mp hpkts
    exact ih (h.ingestPacket hpkt) hpkts

end Run

end IsStereo

end JitterBufferManager

namespace JitterBufferManager

/-- The packets of an input are whole sample frames. -/
def Input.IsStereo {F : Type} : Input F → Prop
  | .ingest pkts => ∀ p ∈ pkts, p.IsStereo
  | _ => True

instance {F : Type} : DecidablePred (Input.IsStereo : Input F → Prop)
  | .ingest pkts => inferInstanceAs (Decidable (∀ p ∈ pkts, p.IsStereo))
  | .callback _ | .consume _ | .reset => .isTrue trivial

/-- The device takes whole sample frames. -/
def Input.TakesFrames {F : Type} : Input F → Prop
  | .consume take => Even take
  | _ => True

variable {F : Type} [Binary32 F] [FrameMark F] {C : Codec F}

/-- One step keeps everything in whole sample frames. -/
theorem IsStereo.step {device : Prop} {m : JitterBufferManager C} (h : m.IsStereo device)
    {i : Input F} (hpackets : i.IsStereo) (htakes : device → i.TakesFrames) :
    (m.step i).1.IsStereo device := by
  cases i with
  | ingest pkts => exact h.ingestPackets hpackets
  | callback tick =>
    unfold JitterBufferManager.step
    dsimp only
    split
    · refine processNextFrame ?_ tick
      exact ⟨h.decoded, h.timescale, h.stored, by rintro e ⟨⟩, h.queued⟩
    · exact h
  | consume take =>
    exact ⟨h.decoded, h.timescale, h.stored, h.emitted,
      fun hd => even_drop (h.queued hd) (htakes hd)⟩
  | reset => exact h.triggerReset

/-- In every run on packets of whole sample frames every append to the playback buffer is whole
sample frames; a device that takes whole ones finds left and right where they belong. -/
theorem aligned_of_run (C : Codec F) (config : JitterConfig F) (networkLink : NetworkLink)
    (clock : Instant) (inputs : List (Input F)) (hpackets : ∀ i ∈ inputs, i.IsStereo) :
    (∀ e ∈ (machine C config networkLink clock).events inputs, ∀ a ∈ e.after.emissions,
      Even a.samples.length) ∧
    ((∀ i ∈ inputs, i.TakesFrames) →
      Even ((machine C config networkLink clock).run inputs).playbackBuf.length) := by
  obtain ⟨hevents, hlast⟩ := (machine C config networkLink clock).invariant
    (I := IsStereo (∀ i ∈ inputs, i.TakesFrames)) (p := fun _ i => i ∈ inputs)
    (.new config networkLink clock)
    (fun m i h hi => h.step (hpackets i hi) fun htakes => htakes i hi)
    fun e he => Machine.input_mem _ he
  exact ⟨fun e he => (hevents e he).2.emitted, hlast.queued⟩

theorem aligned_of_run_reorderedInputs :
    (∀ e ∈ (machine (Codec.unfed SoftFloat) eagerConfig .ethernet 0).events reorderedInputs,
      ∀ a ∈ e.after.emissions, Even a.samples.length) ∧
    ((∀ i ∈ reorderedInputs, i.TakesFrames) →
      Even ((machine (Codec.unfed SoftFloat) eagerConfig .ethernet 0).run
        reorderedInputs).playbackBuf.length) :=
  aligned_of_run (Codec.unfed SoftFloat) eagerConfig .ethernet 0 reorderedInputs
    (by decide +kernel)

theorem length_strayPayload_le : (List.replicate 4 (0 : UInt8)).length ≤ maxPacketPayload := by
  decide

/-- A raw packet of a single sample. -/
def rawStray (seqNum : UInt64) : RawPacket :=
  ⟨seqNum, List.replicate 4 0, 0, true, false, length_strayPayload_le⟩

/-- A packet of a single sample, as it comes off the wire, is appended as it is. -/
theorem not_aligned_rawStray :
    AudioPacketDecoder.decode [0, 0, 0, 0, 0, 0, 0, 5, 1, 0, 0, 0, 0] 13 0 = .ok (rawStray 5) ∧
      ¬∀ e ∈ (machine (Codec.unfed SoftFloat) { eagerConfig with staticTargetMs := some 10 }
          .ethernet 0).events [.ingest [rawStray 5], .callback (steadyTick 3)],
        ∀ a ∈ e.after.emissions, Even a.samples.length := by
  refine ⟨by decide +kernel, fun h => ?_⟩
  have hstray := h _ (List.mem_cons_of_mem _ List.mem_cons_self)
  revert hstray
  decide +kernel

end JitterBufferManager

end Gemacast.Jitter
