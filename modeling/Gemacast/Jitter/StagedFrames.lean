import Gemacast.Jitter.Ledger
import Gemacast.Jitter.Splices

/-!
# Staged frames

When the filtered level is too high, the frame about to play and the packet behind it are
staged in one window and shortened. Both reach the playback buffer, by one append and in
no other way, whether the window is shortened or not.
-/

set_option linter.unusedSectionVars false

namespace Gemacast.Jitter

open Gemacast.Core

namespace JitterBufferManager

variable {F : Type} [Binary32 F] [FrameMark F] {C : Codec F} {m : JitterBufferManager C}
  {ctx : FrameContext}

/-- The time-scaler drains: splices are allowed, the filtered level has reached the high
limit, no silent frame can be shed, and the drain is fast or has waited out its cooldown. -/
def Accelerates (m : JitterBufferManager C) (ctx : FrameContext) : Prop :=
  let high := (TargetController.bufferLimits ctx.target).high
  m.flow.stretchAllowed ctx.now = true ∧ Binary32.ofNat high ≤ m.flow.filteredBufferLevel ∧
    ¬(getRms m.decoder.decoded < silenceRms ∧ m.buffer.hasNext = true) ∧
    (Binary32.ofNat (emergencyThreshold high) ≤ m.flow.filteredBufferLevel ∨
      m.timescaleCooldown = 0)

instance (m : JitterBufferManager C) (ctx : FrameContext) : Decidable (m.Accelerates ctx) :=
  inferInstanceAs (Decidable (_ ∧ _ ∧ _ ∧ _))

/-- The packet popped to extend the window. -/
def stagedPacket (m : JitterBufferManager C) : Option RawPacket :=
  if m.buffer.hasNext = true then m.buffer.popNext.2 else none

/-- The samples of the frame about to play and of the packet behind it. -/
def stagedSamples (m : JitterBufferManager C) : List F :=
  m.decoder.decoded ++ (m.stagedPacket.map fun pkt => (m.decoder.capture pkt).decoded).getD []

/-- The window extended by the packet that was popped for it. -/
def extendWindow (m : JitterBufferManager C) (pkt : RawPacket) : TimeScaler F × Bool :=
  (m.timescale.windowBegin m.decoder.decoded).windowExtend (m.decoder.capture pkt).decoded

/-- Between `m` and `m'` the staged frames were emitted once: the packet popped for the
window fits it, and the one append is the window, or the window without a pitch period. -/
structure EmitsStaged (m m' : JitterBufferManager C) : Prop where
  staged : m.stagedPacket.isSome = m.buffer.hasNext
  popped : m'.buffer = if m.buffer.hasNext = true then m.buffer.popNext.1 else m.buffer
  decoded : m'.decoder = (m.stagedPacket.map m.decoder.capture).getD m.decoder
  fits : ∀ pkt, m.stagedPacket = some pkt → (m.extendWindow pkt).2 = true
  emitted : ∃ e : Emission F, m'.emissions = m.emissions ++ [e] ∧
    m'.playbackBuf = m.playbackBuf ++ e.samples ∧
    (e.source = .declined ∧ e.samples = m.stagedSamples ∨
      e.source = .accelerated ∧
        ∃ k bestD pitchPeriod, Shortened m.stagedSamples e.samples k bestD pitchPeriod)

theorem decoded_length_le (d : FrameDecoder C) : d.decoded.length ≤ opusFrameSamples :=
  d.decodeBuf.property

/-- One frame fits the window whole. -/
theorem windowBegin_decoded (ts : TimeScaler F) (d : FrameDecoder C) :
    (ts.windowBegin d.decoded).accelWindow = d.decoded := by
  apply List.take_of_length_le
  exact (decoded_length_le d).trans (by decide)

/-- A second frame fits behind it. -/
theorem windowExtend_decoded (ts : TimeScaler F) (d d' : FrameDecoder C) :
    (ts.windowBegin d.decoded).windowExtend d'.decoded =
      ({ ts.windowBegin d.decoded with accelWindow := d.decoded ++ d'.decoded }, true) := by
  have hfirst := decoded_length_le d
  have hsecond := decoded_length_le d'
  have htwo : accelWindowSamples = opusFrameSamples + opusFrameSamples := rfl
  unfold TimeScaler.windowExtend
  rw [windowBegin_decoded, if_neg (by omega)]

/-- A packet is staged whenever the next one is there. -/
theorem stagedPacket_eq (h : m.buffer.hasNext = true) :
    ∃ pkt, m.stagedPacket = some pkt ∧ m.buffer.popNext = (m.buffer.popNext.1, some pkt) := by
  obtain ⟨pkt, hpop⟩ := JitterBuffer.exists_popNext h
  exact ⟨pkt, (if_pos h).trans hpop, Prod.ext rfl hpop⟩

theorem stagedPacket_none (h : m.buffer.hasNext = false) : m.stagedPacket = none :=
  if_neg (by simp [h])

/-- Staging pops the next packet when it is there, puts its frame into the window and
appends nothing. -/
theorem stageWindow_spec (m : JitterBufferManager C) :
    m.stageWindow.buffer = (if m.buffer.hasNext = true then m.buffer.popNext.1 else m.buffer) ∧
      m.stageWindow.decoder = (m.stagedPacket.map m.decoder.capture).getD m.decoder ∧
      m.stageWindow.timescale.accelWindow = m.stagedSamples ∧
      m.stageWindow.emissions = m.emissions ∧ m.stageWindow.playbackBuf = m.playbackBuf := by
  have hroom : m.decoder.decodeLen ≤
      (m.timescale.windowBegin m.decoder.decoded).windowHeadroom := by
    have hfirst := decoded_length_le m.decoder
    have htwo : accelWindowSamples = opusFrameSamples + opusFrameSamples := rfl
    rw [TimeScaler.windowHeadroom, windowBegin_decoded, FrameDecoder.decodeLen]
    omega
  unfold stageWindow stagedSamples
  dsimp only
  cases hnext : m.buffer.hasNext with
  | true =>
    obtain ⟨pkt, hstaged, hpop⟩ := stagedPacket_eq hnext
    rw [if_pos ⟨rfl, hroom⟩, hpop, hstaged]
    refine ⟨rfl, rfl, ?_, rfl, rfl⟩
    exact congrArg (fun answer => TimeScaler.accelWindow answer.1)
      (windowExtend_decoded m.timescale m.decoder (m.decoder.capture pkt))
  | false =>
    rw [if_neg (by simp), stagedPacket_none hnext]
    refine ⟨rfl, rfl, ?_, rfl, rfl⟩
    rw [Option.map_none, Option.getD_none, List.append_nil]
    exact windowBegin_decoded m.timescale m.decoder

/-- Draining emits the staged frames once. -/
theorem drain_emitsStaged (m : JitterBufferManager C) (ctx : FrameContext) (isFast : Bool)
    (rms : F) : m.EmitsStaged (m.drain ctx isFast rms) := by
  obtain ⟨hbuffer, hdecoder, hwindow, hemissions, hplayback⟩ := m.stageWindow_spec
  have hstaged : m.stagedPacket.isSome = m.buffer.hasNext := by
    cases hnext : m.buffer.hasNext with
    | true =>
      obtain ⟨pkt, hpkt, -⟩ := stagedPacket_eq hnext
      rw [hpkt]
      rfl
    | false =>
      rw [stagedPacket_none hnext]
      rfl
  have hfits : ∀ pkt, m.stagedPacket = some pkt → (m.extendWindow pkt).2 = true := by
    intro pkt _
    rw [extendWindow, windowExtend_decoded]
  unfold drain
  dsimp only
  cases hsplice : m.stageWindow.timescale.accelerate isFast rms with
  | none =>
    refine ⟨hstaged, hbuffer, hdecoder, hfits, ⟨.declined, m.stagedSamples⟩, ?_, ?_,
      Or.inl ⟨rfl, rfl⟩⟩
    · change m.stageWindow.emissions ++ [⟨.declined, m.stageWindow.timescale.accelWindow⟩] = _
      rw [hemissions, hwindow]
    · change m.stageWindow.playbackBuf ++ m.stageWindow.timescale.accelWindow = _
      rw [hplayback, hwindow]
  | some answer =>
    obtain ⟨bestD, pitchPeriod, hshort⟩ := TimeScaler.accelerate_shortened hsplice
    rw [hwindow] at hshort
    have hemitted : m.stageWindow.emissions ++ [⟨.accelerated, answer.1⟩] =
        m.emissions ++ [⟨.accelerated, answer.1⟩] := by rw [hemissions]
    have hplayed : m.stageWindow.playbackBuf ++ answer.1 = m.playbackBuf ++ answer.1 := by
      rw [hplayback]
    cases isFast <;>
      exact ⟨hstaged, hbuffer, hdecoder, hfits, ⟨.accelerated, answer.1⟩, hemitted, hplayed,
        Or.inr ⟨rfl, answer.2, bestD, pitchPeriod, hshort⟩⟩

/-- On the accelerate path the time-scaler drains and reports the frame as emitted. -/
theorem runTimescale_of_accelerates (h : m.Accelerates ctx) :
    ∃ isFast, m.runTimescale ctx = (m.drain ctx isFast (getRms m.decoder.decoded), true) := by
  obtain ⟨hallowed, hhigh, hloud, hdue⟩ := h
  unfold runTimescale
  dsimp only
  rw [hallowed, decide_eq_true hhigh]
  simp only [Bool.true_eq_false, and_false, and_self, if_false, if_true]
  rw [if_neg hloud, if_pos]
  · exact ⟨_, rfl⟩
  · exact hdue.imp decide_eq_true id

/-- Whenever the time-scaler enters the accelerate path, the frame about to play and the
packet popped to extend its window are emitted once. -/
theorem staged_emittedOnce (m : JitterBufferManager C) (ctx : FrameContext)
    (h : m.Accelerates ctx) :
    (m.runTimescale ctx).2 = true ∧ m.EmitsStaged (m.playPrepared ctx) := by
  obtain ⟨isFast, hanswer⟩ := runTimescale_of_accelerates h
  unfold playPrepared
  rw [hanswer]
  exact ⟨rfl, m.drain_emitsStaged ctx isFast _⟩

theorem length_loudPayload_le : [0, 0, 128, 63, 0, 0, 128, 63].length ≤ maxPacketPayload := by
  decide

/-- A raw packet of one loud sample frame. -/
def rawLoud (seqNum : UInt64) : RawPacket :=
  ⟨seqNum, [0, 0, 128, 63, 0, 0, 128, 63], 0, true, false, length_loudPayload_le⟩

/-- A frame about to play, a packet behind it and a filtered level far above the target. -/
def overfullManager : JitterBufferManager (Codec.unfed SoftFloat) :=
  let m := (new (Codec.unfed SoftFloat) eagerConfig .ethernet 0).capture (rawLoud 5)
  { m with
    buffer := (m.buffer.insert (rawLoud 6)).1
    flow := { m.flow with filteredBufferLevel := 100.0 } }

theorem staged_emittedOnce_overfullManager :
    (overfullManager.runTimescale ⟨0, 2, 2, 0, false, false⟩).2 = true ∧
      overfullManager.EmitsStaged (overfullManager.playPrepared ⟨0, 2, 2, 0, false, false⟩) :=
  staged_emittedOnce overfullManager ⟨0, 2, 2, 0, false, false⟩ (by decide +kernel)

end JitterBufferManager

end Gemacast.Jitter
