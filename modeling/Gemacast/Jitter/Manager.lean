import Gemacast.Jitter.Buffer
import Gemacast.Jitter.Decoder
import Gemacast.Jitter.Flow
import Gemacast.Jitter.Target
import Gemacast.Jitter.Timescale

/-!
# The jitter buffer manager

One audio callback of the pipeline: it resolves the target depth, flushes, holds
or releases the playhead, skips gaps, plays one frame through the time-scaler or
conceals a missing one. The state is that of the player thread; what a callback
reads from outside is a `Tick`.

Every append to the playback buffer is also recorded, with its source, in the
list of emissions of the current callback.
-/

namespace Gemacast.Jitter

open Gemacast.Core

/-- Concealed callbacks after which a clean link is declared dead. -/
def maxMissingDefault : ℕ := 1000 / millisPerFrame

/-- Concealed callbacks after which a 2.4 GHz link is declared dead. -/
def maxMissing2_4Ghz : ℕ := 3000 / millisPerFrame

/-- Concealed callbacks after which an unknown link is declared dead. -/
def maxMissingUnknown : ℕ := 2000 / millisPerFrame

/-- Callbacks a clean link waits for a reordered packet. -/
def reorderTolerance : ℕ := 30 / millisPerFrame

/-- Callbacks a 2.4 GHz link waits for a reordered packet. -/
def reorderTolerance2_4Ghz : ℕ := 60 / millisPerFrame

/-- Callbacks a link waits for a reordered packet; none without a buffer. -/
def reorderToleranceFor (link : NetworkLink) (isNoBuffer : Bool) : ℕ :=
  if isNoBuffer then 0
  else
    match link with
    | .wifi2_4Ghz => reorderTolerance2_4Ghz
    | _ => reorderTolerance

/-- Concealed callbacks after which a link is declared dead. -/
def maxMissingFor : NetworkLink → ℕ
  | .wifi2_4Ghz => maxMissing2_4Ghz
  | .wifiUnknown | .unknown => maxMissingUnknown
  | _ => maxMissingDefault

/-- Callbacks between splices at a small target. -/
def timescaleIntervalBase : ℕ := 6

/-- Fewest callbacks between splices. -/
def minTimescaleInterval : ℕ := 2

/-- Callbacks between splices at a target. -/
def timescaleInterval (target : ℕ) : ℕ :=
  max (timescaleIntervalBase / max (target / 4) 1) minTimescaleInterval

/-- Callbacks after an expansion. -/
def minExpandInterval : ℕ := 20

/-- Callbacks after a growth on silence. -/
def minSilenceGrowInterval : ℕ := 3

/-- Least overshoot of the emergency tier, in frames. -/
def emergencyMinMargin : ℕ := 50 / millisPerFrame

/-- Level from which the drain is an emergency. -/
def emergencyThreshold (highLimit : ℕ) : ℕ := highLimit + max emergencyMinMargin (highLimit / 2)

/-- Starved callbacks after which the playhead is held. -/
def rebufferAfter : ℕ := 5

/-- Callbacks between depth lines. -/
def logIntervalCallbacks : ℕ := 1000 / millisPerFrame

/-- Sample frames of the fade-in after a discontinuity. -/
def fadeInSamples : ℕ := 96

/-- What the time-scaler and the packet sinks did during one log window. -/
structure TimescaleTally where
  /-- Windows shortened. -/
  accelerated : ℕ
  /-- Frames stretched. -/
  expanded : ℕ
  /-- Packets shed on silence. -/
  shed : ℕ
  /-- Frames of silence appended. -/
  grown : ℕ
  /-- Windows shortened on the emergency tier. -/
  fastAccelerated : ℕ
  /-- Frames stretched before an underrun. -/
  preemptive : ℕ
  /-- Preemptive stretches refused. -/
  declinedPreemptiveNcc : ℕ
  /-- Stretches at the edge of an underrun refused. -/
  declinedUnderrunNcc : ℕ
  /-- Drains put off by the cooldown. -/
  declinedCooldown : ℕ
  /-- Drains put off by the recovery guard. -/
  declinedRecovery : ℕ
  /-- Shortenings refused. -/
  declinedNcc : ℕ
  /-- Splices on loud frames. -/
  loudSplices : ℕ
  /-- Longest concealment run. -/
  concealRunMax : ℕ
  /-- Frames concealed by pitch repetition. -/
  pitchConceals : ℕ
  /-- Concealed frames at the floor gain. -/
  floorFrames : ℕ
  /-- Packets behind the playhead. -/
  staleRejects : ℕ
  /-- Their distances, summed. -/
  staleLagSum : ℕ
  /-- The largest of them. -/
  staleLagMax : ℕ
  /-- Gaps the playhead skipped. -/
  playheadSkips : ℕ
  /-- Frames it skipped. -/
  skippedFrames : ℕ
  /-- Packets flushed. -/
  flushDiscards : ℕ
  /-- Packets popped to extend an accelerate window. -/
  stagedPops : ℕ
  deriving DecidableEq, Repr

/-- The empty tally. -/
def TimescaleTally.zero : TimescaleTally :=
  ⟨0, 0, 0, 0, 0, 0, 0, 0, 0, 0, 0, 0, 0, 0, 0, 0, 0, 0, 0, 0, 0, 0⟩

/-- The accumulators of the depth line. -/
structure LogWindow where
  /-- Callbacks since the last line. -/
  frameCount : ℕ
  /-- When the window opened. -/
  startedAt : Option Instant
  /-- Frames played from packets. -/
  framesPlayed : ℕ
  /-- What the time-scaler did. -/
  tally : TimescaleTally
  deriving DecidableEq, Repr

/-- The packet counts one depth line reports. -/
structure DepthLine where
  /-- Arrivals accepted. -/
  arrivals : ℕ
  /-- Frames played. -/
  played : ℕ
  /-- What the time-scaler did. -/
  tally : TimescaleTally
  /-- Wall clock of the window, in milliseconds. -/
  windowMs : ℕ
  deriving DecidableEq, Repr

/-- A fresh window. -/
def LogWindow.new : LogWindow := ⟨0, none, 0, .zero⟩

/-- Close the window and open the next. -/
def LogWindow.rotate (w : LogWindow) (now : Instant) :
    LogWindow × ℕ × TimescaleTally × Option Duration :=
  (⟨0, some now, 0, .zero⟩, w.framesPlayed, w.tally, w.startedAt.map fun started =>
    now.durationSince started)

/-- Where samples appended to the playback buffer come from. -/
inductive Source (F : Type)
  /-- A decoded frame as it is. -/
  | verbatim
  /-- A silent frame played before packets are shed. -/
  | shed
  /-- A silent frame followed by as much silence. -/
  | growth
  /-- A shortened window. -/
  | accelerated
  /-- A window that could not be shortened. -/
  | declined
  /-- The given frame, stretched. -/
  | expanded (frame : List F)
  /-- The splice of a flush. -/
  | flush
  /-- A frame concealed by the codec. -/
  | codecPlc
  /-- A frame concealed by repeating the given history. -/
  | pitchConceal (history : List F)
  /-- The silence of a stream reset. -/
  | resetSilence
  deriving DecidableEq

/-- One append to the playback buffer. -/
structure Emission (F : Type) where
  /-- Where the samples come from. -/
  source : Source F
  /-- The samples appended. -/
  samples : List F
  deriving DecidableEq

/-- What one callback resolved before it decided what to play. -/
structure FrameContext where
  /-- The clock of the callback. -/
  now : Instant
  /-- The effective target. -/
  target : ℕ
  /-- The raw target. -/
  rawTarget : ℕ
  /-- The configured floor. -/
  minDepth : ℕ
  /-- No buffering was asked for. -/
  isNoBuffer : Bool
  /-- The transport is ADB or USB. -/
  tcpMode : Bool
  deriving DecidableEq, Repr

/-- What a callback reads from outside the player thread. -/
structure Tick (F : Type) where
  /-- The clock. -/
  now : Instant
  /-- The shared configuration, unless it is locked. -/
  sharedConfig : Option (JitterConfig F)
  /-- The clock when a new configuration is taken over. -/
  configClock : Instant
  /-- The transport is ADB or USB. -/
  tcpMode : Bool

/-- The state of the player thread. -/
structure JitterBufferManager {F : Type} (C : Codec F) where
  /-- The decoder. -/
  decoder : FrameDecoder C
  /-- The reorder buffer. -/
  buffer : JitterBuffer
  /-- Samples ready for the device. -/
  playbackBuf : List F
  /-- Dwell time of the last frame played, in milliseconds. -/
  latencyMetric : ℕ
  /-- Network jitter, in milliseconds. -/
  jitterMetric : ℕ
  /-- The configuration in force. -/
  config : JitterConfig F
  /-- The link of the session. -/
  networkLink : NetworkLink
  /-- The time-scaler. -/
  timescale : TimeScaler F
  /-- Callbacks since the configuration was last read. -/
  configCheckCountdown : ℕ
  /-- The arrival statistics. -/
  stats : JitterStats F
  /-- The depth controller. -/
  control : TargetController
  /-- The playback lifecycle. -/
  flow : PlaybackFlow F
  /-- Callbacks until the next splice. -/
  timescaleCooldown : ℕ
  /-- The playhead skipped a gap and the next frame must be faded in. -/
  pendingGapFadein : Bool
  /-- The burst of the session start has not been flushed. -/
  startupFlushPending : Bool
  /-- The accumulators of the depth line. -/
  logWindow : LogWindow
  /-- The appends of the current callback. -/
  emissions : List (Emission F)

namespace JitterBufferManager

variable {F : Type} [Binary32 F] [FrameMark F] {C : Codec F}

/-- The state before the first packet. -/
def new (C : Codec F) (config : JitterConfig F) (networkLink : NetworkLink) (clock : Instant) :
    JitterBufferManager C where
  decoder := FrameDecoder.new
  buffer := JitterBuffer.new
  playbackBuf := []
  latencyMetric := 0
  jitterMetric := 0
  config
  networkLink
  timescale := TimeScaler.new
  configCheckCountdown := 0
  stats := JitterStats.new
  control := TargetController.new clock
  flow := PlaybackFlow.new
  timescaleCooldown := 0
  pendingGapFadein := false
  startupFlushPending := true
  logWindow := LogWindow.new
  emissions := []

/-- Append samples to the playback buffer. -/
def emit (m : JitterBufferManager C) (source : Source F) (samples : List F) :
    JitterBufferManager C :=
  { m with
    playbackBuf := m.playbackBuf ++ samples
    emissions := m.emissions ++ [⟨source, samples⟩] }

/-- Change the tally of the current log window. -/
def count (m : JitterBufferManager C) (f : TimescaleTally → TimescaleTally) :
    JitterBufferManager C :=
  { m with logWindow := { m.logWindow with tally := f m.logWindow.tally } }

/-- Decode a packet into the decode buffer. -/
def capture (m : JitterBufferManager C) (pkt : RawPacket) : JitterBufferManager C :=
  { m with decoder := m.decoder.capture pkt }

/-- The configured floor, in frames. -/
def minDepthFrames (m : JitterBufferManager C) : ℕ := msToFramesCeil m.config.minDepthMs

section Ingest

/-- Count a packet behind the playhead. -/
def rejectStale (m : JitterBufferManager C) (seqNum : UInt64) : JitterBufferManager C :=
  let lag := (saturatingSub m.buffer.nextPlaySeq seqNum).toNat % 2 ^ 32
  m.count fun tally =>
    { tally with
      staleRejects := tally.staleRejects + 1
      staleLagSum := tally.staleLagSum + lag
      staleLagMax := max tally.staleLagMax lag }

/-- Take one packet from the network thread. -/
def ingestPacket (m : JitterBufferManager C) (pkt : RawPacket) : JitterBufferManager C :=
  match m.stats.observe pkt.seqNum pkt.arrivalTime with
  | (_, false) => m
  | (stats, true) =>
    match m.buffer.insert pkt with
    | (buffer, .streamRestarted) => { m with stats, buffer, decoder := m.decoder.resync }
    | (buffer, .stale) => { m with stats, buffer }.rejectStale pkt.seqNum
    | (buffer, .accepted) => { m with stats, buffer }

/-- Take every pending packet from the network thread. -/
def ingestPackets (m : JitterBufferManager C) (pkts : List RawPacket) : JitterBufferManager C :=
  pkts.foldl ingestPacket m

end Ingest

section Flush

/-- Remove packets down to `flushTo`, decoding those that are expected next. -/
def flushLoop (m : JitterBufferManager C) (flushTo : ℕ) : ℕ → JitterBufferManager C
  | 0 => m
  | fuel + 1 =>
    if flushTo < m.buffer.occupiedCount then
      match m.buffer.popNext with
      | (buffer, some pkt) => ({ m with buffer }.capture pkt).flushLoop flushTo fuel
      | (buffer, none) => { m with buffer := buffer.advanceOne }.flushLoop flushTo fuel
    else m

/-- Splice the frame before a flush and the frame after it. -/
def spliceFlush (m : JitterBufferManager C) (preFlushLen : ℕ) : JitterBufferManager C :=
  if 0 < preFlushLen ∧ 0 < m.decoder.decodeLen then
    match m.timescale.overlapAdd preFlushLen m.decoder.decoded true with
    | some out => m.emit .flush out
    | none =>
      (m.emit .flush (m.timescale.snapshotted preFlushLen)).emit .flush m.decoder.decoded
  else m

/-- Count the packets a flush removes and hold the frame in the decode buffer. -/
def beginFlush (m : JitterBufferManager C) (flushTo : ℕ) : JitterBufferManager C :=
  let discards := m.buffer.occupiedCount - flushTo
  { m.count fun tally => { tally with flushDiscards := tally.flushDiscards + discards } with
    timescale := m.timescale.snapshot m.decoder.decoded }

/-- Flush the buffer down to `flushTo` packets with a crossfade over the skip. The
playhead passes at most one window of numbers. -/
def flushWithCrossfade (m : JitterBufferManager C) (flushTo : ℕ) : JitterBufferManager C :=
  if m.buffer.occupiedCount ≤ flushTo then m
  else
    ((m.beginFlush flushTo).flushLoop flushTo bufferCapacity).spliceFlush m.decoder.decodeLen

end Flush

section Reset

/-- Forget the stream. -/
def triggerReset (m : JitterBufferManager C) : JitterBufferManager C :=
  { m with
    buffer := m.buffer.reset
    flow := m.flow.closeStarvationEpisode.resetOnStreamRestart
    playbackBuf := []
    decoder := m.decoder.reset
    stats := m.stats.resetOnStreamRestart
    control := m.control.reset
    pendingGapFadein := false
    timescale := m.timescale.forget }

/-- The missing frames exceed what the link may miss. -/
def outageOver (m : JitterBufferManager C) : Prop :=
  maxMissingFor m.networkLink < m.flow.missingCount

instance (m : JitterBufferManager C) : Decidable m.outageOver :=
  inferInstanceAs (Decidable (_ < _))

/-- Reset the stream after too many missing frames; `true` when it was reset. -/
def checkResetOnMissing (m : JitterBufferManager C) : JitterBufferManager C × Bool :=
  if m.outageOver then (m.triggerReset.emit .resetSilence silence.val, true)
  else (m, false)

end Reset

section Conceal

/-- Count one more concealed frame. -/
def extendConcealRun (m : JitterBufferManager C) : JitterBufferManager C :=
  let m := { m with flow := { m.flow with concealRun := m.flow.concealRun + 1 } }
  m.count fun tally => { tally with concealRunMax := max tally.concealRunMax m.flow.concealRun }

/-- Fill the decode buffer with a concealment: by the codec when it can extrapolate,
else by repeating the history, if there is enough of it. -/
def concealInto (m : JitterBufferManager C) : JitterBufferManager C × Source F :=
  if m.decoder.plcReady then ({ m with decoder := m.decoder.decodePlc }, .codecPlc)
  else
    match m.timescale.concealFrame with
    | (timescale, some out) =>
      (({ m with timescale, decoder := m.decoder.load out }).count fun tally =>
          { tally with pitchConceals := tally.pitchConceals + 1 },
        .pitchConceal m.timescale.histBuf)
    | (timescale, none) => ({ m with timescale, decoder := m.decoder.decodePlc }, .codecPlc)

/-- Decay a long concealment towards the floor gain. -/
def fadeConceal (m : JitterBufferManager C) : JitterBufferManager C :=
  if 3 < m.flow.concealRun then
    let fade : F := Binary32.maximum (1.0 - Binary32.ofNat (m.flow.concealRun - 3) / 12.0)
      concealFadeFloor
    let m :=
      if fade ≤ concealFadeFloor then
        m.count fun tally => { tally with floorFrames := tally.floorFrames + 1 }
      else m
    { m with decoder := m.decoder.mapBuf fun _ s => s * fade }
  else m

/-- Conceal one frame. -/
def generatePlc (m : JitterBufferManager C) : JitterBufferManager C :=
  let (m, source) := m.extendConcealRun.concealInto
  let m := m.fadeConceal
  m.emit source m.decoder.decoded

end Conceal

end JitterBufferManager

end Gemacast.Jitter
