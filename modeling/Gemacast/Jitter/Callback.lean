import Gemacast.Core.Machine
import Gemacast.Jitter.Manager

/-!
# One audio callback

`processNextFrame` in the order of its phases: the per-callback bookkeeping, the
configuration, the target, the flushes and the prebuffer hold, the gap skip, and
then either one real frame through the time-scaler or a missing one.
-/

namespace Gemacast.Jitter

open Gemacast.Core

namespace JitterBufferManager

variable {F : Type} [Binary32 F] [FrameMark F] {C : Codec F}

section Depth

/-- The bookkeeping every callback starts with. -/
def beginCallback (m : JitterBufferManager C) (tick : Tick F) : JitterBufferManager C :=
  { m with
    flow :=
      (m.flow.filterBufferLevel m.buffer.occupiedCount m.control.effectiveTarget).tickRecovery
        tick.now
    timescaleCooldown := m.timescaleCooldown - 1 }

/-- Take over a changed configuration and restart convergence. -/
def restartConvergence (m : JitterBufferManager C) (newConfig : JitterConfig F)
    (clock : Instant) : JitterBufferManager C :=
  { m with
    flow := { m.flow with isPrebuffering := true, filteredBufferLevel := 0.0 }
    stats := m.stats.resetOnConfigChange
    control := m.control.resetForConfig newConfig clock
    config := newConfig }

/-- Restart convergence and flush what exceeds the new target by half. -/
def adoptConfig (m : JitterBufferManager C) (newConfig : JitterConfig F) (clock : Instant) :
    JitterBufferManager C :=
  let m := m.restartConvergence newConfig clock
  let flushTarget := m.control.effectiveTarget + m.control.effectiveTarget / 2
  if flushTarget < m.buffer.occupiedCount then m.flushWithCrossfade flushTarget else m

/-- Poll the shared configuration every hundredth callback. -/
def reloadConfigIfChanged (m : JitterBufferManager C) (tick : Tick F) : JitterBufferManager C :=
  if 100 ≤ m.configCheckCountdown + 1 then
    let m := { m with configCheckCountdown := 0 }
    match tick.sharedConfig with
    | some newConfig =>
      if newConfig.same m.config then m else m.adoptConfig newConfig tick.configClock
    | none => m
  else { m with configCheckCountdown := m.configCheckCountdown + 1 }

/-- The raw target, capped at twelve frames on ADB and USB. -/
def resolvedBreakdown (m : JitterBufferManager C) (tcpMode : Bool) : TargetBreakdown F :=
  if tcpMode then
    let dynamic := TargetController.targetBreakdown m.config m.stats (some 12.0)
    match m.config.staticTargetMs with
    | some staticMs =>
      let raw := max (msToFramesCeil staticMs) m.minDepthFrames
      { dynamic with preClamp := Binary32.ofNat raw, winning := .static, raw }
    | none => dynamic
  else TargetController.targetBreakdown m.config m.stats none

/-- Emit the depth line every hundredth callback. -/
def logDepthAuthority (m : JitterBufferManager C) (now : Instant) :
    JitterBufferManager C × Option DepthLine :=
  let frameCount := m.logWindow.frameCount + 1
  if frameCount < logIntervalCallbacks then
    ({ m with logWindow := { m.logWindow with frameCount } }, none)
  else
    let (stats, arrivals) := m.stats.takeArrivalCount
    let (logWindow, played, tally, window) := m.logWindow.rotate now
    let windowMs := (window.map Duration.asMillis).getD (logIntervalCallbacks * millisPerFrame)
    ({ m with stats, logWindow }, some ⟨arrivals, played, tally, windowMs⟩)

/-- Resolve the depth authority of this callback. -/
def resolveTarget (m : JitterBufferManager C) (tick : Tick F) :
    JitterBufferManager C × FrameContext × Option DepthLine :=
  let minDepth := m.minDepthFrames
  let breakdown := m.resolvedBreakdown tick.tcpMode
  let control := m.control.advance m.config m.stats breakdown.raw minDepth tick.now
  let (m, line) := { m with control }.logDepthAuthority tick.now
  (m,
    { now := tick.now
      target := control.effectiveTarget
      rawTarget := breakdown.raw
      minDepth
      isNoBuffer := m.config.staticTargetMs = some 0
      tcpMode := tick.tcpMode },
    line)

end Depth

section Hold

/-- Without a buffer, drain to a single packet beyond the target. -/
def applyNoBufferFlush (m : JitterBufferManager C) (ctx : FrameContext) : JitterBufferManager C :=
  if ctx.isNoBuffer = true ∧ ctx.target + 1 < m.buffer.occupiedCount then
    m.flushWithCrossfade (ctx.target + 1)
  else m

/-- Packets at which a hold releases the playhead. -/
def unpauseThreshold (m : JitterBufferManager C) (ctx : FrameContext) : ℕ :=
  max (Binary32.toNat (Binary32.ofNat ctx.target * m.config.resumeThresholdPct)) ctx.minDepth

/-- Packets a release keeps. -/
def resumeDepth (m : JitterBufferManager C) (ctx : FrameContext) : ℕ :=
  max (TargetController.bufferLimits (max ctx.target ctx.rawTarget)).high (m.unpauseThreshold ctx)

/-- Release the playhead, keeping at most the depth of the band after a rebuffer. -/
def release (m : JitterBufferManager C) (ctx : FrameContext) : JitterBufferManager C :=
  let m := { m with flow := { m.flow with isPrebuffering := false } }
  if m.startupFlushPending = false ∧ m.resumeDepth ctx < m.buffer.occupiedCount then
    m.flushWithCrossfade (m.resumeDepth ctx)
  else m

/-- Conceal while the playhead is held; only an empty buffer counts as missing. -/
def hold (m : JitterBufferManager C) : JitterBufferManager C :=
  let (m, wasReset) :=
    if m.buffer.occupiedCount = 0 then
      checkResetOnMissing { m with flow := { m.flow with missingCount := m.flow.missingCount + 1 } }
    else (m, false)
  if wasReset then m else generatePlc { m with flow := m.flow.discardConcealWindow }

/-- Hold the playhead until the buffer refills; `true` when the callback is finished. -/
def servePrebuffering (m : JitterBufferManager C) (ctx : FrameContext) :
    JitterBufferManager C × Bool :=
  if m.flow.isPrebuffering then
    if m.unpauseThreshold ctx ≤ m.buffer.occupiedCount then (m.release ctx, false)
    else (m.hold, true)
  else (m, false)

/-- Discard the burst that accumulated before the first callback. -/
def applyStartupFlush (m : JitterBufferManager C) (ctx : FrameContext) : JitterBufferManager C :=
  if m.startupFlushPending then
    let m := { m with startupFlushPending := false }
    let safeFlushTarget := max (max ctx.target (ctx.minDepth * 2)) 8
    if safeFlushTarget + 2 < m.buffer.occupiedCount then m.flushWithCrossfade safeFlushTarget
    else m
  else m

/-- Pin the buffer to a static depth. -/
def applyStaticTargetFlush (m : JitterBufferManager C) (ctx : FrameContext) :
    JitterBufferManager C :=
  if (m.config.staticTargetMs.any fun ms => 0 < ms) ∧ ctx.target + 1 < m.buffer.occupiedCount then
    m.flushWithCrossfade ctx.target
  else m

end Hold

section Gap

/-- Skip a gap: the playhead moved on by `skipped` numbers. -/
def noteSkip (m : JitterBufferManager C) (skipped : ℕ) : JitterBufferManager C :=
  { m.count fun tally =>
      { tally with
        playheadSkips := tally.playheadSkips + 1
        skippedFrames := tally.skippedFrames + skipped } with
    flow := { m.flow with gapHoldCount := 0 }
    pendingGapFadein := true }

/-- Move the playhead to the lowest stored packet. -/
def skipGapTo (m : JitterBufferManager C) (lo : UInt64) : JitterBufferManager C :=
  let diff := (saturatingSub lo m.buffer.nextPlaySeq).toNat
  let m := { m with buffer := m.buffer.fastForward lo }
  let m := m.noteSkip (diff % 2 ^ 32)
  if 20 < diff then { m with decoder := m.decoder.resync } else m

/-- Step the playhead past a gap once the reorder tolerance is spent. -/
def tryFastForwardOverGap (m : JitterBufferManager C) (ctx : FrameContext) :
    JitterBufferManager C :=
  if 0 < m.buffer.occupiedCount ∧ m.buffer.hasNext = false then
    let m := { m with flow := { m.flow with gapHoldCount := m.flow.gapHoldCount + 1 } }
    let tolerance := reorderToleranceFor m.networkLink ctx.isNoBuffer
    match m.buffer.lowestAvailableSeq with
    | (buffer, some lo) =>
      let m := { m with buffer }
      if 20 < (absDiff lo buffer.nextPlaySeq).toNat ∨ tolerance ≤ m.flow.gapHoldCount then
        m.skipGapTo lo
      else m
    | (buffer, none) =>
      if tolerance ≤ m.flow.gapHoldCount then
        { m with buffer := buffer.advanceOne }.noteSkip 1
      else { m with buffer }
  else m

end Gap

section Play

/-- Record the outcome of one callback; a window concealed too often holds the playhead. -/
def observeDelivery (m : JitterBufferManager C) (concealed : Bool) : JitterBufferManager C :=
  let flow :=
    if concealed = false ∧ m.minDepthFrames < m.buffer.occupiedCount then
      m.flow.closeStarvationEpisode
    else m.flow
  if flow.isPrebuffering then { m with flow := flow.discardConcealWindow }
  else
    match flow.observeDelivery concealed with
    | (flow, none) => { m with flow }
    | (flow, some verdict) =>
      { m with
        flow := { flow with isPrebuffering := flow.isPrebuffering || verdict.shouldRebuffer } }

/-- Leave a starvation: bump the learned floor once per cluster, suppress the
time-scaler and clear the count. -/
def leaveStarvation (m : JitterBufferManager C) (ctx : FrameContext) : JitterBufferManager C :=
  if 0 < m.flow.starvationCount then
    let m :=
      if ctx.tcpMode then m
      else
        let control :=
          if m.flow.starvationRecovery = 0 then
            ((m.control.recordStarvation ctx.now).applyStarvationFloor m.config m.stats).jumpToFloor
          else m.control
        let flow :=
          { m.flow with starvationRecovery := min (max (control.effectiveTarget * 2) 50) 200 }
        { m with control, flow := flow.armRecoveryWindow ctx.now }
    { m with flow := { m.flow with starvationCount := 0 } }
  else m

/-- The counters a real frame clears. -/
def endOutage (m : JitterBufferManager C) (ctx : FrameContext) : JitterBufferManager C :=
  let m :=
    { m with flow := { m.flow with gapHoldCount := 0, missingCount := 0, concealRun := 0 } }
  (m.observeDelivery false).leaveStarvation ctx

/-- Remember the frame in the decode buffer and decode the packet over it. -/
def decodeNext (m : JitterBufferManager C) (ctx : FrameContext) (pkt : RawPacket) :
    JitterBufferManager C :=
  capture
    { m with
      logWindow := { m.logWindow with framesPlayed := m.logWindow.framesPlayed + 1 }
      latencyMetric := (ctx.now.durationSince pkt.arrivalTime).asMillis % 2 ^ 32
      jitterMetric :=
        Binary32.toNat (Binary32.round (m.stats.emaJitter * Binary32.ofNat millisPerFrame))
      timescale := m.timescale.remember m.decoder.decoded } pkt

/-- The gain of one sample of a fade-in over `fadeLen` samples. -/
def fadeInGain (fadeLen i : ℕ) (s : F) : F :=
  if i < fadeLen then s * (Binary32.ofNat i / Binary32.ofNat fadeLen) else s

/-- Fade the frame in and drop the history. -/
def fadeIn (m : JitterBufferManager C) : JitterBufferManager C :=
  { m with
    decoder := m.decoder.mapBuf (fadeInGain (min fadeInSamples m.decoder.decodeLen))
    timescale := m.timescale.forget }

/-- Mask the splice of a frame that is not adjacent to what was played. -/
def maskSplice (m : JitterBufferManager C) : JitterBufferManager C :=
  let m := if 0 < m.flow.starvationCount ∨ m.pendingGapFadein = true then m.fadeIn else m
  { m with pendingGapFadein := false }

/-- The next packet decoded and masked, as the time-scaler sees it. -/
def prepareFrame (m : JitterBufferManager C) (ctx : FrameContext) (pkt : RawPacket) :
    JitterBufferManager C :=
  (m.decodeNext ctx pkt).maskSplice

/-- Root mean square of the samples. -/
def getRms (samples : List F) : F :=
  Binary32.sqrt (energy samples / Binary32.ofNat samples.length)

/-- Pop and decode up to `n` packets above the limit without emitting them. -/
def shedLoop (m : JitterBufferManager C) (highLimit : ℕ) : ℕ → JitterBufferManager C
  | 0 => m
  | n + 1 =>
    if highLimit < m.buffer.occupiedCount ∧ m.buffer.hasNext = true then
      match m.buffer.popNext with
      | (buffer, some extra) =>
        let m := { m with buffer }.capture extra
        let m := { m with flow := m.flow.adjustFilteredLevel (0.0 - 1.0) }
        (m.count fun tally => { tally with shed := tally.shed + 1 }).shedLoop highLimit n
      | (_, none) => m
    else m.shedLoop highLimit n

/-- Emit a silent frame and shed packets behind it. -/
def shedSilence (m : JitterBufferManager C) (ctx : FrameContext) (highLimit : ℕ) :
    JitterBufferManager C :=
  let excess := Binary32.toNat m.flow.filteredBufferLevel - highLimit
  let shedCount := min (max (excess / 2) 1) 4
  let m := (m.emit .shed m.decoder.decoded).shedLoop highLimit shedCount
  { m with timescale := m.timescale.forget, timescaleCooldown := timescaleInterval ctx.target }

/-- Stage the frame, and the next packet when it is there. -/
def stageWindow (m : JitterBufferManager C) : JitterBufferManager C :=
  let m := { m with timescale := m.timescale.windowBegin m.decoder.decoded }
  if m.buffer.hasNext = true ∧ m.decoder.decodeLen ≤ m.timescale.windowHeadroom then
    match m.buffer.popNext with
    | (buffer, some nextPkt) =>
      let m := { m with buffer }.capture nextPkt
      let m := { m with timescale := (m.timescale.windowExtend m.decoder.decoded).1 }
      m.count fun tally => { tally with stagedPops := tally.stagedPops + 1 }
    | (_, none) => m
  else m

/-- Shorten the staged window by one pitch period, or emit it as it is. -/
def drain (m : JitterBufferManager C) (ctx : FrameContext) (isFast : Bool) (rms : F) :
    JitterBufferManager C :=
  let m := m.stageWindow
  match m.timescale.accelerate isFast rms with
  | some (out, removedSamples) =>
    let removedFrames : F := Binary32.ofNat removedSamples / Binary32.ofNat opusFrameSamples
    let m := m.emit .accelerated out
    let m := { m with flow := m.flow.adjustFilteredLevel (0.0 - removedFrames) }
    let m := m.count fun tally =>
      { tally with
        accelerated := tally.accelerated + 1
        fastAccelerated := tally.fastAccelerated + if isFast then 1 else 0
        loudSplices := tally.loudSplices + if rms < artifactMaskRms then 0 else 1 }
    if isFast then m else { m with timescaleCooldown := timescaleInterval ctx.target }
  | none =>
    let m := m.count fun tally => { tally with declinedNcc := tally.declinedNcc + 1 }
    m.emit .declined m.timescale.accelWindow

/-- Emit a silent frame and as much silence again. -/
def growSilence (m : JitterBufferManager C) : JitterBufferManager C :=
  let m := m.emit .growth (m.decoder.decoded ++ List.replicate m.decoder.decodeLen 0.0)
  let m := { m with flow := m.flow.adjustFilteredLevel 1.0 }
  let m := m.count fun tally => { tally with grown := tally.grown + 1 }
  { m with timescaleCooldown := minSilenceGrowInterval }

/-- Stretch the frame by one pitch period, if the time-scaler does not refuse. -/
def stretch (m : JitterBufferManager C) (rms : F) : JitterBufferManager C × Bool :=
  let imminentUnderrun := decide (m.buffer.occupiedCount ≤ 1)
  let spliced :=
    if imminentUnderrun then m.timescale.expandConceal m.decoder.decoded rms
    else m.timescale.expand m.decoder.decoded rms
  match spliced with
  | (timescale, some (out, insertedSamples)) =>
    let insertedFrames : F := Binary32.ofNat insertedSamples / Binary32.ofNat opusFrameSamples
    let m := { m with timescale }.emit (.expanded m.decoder.decoded) out
    let m := { m with flow := m.flow.adjustFilteredLevel insertedFrames }
    let m := m.count fun tally =>
      { tally with
        expanded := tally.expanded + 1
        preemptive := tally.preemptive + if imminentUnderrun then 0 else 1 }
    ({ m with timescaleCooldown := minExpandInterval }, true)
  | (timescale, none) =>
    ({ m with timescale }.count fun tally =>
      { tally with
        declinedPreemptiveNcc := tally.declinedPreemptiveNcc + if imminentUnderrun then 0 else 1
        declinedUnderrunNcc := tally.declinedUnderrunNcc + if imminentUnderrun then 1 else 0 },
      false)

/-- Drive the filtered level towards the target; `true` when the frame was emitted. -/
def runTimescale (m : JitterBufferManager C) (ctx : FrameContext) :
    JitterBufferManager C × Bool :=
  let band := TargetController.bufferLimits ctx.target
  let filtered := m.flow.filteredBufferLevel
  let stretchAllowed := m.flow.stretchAllowed ctx.now
  let rms := getRms m.decoder.decoded
  let overHigh := decide (Binary32.ofNat band.high ≤ filtered)
  let m :=
    if overHigh = true ∧ stretchAllowed = false then
      m.count fun tally => { tally with declinedRecovery := tally.declinedRecovery + 1 }
    else m
  if stretchAllowed = true ∧ overHigh = true then
    let isFast := decide (Binary32.ofNat (emergencyThreshold band.high) ≤ filtered)
    if rms < silenceRms ∧ m.buffer.hasNext = true then (m.shedSilence ctx band.high, true)
    else if isFast = true ∨ m.timescaleCooldown = 0 then (m.drain ctx isFast rms, true)
    else
      (m.count fun tally => { tally with declinedCooldown := tally.declinedCooldown + 1 }, false)
  else if filtered < Binary32.ofNat band.low then
    if rms < silenceRms ∧ m.timescaleCooldown = 0 ∧ m.config.staticTargetMs = none ∧
        m.buffer.occupiedCount < ctx.target then
      (m.growSilence, true)
    else if stretchAllowed = true ∧ m.timescaleCooldown = 0 ∧ m.config.staticTargetMs = none then
      m.stretch rms
    else (m, false)
  else (m, false)

/-- Emit one real frame: stretched, shortened, shed or as it is. -/
def playPrepared (m : JitterBufferManager C) (ctx : FrameContext) : JitterBufferManager C :=
  match m.runTimescale ctx with
  | (m, true) => m
  | (m, false) => m.emit .verbatim m.decoder.decoded

/-- Play the packet at the playhead. -/
def playNextFrame (m : JitterBufferManager C) (ctx : FrameContext) : JitterBufferManager C :=
  let m := m.endOutage ctx
  match m.buffer.popNext with
  | (buffer, some pkt) => ({ m with buffer }.prepareFrame ctx pkt).playPrepared ctx
  | (_, none) => m

/-- Count a callback that found the buffer empty. -/
def starve (m : JitterBufferManager C) (ctx : FrameContext) : JitterBufferManager C :=
  let starvationCount := m.flow.starvationCount + 1
  let flow := { m.flow with gapHoldCount := 0, starvationCount }
  let flow :=
    if starvationCount = 1 then
      PlaybackFlow.noteStarvationOnset { flow with filteredBufferLevel := 0.0 } ctx.now
    else flow
  { m with
    flow :=
      { flow with isPrebuffering :=
        flow.isPrebuffering || decide (starvationCount = rebufferAfter) } }

/-- Count a missing frame and conceal it, or reset the stream. -/
def handleMissingFrame (m : JitterBufferManager C) (ctx : FrameContext) : JitterBufferManager C :=
  let m := { m with flow := { m.flow with missingCount := m.flow.missingCount + 1 } }
  let m := m.observeDelivery true
  let m := if m.buffer.occupiedCount = 0 then m.starve ctx else m
  match m.checkResetOnMissing with
  | (m, true) => m
  | (m, false) => m.generatePlc

end Play

section Process

/-- The phases that settle the depth and may hold the playhead: the state, the context
and whether the callback is finished. -/
def settleDepth (m : JitterBufferManager C) (tick : Tick F) :
    JitterBufferManager C × FrameContext × Option DepthLine :=
  let (m, ctx, line) := ((m.beginCallback tick).reloadConfigIfChanged tick).resolveTarget tick
  (m.applyNoBufferFlush ctx, ctx, line)

/-- The flushes and the gap skip between a release and the frame. -/
def approachFrame (m : JitterBufferManager C) (ctx : FrameContext) : JitterBufferManager C :=
  ((m.applyStartupFlush ctx).applyStaticTargetFlush ctx).tryFastForwardOverGap ctx

/-- Play the next frame or handle its absence. -/
def playOrMiss (m : JitterBufferManager C) (ctx : FrameContext) : JitterBufferManager C :=
  if m.buffer.hasNext then m.playNextFrame ctx else m.handleMissingFrame ctx

/-- One frame from the jitter buffer into the playback buffer. -/
def processNextFrame (m : JitterBufferManager C) (tick : Tick F) :
    JitterBufferManager C × Option DepthLine :=
  let (m, ctx, line) := m.settleDepth tick
  match m.servePrebuffering ctx with
  | (m, true) => (m, line)
  | (m, false) => ((m.approachFrame ctx).playOrMiss ctx, line)

/-- What happens to the player thread. -/
inductive Input (F : Type)
  /-- Packets from the network thread are taken. -/
  | ingest (pkts : List RawPacket)
  /-- The device needs samples: an empty playback buffer is refilled. -/
  | callback (tick : Tick F)
  /-- The device takes samples. -/
  | consume (take : ℕ)
  /-- The stream is reset from outside. -/
  | reset

/-- One step of the player thread. -/
def step (m : JitterBufferManager C) : Input F → JitterBufferManager C × Option DepthLine
  | .ingest pkts => (m.ingestPackets pkts, none)
  | .callback tick =>
    if m.playbackBuf.isEmpty then processNextFrame { m with emissions := [] } tick else (m, none)
  | .consume take => ({ m with playbackBuf := m.playbackBuf.drop take }, none)
  | .reset => (m.triggerReset, none)

/-- The player thread as a machine; the answers are the depth lines it logs. -/
def machine (C : Codec F) (config : JitterConfig F) (networkLink : NetworkLink)
    (clock : Instant) : Machine (JitterBufferManager C) (Input F) (Option DepthLine) where
  init := new C config networkLink clock
  step := step

end Process

end JitterBufferManager

end Gemacast.Jitter
