import Gemacast.Jitter.Config

/-!
# The playback lifecycle

Counters that say whether the playhead is held, starving or waiting for a
reordered packet, the low-pass filtered buffer level, the concealment ratio over
a tumbling window and the guard that keeps the time-scaler off after a
starvation.
-/

namespace Gemacast.Jitter

open Gemacast.Core

/-- Wall-clock bound of the guard after the first starvation of an episode. -/
def recoveryGuardWindow : Duration := Duration.fromMillis 500

/-- Callbacks of one concealment window. -/
def concealWindowCallbacks : ℕ := 500 / millisPerFrame

/-- Share of a window that must be concealed for the playhead to be held. -/
def concealRebufferPct : ℕ := 50

/-- Delivery health of one window. -/
structure ConcealVerdict where
  /-- Share of concealed callbacks, in percent. -/
  concealPct : ℕ
  /-- Callbacks measured. -/
  callbacks : ℕ
  /-- The playhead should be held. -/
  shouldRebuffer : Bool
  deriving DecidableEq, Repr

/-- The lifecycle state. -/
structure PlaybackFlow (F : Type) where
  /-- Depth is being banked before playback starts. -/
  isPrebuffering : Bool
  /-- Consecutive callbacks without a playable frame. -/
  missingCount : ℕ
  /-- Consecutive callbacks with an empty buffer. -/
  starvationCount : ℕ
  /-- Consecutive concealed callbacks. -/
  concealRun : ℕ
  /-- Callbacks waited for the current gap. -/
  gapHoldCount : ℕ
  /-- Callbacks until the learned floor may be bumped again. -/
  starvationRecovery : ℕ
  /-- Start of the current recovery episode. -/
  recoveryStartedAt : Option Instant
  /-- Filtered buffer level, in frames. -/
  filteredBufferLevel : F
  /-- Concealed callbacks of the window. -/
  concealCallbacks : ℕ
  /-- Callbacks of the window. -/
  windowCallbacks : ℕ
  /-- Starvation onsets of the current episode. -/
  starvationEvents : ℕ
  /-- Start of the current starvation episode. -/
  episodeStartedAt : Option Instant

namespace PlaybackFlow

variable {F : Type} [Binary32 F]

/-- The state before the first packet. -/
def new : PlaybackFlow F where
  isPrebuffering := true
  missingCount := 0
  starvationCount := 0
  concealRun := 0
  gapHoldCount := 0
  starvationRecovery := 0
  recoveryStartedAt := none
  filteredBufferLevel := 0.0
  concealCallbacks := 0
  windowCallbacks := 0
  starvationEvents := 0
  episodeStartedAt := none

/-- Low-pass the occupancy; a deeper target smooths more. -/
def filterBufferLevel (f : PlaybackFlow F) (occupied target : ℕ) : PlaybackFlow F :=
  let levelFactor : F :=
    if target ≤ 1 then 251.0 else if target ≤ 3 then 252.0 else if target ≤ 7 then 253.0 else 254.0
  let alpha := levelFactor / 256.0
  { f with
    filteredBufferLevel :=
      f.filteredBufferLevel * alpha + Binary32.ofNat occupied * (1.0 - alpha) }

/-- Correct the filtered level by frames added or removed. -/
def adjustFilteredLevel (f : PlaybackFlow F) (deltaFrames : F) : PlaybackFlow F :=
  { f with filteredBufferLevel := Binary32.maximum (f.filteredBufferLevel + deltaFrames) 0.0 }

/-- Record one callback; a full window yields a verdict and starts over. -/
def observeDelivery (f : PlaybackFlow F) (concealed : Bool) :
    PlaybackFlow F × Option ConcealVerdict :=
  let windowCallbacks := f.windowCallbacks + 1
  let concealCallbacks := if concealed then f.concealCallbacks + 1 else f.concealCallbacks
  if windowCallbacks < concealWindowCallbacks then
    ({ f with windowCallbacks, concealCallbacks }, none)
  else
    let concealPct := concealCallbacks * 100 / windowCallbacks
    ({ f with windowCallbacks := 0, concealCallbacks := 0 },
      some ⟨concealPct, windowCallbacks, decide (concealRebufferPct ≤ concealPct)⟩)

/-- Abandon the current window. -/
def discardConcealWindow (f : PlaybackFlow F) : PlaybackFlow F :=
  { f with concealCallbacks := 0, windowCallbacks := 0 }

/-- Register a starvation onset. -/
def noteStarvationOnset (f : PlaybackFlow F) (now : Instant) : PlaybackFlow F :=
  { f with
    starvationEvents := f.starvationEvents + 1
    episodeStartedAt := f.episodeStartedAt.or (some now) }

/-- Close an open starvation episode. -/
def closeStarvationEpisode (f : PlaybackFlow F) : PlaybackFlow F :=
  if f.episodeStartedAt.isSome then { f with episodeStartedAt := none, starvationEvents := 0 }
  else f

/-- Count the recovery down and drop an expired guard. -/
def tickRecovery (f : PlaybackFlow F) (now : Instant) : PlaybackFlow F :=
  { f with
    starvationRecovery := f.starvationRecovery - 1
    recoveryStartedAt := f.recoveryStartedAt.filter fun started =>
      now.durationSince started < recoveryGuardWindow }

/-- Arm the guard unless it is armed. -/
def armRecoveryWindow (f : PlaybackFlow F) (now : Instant) : PlaybackFlow F :=
  { f with recoveryStartedAt := f.recoveryStartedAt.or (some now) }

/-- The time-scaler may run. -/
def stretchAllowed (f : PlaybackFlow F) (now : Instant) : Bool :=
  f.recoveryStartedAt.all fun started => recoveryGuardWindow ≤ now.durationSince started

/-- Forget the stream that ended. -/
def resetOnStreamRestart (f : PlaybackFlow F) : PlaybackFlow F :=
  discardConcealWindow
    { f with
      isPrebuffering := true
      missingCount := 0
      starvationCount := 0
      concealRun := 0
      gapHoldCount := 0
      filteredBufferLevel := 0.0 }

end PlaybackFlow

end Gemacast.Jitter
