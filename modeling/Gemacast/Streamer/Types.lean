import Mathlib.Data.Int.Basic
import Mathlib.Tactic.Common

/-!
# Streaming parameters

What a phone asks of the streamer.
-/

namespace Gemacast.Streamer

/-- Least Opus bitrate a phone may ask for, in bits per second. -/
def minOpusBitrateBps : ℤ := 6000

/-- Largest Opus bitrate a phone may ask for, in bits per second. -/
def maxOpusBitrateBps : ℤ := 512000

/-- What is wrong with a request or a frame. -/
inductive AudioError
  | invalidFrameLength (got expected : ℕ)
  | missingOpusEncoder
  | opusInitFailed
  | opusCodecFailed
  | invalidBitrate (value min max : ℤ)
  deriving DecidableEq, Repr

/-- The bitrate of a stream. -/
inductive AudioBitrate
  | uncompressed
  | opus (bps : ℤ)
  deriving DecidableEq, Repr

/-- The bitrate a request names; none asks for raw samples. -/
def AudioBitrate.fromWire : Option ℤ → Except AudioError AudioBitrate
  | none => .ok .uncompressed
  | some bps =>
    if minOpusBitrateBps ≤ bps ∧ bps ≤ maxOpusBitrateBps then .ok (.opus bps)
    else .error (.invalidBitrate bps minOpusBitrateBps maxOpusBitrateBps)

end Gemacast.Streamer
