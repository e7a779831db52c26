import Mathlib.Algebra.GroupWithZero.Nat
import Mathlib.Tactic.Common

/-!
# Packets, instants and timing constants

The values every actor of the jitter pipeline shares. Instants and durations
are nanosecond counts of one monotonic clock.
-/

namespace Gemacast.Jitter

/-- A point of the monotonic clock, in nanoseconds. -/
abbrev Instant := ℕ

/-- A span of the monotonic clock, in nanoseconds. -/
abbrev Duration := ℕ

/-- Whole milliseconds of a duration. -/
def Duration.asMillis (d : Duration) : ℕ := d / 1000000

/-- Whole seconds of a duration. -/
def Duration.asSecs (d : Duration) : ℕ := d / 1000000000

/-- A duration of whole milliseconds. -/
def Duration.fromMillis (ms : ℕ) : Duration := ms * 1000000

/-- A duration of whole seconds. -/
def Duration.fromSecs (s : ℕ) : Duration := s * 1000000000

/-- Elapsed time since an earlier instant, zero when it is not earlier. -/
def Instant.durationSince (now earlier : Instant) : Duration := now - earlier

/-- Elapsed time since an earlier instant, or nothing when it is later. -/
def Instant.checkedDurationSince (now earlier : Instant) : Option Duration :=
  if earlier ≤ now then some (now - earlier) else none

/-- Channels of the interleaved audio. -/
def opusChannels : ℕ := 2

/-- Sample frames per second. -/
def opusSampleRate : ℕ := 48000

/-- Sample frames of one packet. -/
def opusFrameSize : ℕ := 480

/-- Interleaved samples of one packet. -/
def opusFrameSamples : ℕ := opusFrameSize * opusChannels

/-- Interleaved samples that fit one packet. -/
abbrev DecodedFrame (F : Type) := { samples : List F // samples.length ≤ opusFrameSamples }

/-- Largest payload of one audio packet, in bytes. -/
def maxPacketPayload : ℕ := 8000

/-- Milliseconds of audio in one packet slot. -/
def millisPerFrame : ℕ := opusFrameSize * 1000 / opusSampleRate

/-- Milliseconds to frames, rounded up. -/
def msToFramesCeil (ms : ℕ) : ℕ := (ms + millisPerFrame - 1) / millisPerFrame

/-- A packet received from the network, awaiting decode in the audio callback.
`payload` is the valid part of the inline payload buffer. -/
structure RawPacket where
  /-- The streamer's monotonic sequence number. -/
  seqNum : UInt64
  /-- Opus or raw PCM bytes. -/
  payload : List UInt8
  /-- When the packet arrived on the network thread. -/
  arrivalTime : Instant
  /-- The payload is raw PCM. -/
  isUncompressed : Bool
  /-- The packet stands for one silent frame. -/
  isSilence : Bool
  /-- The payload fits the inline buffer. -/
  payload_le : payload.length ≤ maxPacketPayload
  deriving DecidableEq

/-- The sequence number as a natural number. -/
def RawPacket.seq (p : RawPacket) : ℕ := p.seqNum.toNat

/-- A packet that stands for one silent frame. -/
def RawPacket.silent (seqNum : UInt64) (arrivalTime : Instant) : RawPacket :=
  ⟨seqNum, [], arrivalTime, false, true, by decide⟩

theorem RawPacket.seq_lt (p : RawPacket) : p.seq < 2 ^ 64 := p.seqNum.toNat_lt

end Gemacast.Jitter
