import Gemacast.Core.Binary32
import Gemacast.Player.PcmDatagram
import Gemacast.Streamer.Types

/-!
# The sender's packets

One captured frame becomes one packet, and one packet the datagrams of its stream: an
uncompressed packet travels in quarters, every other packet as it is.
-/

namespace Gemacast.Streamer

open Gemacast.Core Gemacast.Jitter Gemacast.Player

/-- The memory of a sample: four bytes. -/
class SampleBytes (F : Type) where
  /-- The bytes, in the order both ends agree on. -/
  toBytes : F → List UInt8
  /-- A sample takes four bytes. -/
  length_toBytes : ∀ sample, (toBytes sample).length = 4

/-- The bit pattern of a binary32 number. -/
def softFloatBits : SoftFloat → ℕ
  | .nan => 0x7FC00000
  | .inf negative => (if negative then 2 ^ 31 else 0) + 0x7F800000
  | .finite negative mantissa exponent =>
    (if negative then 2 ^ 31 else 0) +
      if mantissa < 2 ^ 23 then mantissa else (exponent + 150).toNat * 2 ^ 23 + (mantissa - 2 ^ 23)

instance : SampleBytes SoftFloat where
  toBytes sample := (beBytes 4 (softFloatBits sample)).reverse
  length_toBytes sample := by rw [List.length_reverse, length_beBytes]

/-- The Opus encoder in its current state: the packet of a frame, or a failure. -/
abbrev OpusEncoder (F : Type) := List F → Option (List UInt8)

namespace AudioFrameEncoder

variable {F : Type} [Binary32 F]

/-- Energy below which a frame is sent as a silence marker. -/
def silenceRmsThreshold : F := 0.0001

/-- Root mean square of a frame. -/
def rms (frame : List F) : F :=
  Binary32.sqrt (frame.foldl (fun sumSq sample => sumSq + sample * sample) 0.0 /
    Binary32.ofNat frame.length)

/-- The frame is sent as a silence marker. -/
def isSilence (frame : List F) : Bool := decide (rms frame < silenceRmsThreshold)

/-- The format byte of a frame. -/
def formatFlag (frame : List F) (bitrate : AudioBitrate) : UInt8 :=
  if isSilence frame then formatSilence
  else if bitrate = .uncompressed then formatUncompressed
  else formatOpus

variable [SampleBytes F]

/-- The payload of a frame. -/
def payloadBytes (frame : List F) (encoder : Option (OpusEncoder F)) (bitrate : AudioBitrate) :
    Except AudioError (List UInt8) :=
  if isSilence frame then .ok []
  else if bitrate = .uncompressed then .ok (frame.flatMap SampleBytes.toBytes)
  else
    match encoder with
    | none => .error .missingOpusEncoder
    | some encodeFloat =>
      match encodeFloat frame with
      | none => .error .opusCodecFailed
      | some encoded => .ok encoded

/-- One frame as a packet. -/
def encode (frame : List F) (encoder : Option (OpusEncoder F)) (bitrate : AudioBitrate)
    (seqNum : UInt64) : Except AudioError (List UInt8) :=
  if frame.length ≠ opusFrameSamples then
    .error (.invalidFrameLength frame.length opusFrameSamples)
  else
    match payloadBytes frame encoder bitrate with
    | .error e => .error e
    | .ok payload => .ok (wordBytes seqNum ++ formatFlag frame bitrate :: payload)

end AudioFrameEncoder

namespace UdpAudioSender

/-- The datagrams of one packet, in the order they are sent. -/
def datagrams (generation : UInt64) (packet : List UInt8) : List (List UInt8) :=
  if packet[seqNumSize]? = some formatUncompressed then
    (List.finRange pcmChunks).map (PcmDatagram.encode packet generation)
  else [packet]

end UdpAudioSender

end Gemacast.Streamer
