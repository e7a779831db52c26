import Gemacast.Core.Binary32
import Gemacast.Core.Word
import Gemacast.Jitter.Types

/-!
# The frame decoder

Turns a packet into samples: silence, raw PCM or Opus, with loss concealment by
the codec and a warm-up over small sequence gaps. The Opus codec is a parameter;
whatever it answers is a list of whole stereo frames that fits one packet.

Every frame written to the decode buffer takes a fresh number, and its samples
are marked with it. On numbers the mark does nothing; on values that carry their
provenance it is what tells the frames apart.
-/

namespace Gemacast.Jitter

open Gemacast.Core

/-- Marking a sample with the number of the frame it belongs to. -/
class FrameMark (F : Type) where
  /-- The marked sample. -/
  mark : ℕ → F → F

instance : FrameMark SoftFloat := ⟨fun _ x => x⟩

/-- Stereo frames that fit the output buffer of the codec. -/
abbrev StereoFrames (F : Type) := { frames : List (F × F) // frames.length ≤ opusFrameSize }

/-- The interface of the Opus decoder. -/
structure Codec (F : Type) where
  /-- The predictive state. -/
  State : Type
  /-- A fresh decoder. -/
  init : State
  /-- Decode a payload, or conceal on an empty one: the stereo frames, or an error. -/
  decodeFloat : State → List UInt8 → State × Option (StereoFrames F)
  /-- Discard the prediction history. -/
  resetState : State → State

/-- A frame of silence fits. -/
theorem length_silence_le (F : Type) [Binary32 F] :
    (List.replicate opusFrameSize ((0.0 : F), (0.0 : F))).length ≤ opusFrameSize :=
  List.length_replicate.le

/-- A codec that was never fed: whatever it is asked for, it answers with silence. -/
def Codec.unfed (F : Type) [Binary32 F] : Codec F where
  State := Unit
  init := ()
  decodeFloat _ _ := ((), some ⟨List.replicate opusFrameSize (0.0, 0.0), length_silence_le F⟩)
  resetState state := state

/-- Whether the codec can extrapolate the next frame. -/
inductive CodecState
  | cold
  | warm
  deriving DecidableEq, Repr

/-- Interleave stereo frames. -/
def interleave {F : Type} (frames : List (F × F)) : List F :=
  frames.flatMap fun frame => [frame.1, frame.2]

@[simp] theorem interleave_length {F : Type} (frames : List (F × F)) :
    (interleave frames).length = 2 * frames.length := by
  induction frames with
  | nil => rfl
  | cons frame frames ih =>
    simp only [interleave, List.flatMap_cons, List.length_append, List.length_cons,
      List.length_nil] at ih ⊢
    omega

/-- The interleaved samples of one packet. -/
def StereoFrames.decoded {F : Type} (frames : StereoFrames F) : DecodedFrame F :=
  ⟨interleave frames.val, by
    have := frames.property
    rw [interleave_length, opusFrameSamples, opusChannels]
    omega⟩

/-- Read `n` samples of four bytes each. -/
def pcmSamples {F : Type} [Binary32 F] : ℕ → List UInt8 → List F
  | n + 1, a :: b :: c :: d :: bytes => Binary32.ofBytes [a, b, c, d] :: pcmSamples n bytes
  | _, _ => []

theorem pcmSamples_length {F : Type} [Binary32 F] (n : ℕ) (bytes : List UInt8)
    (h : n ≤ bytes.length / 4) : (pcmSamples n bytes : List F).length = n := by
  induction n generalizing bytes with
  | zero => simp only [pcmSamples, List.length_nil]
  | succ n ih =>
    obtain _ | ⟨a, _ | ⟨b, _ | ⟨c, _ | ⟨d, rest⟩⟩⟩⟩ := bytes <;>
      simp only [List.length_nil, List.length_cons] at h
    case cons.cons.cons.cons => simp only [pcmSamples, List.length_cons, ih rest (by omega)]
    all_goals omega

/-- Samples of a raw payload that fit the decode buffer. -/
def f32Len (pkt : RawPacket) : ℕ := min (pkt.payload.length / 4) opusFrameSamples

/-- The samples of a raw payload. -/
def pcmFrame {F : Type} [Binary32 F] (pkt : RawPacket) : DecodedFrame F :=
  ⟨pcmSamples (f32Len pkt) pkt.payload,
    (pcmSamples_length _ _ (Nat.min_le_left _ _)).trans_le (Nat.min_le_right _ _)⟩

/-- One frame of zeros. -/
def silence {F : Type} [Binary32 F] : DecodedFrame F :=
  ⟨List.replicate opusFrameSamples 0.0, List.length_replicate.le⟩

/-- Change every sample of a frame in the same way. -/
def DecodedFrame.map {F : Type} (frame : DecodedFrame F) (g : F → F) : DecodedFrame F :=
  ⟨frame.val.map g, (List.length_map _).trans_le frame.property⟩

/-- Change the samples of a frame in place. -/
def DecodedFrame.mapIdx {F : Type} (frame : DecodedFrame F) (g : ℕ → F → F) : DecodedFrame F :=
  ⟨frame.val.mapIdx g, List.length_mapIdx.trans_le frame.property⟩

/-- The Opus decoder with its reusable decode buffer. -/
structure FrameDecoder {F : Type} (C : Codec F) where
  /-- The codec. -/
  decoder : C.State
  /-- The valid samples of the decode buffer. -/
  decodeBuf : DecodedFrame F
  /-- The sequence number the codec expects next. -/
  opusNextExpectedSeq : Option UInt64
  /-- Whether the codec can extrapolate. -/
  codecState : CodecState
  /-- Number of the frame in the decode buffer. -/
  frame : ℕ

namespace FrameDecoder

variable {F : Type} [Binary32 F] [FrameMark F] {C : Codec F}

/-- A decoder that has decoded nothing. -/
def new : FrameDecoder C where
  decoder := C.init
  decodeBuf := ⟨[], Nat.zero_le _⟩
  opusNextExpectedSeq := none
  codecState := .cold
  frame := 0

/-- The codec extrapolates from the frame that is playing. -/
def plcReady (d : FrameDecoder C) : Bool := d.codecState = .warm

/-- The samples of the last frame. -/
def decoded (d : FrameDecoder C) : List F := d.decodeBuf.val

/-- The number of samples of the last frame. -/
def decodeLen (d : FrameDecoder C) : ℕ := d.decoded.length

/-- Write a fresh frame to the decode buffer. -/
def load (d : FrameDecoder C) (samples : DecodedFrame F) : FrameDecoder C :=
  { d with
    decodeBuf := samples.map (FrameMark.mark (d.frame + 1))
    frame := d.frame + 1 }

/-- Take the codec's answer: a frame warms the state, an error leaves the buffer as it was. -/
def accept (d : FrameDecoder C) (answer : C.State × Option (StereoFrames F)) :
    FrameDecoder C × Bool :=
  match answer with
  | (state, some frames) =>
    ({ d.load frames.decoded with decoder := state, codecState := .warm }, true)
  | (state, none) => ({ d with decoder := state }, false)

/-- Generate one concealment frame; when the codec refuses, silence. -/
def decodePlc (d : FrameDecoder C) : FrameDecoder C :=
  match d.accept (C.decodeFloat d.decoder []) with
  | (d, true) => d
  | (d, false) => d.load silence

/-- Decode an Opus payload; `false` when the codec refuses it. -/
def decodeOpus (d : FrameDecoder C) (opusData : List UInt8) : FrameDecoder C × Bool :=
  d.accept (C.decodeFloat d.decoder opusData)

/-- Feed the codec concealment frames without keeping them. -/
def warmUp (d : FrameDecoder C) : ℕ → FrameDecoder C
  | 0 => d
  | n + 1 => { d with decoder := (C.decodeFloat d.decoder []).1 }.warmUp n

/-- Bring the codec across a jump of the sequence number. -/
def bridgeGap (d : FrameDecoder C) (seqNum : UInt64) : FrameDecoder C :=
  match d.opusNextExpectedSeq with
  | none => d
  | some expected =>
    if seqNum ≠ expected then
      let gap := (saturatingSub seqNum expected).toNat
      if 20 < gap then { d with decoder := C.resetState d.decoder }
      else if 0 < gap ∧ gap ≤ 5 then d.warmUp gap
      else d
    else d

/-- Copy a raw payload, or conceal when it holds no sample; the codec is not fed. -/
def captureUncompressed (d : FrameDecoder C) (pkt : RawPacket) : FrameDecoder C :=
  if f32Len pkt = 0 then d.decodePlc else d.load (pcmFrame pkt)

/-- Decode a packet into the decode buffer. -/
def capture (d : FrameDecoder C) (pkt : RawPacket) : FrameDecoder C :=
  let d := d.bridgeGap pkt.seqNum
  let d :=
    if pkt.isSilence then { d.load silence with codecState := .cold }
    else if pkt.isUncompressed then { d.captureUncompressed pkt with codecState := .cold }
    else
      match d.decodeOpus pkt.payload with
      | (d, true) => d
      | (d, false) => d.decodePlc
  { d with opusNextExpectedSeq := some (pkt.seqNum + 1) }

/-- Change the samples of the last frame in place. -/
def mapBuf (d : FrameDecoder C) (g : ℕ → F → F) : FrameDecoder C :=
  { d with decodeBuf := d.decodeBuf.mapIdx g }

/-- Forget the prediction and the expected number. -/
def resync (d : FrameDecoder C) : FrameDecoder C :=
  { d with
    decoder := C.resetState d.decoder, opusNextExpectedSeq := none, codecState := .cold }

/-- Empty the buffer and forget the prediction; the expected number stays. -/
def reset (d : FrameDecoder C) : FrameDecoder C :=
  { d with
    decoder := C.resetState d.decoder
    decodeBuf := ⟨[], Nat.zero_le _⟩
    codecState := .cold }

end FrameDecoder

end Gemacast.Jitter
