import Gemacast.Core.Bytes
import Gemacast.Core.Checked
import Gemacast.Audio.Capture

/-!
# Decoding the samples of a WASAPI buffer

The mix format of a device is parsed once, and its buffers are decoded by four hand-written
branches. They agree with the conversion of one sample, and read nothing outside the buffer.
-/

namespace Gemacast.Audio

open Gemacast.Core

/-- Why a mix format is rejected. -/
inductive CaptureError
  /-- No conversion into the format of the pipeline. -/
  | unsupportedCaptureFormat (rate : UInt32) (channels : ℕ)
  /-- A descriptor that cannot be right. -/
  | captureInstanceFailed (message : String)
  deriving DecidableEq, Repr

/-- The descriptor of a mix format, as the system hands it over. -/
structure WaveFormat where
  /-- The family of formats. -/
  formatTag : UInt16
  /-- Channels of a frame. -/
  channels : UInt16
  /-- Frames per second. -/
  samplesPerSec : UInt32
  /-- Bytes of a frame, as the device says. -/
  blockAlign : UInt16
  /-- Bits of a sample. -/
  bitsPerSample : UInt16
  /-- Bytes of the extension. -/
  cbSize : UInt16
  /-- The format named by the extension; it is there only if the extension is long enough. -/
  subFormat : ℕ
  deriving DecidableEq, Repr

/-- The parsed mix format. -/
structure WasapiFormat where
  /-- Frames per second. -/
  nativeRate : UInt32
  /-- Channels of a frame. -/
  nativeChannels : ℕ
  /-- Bits of a sample. -/
  bitsPerSample : UInt16
  /-- Bytes of a frame. -/
  blockAlign : ℕ
  /-- The samples are floating-point numbers. -/
  isFloat : Bool
  deriving DecidableEq, Repr

/-- The name of the floating-point format. -/
def subtypeIeeeFloat : ℕ := 0x0000000300000010800000aa00389b71

/-- Bytes of the extension that names a format. -/
def extensionSize : UInt16 := 22

/-- A format tag in hexadecimal. -/
def hexTag (tag : UInt16) : String :=
  "0x" ++ String.ofList ((Nat.toDigits 16 tag.toNat).leftpad 4 '0')

/-- Parse the descriptor of a mix format. -/
def parseMixFormat (d : WaveFormat) : Except CaptureError WasapiFormat :=
  let nativeChannels := d.channels.toNat
  let bits := d.bitsPerSample
  if nativeChannels = 0 then .error (.unsupportedCaptureFormat d.samplesPerSec 0)
  else if bits = 0 then
    .error (.captureInstanceFailed <| "WASAPI mix format has zero bits per sample " ++
      s!"(rate {d.samplesPerSec}, {nativeChannels} ch, tag {hexTag d.formatTag})")
  else
    let expected := nativeChannels * (bits.toNat / 8)
    let blockAlign := if d.blockAlign.toNat = expected then d.blockAlign.toNat else expected
    if blockAlign = 0 then
      .error (.captureInstanceFailed <| "WASAPI mix format has zero block alignment " ++
        s!"(rate {d.samplesPerSec}, {nativeChannels} ch, {bits} bits)")
    else
      let isFloat :=
        if d.formatTag = 0xFFFE then
          -- a short extension is not read past its end
          decide (extensionSize ≤ d.cbSize ∧ d.subFormat = subtypeIeeeFloat)
        else decide (d.formatTag = 3)
      .ok ⟨d.samplesPerSec, nativeChannels, bits, blockAlign, isFloat⟩

/-- A parsed format describes frames of whole samples. -/
theorem parseMixFormat_ok {d : WaveFormat} {format : WasapiFormat}
    (h : parseMixFormat d = .ok format) : 0 < format.nativeChannels ∧
      format.blockAlign = format.nativeChannels * (format.bitsPerSample.toNat / 8) ∧
      0 < format.blockAlign := by
  unfold parseMixFormat at h
  dsimp only at h
  split at h
  · nomatch h
  · next hchannels =>
    split at h
    · nomatch h
    · have halign : (if d.blockAlign.toNat = d.channels.toNat * (d.bitsPerSample.toNat / 8) then
          d.blockAlign.toNat else d.channels.toNat * (d.bitsPerSample.toNat / 8)) =
          d.channels.toNat * (d.bitsPerSample.toNat / 8) := by
        split
        · next heq => exact heq
        · rfl
      rw [halign] at h
      split at h
      · nomatch h
      · next hzero =>
        obtain rfl := Except.ok.inj h
        exact ⟨Nat.pos_of_ne_zero hchannels, rfl, Nat.pos_of_ne_zero hzero⟩

section Samples

variable {F : Type} [Binary32 F]

/-- The signed integer with the given little-endian bytes. -/
def leInt (bytes : List UInt8) : ℤ :=
  let n := ofBeBytes bytes.reverse
  if 2 * n < 256 ^ bytes.length then n else n - 256 ^ bytes.length

/-- Conversion of a signed integer. -/
def ofInt (n : ℤ) : F :=
  if n < 0 then 0.0 - Binary32.ofNat n.natAbs else Binary32.ofNat n.natAbs

/-- A 16-bit sample. -/
def ofI16 (bytes : List UInt8) : F := ofInt (leInt bytes) / 32768.0

/-- A sample that fills 32 bits. -/
def ofI32 (bytes : List UInt8) : F := ofInt (leInt bytes) / 2147483648.0

/-- Convert one sample; `none` for a width that is not handled. -/
def pcmSampleToF32 (bytes : List UInt8) (bytesPerSample : ℕ) (isFloat : Bool) : Option F :=
  if bytes.length < bytesPerSample then none
  else
    match isFloat, bytesPerSample with
    | true, 4 => some (Binary32.ofBytes (bytes.take 4))
    | false, 2 => some (ofI16 (bytes.take 2))
    -- shifted into the high three bytes, for the scale of the 32-bit case
    | false, 3 => some (ofI32 (0 :: bytes.take 3))
    | false, 4 => some (ofI32 (bytes.take 4))
    | _, _ => none

/-- The entries of a memory block of `count` entries; `none` where it ends too early. -/
def fromRawParts (buffer : List UInt8) (width count : ℕ) : Option (List (List UInt8)) :=
  if count * width ≤ buffer.length then some ((List.range count).map (block width buffer))
  else none

/-- Sample number `i` of packed 24-bit frames; `none` where an index is out of range. -/
def packedSample (raw : List UInt8) (format : WasapiFormat) (i : ℕ) : Option F :=
  let bytesPerChunk := format.blockAlign / format.nativeChannels
  let offset := i / format.nativeChannels * format.blockAlign +
    i % format.nativeChannels * bytesPerChunk
  if bytesPerChunk = 3 then
    if offset + 2 < raw.length then do
      pure (ofI32 [0, ← raw[offset]?, ← raw[offset + 1]?, ← raw[offset + 2]?])
    else some 0.0
  else if bytesPerChunk = 4 then
    if offset + 3 < raw.length then do
      pure (ofI32 [← raw[offset]?, ← raw[offset + 1]?, ← raw[offset + 2]?, ← raw[offset + 3]?])
    else some 0.0
  else some 0.0

/-- Decode the frames of a buffer; `none` where something outside the buffer is read. -/
def decodeSamplesToF32 (buffer : List UInt8) (format : WasapiFormat) (numFrames : ℕ)
    (counters : CaptureCounters) : Option (List F × CaptureCounters) :=
  if format.nativeChannels = 0 then some ([], counters)
  else
    let totalSamples := numFrames * format.nativeChannels
    if format.isFloat ∧ format.bitsPerSample = 32 then do
      let samples ← fromRawParts buffer 4 totalSamples
      pure (samples.map Binary32.ofBytes, counters)
    else if ¬format.isFloat ∧ format.bitsPerSample = 16 then do
      let samples ← fromRawParts buffer 2 totalSamples
      pure (samples.map ofI16, counters)
    else if ¬format.isFloat ∧ format.bitsPerSample = 24 then do
      let raw ← slice? buffer 0 (numFrames * format.blockAlign)
      let samples ← (List.range totalSamples).mapM (packedSample raw format)
      pure (samples, counters)
    else if ¬format.isFloat ∧ format.bitsPerSample = 32 then do
      let samples ← fromRawParts buffer 4 totalSamples
      pure (samples.map ofI32, counters)
    else
      some (List.replicate totalSamples 0.0,
        { counters with unknownFormatBuffers := counters.unknownFormatBuffers + 1 })

/-- The conversion of one sample handles the width. -/
def Handles (F : Type) [Binary32 F] (isFloat : Bool) (width : ℕ) : Prop :=
  ∃ bytes, (pcmSampleToF32 (F := F) bytes width isFloat).isSome = true

/-- The widths that are handled. -/
theorem Handles.cases {isFloat : Bool} {width : ℕ} (h : Handles F isFloat width) :
    (isFloat = true ∧ width = 4) ∨ (isFloat = false ∧ (width = 2 ∨ width = 3 ∨ width = 4)) := by
  obtain ⟨bytes, h⟩ := h
  unfold pcmSampleToF32 at h
  split at h
  · nomatch h
  · split at h
    · exact .inl ⟨rfl, rfl⟩
    · exact .inr ⟨rfl, .inl rfl⟩
    · exact .inr ⟨rfl, .inr (.inl rfl)⟩
    · exact .inr ⟨rfl, .inr (.inr rfl)⟩
    · nomatch h

variable {buffer : List UInt8} {format : WasapiFormat} {numFrames total width i : ℕ}

/-- The bytes from sample number `i` on are enough for it. -/
theorem width_le_drop (hlength : buffer.length = total * width) (hi : i < total) :
    width ≤ (buffer.drop (i * width)).length := by
  have hmul : (i + 1) * width ≤ total * width := Nat.mul_le_mul_right width hi
  rw [Nat.succ_mul] at hmul
  rw [List.length_drop]
  omega

/-- A block of memory of the right length is read, entry by entry. -/
theorem fromRawParts_eq (hlength : buffer.length = total * width) :
    fromRawParts buffer width total = some ((List.range total).map (block width buffer)) :=
  if_pos (by omega)

/-- Frames of three-byte samples are decoded where they lie. -/
theorem packedSample_eq (hchannels : 0 < format.nativeChannels)
    (halign : format.blockAlign = format.nativeChannels * 3)
    (hlength : buffer.length = total * 3) (hi : i < total) :
    packedSample (F := F) buffer format i = some (ofI32 (0 :: (buffer.drop (i * 3)).take 3)) := by
  have hchunk : format.blockAlign / format.nativeChannels = 3 := by
    rw [halign, Nat.mul_div_cancel_left _ hchannels]
  have hoffset : i / format.nativeChannels * format.blockAlign + i % format.nativeChannels * 3 =
      i * 3 := by
    calc i / format.nativeChannels * format.blockAlign + i % format.nativeChannels * 3
        = (i / format.nativeChannels * format.nativeChannels + i % format.nativeChannels) * 3 := by
          rw [halign, Nat.add_mul, Nat.mul_assoc]
      _ = i * 3 := by rw [Nat.div_add_mod']
  have hfirst : i * 3 < buffer.length := by omega
  have hsecond : i * 3 + 1 < buffer.length := by omega
  have hthird : i * 3 + 2 < buffer.length := by omega
  unfold packedSample
  dsimp only
  rw [hchunk, hoffset, if_pos rfl, if_pos hthird, List.getElem?_eq_getElem hfirst,
    List.getElem?_eq_getElem hsecond, List.getElem?_eq_getElem hthird,
    List.drop_eq_getElem_cons hfirst, List.drop_eq_getElem_cons hsecond,
    List.drop_eq_getElem_cons hthird]
  rfl

/-- What the decoding of a buffer comes to. -/
def AgreesWithReference (buffer : List UInt8) (format : WasapiFormat) (numFrames : ℕ)
    (counters : CaptureCounters) (output : List F) (counters' : CaptureCounters) : Prop :=
  output.length = numFrames * format.nativeChannels ∧
    (Handles F format.isFloat (format.bitsPerSample.toNat / 8) → counters' = counters ∧
      ∀ i < output.length, output[i]? =
        pcmSampleToF32 (buffer.drop (i * format.bitsPerSample.toNat / 8))
          (format.bitsPerSample.toNat / 8) format.isFloat) ∧
    (¬Handles F format.isFloat (format.bitsPerSample.toNat / 8) → (∀ x ∈ output, x = 0.0) ∧
      counters' = { counters with unknownFormatBuffers := counters.unknownFormatBuffers + 1 })

/-- The width and the conversion of the samples of a format that is not decoded as silence. -/
def sampleConversion (F : Type) [Binary32 F] (format : WasapiFormat) :
    Option (ℕ × (List UInt8 → F)) :=
  if format.isFloat ∧ format.bitsPerSample = 32 then some (4, Binary32.ofBytes)
  else if ¬format.isFloat ∧ format.bitsPerSample = 16 then some (2, ofI16)
  else if ¬format.isFloat ∧ format.bitsPerSample = 24 then some (3, fun bytes => ofI32 (0 :: bytes))
  else if ¬format.isFloat ∧ format.bitsPerSample = 32 then some (4, ofI32)
  else none

variable {conv : List UInt8 → F}

/-- A format with a conversion is one of those that one sample is converted in. -/
theorem pcmSampleToF32_eq (h : sampleConversion F format = some (width, conv)) :
    format.bitsPerSample.toNat = 8 * width ∧ ∀ bytes : List UInt8, width ≤ bytes.length →
      pcmSampleToF32 bytes width format.isFloat = some (conv (bytes.take width)) := by
  have hwide : ∀ {bytes : List UInt8}, width ≤ bytes.length → ¬bytes.length < width :=
    Nat.not_lt.mpr
  unfold sampleConversion at h
  split at h
  · next hfloat =>
    obtain ⟨rfl, rfl⟩ := Prod.mk.inj (Option.some.inj h)
    exact ⟨congrArg UInt16.toNat hfloat.2, fun bytes hle =>
      (congrArg _ hfloat.1).trans (if_neg (hwide hle))⟩
  · split at h
    · next h16 =>
      obtain ⟨rfl, rfl⟩ := Prod.mk.inj (Option.some.inj h)
      exact ⟨congrArg UInt16.toNat h16.2, fun bytes hle =>
        (congrArg _ (Bool.eq_false_iff.mpr h16.1)).trans (if_neg (hwide hle))⟩
    · split at h
      · next h24 =>
        obtain ⟨rfl, rfl⟩ := Prod.mk.inj (Option.some.inj h)
        exact ⟨congrArg UInt16.toNat h24.2, fun bytes hle =>
          (congrArg _ (Bool.eq_false_iff.mpr h24.1)).trans (if_neg (hwide hle))⟩
      · split at h
        · next h32 =>
          obtain ⟨rfl, rfl⟩ := Prod.mk.inj (Option.some.inj h)
          exact ⟨congrArg UInt16.toNat h32.2, fun bytes hle =>
            (congrArg _ (Bool.eq_false_iff.mpr h32.1)).trans (if_neg (hwide hle))⟩
        · nomatch h

/-- A format of whole bytes without a conversion is none of them. -/
theorem not_handles (h : sampleConversion F format = none)
    (hbits : format.bitsPerSample.toNat = 8 * width) : ¬Handles F format.isFloat width := by
  intro hhandles
  have hvalue : ∀ n : UInt16, format.bitsPerSample.toNat = n.toNat → format.bitsPerSample = n :=
    fun n => UInt16.toNat_inj.mp
  unfold sampleConversion at h
  obtain ⟨hfloat, rfl⟩ | ⟨hint, rfl | rfl | rfl⟩ := hhandles.cases
  · simp [hfloat, hvalue 32 hbits] at h
  · simp [hint, hvalue 16 hbits] at h
  · simp [hint, hvalue 24 hbits] at h
  · simp [hint, hvalue 32 hbits] at h

/-- Whole frames are decoded sample by sample, each where it lies. -/
theorem decodeSamplesToF32_eq (hchannels : 0 < format.nativeChannels)
    (h : sampleConversion F format = some (width, conv))
    (halign : format.blockAlign = format.nativeChannels * width)
    (hlength : buffer.length = numFrames * format.blockAlign) (counters : CaptureCounters) :
    decodeSamplesToF32 buffer format numFrames counters =
      some ((List.range (numFrames * format.nativeChannels)).map fun i =>
        conv (block width buffer i), counters) := by
  have htotal : buffer.length = numFrames * format.nativeChannels * width := by
    rw [hlength, halign, Nat.mul_assoc]
  unfold sampleConversion at h
  unfold decodeSamplesToF32
  rw [if_neg hchannels.ne']
  dsimp only
  split at h
  · next hfloat =>
    obtain ⟨rfl, rfl⟩ := Prod.mk.inj (Option.some.inj h)
    rw [if_pos hfloat, fromRawParts_eq htotal, Option.bind_eq_bind, Option.bind_some,
      List.map_map]
    rfl
  · next hfloat =>
    rw [if_neg hfloat]
    split at h
    · next h16 =>
      obtain ⟨rfl, rfl⟩ := Prod.mk.inj (Option.some.inj h)
      rw [if_pos h16, fromRawParts_eq htotal, Option.bind_eq_bind, Option.bind_some,
        List.map_map]
      rfl
    · next h16 =>
      rw [if_neg h16]
      split at h
      · next h24 =>
        obtain ⟨rfl, rfl⟩ := Prod.mk.inj (Option.some.inj h)
        have hraw : slice? buffer 0 (numFrames * format.blockAlign) = some buffer := by
          rw [← hlength, slice?_eq (Nat.zero_le _) (Nat.le_refl _), slice_zero, List.take_length]
        have hsamples := mapM_eq_some (l := List.range (numFrames * format.nativeChannels))
          (g := fun i => ofI32 (F := F) (0 :: (buffer.drop (i * 3)).take 3))
          fun i hi => packedSample_eq hchannels halign htotal (List.mem_range.mp hi)
        rw [if_pos h24, hraw, Option.bind_eq_bind, Option.bind_some, hsamples]
        rfl
      · next h24 =>
        rw [if_neg h24]
        split at h
        · next h32 =>
          obtain ⟨rfl, rfl⟩ := Prod.mk.inj (Option.some.inj h)
          rw [if_pos h32, fromRawParts_eq htotal, Option.bind_eq_bind, Option.bind_some,
            List.map_map]
          rfl
        · nomatch h

/-- A format without a conversion is decoded as silence, and counted. -/
theorem decodeSamplesToF32_unknown (hchannels : 0 < format.nativeChannels)
    (h : sampleConversion F format = none) (counters : CaptureCounters) :
    decodeSamplesToF32 (F := F) buffer format numFrames counters =
      some (List.replicate (numFrames * format.nativeChannels) 0.0,
        { counters with unknownFormatBuffers := counters.unknownFormatBuffers + 1 }) := by
  unfold sampleConversion at h
  unfold decodeSamplesToF32
  rw [if_neg hchannels.ne']
  dsimp only
  split at h
  · nomatch h
  · next hfloat =>
    rw [if_neg hfloat]
    split at h
    · nomatch h
    · next h16 =>
      rw [if_neg h16]
      split at h
      · nomatch h
      · next h24 =>
        rw [if_neg h24]
        split at h
        · nomatch h
        · next h32 => rw [if_neg h32]

/-- For every parsed format of whole bytes and every buffer of whole frames the decoding stays
inside the buffer, and each sample is the conversion of its bytes, or silence that is counted. -/
theorem decode_agrees (F : Type) [Binary32 F] (d : WaveFormat) (format : WasapiFormat)
    (hparse : parseMixFormat d = .ok format) (hbits : format.bitsPerSample.toNat % 8 = 0)
    (numFrames : ℕ) (buffer : List UInt8) (hlength : buffer.length = numFrames * format.blockAlign)
    (counters : CaptureCounters) : ∃ output counters',
      decodeSamplesToF32 (F := F) buffer format numFrames counters = some (output, counters') ∧
        AgreesWithReference buffer format numFrames counters output counters' := by
  obtain ⟨hchannels, halign, -⟩ := parseMixFormat_ok hparse
  cases hconversion : sampleConversion F format with
  | some conversion =>
    obtain ⟨width, conv⟩ := conversion
    obtain ⟨hwidth, hconv⟩ := pcmSampleToF32_eq hconversion
    have hdiv : format.bitsPerSample.toNat / 8 = width := by omega
    rw [hdiv] at halign
    refine ⟨_, _, decodeSamplesToF32_eq hchannels hconversion halign hlength counters, ?_,
      fun _ => ⟨rfl, fun i hi => ?_⟩, fun h => absurd ?_ h⟩
    · rw [List.length_map, List.length_range]
    · rw [List.length_map, List.length_range] at hi
      have hoffset : i * format.bitsPerSample.toNat / 8 = i * width := by
        rw [hwidth, Nat.mul_left_comm, Nat.mul_div_cancel_left _ (by decide)]
      have htotal : buffer.length = numFrames * format.nativeChannels * width := by
        rw [hlength, halign, Nat.mul_assoc]
      rw [hdiv, hoffset, hconv _ (width_le_drop htotal hi), List.getElem?_map,
        List.getElem?_range hi]
      rfl
    · refine ⟨List.replicate width 0, ?_⟩
      rw [hdiv, hconv _ (by rw [List.length_replicate])]
      rfl
  | none =>
    have hwidth : format.bitsPerSample.toNat = 8 * (format.bitsPerSample.toNat / 8) := by omega
    exact ⟨_, _, decodeSamplesToF32_unknown hchannels hconversion counters,
      List.length_replicate, fun h => absurd h (not_handles hconversion hwidth),
      fun _ => ⟨fun x hx => List.eq_of_mem_replicate hx, rfl⟩⟩

/-- Packed 24-bit stereo, with a frame size that the device gets wrong. -/
def packedStereo : WaveFormat := ⟨1, 2, 44100, 8, 24, 0, 0⟩

theorem decode_agrees_packedStereo :
    parseMixFormat packedStereo = .ok ⟨44100, 2, 24, 6, false⟩ ∧
      ∃ output counters', decodeSamplesToF32 (F := SoftFloat)
          [0, 0, 64, 0, 0, 192, 1, 0, 0, 255, 255, 127] ⟨44100, 2, 24, 6, false⟩ 2 {} =
            some (output, counters') ∧
        AgreesWithReference [0, 0, 64, 0, 0, 192, 1, 0, 0, 255, 255, 127]
          ⟨44100, 2, 24, 6, false⟩ 2 {} output counters' := by
  have hparse : parseMixFormat packedStereo = .ok ⟨44100, 2, 24, 6, false⟩ := by rfl
  exact ⟨hparse, decode_agrees SoftFloat packedStereo _ hparse (by decide) 2 _ (by decide) {}⟩

example : pcmSampleToF32 (F := SoftFloat) [0, 0, 0x80] 3 false =
    some (.finite true (2 ^ 23) (-23)) := by
  decide +kernel

end Samples

end Gemacast.Audio
