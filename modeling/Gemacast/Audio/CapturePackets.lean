import Gemacast.Audio.Mixdown
import Gemacast.Audio.Resampler
import Gemacast.Audio.SampleDecode

/-!
# The packets of an application capture

An audible packet is decoded, folded to stereo and resampled if the device is not at 48 kHz
stereo; a silent packet becomes as many zeros as it has frames, past the resampler. Only where
there is no resampler, or no silence, what goes to the ring is the captured stream at 48 kHz.
-/

namespace Gemacast.Audio

open Gemacast.Core

variable {F : Type} [Binary32 F] {R : Rubato F}

/-- One packet, as the system hands it over. -/
structure CapturePacket where
  /-- Its frames. -/
  frames : UInt32
  /-- Its flags. -/
  flags : UInt32
  /-- Its bytes; `none` for a null pointer. -/
  buffer : Option (List UInt8)
  /-- The samples that the ring has room for. -/
  vacantLen : ℕ

/-- The bytes of a packet that is not silent. -/
def CapturePacket.audible (packet : CapturePacket) : Option (List UInt8) :=
  if packet.flags &&& 2 = 0 then packet.buffer else none

/-- An application capture. -/
structure LoopbackCapture (R : Rubato F) where
  /-- The resampler, if the device is not at 48 kHz stereo. -/
  resampler : Option (CaptureResampler R)
  /-- What is counted. -/
  counters : CaptureCounters
  /-- A packet could not be converted, and the capture has ended. -/
  failed : Bool

/-- What became of a packet. -/
structure Sent (F : Type) where
  /-- Its samples in the format of the pipeline. -/
  samples : List F
  /-- They were pushed to the ring, not dropped. -/
  pushed : Bool

/-- Set up a capture for a mix format. -/
def initializeApplicationLoopback (R : Rubato F) (format : WasapiFormat)
    (counters : CaptureCounters) : Except ResampleFailed (LoopbackCapture R) :=
  if format.nativeRate ≠ 48000 ∨ format.nativeChannels ≠ 2 then
    match CaptureResampler.new R format.nativeRate.toNat 48000 2 with
    | .error e => .error e
    | .ok resampler => .ok ⟨some resampler, counters, false⟩
  else .ok ⟨none, counters, false⟩

/-- Push samples if the ring has room for all of them, else drop and count them. -/
def pushOrDrop (counters : CaptureCounters) (vacantLen : ℕ) (samples : List F) :
    CaptureCounters × Sent F :=
  if samples.length ≤ vacantLen then (counters, ⟨samples, true⟩)
  else
    ({ counters with
        droppedSamples := counters.droppedSamples + UInt64.ofNat samples.length },
      ⟨samples, false⟩)

/-- Stereo from decoded samples. -/
def stereoInput (format : WasapiFormat) (decoded : List F) : Option (List F) :=
  if format.nativeChannels = 2 then some decoded
  else downmixToStereo decoded format.nativeChannels

/-- Decoded samples at 48 kHz stereo. -/
def finalSamples (format : WasapiFormat) (resampler : Option (CaptureResampler R))
    (decoded : List F) :
    Option (Option (CaptureResampler R) × Except ResampleFailed (List F)) :=
  match resampler with
  | none => some (none, .ok decoded)
  | some resampler => do
    let stereo ← stereoInput format decoded
    let processed := resampler.processInterleaved stereo
    pure (some processed.resampler, processed.output)

namespace LoopbackCapture

/-- Convert a packet and push it; `none` where something outside its bytes is read. -/
def drainPacket (format : WasapiFormat) (capture : LoopbackCapture R) (packet : CapturePacket) :
    Option (LoopbackCapture R × Except ResampleFailed (Sent F)) :=
  if packet.frames = 0 then some (capture, .ok ⟨[], true⟩)
  else
    match packet.audible with
    | none =>
      let counters :=
        { capture.counters with silentBuffers := capture.counters.silentBuffers + 1 }
      let sent := pushOrDrop counters packet.vacantLen
        (List.replicate (packet.frames.toNat * 2) (0.0 : F))
      some ({ capture with counters := sent.1 }, .ok sent.2)
    | some bytes => do
      let decoded ← decodeSamplesToF32 bytes format packet.frames.toNat capture.counters
      let final ← finalSamples format capture.resampler decoded.1
      match final.2 with
      | .error e =>
        pure (⟨final.1, decoded.2, true⟩, .error ⟨"audio resampling failed: " ++ e.message⟩)
      | .ok samples =>
        let sent := pushOrDrop decoded.2 packet.vacantLen samples
        pure (⟨final.1, sent.1, false⟩, .ok sent.2)

/-- A capture and its packets, up to the first that cannot be converted. -/
def machine (format : WasapiFormat) (capture : LoopbackCapture R) :
    Machine (LoopbackCapture R) CapturePacket (Option (Except ResampleFailed (Sent F))) :=
  ⟨capture, fun capture packet =>
    if capture.failed then (capture, none)
    else
      match capture.drainPacket format packet with
      | none => (capture, none)
      | some (next, result) => (next, some result)⟩

end LoopbackCapture

section Stream

variable {format : WasapiFormat} {packet : CapturePacket}

/-- The stereo samples that a packet stands for, at the rate of the device. -/
def captured (F : Type) [Binary32 F] (format : WasapiFormat) (packet : CapturePacket) :
    Option (List F) :=
  if packet.frames = 0 then some []
  else
    match packet.audible with
    | none => some (List.replicate (packet.frames.toNat * 2) 0.0)
    | some bytes => do
      let decoded ← decodeSamplesToF32 bytes format packet.frames.toNat {}
      stereoInput format decoded.1

/-- A packet of whole frames, within the bound of one call of the resampler. -/
structure CapturePacket.Deliverable (format : WasapiFormat) (packet : CapturePacket) : Prop where
  /-- An audible packet has the bytes of its frames. -/
  whole : ∀ bytes, packet.audible = some bytes →
    bytes.length = packet.frames.toNat * format.blockAlign
  /-- Its frames are no more than one call may bring. -/
  bounded : packet.frames.toNat * 2 ≤ maxInputSamplesPerCall

/-- Whole frames are decoded, with one sample for each channel, whatever was counted. -/
theorem decodeSamplesToF32_isSome (F : Type) [Binary32 F] {d : WaveFormat}
    (hparse : parseMixFormat d = .ok format) {bytes : List UInt8} {numFrames : ℕ}
    (hlength : bytes.length = numFrames * format.blockAlign) :
    ∃ decoded : List F, decoded.length = numFrames * format.nativeChannels ∧
      ∀ counters, ∃ counters',
        decodeSamplesToF32 bytes format numFrames counters = some (decoded, counters') ∧
        counters'.droppedSamples = counters.droppedSamples := by
  obtain ⟨hchannels, halign, -⟩ := parseMixFormat_ok hparse
  cases hconversion : sampleConversion F format with
  | some conversion =>
    have hwidth := (pcmSampleToF32_eq hconversion).1
    rw [hwidth, Nat.mul_div_cancel_left _ (by decide)] at halign
    refine ⟨_, ?_, fun counters =>
      ⟨counters, decodeSamplesToF32_eq hchannels hconversion halign hlength counters, rfl⟩⟩
    rw [List.length_map, List.length_range]
  | none =>
    exact ⟨_, List.length_replicate, fun counters =>
      ⟨_, decodeSamplesToF32_unknown hchannels hconversion counters, rfl⟩⟩

/-- What a decoded packet stands for in stereo has a pair for each frame. -/
theorem stereoInput_isSome {d : WaveFormat} (hparse : parseMixFormat d = .ok format)
    {decoded : List F} {numFrames : ℕ}
    (hlength : decoded.length = numFrames * format.nativeChannels) :
    ∃ stereo, stereoInput format decoded = some stereo ∧ stereo.length = numFrames * 2 := by
  obtain ⟨hchannels, -, -⟩ := parseMixFormat_ok hparse
  unfold stereoInput
  split
  · next h => exact ⟨decoded, rfl, by rw [hlength, h]⟩
  · next h =>
    obtain ⟨stereo, hstereo, hpairs⟩ := downmixToStereo_isSome decoded format.nativeChannels
    refine ⟨stereo, hstereo, ?_⟩
    rw [hpairs, if_neg h, hlength, Nat.mul_div_cancel _ hchannels, Nat.mul_comm]

end Stream

section Run

open CaptureResampler

variable {format : WasapiFormat} {d : WaveFormat} {packet : CapturePacket}
  {capture : LoopbackCapture R} {stream emitted : List F}

/-- The stereo samples that a packet stands for, if it can be decoded. -/
def capturedSamples (F : Type) [Binary32 F] (format : WasapiFormat) (packet : CapturePacket) :
    List F :=
  (captured F format packet).getD []

/-- The samples of a packet that are dropped. -/
def Sent.dropped (sent : Sent F) : List F := if sent.pushed then [] else sent.samples

/-- A capture that converts a stream has this behind it. -/
def FollowsFrom (P : R.FixedInput format.nativeRate.toNat 48000 2) (stream emitted : List F) :
    Option (CaptureResampler R) → Option (CaptureResampler R) → Prop
  | none, none => emitted = stream
  | some start, some resampler => Follows P start.inner stream emitted resampler
  | _, _ => False

variable {P : R.FixedInput format.nativeRate.toNat 48000 2}
  {start : Option (CaptureResampler R)}

omit [Binary32 F] in
/-- It had a resampler if it has one now. -/
theorem FollowsFrom.cases {now : Option (CaptureResampler R)}
    (h : FollowsFrom P stream emitted start now) :
    (start = none ∧ now = none ∧ emitted = stream) ∨
      ∃ first r, start = some first ∧ now = some r ∧ Follows P first.inner stream emitted r := by
  match start, now with
  | none, none => exact .inl ⟨rfl, rfl, h⟩
  | some first, some r => exact .inr ⟨first, r, rfl, rfl, h⟩
  | none, some _ => exact h.elim
  | some _, none => exact h.elim

omit [Binary32 F] in
/-- What is pushed or dropped are the samples, and what is dropped is counted. -/
theorem pushOrDrop_eq (counters : CaptureCounters) (vacantLen : ℕ) (samples : List F) :
    (pushOrDrop counters vacantLen samples).2.samples = samples ∧
      (pushOrDrop counters vacantLen samples).1.droppedSamples = counters.droppedSamples +
        UInt64.ofNat (pushOrDrop counters vacantLen samples).2.dropped.length := by
  unfold pushOrDrop
  split
  · exact ⟨rfl, (UInt64.add_zero _).symm⟩
  · exact ⟨rfl, rfl⟩

/-- Decoded samples are converted behind the stream. -/
theorem FollowsFrom.finalSamples (h : FollowsFrom P stream emitted start capture.resampler)
    (hstereo : start = none → format.nativeChannels = 2) {decoded stereo : List F}
    (hinput : stereoInput format decoded = some stereo)
    (hbounded : stereo.length ≤ maxInputSamplesPerCall) :
    ∃ resampler samples, finalSamples format capture.resampler decoded =
        some (resampler, .ok samples) ∧
      FollowsFrom P (stream ++ stereo) (emitted ++ samples) start resampler := by
  unfold Audio.finalSamples
  obtain ⟨rfl, hnow, rfl⟩ | ⟨first, r, rfl, hnow, hfollows⟩ := h.cases
  · rw [stereoInput, if_pos (hstereo rfl)] at hinput
    obtain rfl := Option.some.inj hinput
    rw [hnow]
    exact ⟨none, decoded, rfl, rfl⟩
  · obtain ⟨output, houtput, hnext⟩ := hfollows.processInterleaved (by decide) hbounded
    refine ⟨some (r.processInterleaved stereo).resampler, output, ?_, hnext⟩
    rw [hnow, ← houtput]
    dsimp only
    rw [hinput]
    rfl

/-- Where there is no resampler, or the packet is not silent, the packet is converted behind the
stream. -/
theorem FollowsFrom.drainPacket (hparse : parseMixFormat d = .ok format)
    (h : FollowsFrom P stream emitted start capture.resampler)
    (hstereo : start = none → format.nativeChannels = 2) (hrunning : capture.failed = false)
    (hdelivered : packet.Deliverable format)
    (hheard : start = none ∨ packet.frames = 0 ∨ packet.audible.isSome = true) :
    ∃ next sent, capture.drainPacket format packet = some (next, .ok sent) ∧
      next.failed = false ∧
      next.counters.droppedSamples =
        capture.counters.droppedSamples + UInt64.ofNat sent.dropped.length ∧
      (capturedSamples F format packet).length = packet.frames.toNat * 2 ∧
      FollowsFrom P (stream ++ capturedSamples F format packet) (emitted ++ sent.samples) start
        next.resampler := by
  unfold LoopbackCapture.drainPacket capturedSamples captured
  by_cases hframes : packet.frames = 0
  · rw [if_pos hframes, if_pos hframes, hframes]
    refine ⟨capture, _, rfl, hrunning, (UInt64.add_zero _).symm, rfl, ?_⟩
    rw [Option.getD_some, List.append_nil, List.append_nil]
    exact h
  rw [if_neg hframes, if_neg hframes]
  cases haudible : packet.audible with
  | none =>
    have hnone : start = none := by simpa [hframes, haudible] using hheard
    obtain ⟨hsamples, hdropped⟩ := pushOrDrop_eq
      { capture.counters with silentBuffers := capture.counters.silentBuffers + 1 }
      packet.vacantLen (List.replicate (packet.frames.toNat * 2) (0.0 : F))
    refine ⟨_, _, rfl, hrunning, hdropped, List.length_replicate, ?_⟩
    obtain ⟨rfl, hnow, rfl⟩ | ⟨_, _, rfl, -, -⟩ := h.cases
    · rw [hsamples, hnow]
      rfl
    · nomatch hnone
  | some bytes =>
    obtain ⟨decoded, hlength, hdecoded⟩ :=
      decodeSamplesToF32_isSome F hparse (hdelivered.whole bytes haudible)
    obtain ⟨stereo, hinput, hpairs⟩ := stereoInput_isSome hparse hlength
    obtain ⟨fresh, hfresh, -⟩ := hdecoded {}
    obtain ⟨counters, hcounters, hkept⟩ := hdecoded capture.counters
    obtain ⟨resampler, samples, hfinal, hnext⟩ :=
      h.finalSamples hstereo hinput (hpairs ▸ hdelivered.bounded)
    obtain ⟨hsamples, hdropped⟩ := pushOrDrop_eq counters packet.vacantLen samples
    simp only [hfresh, hcounters, Option.bind_eq_bind, Option.bind_some, hfinal, hinput,
      Option.getD_some]
    refine ⟨_, _, rfl, rfl, hkept ▸ hdropped, hpairs, ?_⟩
    rw [hsamples]
    exact hnext

omit [Binary32 F] in
/-- A capture that is set up has converted nothing, and has no resampler at 48 kHz stereo. -/
theorem initialize_eq {counters : CaptureCounters}
    (hstart : initializeApplicationLoopback R format counters = .ok capture) :
    capture.failed = false ∧ FollowsFrom P [] [] capture.resampler capture.resampler ∧
      (capture.resampler = none ↔ format.nativeRate = 48000 ∧ format.nativeChannels = 2) ∧
      ∀ r, capture.resampler = some r → P.Valid r.inner ∧ P.savedFrames r.inner = 0 := by
  unfold initializeApplicationLoopback at hstart
  split at hstart
  · next hother =>
    split at hstart
    · nomatch hstart
    · next r hnew =>
      obtain rfl := Except.ok.inj hstart
      obtain ⟨hchannels, -, -, hidle, hempty, hsaved, -⟩ := idle_of_new (P := P) hnew
      refine ⟨rfl, ⟨hidle, ?_, ?_⟩, iff_of_false nofun fun h => ?_, fun r' h => ?_⟩
      · rw [chunksExact_of_lt (Nat.mul_pos (by decide) hchannels)]
        rfl
      · rw [chunksRest_of_lt (Nat.mul_pos (by decide) hchannels), hempty]
      · exact hother.elim (fun hrate => hrate h.1) fun hstereo => hstereo h.2
      · obtain rfl := Option.some.inj h
        exact ⟨hidle.ready.valid, hsaved⟩
  · next hpipeline =>
    obtain rfl := Except.ok.inj hstart
    have hformat := not_or.mp hpipeline
    exact ⟨rfl, rfl, iff_of_true rfl ⟨not_not.mp hformat.1, not_not.mp hformat.2⟩, nofun⟩

/-- One packet of a run, and what became of it. -/
abbrev PacketEvent (R : Rubato F) :=
  Event (LoopbackCapture R) CapturePacket (Option (Except ResampleFailed (Sent F)))

/-- The samples of a packet that are pushed or dropped. -/
def sentSamples (e : PacketEvent R) : List F :=
  match e.output with
  | some (.ok sent) => sent.samples
  | _ => []

/-- The samples of a packet that are dropped. -/
def droppedSamples (e : PacketEvent R) : List F :=
  match e.output with
  | some (.ok sent) => sent.dropped
  | _ => []

/-- A run that has converted its packets in order. -/
structure Tracks (P : R.FixedInput format.nativeRate.toNat 48000 2) (start : LoopbackCapture R)
    (history : List (PacketEvent R)) (capture : LoopbackCapture R) : Prop where
  /-- The capture has not ended. -/
  running : capture.failed = false
  /-- Every packet is pushed or dropped. -/
  sent : ∀ e ∈ history, ∃ sent, e.output = some (.ok sent)
  /-- What is dropped is counted. -/
  counted : capture.counters.droppedSamples = start.counters.droppedSamples +
    UInt64.ofNat (history.flatMap droppedSamples).length
  /-- The packets stand for a pair for each frame. -/
  received : ((history.map Event.input).flatMap (capturedSamples F format)).length =
    ((history.map Event.input).map fun packet => packet.frames.toNat).sum * 2
  /-- They are converted behind each other. -/
  follows : FollowsFrom P ((history.map Event.input).flatMap (capturedSamples F format))
    (history.flatMap sentSamples) start.resampler capture.resampler

/-- One packet more. -/
theorem Tracks.step (hparse : parseMixFormat d = .ok format) {origin : LoopbackCapture R}
    {history : List (PacketEvent R)} (h : Tracks P origin history capture)
    (hstereo : origin.resampler = none → format.nativeChannels = 2)
    (hdelivered : packet.Deliverable format)
    (hheard : origin.resampler = none ∨ packet.frames = 0 ∨ packet.audible.isSome = true) :
    Tracks P origin (history ++ [(LoopbackCapture.machine format origin).eventAt capture packet])
      ((LoopbackCapture.machine format origin).step capture packet).1 := by
  obtain ⟨next, sent, hpacket, hrunning, hcounted, hreceived, hfollows⟩ :=
    h.follows.drainPacket hparse hstereo h.running hdelivered hheard
  have hstep : (LoopbackCapture.machine format origin).step capture packet =
      (next, some (.ok sent)) := by
    dsimp only [LoopbackCapture.machine]
    rw [if_neg (by simp [h.running]), hpacket]
  have hevent : (LoopbackCapture.machine format origin).eventAt capture packet =
      ⟨capture, packet, some (.ok sent), next⟩ := by
    rw [Machine.eventAt, hstep]
  rw [hevent, hstep]
  refine ⟨hrunning, fun e he => ?_, ?_, ?_, ?_⟩
  · obtain he | he := List.mem_append.mp he
    · exact h.sent e he
    · exact ⟨sent, congrArg Event.output (List.mem_singleton.mp he)⟩
  · rw [hcounted, h.counted, List.flatMap_append, List.flatMap_singleton, List.length_append,
      UInt64.ofNat_add, UInt64.add_assoc]
    rfl
  · rw [List.map_append, List.map_singleton, List.flatMap_append, List.flatMap_singleton,
      List.length_append, h.received, hreceived, List.map_append, List.sum_append,
      List.map_singleton, List.sum_singleton, Nat.add_mul]
  · rw [List.map_append, List.map_singleton, List.flatMap_append, List.flatMap_singleton,
      List.flatMap_append, List.flatMap_singleton]
    exact hfollows

/-- The part of a stream at the rate of the device that fills chunks, at 48 kHz. -/
def atPipelineRate (P : R.FixedInput format.nativeRate.toNat 48000 2) :
    Option (CaptureResampler R) → List F → List F
  | none, stream => stream
  | some start, stream => (feedAll P start.inner (chunksExact (chunkSize * 2) stream)).2

/-- The samples that wait for a chunk to be filled, and those that wait in the resampler. -/
def waiting (P : R.FixedInput format.nativeRate.toNat 48000 2) :
    Option (CaptureResampler R) → ℕ
  | none => 0
  | some r => P.savedFrames r.inner * 2 + r.remainder.length

/-- What is pushed or dropped is the captured stream at 48 kHz: in order, and with what waits
as much as the frames that were received. -/
structure KeepsClock (format : WasapiFormat)
    (P : R.FixedInput format.nativeRate.toNat 48000 2) (capture : LoopbackCapture R)
    (packets : List CapturePacket) : Prop where
  /-- Every packet is pushed or dropped. -/
  sent : ∀ e ∈ (LoopbackCapture.machine format capture).events packets,
    ∃ sent, e.output = some (.ok sent)
  /-- What is dropped is counted. -/
  counted : ((LoopbackCapture.machine format capture).run packets).counters.droppedSamples =
    capture.counters.droppedSamples + UInt64.ofNat
      (((LoopbackCapture.machine format capture).events packets).flatMap droppedSamples).length
  /-- The samples are those of the captured stream. -/
  converted : ((LoopbackCapture.machine format capture).events packets).flatMap sentSamples =
    atPipelineRate P capture.resampler (packets.flatMap (capturedSamples F format))
  /-- They account for every frame. -/
  amount : (((LoopbackCapture.machine format capture).events packets).flatMap
        sentSamples).length * format.nativeRate.toNat +
      waiting P ((LoopbackCapture.machine format capture).run packets).resampler * 48000 =
    (packets.map fun packet => packet.frames.toNat).sum * 2 * 48000

omit [Binary32 F] in
/-- What a capture has converted is the stream at 48 kHz. -/
theorem FollowsFrom.converted {now : Option (CaptureResampler R)}
    (h : FollowsFrom P stream emitted start now) : emitted = atPipelineRate P start stream := by
  obtain ⟨rfl, rfl, rfl⟩ | ⟨first, r, rfl, rfl, hfollows⟩ := h.cases
  · rfl
  · exact (congrArg Prod.snd hfollows.fed).symm

omit [Binary32 F] in
/-- With what waits it is as much as the stream. -/
theorem FollowsFrom.amount {now : Option (CaptureResampler R)}
    (h : FollowsFrom P stream emitted start now) (hproportional : P.Proportional)
    (hrate : start = none → format.nativeRate = 48000)
    (hfirst : ∀ r, start = some r → P.Valid r.inner ∧ P.savedFrames r.inner = 0) :
    emitted.length * format.nativeRate.toNat + waiting P now * 48000 = stream.length * 48000 := by
  obtain ⟨rfl, rfl, rfl⟩ | ⟨first, r, rfl, rfl, hfollows⟩ := h.cases
  · have hpipeline : format.nativeRate.toNat = 48000 := congrArg UInt32.toNat (hrate rfl)
    rw [hpipeline, waiting, Nat.zero_mul, Nat.add_zero]
  · obtain ⟨hvalid, hsaved⟩ := hfirst first rfl
    exact hfollows.amount hproportional hvalid hsaved

/-- For every mix format, if the device is at 48 kHz stereo, or no packet with frames is silent,
then after every packet what was pushed or dropped is the captured stream at 48 kHz. -/
theorem keepsClock_of_run (d : WaveFormat) (hparse : parseMixFormat d = .ok format)
    (P : R.FixedInput format.nativeRate.toNat 48000 2) (hproportional : P.Proportional)
    (counters : CaptureCounters)
    (hstart : initializeApplicationLoopback R format counters = .ok capture)
    (packets : List CapturePacket)
    (hdelivered : ∀ packet ∈ packets, packet.Deliverable format)
    (hheard : format.nativeRate = 48000 ∧ format.nativeChannels = 2 ∨
      ∀ packet ∈ packets, packet.frames = 0 ∨ packet.audible.isSome = true) :
    ∀ before, before <+: packets → KeepsClock format P capture before := by
  intro before hbefore
  obtain ⟨hrunning, hfollows, hpipeline, hfirst⟩ := initialize_eq (P := P) hstart
  have hinput : ∀ pre e post, (LoopbackCapture.machine format capture).events before =
      pre ++ e :: post → e.input.Deliverable format ∧ (capture.resampler = none ∨
        e.input.frames = 0 ∨ e.input.audible.isSome = true) := by
    intro pre e post h
    have hmem : e.input ∈ packets := hbefore.subset
      ((LoopbackCapture.machine format capture).input_mem
        (h ▸ List.mem_append_right _ List.mem_cons_self))
    exact ⟨hdelivered _ hmem, hheard.imp hpipeline.mpr fun hall => hall _ hmem⟩
  have htracks := (LoopbackCapture.machine format capture).history_invariant
    (I := Tracks P capture) (p := fun _ e => e.input.Deliverable format ∧
      (capture.resampler = none ∨ e.input.frames = 0 ∨ e.input.audible.isSome = true))
    ⟨hrunning, fun e he => absurd he List.not_mem_nil, (UInt64.add_zero _).symm, rfl, hfollows⟩
    (fun history capture packet h hpacket =>
      h.step hparse (fun hnone => (hpipeline.mp hnone).2) hpacket.1 hpacket.2) hinput
  have hamount := htracks.follows.amount hproportional (fun hnone => (hpipeline.mp hnone).1) hfirst
  have hconverted := htracks.follows.converted
  have hpackets := (LoopbackCapture.machine format capture).map_input_eventsFrom
    (LoopbackCapture.machine format capture).init before
  refine ⟨htracks.sent, htracks.counted, ?_, ?_⟩
  · rw [hconverted, Machine.events, hpackets]
  · rw [hamount, htracks.received, Machine.events, hpackets]

/-- Stereo of 32-bit floats at 44.1 kHz. -/
def stereoFloat : WaveFormat := ⟨3, 2, 44100, 8, 32, 0, 0⟩

/-- It as it is parsed. -/
def stereo44100 : WasapiFormat := ⟨44100, 2, 32, 8, true⟩

/-- The capture as it is set up. -/
def freshCapture : LoopbackCapture (silent (0.0 : SoftFloat)) :=
  ⟨some ⟨(0 : ℕ), 2, 68154, 34077, [], 1024⟩, {}, false⟩

/-- Ten milliseconds, an empty packet, and more than half of the largest input, which is dropped. -/
def audiblePackets : List CapturePacket :=
  [⟨441, 0, some (List.replicate 3528 0), 4096⟩, ⟨0, 2, none, 4096⟩,
    ⟨20000, 0, some (List.replicate 160000 0), 4096⟩]

theorem keepsClock_of_run_audiblePackets :
    parseMixFormat stereoFloat = .ok stereo44100 ∧
      initializeApplicationLoopback (silent (0.0 : SoftFloat)) stereo44100 {} =
        .ok freshCapture ∧
      KeepsClock stereo44100 (fixedSilent (0.0 : SoftFloat)) freshCapture audiblePackets := by
  have hparse : parseMixFormat stereoFloat = .ok stereo44100 := rfl
  have hstart : initializeApplicationLoopback (silent (0.0 : SoftFloat)) stereo44100 {} =
      .ok freshCapture := rfl
  have hdelivered : ∀ packet ∈ audiblePackets, packet.Deliverable stereo44100 := by
    intro packet hpacket
    simp only [audiblePackets, List.mem_cons, List.not_mem_nil, or_false] at hpacket
    obtain rfl | rfl | rfl := hpacket
    · refine ⟨fun bytes h => ?_, by decide⟩
      obtain rfl := Option.some.inj h
      exact List.length_replicate
    · exact ⟨nofun, by decide⟩
    · refine ⟨fun bytes h => ?_, by decide⟩
      obtain rfl := Option.some.inj h
      exact List.length_replicate
  have hheard : ∀ packet ∈ audiblePackets,
      packet.frames = 0 ∨ packet.audible.isSome = true := by
    intro packet hpacket
    simp only [audiblePackets, List.mem_cons, List.not_mem_nil, or_false] at hpacket
    obtain rfl | rfl | rfl := hpacket
    · exact .inr rfl
    · exact .inl rfl
    · exact .inr rfl
  exact ⟨hparse, hstart, keepsClock_of_run stereoFloat hparse (fixedSilent (0.0 : SoftFloat))
    (fun _ _ => List.length_replicate) {} hstart audiblePackets hdelivered (.inr hheard)
    audiblePackets (List.prefix_refl _)⟩

/-- A hundred frames of full scale, and ten milliseconds of silence. -/
def pausedPackets : List CapturePacket :=
  [⟨100, 0, some (List.replicate 200 [0, 0, 128, 63]).flatten, 4096⟩, ⟨441, 2, none, 4096⟩]

/-- The silence is pushed frame for frame, and before the frames that wait. -/
theorem not_keepsClock_pausedPackets :
    ¬KeepsClock stereo44100 (fixedSilent (0.0 : SoftFloat)) freshCapture pausedPackets := by
  intro h
  exact absurd h.amount (by decide +kernel)

end Run

end Gemacast.Audio
