import Gemacast.Core.Machine
import Gemacast.Jitter.Decoder

/-!
# Whether the codec continues what is playing

`plc_ready` stands for a fact about the past: the codec has decoded a real packet since
its prediction was last discarded, and nothing has played since without it. The history
of the codec is told beside the decoder, from the codec's answers alone, and compared
with the flag after every call.
-/

namespace Gemacast.Jitter

open Gemacast.Core

/-- What becomes of the codec and of the frame that plays. -/
inductive CodecEvent
  /-- A packet was decoded, and its frame plays. -/
  | decoded
  /-- The codec predicted the frame that plays. -/
  | predicted
  /-- A frame plays that did not come from the codec. -/
  | played
  /-- The prediction was discarded. -/
  | discarded
  deriving DecidableEq, Repr

/-- A packet was decoded, and since then the prediction was not discarded and nothing
played that did not come from the codec. -/
def Continues (history : List CodecEvent) : Prop :=
  ∃ before after, history = before ++ .decoded :: after ∧
    ∀ e ∈ after, e ≠ .played ∧ e ≠ .discarded

@[simp] theorem not_continues_nil : ¬Continues [] := by
  rintro ⟨before, after, h, -⟩
  simp at h

@[simp] theorem continues_decoded (history : List CodecEvent) :
    Continues (history ++ [.decoded]) :=
  ⟨history, [], rfl, by simp⟩

/-- Any other event continues the history exactly when it comes from the codec. -/
theorem continues_append {history : List CodecEvent} {e : CodecEvent} (he : e ≠ .decoded) :
    Continues (history ++ [e]) ↔ e = .predicted ∧ Continues history := by
  constructor
  · rintro ⟨before, after, h, hafter⟩
    obtain rfl | ⟨init, last, rfl⟩ := after.eq_nil_or_concat
    · have hlast := (List.append_inj' h rfl).2
      simp [he] at hlast
    · rw [List.concat_eq_append] at h hafter
      rw [← List.cons_append, ← List.append_assoc] at h
      obtain ⟨hinit, hlast⟩ := List.append_inj' h rfl
      obtain rfl : e = last := by simpa using hlast
      have hkept := hafter e (by simp)
      refine ⟨?_, before, init, hinit, fun i hi => hafter i (by simp [hi])⟩
      cases e with
      | predicted => rfl
      | decoded => exact absurd rfl he
      | played => exact absurd rfl hkept.1
      | discarded => exact absurd rfl hkept.2
  · rintro ⟨rfl, before, after, rfl, hafter⟩
    refine ⟨before, after ++ [.predicted], by simp, fun i hi => ?_⟩
    obtain hi | hi := List.mem_append.mp hi
    · exact hafter i hi
    · rw [List.mem_singleton.mp hi]
      simp

@[simp] theorem continues_predicted (history : List CodecEvent) :
    Continues (history ++ [.predicted]) ↔ Continues history := by
  simp [continues_append]

@[simp] theorem not_continues_played (history : List CodecEvent) :
    ¬Continues (history ++ [.played]) := by
  simp [continues_append]

@[simp] theorem not_continues_discarded (history : List CodecEvent) :
    ¬Continues (history ++ [.discarded]) := by
  simp [continues_append]

namespace FrameDecoder

variable {F : Type} [Binary32 F] [FrameMark F] {C : Codec F}

/-- The jump to `seqNum` is answered by a reset of the codec. -/
def Jumps (d : FrameDecoder C) (seqNum : UInt64) : Prop :=
  ∃ expected, d.opusNextExpectedSeq = some expected ∧
    20 < (saturatingSub seqNum expected).toNat

instance (d : FrameDecoder C) (seqNum : UInt64) : Decidable (d.Jumps seqNum) :=
  match h : d.opusNextExpectedSeq with
  | none => isFalse fun ⟨_, h', _⟩ => by simp [h] at h'
  | some expected => decidable_of_iff (20 < (saturatingSub seqNum expected).toNat)
      ⟨fun hgap => ⟨expected, h, hgap⟩, fun ⟨_, h', hgap⟩ => by
        rw [h] at h'
        exact Option.some.inj h' ▸ hgap⟩

/-- The events of `bridgeGap`; warming up plays nothing. -/
def bridgeEvents (d : FrameDecoder C) (seqNum : UInt64) : List CodecEvent :=
  if d.Jumps seqNum then [.discarded] else []

/-- The events of `decodePlc`. -/
def plcEvents (d : FrameDecoder C) : List CodecEvent :=
  match (C.decodeFloat d.decoder []).2 with
  | some _ => [.predicted]
  | none => [.played]

/-- The events of `capture`. On an empty payload the codec predicts. -/
def captureEvents (d : FrameDecoder C) (pkt : RawPacket) : List CodecEvent :=
  d.bridgeEvents pkt.seqNum ++
    let d := d.bridgeGap pkt.seqNum
    if pkt.isSilence then [.played]
    else if pkt.isUncompressed then
      if f32Len pkt = 0 then d.plcEvents else [.played]
    else
      match d.decodeOpus pkt.payload with
      | (_, true) => [if pkt.payload = [] then .predicted else .decoded]
      | (d, false) => d.plcEvents

omit [Binary32 F] in
/-- A packet that the codec takes leaves the decoder ready to conceal. -/
theorem plcReady_of_decodeOpus {d d' : FrameDecoder C} {data : List UInt8}
    (h : d.decodeOpus data = (d', true)) : d'.plcReady = true := by
  unfold decodeOpus accept at h
  split at h
  · obtain ⟨rfl, -⟩ := Prod.mk.inj h
    rfl
  · exact absurd (Prod.mk.inj h).2 Bool.false_ne_true

end FrameDecoder

/-- A call of the decoder. -/
inductive DecoderOp
  /-- Decode a packet. -/
  | capture (pkt : RawPacket)
  /-- Conceal one frame. -/
  | decodePlc
  /-- Forget the prediction and the expected number. -/
  | resync
  /-- Forget the prediction and empty the buffer. -/
  | reset

/-- A decoder with the history of its codec. -/
structure HeardDecoder {F : Type} (C : Codec F) where
  /-- The decoder. -/
  decoder : FrameDecoder C
  /-- What has become of its codec, from the oldest event on. -/
  history : List CodecEvent

namespace HeardDecoder

variable {F : Type} [Binary32 F] [FrameMark F] {C : Codec F}

/-- One call. -/
def step (s : HeardDecoder C) : DecoderOp → HeardDecoder C
  | .capture pkt => ⟨s.decoder.capture pkt, s.history ++ s.decoder.captureEvents pkt⟩
  | .decodePlc => ⟨s.decoder.decodePlc, s.history ++ s.decoder.plcEvents⟩
  | .resync => ⟨s.decoder.resync, s.history ++ [.discarded]⟩
  | .reset => ⟨s.decoder.reset, s.history ++ [.discarded]⟩

/-- The decoder with its history, from a new one on. -/
def machine (C : Codec F) : Machine (HeardDecoder C) DecoderOp Unit where
  init := ⟨FrameDecoder.new, []⟩
  step s op := (s.step op, ())

/-- A decoder that is ready to conceal has a codec that continues what plays. -/
def Truthful (s : HeardDecoder C) : Prop := s.decoder.plcReady = true → Continues s.history

/-- A prediction asked for here is answered while the codec continues what plays, or
refused while the decoder is not ready to conceal. -/
def PredictsAware (s : HeardDecoder C) : Prop :=
  match (C.decodeFloat s.decoder.decoder []).2 with
  | some _ => Continues s.history
  | none => s.decoder.plcReady = false

/-- Every prediction that the call asks for, by itself or in place of a packet that the
codec refuses, is asked for in such a state. -/
def CallsAware (s : HeardDecoder C) : DecoderOp → Prop
  | .capture pkt =>
    pkt.isSilence = false → pkt.isUncompressed = false →
      let history := s.history ++ s.decoder.bridgeEvents pkt.seqNum
      match (s.decoder.bridgeGap pkt.seqNum).decodeOpus pkt.payload with
      | (_, true) => pkt.payload = [] → Continues history
      | (d, false) => PredictsAware ⟨d, history⟩
  | .decodePlc => s.PredictsAware
  | .resync | .reset => True

/-- A prediction leaves a truthful state exactly when it is asked for in time. -/
theorem truthful_decodePlc (s : HeardDecoder C) :
    Truthful ⟨s.decoder.decodePlc, s.history ++ s.decoder.plcEvents⟩ ↔ s.PredictsAware := by
  unfold Truthful PredictsAware FrameDecoder.plcEvents FrameDecoder.decodePlc FrameDecoder.accept
  obtain ⟨state, answer⟩ := C.decodeFloat s.decoder.decoder []
  cases answer with
  | some frames => simp [FrameDecoder.plcReady]
  | none =>
    simp only [not_continues_played, imp_false, Bool.not_eq_true]
    rfl

/-- The flag and the history of a packet that the codec is given. -/
theorem truthful_capture_opus (s : HeardDecoder C) {pkt : RawPacket}
    (hsilence : pkt.isSilence = false) (hraw : pkt.isUncompressed = false) :
    (s.step (.capture pkt)).Truthful ↔ s.CallsAware (.capture pkt) := by
  unfold step CallsAware FrameDecoder.capture FrameDecoder.captureEvents
  simp only [hsilence, hraw, Bool.false_eq_true, if_false, forall_const]
  rw [← List.append_assoc]
  generalize hopus : (s.decoder.bridgeGap pkt.seqNum).decodeOpus pkt.payload = opus
  obtain ⟨d, took⟩ := opus
  cases took with
  | false => exact truthful_decodePlc ⟨d, s.history ++ s.decoder.bridgeEvents pkt.seqNum⟩
  | true =>
    have hwarm := FrameDecoder.plcReady_of_decodeOpus hopus
    unfold Truthful FrameDecoder.plcReady
    simp only [FrameDecoder.plcReady] at hwarm
    simp only [hwarm, forall_const]
    by_cases hempty : pkt.payload = []
    · rw [if_pos hempty, continues_predicted]
      exact ⟨fun hcont _ => hcont, fun hcont => hcont hempty⟩
    · rw [if_neg hempty]
      exact iff_of_true (continues_decoded _) fun h => absurd h hempty

/-- One call leaves a truthful state exactly when its predictions are asked for in time. -/
theorem truthful_step (s : HeardDecoder C) (op : DecoderOp) :
    (s.step op).Truthful ↔ s.CallsAware op := by
  cases op with
  | decodePlc => exact s.truthful_decodePlc
  | resync | reset =>
    simp [step, Truthful, CallsAware, FrameDecoder.plcReady, FrameDecoder.resync,
      FrameDecoder.reset]
  | capture pkt =>
    by_cases hsilence : pkt.isSilence = true
    · simp [step, Truthful, CallsAware, FrameDecoder.capture, FrameDecoder.plcReady, hsilence]
    by_cases hraw : pkt.isUncompressed = true
    · simp [step, Truthful, CallsAware, FrameDecoder.capture, FrameDecoder.plcReady, hsilence,
        hraw]
    exact s.truthful_capture_opus (Bool.eq_false_iff.mpr hsilence) (Bool.eq_false_iff.mpr hraw)

/-- In every sequence of calls, `plc_ready` holds only with a codec that continues what
plays exactly when every prediction is asked for in time. -/
theorem truthful_iff (C : Codec F) (ops : List DecoderOp) :
    (∀ e ∈ (machine C).events ops, e.after.Truthful) ↔
      ∀ e ∈ (machine C).events ops, e.before.CallsAware e.input := by
  refine (machine C).invariant_iff (fun s op _ => s.truthful_step op) ?_ ops
  intro hready
  exact absurd hready Bool.false_ne_true

end HeardDecoder

/-- A codec that refuses every payload; before the first packet it predicts silence. -/
def Codec.refusing (F : Type) [Binary32 F] : Codec F where
  State := Unit
  init := ()
  decodeFloat _ data :=
    ((), if data = [] then
      some ⟨List.replicate opusFrameSize (0.0, 0.0), length_silence_le F⟩ else none)
  resetState state := state

/-- A packet that announces 63 frames of 20 ms. -/
def overlongPacket : RawPacket := ⟨1, [255, 255], 0, false, false, by decide⟩

theorem HeardDecoder.not_truthful_overlongPacket : ¬ ∀ ops : List DecoderOp,
    ∀ e ∈ (machine (Codec.refusing SoftFloat)).events ops, e.after.Truthful := by
  intro h
  have hready := h [.capture overlongPacket] _ List.mem_cons_self (by decide)
  exact absurd hready (continues_predicted [] |>.not.mpr not_continues_nil)

end Gemacast.Jitter
