import Gemacast.Core.LengthPrefix
import Gemacast.Control.DeviceAuth

/-!
# What a signed transcript says

The transcript of a device authentication is its fields behind their lengths. It is read
back field by field, so a signature over one challenge, device, key or endpoint is no
signature over another.
-/

namespace Gemacast.Control

open Gemacast.Core

/-- The fields a phone signs. -/
structure TranscriptFields where
  /-- The device that proves its key. -/
  deviceId : String
  /-- The PC it proves it to. -/
  pcId : String
  /-- The certificate of the PC. -/
  pcCertificateFingerprint : String
  /-- The key. -/
  publicKey : String
  /-- The nonce of the phone. -/
  phoneNonce : String
  /-- The identity of the challenge. -/
  challengeId : String
  /-- The challenge. -/
  challenge : String
  deriving DecidableEq, Repr

namespace TranscriptFields

variable {f g : TranscriptFields}

/-- The bytes that are signed. -/
def transcript (f : TranscriptFields) : List UInt8 :=
  buildDeviceAuthTranscript f.deviceId f.pcId f.pcCertificateFingerprint f.publicKey f.phoneNonce
    f.challengeId f.challenge

/-- The fields as bytes, in the order they are written in. -/
def fields (f : TranscriptFields) : List (List UInt8) :=
  [asBytes f.deviceId, asBytes f.pcId, asBytes f.pcCertificateFingerprint, asBytes f.publicKey,
    asBytes f.phoneNonce, asBytes f.challengeId, asBytes f.challenge]

/-- Every field is shorter than `2 ^ 32` bytes. -/
def Short (f : TranscriptFields) : Prop := ∀ field ∈ f.fields, field.length < 2 ^ 32

instance : DecidablePred Short := fun f =>
  inferInstanceAs (Decidable (∀ field ∈ f.fields, field.length < 2 ^ 32))

/-- The domain tag is the first field of every transcript. -/
theorem transcript_eq (f : TranscriptFields) :
    f.transcript = writeFields 4 (deviceAuthDomain :: f.fields) :=
  rfl

theorem deviceAuthDomain_length_lt : deviceAuthDomain.length < 256 ^ 4 := by decide +kernel

/-- Every field of a transcript fits its four length bytes. -/
theorem Short.fit (h : f.Short) :
    ∀ field ∈ deviceAuthDomain :: f.fields, field.length < 256 ^ 4 := by
  intro field hmem
  obtain rfl | hmem := List.mem_cons.mp hmem
  · exact deviceAuthDomain_length_lt
  · exact h field hmem

/-- The bytes of all fields determine the fields. -/
theorem fields_inj : f.fields = g.fields ↔ f = g := by
  refine ⟨fun heq => ?_, fun heq => heq ▸ rfl⟩
  obtain ⟨⟩ := f
  obtain ⟨⟩ := g
  simpa only [fields, List.cons.injEq, asBytes_inj, and_true, TranscriptFields.mk.injEq] using heq

/-- Transcripts of short fields are equal only if every field is. -/
theorem transcript_inj (hf : f.Short) (hg : g.Short) : f.transcript = g.transcript ↔ f = g := by
  rw [transcript_eq, transcript_eq, writeFields_inj (by decide) hf.fit hg.fit, List.cons.injEq,
    fields_inj]
  exact and_iff_right rfl

/-- Two texts cut at different places. -/
def shiftedFields : TranscriptFields × TranscriptFields :=
  (⟨"phone", "pc", "certificate", "key", "nonce", "request", "challenge"⟩,
    ⟨"phonep", "c", "certificate", "key", "nonce", "request", "challenge"⟩)

theorem transcript_inj_shiftedFields : shiftedFields.1.Short ∧ shiftedFields.2.Short ∧
    (shiftedFields.1.transcript = shiftedFields.2.transcript ↔
      shiftedFields.1 = shiftedFields.2) := by
  have hfirst : shiftedFields.1.Short := by decide +kernel
  have hsecond : shiftedFields.2.Short := by decide +kernel
  exact ⟨hfirst, hsecond, transcript_inj hfirst hsecond⟩

end TranscriptFields

end Gemacast.Control
