import Gemacast.Core.Blocks
import Gemacast.Core.Bytes
import Gemacast.Jitter.Types

/-!
# Audio packets on the wire

A packet is a big-endian sequence number, one format byte and a payload. The decoder
reads it from the receive buffer and the number of bytes received.
-/

namespace Gemacast.Player

open Gemacast.Core Gemacast.Jitter

/-- Bytes of the sequence number. -/
def seqNumSize : ℕ := 8

/-- Bytes of the format flag. -/
def formatFlagSize : ℕ := 1

/-- Largest packet of the Opus encoder, in bytes. -/
def maxOpusPacketSize : ℕ := 8000

/-- The payload is one Opus packet. -/
def formatOpus : UInt8 := 0

/-- The payload is raw 32-bit samples. -/
def formatUncompressed : UInt8 := 1

/-- There is no payload; the frame is silent. -/
def formatSilence : UInt8 := 2

/-- What is wrong with bytes from the wire. -/
inductive ProtocolError
  | unsupportedAudioFormat (flag : UInt8)
  | invalidPcmDatagram (reason : String)
  | packetTooShort (got min : ℕ)
  | packetLengthExceedsBuffer (declared available : ℕ)
  | packetPayloadTooLarge (got max : ℕ)
  deriving DecidableEq, Repr

/-- Bytes before the payload. -/
def headerLen : ℕ := seqNumSize + formatFlagSize

namespace AudioPacketDecoder

/-- Decode the packet in the first `len` bytes of the buffer. -/
def decode (buffer : List UInt8) (len : ℕ) (now : Instant) : Except ProtocolError RawPacket :=
  if len < headerLen then .error (.packetTooShort len headerLen)
  else if buffer.length < len then .error (.packetLengthExceedsBuffer len buffer.length)
  else
    let seqNum := ofWordBytes (buffer.take seqNumSize)
    let formatFlag := (buffer[seqNumSize]?).getD 0
    if formatFlag ≠ formatOpus ∧ formatFlag ≠ formatUncompressed ∧ formatFlag ≠ formatSilence then
      .error (.unsupportedAudioFormat formatFlag)
    else
      let payload := (buffer.take len).drop headerLen
      if h : payload.length ≤ maxPacketPayload then
        .ok
          { seqNum
            payload
            arrivalTime := now
            isUncompressed := formatFlag = formatUncompressed
            isSilence := formatFlag = formatSilence
            payload_le := h }
      else .error (.packetPayloadTooLarge payload.length maxPacketPayload)

/-- What an accepted packet is read from. -/
structure Decodes (buffer : List UInt8) (len : ℕ) (now : Instant) (p : RawPacket) : Prop where
  headerLen_le : headerLen ≤ len
  le_length : len ≤ buffer.length
  seqNum : p.seqNum = ofWordBytes (buffer.take seqNumSize)
  payload : p.payload = (buffer.take len).drop headerLen
  arrivalTime : p.arrivalTime = now
  isUncompressed : p.isUncompressed = decide (buffer[seqNumSize]? = some formatUncompressed)
  isSilence : p.isSilence = decide (buffer[seqNumSize]? = some formatSilence)
  format : buffer[seqNumSize]? = some formatOpus ∨ buffer[seqNumSize]? = some formatUncompressed ∨
    buffer[seqNumSize]? = some formatSilence

/-- A packet is accepted only as what stands in the buffer. -/
theorem decodes_of_decode {buffer : List UInt8} {len : ℕ} {now : Instant} {p : RawPacket}
    (h : decode buffer len now = .ok p) : Decodes buffer len now p := by
  unfold decode at h
  split at h
  · nomatch h
  · rename_i hshort
    split at h
    · nomatch h
    · rename_i hlong
      have hin : seqNumSize < buffer.length := by
        have hheader : seqNumSize < headerLen := by decide
        omega
      have hflag : (buffer[seqNumSize]?).getD 0 = buffer[seqNumSize] := by
        rw [List.getElem?_eq_getElem hin, Option.getD_some]
      dsimp only at h
      rw [hflag] at h
      split at h
      · nomatch h
      · rename_i hformat
        split at h
        · obtain rfl := Except.ok.inj h
          refine ⟨Nat.le_of_not_lt hshort, Nat.le_of_not_lt hlong, rfl, rfl, rfl, ?_, ?_, ?_⟩
          · simp only [List.getElem?_eq_getElem hin, Option.some.injEq]
          · simp only [List.getElem?_eq_getElem hin, Option.some.injEq]
          · simp only [List.getElem?_eq_getElem hin, Option.some.injEq]
            by_contra hnone
            simp only [not_or] at hnone
            exact hformat hnone
        · nomatch h

/-- A packet with a known format and a payload that fits is accepted. -/
theorem decode_isOk {buffer : List UInt8} {len : ℕ} (now : Instant) (hheader : headerLen ≤ len)
    (hlen : len ≤ buffer.length) (hpayload : len ≤ headerLen + maxPacketPayload)
    (hformat : buffer[seqNumSize]? = some formatOpus ∨
      buffer[seqNumSize]? = some formatUncompressed ∨ buffer[seqNumSize]? = some formatSilence) :
    ∃ p, decode buffer len now = .ok p := by
  have hflag : ¬((buffer[seqNumSize]?).getD 0 ≠ formatOpus ∧
      (buffer[seqNumSize]?).getD 0 ≠ formatUncompressed ∧
      (buffer[seqNumSize]?).getD 0 ≠ formatSilence) := by
    rintro ⟨h1, h2, h3⟩
    rcases hformat with h | h | h <;> rw [h] at h1 h2 h3
    · exact h1 rfl
    · exact h2 rfl
    · exact h3 rfl
  have hfits : ((buffer.take len).drop headerLen).length ≤ maxPacketPayload := by
    rw [List.length_drop, List.length_take]
    omega
  unfold decode
  rw [if_neg (Nat.not_lt.mpr hheader), if_neg (Nat.not_lt.mpr hlen)]
  dsimp only
  rw [if_neg hflag, dif_pos hfits]
  exact ⟨_, rfl⟩

end AudioPacketDecoder

end Gemacast.Player
