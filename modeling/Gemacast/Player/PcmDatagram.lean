import Gemacast.Player.Packet
import Gemacast.Player.PcmAssembly

/-!
# Datagrams of uncompressed frames

One uncompressed packet travels as four datagrams. Each repeats the sequence number,
carries a format byte of its own, the generation of the sender and the number of the
quarter, and one quarter of the payload.
-/

namespace Gemacast.Player

open Gemacast.Core Gemacast.Jitter

namespace PcmDatagram

/-- The format byte of a chunk. -/
def format : UInt8 := 3

/-- Bytes before the quarter. -/
def header : ℕ := 18

/-- Bytes of one datagram. -/
def size : ℕ := header + pcmPayload

/-- The datagram of one quarter of a packet. -/
def encode (frame : List UInt8) (generation : UInt64) (chunk : Fin pcmChunks) : List UInt8 :=
  frame.take seqNumSize ++ [format] ++ wordBytes generation ++ [UInt8.ofNat chunk] ++
    (frame.drop (headerLen + chunk * pcmPayload)).take pcmPayload

/-- Read the quarter in a datagram. -/
def decode (bytes : List UInt8) : Except ProtocolError PcmChunk :=
  if hsize : bytes.length ≠ size then .error (.invalidPcmDatagram "wrong chunk size")
  else
    let index := ((bytes[17]?).getD 0).toNat
    if hindex : (bytes[8]?).getD 0 ≠ format ∨ pcmChunks ≤ index then
      .error (.invalidPcmDatagram "unknown format or chunk index")
    else
      .ok
        { sequence := ofWordBytes (bytes.take seqNumSize)
          generation := ofWordBytes ((bytes.drop headerLen).take 8)
          index := ⟨index, Nat.lt_of_not_le fun hle => hindex (Or.inr hle)⟩
          payload := bytes.drop header
          length_payload := by
            rw [List.length_drop, not_ne_iff.mp hsize]
            rfl }

variable {frame : List UInt8} {generation : UInt64} {chunk : Fin pcmChunks}

/-- The parts of a datagram, with their lengths. -/
theorem length_encode (hframe : frame.length = headerLen + pcmChunks * pcmPayload) :
    (encode frame generation chunk).length = size := by
  have hmul : chunk * pcmPayload + pcmPayload ≤ pcmChunks * pcmPayload := by
    rw [← Nat.succ_mul]
    exact Nat.mul_le_mul_right _ chunk.isLt
  have hseq : min seqNumSize frame.length = seqNumSize := by
    rw [hframe]
    rfl
  simp only [encode, List.length_append, List.length_take, List.length_drop, length_wordBytes,
    List.length_singleton, hseq]
  rw [min_eq_left (by omega)]
  rfl

/-- A datagram carries the format byte of a chunk where a packet carries its own. -/
theorem getElem?_encode_format (hframe : seqNumSize ≤ frame.length) :
    (encode frame generation chunk)[seqNumSize]? = some format := by
  have hseq : (frame.take seqNumSize).length = seqNumSize := by
    rw [List.length_take, min_eq_left hframe]
  simp only [encode, List.append_assoc]
  rw [List.getElem?_append_right hseq.le, hseq, Nat.sub_self]
  rfl

/-- The parts of a datagram stand at their places. -/
theorem encode_parts (hframe : seqNumSize ≤ frame.length) :
    (encode frame generation chunk).take seqNumSize = frame.take seqNumSize ∧
      ((encode frame generation chunk).drop headerLen).take 8 = wordBytes generation ∧
      (encode frame generation chunk)[17]? = some (UInt8.ofNat chunk) ∧
      (encode frame generation chunk).drop header =
        (frame.drop (headerLen + chunk * pcmPayload)).take pcmPayload := by
  have hseq : (frame.take seqNumSize).length = seqNumSize := by
    rw [List.length_take, min_eq_left hframe]
  have hhead : (frame.take seqNumSize ++ [format]).length = headerLen := by
    rw [List.length_append, hseq]
    rfl
  have hword : (frame.take seqNumSize ++ [format] ++ wordBytes generation).length = 17 := by
    rw [List.length_append, hhead, length_wordBytes]
    rfl
  have hindex : (frame.take seqNumSize ++ [format] ++ wordBytes generation ++
      [UInt8.ofNat chunk]).length = header := by
    rw [List.length_append, hword]
    rfl
  refine ⟨?_, ?_, ?_, ?_⟩
  · simp only [encode, List.append_assoc]
    exact List.take_left' hseq
  · rw [encode, List.append_assoc, List.append_assoc, List.drop_left' hhead]
    exact List.take_left' (length_wordBytes generation)
  · rw [encode, List.append_assoc, List.getElem?_append_right hword.le, hword]
    rfl
  · rw [encode, List.drop_left' hindex]

/-- Reading the datagram of a quarter gives the quarter back. -/
theorem decode_encode (hframe : frame.length = headerLen + pcmChunks * pcmPayload) :
    ∃ c, decode (encode frame generation chunk) = .ok c ∧
      c.sequence = ofWordBytes (frame.take seqNumSize) ∧ c.generation = generation ∧
      c.index = chunk ∧ c.payload = block pcmPayload (frame.drop headerLen) chunk := by
  have hseq : seqNumSize ≤ frame.length := by
    rw [hframe]
    exact Nat.le_trans (by decide) (Nat.le_add_right _ _)
  obtain ⟨hsequence, hgeneration, hindex, hpayload⟩ :=
    @encode_parts frame generation chunk hseq
  have hformat := @getElem?_encode_format frame generation chunk hseq
  have hsmall : (UInt8.ofNat chunk).toNat = chunk := by
    rw [UInt8.toNat_ofNat', Nat.mod_eq_of_lt]
    exact chunk.isLt.trans (by decide)
  have hvalid : ¬(((encode frame generation chunk)[8]?).getD 0 ≠ format ∨
      pcmChunks ≤ (((encode frame generation chunk)[17]?).getD 0).toNat) := by
    rw [hindex, Option.getD_some, hsmall]
    rintro (hother | hle)
    · exact hother (congrArg (·.getD 0) hformat)
    · exact absurd chunk.isLt (Nat.not_lt.mpr hle)
  refine ⟨_, (dif_neg (not_not.mpr (length_encode hframe))).trans (dif_neg hvalid), ?_, ?_, ?_, ?_⟩
  · exact congrArg ofWordBytes hsequence
  · exact (congrArg ofWordBytes hgeneration).trans (ofWordBytes_wordBytes generation)
  · apply Fin.ext
    change (((encode frame generation chunk)[17]?).getD 0).toNat = chunk.val
    rw [hindex, Option.getD_some, hsmall]
  · rw [block, List.drop_drop, ← hpayload]

end PcmDatagram

end Gemacast.Player
