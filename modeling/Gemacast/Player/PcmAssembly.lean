import Gemacast.Core.Blocks
import Gemacast.Core.Machine
import Gemacast.Core.Word
import Gemacast.Core.Ring
import Gemacast.Jitter.Types

/-!
# Reassembly of uncompressed frames

The receiver's table of sixteen frame slots. An uncompressed frame travels in
four chunks; a slot collects the chunks of one frame in a byte buffer and a
four-bit mask and gives the packet away when the mask is full. Chunks of an
older generation of the sender and chunks behind the window are dropped, and a
frame that is not complete within the deadline loses its packet.
-/

namespace Gemacast.Player

open Gemacast.Core Gemacast.Jitter

/-- Frame slots of the reassembly window. -/
def slotCount : ℕ := 16

instance : NeZero slotCount := ⟨by decide⟩

/-- Lifetime of an incomplete frame. -/
def assemblyDeadline : Duration := Duration.fromMillis 100

/-- Chunks of one frame. -/
def pcmChunks : ℕ := 4

instance : NeZero pcmChunks := ⟨by decide⟩

/-- Payload bytes of one chunk: a quarter of a frame of 32-bit samples. -/
def pcmPayload : ℕ := opusFrameSamples * 4 / pcmChunks

/-- A decoded chunk. The decoder checks the datagram's size and its chunk index. -/
structure PcmChunk where
  /-- Number of the frame the chunk belongs to. -/
  sequence : UInt64
  /-- Generation of the sender. -/
  generation : UInt64
  /-- Which quarter of the frame the chunk carries. -/
  index : Fin pcmChunks
  /-- The bytes of the quarter. -/
  payload : List UInt8
  /-- A chunk carries exactly one quarter. -/
  length_payload : payload.length = pcmPayload

/-- One frame under assembly. -/
structure FrameSlot where
  /-- Number of the frame the slot was opened for last. -/
  sequence : Option UInt64
  /-- Arrival of the chunk that opened the slot. -/
  firstArrival : Option Instant
  /-- Chunks received, one bit each. -/
  mask : UInt8
  /-- The packet under assembly, absent once complete or expired. -/
  packet : Option RawPacket

/-- The unused slot. -/
def FrameSlot.default : FrameSlot := ⟨none, none, 0, none⟩

/-- The reassembly table. -/
structure PcmAssembly where
  /-- Newest generation seen. -/
  generation : Option UInt64
  /-- Newest sequence number of that generation. -/
  newestSequence : UInt64
  /-- Frames under assembly, by sequence number modulo the window. -/
  slots : Fin slotCount → FrameSlot
  /-- Packets given away. -/
  completedFrames : ℕ
  /-- Frames lost incomplete. -/
  expiredFrames : ℕ

namespace PcmAssembly

/-- The empty table. -/
def new : PcmAssembly := ⟨none, 0, fun _ => FrameSlot.default, 0, 0⟩

/-- The slot of a sequence number. -/
def index (sequence : UInt64) : Fin slotCount := Ring.slot slotCount sequence.toNat

end PcmAssembly

/-- The mask bit of a chunk. -/
def chunkBit (i : Fin pcmChunks) : UInt8 := 1 <<< UInt8.ofNat i

/-- The zeroed packet of a frame, still without its chunks. -/
def blankPacket (sequence : UInt64) (now : Instant) : RawPacket :=
  ⟨sequence, List.replicate (pcmPayload * pcmChunks) 0, now, true, false, by
    rw [List.length_replicate]; decide⟩

/-- Copy a chunk's bytes to their place in the packet. -/
def writeChunk (packet : RawPacket) (chunk : PcmChunk) : RawPacket :=
  { packet with
    payload := overwrite packet.payload (chunk.index * pcmPayload) chunk.payload
    payload_le := by rw [length_overwrite]; exact packet.payload_le }

namespace FrameSlot

/-- The slot opened by the first chunk of a frame. -/
def opened (chunk : PcmChunk) (now : Instant) : FrameSlot :=
  ⟨some chunk.sequence, some now, 0, some (blankPacket chunk.sequence now)⟩

/-- The slot holds an incomplete frame whose lifetime is over. -/
def overdue (slot : FrameSlot) (now : Instant) : Bool :=
  slot.packet.isSome &&
    slot.firstArrival.any fun start => assemblyDeadline ≤ now.durationSince start

/-- Drop the packet of an overdue frame. -/
def expire (slot : FrameSlot) (now : Instant) : FrameSlot :=
  if slot.overdue now then { slot with packet := none } else slot

/-- Put a chunk into the slot of its frame; the fourth distinct chunk takes the packet out. -/
def fill (slot : FrameSlot) (chunk : PcmChunk) (now : Instant) : FrameSlot × Option RawPacket :=
  match slot.packet with
  | none => (slot, none)
  | some packet =>
    if slot.mask &&& chunkBit chunk.index ≠ 0 then (slot, none)
    else
      let packet := writeChunk packet chunk
      let slot := { slot with packet := some packet, mask := slot.mask ||| chunkBit chunk.index }
      if slot.mask ≠ 15 then (slot, none)
      else ({ slot with packet := none }, some { packet with arrivalTime := now })

end FrameSlot

namespace PcmAssembly

/-- Drop the packets of overdue frames. -/
def expire (a : PcmAssembly) (now : Instant) : PcmAssembly :=
  { a with
    slots := fun i => (a.slots i).expire now
    expiredFrames := a.expiredFrames +
      (List.finRange slotCount).countP fun i => (a.slots i).overdue now }

/-- A chunk of another generation starts an empty table. -/
def enterGeneration (a : PcmAssembly) (chunk : PcmChunk) : PcmAssembly :=
  if a.generation ≠ some chunk.generation then
    { a with
      slots := fun _ => FrameSlot.default
      generation := some chunk.generation
      newestSequence := chunk.sequence }
  else a

/-- Collect a chunk in its slot, evicting the frame that held it before. -/
def collect (a : PcmAssembly) (chunk : PcmChunk) (now : Instant) : PcmAssembly × Option RawPacket :=
  let i := index chunk.sequence
  let fresh : Bool := (a.slots i).sequence ≠ some chunk.sequence
  let evicted := if fresh && (a.slots i).packet.isSome then 1 else 0
  let filled := (if fresh then FrameSlot.opened chunk now else a.slots i).fill chunk now
  ({ a with
      slots := Function.update a.slots i filled.1
      expiredFrames := a.expiredFrames + evicted
      completedFrames := a.completedFrames + if filled.2.isSome then 1 else 0 }, filled.2)

/-- Take in one chunk; the answer is the packet it completes. -/
def push (a : PcmAssembly) (chunk : PcmChunk) (now : Instant) : PcmAssembly × Option RawPacket :=
  let a := a.expire now
  if a.generation.any fun generation => chunk.generation < generation then (a, none)
  else
    let a := a.enterGeneration chunk
    let a := { a with newestSequence := max a.newestSequence chunk.sequence }
    if UInt64.ofNat slotCount ≤ saturatingSub a.newestSequence chunk.sequence then (a, none)
    else a.collect chunk now

/-- One call on the table. -/
inductive Call
  | push (chunk : PcmChunk) (now : Instant)
  | expire (now : Instant)

/-- The instant of a call. -/
def Call.now : Call → Instant
  | .push _ now => now
  | .expire now => now

/-- The table as a machine over its calls. -/
def machine : Machine PcmAssembly Call (Option RawPacket) where
  init := new
  step a
    | .push chunk now => a.push chunk now
    | .expire now => (a.expire now, none)

end PcmAssembly

end Gemacast.Player
