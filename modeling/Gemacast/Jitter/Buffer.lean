import Gemacast.Core.Ring
import Gemacast.Core.Word
import Gemacast.Jitter.Types

/-!
# The jitter buffer

A fixed ring of packet slots indexed by sequence number modulo the capacity, the
playhead, a hand-maintained count of filled slots and a lazily recomputed cache
of the lowest stored sequence number. Sequence arithmetic is that of `u64`:
additions wrap.
-/

namespace Gemacast.Jitter

open Gemacast.Core

/-- Number of packet slots. -/
def bufferCapacity : ℕ := 512

instance : NeZero bufferCapacity := ⟨by decide⟩

/-- The capacity as the word the sequence arithmetic uses. -/
def capacity : UInt64 := 512

@[simp] theorem capacity_toNat : capacity.toNat = bufferCapacity := rfl

/-- The answers of an insertion. -/
inductive InsertResult
  | accepted
  | stale
  | streamRestarted
  deriving DecidableEq, Repr

/-- The circular reorder buffer. -/
structure JitterBuffer where
  /-- Packets by sequence number modulo the capacity. -/
  slots : Fin bufferCapacity → Option RawPacket
  /-- The sequence number expected to play next. -/
  nextPlaySeq : UInt64
  /-- A first packet has anchored the playhead. -/
  initialized : Bool
  /-- Count of filled slots. -/
  occupied : ℕ
  /-- Cached lowest stored sequence number, `none` when it must be recomputed. -/
  cachedMinSeq : Option UInt64

namespace JitterBuffer

/-- The empty buffer. -/
def new : JitterBuffer := ⟨fun _ => none, 0, false, 0, none⟩

/-- The slot index of a sequence number. -/
def index (seq : UInt64) : Fin bufferCapacity := Ring.slot bufferCapacity seq.toNat

/-- Empty the slot of one skipped sequence number, whatever it stores. -/
def clearSlot (b : JitterBuffer) (seq : UInt64) : JitterBuffer :=
  if (b.slots (index seq)).isSome then
    { b with slots := Function.update b.slots (index seq) none, occupied := b.occupied - 1 }
  else b

/-- Empty the slots of `n` consecutive sequence numbers. -/
def clearSlots (b : JitterBuffer) (seq : UInt64) : ℕ → JitterBuffer
  | 0 => b
  | n + 1 => (b.clearSlot seq).clearSlots (seq + 1) n

/-- Move the playhead to `newSeq`, emptying the slots in between. -/
def skipTo (b : JitterBuffer) (newSeq : UInt64) : JitterBuffer :=
  let skipDistance := saturatingSub newSeq b.nextPlaySeq
  let cleared :=
    if capacity ≤ skipDistance then { b with slots := fun _ => none, occupied := 0 }
    else
      let clearEnd := min newSeq (b.nextPlaySeq + capacity)
      b.clearSlots b.nextPlaySeq (clearEnd.toNat - b.nextPlaySeq.toNat)
  { cleared with nextPlaySeq := newSeq, cachedMinSeq := none }

/-- Forget everything. -/
def reset (b : JitterBuffer) : JitterBuffer :=
  { b with
    slots := fun _ => none, nextPlaySeq := 0, initialized := false, occupied := 0,
    cachedMinSeq := none }

/-- The first packet anchors the playhead. -/
def anchor (b : JitterBuffer) (packet : RawPacket) : JitterBuffer :=
  if b.initialized then b else { b with nextPlaySeq := packet.seqNum, initialized := true }

/-- A packet beyond the window skips the playhead to half a window behind it. -/
def makeRoom (b : JitterBuffer) (packet : RawPacket) : JitterBuffer :=
  if b.nextPlaySeq + capacity ≤ packet.seqNum then
    b.skipTo (saturatingSub packet.seqNum (capacity / 2))
  else b

/-- Write a packet into its slot, keeping the count and the cached minimum. -/
def store (b : JitterBuffer) (packet : RawPacket) : JitterBuffer :=
  let seq := packet.seqNum
  { b with
    slots := Function.update b.slots (index seq) (some packet)
    occupied := if (b.slots (index seq)).isNone then b.occupied + 1 else b.occupied
    cachedMinSeq := some ((b.cachedMinSeq.map fun m => min m seq).getD seq) }

/-- Insert a packet into its sequence-ordered slot. -/
def insert (b : JitterBuffer) (packet : RawPacket) : JitterBuffer × InsertResult :=
  let b := b.anchor packet
  if packet.seqNum < b.nextPlaySeq then
    if capacity < saturatingSub b.nextPlaySeq packet.seqNum then
      let b := { b.reset with nextPlaySeq := packet.seqNum, initialized := true }
      ((b.makeRoom packet).store packet, .streamRestarted)
    else (b, .stale)
  else ((b.makeRoom packet).store packet, .accepted)

/-- Try to pop the next expected packet; every call on an anchored buffer moves
the playhead by one. -/
def popNext (b : JitterBuffer) : JitterBuffer × Option RawPacket :=
  if b.initialized then
    let i := index b.nextPlaySeq
    let taken := Function.update b.slots i none
    match b.slots i with
    | some pkt =>
      if pkt.seqNum = b.nextPlaySeq then
        ({ b with
            slots := taken, occupied := b.occupied - 1, nextPlaySeq := b.nextPlaySeq + 1,
            cachedMinSeq := none }, some pkt)
      else if b.nextPlaySeq < pkt.seqNum then
        ({ b with
            slots := Function.update taken i (some pkt), nextPlaySeq := b.nextPlaySeq + 1,
            cachedMinSeq := none }, none)
      else
        ({ b with
            slots := taken, occupied := b.occupied - 1, nextPlaySeq := b.nextPlaySeq + 1,
            cachedMinSeq := none }, none)
    | none => ({ b with slots := taken, nextPlaySeq := b.nextPlaySeq + 1 }, none)
  else (b, none)

/-- Declare the next expected packet lost. -/
def advanceOne (b : JitterBuffer) : JitterBuffer :=
  let i := index b.nextPlaySeq
  let b :=
    if (b.slots i).any fun p => p.seqNum = b.nextPlaySeq then
      { b with slots := Function.update b.slots i none, occupied := b.occupied - 1 }
    else b
  { b with nextPlaySeq := b.nextPlaySeq + 1, cachedMinSeq := none }

/-- The maintained count of filled slots. -/
def occupiedCount (b : JitterBuffer) : ℕ := if b.initialized then b.occupied else 0

/-- The next expected packet is present. -/
def hasNext (b : JitterBuffer) : Bool :=
  b.initialized && (b.slots (index b.nextPlaySeq)).any fun p => p.seqNum = b.nextPlaySeq

/-- Scan of all slots for packets at or after the playhead. -/
def contiguousDepth (b : JitterBuffer) : ℕ :=
  if b.initialized then
    (List.range bufferCapacity).countP fun i =>
      (b.slots (index (b.nextPlaySeq + UInt64.ofNat i))).any fun p => b.nextPlaySeq ≤ p.seqNum
  else 0

/-- Fold of the lowest sequence number over the filled slots. -/
@[irreducible] def scanLowest (b : JitterBuffer) : Option UInt64 :=
  ((List.finRange bufferCapacity).filterMap b.slots).foldl
    (fun lowest pkt => some ((lowest.map fun m => min m pkt.seqNum).getD pkt.seqNum)) none

/-- The lowest stored sequence number, from the cache when it is filled. -/
def lowestAvailableSeq (b : JitterBuffer) : JitterBuffer × Option UInt64 :=
  match b.cachedMinSeq with
  | some m => (b, some m)
  | none => ({ b with cachedMinSeq := b.scanLowest }, b.scanLowest)

/-- Fast-forward the playhead, emptying the skipped slots. -/
def fastForward (b : JitterBuffer) (nextSeq : UInt64) : JitterBuffer := b.skipTo nextSeq

/-- The playhead as a natural number. -/
def playhead (b : JitterBuffer) : ℕ := b.nextPlaySeq.toNat

/-- The stored sequence numbers. -/
def stored (b : JitterBuffer) : Finset ℕ := Ring.keys RawPacket.seq b.slots

/-- The packet stored under a sequence number, if any. -/
def packetAt (b : JitterBuffer) (seq : ℕ) : Option RawPacket := Ring.held RawPacket.seq b.slots seq

end JitterBuffer

end Gemacast.Jitter
