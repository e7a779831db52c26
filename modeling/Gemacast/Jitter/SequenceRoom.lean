import Mathlib.Data.UInt
import Gemacast.Jitter.BufferAhead
import Gemacast.Player.Packet

/-!
# Room for sequence numbers

Every number that a packet bears on the wire reaches the buffer and the decoder, which add
to it. The additions are made here with a check: an operation has no result where a sum does
not fit a `u64`. How far the numbers of a list of calls reach bounds every sum.
-/

namespace Gemacast.Jitter

open Gemacast.Core Gemacast.Player

namespace JitterBuffer

/-- Move the playhead, with a check of the sum. -/
def skipToChecked (b : JitterBuffer) (newSeq : UInt64) : Option JitterBuffer :=
  if capacity ≤ saturatingSub newSeq b.nextPlaySeq then
    some { b with
      slots := fun _ => none, occupied := 0, nextPlaySeq := newSeq, cachedMinSeq := none }
  else
    (checkedAdd b.nextPlaySeq capacity).map fun windowEnd =>
      let clearEnd := min newSeq windowEnd
      { b.clearSlots b.nextPlaySeq (clearEnd.toNat - b.nextPlaySeq.toNat) with
        nextPlaySeq := newSeq, cachedMinSeq := none }

/-- Make room for a packet, with a check of the sums. -/
def makeRoomChecked (b : JitterBuffer) (packet : RawPacket) : Option JitterBuffer :=
  (checkedAdd b.nextPlaySeq capacity).bind fun windowEnd =>
    if windowEnd ≤ packet.seqNum then b.skipToChecked (saturatingSub packet.seqNum (capacity / 2))
    else some b

/-- Insert a packet, with a check of the sums. -/
def insertChecked (b : JitterBuffer) (packet : RawPacket) :
    Option (JitterBuffer × InsertResult) :=
  let b := b.anchor packet
  if packet.seqNum < b.nextPlaySeq then
    if capacity < saturatingSub b.nextPlaySeq packet.seqNum then
      let b := { b.reset with nextPlaySeq := packet.seqNum, initialized := true }
      (b.makeRoomChecked packet).map fun b => (b.store packet, .streamRestarted)
    else some (b, .stale)
  else (b.makeRoomChecked packet).map fun b => (b.store packet, .accepted)

/-- Pop the next expected packet, with a check of the sum that every branch makes. -/
def popNextChecked (b : JitterBuffer) : Option (JitterBuffer × Option RawPacket) :=
  if b.initialized then
    (checkedAdd b.nextPlaySeq 1).map fun next =>
      ({ b.popNext.1 with nextPlaySeq := next }, b.popNext.2)
  else some (b, none)

/-- Declare the next expected packet lost, with a check of the sum. -/
def advanceOneChecked (b : JitterBuffer) : Option JitterBuffer :=
  (checkedAdd b.nextPlaySeq 1).map fun next => { b.advanceOne with nextPlaySeq := next }

variable {b : JitterBuffer} {p : RawPacket} {newSeq : UInt64} {reach : ℕ}

theorem checkedAdd_capacity (h : b.playhead + bufferCapacity < 2 ^ 64) :
    checkedAdd b.nextPlaySeq capacity = some (b.nextPlaySeq + capacity) :=
  checkedAdd_eq (capacity_toNat.symm ▸ h)

theorem checkedAdd_one (h : b.playhead + 1 < 2 ^ 64) :
    checkedAdd b.nextPlaySeq 1 = some (b.nextPlaySeq + 1) :=
  checkedAdd_eq (UInt64.toNat_one.symm ▸ h)

theorem skipToChecked_eq (h : b.playhead + bufferCapacity < 2 ^ 64) :
    b.skipToChecked newSeq = some (b.skipTo newSeq) := by
  rw [skipToChecked, skipTo, checkedAdd_capacity h]
  by_cases hfar : capacity ≤ saturatingSub newSeq b.nextPlaySeq
  · simp only [if_pos hfar]
  · simp only [if_neg hfar, Option.map_some]

theorem makeRoomChecked_eq (h : b.playhead + bufferCapacity < 2 ^ 64) :
    b.makeRoomChecked p = some (b.makeRoom p) := by
  rw [makeRoomChecked, makeRoom, checkedAdd_capacity h, Option.bind_some]
  split
  · exact skipToChecked_eq h
  · rfl

/-- An insertion makes sums with its own number or with the playhead. -/
theorem insertChecked_eq (hplayhead : b.playhead + bufferCapacity < 2 ^ 64)
    (hseq : p.seq + bufferCapacity < 2 ^ 64) : b.insertChecked p = some (b.insert p) := by
  have hanchor : (b.anchor p).playhead + bufferCapacity < 2 ^ 64 := by
    rw [anchor]
    split
    · exact hplayhead
    · exact hseq
  rw [insertChecked, insert]
  dsimp only
  split
  · split
    · refine congrArg (Option.map _) (makeRoomChecked_eq ?_)
      exact hseq
    · rfl
  · rw [makeRoomChecked_eq hanchor, Option.map_some]

theorem nextPlaySeq_popNext (hi : b.initialized = true) :
    b.popNext.1.nextPlaySeq = b.nextPlaySeq + 1 := by
  rw [popNext, if_pos hi]
  dsimp only
  split
  · split
    · rfl
    · split <;> rfl
  · rfl

theorem popNextChecked_eq (h : b.playhead + 1 < 2 ^ 64) :
    b.popNextChecked = some b.popNext := by
  rw [popNextChecked]
  split
  · next hi =>
    rw [checkedAdd_one h, Option.map_some, ← nextPlaySeq_popNext hi]
  · next hi => rw [popNext_virgin (Bool.not_eq_true _ ▸ hi)]

theorem advanceOneChecked_eq (h : b.playhead + 1 < 2 ^ 64) :
    b.advanceOneChecked = some b.advanceOne := by
  rw [advanceOneChecked, checkedAdd_one h, Option.map_some, advanceOne]
  dsimp only
  split <;> rfl

/-- No number of the buffer is beyond `reach`. -/
structure Reaches (b : JitterBuffer) (reach : ℕ) : Prop where
  /-- The playhead. -/
  playhead : b.playhead ≤ reach
  /-- The numbers of the stored packets. -/
  stored : ∀ i p, b.slots i = some p → p.seq ≤ reach
  /-- The cached lowest number. -/
  cached : ∀ m ∈ b.cachedMinSeq, m.toNat ≤ reach
  /-- The stored numbers leave room for the capacity. -/
  roomy : b.Roomy

/-- What the second buffer stores and caches, the first one does too. -/
structure Drops (b b' : JitterBuffer) : Prop where
  /-- No packet is new. -/
  slots : ∀ i p, b'.slots i = some p → b.slots i = some p
  /-- No cached number is new. -/
  cached : ∀ m ∈ b'.cachedMinSeq, m ∈ b.cachedMinSeq

/-- A buffer that caches no number has no new one. -/
theorem drops_of_uncached {b b' : JitterBuffer} (hcached : b'.cachedMinSeq = none)
    (hslots : ∀ i p, b'.slots i = some p → b.slots i = some p) : b.Drops b' := by
  refine ⟨hslots, fun m hm => ?_⟩
  rw [hcached] at hm
  cases hm

theorem skipTo_drops (b : JitterBuffer) (newSeq : UInt64) : b.Drops (b.skipTo newSeq) := by
  refine drops_of_uncached rfl fun i p hp => ?_
  rw [skipTo] at hp
  dsimp only at hp
  split at hp
  · cases hp
  · exact (clearSlots_eq_some hp).1

theorem popNext_drops (b : JitterBuffer) : b.Drops b.popNext.1 := by
  rw [popNext]
  split
  · dsimp only
    split
    · next pkt hpkt =>
      split
      · exact drops_of_uncached rfl fun _ _ => update_none_eq_some
      · split
        · -- a packet of a later number goes back into the slot it was taken from
          refine drops_of_uncached rfl fun i p hp => ?_
          dsimp only at hp
          rw [Function.update_idem, ← hpkt, Function.update_eq_self] at hp
          exact hp
        · exact drops_of_uncached rfl fun _ _ => update_none_eq_some
    · exact ⟨fun _ _ => update_none_eq_some, fun _ => id⟩
  · exact ⟨fun _ _ => id, fun _ => id⟩

theorem advanceOne_drops (b : JitterBuffer) : b.Drops b.advanceOne := by
  rw [advanceOne]
  split
  · exact drops_of_uncached rfl fun _ _ => update_none_eq_some
  · exact drops_of_uncached rfl fun _ _ => id

theorem nextPlaySeq_advanceOne (b : JitterBuffer) :
    b.advanceOne.nextPlaySeq = b.nextPlaySeq + 1 := by
  rw [advanceOne]
  split <;> rfl

namespace Reaches

theorem new (reach : ℕ) : JitterBuffer.new.Reaches reach :=
  ⟨Nat.zero_le _, nofun, nofun, nofun⟩

theorem mono (h : b.Reaches reach) {reach' : ℕ} (hle : reach ≤ reach') : b.Reaches reach' :=
  ⟨h.playhead.trans hle, fun i p hp => (h.stored i p hp).trans hle,
    fun m hm => (h.cached m hm).trans hle, h.roomy⟩

theorem of_drops (h : b.Reaches reach) {b' : JitterBuffer} (hdrops : b.Drops b') {reach' : ℕ}
    (hle : reach ≤ reach') (hplayhead : b'.playhead ≤ reach') : b'.Reaches reach' :=
  ⟨hplayhead, fun i p hp => (h.stored i p (hdrops.slots i p hp)).trans hle,
    fun m hm => (h.cached m (hdrops.cached m hm)).trans hle,
    fun i p hp => h.roomy i p (hdrops.slots i p hp)⟩

/-- A skip to a number within reach. -/
theorem skipTo (h : b.Reaches reach) (hseq : newSeq.toNat ≤ reach) :
    (b.skipTo newSeq).Reaches reach :=
  h.of_drops (b.skipTo_drops newSeq) le_rfl hseq

theorem anchor (h : b.Reaches reach) (hseq : p.seq ≤ reach) : (b.anchor p).Reaches reach := by
  rw [JitterBuffer.anchor]
  split
  · exact h
  · exact ⟨hseq, h.stored, h.cached, h.roomy⟩

theorem makeRoom (h : b.Reaches reach) (hseq : p.seq ≤ reach) : (b.makeRoom p).Reaches reach := by
  rw [JitterBuffer.makeRoom]
  split
  · refine h.skipTo ?_
    rw [toNat_saturatingSub]
    exact (Nat.sub_le _ _).trans hseq
  · exact h

theorem store (h : b.Reaches reach) (hseq : p.seq ≤ reach)
    (hroom : p.seq + bufferCapacity < 2 ^ 64) :
    (b.store p).Reaches reach := by
  refine ⟨h.playhead, fun i q hq => ?_, fun m hm => ?_, fun i q hq => ?_⟩
  · obtain hold | rfl := store_eq_some hq
    · exact h.stored i q hold
    · exact hseq
  · obtain rfl : (b.cachedMinSeq.map fun m => min m p.seqNum).getD p.seqNum = m :=
      Option.some.inj hm
    cases hcached : b.cachedMinSeq with
    | none => exact hseq
    | some least =>
      rw [Option.map_some, Option.getD_some, toNat_min]
      exact (Nat.min_le_right _ _).trans hseq
  · obtain hold | rfl := store_eq_some hq
    · exact h.roomy i q hold
    · exact hroom

/-- An insertion of a number within reach. -/
theorem insert (h : b.Reaches reach) (hseq : p.seq ≤ reach)
    (hroom : p.seq + bufferCapacity < 2 ^ 64) : (b.insert p).1.Reaches reach := by
  have hrestart : ({ (b.anchor p).reset with nextPlaySeq := p.seqNum, initialized := true } :
      JitterBuffer).Reaches reach := ⟨hseq, nofun, nofun, nofun⟩
  rw [JitterBuffer.insert]
  dsimp only
  split
  · split
    · refine Reaches.store ?_ hseq hroom
      exact hrestart.makeRoom hseq
    · exact h.anchor hseq
  · exact ((h.anchor hseq).makeRoom hseq).store hseq hroom

/-- A number one further is within reach of one more. -/
theorem toNat_next_le (h : b.Reaches reach) (hreach : reach + 1 < 2 ^ 64) :
    (b.nextPlaySeq + 1).toNat ≤ reach + 1 := by
  have hle := h.playhead
  have hone : (1 : UInt64).toNat = 1 := rfl
  rw [toNat_add_of_lt (by unfold JitterBuffer.playhead at hle; omega), hone]
  exact Nat.succ_le_succ hle

theorem popNext (h : b.Reaches reach) (hreach : reach + 1 < 2 ^ 64) :
    b.popNext.1.Reaches (reach + 1) := by
  refine h.of_drops b.popNext_drops (Nat.le_succ _) ?_
  cases hi : b.initialized with
  | false =>
    rw [popNext_virgin hi]
    exact h.playhead.trans (Nat.le_succ _)
  | true =>
    rw [JitterBuffer.playhead, nextPlaySeq_popNext hi]
    exact h.toNat_next_le hreach

theorem advanceOne (h : b.Reaches reach) (hreach : reach + 1 < 2 ^ 64) :
    b.advanceOne.Reaches (reach + 1) := by
  refine h.of_drops b.advanceOne_drops (Nat.le_succ _) ?_
  rw [JitterBuffer.playhead, nextPlaySeq_advanceOne]
  exact h.toNat_next_le hreach

/-- The lowest number is within reach. -/
theorem lowestAvailableSeq (h : b.Reaches reach) :
    b.lowestAvailableSeq.1.Reaches reach ∧ ∀ lo ∈ b.lowestAvailableSeq.2, lo.toNat ≤ reach := by
  have hscanned : ∀ lo ∈ b.scanLowest, lo.toNat ≤ reach := by
    intro lo hlo
    obtain ⟨i, p, hp, heq⟩ := mem_stored.mp (scanLowest_isLeast hlo).1
    exact heq ▸ h.stored i p hp
  rw [JitterBuffer.lowestAvailableSeq]
  split
  · next m hm => exact ⟨h, fun lo hlo => h.cached lo (hm.trans hlo)⟩
  · exact ⟨⟨h.playhead, h.stored, hscanned, h.roomy⟩, hscanned⟩

end Reaches

theorem popNext_stored (h : b.popNext.2 = some p) : ∃ i, b.slots i = some p := by
  rw [popNext] at h
  split at h
  · dsimp only at h
    split at h
    · next pkt hpkt =>
      split at h
      · exact ⟨_, hpkt.trans h⟩
      · split at h <;> cases h
    · cases h
  · cases h

end JitterBuffer

namespace FrameDecoder

variable {F : Type} [Binary32 F] [FrameMark F] {C : Codec F}

/-- Decode a packet, with a check of the sum. -/
def captureChecked (d : FrameDecoder C) (pkt : RawPacket) : Option (FrameDecoder C) :=
  (checkedAdd pkt.seqNum 1).map fun next => { d.capture pkt with opusNextExpectedSeq := some next }

theorem captureChecked_eq {d : FrameDecoder C} {pkt : RawPacket} (h : pkt.seq + 1 < 2 ^ 64) :
    d.captureChecked pkt = some (d.capture pkt) := by
  rw [captureChecked, checkedAdd_eq (UInt64.toNat_one.symm ▸ h)]
  rfl

end FrameDecoder

/-- The way of the packets: the buffer, the decoder, and the packet between them. -/
structure PacketPath {F : Type} (C : Codec F) where
  /-- The reorder buffer. -/
  buffer : JitterBuffer
  /-- The frame decoder. -/
  decoder : FrameDecoder C
  /-- The packet that was popped last. -/
  popped : Option RawPacket

/-- A call on the way of the packets. -/
inductive PathCall
  /-- A datagram arrives; a packet that it holds is inserted. -/
  | received (bytes : List UInt8) (len : ℕ) (now : Instant)
  /-- The next expected packet is popped. -/
  | popNext
  /-- The next expected packet is declared lost. -/
  | advanceOne
  /-- The playhead skips to the lowest stored number. -/
  | fastForward
  /-- The packet popped last is decoded. -/
  | capture
  /-- The buffer is emptied. -/
  | reset
  deriving DecidableEq, Repr

namespace PathCall

/-- How far the numbers reach after a call. -/
def reachAfter (reach : ℕ) : PathCall → ℕ
  | .received bytes len now =>
    match AudioPacketDecoder.decode bytes len now with
    | .ok p => max reach p.seq
    | .error _ => reach
  | .popNext | .advanceOne => reach + 1
  | .fastForward | .capture => reach
  | .reset => 0

/-- The sums of a call on numbers that reach so far. -/
def LeavesRoom (reach : ℕ) : PathCall → Prop
  | .received bytes len now => ∀ p ∈ (AudioPacketDecoder.decode bytes len now).toOption,
      max reach p.seq + bufferCapacity < 2 ^ 64
  | .popNext | .advanceOne => reach + 1 < 2 ^ 64
  | .fastForward => reach + bufferCapacity < 2 ^ 64
  | .capture | .reset => True

/-- At every call, the numbers before it and its own leave room for its sums. -/
def AllLeaveRoom : ℕ → List PathCall → Prop
  | _, [] => True
  | reach, c :: calls => c.LeavesRoom reach ∧ AllLeaveRoom (c.reachAfter reach) calls

instance decidableLeavesRoom (reach : ℕ) : DecidablePred (LeavesRoom reach)
  | .received bytes len now => inferInstanceAs (Decidable (∀ p ∈
      (AudioPacketDecoder.decode bytes len now).toOption,
        max reach p.seq + bufferCapacity < 2 ^ 64))
  | .popNext | .advanceOne | .fastForward => inferInstanceAs (Decidable (_ < _))
  | .capture | .reset => .isTrue trivial

instance decidableAllLeaveRoom :
    ∀ (reach : ℕ) (calls : List PathCall), Decidable (AllLeaveRoom reach calls)
  | _, [] => .isTrue trivial
  | reach, c :: calls =>
    haveI := decidableAllLeaveRoom (c.reachAfter reach) calls
    inferInstanceAs (Decidable (c.LeavesRoom reach ∧ _))

end PathCall

namespace PacketPath

variable {F : Type} [Binary32 F] [FrameMark F] {C : Codec F}

/-- Nothing has arrived. -/
def new : PacketPath C := ⟨.new, .new, none⟩

/-- One call, with sums that wrap. -/
def step (s : PacketPath C) : PathCall → PacketPath C
  | .received bytes len now =>
    match AudioPacketDecoder.decode bytes len now with
    | .ok p => { s with buffer := (s.buffer.insert p).1 }
    | .error _ => s
  | .popNext => { s with buffer := s.buffer.popNext.1, popped := s.buffer.popNext.2 }
  | .advanceOne => { s with buffer := s.buffer.advanceOne }
  | .fastForward =>
    match s.buffer.lowestAvailableSeq with
    | (b, some lo) => { s with buffer := b.fastForward lo }
    | (b, none) => { s with buffer := b }
  | .capture =>
    match s.popped with
    | some p => { s with decoder := s.decoder.capture p }
    | none => s
  | .reset => { s with buffer := s.buffer.reset }

/-- One call, with a check of the sums. -/
def checkedStep (s : PacketPath C) : PathCall → Option (PacketPath C)
  | .received bytes len now =>
    match AudioPacketDecoder.decode bytes len now with
    | .ok p => (s.buffer.insertChecked p).map fun r => { s with buffer := r.1 }
    | .error _ => some s
  | .popNext => s.buffer.popNextChecked.map fun r => { s with buffer := r.1, popped := r.2 }
  | .advanceOne => s.buffer.advanceOneChecked.map fun b => { s with buffer := b }
  | .fastForward =>
    match s.buffer.lowestAvailableSeq with
    | (b, some lo) => (b.skipToChecked lo).map fun b => { s with buffer := b }
    | (b, none) => some { s with buffer := b }
  | .capture =>
    match s.popped with
    | some p => (s.decoder.captureChecked p).map fun d => { s with decoder := d }
    | none => some s
  | .reset => some { s with buffer := s.buffer.reset }

/-- The way of the packets as a machine over its calls. -/
def machine (C : Codec F) : Machine (PacketPath C) PathCall Unit := ⟨new, fun s c => (s.step c, ())⟩

/-- No number on the way of the packets is beyond `reach`. -/
structure Reaches (s : PacketPath C) (reach : ℕ) : Prop where
  /-- No number of the buffer is. -/
  buffer : s.buffer.Reaches reach
  /-- The number of the popped packet leaves room for the capacity. -/
  popped : ∀ p ∈ s.popped, p.seq + bufferCapacity < 2 ^ 64

variable {s : PacketPath C} {c : PathCall} {reach : ℕ}

omit [Binary32 F] [FrameMark F] in
theorem Reaches.new (C : Codec F) : (PacketPath.new : PacketPath C).Reaches 0 :=
  ⟨.new 0, nofun⟩

/-- An arrival whose number has room. -/
theorem Reaches.received (h : s.Reaches reach) {bytes : List UInt8} {len : ℕ} {now : Instant}
    (hroom : (PathCall.received bytes len now).LeavesRoom reach) :
    s.checkedStep (.received bytes len now) = some (s.step (.received bytes len now)) ∧
      (s.step (.received bytes len now)).Reaches
        ((PathCall.received bytes len now).reachAfter reach) := by
  rw [PathCall.LeavesRoom] at hroom
  rw [checkedStep, PacketPath.step, PathCall.reachAfter]
  cases hdecode : AudioPacketDecoder.decode bytes len now with
  | error e => exact ⟨rfl, h⟩
  | ok p =>
    have hroom : max reach p.seq + bufferCapacity < 2 ^ 64 := hroom p (by rw [hdecode]; rfl)
    dsimp only
    have hbuffer := h.buffer.mono (Nat.le_max_left reach p.seq)
    have hseq : p.seq ≤ max reach p.seq := Nat.le_max_right _ _
    have hplayhead : s.buffer.playhead + bufferCapacity < 2 ^ 64 :=
      (Nat.add_le_add_right hbuffer.playhead _).trans_lt hroom
    have hpacket : p.seq + bufferCapacity < 2 ^ 64 :=
      (Nat.add_le_add_right hseq _).trans_lt hroom
    rw [JitterBuffer.insertChecked_eq hplayhead hpacket]
    exact ⟨rfl, hbuffer.insert hseq hpacket, h.popped⟩

/-- A skip to the lowest stored number. -/
theorem Reaches.fastForward (h : s.Reaches reach) (hroom : reach + bufferCapacity < 2 ^ 64) :
    s.checkedStep .fastForward = some (s.step .fastForward) ∧
      (s.step .fastForward).Reaches reach := by
  obtain ⟨hbuffer, hlowest⟩ := h.buffer.lowestAvailableSeq
  rw [checkedStep, PacketPath.step]
  split
  · next b lo heq =>
    rw [heq] at hbuffer hlowest
    have hplayhead : b.playhead + bufferCapacity < 2 ^ 64 :=
      (Nat.add_le_add_right hbuffer.playhead _).trans_lt hroom
    rw [JitterBuffer.skipToChecked_eq hplayhead]
    exact ⟨rfl, hbuffer.skipTo (hlowest lo rfl), h.popped⟩
  · next b heq =>
    rw [heq] at hbuffer
    exact ⟨rfl, hbuffer, h.popped⟩

/-- A call whose sums have room makes them all, and no number goes beyond its reach. -/
theorem Reaches.step (h : s.Reaches reach) (hroom : c.LeavesRoom reach) :
    s.checkedStep c = some (s.step c) ∧ (s.step c).Reaches (c.reachAfter reach) := by
  cases c with
  | received bytes len now => exact h.received hroom
  | fastForward => exact h.fastForward hroom
  | popNext =>
    have hplayhead := (Nat.add_le_add_right h.buffer.playhead 1).trans_lt hroom
    refine ⟨?_, h.buffer.popNext hroom, fun p hp => ?_⟩
    · rw [checkedStep, JitterBuffer.popNextChecked_eq hplayhead]
      rfl
    · obtain ⟨i, hi⟩ := JitterBuffer.popNext_stored hp
      exact h.buffer.roomy i p hi
  | advanceOne =>
    have hplayhead := (Nat.add_le_add_right h.buffer.playhead 1).trans_lt hroom
    refine ⟨?_, h.buffer.advanceOne hroom, h.popped⟩
    rw [checkedStep, JitterBuffer.advanceOneChecked_eq hplayhead]
    rfl
  | capture =>
    rw [checkedStep, PacketPath.step]
    cases hpopped : s.popped with
    | none => exact ⟨rfl, h⟩
    | some p =>
      have hroom := h.popped p hpopped
      have hone : p.seq + 1 < 2 ^ 64 :=
        (Nat.add_le_add_left (by decide : 1 ≤ bufferCapacity) p.seq).trans_lt hroom
      dsimp only
      rw [FrameDecoder.captureChecked_eq hone]
      exact ⟨rfl, h.buffer, hpopped ▸ h.popped⟩
  | reset => exact ⟨rfl, .new 0, h.popped⟩

theorem checked_from (h : s.Reaches reach) {calls : List PathCall}
    (hroom : PathCall.AllLeaveRoom reach calls) :
    ∀ e ∈ (machine C).eventsFrom s calls, e.before.checkedStep e.input = some e.after := by
  induction calls generalizing s reach with
  | nil => exact fun e he => absurd he List.not_mem_nil
  | cons c calls ih =>
    obtain ⟨hfirst, hrest⟩ := hroom
    obtain ⟨hchecked, hnext⟩ := h.step hfirst
    rw [Machine.eventsFrom_cons]
    exact List.forall_mem_cons.mpr ⟨hchecked, ih hnext hrest⟩

/-- In every run in which the numbers leave room at every call, no sum wraps. -/
theorem checked_of_run (C : Codec F) (calls : List PathCall)
    (hroom : PathCall.AllLeaveRoom 0 calls) :
    ∀ e ∈ (machine C).events calls, e.before.checkedStep e.input = some e.after :=
  checked_from (.new C) hroom

/-- A datagram with a packet of silence that bears the given number. -/
def silentDatagram (seqNum : UInt64) : PathCall := .received (wordBytes seqNum ++ [2]) 9 0

/-- Two packets that arrive, a gap between them, and both played. -/
def gappedCalls : List PathCall :=
  [silentDatagram 7, silentDatagram 9, .popNext, .capture, .advanceOne, .fastForward, .popNext,
    .capture, .reset]

theorem checked_of_run_gappedCalls : PathCall.AllLeaveRoom 0 gappedCalls ∧
    ∀ e ∈ (machine (Codec.unfed SoftFloat)).events gappedCalls,
      e.before.checkedStep e.input = some e.after := by
  have hroom : PathCall.AllLeaveRoom 0 gappedCalls := by
    decide
  exact ⟨hroom, checked_of_run _ gappedCalls hroom⟩

theorem not_checked_lastNumber :
    ¬∀ e ∈ (machine (Codec.unfed SoftFloat)).events [silentDatagram (2 ^ 64 - 1)],
      e.before.checkedStep e.input = some e.after := by
  intro hall
  have hnone : ((PacketPath.new : PacketPath (Codec.unfed SoftFloat)).checkedStep
      (silentDatagram (2 ^ 64 - 1))).isNone = true := by
    decide +kernel
  have hsome := hall _ List.mem_cons_self
  rw [Machine.eventAt_before, Machine.eventAt_input] at hsome
  rw [show (machine (Codec.unfed SoftFloat)).init = PacketPath.new from rfl] at hsome
  rw [hsome] at hnone
  nomatch hnone

end PacketPath

end Gemacast.Jitter
