import Gemacast.Core.Machine
import Gemacast.Jitter.Buffer

/-!
# The window invariant of the jitter buffer

In a well-formed buffer the filled slots are the residue ring of the window
`[playhead, playhead + capacity)` and the hand-maintained count is the number of
filled slots. Each operation is then a statement about the stored partial map:
moving the playhead drops what falls below it, and an insertion replaces at most
a packet of its own number.
-/

namespace Gemacast.Jitter

open Gemacast.Core

/-- The representation invariant of the reorder buffer. -/
structure JitterBuffer.WellFormed (b : JitterBuffer) : Prop where
  /-- Packets sit in the slot of their number, inside the window of the playhead. -/
  window : Ring.Windowed RawPacket.seq b.slots b.playhead
  /-- The maintained count is the number of filled slots. -/
  count : b.occupied = Ring.occupancy b.slots
  /-- Nothing is stored before the first packet anchors the playhead. -/
  virgin : b.initialized = false → b.slots = fun _ => none

namespace JitterBuffer

variable {b : JitterBuffer}

@[simp] theorem index_val (seq : UInt64) : (index seq).val = seq.toNat % bufferCapacity := rfl

theorem index_eq_slot (p : RawPacket) : index p.seqNum = Ring.slot bufferCapacity p.seq := rfl

theorem index_playhead : index b.nextPlaySeq = Ring.slot bufferCapacity b.playhead := rfl

theorem bufferCapacity_eq : bufferCapacity = 512 := rfl

/-- A stored number is the number of a packet in some slot. -/
theorem mem_stored {seq : ℕ} : seq ∈ b.stored ↔ ∃ i p, b.slots i = some p ∧ p.seq = seq :=
  Ring.mem_keys

/-- The empty buffer is well formed. -/
theorem WellFormed.new : JitterBuffer.new.WellFormed :=
  ⟨Ring.Windowed.empty _, Ring.occupancy_empty.symm, fun _ => rfl⟩

/-- Resetting yields the empty buffer. -/
theorem reset_eq_new : b.reset = JitterBuffer.new := rfl

@[simp] theorem clearSlot_slots (seq : UInt64) :
    (b.clearSlot seq).slots = Function.update b.slots (index seq) none := by
  unfold clearSlot
  split
  · rfl
  · rename_i h
    exact (Ring.clear_of_none (by simpa using h)).symm

theorem clearSlot_occupied (seq : UInt64) (h : b.occupied = Ring.occupancy b.slots) :
    (b.clearSlot seq).occupied = Ring.occupancy (b.clearSlot seq).slots := by
  rw [clearSlot_slots, Ring.occupancy_clear, ← h]
  unfold clearSlot
  by_cases hs : (b.slots (index seq)).isSome <;> simp [hs]

@[simp] theorem clearSlot_playhead (seq : UInt64) :
    (b.clearSlot seq).nextPlaySeq = b.nextPlaySeq := by
  unfold clearSlot; split <;> rfl

@[simp] theorem clearSlot_initialized (seq : UInt64) :
    (b.clearSlot seq).initialized = b.initialized := by
  unfold clearSlot; split <;> rfl

@[simp] theorem clearSlots_initialized (seq : UInt64) (n : ℕ) :
    (b.clearSlots seq n).initialized = b.initialized := by
  induction n generalizing b seq with
  | zero => rfl
  | succ n ih => rw [clearSlots, ih, clearSlot_initialized]

/-- Emptying slot by slot from the low end of the window is one drop. -/
theorem clearSlots_slots {seq : UInt64} {n : ℕ} (hfit : seq.toNat + n < 2 ^ 64)
    (hw : Ring.Windowed RawPacket.seq b.slots seq.toNat) :
    (b.clearSlots seq n).slots = Ring.dropBelow RawPacket.seq (seq.toNat + n) b.slots := by
  induction n generalizing b seq with
  | zero => exact (Ring.dropBelow_of_forall_le fun ha => hw.lower ha).symm
  | succ n ih =>
    have hnext : (seq + 1).toNat = seq.toNat + 1 := toNat_add_of_lt (by simp; omega)
    have hdrop : (b.clearSlot seq).slots =
        Ring.dropBelow RawPacket.seq (seq.toNat + 1) b.slots := by
      rw [clearSlot_slots]
      exact hw.clear_lowest
    have hw' : Ring.Windowed RawPacket.seq (b.clearSlot seq).slots (seq + 1).toNat := by
      rw [hdrop, hnext]
      exact hw.dropBelow (by omega)
    rw [clearSlots, ih (by omega) hw', hdrop, hnext, Ring.dropBelow_dropBelow (by omega)]
    congr 1
    omega

theorem clearSlots_occupied (seq : UInt64) (n : ℕ) (h : b.occupied = Ring.occupancy b.slots) :
    (b.clearSlots seq n).occupied = Ring.occupancy (b.clearSlots seq n).slots := by
  induction n generalizing b seq with
  | zero => exact h
  | succ n ih => exact ih _ (clearSlot_occupied seq h)

/-- There is nothing to empty in an empty ring. -/
theorem clearSlots_of_empty (seq : UInt64) (n : ℕ) (h : b.slots = fun _ => none) :
    b.clearSlots seq n = b := by
  induction n generalizing seq with
  | zero => rfl
  | succ n ih =>
    have hone : b.clearSlot seq = b := by simp [clearSlot, h]
    rw [clearSlots, hone, ih]

/-- A forward skip whose sums fit, or that has nothing to drop, drops exactly
what lies below the new playhead. -/
theorem WellFormed.skipTo_slots (h : b.WellFormed) {newSeq : UInt64}
    (hle : b.playhead ≤ newSeq.toNat)
    (hfit : (newSeq.toNat < b.playhead + bufferCapacity → b.playhead + bufferCapacity < 2 ^ 64) ∨
      b.slots = fun _ => none) :
    (b.skipTo newSeq).slots = Ring.dropBelow RawPacket.seq newSeq.toNat b.slots := by
  unfold skipTo
  by_cases hfar : capacity ≤ saturatingSub newSeq b.nextPlaySeq
  · simp only [hfar, if_true]
    have hdist := UInt64.le_iff_toNat_le.mp hfar
    rw [toNat_saturatingSub, capacity_toNat] at hdist
    refine (Ring.dropBelow_eq_empty fun ha => ?_).symm
    have := h.window.upper ha
    unfold playhead at this hle
    omega
  · simp only [hfar, if_false]
    have hdist : newSeq.toNat < b.playhead + bufferCapacity := by
      have := UInt64.lt_iff_toNat_lt.mp (UInt64.not_le.mp hfar)
      rw [toNat_saturatingSub, capacity_toNat] at this
      unfold playhead at hle ⊢
      omega
    rcases hfit with hfit | hempty
    · have hsum : (b.nextPlaySeq + capacity).toNat = b.playhead + bufferCapacity :=
        toNat_add_of_lt (by rw [capacity_toNat]; exact hfit hdist)
      have hend : b.nextPlaySeq.toNat +
          ((min newSeq (b.nextPlaySeq + capacity)).toNat - b.nextPlaySeq.toNat) = newSeq.toNat := by
        rw [toNat_min, hsum]
        unfold playhead at hle hdist ⊢
        omega
      have hlt := newSeq.toNat_lt
      rw [clearSlots_slots (by rw [hend]; exact hlt) h.window, hend]
    · rw [clearSlots_of_empty _ _ hempty, hempty]
      rfl

@[simp] theorem skipTo_nextPlaySeq (newSeq : UInt64) : (b.skipTo newSeq).nextPlaySeq = newSeq := rfl

@[simp] theorem skipTo_playhead (newSeq : UInt64) : (b.skipTo newSeq).playhead = newSeq.toNat := rfl

@[simp] theorem skipTo_cachedMinSeq (newSeq : UInt64) : (b.skipTo newSeq).cachedMinSeq = none := rfl

@[simp] theorem skipTo_initialized (newSeq : UInt64) :
    (b.skipTo newSeq).initialized = b.initialized := by
  unfold skipTo; dsimp only; split <;> simp

theorem skipTo_occupied (newSeq : UInt64) (h : b.occupied = Ring.occupancy b.slots) :
    (b.skipTo newSeq).occupied = Ring.occupancy (b.skipTo newSeq).slots := by
  unfold skipTo
  dsimp only
  split
  · exact Ring.occupancy_empty.symm
  · exact clearSlots_occupied _ _ h

/-- A forward skip keeps the invariant. -/
theorem WellFormed.skipTo (h : b.WellFormed) {newSeq : UInt64} (hle : b.playhead ≤ newSeq.toNat)
    (hfit : (newSeq.toNat < b.playhead + bufferCapacity → b.playhead + bufferCapacity < 2 ^ 64) ∨
      b.slots = fun _ => none) :
    (b.skipTo newSeq).WellFormed := by
  have hslots := h.skipTo_slots hle hfit
  refine ⟨?_, skipTo_occupied newSeq h.count, fun hv => ?_⟩
  · rw [hslots]
    exact h.window.dropBelow hle
  · rw [hslots, h.virgin (by simpa using hv)]
    rfl

/-- In a well-formed buffer the slot at the playhead stores the expected packet or
nothing. -/
theorem WellFormed.slot_playhead (h : b.WellFormed) {p : RawPacket}
    (hp : b.slots (index b.nextPlaySeq) = some p) : p.seqNum = b.nextPlaySeq :=
  UInt64.toNat_inj.mp (h.window.key_eq_of_slot le_rfl (by have := bufferCapacity_eq; omega) hp)

theorem WellFormed.packetAt_playhead (h : b.WellFormed) :
    b.packetAt b.playhead = b.slots (index b.nextPlaySeq) := by
  cases hs : b.slots (index b.nextPlaySeq) with
  | none => simp [packetAt, Ring.held, ← index_playhead, hs]
  | some p =>
    have hp : p.seq = b.playhead := congrArg UInt64.toNat (h.slot_playhead hs)
    simp [packetAt, Ring.held, ← index_playhead, hs, hp]

/-- A pop on an anchored well-formed buffer answers the packet stored at the
playhead, empties its slot and moves the playhead by one. -/
theorem WellFormed.popNext_eq (h : b.WellFormed) (hi : b.initialized = true) :
    b.popNext =
      ({ b with
          slots := Function.update b.slots (index b.nextPlaySeq) none
          occupied := b.occupied - (if (b.packetAt b.playhead).isSome then 1 else 0)
          nextPlaySeq := b.nextPlaySeq + 1
          cachedMinSeq := if (b.packetAt b.playhead).isSome then none else b.cachedMinSeq },
        b.packetAt b.playhead) := by
  unfold popNext
  rw [h.packetAt_playhead]
  cases hs : b.slots (index b.nextPlaySeq) with
  | none => simp [hi, hs]
  | some p => simp [hi, hs, h.slot_playhead hs]

/-- Without an anchor a pop does nothing. -/
theorem popNext_virgin (hi : b.initialized = false) : b.popNext = (b, none) := by
  simp [popNext, hi]

/-- Moving the playhead by one declares exactly the expected packet lost. -/
theorem WellFormed.advanceOne_eq (h : b.WellFormed) :
    b.advanceOne =
      { b with
        slots := Function.update b.slots (index b.nextPlaySeq) none
        occupied := b.occupied - (if (b.packetAt b.playhead).isSome then 1 else 0)
        nextPlaySeq := b.nextPlaySeq + 1
        cachedMinSeq := none } := by
  unfold advanceOne
  rw [h.packetAt_playhead]
  cases hs : b.slots (index b.nextPlaySeq) with
  | none => simp [hs, Ring.clear_of_none hs]
  | some p => simp [hs, h.slot_playhead hs]

/-- A playhead below the last word moves on by one. -/
theorem playhead_succ (hfit : b.playhead + 1 < 2 ^ 64) :
    (b.nextPlaySeq + 1).toNat = b.playhead + 1 :=
  toNat_add_of_lt (b := 1) hfit

/-- Moving past the playhead drops what lies below the new playhead. -/
theorem WellFormed.advance_slots (h : b.WellFormed) :
    Function.update b.slots (index b.nextPlaySeq) none =
      Ring.dropBelow RawPacket.seq (b.playhead + 1) b.slots :=
  h.window.clear_lowest

/-- Emptying the slot of the playhead and moving past it keeps the invariant, as
long as the playhead does not wrap or nothing is stored. -/
theorem WellFormed.advance (h : b.WellFormed) (cache : Option UInt64)
    (hfit : b.playhead + 1 < 2 ^ 64 ∨ b.slots = fun _ => none) :
    WellFormed { b with
      slots := Function.update b.slots (index b.nextPlaySeq) none
      occupied := b.occupied - (if (b.packetAt b.playhead).isSome then 1 else 0)
      nextPlaySeq := b.nextPlaySeq + 1
      cachedMinSeq := cache } := by
  refine ⟨?_, ?_, fun hv => ?_⟩
  · rcases hfit with hfit | hempty
    · change Ring.Windowed _ _ (b.nextPlaySeq + 1).toNat
      rw [playhead_succ hfit, h.advance_slots]
      exact h.window.dropBelow (Nat.le_succ _)
    · simp only [hempty]
      rw [Ring.clear_of_none rfl]
      exact Ring.Windowed.empty _
  · simp only
    rw [Ring.occupancy_clear, h.packetAt_playhead, h.count]
  · simp only
    rw [h.virgin hv, Ring.clear_of_none rfl]

theorem WellFormed.popNext (h : b.WellFormed)
    (hfit : b.playhead + 1 < 2 ^ 64 ∨ b.slots = fun _ => none) : b.popNext.1.WellFormed := by
  cases hi : b.initialized with
  | false => rw [popNext_virgin hi]; exact h
  | true => rw [h.popNext_eq hi]; exact h.advance _ hfit

theorem WellFormed.advanceOne (h : b.WellFormed)
    (hfit : b.playhead + 1 < 2 ^ 64 ∨ b.slots = fun _ => none) : b.advanceOne.WellFormed := by
  rw [h.advanceOne_eq]
  exact h.advance _ hfit

/-- Storing inside the window keeps the invariant. -/
theorem WellFormed.store (h : b.WellFormed) (hi : b.initialized = true) {p : RawPacket}
    (hlo : b.playhead ≤ p.seq) (hhi : p.seq < b.playhead + bufferCapacity) :
    (b.store p).WellFormed := by
  refine ⟨h.window.store hlo hhi, ?_, fun hv => ?_⟩
  · have hcount := @Ring.occupancy_store _ _ b.slots (index p.seqNum) p
    simp only [JitterBuffer.store, hcount, h.count, Option.isNone_iff_eq_none]
  · simp [JitterBuffer.store, hi] at hv

/-- The insertion finds a packet behind the playhead, but not by more than the capacity. -/
def IsStale (b : JitterBuffer) (p : RawPacket) : Prop :=
  b.initialized = true ∧ p.seq < b.playhead ∧ b.playhead ≤ p.seq + bufferCapacity

instance (b : JitterBuffer) (p : RawPacket) : Decidable (b.IsStale p) :=
  inferInstanceAs (Decidable (_ ∧ _))

/-- The insertion finds a packet more than the capacity behind the playhead. -/
def Restarts (b : JitterBuffer) (p : RawPacket) : Prop :=
  b.initialized = true ∧ p.seq + bufferCapacity < b.playhead

instance (b : JitterBuffer) (p : RawPacket) : Decidable (b.Restarts p) :=
  inferInstanceAs (Decidable (_ ∧ _))

/-- The buffer into which an insertion that is not stale stores its packet. -/
def opened (b : JitterBuffer) (p : RawPacket) : JitterBuffer :=
  if p.seqNum < (b.anchor p).nextPlaySeq then
    JitterBuffer.makeRoom { b.reset with nextPlaySeq := p.seqNum, initialized := true } p
  else (b.anchor p).makeRoom p

/-- The additions of an insertion fit: the one compared with the packet's number is
that of the playhead, which the first packet sets to its own number. -/
def InsertFits (b : JitterBuffer) (p : RawPacket) : Prop :=
  (b.initialized = true → p.seq < b.playhead ∨ b.playhead + bufferCapacity < 2 ^ 64) ∧
    (b.initialized = false → p.seq + bufferCapacity < 2 ^ 64)

theorem seqNum_lt_iff {p : RawPacket} : p.seqNum < b.nextPlaySeq ↔ p.seq < b.playhead := Iff.rfl

theorem far_behind_iff {p : RawPacket} :
    capacity < saturatingSub b.nextPlaySeq p.seqNum ↔ p.seq + bufferCapacity < b.playhead := by
  rw [UInt64.lt_iff_toNat_lt, toNat_saturatingSub, capacity_toNat]
  unfold playhead RawPacket.seq
  omega

/-- What an insertion does: reject, restart, or accept. -/
theorem insert_cases (b : JitterBuffer) (p : RawPacket) :
    (b.IsStale p ∧ b.insert p = (b, .stale)) ∨
      (b.Restarts p ∧ b.insert p = ((b.opened p).store p, .streamRestarted)) ∨
      (¬b.IsStale p ∧ ¬b.Restarts p ∧ b.insert p = ((b.opened p).store p, .accepted)) := by
  cases hi : b.initialized with
  | false =>
    refine Or.inr (Or.inr ⟨by simp [IsStale, hi], by simp [Restarts, hi], ?_⟩)
    simp [insert, opened, anchor, hi]
  | true =>
    by_cases hlt : p.seq < b.playhead
    · have hlt' := seqNum_lt_iff.mpr hlt
      by_cases hfar : p.seq + bufferCapacity < b.playhead
      · refine Or.inr (Or.inl ⟨⟨hi, hfar⟩, ?_⟩)
        simp only [insert, opened, anchor, hi, if_true, hlt', far_behind_iff.mpr hfar]
      · refine Or.inl ⟨⟨hi, hlt, by omega⟩, ?_⟩
        simp only [insert, anchor, hi, if_true, hlt', far_behind_iff, hfar, if_false]
    · refine Or.inr (Or.inr ⟨fun h => hlt h.2.1, fun h => hlt ?_, ?_⟩)
      · have := h.2
        omega
      · simp only [insert, opened, anchor, hi, if_true, seqNum_lt_iff, hlt, if_false]

/-- What making room does to a buffer whose playhead is at or below the packet. -/
theorem WellFormed.makeRoom (h : b.WellFormed) {p : RawPacket} (hle : b.playhead ≤ p.seq)
    (hfit : b.playhead + bufferCapacity < 2 ^ 64) :
    (b.makeRoom p).WellFormed ∧ b.playhead ≤ (b.makeRoom p).playhead ∧
      (b.makeRoom p).playhead ≤ p.seq ∧ p.seq < (b.makeRoom p).playhead + bufferCapacity ∧
      (b.makeRoom p).slots = Ring.dropBelow RawPacket.seq (b.makeRoom p).playhead b.slots ∧
      (b.makeRoom p).initialized = b.initialized := by
  have hcap := bufferCapacity_eq
  have hsum : (b.nextPlaySeq + capacity).toNat = b.playhead + bufferCapacity :=
    toNat_add_of_lt (by rw [capacity_toNat]; exact hfit)
  unfold JitterBuffer.makeRoom
  split
  · rename_i hfar
    rw [UInt64.le_iff_toNat_le, hsum] at hfar
    have hnew : (saturatingSub p.seqNum (capacity / 2)).toNat = p.seq - 256 := by
      rw [toNat_saturatingSub]
      rfl
    have hge : b.playhead ≤ (saturatingSub p.seqNum (capacity / 2)).toNat := by
      rw [hnew]
      unfold RawPacket.seq
      omega
    have hfit' : ((saturatingSub p.seqNum (capacity / 2)).toNat < b.playhead + bufferCapacity →
        b.playhead + bufferCapacity < 2 ^ 64) ∨ b.slots = fun _ => none := Or.inl fun _ => hfit
    refine ⟨h.skipTo hge hfit', hge, ?_, ?_, h.skipTo_slots hge hfit', skipTo_initialized _⟩
    · rw [skipTo_playhead, hnew]
      omega
    · rw [skipTo_playhead, hnew]
      omega
  · rename_i hnear
    rw [UInt64.le_iff_toNat_le, hsum] at hnear
    refine ⟨h, le_rfl, hle, ?_, ?_, rfl⟩
    · unfold RawPacket.seq
      omega
    · exact (Ring.dropBelow_of_forall_le fun ha => h.window.lower ha).symm

/-- The buffer an insertion stores into is well formed, its window contains the
packet, and it keeps of the old packets those at or after its playhead: none of
them after a restart. -/
theorem WellFormed.opened (h : b.WellFormed) {p : RawPacket} (hfit : b.InsertFits p)
    (hstale : ¬b.IsStale p) :
    (b.opened p).WellFormed ∧ (b.opened p).initialized = true ∧
      (b.opened p).playhead ≤ p.seq ∧ p.seq < (b.opened p).playhead + bufferCapacity ∧
      (b.Restarts p → (b.opened p).slots = fun _ => none) ∧
      (¬b.Restarts p →
        (b.opened p).slots = Ring.dropBelow RawPacket.seq (b.opened p).playhead b.slots ∧
        (b.initialized = true → b.playhead ≤ (b.opened p).playhead)) := by
  cases hi : b.initialized with
  | false =>
    have hanchor : b.anchor p = { b with nextPlaySeq := p.seqNum, initialized := true } := by
      simp [anchor, hi]
    have hw : (b.anchor p).WellFormed := by
      rw [hanchor]
      refine ⟨?_, h.count, by simp⟩
      simp only [h.virgin hi]
      exact Ring.Windowed.empty _
    have hopened : b.opened p = (b.anchor p).makeRoom p := by simp [JitterBuffer.opened, hanchor]
    have hplay : (b.anchor p).playhead = p.seq := by rw [hanchor]; rfl
    have hslots : (b.anchor p).slots = b.slots := by rw [hanchor]
    obtain ⟨h1, h2, h3, h4, h5, h6⟩ :=
      hw.makeRoom (p := p) hplay.le (by rw [hplay]; exact hfit.2 hi)
    rw [hopened]
    refine ⟨h1, by rw [h6, hanchor], h3, h4, ?_, ?_⟩
    · intro hr
      simp [Restarts, hi] at hr
    · exact fun _ => ⟨by rw [h5, hslots], by simp⟩
  | true =>
    have hanchor : b.anchor p = b := by simp [anchor, hi]
    by_cases hlt : p.seq < b.playhead
    · have hr : b.Restarts p := by
        refine ⟨hi, ?_⟩
        by_contra hnot
        exact hstale ⟨hi, hlt, by omega⟩
      have hopened : b.opened p =
          JitterBuffer.makeRoom
            { b.reset with nextPlaySeq := p.seqNum, initialized := true } p := by
        simp only [JitterBuffer.opened, hanchor, seqNum_lt_iff, hlt, if_true]
      have hw : WellFormed { b.reset with nextPlaySeq := p.seqNum, initialized := true } :=
        ⟨Ring.Windowed.empty _, Ring.occupancy_empty.symm, by simp⟩
      have hfits : p.seq + bufferCapacity < 2 ^ 64 := hr.2.trans b.nextPlaySeq.toNat_lt
      obtain ⟨h1, h2, h3, h4, h5, h6⟩ := hw.makeRoom (p := p) le_rfl hfits
      rw [hopened]
      refine ⟨h1, h6, h3, h4, fun _ => ?_, fun hn => absurd hr hn⟩
      rw [h5]
      rfl
    · have hopened : b.opened p = b.makeRoom p := by
        simp only [JitterBuffer.opened, hanchor, seqNum_lt_iff, hlt, if_false]
      have hsum : b.playhead + bufferCapacity < 2 ^ 64 := (hfit.1 hi).resolve_left hlt
      obtain ⟨h1, h2, h3, h4, h5, h6⟩ := h.makeRoom (p := p) (Nat.not_lt.mp hlt) hsum
      rw [hopened]
      refine ⟨h1, by rw [h6, hi], h3, h4, fun hr => ?_, fun _ => ⟨h5, fun _ => h2⟩⟩
      have := hr.2
      omega

/-- An insertion keeps the invariant. -/
theorem WellFormed.insert (h : b.WellFormed) {p : RawPacket} (hfit : b.InsertFits p) :
    (b.insert p).1.WellFormed := by
  rcases b.insert_cases p with ⟨_, heq⟩ | ⟨hr, heq⟩ | ⟨hs, _, heq⟩
  · rw [heq]
    exact h
  · have hs : ¬b.IsStale p := fun hs => by have := hs.2.2; have := hr.2; omega
    obtain ⟨h1, h2, h3, h4, _⟩ := h.opened hfit hs
    rw [heq]
    exact h1.store h2 h3 h4
  · obtain ⟨h1, h2, h3, h4, _⟩ := h.opened hfit hs
    rw [heq]
    exact h1.store h2 h3 h4

end JitterBuffer

end Gemacast.Jitter
