import Mathlib.Algebra.BigOperators.Group.Finset.Basic
import Mathlib.Data.Fintype.Powerset
import Gemacast.Player.PcmAssembly

/-!
# Reassembly as a function of the arrivals

What the reassembly table answers is a property of the chunks that have arrived,
in their order: the frame of a chunk is live while no newer generation and no
number a window ahead has been seen and its first chunk is younger than the
deadline, and the fourth distinct chunk of a live frame completes it with the
first copy of each quarter. The table represents that history slot by slot.
-/

namespace Gemacast.Player

open Gemacast.Core Gemacast.Jitter

/-- A chunk and its arrival. -/
abbrev Arrival := PcmChunk × Instant

namespace PcmAssembly

/-- The arrivals among the calls, in order. -/
def arrivals (calls : List Call) : List Arrival :=
  calls.filterMap fun
    | .push chunk now => some (chunk, now)
    | .expire _ => none

/-- The arrivals of one frame. -/
def copies (A : List Arrival) (g s : UInt64) : List Arrival :=
  A.filter fun x => x.1.generation = g ∧ x.1.sequence = s

/-- The quarters of a frame that have arrived. -/
def received (A : List Arrival) (g s : UInt64) : Finset (Fin pcmChunks) :=
  ((copies A g s).map fun x => x.1.index).toFinset

/-- When the first chunk of a frame arrived. -/
def firstArrival (A : List Arrival) (g s : UInt64) : Option Instant :=
  (copies A g s).head?.map Prod.snd

/-- The first copy of a quarter of a frame. -/
def firstCopy (A : List Arrival) (g s : UInt64) (i : Fin pcmChunks) : Option (List UInt8) :=
  ((copies A g s).find? fun x => x.1.index = i).map fun x => x.1.payload

/-- A newer generation than the chunk's has arrived, or a number a window ahead of it. -/
def Superseded (A : List Arrival) (chunk : PcmChunk) : Prop :=
  (∃ x ∈ A, chunk.generation < x.1.generation) ∨
    ∃ x ∈ A, x.1.generation = chunk.generation ∧
      chunk.sequence.toNat + slotCount ≤ x.1.sequence.toNat

/-- The first chunk of the chunk's frame arrived at least a deadline ago. -/
def Expired (A : List Arrival) (chunk : PcmChunk) (now : Instant) : Prop :=
  ∃ t, firstArrival A chunk.generation chunk.sequence = some t ∧ assemblyDeadline ≤ now - t

/-- All four quarters of the chunk's frame have arrived. -/
def Completed (A : List Arrival) (chunk : PcmChunk) : Prop :=
  received A chunk.generation chunk.sequence = Finset.univ

/-- The chunk is the fourth distinct one of a live frame of the newest generation. -/
def CompletesFrame (A : List Arrival) (chunk : PcmChunk) (now : Instant) : Prop :=
  ¬Superseded A chunk ∧ ¬Expired A chunk now ∧
    chunk.index ∉ received A chunk.generation chunk.sequence ∧
    Completed (A ++ [(chunk, now)]) chunk

section Histories

variable {A : List Arrival} {g s : UInt64} {chunk : PcmChunk} {now : Instant}

/-- A chunk of the frame is appended to its copies. -/
theorem copies_append_self :
    copies (A ++ [(chunk, now)]) chunk.generation chunk.sequence =
      copies A chunk.generation chunk.sequence ++ [(chunk, now)] := by
  simp [copies]

/-- A chunk of another frame changes no copies. -/
theorem copies_append_of_ne (now : Instant) (h : ¬(chunk.generation = g ∧ chunk.sequence = s)) :
    copies (A ++ [(chunk, now)]) g s = copies A g s := by
  simp [copies, h]

theorem received_append_self :
    received (A ++ [(chunk, now)]) chunk.generation chunk.sequence =
      insert chunk.index (received A chunk.generation chunk.sequence) := by
  ext i
  simp [received, copies_append_self]

theorem firstArrival_append_self :
    firstArrival (A ++ [(chunk, now)]) chunk.generation chunk.sequence =
      (firstArrival A chunk.generation chunk.sequence).or (some now) := by
  unfold firstArrival
  rw [copies_append_self]
  cases copies A chunk.generation chunk.sequence <;> rfl

theorem mem_received {i : Fin pcmChunks} :
    i ∈ received A g s ↔ (firstCopy A g s i).isSome := by
  simp [received, firstCopy]

theorem firstCopy_append_self (i : Fin pcmChunks) :
    firstCopy (A ++ [(chunk, now)]) chunk.generation chunk.sequence i =
      (firstCopy A chunk.generation chunk.sequence i).or
        (if chunk.index = i then some chunk.payload else none) := by
  unfold firstCopy
  rw [copies_append_self, List.find?_append]
  cases (copies A chunk.generation chunk.sequence).find? fun x => x.1.index = i with
  | some x => rfl
  | none => by_cases h : chunk.index = i <;> simp [h]

/-- Nothing of a frame without arrivals has been received. -/
theorem received_of_copies_nil (h : copies A g s = []) : received A g s = ∅ := by
  simp [received, h]

/-- A frame with a first arrival has copies, and conversely. -/
theorem firstArrival_eq_none : firstArrival A g s = none ↔ copies A g s = [] := by
  simp [firstArrival]

theorem mem_of_mem_copies {x : Arrival} (hx : x ∈ copies A g s) :
    x ∈ A ∧ x.1.generation = g ∧ x.1.sequence = s := by
  simpa [copies] using hx

end Histories

/-- The mask of a set of quarters. -/
def maskOf (D : Finset (Fin pcmChunks)) : UInt8 := UInt8.ofNat (∑ i ∈ D, 2 ^ i.val)

theorem maskOf_empty : maskOf ∅ = 0 := rfl

theorem maskOf_and_chunkBit :
    ∀ (D : Finset (Fin pcmChunks)) (i : Fin pcmChunks), maskOf D &&& chunkBit i ≠ 0 ↔ i ∈ D := by
  decide +kernel

theorem maskOf_or_chunkBit :
    ∀ (D : Finset (Fin pcmChunks)) (i : Fin pcmChunks),
      maskOf D ||| chunkBit i = maskOf (insert i D) := by
  decide +kernel

theorem maskOf_eq_full : ∀ D : Finset (Fin pcmChunks), maskOf D = 15 ↔ D = Finset.univ := by
  decide +kernel

/-- A packet that holds the first copy of each received quarter of its frame. -/
structure Collects (A : List Arrival) (g s : UInt64) (p : RawPacket) : Prop where
  /-- The packet carries the number of the frame. -/
  seqNum : p.seqNum = s
  /-- It is marked as raw PCM. -/
  isUncompressed : p.isUncompressed = true
  /-- It is not a silent frame. -/
  isSilence : p.isSilence = false
  /-- It has room for all quarters. -/
  length_payload : p.payload.length = pcmChunks * pcmPayload
  /-- At the place of each received quarter stands its first copy. -/
  first : ∀ i bytes, firstCopy A g s i = some bytes → block pcmPayload p.payload i = bytes

section Filling

variable {A : List Arrival} {chunk : PcmChunk} {now : Instant} {p : RawPacket}

/-- The blank packet of a frame without arrivals holds nothing. -/
theorem Collects.blank {g s : UInt64} (h : copies A g s = []) :
    Collects A g s (blankPacket s now) := by
  refine ⟨rfl, rfl, rfl, ?_, fun i bytes hi => ?_⟩
  · simp [blankPacket, Nat.mul_comm]
  · simp [firstCopy, h] at hi

/-- A further copy of a received quarter leaves the packet as it is. -/
theorem Collects.duplicate (h : Collects A chunk.generation chunk.sequence p)
    (hin : chunk.index ∈ received A chunk.generation chunk.sequence) :
    Collects (A ++ [(chunk, now)]) chunk.generation chunk.sequence p := by
  refine ⟨h.seqNum, h.isUncompressed, h.isSilence, h.length_payload, fun i bytes hi => ?_⟩
  apply h.first
  rw [firstCopy_append_self] at hi
  by_cases heq : chunk.index = i
  · subst heq
    obtain ⟨first, hfirst⟩ := Option.isSome_iff_exists.mp (mem_received.mp hin)
    rw [hfirst] at hi ⊢
    exact hi
  · simpa [heq] using hi

/-- A new quarter is written to its place. -/
theorem Collects.write (now : Instant) (h : Collects A chunk.generation chunk.sequence p)
    (hnew : chunk.index ∉ received A chunk.generation chunk.sequence) :
    Collects (A ++ [(chunk, now)]) chunk.generation chunk.sequence (writeChunk p chunk) := by
  refine ⟨h.seqNum, h.isUncompressed, h.isSilence, ?_, fun i bytes hi => ?_⟩
  · rw [writeChunk, length_overwrite]
    exact h.length_payload
  · have hblock := block_overwrite h.length_payload chunk.length_payload chunk.index.2 i.val
    rw [firstCopy_append_self] at hi
    change block pcmPayload (overwrite p.payload (chunk.index * pcmPayload) chunk.payload) i = bytes
    rw [hblock]
    by_cases heq : chunk.index = i
    · subst heq
      have hnone : firstCopy A chunk.generation chunk.sequence chunk.index = none := by
        rw [mem_received] at hnew
        simpa using hnew
      rw [hnone] at hi
      simpa using hi
    · rw [if_neg fun hval => heq (Fin.ext hval.symm)]
      apply h.first
      simpa [heq] using hi

variable {slot : FrameSlot}

/-- What a chunk does to the slot of its frame while the packet is under assembly. -/
theorem FrameSlot.fill_cases (now : Instant) (hp : slot.packet = some p)
    (hmask : slot.mask = maskOf (received A chunk.generation chunk.sequence)) :
    let received' := received (A ++ [(chunk, now)]) chunk.generation chunk.sequence
    (chunk.index ∈ received A chunk.generation chunk.sequence ∧
      slot.fill chunk now = (slot, none)) ∨
    (chunk.index ∉ received A chunk.generation chunk.sequence ∧ received' ≠ Finset.univ ∧
      slot.fill chunk now =
        ({ slot with packet := some (writeChunk p chunk), mask := maskOf received' }, none)) ∨
    (chunk.index ∉ received A chunk.generation chunk.sequence ∧ received' = Finset.univ ∧
      slot.fill chunk now =
        ({ slot with packet := none, mask := maskOf received' },
          some { writeChunk p chunk with arrivalTime := now })) := by
  intro received'
  have hor : slot.mask ||| chunkBit chunk.index = maskOf received' := by
    rw [hmask, maskOf_or_chunkBit, ← received_append_self]
  by_cases hin : chunk.index ∈ received A chunk.generation chunk.sequence
  · refine Or.inl ⟨hin, ?_⟩
    simp only [FrameSlot.fill, hp, hmask, maskOf_and_chunkBit]
    rw [if_pos hin]
  · have hbit : ¬(slot.mask &&& chunkBit chunk.index ≠ 0) := by
      rwa [hmask, maskOf_and_chunkBit]
    right
    by_cases hfull : received' = Finset.univ
    · refine Or.inr ⟨hin, hfull, ?_⟩
      have hmask' : ¬(slot.mask ||| chunkBit chunk.index ≠ 15) := by
        rw [hor, not_not]
        exact (maskOf_eq_full _).mpr hfull
      simp only [FrameSlot.fill, hp]
      rw [if_neg hbit, if_neg hmask', hor]
    · refine Or.inl ⟨hin, hfull, ?_⟩
      have hmask' : slot.mask ||| chunkBit chunk.index ≠ 15 := by
        rw [hor]
        exact fun heq => hfull ((maskOf_eq_full _).mp heq)
      simp only [FrameSlot.fill, hp]
      rw [if_neg hbit, if_pos hmask', hor]

end Filling

/-- The slot of a frame with arrivals: its packet is under assembly while the frame is
incomplete and no call has found it overdue. -/
structure Assembles (A : List Arrival) (T : List Instant) (g s : UInt64) (slot : FrameSlot) :
    Prop where
  /-- The slot was opened for the frame. -/
  sequence : slot.sequence = some s
  /-- It remembers the first arrival. -/
  start : slot.firstArrival = firstArrival A g s
  /-- A first chunk has arrived. -/
  isSome : (firstArrival A g s).isSome
  /-- A packet under assembly holds the received quarters, not all four, in time. -/
  packet : ∀ p, slot.packet = some p → Collects A g s p ∧ slot.mask = maskOf (received A g s) ∧
    received A g s ≠ Finset.univ ∧
    ∀ t, firstArrival A g s = some t → ∀ τ ∈ T, τ - t < assemblyDeadline
  /-- Without a packet the frame is complete or overdue. -/
  gone : slot.packet = none → received A g s = Finset.univ ∨
    ∃ t, firstArrival A g s = some t ∧ ∃ τ ∈ T, assemblyDeadline ≤ τ - t

/-- The slots stand for the frames of generation `g` within a window of `newest`. -/
structure Frames (A : List Arrival) (T : List Instant) (g newest : UInt64)
    (slots : Fin slotCount → FrameSlot) : Prop where
  /-- No newer generation has arrived. -/
  generations : ∀ x ∈ A, x.1.generation ≤ g
  /-- No newer number of the generation has arrived. -/
  sequences : ∀ x ∈ A, x.1.generation = g → x.1.sequence.toNat ≤ newest.toNat
  /-- No slot was opened for a newer number. -/
  stored : ∀ i s, (slots i).sequence = some s → s.toNat ≤ newest.toNat
  /-- A frame inside the window is in its slot once it has arrivals. -/
  frames : ∀ s, s.toNat ≤ newest.toNat → newest.toNat < s.toNat + slotCount →
    (copies A g s = [] ∧ (slots (index s)).sequence ≠ some s) ∨
      Assembles A T g s (slots (index s))

/-- The table stands for the arrivals `A`, with calls at the instants `T`. -/
structure Represents (A : List Arrival) (T : List Instant) (a : PcmAssembly) : Prop where
  /-- Without a generation nothing has arrived. -/
  virgin : a.generation = none → A = []
  /-- The generation is the newest one, and so is the number. -/
  current : ∀ g, a.generation = some g → Frames A T g a.newestSequence a.slots ∧
    ∃ x ∈ A, x.1.generation = g ∧ x.1.sequence = a.newestSequence

/-- The empty table stands for no arrivals. -/
theorem Represents.new : Represents [] [] PcmAssembly.new :=
  ⟨fun _ => rfl, fun g hg => by simp [PcmAssembly.new] at hg⟩

section Steps

variable {A : List Arrival} {T : List Instant} {g newest s : UInt64}
  {slots : Fin slotCount → FrameSlot} {slot : FrameSlot} {chunk : PcmChunk} {now : Instant}

/-- Expiry drops the packets that are overdue and remembers its instant. -/
theorem Assembles.expire (h : Assembles A T g s slot) :
    Assembles A (T ++ [now]) g s (slot.expire now) := by
  obtain ⟨t, ht⟩ := Option.isSome_iff_exists.mp h.isSome
  have hfirst : slot.firstArrival = some t := h.start.trans ht
  have hunique : ∀ t', firstArrival A g s = some t' → t' = t := fun t' ht' =>
    Option.some.inj (ht'.symm.trans ht)
  unfold FrameSlot.expire
  split
  · rename_i hover
    have hlate : assemblyDeadline ≤ now - t := by
      simp only [FrameSlot.overdue, hfirst, Option.any_some, Bool.and_eq_true] at hover
      exact of_decide_eq_true hover.2
    refine ⟨h.sequence, h.start, h.isSome, by simp, fun _ => Or.inr ⟨t, ht, now, ?_, hlate⟩⟩
    simp
  · rename_i hover
    refine ⟨h.sequence, h.start, h.isSome, fun p hp => ?_, fun hnone => ?_⟩
    · obtain ⟨hcollects, hmask, hfilling, htime⟩ := h.packet p hp
      refine ⟨hcollects, hmask, hfilling, fun t' ht' τ hτ => ?_⟩
      rcases List.mem_append.mp hτ with hold | hnow
      · exact htime t' ht' τ hold
      · obtain rfl := List.mem_singleton.mp hnow
        obtain rfl := hunique t' ht'
        simp only [FrameSlot.overdue, hp, hfirst, Option.isSome_some, Option.any_some,
          Bool.true_and, decide_eq_true_eq] at hover
        exact Nat.not_le.mp hover
    · refine (h.gone hnone).imp_right ?_
      rintro ⟨t', ht', τ, hτ, hlate⟩
      exact ⟨t', ht', τ, List.mem_append_left _ hτ, hlate⟩

@[simp] theorem FrameSlot.expire_sequence : (slot.expire now).sequence = slot.sequence := by
  unfold FrameSlot.expire; split <;> rfl

theorem Frames.expire (h : Frames A T g newest slots) :
    Frames A (T ++ [now]) g newest fun i => (slots i).expire now := by
  refine ⟨h.generations, h.sequences, fun i s hs => ?_, fun s hle hlt => ?_⟩
  · rw [FrameSlot.expire_sequence] at hs
    exact h.stored i s hs
  · rw [FrameSlot.expire_sequence]
    exact (h.frames s hle hlt).imp_right Assembles.expire

/-- Expiry keeps the history represented. -/
theorem Represents.expire {a : PcmAssembly} (h : Represents A T a) :
    Represents A (T ++ [now]) (a.expire now) :=
  ⟨h.virgin, fun g hg => (h.current g hg).imp_left Frames.expire⟩

/-- A chunk of another frame is no news to the slot of this one. -/
theorem Assembles.append_of_ne (h : Assembles A T g s slot)
    (hne : ¬(chunk.generation = g ∧ chunk.sequence = s)) :
    Assembles (A ++ [(chunk, now)]) T g s slot := by
  have hc := @copies_append_of_ne A _ _ _ now hne
  have hr : received (A ++ [(chunk, now)]) g s = received A g s := by simp only [received, hc]
  have ha : firstArrival (A ++ [(chunk, now)]) g s = firstArrival A g s := by
    simp only [firstArrival, hc]
  have hfc : ∀ i, firstCopy (A ++ [(chunk, now)]) g s i = firstCopy A g s i := by
    intro i
    simp only [firstCopy, hc]
  refine ⟨h.sequence, by rw [ha]; exact h.start, by rw [ha]; exact h.isSome,
    fun p hp => ?_, fun hnone => ?_⟩
  · obtain ⟨hcollects, hmask, hfilling, htime⟩ := h.packet p hp
    rw [hr, ha]
    refine ⟨⟨hcollects.seqNum, hcollects.isUncompressed, hcollects.isSilence,
      hcollects.length_payload, fun i bytes hi => ?_⟩, hmask, hfilling, htime⟩
    rw [hfc] at hi
    exact hcollects.first i bytes hi
  · rw [hr, ha]
    exact h.gone hnone

/-- A superseded chunk is no news to the frames inside the window. -/
theorem Frames.superseded (h : Frames A T g newest slots) (hgen : chunk.generation ≤ g)
    (hold : chunk.generation = g → chunk.sequence.toNat + slotCount ≤ newest.toNat) :
    Frames (A ++ [(chunk, now)]) T g newest slots := by
  refine ⟨fun x hx => ?_, fun x hx hx' => ?_, h.stored, fun s hle hlt => ?_⟩
  · rcases List.mem_append.mp hx with hx | hx
    · exact h.generations x hx
    · obtain rfl := List.mem_singleton.mp hx
      exact hgen
  · rcases List.mem_append.mp hx with hx | hx
    · exact h.sequences x hx hx'
    · obtain rfl := List.mem_singleton.mp hx
      have := hold hx'
      simp only
      omega
  · have hne : ¬(chunk.generation = g ∧ chunk.sequence = s) := by
      rintro ⟨hg, rfl⟩
      have := hold hg
      omega
    refine (h.frames s hle hlt).imp (fun hf => ?_) fun hf => hf.append_of_ne hne
    rwa [copies_append_of_ne _ hne]

/-- Filling the slot of a frame whose packet is under assembly. -/
theorem Assembles.fill (A : List Arrival) (T : List Instant) (slot : FrameSlot) (now : Instant)
    {p : RawPacket} (hseq : slot.sequence = some chunk.sequence)
    (hstart : slot.firstArrival =
      PcmAssembly.firstArrival (A ++ [(chunk, now)]) chunk.generation chunk.sequence)
    (hp : slot.packet = some p) (hcollects : Collects A chunk.generation chunk.sequence p)
    (hmask : slot.mask = maskOf (received A chunk.generation chunk.sequence))
    (hfilling : received A chunk.generation chunk.sequence ≠ Finset.univ)
    (htime : ∀ t, PcmAssembly.firstArrival (A ++ [(chunk, now)]) chunk.generation
      chunk.sequence = some t → ∀ τ ∈ T, τ - t < assemblyDeadline) :
    Assembles (A ++ [(chunk, now)]) T chunk.generation chunk.sequence (slot.fill chunk now).1 ∧
      ((slot.fill chunk now).2.isSome ↔
        chunk.index ∉ received A chunk.generation chunk.sequence ∧
          Completed (A ++ [(chunk, now)]) chunk) ∧
      ∀ p, (slot.fill chunk now).2 = some p →
        Collects (A ++ [(chunk, now)]) chunk.generation chunk.sequence p ∧ p.arrivalTime = now := by
  have hsome : (PcmAssembly.firstArrival (A ++ [(chunk, now)]) chunk.generation
      chunk.sequence).isSome := by
    rw [firstArrival_append_self]
    cases PcmAssembly.firstArrival A chunk.generation chunk.sequence <;> rfl
  rcases FrameSlot.fill_cases now hp hmask with
    ⟨hin, heq⟩ | ⟨hnew, hopen, heq⟩ | ⟨hnew, hfull, heq⟩
  · have hsame : received (A ++ [(chunk, now)]) chunk.generation chunk.sequence =
        received A chunk.generation chunk.sequence := by
      rw [received_append_self, Finset.insert_eq_of_mem hin]
    rw [heq]
    refine ⟨⟨hseq, hstart, hsome, fun q hq => ?_, fun hnone => ?_⟩, ?_, by simp⟩
    · obtain rfl : p = q := Option.some.inj (hp.symm.trans hq)
      rw [hsame]
      exact ⟨hcollects.duplicate hin, hmask, hfilling, htime⟩
    · exact absurd (hp.symm.trans hnone) (by simp)
    · simp [hin]
  · rw [heq]
    refine ⟨⟨hseq, hstart, hsome, fun q hq => ?_, by simp⟩, ?_, by simp⟩
    · obtain rfl : writeChunk p chunk = q := Option.some.inj hq
      exact ⟨hcollects.write _ hnew, rfl, hopen, htime⟩
    · simp [Completed, hopen]
  · rw [heq]
    refine ⟨⟨hseq, hstart, hsome, by simp, fun _ => Or.inl hfull⟩, ?_, fun q hq => ?_⟩
    · simp [Completed, hnew, hfull]
    · obtain rfl : { writeChunk p chunk with arrivalTime := now } = q := Option.some.inj hq
      have hw := hcollects.write now hnew
      exact ⟨⟨hw.seqNum, hw.isUncompressed, hw.isSilence, hw.length_payload, hw.first⟩, rfl⟩

/-- Two numbers of one window share a slot only when they are equal. -/
theorem index_inj {s s' : UInt64} (hle : s.toNat ≤ newest.toNat)
    (hlt : newest.toNat < s.toNat + slotCount) (hle' : s'.toNat ≤ newest.toNat)
    (hlt' : newest.toNat < s'.toNat + slotCount) (h : index s = index s') : s = s' := by
  apply UInt64.toNat_inj.mp
  have hpos : 0 < slotCount := by decide
  exact Ring.slot_inj (newest.toNat + 1 - slotCount) (by omega) (by omega) (by omega)
    (by omega) h

/-- Collecting a chunk inside the window keeps the history represented and gives the
packet away exactly when the chunk is the fourth distinct one in time. -/
theorem Frames.collect {a : PcmAssembly} (h : Frames A T chunk.generation newest a.slots)
    (hle : chunk.sequence.toNat ≤ newest.toNat)
    (hlt : newest.toNat < chunk.sequence.toNat + slotCount) (hnow : now ∈ T)
    (hT : ∀ τ ∈ T, τ ≤ now) :
    Frames (A ++ [(chunk, now)]) T chunk.generation newest (a.collect chunk now).1.slots ∧
      ((a.collect chunk now).2.isSome ↔ ¬Expired A chunk now ∧
        chunk.index ∉ received A chunk.generation chunk.sequence ∧
        Completed (A ++ [(chunk, now)]) chunk) ∧
      ∀ p, (a.collect chunk now).2 = some p →
        Collects (A ++ [(chunk, now)]) chunk.generation chunk.sequence p ∧ p.arrivalTime = now := by
  -- the slot that is filled, and what filling it does
  obtain ⟨slot, hslot, hfill⟩ : ∃ slot : FrameSlot,
      (a.collect chunk now).1.slots = Function.update a.slots (index chunk.sequence)
        (slot.fill chunk now).1 ∧
      (a.collect chunk now).2 = (slot.fill chunk now).2 ∧
      Assembles (A ++ [(chunk, now)]) T chunk.generation chunk.sequence (slot.fill chunk now).1 ∧
      ((slot.fill chunk now).2.isSome ↔ ¬Expired A chunk now ∧
        chunk.index ∉ received A chunk.generation chunk.sequence ∧
          Completed (A ++ [(chunk, now)]) chunk) ∧
      ∀ p, (slot.fill chunk now).2 = some p →
        Collects (A ++ [(chunk, now)]) chunk.generation chunk.sequence p ∧
          p.arrivalTime = now := by
    rcases h.frames chunk.sequence hle hlt with ⟨hnone, hne⟩ | hassembles
    · refine ⟨FrameSlot.opened chunk now, by simp [PcmAssembly.collect, hne],
        by simp [PcmAssembly.collect, hne], ?_⟩
      have hfirst : firstArrival A chunk.generation chunk.sequence = none :=
        firstArrival_eq_none.mpr hnone
      have hempty := received_of_copies_nil hnone
      have hnow' : firstArrival (A ++ [(chunk, now)]) chunk.generation chunk.sequence =
          some now := by
        rw [firstArrival_append_self, hfirst]
        rfl
      obtain ⟨h1, h2, h3⟩ := Assembles.fill A T
        (FrameSlot.opened chunk now) now rfl hnow'.symm rfl (Collects.blank hnone)
        (by rw [hempty]; rfl) (by rw [hempty]; decide) (fun t ht τ hτ => by
          obtain rfl := Option.some.inj (hnow'.symm.trans ht)
          rw [Nat.sub_eq_zero_of_le (hT τ hτ)]
          decide)
      refine ⟨h1, ?_, h3⟩
      have hlive : ¬Expired A chunk now := by
        rintro ⟨t, ht, _⟩
        simp [hfirst] at ht
      simp [h2, hlive]
    · refine ⟨a.slots (index chunk.sequence), by simp [PcmAssembly.collect, hassembles.sequence],
        by simp [PcmAssembly.collect, hassembles.sequence], ?_⟩
      obtain ⟨t, ht⟩ := Option.isSome_iff_exists.mp hassembles.isSome
      have ht' : firstArrival (A ++ [(chunk, now)]) chunk.generation chunk.sequence = some t := by
        rw [firstArrival_append_self, ht]
        rfl
      cases hp : (a.slots (index chunk.sequence)).packet with
      | none =>
        have heq : (a.slots (index chunk.sequence)).fill chunk now =
            (a.slots (index chunk.sequence), none) := by
          simp only [FrameSlot.fill, hp]
        rw [heq]
        have hgone := hassembles.gone hp
        refine ⟨⟨hassembles.sequence, ?_, by simp [ht'], by simp [hp], fun _ => ?_⟩, ?_, by simp⟩
        · rw [ht', ← ht]
          exact hassembles.start
        · refine hgone.imp (fun hfull => ?_) ?_
          · rw [received_append_self, hfull]
            exact Finset.insert_eq_of_mem (Finset.mem_univ _)
          · rintro ⟨t', h', τ, hτ, hlate⟩
            exact ⟨t, ht', τ, hτ, by rwa [Option.some.inj (ht.symm.trans h')]⟩
        · refine ⟨by simp, ?_⟩
          rintro ⟨hlive, hnew, _⟩
          rcases hgone with hfull | ⟨t', h', τ, hτ, hlate⟩
          · exact absurd (hfull ▸ Finset.mem_univ _) hnew
          · exact absurd ⟨t', h', hlate.trans (Nat.sub_le_sub_right (hT τ hτ) t')⟩ hlive
      | some p =>
        obtain ⟨hcollects, hmask, hfilling, htime⟩ := hassembles.packet p hp
        obtain ⟨h1, h2, h3⟩ := Assembles.fill _ T _ now hassembles.sequence
          (by rw [ht', ← ht]; exact hassembles.start) hp hcollects hmask hfilling
          (fun t' h' => by
            obtain rfl := Option.some.inj (ht'.symm.trans h')
            exact htime t ht)
        refine ⟨h1, ?_, h3⟩
        have hlive : ¬Expired A chunk now := by
          rintro ⟨t', h', hlate⟩
          exact absurd hlate (Nat.not_le.mpr (htime t' h' now hnow))
        simp [h2, hlive]
  obtain ⟨hout, hassembles, hiff, hpacket⟩ := hfill
  refine ⟨?_, by rw [hout]; exact hiff, by rw [hout]; exact hpacket⟩
  rw [hslot]
  refine ⟨fun x hx => ?_, fun x hx hx' => ?_, fun i s hs => ?_, fun s hle' hlt' => ?_⟩
  · rcases List.mem_append.mp hx with hx | hx
    · exact h.generations x hx
    · obtain rfl := List.mem_singleton.mp hx
      exact UInt64.le_refl _
  · rcases List.mem_append.mp hx with hx | hx
    · exact h.sequences x hx hx'
    · obtain rfl := List.mem_singleton.mp hx
      exact hle
  · by_cases hi : i = index chunk.sequence
    · subst hi
      rw [Function.update_self, hassembles.sequence] at hs
      obtain rfl := Option.some.inj hs
      exact hle
    · rw [Function.update_of_ne hi] at hs
      exact h.stored i s hs
  · by_cases hs : s = chunk.sequence
    · subst hs
      rw [Function.update_self]
      exact Or.inr hassembles
    · have hi : index s ≠ index chunk.sequence := fun heq =>
        hs (index_inj hle' hlt' hle hlt heq)
      have hne : ¬(chunk.generation = chunk.generation ∧ chunk.sequence = s) :=
        fun heq => hs heq.2.symm
      rw [Function.update_of_ne hi, copies_append_of_ne _ hne]
      exact (h.frames s hle' hlt').imp_right fun hf => hf.append_of_ne hne

/-- A frame inside the window that has expired or is complete gets nothing from a chunk. -/
theorem Frames.collect_gone {a : PcmAssembly} (h : Frames A T chunk.generation newest a.slots)
    (hle : chunk.sequence.toNat ≤ newest.toNat)
    (hlt : newest.toNat < chunk.sequence.toNat + slotCount) (hnow : now ∈ T)
    (hgone : Expired A chunk now ∨ Completed A chunk) : a.collect chunk now = (a, none) := by
  rcases h.frames chunk.sequence hle hlt with ⟨hnone, _⟩ | hassembles
  · rcases hgone with ⟨t, ht, _⟩ | hfull
    · rw [firstArrival_eq_none.mpr hnone] at ht
      exact absurd ht (by simp)
    · rw [Completed, received_of_copies_nil hnone] at hfull
      exact absurd hfull (by decide)
  · have hpacket : (a.slots (index chunk.sequence)).packet = none := by
      cases hp : (a.slots (index chunk.sequence)).packet with
      | none => rfl
      | some p =>
        obtain ⟨_, _, hfilling, htime⟩ := hassembles.packet p hp
        rcases hgone with ⟨t, ht, hlate⟩ | hfull
        · exact absurd hlate (Nat.not_le.mpr (htime t ht now hnow))
        · exact absurd hfull hfilling
    have hfill : (a.slots (index chunk.sequence)).fill chunk now =
        (a.slots (index chunk.sequence), none) := by
      simp only [FrameSlot.fill, hpacket]
    simp [PcmAssembly.collect, hassembles.sequence, hfill]

/-- A chunk that is not of an older generation opens or keeps its generation, and
raises the newest number to at least its own. -/
theorem Represents.enter {a : PcmAssembly} (now : Instant) (h : Represents A T a)
    (hgen : ∀ g, a.generation = some g → g ≤ chunk.generation) :
    (a.enterGeneration chunk).generation = some chunk.generation ∧
      Frames A T chunk.generation (max (a.enterGeneration chunk).newestSequence chunk.sequence)
        (a.enterGeneration chunk).slots ∧
      (∃ x ∈ A ++ [(chunk, now)], x.1.generation = chunk.generation ∧
        x.1.sequence = max (a.enterGeneration chunk).newestSequence chunk.sequence) ∧
      ((∃ y ∈ A, y.1.generation = chunk.generation ∧
          chunk.sequence.toNat ≤ y.1.sequence.toNat) →
        { a.enterGeneration chunk with
          newestSequence := max (a.enterGeneration chunk).newestSequence chunk.sequence } = a) := by
  by_cases hsame : a.generation = some chunk.generation
  · have henter : a.enterGeneration chunk = a := by simp [enterGeneration, hsame]
    obtain ⟨hframes, x, hx, hxg, hxs⟩ := h.current _ hsame
    rw [henter]
    have hmax : (max a.newestSequence chunk.sequence).toNat =
        max a.newestSequence.toNat chunk.sequence.toNat := toNat_max _ _
    refine ⟨hsame, ⟨hframes.generations, fun y hy hy' => ?_, fun i s hs => ?_, fun s hs hs' => ?_⟩,
      ?_, fun hknown => ?_⟩
    · rw [hmax]
      exact (hframes.sequences y hy hy').trans (le_max_left _ _)
    · rw [hmax]
      exact (hframes.stored i s hs).trans (le_max_left _ _)
    · by_cases hold : s.toNat ≤ a.newestSequence.toNat
      · exact hframes.frames s hold (by omega)
      · left
        constructor
        · rw [copies, List.filter_eq_nil_iff]
          rintro y hy hys
          obtain ⟨hyg, rfl⟩ := of_decide_eq_true hys
          exact hold (hframes.sequences y hy hyg)
        · exact fun hstored => hold (hframes.stored _ _ hstored)
    · rcases le_total chunk.sequence.toNat a.newestSequence.toNat with hle | hle
      · refine ⟨x, List.mem_append_left _ hx, hxg, hxs.trans (UInt64.toNat_inj.mp ?_)⟩
        rw [hmax, max_eq_left hle]
      · refine ⟨(chunk, now), by simp, rfl, UInt64.toNat_inj.mp ?_⟩
        rw [hmax, max_eq_right hle]
    · obtain ⟨y, hy, hyg, hys⟩ := hknown
      have hle := hys.trans (hframes.sequences y hy hyg)
      have heq : max a.newestSequence chunk.sequence = a.newestSequence := by
        apply UInt64.toNat_inj.mp
        rw [hmax, max_eq_left hle]
      rw [heq]
  · have henter : a.enterGeneration chunk =
        { a with
          slots := fun _ => FrameSlot.default
          generation := some chunk.generation
          newestSequence := chunk.sequence } := by
      simp [enterGeneration, hsame]
    have hold : ∀ x ∈ A, x.1.generation < chunk.generation := by
      intro x hx
      cases hg : a.generation with
      | none => simp [h.virgin hg] at hx
      | some g =>
        have hle := (h.current g hg).1.generations x hx
        have hlt : g < chunk.generation := by
          apply UInt64.lt_of_le_of_ne (hgen g hg)
          rintro rfl
          exact hsame hg
        exact UInt64.lt_of_le_of_lt hle hlt
    have hmax : max chunk.sequence chunk.sequence = chunk.sequence := by
      apply UInt64.toNat_inj.mp
      rw [toNat_max, max_self]
    have hcopies : ∀ s, copies A chunk.generation s = [] := by
      intro s
      rw [copies, List.filter_eq_nil_iff]
      rintro y hy hys
      exact UInt64.ne_of_lt (hold y hy) (of_decide_eq_true hys).1
    rw [henter]
    simp only [hmax]
    refine ⟨trivial, ⟨fun x hx => UInt64.le_of_lt (hold x hx), fun x hx hxg => ?_, ?_,
      fun s _ _ => ?_⟩,
      ⟨(chunk, now), by simp, rfl, rfl⟩, fun ⟨y, hy, hyg, _⟩ =>
        absurd hyg (UInt64.ne_of_lt (hold y hy))⟩
    · exact absurd hxg (UInt64.ne_of_lt (hold x hx))
    · simp [FrameSlot.default]
    · exact Or.inl ⟨hcopies s, by simp [FrameSlot.default]⟩

/-- A superseded chunk completes nothing. -/
theorem not_completesFrame_of_superseded (h : Superseded A chunk) : ¬CompletesFrame A chunk now :=
  fun hc => hc.1 h

/-- What a push answers and leaves, read off the arrivals before it. -/
theorem Represents.push {a : PcmAssembly} (chunk : PcmChunk) (h : Represents A T a)
    (hT : ∀ τ ∈ T, τ ≤ now) :
    Represents (A ++ [(chunk, now)]) (T ++ [now]) (a.push chunk now).1 ∧
      ((a.push chunk now).2.isSome ↔ CompletesFrame A chunk now) ∧
      (∀ p, (a.push chunk now).2 = some p →
        Collects (A ++ [(chunk, now)]) chunk.generation chunk.sequence p ∧ p.arrivalTime = now) ∧
      (Superseded A chunk ∨ Expired A chunk now ∨ Completed A chunk →
        a.push chunk now = (a.expire now, none)) := by
  have hexpired : Represents A (T ++ [now]) (a.expire now) := h.expire
  have hnow : now ∈ T ++ [now] := by simp
  have hT' : ∀ τ ∈ T ++ [now], τ ≤ now := by
    intro τ hτ
    rcases List.mem_append.mp hτ with hold | hlast
    · exact hT τ hold
    · exact (List.mem_singleton.mp hlast).le
  unfold PcmAssembly.push
  generalize a.expire now = b at hexpired
  by_cases hold : ∃ g, b.generation = some g ∧ chunk.generation < g
  · -- an older generation: only time has passed
    obtain ⟨g, hg, hlt⟩ := hold
    obtain ⟨hframes, x, hx, hxg, hxs⟩ := hexpired.current g hg
    have hsuper : Superseded A chunk := Or.inl ⟨x, hx, hxg ▸ hlt⟩
    simp only [hg, Option.any_some, hlt, decide_true, if_true]
    refine ⟨⟨fun hnone => absurd (hnone.symm.trans hg) (by simp), fun g' hg' => ?_⟩,
      ?_, by simp, fun _ => trivial⟩
    · obtain rfl : g = g' := Option.some.inj (hg.symm.trans hg')
      refine ⟨hframes.superseded (UInt64.le_of_lt hlt) fun heq => ?_,
        x, List.mem_append_left _ hx, hxg, hxs⟩
      exact absurd heq (UInt64.ne_of_lt hlt)
    · simp [not_completesFrame_of_superseded hsuper]
  · have hgen : ∀ g, b.generation = some g → g ≤ chunk.generation := fun g hg =>
      UInt64.not_lt.mp fun hlt => hold ⟨g, hg, hlt⟩
    have hany : (b.generation.any fun generation => chunk.generation < generation) = false := by
      cases hg : b.generation with
      | none => rfl
      | some g => exact decide_eq_false (UInt64.not_lt.mpr (hgen g hg))
    obtain ⟨hgeneration, hframes, ⟨x, hx, hxg, hxs⟩, hsame⟩ := hexpired.enter now hgen
    simp only [hany, Bool.false_eq_true, if_false]
    generalize hnewest : max (b.enterGeneration chunk).newestSequence chunk.sequence = newest
      at hframes hxs hsame
    have hle : chunk.sequence.toNat ≤ newest.toNat := by
      rw [← hnewest, toNat_max]
      exact le_max_right _ _
    have hwindow : UInt64.ofNat slotCount ≤ saturatingSub newest chunk.sequence ↔
        chunk.sequence.toNat + slotCount ≤ newest.toNat := by
      rw [UInt64.le_iff_toNat_le, toNat_saturatingSub]
      change slotCount ≤ _ ↔ _
      have : 0 < slotCount := by decide
      omega
    have hsuper : Superseded A chunk ↔ chunk.sequence.toNat + slotCount ≤ newest.toNat := by
      constructor
      · rintro (⟨y, hy, hlt⟩ | ⟨y, hy, hyg, hfar⟩)
        · exact absurd (hframes.generations y hy) (UInt64.not_le.mpr hlt)
        · exact hfar.trans (hframes.sequences y hy hyg)
      · intro hfar
        rcases List.mem_append.mp hx with hx | hx
        · exact Or.inr ⟨x, hx, hxg, by rw [hxs]; exact hfar⟩
        · obtain rfl := List.mem_singleton.mp hx
          have hpos : 0 < slotCount := by decide
          simp only at hxs
          rw [hxs] at hfar
          omega
    by_cases hfar : chunk.sequence.toNat + slotCount ≤ newest.toNat
    · -- behind the window: the newest number and the generation stay
      rw [if_pos (hwindow.mpr hfar)]
      refine ⟨⟨fun hnone => ?_, fun g hg => ?_⟩, ?_, by simp, fun _ => ?_⟩
      · exact absurd (hnone.symm.trans hgeneration) (by simp)
      · obtain rfl : chunk.generation = g := Option.some.inj (hgeneration.symm.trans hg)
        exact ⟨hframes.superseded (UInt64.le_refl _) fun _ => hfar, x, hx, hxg, hxs⟩
      · simp [not_completesFrame_of_superseded (hsuper.mpr hfar)]
      · rcases hsuper.mpr hfar with ⟨y, hy, hlt⟩ | ⟨y, hy, hyg, hys⟩
        · exact absurd (hframes.generations y hy) (UInt64.not_le.mpr hlt)
        · rw [hsame ⟨y, hy, hyg, (Nat.le_add_right _ _).trans hys⟩]
    · rw [if_neg fun hle => hfar (hwindow.mp hle)]
      have hlt : newest.toNat < chunk.sequence.toNat + slotCount := Nat.not_le.mp hfar
      obtain ⟨hframes', hiff, hpacket⟩ := hframes.collect
        (a := { b.enterGeneration chunk with newestSequence := newest }) hle hlt hnow hT'
      refine ⟨⟨fun hnone => ?_, fun g hg => ?_⟩, ?_, hpacket, fun hgone => ?_⟩
      · exact absurd (hnone.symm.trans hgeneration) (by simp)
      · obtain rfl : chunk.generation = g := Option.some.inj (hgeneration.symm.trans hg)
        exact ⟨hframes', x, hx, hxg, hxs⟩
      · rw [hiff, CompletesFrame, hsuper]
        simp [hfar]
      · rcases hgone with hs | hgone
        · exact absurd (hsuper.mp hs) hfar
        · have hcopies : copies A chunk.generation chunk.sequence ≠ [] := by
            intro hnil
            rcases hgone with ⟨t, ht, _⟩ | hfull
            · rw [firstArrival_eq_none.mpr hnil] at ht
              exact absurd ht (by simp)
            · rw [Completed, received_of_copies_nil hnil] at hfull
              exact absurd hfull (by decide)
          have hcollect := hframes.collect_gone
            (a := { b.enterGeneration chunk with newestSequence := newest }) hle hlt hnow hgone
          obtain ⟨y, hy⟩ := List.exists_mem_of_ne_nil _ hcopies
          obtain ⟨hyA, hyg, hys⟩ := mem_of_mem_copies hy
          rw [hcollect, hsame ⟨y, hyA, hyg, by rw [hys]⟩]

end Steps

/-- The calls are made at non-decreasing instants. -/
def Chronological (calls : List Call) : Prop := calls.Pairwise fun c d => c.now ≤ d.now

instance (calls : List Call) : Decidable (Chronological calls) :=
  inferInstanceAs (Decidable (List.Pairwise _ _))

/-- Reassembly as a property of the calls on an empty table: each push against the
arrivals before it. -/
structure Reassembles (calls : List Call) : Prop where
  /-- A push yields a packet exactly for the fourth distinct chunk of a live frame. -/
  yields_iff : ∀ pre chunk now post, calls = pre ++ .push chunk now :: post →
    (((machine.run pre).push chunk now).2.isSome ↔ CompletesFrame (arrivals pre) chunk now)
  /-- The packet carries the frame's number and the first copy of each quarter. -/
  first_copies : ∀ pre chunk now post p, calls = pre ++ .push chunk now :: post →
    ((machine.run pre).push chunk now).2 = some p →
    p.seqNum = chunk.sequence ∧ p.isUncompressed = true ∧ p.isSilence = false ∧
      p.arrivalTime = now ∧ p.payload.length = pcmChunks * pcmPayload ∧
      ∀ i, firstCopy (arrivals pre ++ [(chunk, now)]) chunk.generation chunk.sequence i =
        some (block pcmPayload p.payload i)
  /-- No frame is yielded a second time. -/
  at_most_once : ∀ pre chunk now mid chunk' now' post,
    calls = pre ++ .push chunk now :: (mid ++ .push chunk' now' :: post) →
    chunk'.generation = chunk.generation → chunk'.sequence = chunk.sequence →
    ((machine.run pre).push chunk now).2.isSome →
    ((machine.run (pre ++ .push chunk now :: mid)).push chunk' now').2 = none
  /-- A chunk of an older generation, behind the window, or of a frame that expired or is
  complete only lets time pass. -/
  no_trace : ∀ pre chunk now post, calls = pre ++ .push chunk now :: post →
    Superseded (arrivals pre) chunk ∨ Expired (arrivals pre) chunk now ∨
      Completed (arrivals pre) chunk →
    (machine.run pre).push chunk now = ((machine.run pre).expire now, none)

/-- The table stands for the arrivals of its calls after any chronological run. -/
theorem represents_of_run {calls : List Call} (h : Chronological calls) :
    Represents (arrivals calls) (calls.map Call.now) (machine.run calls) := by
  induction calls using List.reverseRecOn with
  | nil => exact Represents.new
  | append_singleton calls call ih =>
    obtain ⟨hcalls, _, hlast⟩ := List.pairwise_append.mp h
    have hrep := ih hcalls
    have hT : ∀ τ ∈ calls.map Call.now, τ ≤ call.now := by
      intro τ hτ
      obtain ⟨c, hc, rfl⟩ := List.mem_map.mp hτ
      exact hlast c hc call (by simp)
    have hrun : machine.run (calls ++ [call]) = (machine.step (machine.run calls) call).1 := by
      rw [Machine.run, Machine.runFrom_append]
      rfl
    rw [hrun, List.map_append, arrivals, List.filterMap_append]
    cases call with
    | push chunk now => exact (hrep.push _ hT).1
    | expire now =>
      simp only [List.filterMap_cons, List.filterMap_nil, List.append_nil]
      exact hrep.expire

/-- What has been received stays received. -/
theorem received_mono {A B : List Arrival} {g s : UInt64} :
    received A g s ⊆ received (A ++ B) g s := by
  intro i
  simp only [received, copies, List.filter_append, List.map_append, List.mem_toFinset,
    List.mem_append]
  exact Or.inl

/-- A frame of which all quarters have arrived was completed by one of its arrivals. -/
theorem exists_completing_arrival {A : List Arrival} {g s : UInt64}
    (h : received A g s = Finset.univ) :
    ∃ pre x post, A = pre ++ x :: post ∧ x.1.generation = g ∧ x.1.sequence = s ∧
      x.1.index ∉ received pre g s ∧ received (pre ++ [x]) g s = Finset.univ := by
  induction A using List.reverseRecOn with
  | nil =>
    have hempty : received [] g s = ∅ := rfl
    rw [hempty] at h
    exact absurd h (by decide)
  | append_singleton A x ih =>
    by_cases hfull : received A g s = Finset.univ
    · obtain ⟨pre, y, post, rfl, hg, hs, hnew, hlast⟩ := ih hfull
      exact ⟨pre, y, post ++ [x], by simp, hg, hs, hnew, hlast⟩
    · by_cases hown : x.1.generation = g ∧ x.1.sequence = s
      · obtain ⟨rfl, rfl⟩ := hown
        refine ⟨A, x, [], rfl, rfl, rfl, fun hin => hfull ?_, h⟩
        rw [← h, ← Prod.mk.eta (p := x), received_append_self, Finset.insert_eq_of_mem hin]
      · rw [← Prod.mk.eta (p := x), received, copies_append_of_ne _ hown, ← received] at h
        exact absurd h hfull

/-- Every chronological run of the table reassembles. -/
theorem reassembles_of_chronological {calls : List Call} (h : Chronological calls) :
    Reassembles calls := by
  have hpush : ∀ {pre chunk now post}, calls = pre ++ .push chunk now :: post →
      Represents (arrivals pre) (pre.map Call.now) (machine.run pre) ∧
        ∀ τ ∈ pre.map Call.now, τ ≤ now := by
    rintro pre chunk now post rfl
    obtain ⟨hpre, _, hnow⟩ := List.pairwise_append.mp h
    refine ⟨represents_of_run hpre, fun τ hτ => ?_⟩
    obtain ⟨c, hc, rfl⟩ := List.mem_map.mp hτ
    exact hnow c hc (.push chunk now) (by simp)
  refine ⟨fun pre chunk now post hsplit => ?_, fun pre chunk now post p hsplit hp => ?_,
    fun pre chunk now mid chunk' now' post hsplit hg hs hyield => ?_,
    fun pre chunk now post hsplit hgone => ?_⟩
  · obtain ⟨hrep, hT⟩ := hpush hsplit
    exact (hrep.push _ hT).2.1
  · obtain ⟨hrep, hT⟩ := hpush hsplit
    obtain ⟨_, hiff, hpacket, _⟩ := hrep.push chunk hT
    obtain ⟨hcollects, harrival⟩ := hpacket p hp
    have hcomplete : CompletesFrame (arrivals pre) chunk now := hiff.mp (by rw [hp]; rfl)
    refine ⟨hcollects.seqNum, hcollects.isUncompressed, hcollects.isSilence, harrival,
      hcollects.length_payload, fun i => ?_⟩
    have hi : i ∈ received (arrivals pre ++ [(chunk, now)]) chunk.generation chunk.sequence := by
      rw [hcomplete.2.2.2]
      exact Finset.mem_univ i
    obtain ⟨bytes, hbytes⟩ := Option.isSome_iff_exists.mp (mem_received.mp hi)
    rw [hbytes, hcollects.first i bytes hbytes]
  · obtain ⟨hrep, hT⟩ := hpush hsplit
    have hcomplete := (hrep.push chunk hT).2.1.mp hyield
    have hsplit' : calls = (pre ++ .push chunk now :: mid) ++ .push chunk' now' :: post := by
      rw [hsplit]
      simp
    obtain ⟨hrep', hT'⟩ := hpush hsplit'
    have hdone : Completed (arrivals (pre ++ .push chunk now :: mid)) chunk' := by
      have harrivals : arrivals (pre ++ .push chunk now :: mid) =
          (arrivals pre ++ [(chunk, now)]) ++ arrivals mid := by
        simp [arrivals]
      rw [Completed, harrivals, hg, hs]
      apply Finset.eq_univ_of_forall
      intro i
      exact received_mono (by rw [hcomplete.2.2.2]; exact Finset.mem_univ i)
    rw [(hrep'.push _ hT').2.2.2 (Or.inr (Or.inr hdone))]
  · obtain ⟨hrep, hT⟩ := hpush hsplit
    exact (hrep.push _ hT).2.2.2 hgone

/-- For every chronological sequence of pushes and expiries, a push yields a packet
exactly for the fourth distinct chunk of a live frame of the newest generation, with the
first copies of its quarters, at most once for each frame; chunks that are superseded or
late leave no trace. -/
theorem reassembly_of_run (calls : List Call) (h : Chronological calls) : Reassembles calls :=
  reassembles_of_chronological h

/-- A chunk of equal bytes. -/
def flatChunk (sequence generation : UInt64) (index : Fin pcmChunks) (byte : UInt8) : PcmChunk :=
  ⟨sequence, generation, index, List.replicate pcmPayload byte, List.length_replicate⟩

/-- A frame whose chunks arrive out of order, with a duplicate and an expiry in between. -/
def reorderedCalls : List Call :=
  [.push (flatChunk 12 1 3 7) 0, .push (flatChunk 12 1 0 5) 1, .push (flatChunk 12 1 3 9) 2,
    .expire 3, .push (flatChunk 12 1 2 6) 4, .push (flatChunk 12 1 1 8) 5]

theorem reassembly_of_run_reorderedCalls :
    ((machine.run (reorderedCalls.take 5)).push (flatChunk 12 1 1 8) 5).2.isSome ↔
      CompletesFrame (arrivals (reorderedCalls.take 5)) (flatChunk 12 1 1 8) 5 :=
  (reassembly_of_run reorderedCalls (by decide)).yields_iff _ _ _ [] rfl

example : (machine.events reorderedCalls).map (fun e => e.output.isSome) =
    [false, false, false, false, false, true] := by
  decide

end PcmAssembly

end Gemacast.Player
