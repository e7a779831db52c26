import Mathlib.Order.Bounds.Basic
import Gemacast.Jitter.Playout

/-!
# Stored numbers under the moves of the manager

The manager inserts, pops, advances, asks for the lowest stored number and skips
to it. `Sound` is what holds of the buffer in every state of the pipeline: the
window invariant, numbers that leave room for the capacity in a `u64`, and a
cached minimum that is the number of some stored packet. The other lemmas say
what each move does to the set of stored numbers.
-/

namespace Gemacast.Jitter

open Gemacast.Core

namespace JitterBuffer

variable {b : JitterBuffer} {Q : RawPacket → Prop}

/-- The number of stored numbers is the maintained count. -/
theorem WellFormed.occupiedCount_eq (h : b.WellFormed) : b.occupiedCount = b.stored.card := by
  have hcard : b.stored.card = b.occupied := by
    rw [h.count]
    exact h.window.card_keys
  cases hi : b.initialized with
  | true => simp only [occupiedCount, hi, if_true, hcard]
  | false =>
    have hempty : b.occupied = 0 := by rw [h.count, h.virgin hi, Ring.occupancy_empty]
    simp only [occupiedCount, hi, hcard, hempty, Bool.false_eq_true, if_false]

theorem WellFormed.mem_stored_iff (h : b.WellFormed) {k : ℕ} :
    k ∈ b.stored ↔ (b.packetAt k).isSome :=
  h.window.mem_keys_iff

/-- Stored numbers lie in the window. -/
theorem WellFormed.mem_window (h : b.WellFormed) {k : ℕ} (hk : k ∈ b.stored) :
    b.playhead ≤ k ∧ k < b.playhead + bufferCapacity :=
  h.window.mem_window hk

theorem WellFormed.stored_of_virgin (h : b.WellFormed) (hi : b.initialized = false) :
    b.stored = ∅ := by
  ext k
  simp [mem_stored, h.virgin hi]

/-- Nothing is stored exactly when every slot is empty. -/
theorem stored_eq_empty : b.stored = ∅ ↔ b.slots = fun _ => none := by
  constructor
  · intro h
    funext i
    rw [Option.eq_none_iff_forall_ne_some]
    intro p hp
    have : p.seq ∈ b.stored := mem_stored.mpr ⟨i, p, hp, rfl⟩
    rw [h] at this
    exact absurd this (Finset.notMem_empty _)
  · intro h
    ext k
    simp [mem_stored, h]

/-- The next expected packet is present exactly when its number is stored. -/
theorem WellFormed.hasNext_iff (h : b.WellFormed) : b.hasNext = true ↔ b.playhead ∈ b.stored := by
  cases hi : b.initialized with
  | false => simp [hasNext, hi, h.stored_of_virgin hi]
  | true =>
    rw [h.mem_stored_iff, h.packetAt_playhead]
    cases hs : b.slots (index b.nextPlaySeq) with
    | none => simp [hasNext, hi, hs]
    | some p => simp [hasNext, hi, hs, h.slot_playhead hs]

/-- The map of a buffer cut at `lo` stores the numbers from `lo` on. -/
theorem stored_of_dropBelow {b' : JitterBuffer} {lo : ℕ}
    (h : b'.slots = Ring.dropBelow RawPacket.seq lo b.slots) :
    b'.stored = b.stored.filter (lo ≤ ·) := by
  unfold stored
  rw [h, Ring.keys_dropBelow]

/-- A pop forgets the number of the playhead. -/
theorem WellFormed.popNext_stored (h : b.WellFormed) :
    b.popNext.1.stored = b.stored.filter (b.playhead + 1 ≤ ·) := by
  cases hi : b.initialized with
  | false => rw [popNext_virgin hi, h.stored_of_virgin hi, Finset.filter_empty]
  | true =>
    rw [h.popNext_eq hi]
    exact stored_of_dropBelow h.advance_slots

/-- An advance forgets the number of the playhead. -/
theorem WellFormed.advanceOne_stored (h : b.WellFormed) :
    b.advanceOne.stored = b.stored.filter (b.playhead + 1 ≤ ·) := by
  rw [h.advanceOne_eq]
  exact stored_of_dropBelow h.advance_slots

/-- A fast-forward forgets the numbers below the new playhead. -/
theorem WellFormed.fastForward_stored (h : b.WellFormed) {newSeq : UInt64}
    (hle : b.playhead ≤ newSeq.toNat)
    (hfit : (newSeq.toNat < b.playhead + bufferCapacity → b.playhead + bufferCapacity < 2 ^ 64) ∨
      b.slots = fun _ => none) :
    (b.fastForward newSeq).stored = b.stored.filter (newSeq.toNat ≤ ·) :=
  stored_of_dropBelow (h.skipTo_slots hle hfit)

/-- Cutting just above the playhead erases its number. -/
theorem WellFormed.filter_succ (h : b.WellFormed) :
    b.stored.filter (b.playhead + 1 ≤ ·) = b.stored.erase b.playhead := by
  ext k
  simp only [Finset.mem_filter, Finset.mem_erase]
  constructor
  · rintro ⟨hk, hlt⟩
    exact ⟨by omega, hk⟩
  · rintro ⟨hne, hk⟩
    have := (h.mem_window hk).1
    exact ⟨hk, by omega⟩

/-- When the next packet is present a pop answers it. -/
theorem WellFormed.popNext_of_hasNext (h : b.WellFormed) (hnext : b.hasNext = true) :
    ∃ p, b.popNext.2 = some p ∧ b.packetAt b.playhead = some p ∧ p.seq = b.playhead := by
  have hi : b.initialized = true := by
    unfold hasNext at hnext
    exact (Bool.and_eq_true _ _ ▸ hnext).1
  obtain ⟨p, hp⟩ := Option.isSome_iff_exists.mp (h.mem_stored_iff.mp (h.hasNext_iff.mp hnext))
  exact ⟨p, by rw [h.popNext_eq hi, hp], hp, seq_of_packetAt hp⟩

/-- Storing inside the window adds one number. -/
theorem WellFormed.store_stored (h : b.WellFormed) (hi : b.initialized = true) {p : RawPacket}
    (hlo : b.playhead ≤ p.seq) (hhi : p.seq < b.playhead + bufferCapacity) :
    (b.store p).stored = Insert.insert p.seq b.stored := by
  ext k
  rw [(h.store hi hlo hhi).mem_stored_iff, h.store_packetAt hlo hhi, Finset.mem_insert,
    h.mem_stored_iff]
  by_cases hk : k = p.seq <;> simp [hk]

theorem makeRoom_cases (b : JitterBuffer) (p : RawPacket) :
    b.makeRoom p = b ∨ (b.makeRoom p).cachedMinSeq = none := by
  unfold makeRoom
  split
  · exact Or.inr rfl
  · exact Or.inl rfl

/-- The cache an insertion finds when it stores: lost, or that of the buffer before it. -/
theorem opened_cachedMinSeq (b : JitterBuffer) (p : RawPacket) :
    (b.opened p).cachedMinSeq = none ∨
      ((b.opened p).cachedMinSeq = b.cachedMinSeq ∧ (b.opened p).stored = b.stored) := by
  unfold opened
  split
  · refine Or.inl ?_
    rcases makeRoom_cases { b.reset with nextPlaySeq := p.seqNum, initialized := true } p with
      heq | hnone
    · rw [heq]
      rfl
    · exact hnone
  · rcases (b.anchor p).makeRoom_cases p with heq | hnone
    · refine Or.inr ?_
      rw [heq]
      unfold anchor stored
      split <;> exact ⟨rfl, rfl⟩
    · exact Or.inl hnone

section Lowest

/-- The fold of the scan from a running minimum. -/
theorem foldl_lowest (pkts : List RawPacket) (lowest : Option UInt64) :
    pkts.foldl (fun lowest pkt => some ((lowest.map fun m => min m pkt.seqNum).getD pkt.seqNum))
        lowest = none ↔ pkts = [] ∧ lowest = none := by
  induction pkts generalizing lowest with
  | nil => simp
  | cons pkt pkts ih => simp [ih]

/-- The scan from a running minimum answers the least of it and the listed numbers. -/
theorem foldl_lowest_eq_some {pkts : List RawPacket} {lowest : Option UInt64} {lo : UInt64}
    (h : pkts.foldl
      (fun lowest pkt => some ((lowest.map fun m => min m pkt.seqNum).getD pkt.seqNum))
      lowest = some lo) :
    (lowest = some lo ∨ ∃ pkt ∈ pkts, pkt.seqNum = lo) ∧
      (∀ m, lowest = some m → lo ≤ m) ∧ ∀ pkt ∈ pkts, lo ≤ pkt.seqNum := by
  induction pkts generalizing lowest with
  | nil =>
    simp only [List.foldl_nil] at h
    subst h
    exact ⟨Or.inl rfl, fun m hm => Option.some.inj hm ▸ UInt64.le_refl lo, by simp⟩
  | cons pkt pkts ih =>
    obtain ⟨hmem, hstart, hrest⟩ := ih h
    have hstart' := hstart _ rfl
    cases lowest with
    | none =>
      have hle : lo ≤ pkt.seqNum := hstart'
      refine ⟨Or.inr ?_, by simp, fun q hq => ?_⟩
      · rcases hmem with hmem | ⟨q, hq, hlo⟩
        · exact ⟨pkt, by simp, Option.some.inj hmem⟩
        · exact ⟨q, by simp [hq], hlo⟩
      · rcases List.mem_cons.mp hq with rfl | hq
        · exact hle
        · exact hrest q hq
    | some m =>
      obtain ⟨hm, hp⟩ : lo ≤ m ∧ lo ≤ pkt.seqNum := le_of_le_min hstart'
      refine ⟨?_, fun m' hm' => Option.some.inj hm' ▸ hm, fun q hq => ?_⟩
      · rcases hmem with hmem | ⟨q, hq, hlo⟩
        · have heq : min m pkt.seqNum = lo := Option.some.inj hmem
          rcases min_eq_or m pkt.seqNum with hmin | hmin
          · exact Or.inl (congrArg some (hmin.symm.trans heq))
          · exact Or.inr ⟨pkt, by simp, hmin.symm.trans heq⟩
        · exact Or.inr ⟨q, by simp [hq], hlo⟩
      · rcases List.mem_cons.mp hq with rfl | hq
        · exact hp
        · exact hrest q hq

theorem mem_scan {p : RawPacket} :
    p ∈ (List.finRange bufferCapacity).filterMap b.slots ↔ ∃ i, b.slots i = some p := by
  simp [List.mem_filterMap]

/-- The scan finds nothing exactly when nothing is stored. -/
theorem scanLowest_eq_none : b.scanLowest = none ↔ b.stored = ∅ := by
  unfold scanLowest
  rw [foldl_lowest, stored_eq_empty]
  constructor
  · rintro ⟨hnil, -⟩
    funext i
    rw [Option.eq_none_iff_forall_ne_some]
    intro p hp
    have := mem_scan.mpr ⟨i, hp⟩
    rw [hnil] at this
    exact absurd this List.not_mem_nil
  · intro h
    refine ⟨?_, rfl⟩
    rw [List.eq_nil_iff_forall_not_mem]
    intro p hp
    obtain ⟨i, hi⟩ := mem_scan.mp hp
    simp [h] at hi

/-- The scan finds the least stored number. -/
theorem scanLowest_isLeast {lo : UInt64} (h : b.scanLowest = some lo) :
    IsLeast (b.stored : Set ℕ) lo.toNat := by
  unfold scanLowest at h
  obtain ⟨hmem, -, hle⟩ := foldl_lowest_eq_some h
  constructor
  · rcases hmem with hmem | ⟨p, hp, rfl⟩
    · exact absurd hmem (by simp)
    · obtain ⟨i, hi⟩ := mem_scan.mp hp
      exact mem_stored.mpr ⟨i, p, hi, rfl⟩
  · intro k hk
    obtain ⟨i, p, hp, rfl⟩ := mem_stored.mp hk
    exact UInt64.le_iff_toNat_le.mp (hle p (mem_scan.mpr ⟨i, hp⟩))

@[simp] theorem lowestAvailableSeq_slots : b.lowestAvailableSeq.1.slots = b.slots := by
  unfold lowestAvailableSeq; split <;> rfl

@[simp] theorem lowestAvailableSeq_nextPlaySeq :
    b.lowestAvailableSeq.1.nextPlaySeq = b.nextPlaySeq := by
  unfold lowestAvailableSeq; split <;> rfl

@[simp] theorem lowestAvailableSeq_stored : b.lowestAvailableSeq.1.stored = b.stored := by
  unfold stored; rw [lowestAvailableSeq_slots]

@[simp] theorem lowestAvailableSeq_playhead :
    b.lowestAvailableSeq.1.playhead = b.playhead := by
  unfold playhead; rw [lowestAvailableSeq_nextPlaySeq]

/-- Asking for the lowest number leaves the answer in the cache. -/
theorem lowestAvailableSeq_cachedMinSeq :
    b.lowestAvailableSeq.1.cachedMinSeq = b.lowestAvailableSeq.2 := by
  unfold lowestAvailableSeq; split <;> simp [*]

theorem WellFormed.lowestAvailableSeq (h : b.WellFormed) :
    b.lowestAvailableSeq.1.WellFormed := by
  unfold JitterBuffer.lowestAvailableSeq
  split
  · exact h
  · exact ⟨h.window, h.count, h.virgin⟩

end Lowest

/-- What holds of the buffer in every state of the pipeline fed with packets that
satisfy `Q`. -/
structure Sound (Q : RawPacket → Prop) (b : JitterBuffer) : Prop where
  /-- The window invariant. -/
  wellFormed : b.WellFormed
  /-- Stored numbers leave room for the capacity. -/
  roomy : b.Roomy
  /-- The cached minimum is the number of a stored packet. -/
  cached : ∀ lo, b.cachedMinSeq = some lo → lo.toNat ∈ b.stored
  /-- Every stored packet satisfies `Q`. -/
  all : ∀ i p, b.slots i = some p → Q p

namespace Sound

theorem new : JitterBuffer.new.Sound Q :=
  ⟨WellFormed.new, fun _ _ h => absurd h (by simp [JitterBuffer.new]),
    fun _ h => absurd h (by simp [JitterBuffer.new]),
    fun _ _ h => absurd h (by simp [JitterBuffer.new])⟩

/-- Beside a stored packet the capacity can be added to the playhead. -/
theorem playhead_fits (h : b.Sound Q) (hne : b.stored.Nonempty) :
    b.playhead + bufferCapacity < 2 ^ 64 := by
  obtain ⟨k, hk⟩ := hne
  obtain ⟨i, p, hp, rfl⟩ := mem_stored.mp hk
  have := h.wellFormed.window.lower hp
  have := h.roomy i p hp
  omega

theorem fits_or_empty (h : b.Sound Q) :
    b.playhead + bufferCapacity < 2 ^ 64 ∨ b.slots = fun _ => none := by
  rcases b.stored.eq_empty_or_nonempty with hempty | hne
  · exact Or.inr (stored_eq_empty.mp hempty)
  · exact Or.inl (h.playhead_fits hne)

theorem succ_fits_or_empty (h : b.Sound Q) :
    b.playhead + 1 < 2 ^ 64 ∨ b.slots = fun _ => none := by
  have := bufferCapacity_eq
  exact h.fits_or_empty.imp_left (by omega)

/-- A buffer that stores less and has lost or kept its cache is sound. -/
theorem of_subset {b' : JitterBuffer} (h : b.Sound Q) (hw : b'.WellFormed)
    (hslots : ∀ i p, b'.slots i = some p → b.slots i = some p)
    (hcached : b'.cachedMinSeq = none ∨
      (b'.cachedMinSeq = b.cachedMinSeq ∧ b'.stored = b.stored)) : b'.Sound Q := by
  refine ⟨hw, fun i p hp => h.roomy i p (hslots i p hp), fun lo hlo => ?_,
    fun i p hp => h.all i p (hslots i p hp)⟩
  rcases hcached with hnone | ⟨hsame, hstored⟩
  · rw [hnone] at hlo
    exact absurd hlo (by simp)
  · rw [hstored]
    exact h.cached lo (hsame ▸ hlo)

theorem popNext (h : b.Sound Q) : b.popNext.1.Sound Q := by
  cases hi : b.initialized with
  | false => rw [popNext_virgin hi]; exact h
  | true =>
    refine h.of_subset (h.wellFormed.popNext h.succ_fits_or_empty) ?_ ?_
    · intro i p hp
      rw [h.wellFormed.popNext_eq hi] at hp
      exact update_none_eq_some hp
    · rw [h.wellFormed.popNext_stored, h.wellFormed.popNext_eq hi]
      cases hp : b.packetAt b.playhead with
      | some p => exact Or.inl rfl
      | none =>
        refine Or.inr ⟨rfl, ?_⟩
        rw [h.wellFormed.filter_succ, Finset.erase_eq_self, h.wellFormed.mem_stored_iff, hp]
        simp

theorem advanceOne (h : b.Sound Q) : b.advanceOne.Sound Q := by
  refine h.of_subset (h.wellFormed.advanceOne h.succ_fits_or_empty) ?_ (Or.inl rfl)
  intro i p hp
  rw [h.wellFormed.advanceOne_eq] at hp
  exact update_none_eq_some hp

theorem lowestAvailableSeq (h : b.Sound Q) : b.lowestAvailableSeq.1.Sound Q := by
  refine ⟨h.wellFormed.lowestAvailableSeq, fun i p hp => h.roomy i p ?_, fun lo hlo => ?_,
    fun i p hp => h.all i p ?_⟩
  · rwa [lowestAvailableSeq_slots] at hp
  · rw [lowestAvailableSeq_stored]
    unfold JitterBuffer.lowestAvailableSeq at hlo
    split at hlo
    · exact h.cached lo hlo
    · exact (scanLowest_isLeast hlo).1
  · rwa [lowestAvailableSeq_slots] at hp

/-- The answer of the query is the number of a stored packet. -/
theorem lowestAvailableSeq_mem (h : b.Sound Q) {lo : UInt64}
    (hlo : b.lowestAvailableSeq.2 = some lo) : lo.toNat ∈ b.stored := by
  rw [← lowestAvailableSeq_stored]
  exact h.lowestAvailableSeq.cached lo (lowestAvailableSeq_cachedMinSeq.trans hlo)

/-- The query answers nothing exactly when nothing is stored. -/
theorem lowestAvailableSeq_eq_none (h : b.Sound Q) :
    b.lowestAvailableSeq.2 = none ↔ b.stored = ∅ := by
  unfold JitterBuffer.lowestAvailableSeq
  split
  · rename_i m hm
    simp only [reduceCtorEq, false_iff]
    exact Finset.ne_empty_of_mem (h.cached m hm)
  · exact scanLowest_eq_none

/-- A skip to the number of a stored packet meets the conditions of a fast-forward. -/
theorem fastForward_fits (h : b.Sound Q) {lo : UInt64} (hlo : lo.toNat ∈ b.stored) :
    b.playhead ≤ lo.toNat ∧
      (lo.toNat < b.playhead + bufferCapacity → b.playhead + bufferCapacity < 2 ^ 64) :=
  ⟨(h.wellFormed.mem_window hlo).1, fun _ => h.playhead_fits ⟨_, hlo⟩⟩

theorem fastForward (h : b.Sound Q) {lo : UInt64} (hlo : lo.toNat ∈ b.stored) :
    (b.fastForward lo).Sound Q := by
  obtain ⟨hle, hfit⟩ := h.fastForward_fits hlo
  refine h.of_subset (h.wellFormed.skipTo hle (Or.inl hfit)) ?_ (Or.inl rfl)
  intro i p hp
  have hslots := h.wellFormed.skipTo_slots hle (Or.inl hfit)
  change (b.skipTo lo).slots i = some p at hp
  rw [hslots] at hp
  exact (Ring.dropBelow_eq_some.mp hp).1

/-- The additions of an insertion whose number leaves room fit. -/
theorem insertFits (h : b.Sound Q) {p : RawPacket} (hroom : p.seq + bufferCapacity < 2 ^ 64) :
    b.InsertFits p :=
  ⟨fun _ => by have := h.fits_or_empty; omega, fun _ => hroom⟩

/-- Storing a packet inside the window. -/
theorem store (h : b.Sound Q) (hi : b.initialized = true) {p : RawPacket}
    (hlo : b.playhead ≤ p.seq) (hhi : p.seq < b.playhead + bufferCapacity)
    (hroom : p.seq + bufferCapacity < 2 ^ 64) (hQ : Q p) : (b.store p).Sound Q := by
  refine ⟨h.wellFormed.store hi hlo hhi, fun i q hq => ?_, fun lo hlo' => ?_, fun i q hq => ?_⟩
  · rcases store_eq_some hq with hq | rfl
    · exact h.roomy i q hq
    · exact hroom
  · rw [h.wellFormed.store_stored hi hlo hhi, Finset.mem_insert]
    simp only [JitterBuffer.store, Option.some.injEq] at hlo'
    subst hlo'
    cases hc : b.cachedMinSeq with
    | none => exact Or.inl rfl
    | some m =>
      rcases min_eq_or m p.seqNum with hmin | hmin
      · refine Or.inr ?_
        simpa [hmin] using h.cached m hc
      · refine Or.inl ?_
        simp [hmin, RawPacket.seq]
  · rcases store_eq_some hq with hq | rfl
    · exact h.all i q hq
    · exact hQ

/-- The buffer an insertion stores into is sound. -/
theorem opened (h : b.Sound Q) {p : RawPacket} (hfit : b.InsertFits p) (hstale : ¬b.IsStale p) :
    (b.opened p).Sound Q := by
  obtain ⟨hw, -, -, -, hempty, hkept⟩ := h.wellFormed.opened hfit hstale
  refine h.of_subset hw (fun i q hq => ?_) (b.opened_cachedMinSeq p)
  by_cases hr : b.Restarts p
  · rw [hempty hr] at hq
    exact absurd hq (by simp)
  · rw [(hkept hr).1] at hq
    exact (Ring.dropBelow_eq_some.mp hq).1

/-- An insertion rejects the packet or stores it into a sound buffer. -/
theorem insert_cases (h : b.Sound Q) {p : RawPacket} (hroom : p.seq + bufferCapacity < 2 ^ 64) :
    (b.IsStale p ∧ b.insert p = (b, .stale)) ∨
      (¬b.IsStale p ∧ (b.insert p).1 = (b.opened p).store p ∧ (b.opened p).Sound Q ∧
        (b.opened p).initialized = true ∧ (b.opened p).playhead ≤ p.seq ∧
        p.seq < (b.opened p).playhead + bufferCapacity) := by
  have hfit := h.insertFits hroom
  rcases b.insert_cases p with ⟨hs, heq⟩ | ⟨hr, heq⟩ | ⟨hs, -, heq⟩
  · exact Or.inl ⟨hs, heq⟩
  · have hs : ¬b.IsStale p := fun hs => by have := hs.2.2; have := hr.2; omega
    obtain ⟨-, hi, hlo, hhi, -⟩ := h.wellFormed.opened hfit hs
    exact Or.inr ⟨hs, by rw [heq], h.opened hfit hs, hi, hlo, hhi⟩
  · obtain ⟨-, hi, hlo, hhi, -⟩ := h.wellFormed.opened hfit hs
    exact Or.inr ⟨hs, by rw [heq], h.opened hfit hs, hi, hlo, hhi⟩

theorem insert (h : b.Sound Q) {p : RawPacket} (hroom : p.seq + bufferCapacity < 2 ^ 64)
    (hQ : Q p) : (b.insert p).1.Sound Q := by
  rcases h.insert_cases hroom with ⟨-, heq⟩ | ⟨-, heq, hopened, hi, hlo, hhi⟩
  · rw [heq]
    exact h
  · rw [heq]
    exact hopened.store hi hlo hhi hroom hQ

theorem reset : b.reset.Sound Q := by
  rw [reset_eq_new]
  exact new

/-- Beside a stored packet a pop moves the playhead by one. -/
theorem popNext_playhead (h : b.Sound Q) (hne : b.stored.Nonempty) :
    b.popNext.1.playhead = b.playhead + 1 := by
  have hfit := h.playhead_fits hne
  have hcap := bufferCapacity_eq
  cases hi : b.initialized with
  | false => exact absurd (h.wellFormed.stored_of_virgin hi) hne.ne_empty
  | true =>
    rw [h.wellFormed.popNext_eq hi]
    change (b.nextPlaySeq + 1).toNat = b.playhead + 1
    exact playhead_succ (by omega)

/-- Beside a stored packet an advance moves the playhead by one. -/
theorem advanceOne_playhead (h : b.Sound Q) (hne : b.stored.Nonempty) :
    b.advanceOne.playhead = b.playhead + 1 := by
  have hfit := h.playhead_fits hne
  have hcap := bufferCapacity_eq
  rw [h.wellFormed.advanceOne_eq]
  change (b.nextPlaySeq + 1).toNat = b.playhead + 1
  exact playhead_succ (by omega)

/-- A pop answers a packet exactly when the next one is present. -/
theorem popNext_isSome (h : b.Sound Q) : b.popNext.2.isSome = b.hasNext := by
  cases hnext : b.hasNext with
  | true =>
    obtain ⟨p, hp, -⟩ := h.wellFormed.popNext_of_hasNext hnext
    rw [hp]
    rfl
  | false =>
    cases hi : b.initialized with
    | false => rw [popNext_virgin hi]; rfl
    | true =>
      rw [h.wellFormed.popNext_eq hi, Bool.eq_false_iff, ne_eq, ← h.wellFormed.mem_stored_iff,
        ← h.wellFormed.hasNext_iff, hnext]
      simp

/-- The packet a pop answers was stored at the playhead. -/
theorem popNext_eq_some (h : b.Sound Q) {p : RawPacket} (hp : b.popNext.2 = some p) :
    b.hasNext = true ∧ p.seq = b.playhead ∧ Q p := by
  have hnext : b.hasNext = true := by rw [← h.popNext_isSome, hp]; rfl
  obtain ⟨q, hq, hat, hseq⟩ := h.wellFormed.popNext_of_hasNext hnext
  obtain rfl : p = q := Option.some.inj (hp.symm.trans hq)
  obtain ⟨i, hi⟩ := slot_of_packetAt hat
  exact ⟨hnext, hseq, h.all i p hi⟩

/-- A pop that answers a packet removes one. -/
theorem popNext_occupied (h : b.Sound Q) :
    b.popNext.1.occupiedCount + (if b.hasNext then 1 else 0) = b.occupiedCount := by
  rw [h.popNext.wellFormed.occupiedCount_eq, h.wellFormed.occupiedCount_eq,
    h.wellFormed.popNext_stored, h.wellFormed.filter_succ]
  by_cases hnext : b.hasNext = true
  · rw [if_pos hnext, Finset.card_erase_add_one (h.wellFormed.hasNext_iff.mp hnext)]
  · rw [if_neg hnext, Finset.erase_eq_of_notMem (mt h.wellFormed.hasNext_iff.mpr hnext), add_zero]

/-- An advance removes at most one packet. -/
theorem advanceOne_occupied (h : b.Sound Q) :
    b.advanceOne.occupiedCount + (if b.hasNext then 1 else 0) = b.occupiedCount := by
  rw [h.advanceOne.wellFormed.occupiedCount_eq, h.wellFormed.occupiedCount_eq,
    h.wellFormed.advanceOne_stored, h.wellFormed.filter_succ]
  by_cases hnext : b.hasNext = true
  · rw [if_pos hnext, Finset.card_erase_add_one (h.wellFormed.hasNext_iff.mp hnext)]
  · rw [if_neg hnext, Finset.erase_eq_of_notMem (mt h.wellFormed.hasNext_iff.mpr hnext), add_zero]

end Sound

/-- The playhead moved on, and what it passed is gone. -/
structure Onwards (b b' : JitterBuffer) : Prop where
  /-- What is still stored is what lies at or after the new playhead. -/
  stored : b'.stored = b.stored.filter (b'.playhead ≤ ·)
  /-- The playhead does not move back. -/
  playhead : b.playhead ≤ b'.playhead

namespace Onwards

theorem refl (h : b.WellFormed) : b.Onwards b :=
  ⟨(Finset.filter_true_of_mem fun _ hk => (h.mem_window hk).1).symm, le_rfl⟩

theorem trans {b₁ b₂ b₃ : JitterBuffer} (h : b₁.Onwards b₂) (h' : b₂.Onwards b₃) :
    b₁.Onwards b₃ := by
  refine ⟨?_, h.playhead.trans h'.playhead⟩
  rw [h'.stored, h.stored, Finset.filter_filter]
  refine Finset.filter_congr fun k _ => ?_
  have := h'.playhead
  constructor
  · exact fun hk => hk.2
  · exact fun hk => ⟨this.trans hk, hk⟩

/-- Nothing is stored that was not stored. -/
theorem subset {b' : JitterBuffer} (h : b.Onwards b') : b'.stored ⊆ b.stored := by
  rw [h.stored]
  exact Finset.filter_subset _ _

end Onwards

namespace Sound

theorem popNext_onwards (h : b.Sound Q) (hne : b.stored.Nonempty) : b.Onwards b.popNext.1 := by
  have hplay := h.popNext_playhead hne
  exact ⟨by rw [hplay, h.wellFormed.popNext_stored], by omega⟩

theorem advanceOne_onwards (h : b.Sound Q) (hne : b.stored.Nonempty) :
    b.Onwards b.advanceOne := by
  have hplay := h.advanceOne_playhead hne
  exact ⟨by rw [hplay, h.wellFormed.advanceOne_stored], by omega⟩

theorem lowestAvailableSeq_onwards (h : b.Sound Q) : b.Onwards b.lowestAvailableSeq.1 := by
  refine ⟨?_, lowestAvailableSeq_playhead.ge⟩
  rw [lowestAvailableSeq_stored, lowestAvailableSeq_playhead]
  exact (Onwards.refl h.wellFormed).stored

theorem fastForward_onwards (h : b.Sound Q) {lo : UInt64} (hlo : lo.toNat ∈ b.stored) :
    b.Onwards (b.fastForward lo) := by
  obtain ⟨hle, hfit⟩ := h.fastForward_fits hlo
  exact ⟨h.wellFormed.fastForward_stored hle (Or.inl hfit), hle⟩

end Sound

end JitterBuffer

end Gemacast.Jitter
