import Mathlib.Algebra.Ring.Parity
import Gemacast.Jitter.FlushExactness

/-!
# What a flush feeds to the decoder

The flush loop decodes the packets it pops. After a gap it advances a second time, over
whatever is stored there: a packet behind an odd number of missing ones is removed
without being decoded.
-/

namespace Gemacast.Jitter

open Gemacast.Core

namespace JitterBuffer

variable {b : JitterBuffer} {Q : RawPacket → Prop} {flushTo rounds : ℕ}

/-- The packets the flush loop passes to the decoder. -/
def flushFeeds (flushTo : ℕ) : ℕ → JitterBuffer → List RawPacket
  | 0, _ => []
  | rounds + 1, b =>
    if flushTo < b.occupiedCount then
      b.popNext.2.toList ++ flushFeeds flushTo rounds b.flushRound.1
    else []

/-- The numbers a flush down to `flushTo` packets removes: those with as many above. -/
def flushed (flushTo : ℕ) (b : JitterBuffer) : Finset ℕ :=
  b.stored.filter fun k => flushTo ≤ (b.stored.filter (k < ·)).card

/-- `k` is the first stored number from the playhead, or from just past a stored one. -/
def Follows (b : JitterBuffer) (a k : ℕ) : Prop :=
  (a = b.playhead ∨ ∃ j ∈ b.stored, a = j + 1) ∧ ∀ j ∈ b.stored, j < a ∨ k ≤ j

/-- An even number of numbers is missing below every number that a flush removes. -/
def EvenGaps (flushTo : ℕ) (b : JitterBuffer) : Prop :=
  ∀ k ∈ b.flushed flushTo, ∀ a ≤ k, b.Follows a k → Even (k - a)

instance (b : JitterBuffer) (a k : ℕ) : Decidable (b.Follows a k) :=
  inferInstanceAs (Decidable (_ ∧ _))

instance (flushTo : ℕ) (b : JitterBuffer) : Decidable (b.EvenGaps flushTo) :=
  inferInstanceAs (Decidable (∀ k ∈ _, ∀ a ≤ k, _))

theorem mem_flushed {k : ℕ} : k ∈ b.flushed flushTo ↔
    k ∈ b.stored ∧ flushTo ≤ (b.stored.filter (k < ·)).card := by
  rw [flushed, Finset.mem_filter]

/-- Without a packet too many nothing is removed. -/
theorem flushed_eq_empty (h : b.stored.card ≤ flushTo) : b.flushed flushTo = ∅ := by
  ext k
  simp only [mem_flushed, Finset.notMem_empty, iff_false, not_and, not_le]
  intro hk
  refine (Finset.card_lt_card ?_).trans_le h
  exact Finset.filter_ssubset.mpr ⟨k, hk, lt_irrefl k⟩

/-- An exact flush removes what has enough packets above it. -/
theorem FlushedTo.sdiff_eq {b' : JitterBuffer} (h : b.FlushedTo flushTo b') :
    b.stored \ b'.stored = b.flushed flushTo := by
  ext k
  rw [Finset.mem_sdiff, mem_flushed]
  refine and_congr_right fun hk => ⟨fun hout => ?_, fun habove hin => ?_⟩
  · rw [← h.card]
    apply Finset.card_le_card
    intro k' hk'
    exact Finset.mem_filter.mpr ⟨h.kept hk', h.highest k (Finset.mem_sdiff.mpr ⟨hk, hout⟩) k' hk'⟩
  · have hsub : b.stored.filter (k < ·) ⊆ b'.stored.erase k := by
      intro k' hk'
      obtain ⟨hmem, hlt⟩ := Finset.mem_filter.mp hk'
      refine Finset.mem_erase.mpr ⟨hlt.ne', ?_⟩
      by_contra hout
      exact lt_asymm hlt (h.highest k' (Finset.mem_sdiff.mpr ⟨hmem, hout⟩) k hin)
    have hle := Finset.card_le_card hsub
    have hcard := Finset.card_erase_add_one hin
    rw [h.card] at hcard
    omega

/-- Removing the lowest number leaves the same numbers to be removed. -/
theorem mem_flushed_of_erase {b' : JitterBuffer} {lo k : ℕ} (hlo : ∀ j ∈ b.stored, lo ≤ j)
    (hb' : b'.stored = b.stored.erase lo) :
    k ∈ b'.flushed flushTo ↔ k ∈ b.flushed flushTo ∧ k ≠ lo := by
  rw [mem_flushed, mem_flushed, hb', Finset.mem_erase]
  have habove : lo ≤ k → (b.stored.erase lo).filter (k < ·) = b.stored.filter (k < ·) := by
    intro hk
    rw [Finset.filter_erase, Finset.erase_eq_of_notMem]
    simp only [Finset.mem_filter, not_and, not_lt]
    intro _
    exact hk
  constructor
  · rintro ⟨⟨hne, hmem⟩, hle⟩
    rw [habove (hlo k hmem)] at hle
    exact ⟨⟨hmem, hle⟩, hne⟩
  · rintro ⟨⟨hmem, hle⟩, hne⟩
    rw [habove (hlo k hmem)]
    exact ⟨⟨hne, hmem⟩, hle⟩

/-- With a packet too many the lowest one is removed. -/
theorem lowest_mem_flushed {lo : ℕ} (hlo : ∀ j ∈ b.stored, lo ≤ j) (hmem : lo ∈ b.stored)
    (hmore : flushTo < b.stored.card) : lo ∈ b.flushed flushTo := by
  refine mem_flushed.mpr ⟨hmem, ?_⟩
  have hsub : b.stored.erase lo ⊆ b.stored.filter (lo < ·) := by
    intro k hk
    obtain ⟨hne, hin⟩ := Finset.mem_erase.mp hk
    exact Finset.mem_filter.mpr ⟨hin, lt_of_le_of_ne (hlo k hin) hne.symm⟩
  have hle := Finset.card_le_card hsub
  have hcard := Finset.card_erase_add_one hmem
  omega

namespace Sound

/-- What one round of the flush loop does: it decodes the packet at the playhead, or it
passes a gap and the number behind it. -/
theorem flushRound_cases (h : b.Sound Q) (hne : b.stored.Nonempty) :
    (∃ pkt, b.popNext.2 = some pkt ∧ b.packetAt b.playhead = some pkt ∧ pkt.seq = b.playhead ∧
      b.playhead ∈ b.stored ∧ b.flushRound.1.playhead = b.playhead + 1 ∧
      b.flushRound.1.stored = b.stored.erase b.playhead) ∨
    b.popNext.2 = none ∧ b.playhead ∉ b.stored ∧ b.flushRound.1.playhead = b.playhead + 2 ∧
      b.flushRound.1.stored = b.stored.erase (b.playhead + 1) := by
  obtain ⟨-, -, hplay, -, herase⟩ := h.flushRound_spec hne
  by_cases hnext : b.hasNext = true
  · obtain ⟨pkt, hpop, hat, hseq⟩ := h.wellFormed.popNext_of_hasNext hnext
    have hmoves : b.flushRound.2 = 1 := by
      unfold flushRound
      split
      · rfl
      · rename_i heq
        rw [heq] at hpop
        nomatch hpop
    rw [hmoves] at hplay
    rw [hplay, Nat.add_sub_cancel] at herase
    exact Or.inl ⟨pkt, hpop, hat, hseq, h.wellFormed.hasNext_iff.mp hnext, hplay, herase⟩
  · have hpop : b.popNext.2 = none := by
      rw [← Option.not_isSome_iff_eq_none, h.popNext_isSome]
      exact hnext
    have hmoves : b.flushRound.2 = 2 := by
      unfold flushRound
      split
      · rename_i heq
        rw [heq] at hpop
        nomatch hpop
      · rfl
    rw [hmoves] at hplay
    rw [hplay] at herase
    exact Or.inr ⟨hpop, mt h.wellFormed.hasNext_iff.mpr hnext, hplay, herase⟩

/-- The number a round stops behind is the lowest that may be stored. -/
theorem flushRound_lowest (h : b.Sound Q) (hne : b.stored.Nonempty) :
    b.flushRound.1.stored = b.stored.erase (b.flushRound.1.playhead - 1) ∧
      ∀ j ∈ b.stored, b.flushRound.1.playhead - 1 ≤ j := by
  obtain ⟨-, -, -, -, herase⟩ := h.flushRound_spec hne
  refine ⟨herase, fun j hj => ?_⟩
  have hwindow := (h.wellFormed.mem_window hj).1
  obtain ⟨_, -, -, -, -, hplay, -⟩ | ⟨-, hmissing, hplay, -⟩ := h.flushRound_cases hne
  · omega
  · have hother : j ≠ b.playhead := fun heq => hmissing (heq ▸ hj)
    omega

/-- The decoder is fed packets that the flush removes, in the order of their numbers. -/
theorem flushFeeds_spec (h : b.Sound Q) (flushTo rounds : ℕ) :
    ((flushFeeds flushTo rounds b).map RawPacket.seq).Pairwise (· < ·) ∧
      ∀ pkt ∈ flushFeeds flushTo rounds b, Q pkt ∧ pkt.seq ∈ b.flushed flushTo := by
  induction rounds generalizing b with
  | zero => simp [flushFeeds]
  | succ rounds ih =>
    unfold flushFeeds
    split
    · rename_i hmore
      rw [h.wellFormed.occupiedCount_eq] at hmore
      have hne : b.stored.Nonempty := Finset.card_pos.mp (by omega)
      obtain ⟨hs, -, hplay, hpos, -⟩ := h.flushRound_spec hne
      obtain ⟨herase, hlowest⟩ := h.flushRound_lowest hne
      obtain ⟨hsorted, hfed⟩ := ih hs
      have hrest : ∀ pkt ∈ flushFeeds flushTo rounds b.flushRound.1,
          Q pkt ∧ pkt.seq ∈ b.flushed flushTo := by
        intro pkt hpkt
        obtain ⟨hQ, hmem⟩ := hfed pkt hpkt
        exact ⟨hQ, ((mem_flushed_of_erase hlowest herase).mp hmem).1⟩
      obtain ⟨pkt, hpop, -, hseq, hmem, -⟩ | ⟨hpop, -⟩ := h.flushRound_cases hne
      · have hnext := h.popNext_eq_some hpop
        rw [hpop]
        simp only [Option.toList_some, List.singleton_append, List.map_cons,
          List.pairwise_cons, List.forall_mem_cons]
        refine ⟨⟨?_, hsorted⟩, ⟨hnext.2.2, ?_⟩, hrest⟩
        · intro k hk
          obtain ⟨q, hq, rfl⟩ := List.mem_map.mp hk
          have hin := (mem_flushed.mp (hfed q hq).2).1
          have := (hs.wellFormed.mem_window hin).1
          omega
        · rw [hseq]
          exact lowest_mem_flushed (fun j hj => (h.wellFormed.mem_window hj).1) hmem hmore
      · rw [hpop]
        simp only [Option.toList_none, List.nil_append]
        exact ⟨hsorted, hrest⟩
    · simp

/-- A round over the packet at the playhead leaves the gaps below the other ones. -/
theorem evenGaps_of_present (h : b.Sound Q) {b' : JitterBuffer} (hmem : b.playhead ∈ b.stored)
    (hplay : b'.playhead = b.playhead + 1) (hstored : b'.stored = b.stored.erase b.playhead) :
    b.EvenGaps flushTo ↔ b'.EvenGaps flushTo := by
  have hlowest : ∀ j ∈ b.stored, b.playhead ≤ j := fun j hj => (h.wellFormed.mem_window hj).1
  constructor
  · intro heven k hk a hak hfollows
    obtain ⟨hflushed, hne⟩ := (mem_flushed_of_erase hlowest hstored).mp hk
    refine heven k hflushed a hak ⟨?_, fun j hj => ?_⟩
    · obtain rfl | ⟨j, hj, rfl⟩ := hfollows.1
      · exact Or.inr ⟨b.playhead, hmem, hplay⟩
      · exact Or.inr ⟨j, Finset.mem_of_mem_erase (hstored ▸ hj), rfl⟩
    · by_cases hj' : j = b.playhead
      · obtain rfl | ⟨i, hi, rfl⟩ := hfollows.1
        · omega
        · rw [hstored] at hi
          have := hlowest i (Finset.mem_of_mem_erase hi)
          omega
      · exact hfollows.2 j (hstored ▸ Finset.mem_erase.mpr ⟨hj', hj⟩)
  · intro heven k hk a hak hfollows
    by_cases hk' : k = b.playhead
    · obtain rfl | ⟨j, hj, rfl⟩ := hfollows.1
      · rw [hk', Nat.sub_self]
        exact Even.zero
      · have := hlowest j hj
        omega
    · have hflushed := (mem_flushed_of_erase hlowest hstored).mpr ⟨hk, hk'⟩
      have hkin := hlowest k (mem_flushed.mp hk).1
      refine heven k hflushed a hak ⟨?_, fun j hj => ?_⟩
      · obtain rfl | ⟨j, hj, rfl⟩ := hfollows.1
        · rcases hfollows.2 b.playhead hmem with hlt | hle <;> omega
        · by_cases hj' : j = b.playhead
          · exact Or.inl (by omega)
          · exact Or.inr ⟨j, hstored ▸ Finset.mem_erase.mpr ⟨hj', hj⟩, rfl⟩
      · exact hfollows.2 j (Finset.mem_of_mem_erase (hstored ▸ hj))

/-- A round over two missing numbers leaves the parity of the gaps. -/
theorem evenGaps_of_missing (h : b.Sound Q) {b' : JitterBuffer} (hmissing : b.playhead ∉ b.stored)
    (hmissing' : b.playhead + 1 ∉ b.stored) (hplay : b'.playhead = b.playhead + 2)
    (hstored : b'.stored = b.stored) : b.EvenGaps flushTo ↔ b'.EvenGaps flushTo := by
  have hflushed : b'.flushed flushTo = b.flushed flushTo := by
    rw [flushed, flushed, hstored]
  have hlowest : ∀ j ∈ b.stored, b.playhead + 2 ≤ j := by
    intro j hj
    have hwindow := (h.wellFormed.mem_window hj).1
    have hne : j ≠ b.playhead := fun heq => hmissing (heq ▸ hj)
    have hne' : j ≠ b.playhead + 1 := fun heq => hmissing' (heq ▸ hj)
    omega
  constructor
  · intro heven k hk a hak hfollows
    rw [hflushed] at hk
    obtain ⟨hstart, hnone⟩ := hfollows
    rw [hstored] at hstart hnone
    obtain rfl | ⟨j, hj, rfl⟩ := hstart
    · rw [hplay] at hak hnone ⊢
      have hwide := heven k hk b.playhead (by omega)
        ⟨Or.inl rfl, fun j hj => by have := hlowest j hj; have := hnone j hj; omega⟩
      rw [show k - b.playhead = k - (b.playhead + 2) + 2 by omega] at hwide
      exact (Nat.even_add.mp hwide).mpr even_two
    · exact heven k hk _ hak ⟨Or.inr ⟨j, hj, rfl⟩, hnone⟩
  · intro heven k hk a hak hfollows
    have hkin := hlowest k (mem_flushed.mp hk).1
    obtain ⟨rfl | ⟨j, hj, rfl⟩, hnone⟩ := hfollows
    · have hnarrow := heven k (hflushed ▸ hk) (b.playhead + 2) hkin
        ⟨Or.inl hplay.symm, fun j hj => by
          rw [hstored] at hj
          have := hlowest j hj
          have := hnone j hj
          omega⟩
      rw [show k - b.playhead = k - (b.playhead + 2) + 2 by omega]
      exact hnarrow.add even_two
    · exact heven k (hflushed ▸ hk) _ hak
        ⟨Or.inr ⟨j, hstored ▸ hj, rfl⟩, fun i hi => hnone i (hstored ▸ hi)⟩

/-- Every removed packet is decoded exactly when every gap below one is even. -/
theorem flushFeeds_iff (h : b.Sound Q) (hfit : ∀ k ∈ b.stored, k < b.playhead + rounds) :
    (∀ k ∈ b.flushed flushTo, k ∈ (flushFeeds flushTo rounds b).map RawPacket.seq) ↔
      b.EvenGaps flushTo := by
  induction rounds generalizing b with
  | zero =>
    have hempty : b.stored = ∅ := by
      rw [Finset.eq_empty_iff_forall_notMem]
      intro k hk
      have := hfit k hk
      have := (h.wellFormed.mem_window hk).1
      omega
    have hnone : b.flushed flushTo = ∅ := flushed_eq_empty (by simp [hempty])
    simp [EvenGaps, hnone]
  | succ rounds ih =>
    by_cases hmore : flushTo < b.stored.card
    swap
    · have hnone : b.flushed flushTo = ∅ := flushed_eq_empty (by omega)
      simp [EvenGaps, hnone]
    have hne : b.stored.Nonempty := Finset.card_pos.mp (by omega)
    obtain ⟨hs, honwards, hplay, hpos, -⟩ := h.flushRound_spec hne
    obtain ⟨herase, hlowest⟩ := h.flushRound_lowest hne
    have hrest := ih hs fun k hk => by
      have := hfit k (honwards.subset hk)
      omega
    have hflushed : ∀ k, k ∈ b.flushRound.1.flushed flushTo ↔
        k ∈ b.flushed flushTo ∧ k ≠ b.flushRound.1.playhead - 1 := fun k =>
      mem_flushed_of_erase hlowest herase
    rw [flushFeeds, if_pos (by rw [h.wellFormed.occupiedCount_eq]; exact hmore)]
    obtain ⟨pkt, hpop, -, hseq, hmem, hplay', hstored⟩ | ⟨hpop, hmissing, hplay', hstored⟩ :=
      h.flushRound_cases hne
    · rw [evenGaps_of_present h hmem hplay' hstored, ← hrest, hpop]
      simp only [Option.toList_some, List.singleton_append, List.map_cons, List.mem_cons]
      rw [hplay', Nat.add_sub_cancel] at hflushed
      constructor
      · intro hall k hk
        obtain ⟨hin, hne'⟩ := (hflushed k).mp hk
        exact (hall k hin).resolve_left (hseq ▸ hne')
      · intro hall k hk
        by_cases hk' : k = b.playhead
        · exact Or.inl (hk'.trans hseq.symm)
        · exact Or.inr (hall k ((hflushed k).mpr ⟨hk, hk'⟩))
    · rw [hpop]
      simp only [Option.toList_none, List.nil_append]
      rw [hplay'] at hflushed hlowest
      by_cases hnext : b.playhead + 1 ∈ b.stored
      · -- the second advance removes the packet just behind the gap
        have hremoved := lowest_mem_flushed hlowest hnext hmore
        constructor
        · intro hall
          obtain ⟨pkt, hpkt, hseq⟩ := List.mem_map.mp (hall _ hremoved)
          have hin := ((hs.flushFeeds_spec flushTo rounds).2 pkt hpkt).2
          rw [hseq, hflushed] at hin
          exact absurd rfl hin.2
        · intro heven
          have hodd := heven _ hremoved b.playhead (Nat.le_succ _)
            ⟨Or.inl rfl, fun j hj => Or.inr (hlowest j hj)⟩
          rw [show b.playhead + 2 - 1 - b.playhead = 1 by omega] at hodd
          exact absurd hodd Nat.not_even_one
      · rw [Finset.erase_eq_of_notMem hnext] at hstored
        rw [evenGaps_of_missing h hmissing hnext hplay' hstored, ← hrest, flushed, flushed, hstored]

end Sound

end JitterBuffer

namespace JitterBufferManager

variable {F : Type} [Binary32 F] [FrameMark F] {C : Codec F} {m : JitterBufferManager C}
  {Q : RawPacket → Prop}

/-- The packets a flush down to `flushTo` passes to the decoder. -/
def flushFeeds (m : JitterBufferManager C) (flushTo : ℕ) : List RawPacket :=
  m.buffer.flushFeeds flushTo bufferCapacity

/-- The numbers a flush down to `flushTo` removes from the buffer. -/
def flushRemoves (m : JitterBufferManager C) (flushTo : ℕ) : Finset ℕ :=
  m.buffer.stored \ (m.flushWithCrossfade flushTo).buffer.stored

/-- The flush loop feeds the decoder these packets and nothing else. -/
theorem flushLoop_decoder (m : JitterBufferManager C) (flushTo rounds : ℕ) :
    (m.flushLoop flushTo rounds).decoder =
      (m.buffer.flushFeeds flushTo rounds).foldl FrameDecoder.capture m.decoder := by
  induction rounds generalizing m with
  | zero => rfl
  | succ rounds ih =>
    unfold flushLoop JitterBuffer.flushFeeds
    split
    · unfold JitterBuffer.flushRound
      cases hp : m.buffer.popNext with
      | mk b answer =>
        cases answer with
        | some pkt => exact ih _
        | none => exact ih _
    · rfl

/-- The flush feeds the decoder every packet that it removes, once each and in the order
of their numbers. -/
structure FeedsRemoved (m : JitterBufferManager C) (flushTo : ℕ) : Prop where
  /-- The decoder is fed the listed packets and nothing else. -/
  fed : (m.flushWithCrossfade flushTo).decoder =
    (m.flushFeeds flushTo).foldl FrameDecoder.capture m.decoder
  /-- Each one once, in increasing order. -/
  ordered : ((m.flushFeeds flushTo).map RawPacket.seq).Pairwise (· < ·)
  /-- They are the packets removed. -/
  removed : ∀ pkt, pkt ∈ m.flushFeeds flushTo ↔
    pkt.seq ∈ m.flushRemoves flushTo ∧ m.buffer.packetAt pkt.seq = some pkt

theorem flushWithCrossfade_decoder (m : JitterBufferManager C) (flushTo : ℕ) :
    (m.flushWithCrossfade flushTo).decoder =
      (m.flushFeeds flushTo).foldl FrameDecoder.capture m.decoder := by
  rw [(m.flushWithCrossfade_loop flushTo).2]
  exact flushLoop_decoder (m.beginFlush flushTo) flushTo bufferCapacity

/-- A flush of a sound buffer removes the lowest numbers. -/
theorem flushRemoves_eq (h : m.buffer.Sound Q) (flushTo : ℕ) :
    m.flushRemoves flushTo = m.buffer.flushed flushTo := by
  by_cases hmore : flushTo < m.buffer.stored.card
  · exact (flushesExactly_of_sound h hmore).exact.sdiff_eq
  · have hidle : m.buffer.occupiedCount ≤ flushTo := by
      rw [h.wellFormed.occupiedCount_eq]
      omega
    rw [flushRemoves, flushWithCrossfade, if_pos hidle, Finset.sdiff_self,
      JitterBuffer.flushed_eq_empty (by omega)]

/-- A flush of a sound buffer feeds the decoder what it removes exactly when an even
number of numbers is missing below every packet it removes. -/
theorem feedsRemoved_iff (hsound : m.buffer.Sound Q) (flushTo : ℕ) :
    m.FeedsRemoved flushTo ↔ m.buffer.EvenGaps flushTo := by
  -- soundness carries along the flush that every packet is one of those at its start
  have h : m.buffer.Sound fun p => m.buffer.packetAt p.seq = some p :=
    ⟨hsound.wellFormed, hsound.roomy, hsound.cached,
      fun _ _ hp => hsound.wellFormed.window.held_of_slot hp⟩
  have hfit : ∀ k ∈ m.buffer.stored, k < m.buffer.playhead + bufferCapacity := fun k hk =>
    (h.wellFormed.mem_window hk).2
  obtain ⟨hordered, hfed⟩ := h.flushFeeds_spec flushTo bufferCapacity
  rw [← h.flushFeeds_iff hfit]
  constructor
  · intro hfeeds k hk
    obtain ⟨pkt, hpkt⟩ := Option.isSome_iff_exists.mp
      (h.wellFormed.mem_stored_iff.mp (JitterBuffer.mem_flushed.mp hk).1)
    have hseq := JitterBuffer.seq_of_packetAt hpkt
    refine List.mem_map.mpr ⟨pkt, (hfeeds.removed pkt).mpr ⟨?_, ?_⟩, hseq⟩
    · rw [flushRemoves_eq h, hseq]
      exact hk
    · rw [hseq]
      exact hpkt
  · intro hall
    refine ⟨m.flushWithCrossfade_decoder flushTo, hordered, fun pkt => ⟨?_, ?_⟩⟩
    · intro hpkt
      rw [flushRemoves_eq h]
      exact (hfed pkt hpkt).symm
    · rintro ⟨hmem, hat⟩
      rw [flushRemoves_eq h] at hmem
      obtain ⟨q, hq, hseq⟩ := List.mem_map.mp (hall _ hmem)
      have hsame := (hfed q hq).1
      rw [hseq, hat] at hsame
      rw [Option.some.inj hsame]
      exact hq

/-- In every run whose ingested numbers leave room for the capacity, a flush feeds the
decoder what it removes exactly when an even number of numbers is missing below every
packet it removes. -/
theorem feedsRemoved_of_run (C : Codec F) (config : JitterConfig F) (networkLink : NetworkLink)
    (clock : Instant) (inputs : List (Input F)) (hroom : ∀ i ∈ inputs, i.LeavesRoom)
    (m : JitterBufferManager C)
    (hpoint : FlushPoint ((machine C config networkLink clock).run inputs) m) (flushTo : ℕ) :
    m.FeedsRemoved flushTo ↔ m.buffer.EvenGaps flushTo :=
  feedsRemoved_iff (hpoint.sound (sound_of_run C config networkLink clock inputs hroom)) flushTo

/-- Three packets with two missing between them. -/
def evenlyGappedInputs : List (Input SoftFloat) :=
  [.ingest [rawZero 5 0, rawZero 8 1, rawZero 9 2]]

theorem feedsRemoved_of_run_evenlyGappedInputs :
    ((machine (Codec.unfed SoftFloat) eagerConfig .ethernet 0).run evenlyGappedInputs).FeedsRemoved
      1 :=
  (feedsRemoved_of_run _ _ _ _ evenlyGappedInputs (by decide) _ (.begin rfl) 1).mpr
    (by decide +kernel)

theorem not_feedsRemoved_gappedInputs : ¬ ∀ inputs : List (Input SoftFloat),
    ∀ m, FlushPoint ((machine (Codec.unfed SoftFloat) eagerConfig .ethernet 0).run inputs) m →
    ∀ flushTo, m.FeedsRemoved flushTo := by
  intro h
  have hfeeds := h gappedInputs _ (.begin rfl) 1
  have hremoved := (hfeeds.removed (rawZero 7 1)).mpr ⟨by decide +kernel, by decide +kernel⟩
  exact absurd hremoved (by decide +kernel)

end JitterBufferManager

end Gemacast.Jitter
