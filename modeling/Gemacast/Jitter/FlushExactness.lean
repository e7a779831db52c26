import Mathlib.Data.UInt
import Gemacast.Jitter.Ledger

/-!
# What a flush leaves

One round of the flush loop pops, and on a gap advances once more, so it moves the
playhead by one or two numbers and removes at most the packet just below where it
stops. As long as the stored numbers fill one window the loop ends by itself after
at most one window of moves, with the highest packets kept and the rest counted.
-/

namespace Gemacast.Jitter

open Gemacast.Core

namespace JitterBuffer

variable {b : JitterBuffer} {Q : RawPacket → Prop}

/-- One round of the flush loop, with the playhead moves it makes. -/
def flushRound (b : JitterBuffer) : JitterBuffer × ℕ :=
  match b.popNext with
  | (b', some _) => (b', 1)
  | (b', none) => (b'.advanceOne, 2)

/-- The flush loop on the buffer, with the moves of all its rounds; `none` when the
rounds granted do not suffice. -/
def flushRounds (flushTo : ℕ) : ℕ → JitterBuffer → Option (JitterBuffer × ℕ)
  | 0, b => if flushTo < b.occupiedCount then none else some (b, 0)
  | rounds + 1, b =>
    if flushTo < b.occupiedCount then
      (flushRounds flushTo rounds b.flushRound.1).map fun r => (r.1, b.flushRound.2 + r.2)
    else some (b, 0)

/-- A flush of `b` down to `flushTo` packets that ends in `b'` after `moves` moves. -/
structure Flushed (flushTo : ℕ) (b b' : JitterBuffer) (moves : ℕ) : Prop where
  /-- What the playhead passed is gone, and nothing else. -/
  onwards : b.Onwards b'
  /-- Every move passes one number. -/
  playhead : b'.playhead = b.playhead + moves
  /-- So many packets are left. -/
  left : b'.occupiedCount = flushTo
  /-- Without a packet too many the playhead stays. -/
  idle : b.occupiedCount ≤ flushTo → moves = 0
  /-- Else the last move passed a stored number. -/
  last : flushTo < b.occupiedCount → ∃ hi ∈ b.stored, b'.playhead = hi + 1

theorem Flushed.refl (h : b.WellFormed) : b.Flushed b.occupiedCount b 0 :=
  ⟨.refl h, rfl, rfl, fun _ => rfl, fun hlt => absurd hlt (lt_irrefl _)⟩

/-- `b'` is `b` flushed down to its `flushTo` highest packets. -/
structure FlushedTo (flushTo : ℕ) (b b' : JitterBuffer) : Prop where
  kept : b'.stored ⊆ b.stored
  card : b'.stored.card = flushTo
  /-- Every number that is left is above every number that is gone. -/
  highest : ∀ k ∈ b.stored \ b'.stored, ∀ k' ∈ b'.stored, k < k'
  packets : ∀ k ∈ b'.stored, b'.packetAt k = b.packetAt k
  /-- The playhead stands just past the highest number that is gone. -/
  playhead : ∃ hi, IsGreatest (b.stored \ b'.stored : Finset ℕ) hi ∧ b'.playhead = hi + 1

namespace Sound

/-- A round passes one or two numbers and erases the one it stops behind. -/
theorem flushRound_spec (h : b.Sound Q) (hne : b.stored.Nonempty) :
    b.flushRound.1.Sound Q ∧ b.Onwards b.flushRound.1 ∧
      b.flushRound.1.playhead = b.playhead + b.flushRound.2 ∧ 0 < b.flushRound.2 ∧
      b.flushRound.1.stored = b.stored.erase (b.flushRound.1.playhead - 1) := by
  have hsound := h.popNext
  have honwards := h.popNext_onwards hne
  have hplay := h.popNext_playhead hne
  have hstored := h.wellFormed.popNext_stored
  have hsome := h.popNext_isSome
  have herase := h.wellFormed.filter_succ
  unfold flushRound
  cases hp : b.popNext with
  | mk b' answer =>
    simp only [hp] at hsound honwards hplay hstored hsome
    cases answer with
    | some pkt =>
      refine ⟨hsound, honwards, hplay, Nat.one_pos, ?_⟩
      change b'.stored = b.stored.erase (b'.playhead - 1)
      rw [hstored, herase, hplay, Nat.add_sub_cancel]
    | none =>
      have hmissing : b.playhead ∉ b.stored := fun hmem => by
        rw [h.wellFormed.hasNext_iff.mpr hmem] at hsome
        exact absurd hsome (by simp)
      have hsame : b'.stored = b.stored := by
        rw [hstored, herase, Finset.erase_eq_of_notMem hmissing]
      have hne' : b'.stored.Nonempty := hsame ▸ hne
      have hplay' := hsound.advanceOne_playhead hne'
      refine ⟨hsound.advanceOne, honwards.trans (hsound.advanceOne_onwards hne'), ?_,
        Nat.two_pos, ?_⟩
      · change b'.advanceOne.playhead = b.playhead + 2
        rw [hplay', hplay]
      · change b'.advanceOne.stored = b.stored.erase (b'.advanceOne.playhead - 1)
        rw [hsound.wellFormed.advanceOne_stored, hsound.wellFormed.filter_succ, hsame, hplay',
          Nat.add_sub_cancel]

/-- A round removes at most one packet, and then it stops just behind it. -/
theorem flushRound_occupied (h : b.Sound Q) (hne : b.stored.Nonempty) :
    b.flushRound.1.occupiedCount = b.occupiedCount ∨
      b.flushRound.1.occupiedCount + 1 = b.occupiedCount ∧
        ∃ hi ∈ b.stored, b.flushRound.1.playhead = hi + 1 := by
  obtain ⟨hs, -, hplay, hpos, herase⟩ := h.flushRound_spec hne
  rw [hs.wellFormed.occupiedCount_eq, h.wellFormed.occupiedCount_eq, herase]
  by_cases hmem : b.flushRound.1.playhead - 1 ∈ b.stored
  · exact Or.inr ⟨Finset.card_erase_add_one hmem, _, hmem, by omega⟩
  · exact Or.inl (by rw [Finset.erase_eq_of_notMem hmem])

/-- The loop ends within as many rounds as there are numbers left in the window. -/
theorem flushRounds_spec (h : b.Sound Q) {flushTo : ℕ} (hle : flushTo ≤ b.occupiedCount)
    {rounds : ℕ} (hrounds : ∀ k ∈ b.stored, k < b.playhead + rounds) :
    ∃ b' moves, flushRounds flushTo rounds b = some (b', moves) ∧ b'.Sound Q ∧
      b.Flushed flushTo b' moves := by
  have hstop : ¬flushTo < b.occupiedCount → b.Flushed flushTo b 0 := fun hnot => by
    obtain rfl : flushTo = b.occupiedCount := by omega
    exact .refl h.wellFormed
  induction rounds generalizing b with
  | zero =>
    have hempty : b.stored = ∅ := by
      rw [Finset.eq_empty_iff_forall_notMem]
      intro k hk
      have := hrounds k hk
      have := (h.wellFormed.mem_window hk).1
      omega
    have hnot : ¬flushTo < b.occupiedCount := by
      rw [h.wellFormed.occupiedCount_eq, hempty, Finset.card_empty]
      exact Nat.not_lt_zero _
    exact ⟨b, 0, if_neg hnot, h, hstop hnot⟩
  | succ rounds ih =>
    unfold flushRounds
    by_cases hmore : flushTo < b.occupiedCount
    · have hne : b.stored.Nonempty := by
        rw [← Finset.card_pos, ← h.wellFormed.occupiedCount_eq]
        omega
      obtain ⟨hs, honwards, hplay, hpos, -⟩ := h.flushRound_spec hne
      have hocc := h.flushRound_occupied hne
      obtain ⟨b', moves, hrun, hs', hf⟩ := ih hs (by omega)
        (fun k hk => by
          have := hrounds k (honwards.subset hk)
          omega)
        fun hnot => by
          obtain rfl : flushTo = b.flushRound.1.occupiedCount := by omega
          exact .refl hs.wellFormed
      refine ⟨b', b.flushRound.2 + moves, by rw [if_pos hmore, hrun]; rfl, hs',
        honwards.trans hf.onwards, ?_, hf.left, fun hnot => by omega, fun _ => ?_⟩
      · rw [hf.playhead, hplay, Nat.add_assoc]
      · by_cases hmore' : flushTo < b.flushRound.1.occupiedCount
        · obtain ⟨hi, hmem, hlast⟩ := hf.last hmore'
          exact ⟨hi, honwards.subset hmem, hlast⟩
        · obtain hsame | ⟨-, hi, hmem, hlast⟩ := hocc
          · omega
          · refine ⟨hi, hmem, ?_⟩
            rw [hf.playhead, hf.idle (by omega), Nat.add_zero, hlast]
    · rw [if_neg hmore]
      exact ⟨b, 0, rfl, h, hstop hmore⟩

/-- What a flush of a sound buffer leaves are the highest packets, unchanged. -/
theorem flushRounds_exact (hsound : b.Sound Q) {flushTo : ℕ} (hmore : flushTo < b.stored.card) :
    ∃ b' moves, flushRounds flushTo bufferCapacity b = some (b', moves) ∧
      moves ≤ bufferCapacity ∧ b.FlushedTo flushTo b' := by
  -- soundness carries along the flush that every packet is one of those at its start
  have h : b.Sound fun p => b.packetAt p.seq = some p :=
    ⟨hsound.wellFormed, hsound.roomy, hsound.cached,
      fun _ _ hp => hsound.wellFormed.window.held_of_slot hp⟩
  have hocc : flushTo < b.occupiedCount := by
    rw [h.wellFormed.occupiedCount_eq]
    exact hmore
  have hfit : ∀ k ∈ b.stored, k < b.playhead + bufferCapacity := by
    intro k hk
    exact (h.wellFormed.mem_window hk).2
  obtain ⟨b', moves, hrun, hs, hf⟩ := h.flushRounds_spec hocc.le hfit
  obtain ⟨hi, hmem, hlast⟩ := hf.last hocc
  have hwindow := (h.wellFormed.mem_window hmem).2
  have hplay := hf.playhead
  have hkept : ∀ k, k ∈ b'.stored ↔ k ∈ b.stored ∧ hi < k := fun k => by
    rw [hf.onwards.stored, hlast, Finset.mem_filter, Nat.succ_le_iff]
  have hgone : ∀ k ∈ b.stored \ b'.stored, k ≤ hi := fun k hk => by
    obtain ⟨hin, hout⟩ := Finset.mem_sdiff.mp hk
    exact Nat.le_of_not_lt fun hlt => hout ((hkept k).mpr ⟨hin, hlt⟩)
  have hhi : hi ∈ b.stored \ b'.stored :=
    Finset.mem_sdiff.mpr ⟨hmem, fun hin => lt_irrefl hi ((hkept hi).mp hin).2⟩
  refine ⟨b', moves, hrun, by omega, ?_⟩
  refine
    { kept := hf.onwards.subset
      card := ?_
      highest := fun k hk k' hk' => (hgone k hk).trans_lt ((hkept k').mp hk').2
      packets := fun k hk => ?_
      playhead := ⟨hi, ⟨hhi, fun k hk => hgone k hk⟩, hlast⟩ }
  · rw [← hs.wellFormed.occupiedCount_eq, hf.left]
  · obtain ⟨p, hp⟩ := Option.isSome_iff_exists.mp (hs.wellFormed.mem_stored_iff.mp hk)
    obtain ⟨i, hi⟩ := slot_of_packetAt hp
    have hsame := hs.all i p hi
    rw [seq_of_packetAt hp] at hsame
    rw [hp, hsame]

end Sound

end JitterBuffer

namespace JitterBufferManager

variable {F : Type} [Binary32 F] [FrameMark F] {C : Codec F} {m : JitterBufferManager C}
  {Q : RawPacket → Prop}

/-- The flush loop of the manager is that of its buffer, however many rounds more it is
granted. -/
theorem flushLoop_buffer {flushTo rounds moves : ℕ} {b' : JitterBuffer}
    (h : JitterBuffer.flushRounds flushTo rounds m.buffer = some (b', moves)) (more : ℕ) :
    (m.flushLoop flushTo (rounds + more)).buffer = b' := by
  induction rounds generalizing m moves with
  | zero =>
    unfold JitterBuffer.flushRounds at h
    split at h
    · nomatch h
    · rename_i hnot
      obtain ⟨rfl, -⟩ := Prod.mk.inj (Option.some.inj h)
      cases more with
      | zero => rfl
      | succ more =>
        unfold flushLoop
        rw [if_neg hnot]
  | succ rounds ih =>
    rw [Nat.add_right_comm]
    unfold JitterBuffer.flushRounds at h
    unfold flushLoop
    split at h
    · rename_i hmore
      rw [if_pos hmore]
      obtain ⟨⟨b₁, moves₁⟩, hrest, heq⟩ := Option.map_eq_some_iff.mp h
      obtain ⟨rfl, -⟩ := Prod.mk.inj heq
      unfold JitterBuffer.flushRound at hrest
      cases hp : m.buffer.popNext with
      | mk b answer =>
        rw [hp] at hrest
        cases answer with
        | some pkt => exact ih (m := { m with buffer := b }.capture pkt) hrest
        | none => exact ih (m := { m with buffer := b.advanceOne }) hrest
    · rename_i hnot
      rw [if_neg hnot]
      obtain ⟨rfl, -⟩ := Prod.mk.inj (Option.some.inj h)
      rfl

/-- A flush down to `flushTo` packets ends by itself after at most one window of moves,
leaves the highest packets and counts the others. -/
structure FlushesExactly (m : JitterBufferManager C) (flushTo : ℕ) : Prop where
  /-- The loop ends, in the buffer the flush leaves. -/
  ends : ∃ moves ≤ bufferCapacity, JitterBuffer.flushRounds flushTo bufferCapacity m.buffer =
    some ((m.flushWithCrossfade flushTo).buffer, moves)
  /-- What is left are the highest packets. -/
  exact : m.buffer.FlushedTo flushTo (m.flushWithCrossfade flushTo).buffer
  /-- The others are counted as discards. -/
  discards : (m.flushWithCrossfade flushTo).logWindow.tally.flushDiscards =
    m.logWindow.tally.flushDiscards +
      (m.buffer.stored \ (m.flushWithCrossfade flushTo).buffer.stored).card

/-- A flush of a sound buffer with more packets is exact. -/
theorem flushesExactly_of_sound (h : m.buffer.Sound Q) {flushTo : ℕ}
    (hmore : flushTo < m.buffer.stored.card) : m.FlushesExactly flushTo := by
  obtain ⟨b', moves, hrun, hmoves, hexact⟩ := h.flushRounds_exact hmore
  have hbuffer : (m.flushWithCrossfade flushTo).buffer = b' :=
    (m.flushWithCrossfade_loop flushTo).1.trans
      (flushLoop_buffer (m := m.beginFlush flushTo) hrun 0)
  have hcount : (m.flushWithCrossfade flushTo).logWindow.tally.flushDiscards =
      m.logWindow.tally.flushDiscards + (m.buffer.occupiedCount - flushTo) := by
    obtain ⟨_, _, _, _, _, heq, -, -⟩ := m.flushWithCrossfade_eq flushTo
    rw [heq]
    rfl
  refine ⟨⟨moves, hmoves, by rw [hbuffer]; exact hrun⟩, by rw [hbuffer]; exact hexact, ?_⟩
  rw [hcount, hbuffer, Finset.card_sdiff_of_subset hexact.kept, hexact.card,
    h.wellFormed.occupiedCount_eq]

/-- The states in which a callback that begins in `s` may flush: up to its frame a
callback changes the buffer by flushes only. -/
inductive FlushPoint (s : JitterBufferManager C) : JitterBufferManager C → Prop
  | begin {m : JitterBufferManager C} (h : m.buffer = s.buffer) : FlushPoint s m
  | again {m m' : JitterBufferManager C} (flushTo : ℕ) (h : FlushPoint s m)
      (h' : m'.buffer = (m.flushWithCrossfade flushTo).buffer) : FlushPoint s m'

namespace FlushPoint

variable {s m' : JitterBufferManager C}

/-- Bookkeeping leaves a state in which a callback may flush. -/
theorem of_buffer (h : FlushPoint s m) (hsame : m'.buffer = m.buffer) : FlushPoint s m' := by
  cases h with
  | begin h => exact .begin (hsame.trans h)
  | again flushTo h h' => exact .again flushTo h (hsame.trans h')

/-- The phases that settle the depth pass such states. -/
theorem settles (h : FlushPoint s m) (hsettle : m.Settles m') : FlushPoint s m' := by
  refine hsettle.preserves (fun a b hstep ha => ?_) h
  cases hstep with
  | keep hkeep => exact ha.of_buffer hkeep.buffer
  | flush flushTo => exact .again flushTo ha rfl

/-- The first phases of a callback end in such a state. -/
theorem settleDepth (s : JitterBufferManager C) (tick : Tick F) :
    FlushPoint s (JitterBufferManager.settleDepth { s with emissions := [] } tick).1 := by
  obtain ⟨m', hbefore, hafter, -⟩ :=
    JitterBufferManager.settleDepth_cases { s with emissions := [] } tick
  have hstart : FlushPoint s { s with emissions := [] } := .begin rfl
  have hresolved := (hstart.settles hbefore).of_buffer (m'.resolveTarget_keeps tick).buffer
  exact hresolved.settles hafter

/-- The buffer is sound in such states when it is at the beginning. -/
theorem sound (h : FlushPoint s m) (hs : s.buffer.Sound Q) : m.buffer.Sound Q := by
  induction h with
  | begin h =>
    rw [h]
    exact hs
  | again flushTo _ h' ih =>
    rw [h']
    exact (flushWithCrossfade_sound ih flushTo).1

end FlushPoint

/-- In every run whose ingested numbers leave room for the capacity, every flush is exact. -/
theorem flushExact_of_run (C : Codec F) (config : JitterConfig F) (networkLink : NetworkLink)
    (clock : Instant) (inputs : List (Input F)) (hroom : ∀ i ∈ inputs, i.LeavesRoom)
    (m : JitterBufferManager C)
    (hpoint : FlushPoint ((machine C config networkLink clock).run inputs) m) (flushTo : ℕ)
    (hmore : flushTo < m.buffer.stored.card) : m.FlushesExactly flushTo := by
  have hsound := sound_of_run C config networkLink clock inputs hroom
  exact flushesExactly_of_sound (hpoint.sound hsound) hmore

/-- Three packets with a gap between them. -/
def gappedInputs : List (Input SoftFloat) := [.ingest [rawZero 5 0, rawZero 7 1, rawZero 8 2]]

theorem flushExact_of_run_gappedInputs :
    ((machine (Codec.unfed SoftFloat) eagerConfig .ethernet 0).run gappedInputs).FlushesExactly 1 :=
  flushExact_of_run _ _ _ _ gappedInputs (by decide) _ (.begin rfl) 1 (by decide +kernel)

/-- A packet, one at the far end of its window, and the last number of a `u64`: the sum
of the playhead and the capacity wraps, and the playhead skips the first two without
emptying their slots. -/
def wrappedInputs : List (Input SoftFloat) :=
  [.ingest [rawZero (2 ^ 64 - 512) 0, rawZero (2 ^ 64 - 256) 1, rawZero (2 ^ 64 - 1) 2]]

theorem not_flushExact_wrappedInputs : ¬ ∀ inputs : List (Input SoftFloat),
    ∀ m, FlushPoint ((machine (Codec.unfed SoftFloat) eagerConfig .ethernet 0).run inputs) m →
    ∀ flushTo, flushTo < m.buffer.stored.card → m.FlushesExactly flushTo := by
  intro h
  have hflush := h wrappedInputs _ (.begin rfl) 2 (by decide +kernel)
  exact absurd (hflush.exact.highest (2 ^ 64 - 256) (by decide +kernel) (2 ^ 64 - 512)
    (by decide +kernel)) (by decide)

end JitterBufferManager

end Gemacast.Jitter
