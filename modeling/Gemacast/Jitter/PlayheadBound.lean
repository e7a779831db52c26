import Gemacast.Jitter.Packets

/-!
# How far the playhead goes

The player thread moves the playhead only past packets it has stored. So the playhead is
never above the number after the highest one stored since the buffer was last anchored, and
a packet above all of these is not behind the playhead.
-/

set_option linter.unusedSectionVars false

namespace Gemacast.Jitter

open Gemacast.Core

namespace JitterBuffer

variable {b : JitterBuffer} {K K' : ℕ} {p : RawPacket}

/-- A restart is an insertion into an empty buffer. -/
theorem insert_of_restarts (hrestart : b.Restarts p) :
    (b.insert p).1 = (JitterBuffer.new.insert p).1 := by
  obtain ⟨hi, hfar⟩ := hrestart
  have hlt : p.seqNum < b.nextPlaySeq := seqNum_lt_iff.mpr (by omega)
  have hanchor : b.anchor p = b := by simp [anchor, hi]
  have hfresh : JitterBuffer.new.anchor p =
      { b.reset with nextPlaySeq := p.seqNum, initialized := true } := rfl
  simp only [JitterBuffer.insert, hanchor, hfresh, if_pos hlt, if_pos (far_behind_iff.mpr hfar),
    UInt64.lt_irrefl, if_false]

/-- Everything stored lies below `K`, and the playhead has not gone past it. -/
structure Within (K : ℕ) (b : JitterBuffer) : Prop where
  /-- What is stored lies below. -/
  sound : b.Sound fun p => p.seq < K
  /-- The playhead of an anchored buffer lies at or below. -/
  playhead : b.initialized = true → b.playhead ≤ K

namespace Within

theorem new : JitterBuffer.new.Within K := ⟨.new, nofun⟩

theorem reset : b.reset.Within K := by
  rw [reset_eq_new]
  exact new

/-- Nothing bounds a buffer that is not anchored. -/
theorem of_not_initialized (h : b.Within K) (hi : b.initialized = false) : b.Within K' := by
  have hslots := h.sound.wellFormed.virgin hi
  refine ⟨⟨h.sound.wellFormed, h.sound.roomy, h.sound.cached, fun i p hp => ?_⟩, fun htrue => ?_⟩
  · rw [hslots] at hp
    nomatch hp
  · nomatch hi.symm.trans htrue

theorem mono (h : b.Within K) (hle : K ≤ K') : b.Within K' :=
  ⟨⟨h.sound.wellFormed, h.sound.roomy, h.sound.cached,
    fun i p hp => (h.sound.all i p hp).trans_le hle⟩, fun hi => (h.playhead hi).trans hle⟩

/-- A stored number lies below. -/
theorem stored_lt (h : b.Within K) {k : ℕ} (hk : k ∈ b.stored) : k < K := by
  obtain ⟨i, p, hp, rfl⟩ := mem_stored.mp hk
  exact h.sound.all i p hp

/-- Beside a stored packet the playhead can move on by one. -/
theorem playhead_lt (h : b.Within K) (hne : b.stored.Nonempty) : b.playhead < K := by
  obtain ⟨k, hk⟩ := hne
  exact (h.sound.wellFormed.mem_window hk).1.trans_lt (h.stored_lt hk)

theorem popNext (h : b.Within K) (hne : b.stored.Nonempty) : b.popNext.1.Within K := by
  refine ⟨h.sound.popNext, fun _ => ?_⟩
  rw [h.sound.popNext_playhead hne]
  exact h.playhead_lt hne

theorem advanceOne (h : b.Within K) (hne : b.stored.Nonempty) : b.advanceOne.Within K := by
  refine ⟨h.sound.advanceOne, fun _ => ?_⟩
  rw [h.sound.advanceOne_playhead hne]
  exact h.playhead_lt hne

theorem lowestAvailableSeq (h : b.Within K) (hne : b.stored.Nonempty) :
    b.lowestAvailableSeq.1.Within K := by
  refine ⟨h.sound.lowestAvailableSeq, fun _ => ?_⟩
  rw [lowestAvailableSeq_playhead]
  exact (h.playhead_lt hne).le

theorem fastForward (h : b.Within K) {lo : UInt64} (hlo : lo.toNat ∈ b.stored) :
    (b.fastForward lo).Within K := by
  refine ⟨h.sound.fastForward hlo, fun _ => ?_⟩
  change lo.toNat ≤ K
  exact (h.stored_lt hlo).le

/-- A packet at or above the bound is not behind the playhead. -/
theorem not_isStale (h : b.Within K) (hle : K ≤ p.seq) : ¬b.IsStale p := by
  rintro ⟨hi, hlt, -⟩
  have := h.playhead hi
  omega

/-- An insertion raises the bound to the packet's number. -/
theorem insert (h : b.Within K) (hroom : p.seq + bufferCapacity < 2 ^ 64) (hlt : p.seq < K) :
    (b.insert p).1.Within K := by
  refine ⟨h.sound.insert hroom hlt, fun _ => ?_⟩
  obtain ⟨⟨hi, -⟩, heq⟩ | ⟨-, heq, -, -, hle, -⟩ := h.sound.insert_cases hroom
  · rw [heq]
    exact h.playhead hi
  · rw [heq]
    change (b.opened p).playhead ≤ K
    exact hle.trans hlt.le

/-- After a restart only the packet's number counts. -/
theorem insert_restart (hroom : p.seq + bufferCapacity < 2 ^ 64) (hrestart : b.Restarts p) :
    (b.insert p).1.Within (p.seq + 1) := by
  rw [insert_of_restarts hrestart]
  exact new.insert hroom (Nat.lt_succ_self _)

end Within

end JitterBuffer

namespace JitterBufferManager

variable {F : Type} [Binary32 F] [FrameMark F] {C : Codec F} {m m' : JitterBufferManager C}
  {ctx : FrameContext} {K : ℕ}

section Settle

/-- The flush loop pops while something is stored. -/
theorem flushLoop_within (h : m.buffer.Within K) (flushTo fuel : ℕ) :
    (m.flushLoop flushTo fuel).buffer.Within K := by
  induction fuel generalizing m with
  | zero => exact h
  | succ fuel ih =>
    unfold flushLoop
    split
    · next hmore =>
      have hne : m.buffer.stored.Nonempty := by
        rw [← Finset.card_pos, ← h.sound.wellFormed.occupiedCount_eq]
        omega
      have hpop := h.popNext hne
      have hocc := h.sound.popNext_occupied
      have hsome := h.sound.popNext_isSome
      split
      · next buffer pkt heq =>
        rw [heq] at hpop
        exact ih hpop
      · next buffer heq =>
        simp only [heq] at hpop hocc hsome
        have hnext : m.buffer.hasNext = false := hsome.symm
        rw [hnext, if_neg Bool.false_ne_true, add_zero] at hocc
        have hne' : buffer.stored.Nonempty := by
          rw [← Finset.card_pos, ← hpop.sound.wellFormed.occupiedCount_eq]
          omega
        exact ih (hpop.advanceOne hne')
    · exact h

theorem flushWithCrossfade_within (h : m.buffer.Within K) (flushTo : ℕ) :
    (m.flushWithCrossfade flushTo).buffer.Within K := by
  rw [(m.flushWithCrossfade_loop flushTo).1]
  exact flushLoop_within (m := m.beginFlush flushTo) h flushTo bufferCapacity

theorem Settles.within (hsettle : m.Settles m') (h : m.buffer.Within K) : m'.buffer.Within K := by
  refine hsettle.preserves (P := fun a => a.buffer.Within K) (fun a b hstep ha => ?_) h
  cases hstep with
  | keep hkeep =>
    rw [hkeep.buffer]
    exact ha
  | flush flushTo => exact flushWithCrossfade_within ha flushTo

theorem settleDepth_within (h : m.buffer.Within K) (tick : Tick F) :
    (m.settleDepth tick).1.buffer.Within K := by
  obtain ⟨m', hbefore, hafter, -⟩ := m.settleDepth_cases tick
  have hm' := hbefore.within h
  rw [← (m'.resolveTarget_keeps tick).buffer] at hm'
  exact hafter.within hm'

end Settle

section Gap

theorem tryFastForwardOverGap_within (h : m.buffer.Within K) (ctx : FrameContext) :
    (m.tryFastForwardOverGap ctx).buffer.Within K := by
  obtain ⟨-, heq⟩ | ⟨hgap, lo, hlo, hcases⟩ := tryFastForwardOverGap_cases h.sound ctx
  · rw [heq]
    exact h
  have hne : m.buffer.stored.Nonempty := by
    rw [← Finset.card_pos, ← h.sound.wellFormed.occupiedCount_eq]
    exact hgap.1
  obtain ⟨-, heq⟩ | ⟨-, heq⟩ := hcases
  · rw [heq]
    exact h.lowestAvailableSeq hne
  · rw [heq, skipGapTo_buffer]
    refine (h.lowestAvailableSeq hne).fastForward ?_
    rw [JitterBuffer.lowestAvailableSeq_stored]
    exact h.sound.lowestAvailableSeq_mem hlo

theorem framePoint_within (h : m.buffer.Within K) {tick : Tick F} {p : JitterBufferManager C}
    (hp : m.framePoint tick = some (p, ctx)) : p.buffer.Within K := by
  obtain ⟨m', hg, rfl⟩ := framePoint_cases hp
  exact tryFastForwardOverGap_within
    ((gapPoint_cases hg).2.within (settleDepth_within h tick)) ctx

end Gap

section Play

/-- A pop of the next packet. -/
theorem popNext_within (h : m.buffer.Within K) (hnext : m.buffer.hasNext = true) :
    m.buffer.popNext.1.Within K :=
  h.popNext ⟨_, h.sound.wellFormed.hasNext_iff.mp hnext⟩

theorem shedLoop_within (h : m.buffer.Within K) (highLimit n : ℕ) :
    (m.shedLoop highLimit n).buffer.Within K := by
  induction n generalizing m with
  | zero => exact h
  | succ n ih =>
    unfold shedLoop
    split
    · next hmore =>
      split
      · next buffer extra hpop =>
        have hone := popNext_within h hmore.2
        rw [hpop] at hone
        exact ih hone
      · exact h
    · exact ih h

theorem stageWindow_within (h : m.buffer.Within K) : m.stageWindow.buffer.Within K := by
  unfold stageWindow
  dsimp only
  split
  · next hmore =>
    split
    · next buffer nextPkt hpop =>
      have hone := popNext_within h hmore.1
      rw [hpop] at hone
      exact hone
    · exact h
  · exact h

theorem Scales.within {answer : JitterBufferManager C × Bool} (hscales : m.Scales ctx answer)
    (h : m.buffer.Within K) : answer.1.buffer.Within K := by
  cases hscales with
  | shed highLimit => exact shedLoop_within (m := m.emit .shed m.decoder.decoded) h highLimit _
  | drained isFast rms =>
    have hstage := stageWindow_within h
    unfold drain
    dsimp only
    split
    · split <;> exact hstage
    · exact hstage
  | grown => exact h
  | stretched rms =>
    unfold stretch
    dsimp only
    split <;> exact h
  | left => exact h

theorem playPrepared_within (h : m.buffer.Within K) (ctx : FrameContext) :
    (m.playPrepared ctx).buffer.Within K := by
  obtain ⟨f, -, hscales⟩ := m.runTimescale_cases ctx
  obtain ⟨_, _, heq⟩ := m.playPrepared_eq ctx
  rw [heq]
  exact hscales.within (K := K) h

theorem playNextFrame_within (h : m.buffer.Within K) (hnext : m.buffer.hasNext = true)
    (ctx : FrameContext) : (m.playNextFrame ctx).buffer.Within K := by
  obtain ⟨pkt, control, flow, captured, -, -, -, -, hcaptured, -, hplay⟩ :=
    frames_of_hasNext ctx hnext
  obtain ⟨hbuffer, -⟩ := captured.maskSplice_keeps
  have hpopped : captured.buffer = m.buffer.popNext.1 := by
    rw [hcaptured]
    rfl
  rw [hplay]
  refine playPrepared_within ?_ ctx
  rw [hbuffer, hpopped]
  exact popNext_within h hnext

theorem hold_within (h : m.buffer.Within K) : m.hold.buffer.Within K := by
  obtain ⟨-, -, flow, heq⟩ | ⟨flow, heq, -⟩ := m.hold_cases
  · rw [heq]
    exact JitterBuffer.Within.reset (b := m.buffer)
  · rw [heq, ({ m with flow } : JitterBufferManager C).generatePlc_keeps.1]
    exact h

theorem handleMissingFrame_within (h : m.buffer.Within K) (ctx : FrameContext) :
    (m.handleMissingFrame ctx).buffer.Within K := by
  obtain ⟨-, flow, heq⟩ | ⟨-, flow, heq, -⟩ := m.handleMissingFrame_cases ctx
  · rw [heq]
    exact JitterBuffer.Within.reset (b := m.buffer)
  · rw [heq, ({ m with flow } : JitterBufferManager C).generatePlc_keeps.1]
    exact h

/-- A callback moves the playhead only past packets that are stored. -/
theorem processNextFrame_within (h : m.buffer.Within K) (tick : Tick F) :
    (m.processNextFrame tick).1.buffer.Within K := by
  obtain ⟨-, -, -, heq⟩ | ⟨p, ctx, hp, heq⟩ := m.processNextFrame_cases tick
  · rw [heq]
    exact hold_within (settleDepth_within h tick)
  · have hs := framePoint_within h hp
    rw [heq, playOrMiss]
    split
    · next hnext => exact playNextFrame_within hs hnext ctx
    · exact handleMissingFrame_within hs ctx

end Play

section Ingest

/-- A packet the statistics observe reaches the buffer, another one does not. -/
theorem ingestPacket_buffer (pkt : RawPacket) : (m.ingestPacket pkt).buffer =
    if (m.stats.observe pkt.seqNum pkt.arrivalTime).2 then (m.buffer.insert pkt).1
    else m.buffer := by
  unfold ingestPacket
  split
  · next heq => rw [heq, if_neg Bool.false_ne_true]
  · next heq =>
    rw [heq, if_pos rfl]
    split
    · next hinsert => rw [hinsert]
    · next hinsert =>
      rw [hinsert]
      rfl
    · next hinsert => rw [hinsert]

end Ingest

end JitterBufferManager

end Gemacast.Jitter
