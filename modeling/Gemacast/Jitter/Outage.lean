import Mathlib.Data.Finset.Max
import Gemacast.Jitter.GapSkip
import Gemacast.Jitter.Ledger
import Gemacast.Jitter.Starvation

/-!
# Outages

No packet arrives any more. Every callback that is not held over a partly filled
buffer comes closer to the stream reset: it plays a packet, waits out a part of the
tolerance of a gap, or counts a missing frame. The potential of a state bounds how
often it can do the first two. A callback that is held over a partly filled buffer
does none of this, and when nothing arrives the next one is held as well.
-/

set_option linter.unusedSectionVars false

namespace Gemacast.Jitter

open Gemacast.Core

namespace JitterBuffer

variable {b b' : JitterBuffer} {Q : RawPacket → Prop}

/-- The stored numbers with a gap right before them. -/
def gaps (b : JitterBuffer) : Finset ℕ := b.stored.filter fun k => k ≠ b.playhead ∧ k - 1 ∉ b.stored

theorem mem_gaps {k : ℕ} : k ∈ b.gaps ↔ k ∈ b.stored ∧ k ≠ b.playhead ∧ k - 1 ∉ b.stored :=
  Finset.mem_filter

/-- Moving on opens no gap. -/
theorem Onwards.gaps_subset (h : b.Onwards b') : b'.gaps ⊆ b.gaps := by
  intro k hk
  obtain ⟨hstored, hne, hbefore⟩ := mem_gaps.mp hk
  have hmem := hstored
  rw [h.stored, Finset.mem_filter] at hmem
  have hplay := h.playhead
  refine mem_gaps.mpr ⟨hmem.1, by omega, fun hin => hbefore ?_⟩
  rw [h.stored]
  exact Finset.mem_filter.mpr ⟨hin, by omega⟩

/-- Moving on over the gap at the playhead closes it. -/
theorem Onwards.gaps_card_lt (h : b.Onwards b') (hw : b.WellFormed) (hne : b.stored.Nonempty)
    (hgap : b.playhead ∉ b.stored) (hmoved : b'.playhead ∈ b'.stored ∨ b'.stored ≠ b.stored) :
    b'.gaps.card < b.gaps.card := by
  obtain ⟨lo, hlo, hleast⟩ := b.stored.exists_min_image id hne
  have hplay : b.playhead < lo := by
    have hle := (hw.mem_window hlo).1
    have hdiff : b.playhead ≠ lo := fun heq => hgap (heq ▸ hlo)
    omega
  have hopen : lo ∈ b.gaps := by
    refine mem_gaps.mpr ⟨hlo, by omega, fun hin => ?_⟩
    have := hleast _ hin
    simp only [id_eq] at this
    omega
  have hclosed : lo ∉ b'.gaps := by
    intro hin
    obtain ⟨hstored, hother, -⟩ := mem_gaps.mp hin
    have hbelow : b'.playhead ≤ lo := by
      rw [h.stored] at hstored
      exact (Finset.mem_filter.mp hstored).2
    have hsame : b'.stored = b.stored := by
      rw [h.stored]
      exact Finset.filter_true_of_mem fun k hk => hbelow.trans (hleast k hk)
    rcases hmoved with hnext | hless
    · rw [hsame] at hnext
      have := hleast _ hnext
      simp only [id_eq] at this
      omega
    · exact hless hsame
  exact Finset.card_lt_card
    ⟨h.gaps_subset, fun hsub => hclosed (hsub hopen)⟩

/-- At a gap there is one. -/
theorem WellFormed.gaps_pos (hw : b.WellFormed) (hne : b.stored.Nonempty)
    (hgap : b.playhead ∉ b.stored) : 0 < b.gaps.card := by
  obtain ⟨lo, hlo, hleast⟩ := b.stored.exists_min_image id hne
  refine Finset.card_pos.mpr ⟨lo, mem_gaps.mpr ⟨hlo, fun heq => hgap (heq ▸ hlo), fun hin => ?_⟩⟩
  have hle := (hw.mem_window hlo).1
  have hdiff : b.playhead ≠ lo := fun heq => hgap (heq ▸ hlo)
  have := hleast _ hin
  simp only [id_eq] at this
  omega

end JitterBuffer

namespace JitterBufferManager

variable {F : Type} [Binary32 F] [FrameMark F] {C : Codec F} {m m' : JitterBufferManager C}
  {ctx : FrameContext} {Q : RawPacket → Prop}

/-- Callbacks the link waits for a reordered packet, at most. -/
def tolerance (m : JitterBufferManager C) : ℕ := reorderToleranceFor m.networkLink false

theorem reorderToleranceFor_le (link : NetworkLink) (isNoBuffer : Bool) :
    reorderToleranceFor link isNoBuffer ≤ reorderToleranceFor link false := by
  cases isNoBuffer with
  | false => exact le_rfl
  | true => exact Nat.zero_le _

section Potential

/-- Packets to play and callbacks to wait at the gaps between them. -/
def backlog (m : JitterBufferManager C) : ℕ :=
  m.buffer.occupiedCount + (m.tolerance - 1) * m.buffer.gaps.card

instance (m : JitterBufferManager C) : Decidable m.AtGap := inferInstanceAs (Decidable (_ ∧ _))

/-- Callbacks already waited at the gap at the playhead. -/
def spent (m : JitterBufferManager C) : ℕ :=
  if m.AtGap then min m.flow.gapHoldCount (m.tolerance - 1) else 0

/-- Callbacks that can still play a packet or wait at a gap. -/
def potential (m : JitterBufferManager C) : ℕ := m.backlog - m.spent

theorem potential_le_backlog : m.potential ≤ m.backlog := Nat.sub_le _ _

theorem atGap_iff (h : m.buffer.Sound Q) :
    m.AtGap ↔ m.buffer.stored.Nonempty ∧ m.buffer.playhead ∉ m.buffer.stored := by
  unfold AtGap
  rw [h.wellFormed.occupiedCount_eq, Finset.card_pos, ← h.wellFormed.hasNext_iff,
    Bool.not_eq_true]

theorem potential_of_not_atGap (hgap : ¬m.AtGap) : m.potential = m.backlog := by
  rw [potential, spent, if_neg hgap, Nat.sub_zero]

/-- What was waited at a gap is less than what its gaps cost. -/
theorem spent_le (h : m.buffer.Sound Q) :
    m.spent ≤ (m.tolerance - 1) * m.buffer.gaps.card := by
  unfold spent
  split
  · rename_i hgap
    obtain ⟨hne, hmissing⟩ := (atGap_iff h).mp hgap
    have hpos := h.wellFormed.gaps_pos hne hmissing
    exact (min_le_right _ _).trans (Nat.le_mul_of_pos_right _ hpos)
  · exact Nat.zero_le _

theorem occupiedCount_le_potential (h : m.buffer.Sound Q) :
    m.buffer.occupiedCount ≤ m.potential := by
  have := spent_le h
  rw [potential, backlog]
  omega

/-- Moving on never adds to the backlog. -/
theorem backlog_le (honwards : m.buffer.Onwards m'.buffer) (h : m.buffer.Sound Q)
    (h' : m'.buffer.Sound Q) (hlink : m'.networkLink = m.networkLink) :
    m'.backlog ≤ m.backlog := by
  have hocc : m'.buffer.occupiedCount ≤ m.buffer.occupiedCount := by
    rw [h'.wellFormed.occupiedCount_eq, h.wellFormed.occupiedCount_eq]
    exact Finset.card_le_card honwards.subset
  have hgaps := Finset.card_le_card honwards.gaps_subset
  have htolerance : m'.tolerance = m.tolerance := congrArg (reorderToleranceFor · false) hlink
  rw [backlog, backlog, htolerance]
  exact Nat.add_le_add hocc (Nat.mul_le_mul_left _ hgaps)

/-- Leaving the gap at the playhead costs the potential at least what is left of it. -/
theorem backlog_le_potential (honwards : m.buffer.Onwards m'.buffer) (h : m.buffer.Sound Q)
    (h' : m'.buffer.Sound Q) (hlink : m'.networkLink = m.networkLink)
    (hmoved : m.AtGap → m'.buffer.playhead ∈ m'.buffer.stored ∨
      m'.buffer.stored ≠ m.buffer.stored) : m'.backlog ≤ m.potential := by
  have hle := backlog_le honwards h h' hlink
  by_cases hgap : m.AtGap
  · obtain ⟨hne, hmissing⟩ := (atGap_iff h).mp hgap
    have hgaps := honwards.gaps_card_lt h.wellFormed hne hmissing (hmoved hgap)
    have hocc : m'.buffer.occupiedCount ≤ m.buffer.occupiedCount := by
      rw [h'.wellFormed.occupiedCount_eq, h.wellFormed.occupiedCount_eq]
      exact Finset.card_le_card honwards.subset
    have htolerance : m'.tolerance = m.tolerance := congrArg (reorderToleranceFor · false) hlink
    have hspent : m.spent ≤ m.tolerance - 1 := by
      rw [spent, if_pos hgap]
      exact min_le_right _ _
    have hmul := Nat.mul_le_mul_left (m.tolerance - 1) (Nat.succ_le_of_lt hgaps)
    rw [Nat.mul_succ] at hmul
    rw [potential, backlog, backlog, htolerance]
    omega
  · rwa [potential_of_not_atGap hgap]

/-- Moving on without losing what was waited never adds to the potential. -/
theorem potential_le (honwards : m.buffer.Onwards m'.buffer) (h : m.buffer.Sound Q)
    (h' : m'.buffer.Sound Q) (hlink : m'.networkLink = m.networkLink)
    (hheld : m.flow.gapHoldCount ≤ m'.flow.gapHoldCount) : m'.potential ≤ m.potential := by
  by_cases hmoved : m.AtGap → m'.buffer.playhead ∈ m'.buffer.stored ∨
      m'.buffer.stored ≠ m.buffer.stored
  · exact potential_le_backlog.trans (backlog_le_potential honwards h h' hlink hmoved)
  · -- The same gap is still at the playhead.
    rw [Classical.not_imp, not_or, not_ne_iff] at hmoved
    obtain ⟨hgap, hmissing, hsame⟩ := hmoved
    have hgap' : m'.AtGap := (atGap_iff h').mpr ⟨hsame ▸ ((atGap_iff h).mp hgap).1, hmissing⟩
    have hle := backlog_le honwards h h' hlink
    have htolerance : m'.tolerance = m.tolerance := congrArg (reorderToleranceFor · false) hlink
    rw [potential, potential, spent, spent, if_pos hgap, if_pos hgap', htolerance]
    omega

end Potential

section Progress

/-- Callbacks until the outage is over: those that may still play or wait, then those
the link may miss. -/
def remaining (m : JitterBufferManager C) : ℕ :=
  if m.buffer.occupiedCount = 0 then maxMissingFor m.networkLink - m.flow.missingCount
  else m.potential + maxMissingFor m.networkLink

theorem remaining_le (m : JitterBufferManager C) :
    m.remaining ≤ m.backlog + maxMissingFor m.networkLink := by
  have := m.potential_le_backlog
  unfold remaining
  split <;> omega

theorem remaining_of_empty (h : m.buffer.occupiedCount = 0) :
    m.remaining = maxMissingFor m.networkLink - m.flow.missingCount := if_pos h

theorem remaining_of_stored (h : m.buffer.occupiedCount ≠ 0) :
    m.remaining = m.potential + maxMissingFor m.networkLink := if_neg h

/-- With packets left the potential bounds what remains. -/
theorem remaining_lt_of_potential_lt (hlt : m'.potential < m.potential)
    (hstored : m.buffer.occupiedCount ≠ 0) (hlink : m'.networkLink = m.networkLink) :
    m'.remaining < m.remaining := by
  rw [remaining_of_stored hstored, ← hlink]
  unfold remaining
  split <;> omega

/-- A missing frame over an empty buffer comes one closer to the end. -/
theorem remaining_lt_of_missing (hempty : m'.buffer.occupiedCount = 0)
    (hmissing : m'.flow.missingCount = m.flow.missingCount + 1)
    (hunder : m.flow.missingCount + 1 ≤ maxMissingFor m.networkLink)
    (hlink : m'.networkLink = m.networkLink) : m'.remaining < m.remaining := by
  rw [remaining_of_empty hempty, hlink, hmissing]
  unfold remaining
  split <;> omega

/-- Settling the depth never adds to what remains. -/
theorem Settled.remaining_le (hsettled : m.Settled m') (honwards : m.buffer.Onwards m'.buffer)
    (h : m.buffer.Sound Q) (h' : m'.buffer.Sound Q) : m'.remaining ≤ m.remaining := by
  have hpotential := potential_le honwards h h' hsettled.networkLink hsettled.gapHoldCount.ge
  have hocc : m'.buffer.occupiedCount ≤ m.buffer.occupiedCount := by
    rw [h'.wellFormed.occupiedCount_eq, h.wellFormed.occupiedCount_eq]
    exact Finset.card_le_card honwards.subset
  have hmissing := hsettled.missingCount
  have hlink := hsettled.networkLink
  unfold remaining
  rw [hmissing, hlink]
  split <;> split <;> omega

/-- The state a callback holds in: the playhead is held, with packets stored but fewer
than release it. -/
def HoldsPartlyFilled (s : JitterBufferManager C) (ctx : FrameContext) : Prop :=
  s.flow.isPrebuffering = true ∧ s.buffer.occupiedCount ≠ 0 ∧
    s.buffer.occupiedCount < s.unpauseThreshold ctx

/-- Playing lowers the potential of the state at the gap. -/
theorem playNextFrame_potential {g : JitterBufferManager C} (h : g.buffer.Sound Q)
    (hnext : (g.tryFastForwardOverGap ctx).buffer.hasNext = true) :
    ((g.tryFastForwardOverGap ctx).playNextFrame ctx).potential < g.potential := by
  obtain ⟨hs, honwards⟩ := tryFastForwardOverGap_spec h ctx
  obtain ⟨_, _, _, _, _, heq, -⟩ := g.tryFastForwardOverGap_eq ctx
  have hlink : (g.tryFastForwardOverGap ctx).networkLink = g.networkLink := by rw [heq]
  obtain ⟨hspends, hfewer⟩ := playNextFrame_spends hs hnext ctx
  obtain ⟨-, -, hlink'⟩ := playNextFrame_keeps hnext ctx
  have hreached := backlog_le_potential honwards h hs hlink fun _ =>
    Or.inl (hs.wellFormed.hasNext_iff.mp hnext)
  have hgaps := Finset.card_le_card hspends.onwards.gaps_subset
  have htolerance := congrArg (reorderToleranceFor · false) hlink'
  have hmul := Nat.mul_le_mul_left ((g.tryFastForwardOverGap ctx).tolerance - 1) hgaps
  refine lt_of_lt_of_le (lt_of_le_of_lt potential_le_backlog ?_) hreached
  rw [backlog, backlog]
  change _ + (reorderToleranceFor _ false - 1) * _ < _
  rw [htolerance]
  exact Nat.add_lt_add_of_lt_of_le hfewer hmul

/-- Waiting at a gap lowers the potential. -/
theorem handleMissingFrame_potential {g : JitterBufferManager C} {flow : PlaybackFlow F}
    (h : g.buffer.Sound Q) (hmiss : (g.tryFastForwardOverGap ctx).buffer.hasNext = false)
    (hstored : (g.tryFastForwardOverGap ctx).buffer.occupiedCount ≠ 0)
    (hheld : flow.gapHoldCount = (g.tryFastForwardOverGap ctx).flow.gapHoldCount) :
    ({ g.tryFastForwardOverGap ctx with flow }.generatePlc).potential < g.potential := by
  obtain ⟨hbuffer, -, -, hlink, -, hhold, -⟩ :=
    generatePlc_keeps { g.tryFastForwardOverGap ctx with flow }
  rcases tryFastForwardOverGap_cases h ctx with
    ⟨hgap, heq⟩ | ⟨hgap, lo, hlo, ⟨hwait, heq⟩ | ⟨-, heq⟩⟩
  · -- Away from a gap the next packet is there.
    rw [heq] at hmiss hstored
    exact absurd ⟨Nat.pos_of_ne_zero hstored, hmiss⟩ hgap
  · rw [heq] at hbuffer hlink hhold hheld ⊢
    have hsame : ({ g.waited with flow }.generatePlc).buffer.stored = g.buffer.stored := by
      rw [hbuffer]
      exact JitterBuffer.lowestAvailableSeq_stored
    have hplayhead : ({ g.waited with flow }.generatePlc).buffer.playhead = g.buffer.playhead := by
      rw [hbuffer]
      exact JitterBuffer.lowestAvailableSeq_playhead
    have hs : ({ g.waited with flow }.generatePlc).buffer.Sound Q := by
      rw [hbuffer]
      exact h.lowestAvailableSeq
    obtain ⟨hne, hmissing⟩ := (atGap_iff h).mp hgap
    have hgap' : ({ g.waited with flow }.generatePlc).AtGap :=
      (atGap_iff hs).mpr ⟨hsame ▸ hne, by rw [hsame, hplayhead]; exact hmissing⟩
    have htolerance : ({ g.waited with flow }.generatePlc).tolerance = g.tolerance :=
      congrArg (reorderToleranceFor · false) hlink
    have hgaps : ({ g.waited with flow }.generatePlc).buffer.gaps = g.buffer.gaps := by
      rw [JitterBuffer.gaps, hsame, hplayhead, JitterBuffer.gaps]
    have hocc : ({ g.waited with flow }.generatePlc).buffer.occupiedCount =
        g.buffer.occupiedCount := by
      rw [hs.wellFormed.occupiedCount_eq, h.wellFormed.occupiedCount_eq, hsame]
    have hcount : ({ g.waited with flow }.generatePlc).flow.gapHoldCount =
        g.flow.gapHoldCount + 1 := hhold.trans hheld
    have hlate : g.flow.gapHoldCount + 1 < g.tolerance := by
      have := mt Or.inr hwait
      exact (Nat.lt_of_not_le this).trans_le (reorderToleranceFor_le _ _)
    have hspent : ({ g.waited with flow }.generatePlc).spent = g.flow.gapHoldCount + 1 := by
      rw [spent, if_pos hgap', hcount, htolerance]
      omega
    have hspent' : g.spent = g.flow.gapHoldCount := by
      rw [spent, if_pos hgap]
      omega
    have hbound := spent_le hs
    have hbacklog : ({ g.waited with flow }.generatePlc).backlog = g.backlog := by
      rw [backlog, backlog, hocc, htolerance, hgaps]
    have hfits : ({ g.waited with flow }.generatePlc).spent ≤
        ({ g.waited with flow }.generatePlc).backlog :=
      hbound.trans (Nat.le_add_left _ _)
    rw [potential, potential, hbacklog, hspent, hspent']
    rw [hbacklog, hspent] at hfits
    omega
  · -- A skip ends at a stored packet.
    rw [heq, skipGapTo_buffer] at hmiss
    have hmem : lo.toNat ∈ g.buffer.lowestAvailableSeq.1.stored := by
      rw [JitterBuffer.lowestAvailableSeq_stored]
      exact h.lowestAvailableSeq_mem hlo
    have hs := h.lowestAvailableSeq.fastForward hmem
    obtain ⟨hle, hfit⟩ := h.lowestAvailableSeq.fastForward_fits hmem
    have hhere : (g.buffer.lowestAvailableSeq.1.fastForward lo).playhead ∈
        (g.buffer.lowestAvailableSeq.1.fastForward lo).stored := by
      rw [h.lowestAvailableSeq.wellFormed.fastForward_stored hle (Or.inl hfit)]
      exact Finset.mem_filter.mpr ⟨hmem, le_rfl⟩
    change (g.buffer.lowestAvailableSeq.1.fastForward lo).hasNext = false at hmiss
    rw [hs.wellFormed.hasNext_iff.mpr hhere] at hmiss
    nomatch hmiss

/-- A held callback over an empty buffer, short of a reset, comes one closer to the
end; over a partly filled one it stays where it is. -/
theorem hold_remaining (h : m.buffer.Sound Q) :
    (⟨.resetSilence, silence.val⟩ ∈ m.hold.emissions) ∨ m.hold.remaining ≤ m.remaining ∧
      (m.buffer.occupiedCount = 0 → m.hold.remaining < m.remaining) := by
  obtain ⟨-, -, flow, heq⟩ | ⟨flow, heq, hcase⟩ := m.hold_cases
  · refine Or.inl ?_
    rw [heq]
    exact List.mem_append_right _ (List.mem_singleton_self _)
  · refine Or.inr ?_
    obtain ⟨hbuffer, -, -, hlink, hmissing, hheld, -⟩ := generatePlc_keeps { m with flow }
    rw [heq]
    obtain ⟨hempty, hunder, hnext⟩ | ⟨hstored, hsame, hgap, -⟩ := hcase
    · have hlt : ({ m with flow }.generatePlc).remaining < m.remaining :=
        remaining_lt_of_missing (by rw [hbuffer]; exact hempty) (hmissing.trans hnext) hunder hlink
      exact ⟨hlt.le, fun _ => hlt⟩
    · have hs : ({ m with flow }.generatePlc).buffer.Sound Q := by
        rw [hbuffer]
        exact h
      have honwards : m.buffer.Onwards ({ m with flow }.generatePlc).buffer := by
        rw [hbuffer]
        exact .refl h.wellFormed
      have hpotential := potential_le honwards h hs hlink (hheld.trans hgap).ge
      refine ⟨?_, fun hempty => absurd hempty hstored⟩
      rw [remaining_of_stored (by rw [hbuffer]; exact hstored), remaining_of_stored hstored, hlink]
      exact Nat.add_le_add_right hpotential _

/-- A missing frame, short of a reset, comes one closer to the end. -/
theorem handleMissingFrame_remaining {g : JitterBufferManager C} (h : g.buffer.Sound Q)
    (hmiss : (g.tryFastForwardOverGap ctx).buffer.hasNext = false) :
    (⟨.resetSilence, silence.val⟩ ∈
        ((g.tryFastForwardOverGap ctx).handleMissingFrame ctx).emissions) ∨
      ((g.tryFastForwardOverGap ctx).handleMissingFrame ctx).remaining < g.remaining := by
  obtain ⟨hs, honwards⟩ := tryFastForwardOverGap_spec h ctx
  obtain ⟨_, _, _, _, _, heq, -, -, hcount, -⟩ := g.tryFastForwardOverGap_eq ctx
  have hlink : (g.tryFastForwardOverGap ctx).networkLink = g.networkLink := by rw [heq]
  have hcount' : (g.tryFastForwardOverGap ctx).flow.missingCount = g.flow.missingCount := by
    rw [heq]
    exact hcount
  obtain ⟨-, flow, hreset⟩ | ⟨hunder, flow, hplc, hnext, hheld⟩ :=
    (g.tryFastForwardOverGap ctx).handleMissingFrame_cases ctx
  · refine Or.inl ?_
    rw [hreset]
    exact List.mem_append_right _ (List.mem_singleton_self _)
  · refine Or.inr ?_
    obtain ⟨hbuffer, -, -, hlink', hmissing, -⟩ :=
      generatePlc_keeps { g.tryFastForwardOverGap ctx with flow }
    rw [hplc]
    by_cases hempty : (g.tryFastForwardOverGap ctx).buffer.occupiedCount = 0
    · rw [hlink, hcount'] at hunder
      exact remaining_lt_of_missing (by rw [hbuffer]; exact hempty)
        (hmissing.trans (hnext.trans (by rw [hcount']))) hunder (hlink'.trans hlink)
    · have hlt := handleMissingFrame_potential h hmiss hempty (hheld hempty)
      refine remaining_lt_of_potential_lt hlt (fun hzero => hempty ?_) (hlink'.trans hlink)
      rw [hs.wellFormed.occupiedCount_eq, Finset.card_eq_zero]
      rw [h.wellFormed.occupiedCount_eq, Finset.card_eq_zero] at hzero
      exact Finset.subset_empty.mp (hzero ▸ honwards.subset)

/-- A callback, short of a reset, comes one closer to the end, unless it holds over a
partly filled buffer; then it stays where it is. -/
theorem processNextFrame_remaining (h : m.buffer.Sound Q) (tick : Tick F) :
    (⟨.resetSilence, silence.val⟩ ∈ (m.processNextFrame tick).1.emissions) ∨
      (m.processNextFrame tick).1.remaining ≤ m.remaining ∧
        (¬(m.settleDepth tick).1.HoldsPartlyFilled (m.settleDepth tick).2.1 →
          (m.processNextFrame tick).1.remaining < m.remaining) := by
  obtain ⟨hs, honwards⟩ := settleDepth_sound h tick
  have hsettled := m.settleDepth_settled tick
  have hle := hsettled.remaining_le honwards h hs
  rcases m.processNextFrame_cases tick with ⟨-, hprebuffering, hbelow, heq⟩ | ⟨p, ctx, hp, heq⟩
  · rw [heq]
    refine (hold_remaining hs).imp id fun ⟨hkeep, hfall⟩ => ⟨hkeep.trans hle, fun hfree => ?_⟩
    refine (hfall ?_).trans_le hle
    by_contra hstored
    exact hfree ⟨hprebuffering, hstored, hbelow⟩
  · obtain ⟨g, hg, rfl⟩ := framePoint_cases hp
    obtain ⟨-, hsettles⟩ := gapPoint_cases hg
    obtain ⟨hgs, honwards'⟩ := hsettles.sound hs
    have hle' := (hsettles.settled.remaining_le honwards' hs hgs).trans hle
    rw [heq, playOrMiss]
    split
    · rename_i hnext
      have hlt := playNextFrame_potential hgs hnext
      obtain ⟨_, _, _, _, _, hgap, -⟩ := g.tryFastForwardOverGap_eq ctx
      obtain ⟨-, -, hlink⟩ := playNextFrame_keeps hnext ctx
      have hstored : g.buffer.occupiedCount ≠ 0 := by
        obtain ⟨hps, hon⟩ := tryFastForwardOverGap_spec hgs ctx
        have hmem := hon.subset (hps.wellFormed.hasNext_iff.mp hnext)
        rw [hgs.wellFormed.occupiedCount_eq]
        exact Finset.card_ne_zero_of_mem hmem
      have hfall := remaining_lt_of_potential_lt hlt hstored (hlink.trans (by rw [hgap]))
      exact Or.inr ⟨(hfall.trans_le hle').le, fun _ => hfall.trans_le hle'⟩
    · rename_i hmiss
      refine (handleMissingFrame_remaining hgs (Bool.not_eq_true _ ▸ hmiss)).imp id fun hfall => ?_
      exact ⟨(hfall.trans_le hle').le, fun _ => hfall.trans_le hle'⟩

end Progress

section Outage

/-- Nothing arrives and nothing is reset from outside. -/
def Input.Quiet : Input F → Prop
  | .callback _ | .consume _ => True
  | _ => False

/-- The step refilled the playback buffer. -/
def Refills (e : PlayerEvent C) : Prop := (e.before.refill e.input).isSome

instance : DecidablePred (Refills (C := C)) := fun _ => inferInstanceAs (Decidable (_ = _))

/-- The refill held the playhead over a partly filled buffer. -/
def HeldPartlyFilled (e : PlayerEvent C) : Prop :=
  ∃ tick ∈ e.before.refill e.input,
    (settleDepth { e.before with emissions := [] } tick).1.HoldsPartlyFilled
      (settleDepth { e.before with emissions := [] } tick).2.1

/-- The refill reset the stream. -/
def ResetsStream (e : PlayerEvent C) : Prop :=
  Refills e ∧ ⟨.resetSilence, silence.val⟩ ∈ e.after.emissions

/-- A quiet step, short of a reset, never adds to what remains; a refill that is not
held over a partly filled buffer comes one closer to the end. -/
theorem step_remaining (M : Machine (JitterBufferManager C) (Input F) (Option DepthLine))
    (hM : M.step = step) (h : m.buffer.Sound Q) {i : Input F} (hquiet : i.Quiet)
    (hfree : ¬HeldPartlyFilled (M.eventAt m i)) (hgoal : ¬ResetsStream (M.eventAt m i)) :
    (M.step m i).1.remaining + (if Refills (M.eventAt m i) then 1 else 0) ≤ m.remaining := by
  cases hrefill : m.refill i with
  | some tick =>
    have hrefills : Refills (M.eventAt m i) := by
      rw [Refills, Machine.eventAt_before, Machine.eventAt_input, hrefill]
      rfl
    have hstep : (M.step m i).1 = (processNextFrame { m with emissions := [] } tick).1 := by
      rw [hM, step_of_refill hrefill]
    rw [if_pos hrefills, hstep]
    rcases processNextFrame_remaining (m := { m with emissions := [] }) h tick with
      hreset | ⟨-, hfall⟩
    · refine absurd ⟨hrefills, ?_⟩ hgoal
      rw [Machine.eventAt_after, hstep]
      exact hreset
    · exact hfall fun hheld => hfree ⟨tick, hrefill, hheld⟩
  | none =>
    have hrefills : ¬Refills (M.eventAt m i) := by
      rw [Refills, Machine.eventAt_before, Machine.eventAt_input, hrefill]
      simp
    rw [if_neg hrefills, add_zero, hM]
    cases i with
    | ingest _ | reset => exact absurd hquiet id
    | consume _ => exact le_rfl
    | callback tick =>
      have hfull : ¬m.playbackBuf.isEmpty = true := by
        intro hempty
        rw [refill, if_pos hempty] at hrefill
        nomatch hrefill
      unfold step
      dsimp only
      rw [if_neg hfull]

/-- An outage of `n` callbacks from `s`, each drained by the device. -/
def drainedOutage (s : JitterBufferManager C) (tick : Tick F) : ℕ → List (Input F)
  | 0 => []
  | n + 1 =>
    let s' := (processNextFrame { s with emissions := [] } tick).1
    .callback tick :: .consume s'.playbackBuf.length ::
      drainedOutage { s' with playbackBuf := [] } tick n

theorem drainedOutage_quiet (s : JitterBufferManager C) (tick : Tick F) (n : ℕ) :
    ∀ i ∈ s.drainedOutage tick n, i.Quiet := by
  induction n generalizing s with
  | zero => simp [drainedOutage]
  | succ n ih =>
    intro i hi
    rcases List.mem_cons.mp hi with rfl | hi
    · trivial
    · rcases List.mem_cons.mp hi with rfl | hi
      · trivial
      · exact ih _ i hi

/-- The state after one drained callback. -/
def drained (s : JitterBufferManager C) (tick : Tick F) : JitterBufferManager C :=
  { (processNextFrame { s with emissions := [] } tick).1 with playbackBuf := [] }

/-- The events of an outage are its callbacks, each followed by its drain. -/
theorem eventsFrom_drainedOutage
    (M : Machine (JitterBufferManager C) (Input F) (Option DepthLine)) (hM : M.step = step)
    (s : JitterBufferManager C) (hs : s.playbackBuf = []) (tick : Tick F) (n : ℕ) :
    ∃ e e' : PlayerEvent C, (Refills e ∧ ¬Refills e') ∧
      e.before = s ∧ e.input = .callback tick ∧
      e.after = (processNextFrame { s with emissions := [] } tick).1 ∧
      M.eventsFrom s (s.drainedOutage tick (n + 1)) =
        e :: e' :: M.eventsFrom (s.drained tick) ((s.drained tick).drainedOutage tick n) := by
  have hrefill : s.refill (.callback tick) = some tick := if_pos (by rw [hs]; rfl)
  have hstep : (M.step s (.callback tick)).1 =
      (processNextFrame { s with emissions := [] } tick).1 := by
    rw [hM, step_of_refill hrefill]
  refine ⟨M.eventAt s (.callback tick), M.eventAt (M.step s (.callback tick)).1
    (.consume (processNextFrame { s with emissions := [] } tick).1.playbackBuf.length),
    ⟨?_, ?_⟩, rfl, rfl, hstep, ?_⟩
  · rw [Refills, Machine.eventAt_before, Machine.eventAt_input, hrefill]
    rfl
  · rw [Refills, Machine.eventAt_input]
    exact Bool.false_ne_true
  · have hdrained : (M.step (M.step s (.callback tick)).1
        (.consume (processNextFrame { s with emissions := [] } tick).1.playbackBuf.length)).1 =
        s.drained tick := by
      rw [hstep, hM]
      simp only [step, drained, List.drop_length]
    rw [drainedOutage, Machine.eventsFrom_cons, Machine.eventsFrom_cons, hdrained]
    rfl

/-- Every callback of a drained outage refills. -/
theorem countP_drainedOutage (M : Machine (JitterBufferManager C) (Input F) (Option DepthLine))
    (hM : M.step = step) (s : JitterBufferManager C) (hs : s.playbackBuf = []) (tick : Tick F)
    (n : ℕ) : (M.eventsFrom s (s.drainedOutage tick n)).countP (fun e => Refills e) = n := by
  induction n generalizing s with
  | zero => rfl
  | succ n ih =>
    obtain ⟨e, e', ⟨hrefills, hdrain⟩, -, -, -, heq⟩ := eventsFrom_drainedOutage M hM s hs tick n
    rw [heq, List.countP_cons_of_pos (by simpa using hrefills),
      List.countP_cons_of_neg (by simpa using hdrain), ih (s.drained tick) rfl]

/-- Over an empty buffer a callback leaves it empty and holds nothing partly filled. -/
theorem processNextFrame_empty (h : m.buffer.Sound Q) (hempty : m.buffer.occupiedCount = 0)
    (tick : Tick F) :
    (m.processNextFrame tick).1.buffer.occupiedCount = 0 ∧
      ¬(m.settleDepth tick).1.HoldsPartlyFilled (m.settleDepth tick).2.1 := by
  have hnone : ∀ {b b' : JitterBuffer}, b.WellFormed → b'.WellFormed → b.Onwards b' →
      b.occupiedCount = 0 → b'.occupiedCount = 0 := by
    intro b b' hw hw' honwards hzero
    rw [hw.occupiedCount_eq, Finset.card_eq_zero] at hzero
    rw [hw'.occupiedCount_eq, Finset.card_eq_zero, ← Finset.subset_empty, ← hzero]
    exact honwards.subset
  obtain ⟨hs, honwards⟩ := settleDepth_sound h tick
  have hsettled := hnone h.wellFormed hs.wellFormed honwards hempty
  refine ⟨?_, fun hheld => hheld.2.1 hsettled⟩
  rcases m.processNextFrame_cases tick with ⟨-, -, -, heq⟩ | ⟨p, ctx, hp, heq⟩
  · rw [heq]
    obtain ⟨-, -, flow, hreset⟩ | ⟨flow, hplc, -⟩ := (m.settleDepth tick).1.hold_cases
    · rw [hreset]
      rfl
    · rw [hplc, (generatePlc_keeps _).1]
      exact hsettled
  · obtain ⟨hps, honwards'⟩ := framePoint_sound h hp
    have hpoint := hnone h.wellFormed hps.wellFormed honwards' hempty
    have hmiss : ¬p.buffer.hasNext = true := by
      rw [hps.wellFormed.hasNext_iff]
      intro hmem
      exact Finset.card_ne_zero_of_mem hmem (hps.wellFormed.occupiedCount_eq.symm.trans hpoint)
    rw [heq, playOrMiss, if_neg hmiss]
    obtain ⟨-, flow, hreset⟩ | ⟨-, flow, hplc, -⟩ := p.handleMissingFrame_cases ctx
    · rw [hreset]
      rfl
    · rw [hplc, (generatePlc_keeps _).1]
      exact hpoint

/-- An outage that starts over an empty buffer never holds one partly filled. -/
theorem not_heldPartlyFilled_of_empty
    (M : Machine (JitterBufferManager C) (Input F) (Option DepthLine)) (hM : M.step = step)
    (tick : Tick F) (n : ℕ) (hs : m.playbackBuf = []) (h : m.buffer.Sound Q)
    (hempty : m.buffer.occupiedCount = 0) :
    ∀ e ∈ M.eventsFrom m (m.drainedOutage tick n), ¬HeldPartlyFilled e := by
  induction n generalizing m with
  | zero => simp [drainedOutage]
  | succ n ih =>
    obtain ⟨e, e', ⟨-, hdrain⟩, hbefore, hinput, -, heq⟩ :=
      eventsFrom_drainedOutage M hM m hs tick n
    obtain ⟨hnext, hfree⟩ := processNextFrame_empty (m := { m with emissions := [] }) h hempty tick
    have hsound := processNextFrame_sound (m := { m with emissions := [] }) h tick
    rw [heq]
    intro x hx
    rcases List.mem_cons.mp hx with rfl | hx
    · rintro ⟨tick', htick', hheld⟩
      rw [hbefore, hinput] at htick'
      obtain ⟨hcall, -⟩ := refill_eq_some htick'
      obtain rfl := Input.callback.inj hcall
      rw [hbefore] at hheld
      exact hfree hheld
    · rcases List.mem_cons.mp hx with rfl | hx
      · rintro ⟨tick', htick', -⟩
        refine hdrain ?_
        rw [Refills, Option.mem_def.mp htick']
        rfl
      · exact ih (m := m.drained tick) rfl hsound hnext x hx

/-- The claim's callbacks on an Ethernet link. -/
def outageCallbacks : ℕ := bufferCapacity + reorderTolerance + maxMissingDefault + 1

/-- From every state reached with insertions that do not wrap: when nothing arrives any
more, no callback holds over a partly filled buffer, and the gaps cost no more callbacks
than the claimed bound leaves for them, the stream is reset within the bound. -/
theorem outage_resets (C : Codec F) (config : JitterConfig F) (networkLink : NetworkLink)
    (clock : Instant) (inputs outage : List (Input F)) (hroom : ∀ i ∈ inputs, i.LeavesRoom)
    (hquiet : ∀ i ∈ outage, i.Quiet)
    (hbacklog : ((machine C config networkLink clock).run inputs).backlog ≤
      bufferCapacity + ((machine C config networkLink clock).run inputs).tolerance)
    (hfree : ∀ e ∈ (machine C config networkLink clock).eventsFrom
      ((machine C config networkLink clock).run inputs) outage, ¬HeldPartlyFilled e)
    (hmany : bufferCapacity + ((machine C config networkLink clock).run inputs).tolerance +
        maxMissingFor ((machine C config networkLink clock).run inputs).networkLink + 1 ≤
      ((machine C config networkLink clock).eventsFrom
        ((machine C config networkLink clock).run inputs) outage).countP fun e => Refills e) :
    ∃ e ∈ (machine C config networkLink clock).eventsFrom
      ((machine C config networkLink clock).run inputs) outage, ResetsStream e := by
  have hsound := sound_of_run C config networkLink clock inputs hroom
  have hremaining := ((machine C config networkLink clock).run inputs).remaining_le
  refine (machine C config networkLink clock).exists_goal_from
    (I := fun m => m.buffer.Sound fun _ => True) (r := remaining) (c := Refills)
    (p := fun e => e.input.Quiet ∧ ¬HeldPartlyFilled e) ?_ ?_ hsound ?_
    (lt_of_lt_of_le (by omega) hmany)
  · rintro m i h ⟨hi, -⟩
    refine step_sound h ?_
    cases i with
    | ingest _ | reset => exact absurd hi id
    | callback _ | consume _ => trivial
  · rintro m i h ⟨hi, hheld⟩ hgoal
    exact step_remaining _ rfl h hi hheld hgoal
  · exact fun e he => ⟨hquiet _ ((machine C config networkLink clock).input_mem he), hfree e he⟩

/-- An outage before the first packet. -/
theorem outage_resets_drainedOutage :
    ∃ e ∈ (machine (Codec.unfed SoftFloat) unbufferedConfig .ethernet 0).eventsFrom
      (new (Codec.unfed SoftFloat) unbufferedConfig .ethernet 0)
      ((new (Codec.unfed SoftFloat) unbufferedConfig .ethernet 0).drainedOutage (steadyTick 0)
        outageCallbacks), ResetsStream e :=
  outage_resets (Codec.unfed SoftFloat) unbufferedConfig .ethernet 0 []
    ((new (Codec.unfed SoftFloat) unbufferedConfig .ethernet 0).drainedOutage (steadyTick 0)
      outageCallbacks)
    (by simp) (drainedOutage_quiet _ _ _) (by decide +kernel)
    (not_heldPartlyFilled_of_empty (Q := fun _ => True) _ rfl _ _ rfl JitterBuffer.Sound.new rfl)
    (countP_drainedOutage _ rfl _ rfl _ _).ge

section Trap

/-- The playhead is held over a partly filled buffer below the configured floor. -/
structure Trapped (m : JitterBufferManager C) : Prop where
  held : m.flow.isPrebuffering = true
  stored : m.buffer.occupiedCount ≠ 0
  below : m.buffer.occupiedCount < m.minDepthFrames
  adaptive : m.config.staticTargetMs = none

/-- Concealing appends one emission that is no reset. -/
theorem generatePlc_source (m : JitterBufferManager C) :
    ∃ e : Emission F, m.generatePlc.emissions = m.emissions ++ [e] ∧ e.source ≠ .resetSilence := by
  obtain ⟨decoder, timescale, tally, source, heq, -, -, hsource⟩ := m.generatePlc_eq
  refine ⟨⟨source, decoder.decoded⟩, congrArg emissions heq, ?_⟩
  obtain rfl | ⟨rfl, -⟩ := hsource
  · exact nofun
  · exact nofun

/-- Resolving the target keeps the configuration and the lifecycle; the context repeats
the configured floor and tells a stream without buffering. -/
theorem resolveTarget_frame (m : JitterBufferManager C) (tick : Tick F) :
    (m.resolveTarget tick).1.config = m.config ∧ (m.resolveTarget tick).1.flow = m.flow ∧
      (m.resolveTarget tick).2.1.minDepth = m.minDepthFrames ∧
      (m.resolveTarget tick).2.1.isNoBuffer = decide (m.config.staticTargetMs = some 0) := by
  unfold resolveTarget
  dsimp only
  obtain ⟨stats, logWindow, heq⟩ := logDepthAuthority_eq { m with control := _ } tick.now
  rw [heq]
  exact ⟨rfl, rfl, rfl, rfl⟩

/-- Without a new configuration the poll only counts. -/
theorem reloadConfigIfChanged_of_none (m : JitterBufferManager C) {tick : Tick F}
    (hsame : tick.sharedConfig = none) :
    ∃ configCheckCountdown, m.reloadConfigIfChanged tick = { m with configCheckCountdown } := by
  unfold reloadConfigIfChanged
  split
  · simp only [hsame]
    exact ⟨_, rfl⟩
  · exact ⟨_, rfl⟩

/-- Trapped over the buffer of `m`, with nothing appended yet. -/
theorem Trapped.settleDepth (h : m.Trapped) {tick : Tick F} (hsame : tick.sharedConfig = none) :
    (m.settleDepth tick).1.Trapped ∧ (m.settleDepth tick).1.emissions = m.emissions ∧
      (m.settleDepth tick).2.1.minDepth = (m.settleDepth tick).1.minDepthFrames := by
  obtain ⟨countdown, hreload⟩ := (m.beginCallback tick).reloadConfigIfChanged_of_none hsame
  have hkeeps := resolveTarget_keeps
    { m.beginCallback tick with configCheckCountdown := countdown } tick
  obtain ⟨hconfig, hflow, hfloor, hbuffered⟩ := resolveTarget_frame
    { m.beginCallback tick with configCheckCountdown := countdown } tick
  rw [← hreload] at hkeeps hconfig hflow hfloor hbuffered
  have hconfig' :
      (((m.beginCallback tick).reloadConfigIfChanged tick).resolveTarget tick).1.config =
      m.config := hconfig.trans (by rw [hreload]; rfl)
  have hsettled : (m.settleDepth tick).1 =
      (((m.beginCallback tick).reloadConfigIfChanged tick).resolveTarget tick).1 := by
    refine if_neg fun hflush => ?_
    have hnone : m.config.staticTargetMs = some 0 :=
      of_decide_eq_true (hbuffered.symm.trans hflush.1 |> fun hb => by rw [hreload] at hb; exact hb)
    rw [h.adaptive] at hnone
    nomatch hnone
  have hbuffer : (m.settleDepth tick).1.buffer = m.buffer := by
    rw [hsettled, hkeeps.buffer, hreload]
    rfl
  have hfloors : (m.settleDepth tick).1.minDepthFrames = m.minDepthFrames := by
    rw [hsettled, minDepthFrames, hconfig']
    rfl
  refine ⟨⟨?_, hbuffer ▸ h.stored, ?_, ?_⟩, ?_, ?_⟩
  · rw [hsettled, hflow, hreload]
    exact h.held
  · rw [hbuffer, hfloors]
    exact h.below
  · rw [hsettled, hconfig']
    exact h.adaptive
  · rw [hsettled, hkeeps.emissions, hreload]
    rfl
  · rw [hfloors]
    exact hfloor.trans (by rw [hreload]; rfl)

theorem generatePlc_config (m : JitterBufferManager C) : m.generatePlc.config = m.config := by
  obtain ⟨decoder, timescale, tally, source, heq, -⟩ := m.generatePlc_eq
  rw [heq]
  rfl

/-- A trapped callback conceals and stays trapped. -/
theorem Trapped.processNextFrame (h : m.Trapped) {tick : Tick F}
    (hsame : tick.sharedConfig = none) :
    (m.processNextFrame tick).1.Trapped ∧
      ∃ e : Emission F, (m.processNextFrame tick).1.emissions = m.emissions ++ [e] ∧
        e.source ≠ .resetSilence := by
  obtain ⟨hs, hemissions, hfloor⟩ := h.settleDepth hsame
  have hheld : (m.processNextFrame tick).1 = (m.settleDepth tick).1.hold := by
    have hbelow : ¬(m.settleDepth tick).1.unpauseThreshold (m.settleDepth tick).2.1 ≤
        (m.settleDepth tick).1.buffer.occupiedCount := by
      have hthreshold : (m.settleDepth tick).2.1.minDepth ≤
          (m.settleDepth tick).1.unpauseThreshold (m.settleDepth tick).2.1 := le_max_right _ _
      have := hs.below
      omega
    have hserve : (m.settleDepth tick).1.servePrebuffering (m.settleDepth tick).2.1 =
        ((m.settleDepth tick).1.hold, true) := by
      rw [servePrebuffering, if_pos hs.held, if_neg hbelow]
    unfold JitterBufferManager.processNextFrame
    dsimp only
    rw [hserve]
  rw [hheld, ← hemissions]
  obtain ⟨hempty, -⟩ | ⟨flow, heq, ⟨hempty, -⟩ | ⟨-, -, -, hprebuffering⟩⟩ :=
    (m.settleDepth tick).1.hold_cases
  · exact absurd hempty hs.stored
  · exact absurd hempty hs.stored
  · obtain ⟨e, happend, hsource⟩ := generatePlc_source { (m.settleDepth tick).1 with flow }
    obtain ⟨hbuffer, -, -, -, -, -, hflow⟩ :=
      generatePlc_keeps { (m.settleDepth tick).1 with flow }
    rw [heq]
    have hconfig : ({ (m.settleDepth tick).1 with flow }.generatePlc).config =
        (m.settleDepth tick).1.config := generatePlc_config _
    refine ⟨⟨hflow.trans (hprebuffering.trans hs.held), by rw [hbuffer]; exact hs.stored, ?_, ?_⟩,
      e, happend, hsource⟩
    · rw [hbuffer, minDepthFrames, hconfig]
      exact hs.below
    · rw [hconfig]
      exact hs.adaptive

/-- A trapped outage never resets the stream, however long it lasts. -/
theorem Trapped.not_resetsStream
    (M : Machine (JitterBufferManager C) (Input F) (Option DepthLine)) (hM : M.step = step)
    {tick : Tick F} (hsame : tick.sharedConfig = none) (n : ℕ) (hs : m.playbackBuf = [])
    (h : m.Trapped) : ∀ e ∈ M.eventsFrom m (m.drainedOutage tick n), ¬ResetsStream e := by
  induction n generalizing m with
  | zero => simp [drainedOutage]
  | succ n ih =>
    obtain ⟨e, e', ⟨-, hdrain⟩, -, -, hafter, heq⟩ := eventsFrom_drainedOutage M hM m hs tick n
    obtain ⟨htrapped, concealed, happend, hsource⟩ :=
      Trapped.processNextFrame (m := { m with emissions := [] }) ⟨h.1, h.2, h.3, h.4⟩ hsame
    rw [heq]
    intro x hx
    rcases List.mem_cons.mp hx with rfl | hx
    · rintro ⟨-, hreset⟩
      rw [hafter, happend, List.nil_append, List.mem_singleton] at hreset
      exact hsource (hreset ▸ rfl)
    · rcases List.mem_cons.mp hx with rfl | hx
      · exact fun hreset => hdrain hreset.1
      · exact ih (m := m.drained tick) rfl ⟨htrapped.1, htrapped.2, htrapped.3, htrapped.4⟩ x hx

/-- One packet of the two that release the playhead. -/
def partialInputs : List (Input SoftFloat) := [.ingest [.silent 0 0]]

theorem not_outage_resets_partialInputs : ¬ ∀ inputs outage : List (Input SoftFloat),
    (∀ i ∈ inputs, i.LeavesRoom) → (∀ i ∈ outage, i.Quiet) →
    bufferCapacity +
        ((machine (Codec.unfed SoftFloat) adaptiveConfig .ethernet 0).run inputs).tolerance +
        maxMissingFor ((machine (Codec.unfed SoftFloat) adaptiveConfig .ethernet 0).run
          inputs).networkLink + 1 ≤
      ((machine (Codec.unfed SoftFloat) adaptiveConfig .ethernet 0).eventsFrom
        ((machine (Codec.unfed SoftFloat) adaptiveConfig .ethernet 0).run inputs)
        outage).countP (fun e => Refills e) →
    ∃ e ∈ (machine (Codec.unfed SoftFloat) adaptiveConfig .ethernet 0).eventsFrom
      ((machine (Codec.unfed SoftFloat) adaptiveConfig .ethernet 0).run inputs) outage,
      ResetsStream e := by
  intro h
  obtain ⟨e, he, hreset⟩ := h partialInputs
    (drainedOutage ((machine (Codec.unfed SoftFloat) adaptiveConfig .ethernet 0).run
      partialInputs) (steadyTick 0) outageCallbacks)
    (by decide) (drainedOutage_quiet _ _ _) (countP_drainedOutage _ rfl _ rfl _ _).ge
  exact Trapped.not_resetsStream _ rfl rfl _ rfl
    ⟨rfl, by decide +kernel, by decide +kernel, rfl⟩ e he hreset

end Trap

end Outage

end JitterBufferManager

end Gemacast.Jitter
