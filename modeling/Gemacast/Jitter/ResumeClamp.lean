import Gemacast.Core.MonotoneBinary32
import Gemacast.Jitter.BufferAhead
import Gemacast.Jitter.FlushExactness

/-!
# The clamp of a rebuffer

A hold ends when the buffer reaches the release threshold, and what arrived beyond the
band of the target is then flushed. A round of a flush removes at most one packet, in
every run and wherever its numbers wrap, so the flush stops at the depth it is given. That
depth grows with the target and with the raw target.
-/

set_option linter.unusedSectionVars false

namespace Gemacast.Jitter

open Gemacast.Core

namespace TargetController

/-- The decision band as unsigned 32-bit arithmetic computes it where the product may wrap. -/
def wrappedLimits (target : ℕ) : Band :=
  let low := target * 3 % 2 ^ 32 / 4
  { low, high := max target (low + minBand) }

/-- The upper end of the band grows with the target, over the boundary of its two pieces. -/
theorem bufferLimits_high_mono : Monotone fun target => (bufferLimits target).high := by
  intro target target' hle
  simp only [bufferLimits]
  have hlow : target * 3 / 4 ≤ target' * 3 / 4 := Nat.div_le_div_right (by omega)
  exact max_le_max hle (by omega)

theorem bufferLimits_spread (target : ℕ) :
    (bufferLimits target).low + 2 ≤ (bufferLimits target).high :=
  le_max_right _ _

/-- Where the product wraps, the band is the same at its upper end and as wide. -/
theorem wrappedLimits_spec {target : ℕ} (h : target < 2 ^ 32) :
    (wrappedLimits target).high = (bufferLimits target).high ∧
      (wrappedLimits target).low + 2 ≤ (wrappedLimits target).high := by
  refine ⟨?_, le_max_right _ _⟩
  have hband : minBand = 2 := rfl
  simp only [wrappedLimits, bufferLimits, hband]
  by_cases hwraps : target * 3 < 2 ^ 32
  · rw [Nat.mod_eq_of_lt hwraps]
  · have hlow : target * 3 % 2 ^ 32 / 4 + 2 ≤ target := by omega
    have hlow' : target * 3 / 4 + 2 ≤ target := by omega
    rw [max_eq_left hlow, max_eq_left hlow']

end TargetController

namespace JitterBuffer

variable {b : JitterBuffer} {flushTo flushTo' fuel : ℕ}

/-- The number of packets in the slots. -/
def packets (b : JitterBuffer) : ℕ := Ring.occupancy b.slots

/-- What the flush loop leaves of the buffer. -/
def flushedTo (flushTo : ℕ) : ℕ → JitterBuffer → JitterBuffer
  | 0, b => b
  | fuel + 1, b =>
    if flushTo < b.occupiedCount then flushedTo flushTo fuel b.flushRound.1 else b

namespace Ahead

theorem packets_eq (h : b.Ahead) : b.packets = b.occupiedCount := h.occupiedCount_eq.symm

theorem flushRound (h : b.Ahead) : b.flushRound.1.Ahead := by
  have hpop := h.popNext
  unfold JitterBuffer.flushRound
  cases heq : b.popNext with
  | mk b' answer =>
    rw [heq] at hpop
    cases answer with
    | some pkt => exact hpop
    | none => exact hpop.advanceOne

/-- A round removes at most one packet, and adds none. -/
theorem flushRound_occupied (h : b.Ahead) :
    b.flushRound.1.occupiedCount ≤ b.occupiedCount ∧
      b.occupiedCount ≤ b.flushRound.1.occupiedCount + 1 := by
  have hpop := h.popNext_occupied
  unfold JitterBuffer.flushRound
  cases heq : b.popNext with
  | mk b' answer =>
    rw [heq] at hpop
    cases answer with
    | some pkt =>
      change b.occupiedCount = b'.occupiedCount + 1 at hpop
      change b'.occupiedCount ≤ _ ∧ _ ≤ b'.occupiedCount + 1
      omega
    | none =>
      change b.occupiedCount = b'.occupiedCount at hpop
      rw [hpop]
      exact b'.advanceOne_occupied

theorem flushedTo (h : b.Ahead) (flushTo fuel : ℕ) : (b.flushedTo flushTo fuel).Ahead := by
  induction fuel generalizing b with
  | zero => exact h
  | succ fuel ih =>
    unfold JitterBuffer.flushedTo
    split
    · exact ih h.flushRound
    · exact h

theorem flushedTo_le (h : b.Ahead) (flushTo fuel : ℕ) :
    (b.flushedTo flushTo fuel).occupiedCount ≤ b.occupiedCount := by
  induction fuel generalizing b with
  | zero => exact le_rfl
  | succ fuel ih =>
    unfold JitterBuffer.flushedTo
    split
    · exact (ih h.flushRound).trans h.flushRound_occupied.1
    · exact le_rfl

/-- However many rounds it makes, the loop stops at the depth it is given. -/
theorem le_flushedTo (h : b.Ahead) (flushTo fuel : ℕ) :
    min b.occupiedCount flushTo ≤ (b.flushedTo flushTo fuel).occupiedCount := by
  induction fuel generalizing b with
  | zero => exact min_le_left _ _
  | succ fuel ih =>
    unfold JitterBuffer.flushedTo
    split
    · have hround := h.flushRound_occupied
      have hrest := ih h.flushRound
      omega
    · exact min_le_left _ _

/-- The loop that is given the greater depth stops first. -/
theorem flushedTo_mono (h : b.Ahead) (hle : flushTo ≤ flushTo') (fuel : ℕ) :
    (b.flushedTo flushTo fuel).occupiedCount ≤ (b.flushedTo flushTo' fuel).occupiedCount := by
  induction fuel generalizing b with
  | zero => exact le_rfl
  | succ fuel ih =>
    by_cases hmore : flushTo' < b.occupiedCount
    · simp only [JitterBuffer.flushedTo, if_pos hmore, if_pos (hle.trans_lt hmore)]
      exact ih h.flushRound
    · have hstop : b.flushedTo flushTo' (fuel + 1) = b := if_neg hmore
      rw [hstop]
      exact h.flushedTo_le flushTo (fuel + 1)

end Ahead

end JitterBuffer

namespace JitterBufferManager

variable {F : Type} [Binary32 F] [FrameMark F] {C : Codec F} {m m' : JitterBufferManager C}
  {ctx ctx' : FrameContext} {flushTo flushTo' : ℕ}

section Flush

/-- The flush loop of the manager is that of its buffer. -/
theorem flushLoop_flushedTo (m : JitterBufferManager C) (flushTo fuel : ℕ) :
    (m.flushLoop flushTo fuel).buffer = m.buffer.flushedTo flushTo fuel := by
  induction fuel generalizing m with
  | zero => rfl
  | succ fuel ih =>
    unfold flushLoop JitterBuffer.flushedTo JitterBuffer.flushRound
    split
    · cases m.buffer.popNext with
      | mk buffer answer =>
        cases answer with
        | some pkt => exact ih ({ m with buffer }.capture pkt)
        | none => exact ih { m with buffer := buffer.advanceOne }
    · rfl

/-- A flush runs the loop on the buffer; with nothing to discard the loop does nothing. -/
theorem flushWithCrossfade_buffer (m : JitterBufferManager C) (flushTo : ℕ) :
    (m.flushWithCrossfade flushTo).buffer = m.buffer.flushedTo flushTo bufferCapacity := by
  rw [(m.flushWithCrossfade_loop flushTo).1]
  exact (m.beginFlush flushTo).flushLoop_flushedTo flushTo bufferCapacity

/-- A flush leaves no fewer packets than it is told to. -/
theorem flushWithCrossfade_packets (h : m.buffer.Ahead) (flushTo : ℕ) :
    min m.buffer.packets flushTo ≤ (m.flushWithCrossfade flushTo).buffer.packets := by
  rw [flushWithCrossfade_buffer, h.packets_eq, (h.flushedTo _ _).packets_eq]
  exact h.le_flushedTo flushTo bufferCapacity

theorem flushWithCrossfade_le (h : m.buffer.Ahead) (flushTo : ℕ) :
    (m.flushWithCrossfade flushTo).buffer.packets ≤ m.buffer.packets := by
  rw [flushWithCrossfade_buffer, h.packets_eq, (h.flushedTo _ _).packets_eq]
  exact h.flushedTo_le flushTo bufferCapacity

/-- Of two flushes of one buffer the one to the greater depth leaves no fewer packets. -/
theorem flushWithCrossfade_mono (h : m.buffer.Ahead) (hsame : m'.buffer = m.buffer)
    (hle : flushTo ≤ flushTo') :
    (m.flushWithCrossfade flushTo).buffer.packets ≤
      (m'.flushWithCrossfade flushTo').buffer.packets := by
  rw [flushWithCrossfade_buffer, flushWithCrossfade_buffer, hsame, (h.flushedTo _ _).packets_eq,
    (h.flushedTo _ _).packets_eq]
  exact h.flushedTo_mono hle bufferCapacity

/-- A callback that begins with packets ahead of the playhead flushes such a buffer. -/
theorem FlushPoint.ahead {s : JitterBufferManager C} (hpoint : FlushPoint s m)
    (h : s.buffer.Ahead) : m.buffer.Ahead := by
  induction hpoint with
  | begin hsame =>
    rw [hsame]
    exact h
  | again flushTo _ hflushed ih =>
    rw [hflushed]
    exact (flushWithCrossfade_moves _ flushTo).ahead ih

end Flush

section Release

/-- A release flushes to the resume depth after a rebuffer, and not at all at the start of
the session. -/
theorem release_buffer (m : JitterBufferManager C) (ctx : FrameContext) :
    (m.release ctx).buffer =
      if m.startupFlushPending then m.buffer
      else (m.flushWithCrossfade (m.resumeDepth ctx)).buffer := by
  have hbuffer : ∀ flow, (({ m with flow } : JitterBufferManager C).flushWithCrossfade
      (m.resumeDepth ctx)).buffer = (m.flushWithCrossfade (m.resumeDepth ctx)).buffer := by
    intro flow
    rw [flushWithCrossfade_buffer, flushWithCrossfade_buffer]
  unfold release
  by_cases hclamps : m.startupFlushPending = false ∧ m.resumeDepth ctx < m.buffer.occupiedCount
  · refine ((congrArg buffer (if_pos hclamps)).trans (hbuffer _)).trans (if_neg ?_).symm
    rw [hclamps.1]
    exact Bool.false_ne_true
  · refine (congrArg buffer (if_neg hclamps)).trans ?_
    split
    · rfl
    · next hpending =>
      have hstop : ¬m.resumeDepth ctx < m.buffer.occupiedCount := fun hmore =>
        hclamps ⟨Bool.not_eq_true _ ▸ hpending, hmore⟩
      rw [flushWithCrossfade_buffer]
      exact (if_neg hstop).symm

/-- A release keeps the resume depth, or all that there is. -/
theorem release_packets (h : m.buffer.Ahead) (ctx : FrameContext) :
    min m.buffer.packets (m.resumeDepth ctx) ≤ (m.release ctx).buffer.packets := by
  rw [release_buffer]
  split
  · exact min_le_left _ _
  · exact flushWithCrossfade_packets h _

/-- The hold lets go exactly from the threshold on. -/
theorem servePrebuffering_released (hheld : m.flow.isPrebuffering = true)
    (hreleased : (m.servePrebuffering ctx).2 = false) :
    m.unpauseThreshold ctx ≤ m.buffer.occupiedCount ∧
      (m.servePrebuffering ctx).1 = m.release ctx := by
  unfold servePrebuffering at hreleased ⊢
  rw [if_pos hheld] at hreleased ⊢
  by_cases hreached : m.unpauseThreshold ctx ≤ m.buffer.occupiedCount
  · rw [if_pos hreached]
    exact ⟨hreached, rfl⟩
  · rw [if_neg hreached] at hreleased
    nomatch hreleased

theorem le_resumeDepth (m : JitterBufferManager C) (ctx : FrameContext) :
    (TargetController.bufferLimits ctx.target).high ≤ m.resumeDepth ctx :=
  (TargetController.bufferLimits_high_mono (le_max_left _ _)).trans (le_max_left _ _)

/-- A clamp on the target alone would keep no more. -/
theorem clamp_target_le (m : JitterBufferManager C) (ctx : FrameContext) :
    max (TargetController.bufferLimits ctx.target).high (m.unpauseThreshold ctx) ≤
      m.resumeDepth ctx :=
  max_le (m.le_resumeDepth ctx) (le_max_right _ _)

variable [MonotoneBinary32 F]

/-- The threshold grows with the target, whatever the percentage is. -/
theorem unpauseThreshold_mono (m : JitterBufferManager C) (htarget : ctx.target ≤ ctx'.target)
    (hmin : ctx.minDepth ≤ ctx'.minDepth) : m.unpauseThreshold ctx ≤ m.unpauseThreshold ctx' := by
  refine max_le_max ?_ hmin
  exact MonotoneBinary32.toNat_scale_le (MonotoneBinary32.zero_le_ofNat _)
    (MonotoneBinary32.ofNat_le_ofNat htarget)

/-- The depth kept grows with the target and with the raw target. -/
theorem resumeDepth_mono (m : JitterBufferManager C) (htarget : ctx.target ≤ ctx'.target)
    (hraw : ctx.rawTarget ≤ ctx'.rawTarget) (hmin : ctx.minDepth ≤ ctx'.minDepth) :
    m.resumeDepth ctx ≤ m.resumeDepth ctx' :=
  max_le_max (TargetController.bufferLimits_high_mono (max_le_max htarget hraw))
    (m.unpauseThreshold_mono htarget hmin)

/-- Of two releases of one state the one with the greater targets leaves no fewer packets. -/
theorem release_mono (h : m.buffer.Ahead) (htarget : ctx.target ≤ ctx'.target)
    (hraw : ctx.rawTarget ≤ ctx'.rawTarget) (hmin : ctx.minDepth ≤ ctx'.minDepth) :
    (m.release ctx).buffer.packets ≤ (m.release ctx').buffer.packets := by
  rw [release_buffer, release_buffer]
  split
  · exact le_rfl
  · exact flushWithCrossfade_mono h rfl (m.resumeDepth_mono htarget hraw hmin)

/-- What the end of a rebuffer keeps of the buffer. -/
structure Clamps (m : JitterBufferManager C) (ctx : FrameContext) : Prop where
  /-- No fewer packets than it takes to release the playhead. -/
  threshold : m.unpauseThreshold ctx ≤ (m.servePrebuffering ctx).1.buffer.packets
  /-- No fewer than the upper end of the band of the target, or all that there is. -/
  band : min m.buffer.packets (TargetController.bufferLimits ctx.target).high ≤
    (m.servePrebuffering ctx).1.buffer.packets
  /-- The depth kept, and what is left, grow with the target and with the raw target. -/
  monotone : ∀ ctx', ctx.target ≤ ctx'.target → ctx.rawTarget ≤ ctx'.rawTarget →
    ctx'.minDepth = ctx.minDepth → m.resumeDepth ctx ≤ m.resumeDepth ctx' ∧
      (m.release ctx).buffer.packets ≤ (m.release ctx').buffer.packets
  /-- A clamp on the target alone keeps no more, and leaves no more. -/
  oneDirectional : ∀ depth, depth =
      max (TargetController.bufferLimits ctx.target).high (m.unpauseThreshold ctx) →
    depth ≤ m.resumeDepth ctx ∧ (m.flushWithCrossfade depth).buffer.packets ≤
      (m.servePrebuffering ctx).1.buffer.packets

/-- In every run, whatever target, raw target, floor and percentage are in force, the end
of a rebuffer keeps the release threshold and the band, and grows with both targets. -/
theorem resumeClamp_of_run (C : Codec F) (config : JitterConfig F) (networkLink : NetworkLink)
    (clock : Instant) (inputs : List (Input F)) (m : JitterBufferManager C)
    (hpoint : FlushPoint ((machine C config networkLink clock).run inputs) m) (ctx : FrameContext)
    (hheld : m.flow.isPrebuffering = true) (hreleased : (m.servePrebuffering ctx).2 = false) :
    m.Clamps ctx ∧ (Monotone fun target => (TargetController.bufferLimits target).high) ∧
      (∀ target, (TargetController.bufferLimits target).low + 2 ≤
        (TargetController.bufferLimits target).high) ∧
      ∀ target < 2 ^ 32, (TargetController.wrappedLimits target).high =
          (TargetController.bufferLimits target).high ∧
        (TargetController.wrappedLimits target).low + 2 ≤
          (TargetController.wrappedLimits target).high := by
  have hahead := hpoint.ahead (ahead_of_run C config networkLink clock inputs)
  obtain ⟨hreached, hserved⟩ := servePrebuffering_released hheld hreleased
  have hkept := release_packets hahead ctx
  refine ⟨⟨?_, ?_, fun ctx' htarget hraw hmin => ?_, ?_⟩, TargetController.bufferLimits_high_mono,
    TargetController.bufferLimits_spread, fun target => TargetController.wrappedLimits_spec⟩
  · rw [← hahead.packets_eq] at hreached
    rw [hserved]
    exact (le_min hreached (le_max_right _ _)).trans hkept
  · rw [hserved]
    exact (min_le_min_left _ (m.le_resumeDepth ctx)).trans hkept
  · exact ⟨m.resumeDepth_mono htarget hraw hmin.ge, release_mono hahead htarget hraw hmin.ge⟩
  · rintro depth rfl
    refine ⟨m.clamp_target_le ctx, ?_⟩
    rw [hserved, release_buffer]
    split
    · exact flushWithCrossfade_le hahead _
    · exact flushWithCrossfade_mono hahead rfl (m.clamp_target_le ctx)

end Release

/-- A floor of one frame, and a release at a quarter of the target. -/
def quarterConfig : JitterConfig SoftFloat := ⟨10, 400, 0, 0.25, none⟩

/-- A burst of eight packets on a held playhead. -/
def burstInputs : List (Input SoftFloat) :=
  [.ingest ((List.range 8).map fun i => rawZero (UInt64.ofNat (5 + i)) 0)]

/-- The state that takes the burst, past the first flush of its session. -/
def burstHeld : JitterBufferManager (Codec.unfed SoftFloat) :=
  { (machine (Codec.unfed SoftFloat) quarterConfig .ethernet 0).run burstInputs with
    startupFlushPending := false }

/-- The ramped target is behind the raw one. -/
def burstContext : FrameContext := ⟨30, 4, 6, 1, false, false⟩

theorem resumeClamp_of_run_burstInputs : burstHeld.Clamps burstContext := by
  have hpoint : FlushPoint ((machine (Codec.unfed SoftFloat) quarterConfig .ethernet 0).run
      burstInputs) burstHeld := .begin rfl
  have hheld : burstHeld.flow.isPrebuffering = true := by decide +kernel
  have hreleased : (burstHeld.servePrebuffering burstContext).2 = false := by decide +kernel
  exact (resumeClamp_of_run _ _ _ _ _ _ hpoint burstContext hheld hreleased).1

end JitterBufferManager

end Gemacast.Jitter
