import Gemacast.Jitter.Frames

/-!
# The return from a starvation

The first real frame after a starvation. Its splice is masked when the playhead
skipped a gap on the way to it, and only then: the count of starved callbacks, the
other half of the condition, is cleared before the mask is decided.
-/

set_option linter.unusedSectionVars false

namespace Gemacast.Jitter

open Gemacast.Core

namespace JitterBufferManager

variable {F : Type} [Binary32 F] [FrameMark F] {C : Codec F} {p : JitterBufferManager C}
  {ctx : FrameContext}

/-- The step refilled, found the buffer empty and left a starvation count. -/
def Starves (e : PlayerEvent C) : Prop :=
  (e.before.refill e.input).isSome ∧ e.after.buffer.occupiedCount = 0 ∧
    0 < e.after.flow.starvationCount

instance : DecidablePred (Starves (C := C)) := fun _ => inferInstanceAs (Decidable (_ ∧ _))

/-- The points of the events at which the first real frame after a starvation is played;
`starved` tells whether a starvation is open. -/
def starvedPlays (starved : Bool) :
    List (PlayerEvent C) → List (JitterBufferManager C × FrameContext)
  | [] => []
  | e :: events =>
    match e.before.playPoint e.input with
    | some point => (if starved then [point] else []) ++ starvedPlays false events
    | none => starvedPlays (starved || decide (Starves e)) events

/-- Every starved play of a run is a play point of one of its events. -/
theorem exists_event_of_mem_starvedPlays {starved : Bool} {events : List (PlayerEvent C)}
    {point : JitterBufferManager C × FrameContext} (h : point ∈ starvedPlays starved events) :
    ∃ e ∈ events, e.before.playPoint e.input = some point := by
  induction events generalizing starved with
  | nil => simp [starvedPlays] at h
  | cons e events ih =>
    unfold starvedPlays at h
    split at h
    · rename_i point' hpoint
      rcases List.mem_append.mp h with hfirst | hrest
      · cases starved with
        | true => exact ⟨e, List.mem_cons_self, by rw [List.mem_singleton.mp hfirst, hpoint]⟩
        | false => simp at hfirst
      · obtain ⟨e', he', hpoint'⟩ := ih hrest
        exact ⟨e', List.mem_cons_of_mem _ he', hpoint'⟩
    · obtain ⟨e', he', hpoint'⟩ := ih h
      exact ⟨e', List.mem_cons_of_mem _ he', hpoint'⟩

/-- The frame reaches the time-scaler with its first samples faded in linearly, and
nothing is remembered. -/
def MaskedAt (p : JitterBufferManager C) (ctx : FrameContext) : Prop :=
  ∃ captured prepared, p.frames ctx = some (captured, prepared) ∧
    prepared.decoder.decoded = captured.decoder.decoded.mapIdx
      (fadeInGain (min fadeInSamples captured.decoder.decodeLen)) ∧
    prepared.timescale.histBuf = []

/-- The fade-in leaves the frame as it is. -/
def FixedByFade (frame : List F) : Prop :=
  frame.mapIdx (fadeInGain (min fadeInSamples frame.length)) = frame

/-- The playhead skipped a gap since the last real frame; or there is nothing to mask,
no frame to remember and a packet whose samples the fade-in leaves as they are. -/
def MaskArmed (p : JitterBufferManager C) : Prop :=
  p.pendingGapFadein = true ∨ p.decoder.decoded = [] ∧
    ∀ pkt ∈ p.buffer.popNext.2, FixedByFade (p.decoder.capture pkt).decoded

/-- A frame whose starvation count is cleared is masked exactly when a gap was skipped. -/
theorem maskSplice_eq (hstarved : p.flow.starvationCount = 0) :
    p.maskSplice =
      { if p.pendingGapFadein = true then p.fadeIn else p with pendingGapFadein := false } := by
  unfold maskSplice
  simp only [hstarved, lt_irrefl, false_or]

/-- The mask is applied to the frame of a frame point exactly when it is armed there. -/
theorem maskedAt_iff (h : p.buffer.hasNext = true) : p.MaskedAt ctx ↔ p.MaskArmed := by
  obtain ⟨pkt, control, flow, captured, hpop, -, -, hstarved, hcaptured, hframes, -⟩ :=
    frames_of_hasNext ctx h
  have hdecoded : captured.decoder.decoded = (p.decoder.capture pkt).decoded := by
    rw [hcaptured]
    rfl
  have hpending : captured.pendingGapFadein = p.pendingGapFadein := by
    rw [hcaptured]
    rfl
  have hhist : captured.timescale.histBuf = p.decoder.decoded := by
    rw [hcaptured]
    exact List.take_of_length_le p.decoder.decodeBuf.property
  have hcount : captured.flow.starvationCount = 0 := by
    rw [hcaptured]
    exact hstarved
  have hmask : captured.maskSplice = _ := maskSplice_eq hcount
  rw [hpending] at hmask
  -- The witnesses of `MaskedAt` are the frames of this point.
  have hiff : p.MaskedAt ctx ↔
      captured.maskSplice.decoder.decoded = captured.decoder.decoded.mapIdx
          (fadeInGain (min fadeInSamples captured.decoder.decodeLen)) ∧
        captured.maskSplice.timescale.histBuf = [] := by
    constructor
    · rintro ⟨c, q, heq, hmasked⟩
      rw [hframes, Option.some.injEq, Prod.mk.injEq] at heq
      obtain ⟨rfl, rfl⟩ := heq
      exact hmasked
    · exact fun hmasked => ⟨_, _, hframes, hmasked⟩
  rw [hiff, hmask, MaskArmed]
  cases hskipped : p.pendingGapFadein with
  | true =>
    rw [if_pos rfl]
    exact iff_of_true ⟨rfl, rfl⟩ (Or.inl rfl)
  | false =>
    rw [if_neg (by simp)]
    change captured.decoder.decoded = _ ∧ captured.timescale.histBuf = [] ↔ _
    rw [hhist, FrameDecoder.decodeLen, hdecoded]
    constructor
    · rintro ⟨hfixed, hempty⟩
      refine Or.inr ⟨hempty, fun pkt' hpkt' => ?_⟩
      obtain rfl : pkt = pkt' := Option.some.inj (hpop.symm.trans hpkt')
      exact hfixed.symm
    · rintro (hfalse | ⟨hempty, hfixed⟩)
      · exact absurd hfalse (by simp)
      · exact ⟨(hfixed pkt hpop).symm, hempty⟩

/-- In every run the first frame after a starvation is masked, each time, exactly when
each time the mask is armed by a gap skip. -/
theorem starvedPlays_masked_iff (C : Codec F) (config : JitterConfig F)
    (networkLink : NetworkLink) (clock : Instant) (inputs : List (Input F)) :
    (∀ point ∈ starvedPlays false ((machine C config networkLink clock).events inputs),
        MaskedAt point.1 point.2) ↔
      ∀ point ∈ starvedPlays false ((machine C config networkLink clock).events inputs),
        MaskArmed point.1 := by
  refine forall₂_congr fun point hpoint => ?_
  obtain ⟨e, -, hplay⟩ := exists_event_of_mem_starvedPlays hpoint
  exact maskedAt_iff (step_of_playPoint hplay).1

/-- A policy without any buffering. -/
def unbufferedConfig : JitterConfig SoftFloat := ⟨0, 400, 0, 0.25, some 0⟩

/-- The clock of a callback that finds no new configuration. -/
def steadyTick (now : Instant) : Tick SoftFloat := ⟨now, none, now, false⟩

/-- A packet plays, and the next one comes one callback late. -/
def lateInputs : List (Input SoftFloat) :=
  [.ingest [.silent 0 0], .callback (steadyTick 1), .consume 960, .callback (steadyTick 2),
    .consume 960, .ingest [.silent 1 3], .callback (steadyTick 4)]

theorem not_starvedPlays_masked_lateInputs : ¬ ∀ inputs : List (Input SoftFloat),
    ∀ point ∈ starvedPlays false
      ((machine (Codec.unfed SoftFloat) unbufferedConfig .ethernet 0).events inputs),
      MaskedAt point.1 point.2 := by
  intro h
  have hunarmed : (starvedPlays false
      ((machine (Codec.unfed SoftFloat) unbufferedConfig .ethernet 0).events lateInputs)).any
        (fun point => point.1.pendingGapFadein = false ∧ point.1.decoder.decoded ≠ []) = true := by
    decide +kernel
  obtain ⟨point, hpoint, hcold⟩ := List.any_eq_true.mp hunarmed
  obtain ⟨hpending, hframe⟩ := of_decide_eq_true hcold
  obtain ⟨e, -, hplay⟩ := exists_event_of_mem_starvedPlays hpoint
  rcases (maskedAt_iff (step_of_playPoint hplay).1).mp (h lateInputs point hpoint) with
    hskipped | ⟨hempty, -⟩
  · exact absurd (hpending.symm.trans hskipped) (by simp)
  · exact hframe hempty

end JitterBufferManager

end Gemacast.Jitter
