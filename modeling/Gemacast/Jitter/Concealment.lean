import Gemacast.Jitter.Starvation

/-!
# The entry of a concealment

The first concealed frame after a frame that was played as it is. The history it
repeats was written before that frame was decoded, so it is the frame one earlier:
the concealment continues what was played exactly when both frames have the same
samples.
-/

set_option linter.unusedSectionVars false

namespace Gemacast.Jitter

open Gemacast.Core

section Sources

variable {F : Type}

/-- The samples are a decoded frame as it is. -/
def Source.isVerbatim : Source F → Bool
  | .verbatim => true
  | _ => false

/-- The history that pitch repetition repeats. -/
def Source.repeated : Source F → Option (List F)
  | .pitchConceal history => some history
  | _ => none

theorem Source.eq_verbatim {source : Source F} (h : source.isVerbatim = true) :
    source = .verbatim := by
  cases source with
  | verbatim => rfl
  | _ => nomatch h

theorem Source.eq_pitchConceal {source : Source F} {history : List F}
    (h : source.repeated = some history) : source = .pitchConceal history := by
  cases source with
  | pitchConceal _ => exact congrArg Source.pitchConceal (Option.some.inj h)
  | _ => nomatch h

end Sources

namespace JitterBufferManager

variable {F : Type} [Binary32 F] [FrameMark F] {C : Codec F} {m p : JitterBufferManager C}
  {ctx : FrameContext}

/-- The callback ended with a decoded frame as it is. -/
def playsVerbatim (e : PlayerEvent C) : Bool :=
  e.after.emissions.getLast?.any fun emission => emission.source.isVerbatim

/-- The history repeated by the concealment a callback ended with. -/
def repeatedHistory (e : PlayerEvent C) : Option (List F) :=
  e.after.emissions.getLast?.bind fun emission => emission.source.repeated

/-- The callbacks that repeat a history right after a callback that played a frame as it
is, each with the point at which that frame was played; `last` is the point of the
callback before the events. -/
def firstConceals (last : Option (JitterBufferManager C)) :
    List (PlayerEvent C) → List (JitterBufferManager C × PlayerEvent C)
  | [] => []
  | e :: events =>
    match e.before.refill e.input, e.before.playPoint e.input with
    | none, _ => firstConceals last events
    | some _, some (p, _) => firstConceals (if playsVerbatim e then some p else none) events
    | some _, none =>
      ((last.toList.filter fun _ => (repeatedHistory e).isSome).map fun p => (p, e)) ++
        firstConceals none events

/-- The history repeated is what was appended last before the concealment. -/
def ContinuesPlayed (e : PlayerEvent C) : Prop :=
  ∀ history ∈ repeatedHistory e,
    (e.before.emissions ++ e.after.emissions.dropLast).getLast?.map Emission.samples =
      some history

/-- The callback appends its concealment only, no splice of a flush. -/
def Unflushed (e : PlayerEvent C) : Prop := e.after.emissions.dropLast = []

instance [DecidableEq F] (e : PlayerEvent C) : Decidable (ContinuesPlayed e) :=
  inferInstanceAs (Decidable (∀ history ∈ repeatedHistory e, _))

instance [DecidableEq F] (e : PlayerEvent C) : Decidable (Unflushed e) :=
  inferInstanceAs (Decidable (_ = _))

/-- The packet played decodes to the samples of the frame before it. -/
def RepeatsFrame (p : JitterBufferManager C) : Prop :=
  ∀ pkt ∈ p.buffer.popNext.2, (p.decoder.capture pkt).decoded = p.decoder.decoded

instance [DecidableEq F] : DecidablePred (RepeatsFrame (C := C)) := fun p =>
  inferInstanceAs (Decidable (∀ pkt ∈ p.buffer.popNext.2, _))

/-- The frame played as it is at `p` is the last append, and what is remembered is the
frame before it, if anything is. -/
structure PlayedAt (p m : JitterBufferManager C) (pkt : RawPacket) (frame : List F) : Prop where
  popped : p.buffer.popNext.2 = some pkt
  appended : m.emissions.getLast? = some ⟨.verbatim, frame⟩
  remembered : m.timescale.histBuf = [] ∨
    m.timescale.histBuf = p.decoder.decoded ∧ frame = (p.decoder.capture pkt).decoded

/-- A callback that ends with a frame as it is remembers the frame before it, unless the
splice was masked. -/
theorem step_playedAt {i : Input F} (hp : m.playPoint i = some (p, ctx))
    (hverbatim : ((m.step i).1.emissions.getLast?.any fun e => e.source.isVerbatim) = true) :
    ∃ pkt frame, PlayedAt p (m.step i).1 pkt frame := by
  obtain ⟨hnext, hstep, -⟩ := step_of_playPoint hp
  obtain ⟨pkt, control, flow, captured, hpop, -, -, hstarved, hcaptured, -, hplay⟩ :=
    frames_of_hasNext ctx hnext
  obtain ⟨e, hemissions, hasIs⟩ := captured.maskSplice.playPrepared_emission ctx
  rw [hstep, hplay] at hverbatim ⊢
  rw [hemissions, List.getLast?_concat, Option.any_some] at hverbatim
  have hsource := Source.eq_verbatim hverbatim
  obtain ⟨hsamples, hhist⟩ := hasIs hsource
  refine ⟨pkt, e.samples, hpop, ?_, ?_⟩
  · rw [hemissions, List.getLast?_concat, ← hsource]
  · have hmask : captured.maskSplice = _ := maskSplice_eq (by rw [hcaptured]; exact hstarved)
    have hdecoded : captured.decoder.decoded = (p.decoder.capture pkt).decoded := by
      rw [hcaptured]
      rfl
    have hremembered : captured.timescale.histBuf = p.decoder.decoded := by
      rw [hcaptured]
      exact List.take_of_length_le p.decoder.decodeBuf.property
    rw [hhist, hsamples, hmask]
    split
    · exact Or.inl rfl
    · exact Or.inr ⟨hremembered, hdecoded⟩

/-- A step that refills nothing keeps the last append, and the history or nothing. -/
theorem PlayedAt.step_idle {pkt : RawPacket} {frame : List F} (h : PlayedAt p m pkt frame)
    {i : Input F} (hidle : m.refill i = none) : PlayedAt p (m.step i).1 pkt frame := by
  obtain ⟨hpop, happended, hremembered⟩ := h
  cases i with
  | ingest pkts =>
    obtain ⟨_, _, _, _, heq, -⟩ := m.ingestPackets_eq pkts
    change PlayedAt p (m.ingestPackets pkts) pkt frame
    rw [heq]
    exact ⟨hpop, happended, hremembered⟩
  | callback tick =>
    have hfull : ¬m.playbackBuf.isEmpty = true := by
      intro hempty
      change (if m.playbackBuf.isEmpty = true then some tick else none) = none at hidle
      rw [if_pos hempty] at hidle
      nomatch hidle
    change PlayedAt p (if m.playbackBuf.isEmpty = true then _ else (m, none)).1 pkt frame
    rw [if_neg hfull]
    exact ⟨hpop, happended, hremembered⟩
  | consume take => exact ⟨hpop, happended, hremembered⟩
  | reset => exact ⟨hpop, happended, Or.inl rfl⟩

/-- What a first concealed frame repeats, and what was appended before its callback. -/
theorem firstConceals_spec (M : Machine (JitterBufferManager C) (Input F) (Option DepthLine))
    (hM : M.step = step) {last : Option (JitterBufferManager C)} {inputs : List (Input F)}
    (hlast : ∀ p, last = some p → ∃ pkt frame, PlayedAt p m pkt frame) :
    ∀ point ∈ firstConceals last (M.eventsFrom m inputs), ∃ pkt frame,
      point.1.buffer.popNext.2 = some pkt ∧
      point.2.before.emissions.getLast? = some ⟨.verbatim, frame⟩ ∧
      repeatedHistory point.2 = some point.1.decoder.decoded ∧
      frame = (point.1.decoder.capture pkt).decoded := by
  induction inputs generalizing m last with
  | nil => simp [firstConceals]
  | cons i inputs ih =>
    intro point hpoint
    rw [Machine.eventsFrom_cons, hM] at hpoint
    unfold firstConceals at hpoint
    simp only [Machine.eventAt_before, Machine.eventAt_input] at hpoint
    split at hpoint
    · rename_i hidle
      refine ih (fun p hp => ?_) point hpoint
      obtain ⟨pkt, frame, hplayed⟩ := hlast p hp
      exact ⟨pkt, frame, hplayed.step_idle hidle⟩
    · rename_i p _ _ hplay
      refine ih (fun p' hp' => ?_) point hpoint
      split at hp'
      · rename_i hverbatim
        rw [Option.some.injEq] at hp'
        subst hp'
        unfold playsVerbatim at hverbatim
        rw [Machine.eventAt_after, hM] at hverbatim
        exact step_playedAt hplay hverbatim
      · nomatch hp'
    · rename_i tick hrefill hplay
      rcases List.mem_append.mp hpoint with hfirst | hrest
      · simp only [List.mem_map, List.mem_filter, Option.mem_toList] at hfirst
        obtain ⟨p, ⟨hp, hsome⟩, rfl⟩ := hfirst
        obtain ⟨pkt, frame, hplayed⟩ := hlast p hp
        obtain ⟨splices, e, hemissions, -, hconceals⟩ := step_of_no_playPoint hrefill hplay
        obtain ⟨history, hhistory⟩ := Option.isSome_iff_exists.mp hsome
        have hrepeated : e.source.repeated = some history := by
          unfold repeatedHistory at hhistory
          rw [Machine.eventAt_after, hM, hemissions, List.getLast?_concat] at hhistory
          exact hhistory
        obtain ⟨heq, hlong⟩ := hconceals.repeated history (Source.eq_pitchConceal hrepeated)
        -- A history that can be repeated is not empty, so the splice was not masked.
        rcases hplayed.remembered with hnone | ⟨hhist, hframe⟩
        · rw [heq, hnone] at hlong
          exact absurd hlong (by simp [minSearchFrames, olaLen])
        · refine ⟨pkt, frame, hplayed.popped, hplayed.appended, ?_, hframe⟩
          rw [hhistory, heq, hhist]
      · exact ih (by simp) point hrest

/-- In every run in which no first concealed frame follows a flush in its own callback,
each continues what was played exactly when each follows two frames of equal samples. -/
theorem firstConceals_continue_iff (C : Codec F) (config : JitterConfig F)
    (networkLink : NetworkLink) (clock : Instant) (inputs : List (Input F))
    (hunflushed : ∀ point ∈
      firstConceals none ((machine C config networkLink clock).events inputs), Unflushed point.2) :
    (∀ point ∈ firstConceals none ((machine C config networkLink clock).events inputs),
        ContinuesPlayed point.2) ↔
      ∀ point ∈ firstConceals none ((machine C config networkLink clock).events inputs),
        RepeatsFrame point.1 := by
  refine forall₂_congr fun point hpoint => ?_
  obtain ⟨pkt, frame, hpop, happended, hrepeated, hframe⟩ :=
    firstConceals_spec _ rfl (by simp) point hpoint
  have hlast : (point.2.before.emissions ++ point.2.after.emissions.dropLast).getLast?.map
      Emission.samples = some frame := by
    rw [hunflushed point hpoint, List.append_nil, happended]
    rfl
  unfold ContinuesPlayed RepeatsFrame
  rw [hlast]
  constructor
  · intro hcontinues pkt' hpkt'
    obtain rfl : pkt = pkt' := Option.some.inj (hpop.symm.trans hpkt')
    rw [← hframe]
    exact Option.some.inj (hcontinues _ hrepeated)
  · intro hrepeats history hhistory
    obtain rfl := Option.some.inj (hrepeated.symm.trans hhistory)
    rw [hframe, hrepeats pkt hpop]

/-- A silent packet plays, then another one, then nothing arrives. -/
def silentInputs : List (Input SoftFloat) :=
  [.ingest [.silent 0 0], .callback (steadyTick 1), .consume 960, .ingest [.silent 1 1],
    .callback (steadyTick 2), .consume 960, .callback (steadyTick 3)]

theorem firstConceals_continue_iff_silentInputs :
    (firstConceals none
        ((machine (Codec.unfed SoftFloat) unbufferedConfig .ethernet 0).events
          silentInputs)).length = 1 ∧
      ∀ point ∈ firstConceals none
        ((machine (Codec.unfed SoftFloat) unbufferedConfig .ethernet 0).events silentInputs),
        ContinuesPlayed point.2 := by
  obtain ⟨hone, hunflushed, hrepeats⟩ :
      (firstConceals none
        ((machine (Codec.unfed SoftFloat) unbufferedConfig .ethernet 0).events
          silentInputs)).length = 1 ∧
      (∀ point ∈ firstConceals none
        ((machine (Codec.unfed SoftFloat) unbufferedConfig .ethernet 0).events silentInputs),
        Unflushed point.2) ∧
      ∀ point ∈ firstConceals none
        ((machine (Codec.unfed SoftFloat) unbufferedConfig .ethernet 0).events silentInputs),
        RepeatsFrame point.1 := by
    decide +kernel
  exact ⟨hone, (firstConceals_continue_iff _ _ _ _ silentInputs hunflushed).mpr hrepeats⟩

/-- A silent packet plays, then one of two loud samples, then nothing arrives. -/
def cutInputs : List (Input SoftFloat) :=
  [.ingest [.silent 0 0], .callback (steadyTick 1), .consume 960,
    .ingest [⟨1, [0, 0, 128, 63, 0, 0, 128, 63], 1, true, false, by decide⟩],
    .callback (steadyTick 2), .consume 960, .callback (steadyTick 3)]

theorem not_firstConceals_continue_cutInputs : ¬ ∀ inputs : List (Input SoftFloat),
    ∀ point ∈ firstConceals none
      ((machine (Codec.unfed SoftFloat) unbufferedConfig .ethernet 0).events inputs),
      ContinuesPlayed point.2 := by
  intro h
  have hcut := h cutInputs
  revert hcut
  decide +kernel

end JitterBufferManager

end Gemacast.Jitter
