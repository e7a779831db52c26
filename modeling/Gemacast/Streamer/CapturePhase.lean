import Gemacast.Streamer.CaptureLoop

/-!
# The channels of a PipeWire capture

The ring between the callback and the loop carries samples of two channels in turn, and only
their places in it tell the channels apart. Here every sample bears its place in the stream
of the platform, which begins with a left sample.
-/

namespace Gemacast.Streamer

open Gemacast.Core Gemacast.Jitter Gemacast.Audio

/-- A sample with its place in the stream of the platform. -/
structure Placed (F : Type) where
  /-- The sample. -/
  value : F
  /-- How many samples the platform delivered before it. -/
  place : ℕ
  deriving DecidableEq, Repr

namespace Placed

variable {F : Type}

/-- Samples that follow each other in the stream of the platform. -/
def placed (first : ℕ) (samples : List F) : List (Placed F) :=
  samples.mapIdx fun i value => ⟨value, first + i⟩

@[simp] theorem length_placed (first : ℕ) (samples : List F) :
    (placed first samples).length = samples.length := by
  simp [placed]

/-- The channels of the samples alternate, from the channel of the given place on. -/
def Alternates (first : ℕ) (l : List (Placed F)) : Prop :=
  ∀ i x, l[i]? = some x → x.place % 2 = (first + i) % 2

variable {k first : ℕ} {l l' : List (Placed F)} {x : Placed F}

@[simp] theorem alternates_nil : Alternates first ([] : List (Placed F)) := by
  simp [Alternates]

theorem alternates_placed (first : ℕ) (samples : List F) :
    Alternates first (placed first samples) := by
  intro i x hx
  obtain ⟨value, -, rfl⟩ : ∃ value, samples[i]? = some value ∧ ⟨value, first + i⟩ = x := by
    simpa [placed] using hx
  rfl

theorem alternates_append :
    Alternates first (l ++ l') ↔ Alternates first l ∧ Alternates (first + l.length) l' := by
  constructor
  · refine fun h => ⟨fun i x hx => ?_, fun i x hx => ?_⟩
    · exact h i x (by rwa [List.getElem?_append_left (List.getElem?_eq_some_iff.mp hx).1])
    · rw [Nat.add_assoc]
      exact h (l.length + i) x (by rwa [List.getElem?_append_right (Nat.le_add_right _ _),
        Nat.add_sub_cancel_left])
  · rintro ⟨hl, hl'⟩ i x hx
    by_cases hi : i < l.length
    · exact hl i x (by rwa [List.getElem?_append_left hi] at hx)
    · rw [List.getElem?_append_right (Nat.le_of_not_lt hi)] at hx
      have hplace := hl' _ x hx
      rwa [Nat.add_assoc, Nat.add_sub_cancel' (Nat.le_of_not_lt hi)] at hplace

theorem alternates_cons :
    Alternates first (x :: l) ↔ x.place % 2 = first % 2 ∧ Alternates (first + 1) l := by
  rw [← List.singleton_append, alternates_append]
  refine and_congr_left fun _ => ⟨fun h => h 0 x rfl, fun h i y hy => ?_⟩
  obtain rfl : i = 0 := Nat.lt_one_iff.mp (List.getElem?_eq_some_iff.mp hy).1
  obtain rfl : x = y := Option.some.inj hy
  exact h

/-- Only the parity of the first place matters. -/
theorem Alternates.of_parity (h : Alternates first l) (hparity : first % 2 = k % 2) :
    Alternates k l := fun i x hx => by
  have hplace := h i x hx
  omega

end Placed

/-- A buffer that PipeWire hands over. -/
structure PwBuffer where
  /-- The memory of its first block of data, if it is mapped. -/
  data : Option (List UInt8)
  /-- Where the audio begins in it. -/
  offset : ℕ
  /-- The bytes of audio. -/
  size : ℕ
  deriving DecidableEq, Repr

namespace PwBuffer

/-- The audio of a buffer, if it is within the memory. -/
def audioBytes (b : PwBuffer) : Option (List UInt8) :=
  b.data.bind fun slice =>
    if b.offset + b.size ≤ slice.length then some ((slice.drop b.offset).take b.size) else none

end PwBuffer

/-- The samples that the ring has room for. -/
def pwRingBufferSize : ℕ := opusFrameSamples * 64

/-- A PipeWire capture. -/
structure PwCapture (F : Type) where
  /-- The ring, and the loop that reads it. -/
  capture : CaptureLoop (Placed F)
  /-- The stream has not failed and is not stopped. -/
  isRunning : Bool
  /-- How many samples the platform has delivered. -/
  delivered : ℕ
  deriving DecidableEq, Repr

/-- What happens to a PipeWire capture. -/
inductive PwInput
  /-- The platform calls back, with a buffer if one can be dequeued. -/
  | process (buffer : Option PwBuffer)
  /-- The stream fails, or the capture is stopped. -/
  | stopped
  /-- Something happens to the loop. -/
  | loop (input : LoopInput)
  deriving DecidableEq, Repr

/-- What the platform delivers with a buffer is whole pairs. -/
def PwInput.WholePairs : PwInput → Prop
  | .process buffer => ∀ bytes ∈ buffer.bind PwBuffer.audioBytes, bytes.length / 4 % 2 = 0
  | _ => True

instance : DecidablePred PwInput.WholePairs
  | .process buffer => inferInstanceAs
    (Decidable (∀ bytes ∈ buffer.bind PwBuffer.audioBytes, bytes.length / 4 % 2 = 0))
  | .stopped => .isTrue trivial
  | .loop _ => .isTrue trivial

namespace LoopPhase

/-- The samples that a drain has taken out. -/
def drained : LoopPhase → ℕ
  | .draining popped => popped
  | _ => 0

/-- The samples that a notification counted and that are not read yet. -/
def occupied : LoopPhase → ℕ
  | .counted occupied => occupied
  | .reading occupied => occupied
  | _ => 0

end LoopPhase

namespace PwCapture

variable {F : Type} [Binary32 F]

/-- The sample of silence, which no platform delivered. -/
def silence : Placed F := ⟨0.0, 0⟩

/-- Push the samples of a buffer with one push, or drop them all. -/
def pushPwAudioToRingbuf (samples : List (Placed F)) (s : CaptureLoop (Placed F)) :
    CaptureLoop (Placed F) :=
  if samples.length = 0 then s
  else if samples.length ≤ pwRingBufferSize - s.ring.length then
    (CaptureLoop.step silence s (.published samples)).1
  else (CaptureLoop.step silence s (.dropped samples.length)).1

/-- The callback of the platform. -/
def process (c : PwCapture F) (buffer : Option PwBuffer) : PwCapture F :=
  if c.isRunning then
    match buffer.bind PwBuffer.audioBytes with
    | some audioBytes =>
      let samples := Placed.placed c.delivered (wholeSamples (F := F) audioBytes)
      { c with
        capture := pushPwAudioToRingbuf samples c.capture
        delivered := c.delivered + samples.length }
    | none => c
  else c

/-- One step of a PipeWire capture. -/
def step (c : PwCapture F) : PwInput → PwCapture F × CaptureOutput (Placed F)
  | .process buffer => (c.process buffer, .nothing)
  | .stopped => ({ c with isRunning := false }, .nothing)
  | .loop i =>
    let next := CaptureLoop.loopStep silence c.capture i
    ({ c with capture := next.1 }, next.2)

/-- A PipeWire capture from its start on. -/
def machine (F : Type) [Binary32 F] (listeners : ℕ) :
    Machine (PwCapture F) PwInput (CaptureOutput (Placed F)) :=
  ⟨⟨.new listeners {}, true, 0⟩, step⟩

/-- One step of a run. -/
abbrev PwEvent (F : Type) := Event (PwCapture F) PwInput (CaptureOutput (Placed F))

/-- The producer changes the ring by whole pairs, at even places of a frame that was read there
are left samples, and the consumer discards whole pairs. -/
structure KeepsPhase (e : PwEvent F) : Prop where
  /-- One push is a list of whole pairs. -/
  pushed : ∀ buffer, e.input = .process buffer → ∃ samples : List (Placed F),
    e.after.capture.ring = e.before.capture.ring ++ samples ∧ samples.length % 2 = 0
  /-- Left samples are at the even places of a frame. -/
  frames : ∀ samples frames readAt, e.output = .read samples frames readAt →
    ∀ f ∈ frames, ∀ i x, f.samples[i]? = some x → i % 2 = 0 → x.place % 2 = 0
  /-- One drain discards whole pairs. -/
  cleared : ∀ popped samples, e.output = .cleared popped samples →
    popped % 2 = 0 ∧ samples.length % 2 = 0

section Phase

/-- The ring and the buffer hold whole pairs, up to what a drain has taken out already. -/
structure InPhase (phase : LoopPhase) (ring sampleBuf : List (Placed F)) : Prop where
  /-- The channels of what is buffered alternate. -/
  buffered : Placed.Alternates 0 sampleBuf
  /-- What is buffered are whole pairs. -/
  evenBuffered : sampleBuf.length % 2 = 0
  /-- The channels of what is in the ring alternate. -/
  inRing : Placed.Alternates phase.drained ring
  /-- What is in the ring are whole pairs, with what the drain has taken out. -/
  evenRing : (phase.drained + ring.length) % 2 = 0
  /-- What was counted are whole pairs. -/
  evenOccupied : phase.occupied % 2 = 0
  /-- What was counted is in the ring. -/
  occupied_le : phase.occupied ≤ ring.length

/-- The loop is in phase. -/
abbrev LoopInPhase (s : CaptureLoop (Placed F)) : Prop := InPhase s.phase s.ring s.sampleBuf

/-- Left samples are at even places of the frames that are read, and whole pairs are cleared. -/
def OutputInPhase (o : CaptureOutput (Placed F)) : Prop :=
  (∀ samples frames readAt, o = .read samples frames readAt →
    ∀ f ∈ frames, Placed.Alternates 0 f.samples) ∧
  ∀ popped samples, o = .cleared popped samples → popped % 2 = 0 ∧ samples.length % 2 = 0

/-- Nothing is read and nothing is cleared. -/
def Inert : CaptureOutput (Placed F) → Prop
  | .read _ _ _ | .cleared _ _ => False
  | _ => True

omit [Binary32 F] in
theorem outputInPhase_of_inert {o : CaptureOutput (Placed F)} (h : Inert o) : OutputInPhase o := by
  constructor
  · rintro samples frames readAt rfl
    exact h.elim
  · rintro popped samples rfl
    exact h.elim

variable {phase : LoopPhase} {ring sampleBuf samples : List (Placed F)} {x : Placed F} {n : ℕ}

omit [Binary32 F] in
/-- A phase in which as much is drained and nothing is counted. -/
theorem InPhase.entered (h : InPhase phase ring sampleBuf) {phase' : LoopPhase}
    (hdrained : phase'.drained = phase.drained) (hoccupied : phase'.occupied = 0) :
    InPhase phase' ring sampleBuf := by
  refine ⟨h.buffered, h.evenBuffered, ?_, ?_, ?_, ?_⟩
  · rw [hdrained]
    exact h.inRing
  · rw [hdrained]
    exact h.evenRing
  · rw [hoccupied]
  · rw [hoccupied]
    exact Nat.zero_le _

omit [Binary32 F] in
/-- Whole pairs behind the ring. -/
theorem InPhase.published (h : InPhase phase ring sampleBuf)
    (halternates : Placed.Alternates 0 samples) (heven : samples.length % 2 = 0) :
    InPhase phase (ring ++ samples) sampleBuf := by
  have hring := h.evenRing
  refine ⟨h.buffered, h.evenBuffered, ?_, ?_, h.evenOccupied, ?_⟩
  · exact Placed.alternates_append.mpr ⟨h.inRing, halternates.of_parity (by omega)⟩
  · rw [List.length_append]
    omega
  · rw [List.length_append]
    exact Nat.le_add_right_of_le h.occupied_le

omit [Binary32 F] in
/-- A notification counts whole pairs. -/
theorem InPhase.counted (h : InPhase .idle ring sampleBuf) :
    InPhase (.counted ring.length) ring sampleBuf := by
  have hring : (0 + ring.length) % 2 = 0 := h.evenRing
  rw [Nat.zero_add] at hring
  exact ⟨h.buffered, h.evenBuffered, h.inRing, h.evenRing, hring, le_rfl⟩

omit [Binary32 F] in
/-- A drain takes one more sample out. -/
theorem InPhase.popped (h : InPhase (.draining n) (x :: ring) sampleBuf) :
    InPhase (.draining (n + 1)) ring sampleBuf := by
  have hring : (n + (ring.length + 1)) % 2 = 0 := h.evenRing
  refine ⟨h.buffered, h.evenBuffered, (Placed.alternates_cons.mp h.inRing).2, ?_, rfl,
    Nat.zero_le _⟩
  change (n + 1 + ring.length) % 2 = 0
  omega

omit [Binary32 F] in
/-- Frames that were cut off whole pairs are in phase, and so is the rest. -/
theorem alternates_cut {frames : List (CapturedFrame (Placed F) ℚ)} {rest : List (Placed F)}
    (h : Placed.Alternates 0 (frames.flatMap CapturedFrame.samples ++ rest))
    (hwhole : ∀ f ∈ frames, f.samples.length = opusFrameSamples) :
    (∀ f ∈ frames, Placed.Alternates 0 f.samples) ∧ Placed.Alternates 0 rest := by
  induction frames with
  | nil => exact ⟨nofun, h⟩
  | cons f frames ih =>
    obtain ⟨hf, hframes⟩ := List.forall_mem_cons.mp hwhole
    rw [List.flatMap_cons, List.append_assoc, Placed.alternates_append, hf] at h
    obtain ⟨hhead, htail⟩ := ih (h.2.of_parity (by decide)) hframes
    exact ⟨List.forall_mem_cons.mpr ⟨h.1, hhead⟩, htail⟩

omit [Binary32 F] in
theorem length_flatMap_samples {frames : List (CapturedFrame (Placed F) ℚ)}
    (hwhole : ∀ f ∈ frames, f.samples.length = opusFrameSamples) :
    (frames.flatMap CapturedFrame.samples).length = frames.length * opusFrameSamples := by
  induction frames with
  | nil => exact (Nat.zero_mul _).symm
  | cons f frames ih =>
    obtain ⟨hf, hframes⟩ := List.forall_mem_cons.mp hwhole
    rw [List.flatMap_cons, List.length_append, hf, ih hframes, List.length_cons, Nat.succ_mul,
      Nat.add_comm]

variable {s : CaptureLoop (Placed F)}

/-- A read takes whole pairs and cuts frames of whole pairs. -/
theorem inPhase_reading (h : LoopInPhase s) (now : ℚ) (hphase : s.phase = .reading n) :
    LoopInPhase (CaptureLoop.proceed silence s now).1 ∧
      OutputInPhase (CaptureLoop.proceed silence s now).2 := by
  obtain ⟨frames, rest, next, hproceed, hcuts⟩ := CaptureLoop.proceed_reading silence now hphase
  rw [LoopInPhase, hphase] at h
  have heven : n % 2 = 0 := h.evenOccupied
  have hle : n ≤ s.ring.length := h.occupied_le
  have hlength : (s.ring.take n).length = n := List.length_take_of_le hle
  have hring : Placed.Alternates 0 (s.ring.take n ++ s.ring.drop n) := by
    rw [List.take_append_drop]
    exact h.inRing
  obtain ⟨htaken, hleft⟩ := Placed.alternates_append.mp hring
  have hbuf : Placed.Alternates 0 (s.sampleBuf ++ s.ring.take n) :=
    Placed.alternates_append.mpr ⟨h.buffered,
      htaken.of_parity (by rw [Nat.zero_add, h.evenBuffered])⟩
  rw [← hcuts.samples] at hbuf
  obtain ⟨hframes, hrest⟩ := alternates_cut hbuf hcuts.whole
  rw [hproceed]
  refine ⟨⟨hrest, ?_, ?_, ?_, rfl, Nat.zero_le _⟩, ?_, nofun⟩
  · have hlengths := congrArg List.length hcuts.samples
    rw [List.length_append, List.length_append, length_flatMap_samples hcuts.whole, hlength]
      at hlengths
    have hbuffered := h.evenBuffered
    rw [opusFrameSamples, opusFrameSize, opusChannels] at hlengths
    dsimp only
    omega
  · exact hleft.of_parity (by rw [hlength, Nat.zero_add]; exact heven)
  · have hwhole : (0 + s.ring.length) % 2 = 0 := h.evenRing
    simp only [LoopPhase.drained, List.length_drop]
    omega
  · rintro samples frames' readAt ⟨⟩
    exact hframes

/-- Going on within a notification takes whole pairs, and discards whole pairs. -/
theorem inPhase_proceed (h : LoopInPhase s) (now : ℚ) :
    LoopInPhase (CaptureLoop.proceed silence s now).1 ∧
      OutputInPhase (CaptureLoop.proceed silence s now).2 := by
  cases hphase : s.phase with
  | reading n => exact inPhase_reading h now hphase
  | counted n =>
    rw [LoopInPhase, hphase] at h
    rw [CaptureLoop.proceed, hphase]
    dsimp only
    split
    · exact ⟨h.entered rfl rfl, outputInPhase_of_inert trivial⟩
    · split
      · exact ⟨⟨h.buffered, h.evenBuffered, h.inRing, h.evenRing, h.evenOccupied, h.occupied_le⟩,
          outputInPhase_of_inert trivial⟩
      · exact ⟨h.entered rfl rfl, outputInPhase_of_inert trivial⟩
  | draining n =>
    rw [LoopInPhase, hphase] at h
    rw [CaptureLoop.proceed, hphase]
    dsimp only
    split
    · next sample ring hring =>
      rw [hring] at h
      exact ⟨h.popped, outputInPhase_of_inert trivial⟩
    · next hring =>
      rw [hring] at h
      refine ⟨⟨Placed.alternates_nil, rfl, ?_, ?_, rfl, Nat.zero_le _⟩, ?_, ?_⟩
      · rw [hring]
        exact Placed.alternates_nil
      · rw [hring]
        rfl
      · rintro _ _ _ ⟨⟩
      · rintro popped samples ⟨⟩
        exact ⟨h.evenRing, h.evenBuffered⟩
  | idle =>
    rw [CaptureLoop.proceed, hphase]
    exact ⟨h, outputInPhase_of_inert trivial⟩
  | ended =>
    rw [CaptureLoop.proceed, hphase]
    exact ⟨h, outputInPhase_of_inert trivial⟩

/-- The loop keeps the channels where they belong. -/
theorem inPhase_loopStep (h : LoopInPhase s) (i : LoopInput) :
    LoopInPhase (CaptureLoop.loopStep silence s i).1 ∧
      OutputInPhase (CaptureLoop.loopStep silence s i).2 := by
  have hunread : LoopInPhase s ∧ OutputInPhase (.nothing : CaptureOutput (Placed F)) :=
    ⟨h, outputInPhase_of_inert trivial⟩
  -- outside of a wait no event is taken up
  have hselect (hselected : s.phase = .idle → LoopInPhase (CaptureLoop.select silence s i).1 ∧
      OutputInPhase (CaptureLoop.select silence s i).2) :
      LoopInPhase (if s.phase = .idle then CaptureLoop.select silence s i else (s, .nothing)).1 ∧
        OutputInPhase
          (if s.phase = .idle then CaptureLoop.select silence s i else (s, .nothing)).2 := by
    split
    · next hidle => exact hselected hidle
    · exact hunread
  have hended (hidle : s.phase = .idle) : InPhase .ended s.ring s.sampleBuf := by
    rw [LoopInPhase, hidle] at h
    exact h.entered rfl rfl
  cases i with
  | listeners count => exact ⟨h, outputInPhase_of_inert trivial⟩
  | proceed now => exact inPhase_proceed h now
  | notified =>
    refine hselect fun hidle => ⟨?_, outputInPhase_of_inert trivial⟩
    rw [LoopInPhase, hidle] at h
    exact h.counted
  | streamError => exact hselect fun hidle => ⟨hended hidle, outputInPhase_of_inert trivial⟩
  | shutdown => exact hselect fun hidle => ⟨hended hidle, outputInPhase_of_inert trivial⟩
  | counterTick =>
    refine hselect fun _ => ?_
    rw [CaptureLoop.select]
    split
    · exact hunread
    · exact ⟨h, outputInPhase_of_inert trivial⟩
  | silenceTick now =>
    refine hselect fun _ => ?_
    rw [CaptureLoop.select]
    split
    · exact ⟨h, outputInPhase_of_inert trivial⟩
    · exact hunread

/-- Whole pairs are pushed together, or dropped together. -/
theorem inPhase_push (h : LoopInPhase s) (halternates : Placed.Alternates 0 samples)
    (heven : samples.length % 2 = 0) :
    LoopInPhase (pushPwAudioToRingbuf samples s) ∧ ∃ pushed : List (Placed F),
      (pushPwAudioToRingbuf samples s).ring = s.ring ++ pushed ∧ pushed.length % 2 = 0 := by
  rw [pushPwAudioToRingbuf]
  split
  · exact ⟨h, [], (List.append_nil _).symm, rfl⟩
  · split
    · exact ⟨h.published halternates heven, samples, rfl, heven⟩
    · exact ⟨h, [], (List.append_nil _).symm, rfl⟩

variable {c : PwCapture F}

/-- What the callback does with whole pairs. -/
theorem inPhase_process (h : LoopInPhase c.capture) (hdelivered : c.delivered % 2 = 0)
    {buffer : Option PwBuffer}
    (hwhole : c.isRunning = true → (PwInput.process buffer).WholePairs) :
    (LoopInPhase (c.process buffer).capture ∧ (c.process buffer).delivered % 2 = 0) ∧
      ∃ samples : List (Placed F), (c.process buffer).capture.ring = c.capture.ring ++ samples ∧
        samples.length % 2 = 0 := by
  rw [process]
  split
  · next hrunning =>
    split
    · next audioBytes hbytes =>
      have hlength : (Placed.placed c.delivered (wholeSamples (F := F) audioBytes)).length % 2 =
          0 := by
        rw [Placed.length_placed, length_wholeSamples]
        exact hwhole hrunning audioBytes hbytes
      have halternates : Placed.Alternates 0
          (Placed.placed c.delivered (wholeSamples (F := F) audioBytes)) :=
        (Placed.alternates_placed _ _).of_parity hdelivered
      obtain ⟨hpushed, hring⟩ := inPhase_push h halternates hlength
      refine ⟨⟨hpushed, ?_⟩, hring⟩
      dsimp only
      omega
    · exact ⟨⟨h, hdelivered⟩, [], (List.append_nil _).symm, rfl⟩
  · exact ⟨⟨h, hdelivered⟩, [], (List.append_nil _).symm, rfl⟩

/-- A step with whole pairs keeps the channels where they belong. -/
theorem keepsPhase_eventAt (listeners : ℕ) (h : LoopInPhase c.capture)
    (hdelivered : c.delivered % 2 = 0) {i : PwInput}
    (hwhole : c.isRunning = true → i.WholePairs) :
    (LoopInPhase ((machine F listeners).step c i).1.capture ∧
        ((machine F listeners).step c i).1.delivered % 2 = 0) ∧
      KeepsPhase ((machine F listeners).eventAt c i) := by
  cases i with
  | process buffer =>
    obtain ⟨hnext, hpushed⟩ := inPhase_process h hdelivered hwhole
    exact ⟨hnext, fun _ _ => hpushed, nofun, nofun⟩
  | stopped => exact ⟨⟨h, hdelivered⟩, nofun, nofun, nofun⟩
  | loop i =>
    obtain ⟨hnext, hframes, hcleared⟩ := inPhase_loopStep h i
    refine ⟨⟨hnext, hdelivered⟩, nofun, ?_, hcleared⟩
    intro samples frames readAt hread f hf j x hx hj
    have hplace := hframes samples frames readAt hread f hf j x hx
    omega

/-- In every run in which the platform delivers whole pairs as long as it runs, whole pairs are
pushed and cleared, and the left samples of a frame are at its even places. -/
theorem keepsPhase_of_run (listeners : ℕ) (inputs : List PwInput)
    (hwhole : ∀ e ∈ (machine F listeners).events inputs,
      e.before.isRunning = true → e.input.WholePairs) :
    ∀ e ∈ (machine F listeners).events inputs, KeepsPhase e := by
  obtain ⟨hinv, -⟩ := (machine F listeners).invariant
    (I := fun c => LoopInPhase c.capture ∧ c.delivered % 2 = 0)
    (p := fun c i => c.isRunning = true → i.WholePairs)
    ⟨⟨Placed.alternates_nil, rfl, Placed.alternates_nil, rfl, rfl, le_rfl⟩, rfl⟩
    (fun c i h hi => (keepsPhase_eventAt listeners h.1 h.2 hi).1) hwhole
  intro e he
  obtain ⟨hloop, hdelivered⟩ := (hinv e he).1
  rw [(machine F listeners).eq_eventAt_of_mem he]
  exact (keepsPhase_eventAt listeners hloop hdelivered (hwhole e he)).2

/-- A mapped buffer of zeros. -/
def zeroBuffer (samples : ℕ) : PwInput :=
  .process (some ⟨some (List.replicate (samples * 4) 0), 0, samples * 4⟩)

/-- The loop takes up a notification and goes on so many times. -/
def rounds (count : ℕ) : List PwInput :=
  .loop .notified :: List.replicate count (.loop (.proceed 0))

/-- Whole pairs that are drained, and whole pairs that a listener hears. -/
def pairedInputs : List PwInput :=
  zeroBuffer 4 :: rounds 6 ++ .loop (.listeners 1) :: zeroBuffer 6 :: rounds 2

theorem keepsPhase_of_run_pairedInputs : (∀ i ∈ pairedInputs, i.WholePairs) ∧
    ∀ e ∈ (machine SoftFloat 0).events pairedInputs, KeepsPhase e := by
  have hwhole : ∀ i ∈ pairedInputs, i.WholePairs := by decide
  exact ⟨hwhole, keepsPhase_of_run 0 pairedInputs fun e he _ =>
    hwhole _ ((machine SoftFloat 0).input_mem he)⟩

/-- A frame that is read with an odd sample first has its channels swapped. -/
theorem not_keepsPhase_of_reading (listeners : ℕ) (hphase : c.capture.phase = .reading n)
    (hbuf : c.capture.sampleBuf = []) (hn : opusFrameSamples ≤ n)
    (hfirst : c.capture.ring[0]? = some x) (hright : x.place % 2 = 1)
    (hlength : n ≤ c.capture.ring.length) :
    ¬KeepsPhase ((machine F listeners).eventAt c (.loop (.proceed 0))) := by
  obtain ⟨frames, rest, next, hproceed, hcuts⟩ := CaptureLoop.proceed_reading silence 0 hphase
  have hsamples := hcuts.samples
  rw [hbuf, List.nil_append] at hsamples
  have hout : ((machine F listeners).eventAt c (.loop (.proceed 0))).output =
      .read (c.capture.ring.take n) frames 0 := congrArg Prod.snd hproceed
  have hpos : 0 < opusFrameSamples := CaptureLoop.frame_pos
  intro hkeeps
  cases frames with
  | nil =>
    have hlengths := congrArg List.length hsamples
    rw [List.flatMap_nil, List.nil_append, List.length_take_of_le hlength] at hlengths
    have hshort := hcuts.short
    omega
  | cons f frames =>
    have hfull := hcuts.whole f List.mem_cons_self
    have hhead : f.samples[0]? = some x := by
      have htake : (c.capture.ring.take n)[0]? = c.capture.ring[0]? :=
        List.getElem?_take_of_lt (Nat.lt_of_lt_of_le hpos hn)
      rw [← hsamples, List.flatMap_cons, List.append_assoc,
        List.getElem?_append_left (by omega)] at htake
      exact htake.trans hfirst
    have hleft := hkeeps.frames _ _ _ hout f List.mem_cons_self 0 x hhead rfl
    omega

/-- Three samples that are drained, and a frame that a listener is about to hear then. -/
def oddInputs : List PwInput :=
  zeroBuffer 3 :: rounds 5 ++ .loop (.listeners 1) :: List.replicate 40 (zeroBuffer 24) ++ rounds 1

theorem not_keepsPhase_oddInputs :
    ¬∀ e ∈ (machine SoftFloat 0).events (oddInputs ++ [.loop (.proceed 0)]), KeepsPhase e := by
  obtain ⟨hphase, hbuf, hfirst, hlength⟩ :
      ((machine SoftFloat 0).run oddInputs).capture.phase = .reading 960 ∧
      ((machine SoftFloat 0).run oddInputs).capture.sampleBuf = [] ∧
      ((machine SoftFloat 0).run oddInputs).capture.ring[0]? = some ⟨0.0, 3⟩ ∧
      960 ≤ ((machine SoftFloat 0).run oddInputs).capture.ring.length := by
    decide +kernel
  intro hkeeps
  refine not_keepsPhase_of_reading 0 hphase hbuf le_rfl hfirst rfl hlength (hkeeps _ ?_)
  rw [Machine.events_concat]
  exact List.mem_append_right _ List.mem_cons_self

end Phase

end PwCapture

end Gemacast.Streamer
