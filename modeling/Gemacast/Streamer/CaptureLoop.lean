import Mathlib.Algebra.Order.Field.Rat
import Mathlib.Tactic.Linarith
import Mathlib.Tactic.Positivity
import Mathlib.Tactic.Ring
import Gemacast.Core.Recut
import Gemacast.Audio.Capture
import Gemacast.Streamer.PacketPacer

/-!
# The capture loop

A callback of the platform publishes samples into a ring; a loop on another thread takes
them out and broadcasts frames of equal length. What the loop does between two of its
accesses to the ring is one step, so that publications may fall between any two of them.
Instants are rational numbers of seconds here.
-/

namespace Gemacast.Streamer

open Gemacast.Core Gemacast.Jitter Gemacast.Audio

/-- What the loop is in the middle of. -/
inductive LoopPhase
  /-- It waits for an event. -/
  | idle
  /-- It was notified, and so many samples were in the ring. -/
  | counted (occupied : ℕ)
  /-- It is about to read at most so many samples. -/
  | reading (occupied : ℕ)
  /-- It empties the ring, and took so many samples out already. -/
  | draining (popped : ℕ)
  /-- It has ended. -/
  | ended
  deriving DecidableEq, Repr

/-- The capture: its ring and its loop. -/
structure CaptureLoop (α : Type*) where
  /-- The samples in the ring. -/
  ring : List α
  /-- The receivers of the broadcast. -/
  listeners : ℕ
  /-- Samples that were read and are not in a frame yet. -/
  sampleBuf : List α
  /-- The position of the next frame. -/
  framePosition : UInt64
  /-- The counters, which the callback shares. -/
  counters : CaptureCounters
  /-- The counters that were reported last. -/
  lastReported : List (String × UInt64)
  /-- Where the loop stands. -/
  phase : LoopPhase
  deriving DecidableEq, Repr

/-- What happens to the loop. -/
inductive LoopInput
  /-- Receivers come and go. -/
  | listeners (count : ℕ)
  /-- The loop takes up a notification. -/
  | notified
  /-- The loop goes on with what it is in the middle of. -/
  | proceed (now : ℚ)
  /-- No notification came for 22 ms. -/
  | silenceTick (now : ℚ)
  /-- A second is over. -/
  | counterTick
  /-- The stream failed. -/
  | streamError
  /-- The capture is shut down. -/
  | shutdown
  deriving DecidableEq, Repr

/-- What happens to the capture. -/
inductive CaptureInput (α : Type*)
  /-- The callback publishes samples with one push. -/
  | published (samples : List α)
  /-- The callback drops samples. -/
  | dropped (count : ℕ)
  /-- Something happens to the loop. -/
  | loop (input : LoopInput)
  deriving DecidableEq, Repr

/-- What a step shows. -/
inductive CaptureOutput (α : Type*)
  /-- Nothing. -/
  | nothing
  /-- One sample was taken out of the ring and discarded. -/
  | popped (sample : α)
  /-- The ring is empty after so many discarded samples, and the samples read are discarded. -/
  | cleared (popped : ℕ) (samples : List α)
  /-- Samples were read, and frames were broadcast. -/
  | read (samples : List α) (frames : List (CapturedFrame α ℚ)) (readAt : ℚ)
  /-- A frame of silence was broadcast. -/
  | silent (frame : CapturedFrame α ℚ)
  /-- The counters were reported. -/
  | reported (snapshot : List (String × UInt64))
  deriving DecidableEq, Repr

namespace CaptureOutput

variable {α : Type*}

/-- The frames that are broadcast. -/
def frames : CaptureOutput α → List (CapturedFrame α ℚ)
  | .read _ frames _ => frames
  | .silent frame => [frame]
  | _ => []

/-- The samples of the frames that are broadcast, frames of silence apart. -/
def realSamples : CaptureOutput α → List α
  | .read _ frames _ => frames.flatMap CapturedFrame.samples
  | _ => []

/-- The samples that are read from the ring. -/
def readSamples : CaptureOutput α → List α
  | .read samples _ _ => samples
  | _ => []

/-- The loop clears what it has buffered. -/
def isClear : CaptureOutput α → Bool
  | .cleared _ _ => true
  | _ => false

/-- The frames of one read were captured ten milliseconds after each other, and before it. -/
def Stamped : CaptureOutput α → Prop
  | .read _ frames readAt => (frames.IsChain fun a b => b.readyAt = a.readyAt + 1 / 100) ∧
      ∀ f ∈ frames, f.readyAt ≤ readAt
  | _ => True

/-- The outputs behind the last one that cleared the buffer. -/
def sinceClear (outputs : List (CaptureOutput α)) : List (CaptureOutput α) :=
  (outputs.reverse.takeWhile fun o => !o.isClear).reverse

theorem sinceClear_concat (outputs : List (CaptureOutput α)) (o : CaptureOutput α) :
    sinceClear (outputs ++ [o]) = if o.isClear then [] else sinceClear outputs ++ [o] := by
  cases hclear : o.isClear <;> simp [sinceClear, hclear]

end CaptureOutput

namespace CaptureLoop

variable {α : Type*}

/-- Read samples into the space that is made behind the buffered ones, and cut off the rest. -/
def readInto (zero : α) (buf : List α) (occupied : ℕ) (popped : List α) : List α :=
  (overwrite (buf ++ List.replicate occupied zero) buf.length popped).take
    (buf.length + popped.length)

/-- Count a read that ended within a pair. -/
def noteRingReadParity (read : ℕ) (counters : CaptureCounters) : CaptureCounters :=
  if read % 2 = 0 then counters else { counters with oddRingReads := counters.oddRingReads + 1 }

/-- How long it took to capture samples. -/
def bufferedTime (samples : ℕ) : ℚ := samples / (opusSampleRate * opusChannels)

/-- Cut whole frames off the buffer: the frames, what is left, and the next position. -/
def cutFrames (readAt : ℚ) :
    ℕ → List α → UInt64 → List (CapturedFrame α ℚ) × List α × UInt64
  | fuel + 1, buf, position =>
    if opusFrameSamples ≤ buf.length then
      let remaining := buf.length - opusFrameSamples
      let frame := ⟨buf.take opusFrameSamples, position, readAt - bufferedTime remaining⟩
      let cut := cutFrames readAt fuel (buf.drop opusFrameSamples) (position + 1)
      (frame :: cut.1, cut.2)
    else ([], buf, position)
  | 0, buf, position => ([], buf, position)

/-- The capture at its start. -/
def new (listeners : ℕ) (counters : CaptureCounters) : CaptureLoop α where
  ring := []
  listeners := listeners
  sampleBuf := []
  framePosition := 0
  counters := counters
  lastReported := counters.snapshot
  phase := .idle

/-- Go on within a notification. -/
def proceed (zero : α) (s : CaptureLoop α) (now : ℚ) : CaptureLoop α × CaptureOutput α :=
  match s.phase with
  | .counted occupied =>
    if occupied = 0 then ({ s with phase := .idle }, .nothing)
    else if 0 < s.listeners then ({ s with phase := .reading occupied }, .nothing)
    else ({ s with phase := .draining 0 }, .nothing)
  | .draining popped =>
    match s.ring with
    | sample :: ring => ({ s with ring := ring, phase := .draining (popped + 1) }, .popped sample)
    | [] => ({ s with sampleBuf := [], phase := .idle }, .cleared popped s.sampleBuf)
  | .reading occupied =>
    let popped := s.ring.take occupied
    let buf := readInto zero s.sampleBuf occupied popped
    let cut := cutFrames now (buf.length / opusFrameSamples) buf s.framePosition
    ({ s with
        ring := s.ring.drop occupied
        sampleBuf := cut.2.1
        framePosition := cut.2.2
        counters := noteRingReadParity popped.length s.counters
        phase := .idle }, .read popped cut.1 now)
  | _ => (s, .nothing)

/-- Take up an event that the loop waits for. -/
def select (zero : α) (s : CaptureLoop α) : LoopInput → CaptureLoop α × CaptureOutput α
  | .notified => ({ s with phase := .counted s.ring.length }, .nothing)
  | .silenceTick now =>
    if 0 < s.listeners then
      ({ s with framePosition := s.framePosition + 1 },
        .silent ⟨List.replicate opusFrameSamples zero, s.framePosition, now⟩)
    else (s, .nothing)
  | .counterTick =>
    if s.counters.snapshot = s.lastReported then (s, .nothing)
    else ({ s with lastReported := s.counters.snapshot }, .reported s.counters.snapshot)
  | .streamError => ({ s with phase := .ended }, .reported s.counters.snapshot)
  | .shutdown => ({ s with phase := .ended }, .reported s.counters.snapshot)
  | _ => (s, .nothing)

/-- One step of the loop. -/
def loopStep (zero : α) (s : CaptureLoop α) (i : LoopInput) : CaptureLoop α × CaptureOutput α :=
  match i with
  | .listeners count => ({ s with listeners := count }, .nothing)
  | .proceed now => proceed zero s now
  | i => if s.phase = .idle then select zero s i else (s, .nothing)

/-- One step of the capture. -/
def step (zero : α) (s : CaptureLoop α) (i : CaptureInput α) : CaptureLoop α × CaptureOutput α :=
  match i with
  | .published samples => ({ s with ring := s.ring ++ samples }, .nothing)
  | .dropped count =>
    ({ s with counters := { s.counters with
      droppedSamples := s.counters.droppedSamples + UInt64.ofNat count } }, .nothing)
  | .loop i => loopStep zero s i

/-- A capture from its start on; `zero` is the sample of silence. -/
def machine (zero : α) (listeners : ℕ) (counters : CaptureCounters) :
    Machine (CaptureLoop α) (CaptureInput α) (CaptureOutput α) :=
  ⟨new listeners counters, step zero⟩

/-- What a run shows. -/
def outputs (zero : α) (listeners : ℕ) (counters : CaptureCounters)
    (inputs : List (CaptureInput α)) : List (CaptureOutput α) :=
  ((machine zero listeners counters).events inputs).map Event.output

section Cutting

variable {zero : α} {buf popped : List α} {position first : UInt64} {readAt : ℚ} {fuel n : ℕ}

/-- The buffer ends with what was read. -/
theorem readInto_eq (h : popped.length ≤ n) : readInto zero buf n popped = buf ++ popped := by
  apply List.ext_getElem?
  intro i
  rw [readInto, List.getElem?_take, getElem?_overwrite]
  by_cases hi : i < buf.length + popped.length
  · have hin : i < (buf ++ List.replicate n zero).length := by simp; omega
    rw [if_pos hi, List.getElem?_eq_getElem hin, Option.map_some]
    by_cases hbuf : i < buf.length
    · rw [if_neg (by omega), List.getElem_append_left hbuf, List.getElem?_append_left hbuf,
        List.getElem?_eq_getElem hbuf]
    · have hpopped : i - buf.length < popped.length := by omega
      rw [if_pos (by omega), List.getElem?_append_right (by omega),
        List.getElem?_eq_getElem hpopped, Option.getD_some]
  · rw [if_neg hi, List.getElem?_eq_none (by simp; omega)]

/-- The positions of so many frames, the first one given. -/
def positionsFrom (first : UInt64) (count : ℕ) : List UInt64 :=
  (List.range count).map fun k => first + UInt64.ofNat k

theorem positionsFrom_add (first : UInt64) (m n : ℕ) :
    positionsFrom first (m + n) =
      positionsFrom first m ++ positionsFrom (first + UInt64.ofNat m) n := by
  simp [positionsFrom, List.range_add, UInt64.add_assoc, Function.comp_def]

theorem positionsFrom_succ (first : UInt64) (n : ℕ) :
    positionsFrom first (n + 1) = first :: positionsFrom (first + 1) n := by
  rw [Nat.add_comm, positionsFrom_add]
  simp [positionsFrom]

/-- Positions repeat only after `2 ^ 64` frames. -/
theorem nodup_positionsFrom (h : n ≤ 2 ^ 64) : (positionsFrom first n).Nodup := by
  refine List.Nodup.map_on (fun a ha b hb heq => ?_) List.nodup_range
  have hval := congrArg UInt64.toNat ((UInt64.add_right_inj first).mp heq)
  rw [List.mem_range] at ha hb
  rwa [UInt64.toNat_ofNat_of_lt' (by unfold UInt64.size; omega),
    UInt64.toNat_ofNat_of_lt' (by unfold UInt64.size; omega)] at hval

theorem frame_pos : 0 < opusFrameSamples := by decide

/-- Frames that were cut off a buffer which was read at an instant. -/
structure Cuts (readAt : ℚ) (buf : List α) (position : UInt64)
    (frames : List (CapturedFrame α ℚ)) (rest : List α) (next : UInt64) : Prop where
  /-- The frames and the rest are the buffer. -/
  samples : frames.flatMap CapturedFrame.samples ++ rest = buf
  /-- Every frame is whole. -/
  whole : ∀ f ∈ frames, f.samples.length = opusFrameSamples
  /-- The rest is no frame. -/
  short : rest.length < opusFrameSamples
  /-- The frames are numbered. -/
  numbered : frames.map CapturedFrame.position = positionsFrom position frames.length
  /-- The next frame continues the numbers. -/
  next : next = position + UInt64.ofNat frames.length
  /-- The frames were captured ten milliseconds after each other. -/
  spaced : frames.IsChain fun a b => b.readyAt = a.readyAt + 1 / 100
  /-- No frame was captured after the read. -/
  ready : ∀ f ∈ frames, f.readyAt ≤ readAt

/-- A buffer without a whole frame stays as it is. -/
theorem Cuts.uncut (h : buf.length < opusFrameSamples) : Cuts readAt buf position [] buf position :=
  ⟨rfl, by simp, h, rfl, (UInt64.add_zero position).symm, List.isChain_nil, by simp⟩

/-- Ten milliseconds of samples are one frame. -/
theorem bufferedTime_add_frame (n : ℕ) :
    bufferedTime (n + opusFrameSamples) = bufferedTime n + 1 / 100 := by
  simp only [bufferedTime, opusFrameSamples, opusFrameSize, opusSampleRate, opusChannels]
  push_cast
  ring

theorem bufferedTime_nonneg (n : ℕ) : 0 ≤ bufferedTime n := by
  rw [bufferedTime]
  positivity

/-- The first frame cut off a buffer has the rest of the buffer behind it. -/
theorem readyAt_of_head?_cutFrames {f : CapturedFrame α ℚ}
    (h : f ∈ (cutFrames readAt fuel buf position).1.head?) :
    f.readyAt = readAt - bufferedTime (buf.length - opusFrameSamples) ∧
      opusFrameSamples ≤ buf.length := by
  cases fuel with
  | zero => simp [cutFrames] at h
  | succ fuel =>
    rw [cutFrames] at h
    split at h
    · next hle =>
      obtain rfl : _ = f := by simpa using h
      exact ⟨rfl, hle⟩
    · simp at h

/-- Cutting with as many rounds as there are whole frames. -/
theorem cuts_cutFrames (readAt : ℚ) (fuel : ℕ) (buf : List α) (position : UInt64)
    (hfuel : buf.length < (fuel + 1) * opusFrameSamples) :
    Cuts readAt buf position (cutFrames readAt fuel buf position).1
      (cutFrames readAt fuel buf position).2.1 (cutFrames readAt fuel buf position).2.2 := by
  induction fuel generalizing buf position with
  | zero => exact .uncut (by simpa using hfuel)
  | succ fuel ih =>
    rw [cutFrames]
    by_cases hle : opusFrameSamples ≤ buf.length
    · rw [if_pos hle]
      have hrest : (buf.drop opusFrameSamples).length = buf.length - opusFrameSamples :=
        List.length_drop
      have hcut := ih (buf.drop opusFrameSamples) (position + 1)
        (by rw [hrest]; rw [Nat.succ_mul] at hfuel; omega)
      refine ⟨?_, ?_, hcut.short, ?_, ?_, ?_, ?_⟩
      · rw [List.flatMap_cons, List.append_assoc, hcut.samples, List.take_append_drop]
      · exact List.forall_mem_cons.mpr ⟨List.length_take_of_le hle, hcut.whole⟩
      · rw [List.map_cons, hcut.numbered, List.length_cons, positionsFrom_succ]
      · rw [hcut.next, List.length_cons, Nat.add_comm, UInt64.ofNat_add, UInt64.add_assoc]
        rfl
      · refine List.isChain_cons.mpr ⟨fun f hf => ?_, hcut.spaced⟩
        obtain ⟨hready, hmore⟩ := readyAt_of_head?_cutFrames hf
        rw [hrest] at hready hmore
        have hsplit : buf.length - opusFrameSamples =
            buf.length - opusFrameSamples - opusFrameSamples + opusFrameSamples :=
          (Nat.sub_add_cancel hmore).symm
        rw [hready]
        dsimp only
        rw [hsplit, bufferedTime_add_frame, Nat.add_sub_cancel]
        ring
      · refine List.forall_mem_cons.mpr ⟨?_, hcut.ready⟩
        have hnonneg := bufferedTime_nonneg (buf.length - opusFrameSamples)
        dsimp only
        linarith
    · rw [if_neg hle]
      exact .uncut (by omega)

end Cutting

section Framing

variable {s : CaptureLoop α} {shown : List (CaptureOutput α)}

/-- What a step broadcasts, and what it leaves in the buffer. -/
structure Carries (s : CaptureLoop α) (r : CaptureLoop α × CaptureOutput α) : Prop where
  /-- The frames continue the numbers. -/
  numbered : r.2.frames.map CapturedFrame.position =
    positionsFrom s.framePosition r.2.frames.length
  /-- The next frame continues the numbers of these. -/
  next : r.1.framePosition = s.framePosition + UInt64.ofNat r.2.frames.length
  /-- Every frame is whole. -/
  whole : ∀ f ∈ r.2.frames, f.samples.length = opusFrameSamples
  /-- What was buffered and what is read is in the frames or buffered. -/
  kept : r.2.isClear = false → r.2.realSamples ++ r.1.sampleBuf = s.sampleBuf ++ r.2.readSamples
  /-- Nothing is buffered once the buffer is cleared. -/
  cleared : r.2.isClear = true → r.1.sampleBuf = []
  /-- What is buffered is no frame. -/
  short : s.sampleBuf.length < opusFrameSamples → r.1.sampleBuf.length < opusFrameSamples
  /-- The frames have the instants of their capture. -/
  stamped : r.2.Stamped

/-- A step that broadcasts nothing and leaves the buffer alone. -/
theorem Carries.quiet {r : CaptureLoop α × CaptureOutput α} (hframes : r.2.frames = [])
    (hreal : r.2.realSamples = []) (hread : r.2.readSamples = []) (hclear : r.2.isClear = false)
    (hstamped : r.2.Stamped) (hbuf : r.1.sampleBuf = s.sampleBuf)
    (hnext : r.1.framePosition = s.framePosition) : Carries s r where
  numbered := by rw [hframes]; rfl
  next := by simp [hframes, hnext]
  whole := by simp [hframes]
  kept _ := by rw [hreal, hread, hbuf, List.nil_append, List.append_nil]
  cleared h := by simp [hclear] at h
  short h := by rwa [hbuf]
  stamped := hstamped

/-- A read takes what is in the ring, and cuts frames off what is buffered then. -/
theorem proceed_reading {occupied : ℕ} (zero : α) (now : ℚ) (h : s.phase = .reading occupied) :
    ∃ frames rest next, proceed zero s now =
        ({ s with
            ring := s.ring.drop occupied
            sampleBuf := rest
            framePosition := next
            counters := noteRingReadParity (s.ring.take occupied).length s.counters
            phase := .idle }, .read (s.ring.take occupied) frames now) ∧
      Cuts now (s.sampleBuf ++ s.ring.take occupied) s.framePosition frames rest next := by
  have hread : readInto zero s.sampleBuf occupied (s.ring.take occupied) =
      s.sampleBuf ++ s.ring.take occupied := readInto_eq (List.length_take_le _ _)
  refine ⟨_, _, _, ?_, cuts_cutFrames now _ _ _
    ((Nat.div_lt_iff_lt_mul (by decide)).mp (Nat.lt_succ_self _))⟩
  rw [proceed, h]
  dsimp only
  rw [hread]

/-- A frame of silence is broadcast if the loop waits and is listened to. -/
theorem loopStep_silenceTick (zero : α) (s : CaptureLoop α) (now : ℚ) :
    loopStep zero s (.silenceTick now) = if s.phase = .idle ∧ 0 < s.listeners then
      ({ s with framePosition := s.framePosition + 1 },
        .silent ⟨List.replicate opusFrameSamples zero, s.framePosition, now⟩)
    else (s, .nothing) :=
  (ite_and _ _ _ _).symm

/-- Going on within a notification broadcasts frames only where it reads. -/
theorem carries_proceed (zero : α) (s : CaptureLoop α) (now : ℚ) :
    Carries s (proceed zero s now) := by
  cases hphase : s.phase with
  | reading occupied =>
    obtain ⟨frames, rest, next, hproceed, hcuts⟩ := proceed_reading zero now hphase
    rw [hproceed]
    exact ⟨hcuts.numbered, hcuts.next, hcuts.whole, fun _ => hcuts.samples, nofun,
      fun _ => hcuts.short, hcuts.spaced, hcuts.ready⟩
  | counted occupied =>
    rw [proceed, hphase]
    dsimp only
    split
    · exact .quiet rfl rfl rfl rfl trivial rfl rfl
    · split <;> exact .quiet rfl rfl rfl rfl trivial rfl rfl
  | draining popped =>
    rw [proceed, hphase]
    dsimp only
    split
    · exact .quiet rfl rfl rfl rfl trivial rfl rfl
    · exact ⟨rfl, (UInt64.add_zero _).symm, nofun, nofun, fun _ => rfl,
        fun _ => frame_pos, trivial⟩
  | idle =>
    rw [proceed, hphase]
    exact .quiet rfl rfl rfl rfl trivial rfl rfl
  | ended =>
    rw [proceed, hphase]
    exact .quiet rfl rfl rfl rfl trivial rfl rfl

theorem carries_loopStep (zero : α) (s : CaptureLoop α) (i : LoopInput) :
    Carries s (loopStep zero s i) := by
  have hunread : Carries s (s, .nothing) := .quiet rfl rfl rfl rfl trivial rfl rfl
  have hselect (hselected : Carries s (select zero s i)) :
      Carries s (if s.phase = .idle then select zero s i else (s, .nothing)) := by
    split
    · exact hselected
    · exact hunread
  cases i with
  | listeners count => exact .quiet rfl rfl rfl rfl trivial rfl rfl
  | proceed now => exact carries_proceed zero s now
  | notified => exact hselect (.quiet rfl rfl rfl rfl trivial rfl rfl)
  | streamError => exact hselect (.quiet rfl rfl rfl rfl trivial rfl rfl)
  | shutdown => exact hselect (.quiet rfl rfl rfl rfl trivial rfl rfl)
  | counterTick =>
    refine hselect ?_
    rw [select]
    split
    · exact hunread
    · exact .quiet rfl rfl rfl rfl trivial rfl rfl
  | silenceTick now =>
    rw [loopStep_silenceTick]
    split
    · refine ⟨?_, rfl, ?_, fun _ => (List.append_nil _).symm, nofun, id, trivial⟩
      · exact congrArg (· :: []) (UInt64.add_zero _).symm
      · exact List.forall_mem_singleton.mpr List.length_replicate
    · exact hunread

/-- Every step continues the numbers and keeps what it reads. -/
theorem carries_step (zero : α) (s : CaptureLoop α) (i : CaptureInput α) :
    Carries s (step zero s i) := by
  cases i with
  | published samples => exact .quiet rfl rfl rfl rfl trivial rfl rfl
  | dropped count => exact .quiet rfl rfl rfl rfl trivial rfl rfl
  | loop i => exact carries_loopStep zero s i

/-- What a run has broadcast, and what its loop keeps. -/
structure Framed (shown : List (CaptureOutput α)) (s : CaptureLoop α) : Prop where
  /-- The frames are numbered from zero on. -/
  numbered : (shown.flatMap CaptureOutput.frames).map CapturedFrame.position =
    positionsFrom 0 (shown.flatMap CaptureOutput.frames).length
  /-- The next frame continues the numbers. -/
  next : s.framePosition = UInt64.ofNat (shown.flatMap CaptureOutput.frames).length
  /-- Every frame is whole. -/
  whole : ∀ f ∈ shown.flatMap CaptureOutput.frames, f.samples.length = opusFrameSamples
  /-- What was read is in the frames or buffered. -/
  kept : (CaptureOutput.sinceClear shown).flatMap CaptureOutput.realSamples ++ s.sampleBuf =
    (CaptureOutput.sinceClear shown).flatMap CaptureOutput.readSamples
  /-- What is buffered is no frame. -/
  short : s.sampleBuf.length < opusFrameSamples
  /-- The frames of one read have the instants of their capture. -/
  stamped : ∀ o ∈ shown, o.Stamped

/-- One more step continues what the steps before it have broadcast. -/
theorem Framed.concat (h : Framed shown s) (zero : α) (i : CaptureInput α) :
    Framed (shown ++ [(step zero s i).2]) (step zero s i).1 := by
  have hcarries := carries_step zero s i
  have hframes : (shown ++ [(step zero s i).2]).flatMap CaptureOutput.frames =
      shown.flatMap CaptureOutput.frames ++ (step zero s i).2.frames := by simp
  have hfirst : s.framePosition =
      0 + UInt64.ofNat (shown.flatMap CaptureOutput.frames).length := by
    rw [h.next, UInt64.zero_add]
  refine ⟨?_, ?_, ?_, ?_, hcarries.short h.short, ?_⟩
  · rw [hframes, List.map_append, List.length_append, h.numbered, hcarries.numbered,
      positionsFrom_add, ← hfirst]
  · rw [hframes, List.length_append, UInt64.ofNat_add, ← h.next, hcarries.next]
  · rw [hframes]
    exact List.forall_mem_append.mpr ⟨h.whole, hcarries.whole⟩
  · rw [CaptureOutput.sinceClear_concat]
    cases hclear : (step zero s i).2.isClear with
    | true => exact hcarries.cleared hclear
    | false =>
      have hkept := hcarries.kept hclear
      rw [if_neg Bool.false_ne_true, List.flatMap_append, List.flatMap_append,
        List.flatMap_singleton, List.flatMap_singleton, List.append_assoc, hkept,
        ← List.append_assoc, h.kept]
  · exact List.forall_mem_append.mpr ⟨h.stamped, by simpa using hcarries.stamped⟩

theorem framed_run (zero : α) (listeners : ℕ) (counters : CaptureCounters)
    (inputs : List (CaptureInput α)) : Framed (outputs zero listeners counters inputs)
      ((machine zero listeners counters).run inputs) := by
  refine (machine zero listeners counters).history_invariant
    (I := fun events s => Framed (events.map Event.output) s) (p := fun _ _ => True)
    ⟨rfl, rfl, nofun, rfl, frame_pos, nofun⟩ (fun events s i h _ => ?_) fun _ _ _ _ => trivial
  rw [List.map_append]
  exact h.concat zero i

/-- For all interleavings, the frames are numbered from zero on, each is whole, what was read
since the buffer was last cleared is in the frames cut since then or buffered, less than a frame
is buffered, and the frames of one read are ten milliseconds apart and not after it. No number
comes back before `2 ^ 64` frames. -/
theorem framed_of_run (zero : α) (listeners : ℕ) (counters : CaptureCounters)
    (inputs : List (CaptureInput α)) :
    Framed (outputs zero listeners counters inputs)
        ((machine zero listeners counters).run inputs) ∧
      (((outputs zero listeners counters inputs).flatMap CaptureOutput.frames).length ≤ 2 ^ 64 →
        (((outputs zero listeners counters inputs).flatMap CaptureOutput.frames).map
          CapturedFrame.position).Nodup) := by
  have hframed := framed_run zero listeners counters inputs
  refine ⟨hframed, fun hfew => ?_⟩
  rw [hframed.numbered]
  exact nodup_positionsFrom hfew

end Framing

end CaptureLoop

end Gemacast.Streamer
