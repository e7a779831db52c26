import Mathlib.Tactic.Ring
import Gemacast.Core.Recut
import Gemacast.Jitter.Types

/-!
# The capture resampler

Captured audio is converted to the rate of the pipeline in chunks of a fixed number of
frames; what does not fill a chunk waits for the next call. The conversion of one chunk is a
parameter. The output buffer is sized once, for the most that one call may bring.
-/

namespace Gemacast.Audio

open Gemacast.Core Gemacast.Jitter

/-- The resampler that converts a chunk. -/
structure Rubato (F : Type) where
  /-- Its state. -/
  State : Type
  /-- Set up for two rates, a number of input frames, a number of blocks and of channels. -/
  new : (fromRate toRate chunkSize subChunks channels : ℕ) → Except String State
  /-- The input frames of the next call. -/
  inputFramesNext : State → ℕ
  /-- The output frames of the next call. -/
  outputFramesNext : State → ℕ
  /-- Convert interleaved input, with room for so many frames of output. -/
  processIntoBuffer : State → List F → ℕ → Except String (State × List F)
  /-- How an adapter says that a buffer is too short. -/
  sizeError : (available needed : ℕ) → String

/-- Resampling failed, and why. -/
structure ResampleFailed where
  /-- The reason. -/
  message : String
  deriving DecidableEq, Repr

/-- Largest input of one call, in interleaved samples. -/
def maxInputSamplesPerCall : ℕ := opusFrameSamples * 64

/-- The input frames of a chunk. -/
def chunkSize : ℕ := 1024

/-- What is relied on of a resampler with a fixed number of input frames: it converts blocks
of `fftIn` frames to blocks of `fftOut`, and saves the frames that do not fill a block. -/
structure Rubato.FixedInput {F : Type} (R : Rubato F) (fromRate toRate channels : ℕ) where
  /-- The states that it can be in. -/
  Valid : R.State → Prop
  /-- The input frames of a block. -/
  fftIn : ℕ
  /-- The output frames of a block. -/
  fftOut : ℕ
  /-- The frames that do not fill a block yet. -/
  savedFrames : R.State → ℕ
  /-- The next state and the output of a chunk. -/
  feed : R.State → List F → R.State × List F
  /-- It can only be set up for a rate. -/
  valid_new : ∀ {inner}, R.new fromRate toRate chunkSize 2 channels = .ok inner →
    Valid inner ∧ savedFrames inner = 0 ∧ 0 < fromRate
  /-- A block is not empty. -/
  fftIn_pos : 0 < fftIn
  /-- The blocks are as long as each other. -/
  fftOut_mul : fftOut * fromRate = fftIn * toRate
  /-- Whole blocks are not saved. -/
  savedFrames_lt : ∀ {inner}, Valid inner → savedFrames inner < fftIn
  /-- The input frames of a chunk are fixed. -/
  inputFramesNext_eq : ∀ {inner}, Valid inner → R.inputFramesNext inner = chunkSize
  /-- The output frames are those of the blocks that a chunk completes. -/
  outputFramesNext_eq : ∀ {inner}, Valid inner →
    R.outputFramesNext inner = (savedFrames inner + chunkSize) / fftIn * fftOut
  /-- A chunk is converted if there is room for the output. -/
  processIntoBuffer_eq : ∀ {inner chunk room}, Valid inner →
    chunk.length = chunkSize * channels → R.outputFramesNext inner ≤ room →
    R.processIntoBuffer inner chunk room = .ok (feed inner chunk)
  /-- A converted chunk leaves a state that it can be in. -/
  valid_feed : ∀ {inner chunk}, Valid inner → chunk.length = chunkSize * channels →
    Valid (feed inner chunk).1 ∧
      savedFrames (feed inner chunk).1 = (savedFrames inner + chunkSize) % fftIn
  /-- The output is no longer than announced, in whole frames. -/
  length_feed : ∀ {inner chunk}, Valid inner → chunk.length = chunkSize * channels →
    ∃ frames ≤ R.outputFramesNext inner, (feed inner chunk).2.length = frames * channels

variable {F : Type} {R : Rubato F}

/-- The output is as long as announced. -/
def Rubato.FixedInput.Proportional {fromRate toRate channels : ℕ}
    (P : R.FixedInput fromRate toRate channels) : Prop :=
  ∀ {inner chunk}, P.Valid inner → chunk.length = chunkSize * channels →
    (P.feed inner chunk).2.length = R.outputFramesNext inner * channels

/-- The resampler of a capture. -/
structure CaptureResampler (R : Rubato F) where
  /-- The resampler that converts a chunk. -/
  inner : R.State
  /-- Channels of a frame. -/
  channels : ℕ
  /-- The samples that the output buffer has room for. -/
  outputLen : ℕ
  /-- The frames that the output buffer has room for. -/
  outputCapacityFrames : ℕ
  /-- Samples that do not fill a chunk yet. -/
  remainder : List F
  /-- The input frames of the next chunk. -/
  framesNeeded : ℕ

/-- What a call does: the resampler behind it, what it answers, and what it did on the way. -/
structure Processed (R : Rubato F) where
  /-- The resampler behind the call. -/
  resampler : CaptureResampler R
  /-- The interleaved output. -/
  output : Except ResampleFailed (List F)
  /-- The chunks that were converted. -/
  handed : List (List F)
  /-- The output buffer grew. -/
  grown : Bool
  /-- The backlog was discarded at the cap of the iterations. -/
  capped : Bool

namespace CaptureResampler

/-- Set up a resampler. -/
def new (R : Rubato F) (fromRate toRate channels : ℕ) :
    Except ResampleFailed (CaptureResampler R) :=
  if channels = 0 then .error ⟨"zero channels"⟩
  else
    match R.new fromRate toRate chunkSize 2 channels with
    | .error e => .error ⟨e⟩
    | .ok inner =>
      let framesNeeded := R.inputFramesNext inner
      let outputFramesPerChunk := R.outputFramesNext inner
      if framesNeeded = 0 ∨ outputFramesPerChunk = 0 then
        .error ⟨"degenerate chunk size for " ++ toString fromRate ++ " -> " ++ toString toRate ++
          ": " ++ toString framesNeeded ++ " in, " ++ toString outputFramesPerChunk ++ " out"⟩
      else
        let maxInputFrames := divCeil maxInputSamplesPerCall channels
        let maxOutputFrames := divCeil (maxInputFrames * toRate) fromRate + outputFramesPerChunk
        .ok
          { inner
            channels
            outputLen := maxOutputFrames * channels
            outputCapacityFrames := maxOutputFrames
            remainder := []
            framesNeeded }

/-- The output buffer has no room for the next chunk. -/
def needsRoom (r : CaptureResampler R) (produced : ℕ) : Bool :=
  decide (r.outputCapacityFrames - produced / r.channels < R.outputFramesNext r.inner)

/-- Grow the output buffer if it has no room for the next chunk. -/
def makeRoom (r : CaptureResampler R) (produced : ℕ) : CaptureResampler R :=
  if r.needsRoom produced then
    let outputCapacityFrames := r.outputCapacityFrames + R.outputFramesNext r.inner * 8
    { r with outputCapacityFrames, outputLen := outputCapacityFrames * r.channels }
  else r

/-- The samples of a chunk. -/
def samplesPerChunk (r : CaptureResampler R) : ℕ := r.framesNeeded * r.channels

/-- Convert the chunk in front of the remainder, behind so many samples of output. -/
def convertChunk (r : CaptureResampler R) (produced : ℕ) :
    CaptureResampler R × Except ResampleFailed (List F) :=
  let available := r.outputCapacityFrames - produced / r.channels
  if r.remainder.length < r.channels * r.framesNeeded then
    (r, .error ⟨"input adapter: " ++
      R.sizeError r.remainder.length (r.channels * r.framesNeeded)⟩)
  else if r.outputLen - produced < r.channels * available then
    (r, .error ⟨"output adapter: " ++
      R.sizeError (r.outputLen - produced) (r.channels * available)⟩)
  else
    match R.processIntoBuffer r.inner (r.remainder.take r.samplesPerChunk) available with
    | .error e => (r, .error ⟨e⟩)
    | .ok (inner, written) =>
      ({ r with
          inner
          remainder := r.remainder.drop r.samplesPerChunk
          framesNeeded := R.inputFramesNext inner }, .ok written)

/-- Convert the chunks of the remainder, at most so many. -/
def processChunks : ℕ → CaptureResampler R → List F → Processed R
  | 0, r, output =>
    if r.samplesPerChunk = 0 ∨ r.remainder.length < r.samplesPerChunk then
      ⟨r, .ok output, [], false, false⟩
    else
      -- the cap is hit: less than a chunk is kept
      let keep := r.remainder.length % r.samplesPerChunk
      ⟨{ r with remainder := r.remainder.drop (r.remainder.length - keep) }, .ok output, [],
        false, true⟩
  | iterations + 1, r, output =>
    if r.samplesPerChunk = 0 ∨ r.remainder.length < r.samplesPerChunk then
      ⟨r, .ok output, [], false, false⟩
    else
      match (r.makeRoom output.length).convertChunk output.length with
      | (r', .error e) => ⟨r', .error e, [], r.needsRoom output.length, false⟩
      | (r', .ok written) =>
        let rest := processChunks iterations r' (output ++ written)
        { rest with
          handed := r.remainder.take r.samplesPerChunk :: rest.handed
          grown := r.needsRoom output.length || rest.grown }

/-- Convert interleaved samples, in whole chunks. -/
def processInterleaved (r : CaptureResampler R) (input : List F) : Processed R :=
  let maxIterations := divCeil maxInputSamplesPerCall (r.framesNeeded * r.channels) + 2
  processChunks maxIterations { r with remainder := r.remainder ++ input } []

/-- A resampler and the calls on it. -/
def machine (r : CaptureResampler R) : Machine (CaptureResampler R) (List F) (Processed R) :=
  ⟨r, fun r input => (r.processInterleaved input |>.resampler, r.processInterleaved input)⟩

section Conversion

variable {fromRate toRate channels : ℕ} (P : R.FixedInput fromRate toRate channels)
  {r : CaptureResampler R} {output : List F} {iterations : ℕ}

/-- The state and the output behind chunks. -/
def feedAll (inner : R.State) : List (List F) → R.State × List F
  | [] => (inner, [])
  | chunk :: chunks =>
    let fed := P.feed inner chunk
    let rest := feedAll fed.1 chunks
    (rest.1, fed.2 ++ rest.2)

/-- A resampler within a call, with what the call has produced so far. -/
structure Ready (r : CaptureResampler R) (produced : ℕ) : Prop where
  /-- The inner resampler is in a state that it can be in. -/
  valid : P.Valid r.inner
  /-- It has as many channels as it was set up for. -/
  channels_eq : r.channels = channels
  /-- The chunks are fixed. -/
  framesNeeded_eq : r.framesNeeded = chunkSize
  /-- The buffer has room for its frames. -/
  outputLen_eq : r.outputLen = r.outputCapacityFrames * channels
  /-- What is produced are whole frames. -/
  whole : ∃ frames ≤ r.outputCapacityFrames, produced = frames * channels

/-- The blocks that are completed by so many more chunks. -/
def blocksOf (inner : R.State) (chunks : ℕ) : ℕ :=
  (P.savedFrames inner + chunks * chunkSize) / P.fftIn

variable {P}

theorem feedAll_append (inner : R.State) (chunks chunks' : List (List F)) :
    feedAll P inner (chunks ++ chunks') =
      ((feedAll P (feedAll P inner chunks).1 chunks').1,
        (feedAll P inner chunks).2 ++ (feedAll P (feedAll P inner chunks).1 chunks').2) := by
  induction chunks generalizing inner with
  | nil => rfl
  | cons chunk chunks ih =>
    rw [List.cons_append, feedAll, ih, feedAll, List.append_assoc]

/-- At the two rates, output and saved frames are as much as the chunks and what was saved. -/
theorem feedAll_amount (hproportional : P.Proportional) (chunks : List (List F))
    (hchunks : ∀ chunk ∈ chunks, chunk.length = chunkSize * channels) {inner : R.State}
    (hvalid : P.Valid inner) :
    (feedAll P inner chunks).2.length * fromRate +
        P.savedFrames (feedAll P inner chunks).1 * channels * toRate =
      (P.savedFrames inner * channels + chunks.flatten.length) * toRate := by
  induction chunks generalizing inner with
  | nil => simp [feedAll]
  | cons chunk chunks ih =>
    obtain ⟨hchunk, hchunks⟩ := List.forall_mem_cons.mp hchunks
    obtain ⟨hnext, hsaved⟩ := P.valid_feed hvalid hchunk
    have hblocks := Nat.div_add_mod (P.savedFrames inner + chunkSize) P.fftIn
    have hrest := ih hchunks hnext
    rw [feedAll, List.length_append, hproportional hvalid hchunk, P.outputFramesNext_eq hvalid,
      Nat.add_mul, Nat.add_assoc, hrest, hsaved, List.flatten_cons, List.length_append, hchunk]
    generalize (P.savedFrames inner + chunkSize) / P.fftIn = blocks at *
    generalize (P.savedFrames inner + chunkSize) % P.fftIn = saved at *
    calc blocks * P.fftOut * channels * fromRate +
          (saved * channels + chunks.flatten.length) * toRate
        = blocks * channels * (P.fftOut * fromRate) +
            (saved * channels + chunks.flatten.length) * toRate := by
          rw [Nat.mul_right_comm blocks, Nat.mul_assoc (blocks * channels)]
      _ = ((P.fftIn * blocks + saved) * channels + chunks.flatten.length) * toRate := by
          rw [P.fftOut_mul]
          ring
      _ = _ := by
          rw [hblocks]
          ring

/-- Room for a chunk changes nothing but the buffer, and nothing if there is room already. -/
theorem ready_makeRoom {produced : ℕ} (h : Ready P r produced) (hchannels : 0 < channels) :
    Ready P (r.makeRoom produced) produced ∧
      R.outputFramesNext r.inner ≤
        (r.makeRoom produced).outputCapacityFrames - produced / channels ∧
      (r.makeRoom produced).inner = r.inner ∧ (r.makeRoom produced).remainder = r.remainder := by
  obtain ⟨frames, hframes, rfl⟩ := h.whole
  have hdiv : frames * channels / channels = frames := Nat.mul_div_cancel _ hchannels
  rw [makeRoom, needsRoom, h.channels_eq, hdiv]
  split
  · next hfull =>
    have hfull := of_decide_eq_true hfull
    refine ⟨⟨h.valid, rfl, h.framesNeeded_eq, rfl, frames, ?_, rfl⟩, ?_, rfl, rfl⟩
    · dsimp only
      omega
    · dsimp only
      omega
  · next hroom =>
    exact ⟨h, Nat.le_of_not_lt fun hlt => hroom (decide_eq_true hlt), rfl, rfl⟩

theorem blocksOf_succ {inner : R.State} {chunk : List F} (hvalid : P.Valid inner)
    (hchunk : chunk.length = chunkSize * channels) (n : ℕ) :
    blocksOf P inner (n + 1) =
      (P.savedFrames inner + chunkSize) / P.fftIn + blocksOf P (P.feed inner chunk).1 n := by
  have hsplit : P.savedFrames inner + (n + 1) * chunkSize =
      P.fftIn * ((P.savedFrames inner + chunkSize) / P.fftIn) +
        ((P.savedFrames inner + chunkSize) % P.fftIn + n * chunkSize) := by
    rw [← Nat.add_assoc, Nat.div_add_mod, Nat.succ_mul]
    omega
  rw [blocksOf, hsplit, Nat.mul_add_div P.fftIn_pos, blocksOf, (P.valid_feed hvalid hchunk).2]

theorem samplesPerChunk_eq {produced : ℕ} (h : Ready P r produced) :
    r.samplesPerChunk = chunkSize * channels := by
  rw [samplesPerChunk, h.framesNeeded_eq, h.channels_eq]

/-- Without a whole chunk there is nothing to convert. -/
theorem processChunks_of_lt (h : Ready P r output.length)
    (hshort : r.remainder.length < chunkSize * channels) :
    processChunks iterations r output = ⟨r, .ok output, [], false, false⟩ := by
  rw [← samplesPerChunk_eq h] at hshort
  cases iterations with
  | zero => rw [processChunks, if_pos (.inr hshort)]
  | succ iterations => rw [processChunks, if_pos (.inr hshort)]

/-- A whole chunk is converted. -/
theorem convertChunk_eq (h : Ready P r output.length) (hchannels : 0 < channels)
    (hlong : chunkSize * channels ≤ r.remainder.length) :
    ∃ next : CaptureResampler R, (r.makeRoom output.length).convertChunk output.length =
        (next, .ok (P.feed r.inner (r.remainder.take (chunkSize * channels))).2) ∧
      Ready P next
        (output ++ (P.feed r.inner (r.remainder.take (chunkSize * channels))).2).length ∧
      next.inner = (P.feed r.inner (r.remainder.take (chunkSize * channels))).1 ∧
      next.remainder = r.remainder.drop (chunkSize * channels) ∧
      next.outputLen = (r.makeRoom output.length).outputLen := by
  obtain ⟨hready, hroom, hinner, hremainder⟩ := ready_makeRoom h hchannels
  generalize r.makeRoom output.length = roomy at *
  rw [← hinner, ← hremainder]
  rw [← hinner] at hroom
  rw [← hremainder] at hlong
  generalize hchunk : roomy.remainder.take (chunkSize * channels) = chunk
  have hlength : chunk.length = chunkSize * channels :=
    hchunk ▸ List.length_take_of_le hlong
  obtain ⟨frames, hframes, hproduced⟩ := hready.whole
  have hdiv : output.length / channels = frames := by
    rw [hproduced, Nat.mul_div_cancel _ hchannels]
  have hinput : ¬roomy.remainder.length < roomy.channels * roomy.framesNeeded := by
    rw [hready.channels_eq, hready.framesNeeded_eq, Nat.mul_comm]
    exact Nat.not_lt.mpr hlong
  have houtput : ¬roomy.outputLen - output.length <
      roomy.channels * (roomy.outputCapacityFrames - output.length / roomy.channels) := by
    rw [hready.channels_eq, hready.outputLen_eq, hdiv, hproduced, ← Nat.sub_mul, Nat.mul_comm]
    exact Nat.lt_irrefl _
  have hconverted := P.processIntoBuffer_eq hready.valid hlength hroom
  obtain ⟨hvalid, -⟩ := P.valid_feed hready.valid hlength
  obtain ⟨written, hwritten, hfed⟩ := P.length_feed hready.valid hlength
  refine ⟨{ roomy with
    inner := (P.feed roomy.inner chunk).1
    remainder := roomy.remainder.drop (chunkSize * channels)
    framesNeeded := R.inputFramesNext (P.feed roomy.inner chunk).1 }, ?_, ?_, rfl, rfl, rfl⟩
  · rw [convertChunk, if_neg hinput, if_neg houtput, samplesPerChunk_eq hready, hchunk,
      hready.channels_eq, hconverted]
  · refine ⟨hvalid, hready.channels_eq, P.inputFramesNext_eq hvalid, hready.outputLen_eq,
      frames + written, ?_, ?_⟩
    · dsimp only
      omega
    · rw [List.length_append, hproduced, hfed, Nat.add_mul]

/-- What a call converts behind so much output, and what it leaves. -/
structure Converts (P : R.FixedInput fromRate toRate channels) (r : CaptureResampler R)
    (produced : List F) (p : Processed R) : Prop where
  /-- The whole chunks are converted. -/
  handed : p.handed = chunksExact (chunkSize * channels) r.remainder
  /-- Nothing is discarded. -/
  capped : p.capped = false
  /-- Their output is behind what was produced. -/
  output : p.output = .ok (produced ++ (feedAll P r.inner p.handed).2)
  /-- The state is that behind the chunks. -/
  inner : p.resampler.inner = (feedAll P r.inner p.handed).1
  /-- What fills no chunk stays. -/
  remainder : p.resampler.remainder = chunksRest (chunkSize * channels) r.remainder
  /-- The next call can begin. -/
  ready : Ready P p.resampler 0
  /-- With room for the blocks that the chunks complete the buffer stays as it is. -/
  grown : produced.length + blocksOf P r.inner (r.remainder.length / (chunkSize * channels)) *
      P.fftOut * channels ≤ r.outputLen →
    p.grown = false ∧ p.resampler.outputLen = r.outputLen

theorem Ready.start {produced : ℕ} (h : Ready P r produced) : Ready P r 0 :=
  ⟨h.valid, h.channels_eq, h.framesNeeded_eq, h.outputLen_eq, 0, Nat.zero_le _,
    (Nat.zero_mul _).symm⟩

/-- There is room for a chunk if there is room for the blocks that it and more complete. -/
theorem needsRoom_of_blocksOf (h : Ready P r output.length) (hchannels : 0 < channels) {n : ℕ}
    (hroom : output.length + blocksOf P r.inner (n + 1) * P.fftOut * channels ≤ r.outputLen) :
    r.needsRoom output.length = false := by
  obtain ⟨frames, hframes, hproduced⟩ := h.whole
  have hblocks : (P.savedFrames r.inner + chunkSize) / P.fftIn ≤ blocksOf P r.inner (n + 1) := by
    refine Nat.div_le_div_right (Nat.add_le_add_left ?_ _)
    exact Nat.le_mul_of_pos_left _ (Nat.succ_pos n)
  have hnext : R.outputFramesNext r.inner ≤ blocksOf P r.inner (n + 1) * P.fftOut := by
    rw [P.outputFramesNext_eq h.valid]
    exact Nat.mul_le_mul_right _ hblocks
  have hfits : frames + R.outputFramesNext r.inner ≤ r.outputCapacityFrames := by
    refine Nat.le_of_mul_le_mul_right ?_ hchannels
    rw [← h.outputLen_eq, Nat.add_mul, ← hproduced]
    exact Nat.le_trans (Nat.add_le_add_left (Nat.mul_le_mul_right _ hnext) _) hroom
  rw [needsRoom, h.channels_eq, hproduced, Nat.mul_div_cancel _ hchannels]
  exact decide_eq_false (by omega)

/-- Less output leaves room for the blocks of the chunks that follow. -/
theorem blocksOf_room {inner : R.State} {chunk : List F} (hvalid : P.Valid inner)
    (hchunk : chunk.length = chunkSize * channels) {produced n room : ℕ}
    (h : produced + blocksOf P inner (n + 1) * P.fftOut * channels ≤ room) :
    produced + (P.feed inner chunk).2.length +
      blocksOf P (P.feed inner chunk).1 n * P.fftOut * channels ≤ room := by
  obtain ⟨frames, hframes, hfed⟩ := P.length_feed hvalid hchunk
  rw [P.outputFramesNext_eq hvalid] at hframes
  have hfirst := Nat.mul_le_mul_right channels hframes
  rw [blocksOf_succ hvalid hchunk, Nat.add_mul, Nat.add_mul] at h
  omega

/-- Without a whole chunk the call ends. -/
theorem Converts.none (h : Ready P r output.length)
    (hshort : r.remainder.length < chunkSize * channels) :
    Converts P r output (processChunks iterations r output) := by
  rw [processChunks_of_lt h hshort]
  exact ⟨(chunksExact_of_lt hshort).symm, rfl, congrArg Except.ok (List.append_nil _).symm, rfl,
    (chunksRest_of_lt hshort).symm, h.start, fun _ => ⟨rfl, rfl⟩⟩

/-- A converted chunk goes before the chunks that are converted behind it. -/
theorem Converts.cons (h : Ready P r output.length) (hchannels : 0 < channels)
    (hlong : chunkSize * channels ≤ r.remainder.length)
    (hnext : ∀ next : CaptureResampler R, ∀ produced : List F, Ready P next produced.length →
      next.remainder = r.remainder.drop (chunkSize * channels) →
      Converts P next produced (processChunks iterations next produced)) :
    Converts P r output (processChunks (iterations + 1) r output) := by
  have hsize : 0 < chunkSize * channels := Nat.mul_pos (by decide) hchannels
  have hchunk : (r.remainder.take (chunkSize * channels)).length = chunkSize * channels :=
    List.length_take_of_le hlong
  obtain ⟨next, hconvert, hready, hinner, hremainder, houtputLen⟩ :=
    convertChunk_eq h hchannels hlong
  have hrest := hnext next _ hready hremainder
  have hguard : ¬(r.samplesPerChunk = 0 ∨ r.remainder.length < r.samplesPerChunk) := by
    rw [samplesPerChunk_eq h]
    omega
  rw [processChunks, if_neg hguard, hconvert]
  refine ⟨?_, hrest.capped, ?_, ?_, ?_, hrest.ready, fun hroom => ?_⟩
  · rw [chunksExact_of_le hsize hlong, ← hremainder, ← hrest.handed, samplesPerChunk_eq h]
  · dsimp only
    rw [hrest.output, samplesPerChunk_eq h, feedAll, hinner, List.append_assoc]
  · dsimp only
    rw [hrest.inner, samplesPerChunk_eq h, feedAll, hinner]
  · dsimp only
    rw [hrest.remainder, hremainder, chunksRest_of_le hsize hlong]
  · have hcount : r.remainder.length / (chunkSize * channels) =
        next.remainder.length / (chunkSize * channels) + 1 := by
      rw [hremainder, List.length_drop, ← Nat.add_div_right _ hsize, Nat.sub_add_cancel hlong]
    rw [hcount] at hroom
    have hfits := needsRoom_of_blocksOf h hchannels hroom
    rw [makeRoom, hfits] at houtputLen
    obtain ⟨hgrown, hkept⟩ := hrest.grown (by
      rw [hinner, houtputLen, List.length_append]
      exact blocksOf_room h.valid hchunk hroom)
    dsimp only
    rw [hfits, hgrown]
    exact ⟨rfl, hkept.trans houtputLen⟩

/-- All whole chunks are converted, if there are no more of them than iterations. -/
theorem converts_processChunks (h : Ready P r output.length) (hchannels : 0 < channels)
    (hfew : r.remainder.length < (iterations + 1) * (chunkSize * channels)) :
    Converts P r output (processChunks iterations r output) := by
  induction iterations generalizing r output with
  | zero =>
    rw [Nat.zero_add, Nat.one_mul] at hfew
    exact .none h hfew
  | succ iterations ih =>
    by_cases hlong : chunkSize * channels ≤ r.remainder.length
    · refine .cons h hchannels hlong fun next produced hready hremainder => ih hready ?_
      rw [hremainder, List.length_drop]
      rw [Nat.succ_mul] at hfew
      omega
    · exact .none h (Nat.lt_of_not_le hlong)

end Conversion

section Run

variable {fromRate toRate channels : ℕ} (P : R.FixedInput fromRate toRate channels)
  {r : CaptureResampler R} {input : List F}

/-- A resampler between two calls. -/
structure Idle (r : CaptureResampler R) : Prop where
  /-- A call can begin. -/
  ready : Ready P r 0
  /-- Less than a chunk waits. -/
  short : r.remainder.length < chunkSize * channels

variable {P}

/-- A resampler that is set up has room for the largest input at its rates, and one chunk more. -/
theorem idle_of_new (hnew : new R fromRate toRate channels = .ok r) :
    0 < channels ∧ 0 < fromRate ∧ P.fftIn ≤ chunkSize ∧ Idle P r ∧ r.remainder = [] ∧
      P.savedFrames r.inner = 0 ∧
      r.outputLen = (divCeil (divCeil maxInputSamplesPerCall channels * toRate) fromRate +
        chunkSize / P.fftIn * P.fftOut) * channels := by
  rw [new] at hnew
  split at hnew
  · nomatch hnew
  · next hchannels =>
    split at hnew
    · nomatch hnew
    · next inner hinner =>
      dsimp only at hnew
      split at hnew
      · nomatch hnew
      · next hdegenerate =>
        obtain rfl := Except.ok.inj hnew
        obtain ⟨hvalid, hsaved, hrate⟩ := P.valid_new hinner
        have hchannels := Nat.pos_of_ne_zero hchannels
        have hfirst : R.outputFramesNext inner = chunkSize / P.fftIn * P.fftOut := by
          rw [P.outputFramesNext_eq hvalid, hsaved, Nat.zero_add]
        have hblock : P.fftIn ≤ chunkSize := by
          refine Nat.le_of_not_lt fun hlt => hdegenerate (.inr ?_)
          rw [hfirst, Nat.div_eq_of_lt hlt, Nat.zero_mul]
        refine ⟨hchannels, hrate, hblock, ⟨?_, Nat.mul_pos (by decide) hchannels⟩, rfl,
          hsaved, ?_⟩
        · exact ⟨hvalid, rfl, P.inputFramesNext_eq hvalid, rfl, 0, Nat.zero_le _,
            (Nat.zero_mul _).symm⟩
        · rw [← hfirst]

/-- The blocks that frames complete are no longer than the frames at the other rate, and one
block more. -/
theorem blocks_le {saved frames most : ℕ} (hrate : 0 < fromRate) (hsaved : saved < P.fftIn)
    (hblock : P.fftIn ≤ chunkSize) (hframes : frames ≤ most) :
    (saved + frames) / P.fftIn * P.fftOut ≤
      divCeil (most * toRate) fromRate + chunkSize / P.fftIn * P.fftOut := by
  cases hblocks : (saved + frames) / P.fftIn with
  | zero =>
    rw [Nat.zero_mul]
    exact Nat.zero_le _
  | succ blocks =>
    have hwhole : (blocks + 1) * P.fftIn ≤ saved + frames :=
      hblocks ▸ Nat.div_mul_le_self (saved + frames) P.fftIn
    have hmost : blocks * P.fftIn ≤ most := by
      rw [Nat.succ_mul] at hwhole
      omega
    have hconverted : blocks * P.fftOut * fromRate ≤ most * toRate := by
      rw [Nat.mul_assoc, P.fftOut_mul, ← Nat.mul_assoc]
      exact Nat.mul_le_mul_right _ hmost
    have hall : blocks * P.fftOut ≤ divCeil (most * toRate) fromRate :=
      Nat.le_trans ((Nat.le_div_iff_mul_le hrate).mpr hconverted) (div_le_divCeil _ _)
    have hone : P.fftOut ≤ chunkSize / P.fftIn * P.fftOut :=
      Nat.le_mul_of_pos_left _ (Nat.div_pos hblock P.fftIn_pos)
    rw [Nat.succ_mul]
    exact Nat.add_le_add hall hone

/-- One call converts what waits and what it is given. -/
theorem converts_processInterleaved (h : Idle P r) (hchannels : 0 < channels)
    (hinput : input.length ≤ maxInputSamplesPerCall) :
    Converts P { r with remainder := r.remainder ++ input } [] (r.processInterleaved input) := by
  have hsize : 0 < chunkSize * channels := Nat.mul_pos (by decide) hchannels
  have hready : Ready P { r with remainder := r.remainder ++ input } ([] : List F).length :=
    ⟨h.ready.valid, h.ready.channels_eq, h.ready.framesNeeded_eq, h.ready.outputLen_eq,
      h.ready.whole⟩
  refine converts_processChunks hready hchannels ?_
  have hshort := h.short
  have hcover := le_divCeil_mul hsize maxInputSamplesPerCall
  rw [h.ready.framesNeeded_eq, h.ready.channels_eq, List.length_append, Nat.add_mul, Nat.add_mul]
  omega

/-- What a call leaves is between two calls again. -/
theorem idle_processInterleaved (h : Idle P r) (hchannels : 0 < channels)
    (hinput : input.length ≤ maxInputSamplesPerCall) :
    Idle P (r.processInterleaved input).resampler := by
  have hconverts := converts_processInterleaved h hchannels hinput
  refine ⟨hconverts.ready, ?_⟩
  rw [hconverts.remainder]
  exact length_chunksRest_lt (Nat.mul_pos (by decide) hchannels) _

/-- A resampler that has converted a stream from a state on, and what came out of it. -/
structure Follows (P : R.FixedInput fromRate toRate channels) (inner : R.State)
    (stream emitted : List F) (r : CaptureResampler R) : Prop where
  /-- It is between two calls. -/
  idle : Idle P r
  /-- The whole chunks are converted. -/
  fed : feedAll P inner (chunksExact (chunkSize * channels) stream) = (r.inner, emitted)
  /-- The rest waits. -/
  remainder : r.remainder = chunksRest (chunkSize * channels) stream

/-- One call more converts its input behind the stream. -/
theorem Follows.processInterleaved {inner : R.State} {stream emitted : List F}
    (h : Follows P inner stream emitted r) (hchannels : 0 < channels)
    (hinput : input.length ≤ maxInputSamplesPerCall) :
    ∃ output, (r.processInterleaved input).output = .ok output ∧
      Follows P inner (stream ++ input) (emitted ++ output)
        (r.processInterleaved input).resampler := by
  have hconverts := converts_processInterleaved h.idle hchannels hinput
  obtain ⟨hchunks, hrest⟩ :=
    chunksExact_append (Nat.mul_pos (by decide) hchannels : 0 < chunkSize * channels) stream input
  rw [← h.remainder] at hchunks hrest
  refine ⟨_, hconverts.output, idle_processInterleaved h.idle hchannels hinput, ?_, ?_⟩
  · rw [hchunks, feedAll_append, h.fed, hconverts.inner, hconverts.handed]
    rfl
  · rw [hrest, hconverts.remainder]

/-- What came out and what waits are as much as the stream, at the two rates. -/
theorem Follows.amount {inner : R.State} {stream emitted : List F}
    (h : Follows P inner stream emitted r) (hproportional : P.Proportional)
    (hvalid : P.Valid inner) (hsaved : P.savedFrames inner = 0) :
    emitted.length * fromRate +
        (P.savedFrames r.inner * channels + r.remainder.length) * toRate =
      stream.length * toRate := by
  have hamount := feedAll_amount hproportional (chunksExact (chunkSize * channels) stream)
    (fun chunk => length_of_mem_chunksExact) hvalid
  have hstream := congrArg List.length (flatten_chunksExact (chunkSize * channels) stream)
  rw [h.fed, hsaved, Nat.zero_mul, Nat.zero_add] at hamount
  rw [← hstream, List.length_append, ← h.remainder, Nat.add_mul, Nat.add_mul, ← Nat.add_assoc,
    hamount]

/-- The buffer is as long as it was sized for the largest input. -/
def Sized (P : R.FixedInput fromRate toRate channels) (r : CaptureResampler R) : Prop :=
  r.outputLen = (divCeil (divCeil maxInputSamplesPerCall channels * toRate) fromRate +
    chunkSize / P.fftIn * P.fftOut) * channels

/-- If the largest input is whole chunks, no call completes more blocks than there is room for. -/
theorem blocksOf_le_of_sized (h : Idle P r) (hsized : Sized P r) (hchannels : 0 < channels)
    (hrate : 0 < fromRate) (hblock : P.fftIn ≤ chunkSize)
    (hinput : input.length ≤ maxInputSamplesPerCall)
    (hwhole : chunkSize * channels ∣ maxInputSamplesPerCall) :
    blocksOf P r.inner ((r.remainder ++ input).length / (chunkSize * channels)) *
      P.fftOut * channels ≤ r.outputLen := by
  have hsize : 0 < chunkSize * channels := Nat.mul_pos (by decide) hchannels
  obtain ⟨chunks, hchunks⟩ := hwhole
  have hcount : (r.remainder ++ input).length / (chunkSize * channels) ≤ chunks := by
    refine Nat.lt_succ_iff.mp ((Nat.div_lt_iff_lt_mul hsize).mpr ?_)
    have hshort := h.short
    rw [List.length_append, Nat.succ_mul, Nat.mul_comm chunks]
    omega
  have hframes : chunks * chunkSize ≤ divCeil maxInputSamplesPerCall channels := by
    refine Nat.le_trans (Nat.le_of_eq ?_) (div_le_divCeil _ _)
    rw [hchunks, Nat.mul_comm chunkSize, Nat.mul_assoc, Nat.mul_div_cancel_left _ hchannels,
      Nat.mul_comm]
  rw [hsized]
  refine Nat.mul_le_mul_right _ (blocks_le hrate (P.savedFrames_lt h.ready.valid) hblock ?_)
  exact Nat.le_trans (Nat.mul_le_mul_right _ hcount) hframes

/-- A call leaves the buffer as it is, if the largest input is whole chunks. -/
theorem sized_processInterleaved (h : Idle P r) (hsized : Sized P r) (hchannels : 0 < channels)
    (hrate : 0 < fromRate) (hblock : P.fftIn ≤ chunkSize)
    (hinput : input.length ≤ maxInputSamplesPerCall)
    (hwhole : chunkSize * channels ∣ maxInputSamplesPerCall) :
    (r.processInterleaved input).grown = false ∧
      Sized P (r.processInterleaved input).resampler := by
  have hroom := blocksOf_le_of_sized h hsized hchannels hrate hblock hinput hwhole
  have hgrown := (converts_processInterleaved h hchannels hinput).grown
  rw [List.length_nil, Nat.zero_add] at hgrown
  obtain ⟨hgrown, hkept⟩ := hgrown hroom
  exact ⟨hgrown, Eq.trans hkept hsized⟩

/-- The chunk behind so many saved frames, from 44.1 to 48 kHz: what is saved, and silence. -/
def silentChunk (zero : F) (saved : ℕ) : ℕ × List F :=
  ((saved + 1024) % 588, List.replicate ((saved + 1024) / 588 * 640 * 2) zero)

/-- A resampler from 44.1 to 48 kHz that is only ever given silence. -/
def silent (zero : F) : Rubato F where
  State := ℕ
  new fromRate toRate chunkSize _ channels :=
    if fromRate = 44100 ∧ toRate = 48000 ∧ chunkSize = 1024 ∧ channels = 2 then .ok (0 : ℕ)
    else .error "unsupported rates"
  inputFramesNext _ := 1024
  outputFramesNext := fun saved : ℕ => (saved + 1024) / 588 * 640
  processIntoBuffer saved _ _ := .ok (silentChunk zero saved)
  sizeError available needed :=
    "buffer of " ++ toString available ++ ", needed " ++ toString needed

/-- Its blocks are 588 frames at the one rate, and 640 at the other. -/
def fixedSilent (zero : F) : (silent zero).FixedInput 44100 48000 2 where
  Valid := fun saved : ℕ => saved < 588
  fftIn := 588
  fftOut := 640
  savedFrames saved := saved
  feed saved _ := silentChunk zero saved
  valid_new h := by
    obtain rfl := Except.ok.inj h
    decide
  fftIn_pos := by decide
  fftOut_mul := rfl
  savedFrames_lt h := h
  inputFramesNext_eq _ := rfl
  outputFramesNext_eq _ := rfl
  processIntoBuffer_eq _ _ _ := rfl
  valid_feed _ _ := ⟨Nat.mod_lt _ (by decide), rfl⟩
  length_feed _ _ := ⟨_, Nat.le_refl _, List.length_replicate⟩

/-- The resampler as it is set up. -/
def fresh : CaptureResampler (silent 0) := ⟨(0 : ℕ), 2, 68154, 34077, [], 1024⟩

/-- Ten milliseconds, three chunks and a half, nothing, and the largest input. -/
def silences : List (List ℕ) := [882, 7168, 0, 61440].map (List.replicate · 0)

end Run

end CaptureResampler

end Gemacast.Audio
