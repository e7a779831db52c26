import Gemacast.Core.Recut
import Gemacast.Audio.Capture

/-!
# The buffers of a ScreenCaptureKit callback

A callback hands over one buffer of interleaved stereo or two of one channel each. Every
block that is passed on consists of whole pairs; a sample that an interleaved buffer ends on
is carried over to the next one.
-/

namespace Gemacast.Audio

open Gemacast.Core

variable {F : Type} [Binary32 F]

/-- Bytes of a platform buffer, and where they lie. -/
structure PlatformBuffer where
  /-- The address of the first byte. -/
  address : ℕ
  /-- The bytes. -/
  bytes : List UInt8
  deriving DecidableEq, Repr

namespace PlatformBuffer

/-- The buffer begins at a four-byte boundary. -/
def Aligned (b : PlatformBuffer) : Prop := b.address % 4 = 0

instance : DecidablePred Aligned := fun b => inferInstanceAs (Decidable (b.address % 4 = 0))

/-- The bytes in front of the first four-byte boundary. -/
def alignPrefix (b : PlatformBuffer) : ℕ := min ((4 - b.address % 4) % 4) b.bytes.length

end PlatformBuffer

/-- Read a buffer as samples, and count the bytes skipped in front of them. -/
def bytesAsF32 (b : PlatformBuffer) (counters : CaptureCounters) : List F × CaptureCounters :=
  let skipped := b.alignPrefix
  let samples := wholeSamples (b.bytes.drop skipped)
  if 0 < skipped then
    (samples, { counters with
      unalignedPrefixBytes := counters.unalignedPrefixBytes + UInt64.ofNat skipped })
  else (samples, counters)

/-- What the handler keeps from one callback to the next. -/
structure SckState (F : Type) where
  /-- A left sample that waits for its right one. -/
  carry : Option F
  /-- The counters of the capture. -/
  counters : CaptureCounters
  deriving DecidableEq, Repr

/-- Fold the buffers of one callback into interleaved stereo. -/
def sckBuffersToInterleavedStereo (buffers : List PlatformBuffer) (s : SckState F) :
    List F × SckState F :=
  match buffers with
  | [interleaved] =>
    -- the carried sample in front, and a new odd one held back
    let (samples, counters) := bytesAsF32 interleaved s.counters
    let out := s.carry.toList ++ samples
    if out.length % 2 = 1 then
      (out.dropLast, ⟨out.getLast?,
        { counters with truncatedSamples := counters.truncatedSamples + 1 }⟩)
    else (out, ⟨none, counters⟩)
  | [leftBytes, rightBytes] =>
    let (left, counters) := bytesAsF32 leftBytes s.counters
    let (right, counters) := bytesAsF32 rightBytes counters
    let pairs := min left.length right.length
    let orphans := max left.length right.length - pairs
    let counters := if 0 < orphans then
        { counters with truncatedSamples := counters.truncatedSamples + UInt64.ofNat orphans }
      else counters
    (((left.take pairs).zip (right.take pairs)).flatMap fun pair => [pair.1, pair.2],
      ⟨s.carry, counters⟩)
  | _ => ([], ⟨s.carry,
      { s.counters with unknownFormatBuffers := s.counters.unknownFormatBuffers + 1 }⟩)

variable {b l r : PlatformBuffer} {buffers : List PlatformBuffer} {s : SckState F}
  {counters : CaptureCounters}

/-- The samples of an aligned buffer are all its whole samples, and nothing is counted. -/
theorem bytesAsF32_of_aligned (h : b.Aligned) (counters : CaptureCounters) :
    bytesAsF32 (F := F) b counters = (wholeSamples b.bytes, counters) := by
  have hskipped : b.alignPrefix = 0 := by
    rw [PlatformBuffer.alignPrefix, show b.address % 4 = 0 from h]
    exact Nat.zero_min _
  rw [bytesAsF32, hskipped]
  rfl

/-- What an interleaved buffer completes. -/
def spliced (s : SckState F) (b : PlatformBuffer) : List F :=
  s.carry.toList ++ wholeSamples b.bytes

/-- An interleaved buffer passes on all it completes, up to an odd last sample. -/
theorem sckBuffers_interleaved (h : b.Aligned) (s : SckState F) :
    sckBuffersToInterleavedStereo [b] s =
      if (spliced s b).length % 2 = 1 then
        ((spliced s b).dropLast, ⟨(spliced s b).getLast?,
          { s.counters with truncatedSamples := s.counters.truncatedSamples + 1 }⟩)
      else (spliced s b, ⟨none, s.counters⟩) := by
  rw [sckBuffersToInterleavedStereo, bytesAsF32_of_aligned h]
  rfl

/-- The samples of two channels that have no partner. -/
def orphans (F : Type) [Binary32 F] (l r : PlatformBuffer) : ℕ :=
  max (wholeSamples (F := F) l.bytes).length (wholeSamples (F := F) r.bytes).length -
    min (wholeSamples (F := F) l.bytes).length (wholeSamples (F := F) r.bytes).length

/-- Two channels pass their pairs on and leave the carried sample alone. -/
theorem sckBuffers_planar (hl : l.Aligned) (hr : r.Aligned) (s : SckState F) :
    ∃ pairs : List (F × F), sckBuffersToInterleavedStereo [l, r] s =
      (pairs.flatMap fun pair => [pair.1, pair.2], ⟨s.carry, { s.counters with
        truncatedSamples := s.counters.truncatedSamples + UInt64.ofNat (orphans F l r) }⟩) := by
  rw [sckBuffersToInterleavedStereo, bytesAsF32_of_aligned hl]
  dsimp only
  rw [bytesAsF32_of_aligned hr]
  dsimp only
  refine ⟨_, Prod.ext rfl ?_⟩
  by_cases horphans : 0 < orphans F l r
  · exact congrArg (SckState.mk s.carry) (if_pos horphans)
  · have hnone : orphans F l r = 0 := by omega
    refine congrArg (SckState.mk s.carry) ((if_neg horphans).trans ?_)
    rw [hnone]
    simp

/-- Any other layout than one buffer gives the same for every carried sample, and keeps it. -/
theorem sckBuffers_carry (h : buffers.length ≠ 1) (s : SckState F) (carry : Option F) :
    sckBuffersToInterleavedStereo buffers ⟨carry, s.counters⟩ =
      ((sckBuffersToInterleavedStereo buffers s).1,
        ⟨carry, (sckBuffersToInterleavedStereo buffers s).2.counters⟩) :=
  match buffers, h with
  | [], _ => rfl
  | [_, _], _ => rfl
  | _ :: _ :: _ :: _, _ => rfl

section Run

/-- The handler, with the counters it starts with. -/
def sckMachine (counters : CaptureCounters) :
    Machine (SckState F) (List PlatformBuffer) (List F) :=
  ⟨⟨none, counters⟩, fun s buffers => ((sckBuffersToInterleavedStereo buffers s).2,
    (sckBuffersToInterleavedStereo buffers s).1)⟩

/-- One callback and the block it passes on. -/
abbrev Callback (F : Type) := Event (SckState F) (List PlatformBuffer) (List F)

/-- The block of a callback with one buffer. -/
def interleavedBlock (e : Callback F) : List F := if e.input.length = 1 then e.output else []

/-- The whole samples that a callback with one buffer is given. -/
def interleavedSamples (e : Callback F) : List F :=
  match e.input with
  | [b] => wholeSamples b.bytes
  | _ => []

/-- The planar samples without a partner, or the sample held over. -/
def truncated (e : Callback F) : ℕ :=
  match e.input with
  | [_] => if e.after.carry.isSome then 1 else 0
  | [l, r] => orphans F l r
  | _ => 0

/-- All buffers of a callback are aligned. -/
def AllAligned (buffers : List PlatformBuffer) : Prop := ∀ b ∈ buffers, b.Aligned

instance : DecidablePred AllAligned := fun buffers =>
  inferInstanceAs (Decidable (∀ b ∈ buffers, b.Aligned))

/-- Every block consists of whole pairs. -/
theorem even_block (h : AllAligned buffers) (s : SckState F) :
    (sckBuffersToInterleavedStereo buffers s).1.length % 2 = 0 := by
  match buffers, h with
  | [], _ => rfl
  | [b], h =>
    rw [sckBuffers_interleaved (h b List.mem_cons_self)]
    split
    · next hodd =>
      rw [List.length_dropLast]
      omega
    · next heven => exact Nat.mod_two_ne_one.mp heven
  | [l, r], h =>
    obtain ⟨pairs, hpairs⟩ := sckBuffers_planar (h l (by simp)) (h r (by simp)) s
    rw [hpairs]
    simp
  | _ :: _ :: _ :: _, _ => rfl

/-- A callback passes on and holds back what was held back before and what it is given. -/
theorem interleaved_step (h : AllAligned buffers) (s : SckState F) :
    interleavedBlock ((sckMachine counters).eventAt s buffers) ++
        ((sckMachine counters).step s buffers).1.carry.toList =
      s.carry.toList ++ interleavedSamples ((sckMachine counters).eventAt s buffers) := by
  match buffers, h with
  | [], _ => exact (List.append_nil _).symm
  | [b], h =>
    change (sckBuffersToInterleavedStereo [b] s).1 ++
      (sckBuffersToInterleavedStereo [b] s).2.carry.toList = spliced s b
    rw [sckBuffers_interleaved (h b List.mem_cons_self)]
    split
    · next hodd =>
      have hne : spliced s b ≠ [] := fun hnil => by simp [hnil] at hodd
      dsimp only
      rw [List.getLast?_eq_some_getLast hne, Option.toList_some, List.dropLast_concat_getLast]
    · exact List.append_nil _
  | [_, _], _ => exact (List.append_nil _).symm
  | _ :: _ :: _ :: _, _ => exact (List.append_nil _).symm

/-- A callback counts what it truncates. -/
theorem truncated_step (h : AllAligned buffers) (s : SckState F) :
    ((sckMachine counters).step s buffers).1.counters.truncatedSamples =
      s.counters.truncatedSamples +
        UInt64.ofNat (truncated ((sckMachine counters).eventAt s buffers)) := by
  match buffers, h with
  | [], _ => simp [sckMachine, sckBuffersToInterleavedStereo, truncated]
  | [b], h =>
    have hspliced := sckBuffers_interleaved (h b List.mem_cons_self) s
    change (sckBuffersToInterleavedStereo [b] s).2.counters.truncatedSamples =
      _ + UInt64.ofNat (if (sckBuffersToInterleavedStereo [b] s).2.carry.isSome then 1 else 0)
    rw [hspliced]
    split
    · next hodd =>
      have hne : spliced s b ≠ [] := fun hnil => by simp [hnil] at hodd
      dsimp only
      rw [List.getLast?_eq_some_getLast hne]
      rfl
    · simp
  | [l, r], h =>
    obtain ⟨pairs, hpairs⟩ := sckBuffers_planar (h l (by simp)) (h r (by simp)) s
    change (sckBuffersToInterleavedStereo [l, r] s).2.counters.truncatedSamples = _
    rw [hpairs]
    rfl
  | _ :: _ :: _ :: _, _ => simp [sckMachine, sckBuffersToInterleavedStereo, truncated]

/-- The counter of a run is what it was at first and what its callbacks truncated. -/
theorem truncated_from (s : SckState F) {callbacks : List (List PlatformBuffer)}
    (h : ∀ buffers ∈ callbacks, AllAligned buffers) :
    ((sckMachine counters).runFrom s callbacks).counters.truncatedSamples =
      s.counters.truncatedSamples +
        UInt64.ofNat ((((sckMachine counters).eventsFrom s callbacks).map truncated).sum) := by
  induction callbacks generalizing s with
  | nil => simp
  | cons buffers callbacks ih =>
    rw [Machine.runFrom_cons, ih _ fun b hb => h b (List.mem_cons_of_mem _ hb),
      truncated_step (h buffers List.mem_cons_self), Machine.eventsFrom_cons, List.map_cons,
      List.sum_cons, UInt64.ofNat_add, UInt64.add_assoc]

/-- Over any callbacks with aligned buffers every block consists of whole pairs, the blocks of
the interleaved callbacks followed by the carried sample are the whole samples these were given,
no other callback reads or changes the carried sample, and what is truncated is counted. -/
theorem reframed_of_run (counters : CaptureCounters) (callbacks : List (List PlatformBuffer))
    (haligned : ∀ buffers ∈ callbacks, AllAligned buffers) :
    (∀ e ∈ (sckMachine (F := F) counters).events callbacks, e.output.length % 2 = 0) ∧
    ((sckMachine (F := F) counters).events callbacks).flatMap interleavedBlock ++
        ((sckMachine (F := F) counters).run callbacks).carry.toList =
      ((sckMachine (F := F) counters).events callbacks).flatMap interleavedSamples ∧
    (∀ e ∈ (sckMachine (F := F) counters).events callbacks, e.input.length ≠ 1 → ∀ carry,
      sckBuffersToInterleavedStereo e.input ⟨carry, e.before.counters⟩ =
        (e.output, ⟨carry, e.after.counters⟩)) ∧
    ((sckMachine (F := F) counters).run callbacks).counters.truncatedSamples =
      counters.truncatedSamples + UInt64.ofNat
        ((((sckMachine (F := F) counters).events callbacks).map truncated).sum) := by
  have hinput : ∀ e ∈ (sckMachine (F := F) counters).events callbacks, AllAligned e.input :=
    fun e he => haligned _ ((sckMachine counters).input_mem he)
  refine ⟨fun e he => ?_, ?_, fun e he hlayout carry => ?_, truncated_from _ haligned⟩
  · rw [(sckMachine counters).eq_eventAt_of_mem he]
    exact even_block (hinput e he) e.before
  · exact (sckMachine counters).conserved_from (fun s => s.carry.toList) _ _
      (p := fun _ buffers => AllAligned buffers) (fun s buffers h => interleaved_step h s) hinput
  · have heq := (sckMachine counters).eq_eventAt_of_mem he
    rw [sckBuffers_carry hlayout e.before carry, congrArg Event.output heq,
      congrArg Event.after heq]
    rfl

/-- Three samples, two channels of which one is longer, no buffer, and one sample and a half. -/
def oddCallbacks : List (List PlatformBuffer) :=
  [[⟨0, List.replicate 12 0⟩], [⟨0, List.replicate 8 0⟩, ⟨16, List.replicate 4 0⟩], [],
    [⟨32, List.replicate 6 0⟩]]

theorem reframed_of_run_oddCallbacks : (∀ buffers ∈ oddCallbacks, AllAligned buffers) ∧
    (((sckMachine (F := SoftFloat) {}).events oddCallbacks).map truncated).sum = 2 ∧
    ((sckMachine (F := SoftFloat) {}).run oddCallbacks).counters.truncatedSamples =
      ({} : CaptureCounters).truncatedSamples + UInt64.ofNat
        ((((sckMachine (F := SoftFloat) {}).events oddCallbacks).map truncated).sum) := by
  have haligned : ∀ buffers ∈ oddCallbacks, AllAligned buffers := by decide
  have hcount : (((sckMachine (F := SoftFloat) {}).events oddCallbacks).map truncated).sum = 2 := by
    decide +kernel
  exact ⟨haligned, hcount, (reframed_of_run {} oddCallbacks haligned).2.2.2⟩

end Run

end Gemacast.Audio
