import Gemacast.Core.Binary32
import Gemacast.Core.Blocks

/-!
# What captures share

Platform buffers are bytes of which whole samples are read. What a capture backend and the
capture loop count wraps, and no decision of the pipeline reads it.
-/

namespace Gemacast.Audio

open Gemacast.Core

/-- The whole samples of some bytes; a shorter rest is left out. -/
def wholeSamples {F : Type} [Binary32 F] (bytes : List UInt8) : List F :=
  (chunksExact 4 bytes).map Binary32.ofBytes

theorem length_wholeSamples {F : Type} [Binary32 F] (bytes : List UInt8) :
    (wholeSamples (F := F) bytes).length = bytes.length / 4 := by
  rw [wholeSamples, List.length_map, length_chunksExact]

/-- The counters of one capture. -/
structure CaptureCounters where
  /-- Samples discarded because the ring had no room. -/
  droppedSamples : UInt64 := 0
  /-- Bytes skipped to reach alignment. -/
  unalignedPrefixBytes : UInt64 := 0
  /-- Samples held over, or without a partner. -/
  truncatedSamples : UInt64 := 0
  /-- Reads of the ring that ended within a pair. -/
  oddRingReads : UInt64 := 0
  /-- Buffers that the driver flagged corrupted. -/
  corruptedChunks : UInt64 := 0
  /-- Buffers that the driver flagged silent. -/
  silentBuffers : UInt64 := 0
  /-- Buffers of a format or layout that is not recognised. -/
  unknownFormatBuffers : UInt64 := 0
  /-- Stream errors that found the error channel occupied. -/
  droppedStreamErrors : UInt64 := 0
  deriving DecidableEq, Repr

namespace CaptureCounters

/-- Every counter with its name. -/
def snapshot (c : CaptureCounters) : List (String × UInt64) :=
  [("dropped_samples", c.droppedSamples), ("unaligned_prefix_bytes", c.unalignedPrefixBytes),
    ("truncated_samples", c.truncatedSamples), ("odd_ring_reads", c.oddRingReads),
    ("corrupted_chunks", c.corruptedChunks), ("silent_buffers", c.silentBuffers),
    ("unknown_format_buffers", c.unknownFormatBuffers),
    ("dropped_stream_errors", c.droppedStreamErrors)]

/-- A line is logged exactly when some counter moved. -/
theorem snapshot_inj {c c' : CaptureCounters} : c.snapshot = c'.snapshot ↔ c = c' := by
  refine ⟨fun heq => ?_, fun heq => heq ▸ rfl⟩
  obtain ⟨⟩ := c
  obtain ⟨⟩ := c'
  simpa [snapshot] using heq

end CaptureCounters

end Gemacast.Audio
