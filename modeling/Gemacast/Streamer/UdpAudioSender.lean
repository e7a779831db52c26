import Mathlib.Algebra.GroupWithZero.Nat
import Mathlib.Algebra.Ring.Int.Defs
import Mathlib.Data.Int.Notation
import Mathlib.Tactic.Common

/-!
# The numbers of a UDP sender

A sender numbers its packets from the millisecond it was started in, by the position of
the frame in its capture. Its generation is the microsecond it was started in, or the one
after the last generation given out.
-/

namespace Gemacast.Streamer

/-- Microseconds since the epoch; a clock before it counts as none. -/
def sinceEpoch (now : ℤ) : ℕ := now.toNat

/-- The generation after the last one given out. -/
def nextSenderGeneration (previous : UInt64) (epoch : ℕ) : UInt64 :=
  max (previous + 1) (UInt64.ofNat epoch)

/-- What a sender puts on its packets. -/
structure UdpAudioSender where
  /-- The generation of its PCM datagrams. -/
  generation : UInt64
  /-- The number of the frame at position zero. -/
  sequenceBase : UInt64
  deriving DecidableEq, Repr

namespace UdpAudioSender

/-- A sender started now, given the last generation given out. -/
def new (lastGeneration : UInt64) (now : ℤ) : UdpAudioSender :=
  ⟨nextSenderGeneration lastGeneration (sinceEpoch now), UInt64.ofNat (sinceEpoch now / 1000)⟩

end UdpAudioSender

/-- A counter that is not at its last number goes up. -/
theorem lt_add_one {n : UInt64} (h : n ≠ -1) : n < n + 1 := by
  have hne : n.toNat ≠ 2 ^ 64 - 1 := fun heq => h (UInt64.toNat_inj.mp heq)
  have hbound := n.toNat_lt
  rw [UInt64.lt_iff_toNat_lt, UInt64.toNat_add, UInt64.toNat_one, Nat.mod_eq_of_lt (by omega)]
  omega

/-- Unless the counter runs over, a new generation is above the last one, whatever the clock. -/
theorem lt_nextSenderGeneration {previous : UInt64} (h : previous ≠ -1) (epoch : ℕ) :
    previous < nextSenderGeneration previous epoch := by
  have hsucc := lt_add_one h
  change previous < if previous + 1 ≤ UInt64.ofNat epoch then UInt64.ofNat epoch else previous + 1
  split
  · next hle => exact UInt64.lt_of_lt_of_le hsucc hle
  · exact hsucc

/-- A clock that has not been set back gives a base that is not lower. -/
theorem sequenceBase_mono {last last' : UInt64} {before now : ℤ} (hle : before ≤ now)
    (hfit : sinceEpoch now / 1000 < 2 ^ 64) :
    (UdpAudioSender.new last before).sequenceBase ≤
    (UdpAudioSender.new last' now).sequenceBase := by
  have hmillis : sinceEpoch before / 1000 ≤ sinceEpoch now / 1000 :=
    Nat.div_le_div_right (Int.toNat_le_toNat hle : now.toNat ≥ before.toNat)
  rw [UInt64.le_iff_toNat_le]
  change (UInt64.ofNat _).toNat ≤ (UInt64.ofNat _).toNat
  rw [UInt64.toNat_ofNat', UInt64.toNat_ofNat', Nat.mod_eq_of_lt (by omega),
    Nat.mod_eq_of_lt hfit]
  exact hmillis

end Gemacast.Streamer
