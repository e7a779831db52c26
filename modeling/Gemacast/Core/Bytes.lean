import Mathlib.Data.Nat.Log
import Mathlib.Tactic.Common
import Mathlib.Tactic.Ring

/-!
# Big-endian words

A natural number as a fixed number of bytes, most significant byte first, and back.
-/

namespace Gemacast.Core

/-- The last `width` base-256 digits of a number, most significant digit first. -/
def beBytes : ℕ → ℕ → List UInt8
  | 0, _ => []
  | width + 1, n => UInt8.ofNat (n / 256 ^ width) :: beBytes width n

/-- The number with the given base-256 digits, most significant digit first. -/
def ofBeBytes : List UInt8 → ℕ
  | [] => 0
  | b :: bs => b.toNat * 256 ^ bs.length + ofBeBytes bs

@[simp] theorem length_beBytes (width n : ℕ) : (beBytes width n).length = width := by
  induction width with
  | zero => rfl
  | succ width ih => simp only [beBytes, List.length_cons, ih]

/-- A word of `width` bytes is below `256 ^ width`. -/
theorem ofBeBytes_lt (bs : List UInt8) : ofBeBytes bs < 256 ^ bs.length := by
  induction bs with
  | nil => simp [ofBeBytes]
  | cons b bs ih =>
    have hb : b.toNat < 256 := b.toNat_lt
    have hmul : (b.toNat + 1) * 256 ^ bs.length ≤ 256 * 256 ^ bs.length :=
      Nat.mul_le_mul_right _ hb
    rw [Nat.add_mul, Nat.one_mul] at hmul
    rw [ofBeBytes, List.length_cons, pow_succ']
    omega

/-- Reading a written word gives its value back, up to the width. -/
theorem ofBeBytes_beBytes_mod (width n : ℕ) : ofBeBytes (beBytes width n) = n % 256 ^ width := by
  induction width with
  | zero => simp [beBytes, ofBeBytes, Nat.mod_one]
  | succ width ih =>
    rw [beBytes, ofBeBytes, length_beBytes, ih, UInt8.toNat_ofNat']
    change n / 256 ^ width % 256 * 256 ^ width + n % 256 ^ width = n % 256 ^ (width + 1)
    rw [Nat.mod_pow_succ, Nat.mul_comm, Nat.add_comm]

/-- Reading a written word gives its value back. -/
theorem ofBeBytes_beBytes {width n : ℕ} (h : n < 256 ^ width) :
    ofBeBytes (beBytes width n) = n := by
  rw [ofBeBytes_beBytes_mod, Nat.mod_eq_of_lt h]

/-- The digits of a word ignore what lies above its width. -/
theorem beBytes_add_mul (width m n : ℕ) :
    beBytes width (m * 256 ^ width + n) = beBytes width n := by
  suffices h : ∀ k ≤ width, beBytes k (m * 256 ^ width + n) = beBytes k n from h width le_rfl
  intro k hk
  induction k with
  | zero => rfl
  | succ k ih =>
    have hsplit : m * 256 ^ width = m * 256 ^ (width - (k + 1)) * 256 * 256 ^ k := by
      rw [Nat.mul_assoc, Nat.mul_assoc, ← pow_succ', ← pow_add]
      congr 2
      omega
    have hdigit : UInt8.ofNat ((m * 256 ^ width + n) / 256 ^ k) = UInt8.ofNat (n / 256 ^ k) := by
      rw [hsplit, Nat.add_comm, Nat.add_mul_div_right _ _ (Nat.pow_pos (by decide))]
      apply UInt8.toNat_inj.mp
      rw [UInt8.toNat_ofNat', UInt8.toNat_ofNat']
      exact Nat.add_mul_mod_self_right _ _ _
    rw [beBytes, beBytes, hdigit, ih (by omega)]

/-- Writing a read word gives its bytes back. -/
theorem beBytes_ofBeBytes (bs : List UInt8) : beBytes bs.length (ofBeBytes bs) = bs := by
  induction bs with
  | nil => rfl
  | cons b bs ih =>
    have hlt := ofBeBytes_lt bs
    rw [ofBeBytes, List.length_cons, beBytes, beBytes_add_mul, ih,
      Nat.add_comm, Nat.add_mul_div_right _ _ (Nat.pow_pos (by decide)), Nat.div_eq_of_lt hlt,
      Nat.zero_add,
      UInt8.ofNat_toNat]

/-- A small number starts with zero digits. -/
theorem getElem?_beBytes_eq_zero {width n k : ℕ} (hk : k < width) (h : n < 256 ^ (width - k - 1)) :
    (beBytes width n)[k]? = some 0 := by
  induction width generalizing k with
  | zero => omega
  | succ width ih =>
    cases k with
    | zero =>
      have hdiv : n / 256 ^ width = 0 := Nat.div_eq_of_lt (by simpa using h)
      rw [beBytes, hdiv]
      rfl
    | succ k =>
      rw [beBytes, List.getElem?_cons_succ]
      refine ih (by omega) ?_
      rwa [show width + 1 - (k + 1) - 1 = width - k - 1 by omega] at h

section Word

/-- The bytes of an unsigned 64-bit word. -/
def wordBytes (word : UInt64) : List UInt8 := beBytes 8 word.toNat

/-- The unsigned 64-bit word with the given bytes. -/
def ofWordBytes (bytes : List UInt8) : UInt64 := UInt64.ofNat (ofBeBytes bytes)

@[simp] theorem length_wordBytes (word : UInt64) : (wordBytes word).length = 8 := length_beBytes _ _

@[simp] theorem ofWordBytes_wordBytes (word : UInt64) : ofWordBytes (wordBytes word) = word := by
  rw [ofWordBytes, wordBytes, ofBeBytes_beBytes word.toNat_lt, UInt64.ofNat_toNat]

/-- Eight bytes are the bytes of the word they spell. -/
theorem wordBytes_ofWordBytes {bytes : List UInt8} (h : bytes.length = 8) :
    wordBytes (ofWordBytes bytes) = bytes := by
  have hlt : ofBeBytes bytes < 2 ^ 64 := by
    have := ofBeBytes_lt bytes
    rwa [h] at this
  rw [wordBytes, ofWordBytes, UInt64.toNat_ofNat', Nat.mod_eq_of_lt hlt, ← h, beBytes_ofBeBytes]

end Word

end Gemacast.Core
