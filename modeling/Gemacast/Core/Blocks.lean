import Mathlib.Data.List.Basic
import Mathlib.Tactic.Common

/-!
# Blocks of a list

A list of equal blocks that is written one block at a time, in any order.
-/

namespace Gemacast.Core

variable {α : Type*}

/-- Write `new` over the entries of `old` from `offset` on, within its length. -/
def overwrite (old : List α) (offset : ℕ) (new : List α) : List α :=
  old.mapIdx fun i x => if offset ≤ i then (new[i - offset]?).getD x else x

/-- Block number `i` of a list of blocks of length `size`. -/
def block (size : ℕ) (l : List α) (i : ℕ) : List α := (l.drop (i * size)).take size

@[simp] theorem length_overwrite (old : List α) (offset : ℕ) (new : List α) :
    (overwrite old offset new).length = old.length := by
  simp [overwrite]

theorem getElem?_overwrite (old : List α) (offset : ℕ) (new : List α) (i : ℕ) :
    (overwrite old offset new)[i]? =
      old[i]?.map fun x => if offset ≤ i then (new[i - offset]?).getD x else x := by
  simp [overwrite]

theorem getElem?_block (size : ℕ) (l : List α) (i k : ℕ) :
    (block size l i)[k]? = if k < size then l[i * size + k]? else none := by
  simp only [block, List.getElem?_take, List.getElem?_drop]

/-- Writing one block sets that block and leaves the others. -/
theorem block_overwrite {size count : ℕ} {old new : List α} (hold : old.length = count * size)
    (hnew : new.length = size) {i : ℕ} (hi : i < count) (j : ℕ) :
    block size (overwrite old (i * size) new) j = if j = i then new else block size old j := by
  apply List.ext_getElem?
  intro k
  by_cases hk : k < size
  · by_cases hj : j = i
    · subst hj
      have hin : j * size + k < old.length := by
        have hle : (j + 1) * size ≤ count * size := Nat.mul_le_mul_right size hi
        rw [Nat.succ_mul] at hle
        omega
      have hk' : k < new.length := by omega
      rw [if_pos rfl, getElem?_block, if_pos hk, getElem?_overwrite]
      simp [hin, hk']
    · rw [if_neg hj, getElem?_block, getElem?_block, if_pos hk, if_pos hk, getElem?_overwrite]
      by_cases hle : i * size ≤ j * size + k
      · have hlt : i < j := by
          by_contra hnot
          have hmul : (j + 1) * size ≤ i * size := Nat.mul_le_mul_right size (by omega)
          rw [Nat.succ_mul] at hmul
          omega
        have hmul : (i + 1) * size ≤ j * size := Nat.mul_le_mul_right size hlt
        rw [Nat.succ_mul] at hmul
        have hout : new.length ≤ j * size + k - i * size := by omega
        simp [hle, List.getElem?_eq_none hout]
      · simp [hle]
  · by_cases hj : j = i
    · rw [getElem?_block, if_neg hk, if_pos hj, List.getElem?_eq_none (by omega)]
    · rw [if_neg hj, getElem?_block, getElem?_block, if_neg hk, if_neg hk]

/-- A list is determined by its blocks. -/
theorem eq_of_block_eq {size count : ℕ} {l l' : List α} (hl : l.length = count * size)
    (hl' : l'.length = count * size) (h : ∀ i < count, block size l i = block size l' i) :
    l = l' := by
  apply List.ext_getElem?
  intro k
  by_cases hk : k < count * size
  · have hsize : 0 < size := Nat.pos_of_ne_zero fun hzero => by simp [hzero] at hk
    have hi : k / size < count := Nat.div_lt_of_lt_mul (by rwa [Nat.mul_comm])
    have hkey := congrArg (fun b => b[k % size]?) (h (k / size) hi)
    simp only [getElem?_block, if_pos (Nat.mod_lt k hsize)] at hkey
    rwa [Nat.div_add_mod' k size] at hkey
  · rw [List.getElem?_eq_none (by omega), List.getElem?_eq_none (by omega)]

/-- Writing at the front leaves what is written, up to the old length, followed by the
old rest. -/
theorem overwrite_zero_take (old new : List α) :
    (overwrite old 0 new).take (new.take old.length).length = new.take old.length := by
  apply List.ext_getElem?
  intro k
  rw [List.getElem?_take, List.length_take]
  by_cases hk : k < min old.length new.length
  · have hold : k < old.length := by omega
    have hnew : k < new.length := by omega
    rw [if_pos hk, getElem?_overwrite, List.getElem?_eq_getElem hold, List.getElem?_take,
      if_pos hold]
    simp [hnew]
  · rw [if_neg hk, List.getElem?_eq_none]
    rw [List.length_take]
    omega

/-- The whole blocks of a list; a shorter rest is left out. -/
def chunksExact (size : ℕ) (l : List α) : List (List α) :=
  (List.range (l.length / size)).map (block size l)

@[simp] theorem length_chunksExact (size : ℕ) (l : List α) :
    (chunksExact size l).length = l.length / size := by
  simp [chunksExact]

variable {size : ℕ} {l chunk : List α}

theorem length_of_mem_chunksExact (h : chunk ∈ chunksExact size l) : chunk.length = size := by
  obtain ⟨i, hi, rfl⟩ := List.mem_map.mp h
  have hlt := List.mem_range.mp hi
  have hmul : (i + 1) * size ≤ l.length :=
    Nat.le_trans (Nat.mul_le_mul_right size hlt) (Nat.div_mul_le_self _ _)
  rw [Nat.succ_mul] at hmul
  rw [block, List.length_take, List.length_drop]
  omega

theorem mem_of_mem_chunksExact (h : chunk ∈ chunksExact size l) {x : α} (hx : x ∈ chunk) :
    x ∈ l := by
  obtain ⟨i, -, rfl⟩ := List.mem_map.mp h
  exact List.mem_of_mem_drop (List.mem_of_mem_take hx)

end Gemacast.Core
