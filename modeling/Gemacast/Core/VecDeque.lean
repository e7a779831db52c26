import Mathlib.Data.List.Range
import Mathlib.Tactic.Common

/-!
# Double-ended queues

What a reader of a queue relies on, whatever its layout: two slices that hold the contents
in order, appending at the back and removing from the front. A ring buffer that wraps
around the end of its slots is one such layout.
-/

namespace Gemacast.Core

/-- A layout of queues: the operations, with what they do to the contents. -/
structure VecDeque (α δ : Type*) where
  /-- The contents, as two slices. -/
  asSlices : δ → List α × List α
  /-- Append at the back. -/
  extend : δ → List α → δ
  /-- Remove up to `n` entries from the front. -/
  drain : δ → ℕ → δ
  contents_extend (d : δ) (block : List α) :
    (asSlices (extend d block)).1 ++ (asSlices (extend d block)).2 =
      (asSlices d).1 ++ (asSlices d).2 ++ block
  contents_drain (d : δ) (n : ℕ) :
    (asSlices (drain d n)).1 ++ (asSlices (drain d n)).2 =
      ((asSlices d).1 ++ (asSlices d).2).drop n

namespace VecDeque

variable {α δ : Type*} (Q : VecDeque α δ)

/-- The entries in order. -/
def contents (d : δ) : List α := (Q.asSlices d).1 ++ (Q.asSlices d).2

/-- The number of entries. -/
def len (d : δ) : ℕ := (Q.asSlices d).1.length + (Q.asSlices d).2.length

theorem length_contents (d : δ) : (Q.contents d).length = Q.len d := List.length_append

@[simp] theorem extend_contents (d : δ) (block : List α) :
    Q.contents (Q.extend d block) = Q.contents d ++ block := Q.contents_extend d block

@[simp] theorem drain_contents (d : δ) (n : ℕ) :
    Q.contents (Q.drain d n) = (Q.contents d).drop n := Q.contents_drain d n

/-- The first `n` entries are those of the front slice, then those of the back slice. -/
theorem take_slices (d : δ) (n : ℕ) :
    (Q.asSlices d).1.take (min n (Q.asSlices d).1.length) ++
        (Q.asSlices d).2.take (n - min n (Q.asSlices d).1.length) = (Q.contents d).take n := by
  rw [contents, List.take_append]
  obtain hle | hlt := Nat.le_total n (Q.asSlices d).1.length
  · rw [Nat.min_eq_left hle, Nat.sub_self, Nat.sub_eq_zero_of_le hle]
  · rw [Nat.min_eq_right hlt, List.take_length, List.take_of_length_le hlt]

/-- A list, as one slice. -/
def list (α : Type*) : VecDeque α (List α) where
  asSlices d := (d, [])
  extend d block := d ++ block
  drain d n := d.drop n
  contents_extend _ _ := by simp only [List.append_nil]
  contents_drain _ _ := by simp only [List.append_nil]

end VecDeque

/-- A ring buffer: `len` entries from slot `head` on, around the end of `cap` slots. -/
structure RingBuffer (α : Type*) where
  /-- The slots. -/
  slots : ℕ → α
  /-- The number of slots. -/
  cap : ℕ
  /-- The slot of the first entry. -/
  head : ℕ
  /-- The number of entries. -/
  len : ℕ
  head_lt : head < cap
  len_le : len ≤ cap

namespace RingBuffer

variable {α : Type*}

/-- The slots from `head` to the end, and those it wrapped around to. -/
def asSlices (d : RingBuffer α) : List α × List α :=
  ((List.range (min d.len (d.cap - d.head))).map fun i => d.slots (d.head + i),
    (List.range (d.len - (d.cap - d.head))).map d.slots)

/-- The entry at a position. -/
def get (d : RingBuffer α) (i : ℕ) : α := d.slots ((d.head + i) % d.cap)

/-- The slices hold the entries in order. -/
theorem contents_eq (d : RingBuffer α) :
    d.asSlices.1 ++ d.asSlices.2 = (List.range d.len).map d.get := by
  have hhead := d.head_lt
  have hlen := d.len_le
  apply List.ext_getElem?
  intro i
  unfold asSlices get
  have hlength : ((List.range (min d.len (d.cap - d.head))).map fun i =>
      d.slots (d.head + i)).length =
      min d.len (d.cap - d.head) := by
    rw [List.length_map, List.length_range]
  by_cases hfront : i < min d.len (d.cap - d.head)
  · rw [List.getElem?_append_left (hlength.symm ▸ hfront)]
    have hmod : (d.head + i) % d.cap = d.head + i := Nat.mod_eq_of_lt (by omega)
    have hin : i < d.len := by omega
    simp [hfront, hmod, hin]
  · rw [List.getElem?_append_right (hlength.symm ▸ Nat.not_lt.mp hfront)]
    by_cases hin : i < d.len
    · have hwrap : (d.head + i) % d.cap = i - (d.cap - d.head) := by
        rw [Nat.mod_eq_sub_mod (by omega), Nat.mod_eq_of_lt (by omega)]
        omega
      have hcut : min d.len (d.cap - d.head) = d.cap - d.head := by omega
      have hback : i - (d.cap - d.head) < d.len - (d.cap - d.head) := by omega
      simp [hwrap, hcut, hback, hin]
    · rw [List.getElem?_eq_none, List.getElem?_eq_none]
      · simpa using hin
      · simp
        omega

/-- The same entries from slot zero on, in twice as many slots. -/
def grow (d : RingBuffer α) : RingBuffer α where
  slots := d.get
  cap := 2 * d.cap
  head := 0
  len := d.len
  head_lt := by have := d.head_lt; omega
  len_le := by have := d.len_le; omega

/-- Remove up to `n` entries from the front. -/
def drain (d : RingBuffer α) (n : ℕ) : RingBuffer α where
  slots := d.slots
  cap := d.cap
  head := (d.head + min n d.len) % d.cap
  len := d.len - n
  head_lt := Nat.mod_lt _ (Nat.zero_lt_of_lt d.head_lt)
  len_le := (Nat.sub_le _ _).trans d.len_le

/-- Write an entry behind the last one, where a slot is free. -/
def store (d : RingBuffer α) (a : α) (h : d.len < d.cap) : RingBuffer α where
  slots := Function.update d.slots ((d.head + d.len) % d.cap) a
  cap := d.cap
  head := d.head
  len := d.len + 1
  head_lt := d.head_lt
  len_le := h

/-- Append one entry. -/
def pushBack (d : RingBuffer α) (a : α) : RingBuffer α :=
  if h : d.len < d.cap then d.store a h
  else d.grow.store a (by
    have := d.head_lt
    have := d.len_le
    change d.len < 2 * d.cap
    omega)

/-- The entries in order. -/
def entries (d : RingBuffer α) : List α := (List.range d.len).map d.get

/-- Two positions within one turn have different slots. -/
theorem mod_ne_of_lt {cap head i j : ℕ} (hlt : i < j) (hturn : j < i + cap) :
    (head + i) % cap ≠ (head + j) % cap := by
  intro heq
  have hzero := Nat.sub_mod_eq_zero_of_mod_eq heq.symm
  rw [Nat.mod_eq_of_lt (by omega)] at hzero
  omega

theorem entries_store (d : RingBuffer α) (a : α) (h : d.len < d.cap) :
    (d.store a h).entries = d.entries ++ [a] := by
  unfold entries
  change (List.range (d.len + 1)).map _ = _
  rw [List.range_succ, List.map_append, List.map_singleton]
  congr 1
  · apply List.map_congr_left
    intro i hi
    have hlt := List.mem_range.mp hi
    exact Function.update_of_ne (mod_ne_of_lt hlt (h.trans_le (Nat.le_add_left _ _))) _ _
  · exact congrArg (fun x => [x]) (Function.update_self _ _ _)

theorem entries_grow (d : RingBuffer α) : d.grow.entries = d.entries := by
  unfold entries
  apply List.map_congr_left
  intro i hi
  have hlt := List.mem_range.mp hi
  have hcap := d.len_le
  change i < d.len at hlt
  change d.get ((0 + i) % (2 * d.cap)) = d.get i
  rw [Nat.zero_add, Nat.mod_eq_of_lt (by omega)]

theorem entries_pushBack (d : RingBuffer α) (a : α) :
    (d.pushBack a).entries = d.entries ++ [a] := by
  unfold pushBack
  split
  · exact d.entries_store a _
  · rw [entries_store, entries_grow]

theorem entries_drain (d : RingBuffer α) (n : ℕ) : (d.drain n).entries = d.entries.drop n := by
  apply List.ext_getElem?
  intro i
  rw [List.getElem?_drop]
  unfold entries
  by_cases hin : n + i < d.len
  · have hi : i < (d.drain n).len := by
      change i < d.len - n
      omega
    have hmin : min n d.len = n := by omega
    rw [List.getElem?_map, List.getElem?_map, List.getElem?_range hi, List.getElem?_range hin]
    refine congrArg (fun slot => some (d.slots slot)) ?_
    change ((d.head + min n d.len) % d.cap + i) % d.cap = (d.head + (n + i)) % d.cap
    rw [hmin, Nat.mod_add_mod, Nat.add_assoc]
  · have hi : ¬i < (d.drain n).len := by
      change ¬i < d.len - n
      omega
    rw [List.getElem?_eq_none, List.getElem?_eq_none]
    · simpa using hin
    · simpa using hi

/-- Ring buffers as queues. -/
def layout (α : Type*) : VecDeque α (RingBuffer α) where
  asSlices := asSlices
  extend d block := block.foldl pushBack d
  drain := drain
  contents_extend d block := by
    rw [contents_eq, contents_eq]
    change (block.foldl pushBack d).entries = d.entries ++ block
    induction block generalizing d with
    | nil => exact (List.append_nil _).symm
    | cons a block ih => rw [List.foldl_cons, ih, entries_pushBack, List.append_assoc,
        List.singleton_append]
  contents_drain d n := by
    rw [contents_eq, contents_eq]
    exact d.entries_drain n

end RingBuffer

end Gemacast.Core
