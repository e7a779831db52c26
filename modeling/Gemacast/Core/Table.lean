import Mathlib.Data.List.AList
import Mathlib.Data.List.Dedup
import Mathlib.Tactic.Common

/-!
# Tables

Finite maps as Mathlib's association lists with distinct keys, read through `lookup`.
The order in which a hash map hands out its entries is not that of their insertion, so
an iteration takes the order from outside.
-/

namespace Gemacast.Core

/-- A finite map from keys to values. -/
abbrev Table (K V : Type) := AList fun _ : K => V

namespace Table

variable {K V : Type} [DecidableEq K] {t : Table K V} {k a : K} {v b : V}

/-- Number of entries. -/
def size (t : Table K V) : ℕ := t.entries.length

/-- There are no entries. -/
def isEmpty (t : Table K V) : Bool := t.entries.isEmpty

/-- The entries a test accepts. -/
def retain (p : K → V → Bool) (t : Table K V) : Table K V :=
  ⟨t.entries.filter fun e => p e.1 e.2, t.nodupKeys.sublist List.filter_sublist⟩

/-- The keys in an order that starts with the ones asked for. -/
def keysInOrder (t : Table K V) (order : List K) : List K :=
  order.dedup.filter (· ∈ t) ++ t.keys.filter (· ∉ order)

theorem lookup_insert_eq : (t.insert a b).lookup k = if k = a then some b else t.lookup k := by
  by_cases h : k = a
  · rw [if_pos h, h, AList.lookup_insert]
  · rw [if_neg h, AList.lookup_insert_ne h]

theorem lookup_erase_eq : (t.erase a).lookup k = if k = a then none else t.lookup k := by
  by_cases h : k = a
  · rw [if_pos h, h, AList.lookup_erase]
  · rw [if_neg h, AList.lookup_erase_ne h]

theorem mem_iff : k ∈ t ↔ ∃ v, t.lookup k = some v := by
  rw [← AList.lookup_isSome, Option.isSome_iff_exists]

theorem lookup_eq_some_iff : t.lookup k = some v ↔ ⟨k, v⟩ ∈ t.entries := AList.mem_lookup_iff

/-- Looking up what a test retained. -/
theorem lookup_retain (p : K → V → Bool) :
    (t.retain p).lookup k = (t.lookup k).filter (p k) := by
  ext v
  rw [lookup_eq_some_iff, Option.filter_eq_some_iff, lookup_eq_some_iff]
  exact List.mem_filter

theorem isEmpty_iff : t.isEmpty = true ↔ ∀ k, t.lookup k = none := by
  unfold isEmpty
  rw [List.isEmpty_iff]
  constructor
  · intro hnil k
    rw [AList.lookup_eq_none, AList.mem_keys, AList.keys, hnil]
    exact List.not_mem_nil
  · intro hnone
    rw [List.eq_nil_iff_forall_not_mem]
    intro e he
    have hsome := lookup_eq_some_iff.mpr he
    rw [hnone] at hsome
    nomatch hsome

theorem not_isEmpty_iff : t.isEmpty = false ↔ ∃ k v, t.lookup k = some v := by
  rw [← Bool.not_eq_true, isEmpty_iff]
  constructor
  · intro h
    by_contra hnone
    exact h fun k => Option.eq_none_iff_forall_ne_some.mpr fun v hv => hnone ⟨k, v, hv⟩
  · rintro ⟨k, v, hv⟩ hnone
    rw [hnone] at hv
    nomatch hv

/-- Every iteration meets every key. -/
theorem mem_keysInOrder {order : List K} : k ∈ t.keysInOrder order ↔ k ∈ t := by
  unfold keysInOrder
  rw [List.mem_append, List.mem_filter, List.mem_filter, List.mem_dedup, ← AList.mem_keys]
  by_cases h : k ∈ order <;> simp [h]

/-- An iteration meets every key once. -/
theorem nodup_keysInOrder (order : List K) : (t.keysInOrder order).Nodup := by
  unfold keysInOrder
  refine List.nodup_append.mpr
    ⟨(List.nodup_dedup order).filter _, t.keys_nodup.filter _, fun x hx y hy heq => ?_⟩
  have hin := List.mem_dedup.mp (List.mem_filter.mp hx).1
  have hout := of_decide_eq_true (List.mem_filter.mp hy).2
  exact hout (heq ▸ hin)

end Table

end Gemacast.Core
