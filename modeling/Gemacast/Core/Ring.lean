import Mathlib.Data.Finset.Card
import Mathlib.Data.Fintype.EquivFin
import Mathlib.Data.Fin.Basic
import Mathlib.Data.Nat.ModEq
import Mathlib.Data.Finset.Union
import Mathlib.Data.Option.Basic
import Mathlib.Data.Finset.Option
import Mathlib.Tactic.Common

/-!
# Residue rings

A residue ring stores an item in the slot given by its key modulo the number of
slots. As long as the stored keys lie in one window as long as the ring, the
slots are a faithful picture of a partial map from keys to items. Raising the
lower end of the window drops the items below it, and storing an item inside
the window can only replace an item of the same key.
-/

namespace Gemacast.Core.Ring

variable {α : Type*} {n : ℕ}

/-- The slot a key belongs to. -/
def slot (n : ℕ) [NeZero n] (k : ℕ) : Fin n := ⟨k % n, Nat.mod_lt _ (Nat.pos_of_neZero n)⟩

section Slot

variable [NeZero n]

@[simp] theorem slot_val (k : ℕ) : (slot n k).val = k % n := rfl

/-- Two keys of one window share a slot only when they are equal. -/
theorem slot_inj (lo : ℕ) {a b : ℕ} (ha : lo ≤ a) (ha' : a < lo + n) (hb : lo ≤ b)
    (hb' : b < lo + n)
    (h : slot n a = slot n b) : a = b := by
  have hmod : a % n = b % n := congrArg Fin.val h
  have hab : a - lo ≡ b - lo [MOD n] := by
    apply Nat.ModEq.add_right_cancel' lo
    rw [Nat.sub_add_cancel ha, Nat.sub_add_cancel hb]
    exact hmod
  have heq := Nat.ModEq.eq_of_lt_of_lt hab (by omega) (by omega)
  omega

end Slot

/-- The filled slots hold items of their own residue whose keys lie in the
window of ring length that starts at `lo`. -/
structure Windowed [NeZero n] (key : α → ℕ) (slots : Fin n → Option α) (lo : ℕ) : Prop where
  /-- An item is stored in the slot of its key. -/
  residue : ∀ {i a}, slots i = some a → slot n (key a) = i
  /-- No stored key lies below the window. -/
  lower : ∀ {i a}, slots i = some a → lo ≤ key a
  /-- No stored key lies above the window. -/
  upper : ∀ {i a}, slots i = some a → key a < lo + n

/-- The item stored under a key, if there is one. -/
def held [NeZero n] (key : α → ℕ) (slots : Fin n → Option α) (k : ℕ) : Option α :=
  (slots (slot n k)).filter fun a => key a = k

/-- The number of filled slots. -/
def occupancy (slots : Fin n → Option α) : ℕ := (Finset.univ.filter fun i => (slots i).isSome).card

/-- The stored keys. -/
@[irreducible] def keys (key : α → ℕ) (slots : Fin n → Option α) : Finset ℕ :=
  Finset.univ.biUnion fun i => ((slots i).map key).toFinset

/-- Empty every slot whose item has a key below `lo`. -/
def dropBelow (key : α → ℕ) (lo : ℕ) (slots : Fin n → Option α) : Fin n → Option α :=
  fun i => (slots i).filter fun a => lo ≤ key a

variable {key : α → ℕ} {slots : Fin n → Option α} {lo lo' k : ℕ}

@[simp] theorem mem_keys : k ∈ keys key slots ↔ ∃ i a, slots i = some a ∧ key a = k := by
  simp [keys, Option.mem_toFinset]

theorem dropBelow_eq_some {i : Fin n} {a : α} :
    dropBelow key lo slots i = some a ↔ slots i = some a ∧ lo ≤ key a := by
  simp [dropBelow, Option.filter_eq_some_iff]

/-- Dropping keeps exactly the stored keys from `lo` on. -/
theorem keys_dropBelow : keys key (dropBelow key lo slots) = (keys key slots).filter (lo ≤ ·) := by
  ext k
  simp only [mem_keys, dropBelow_eq_some, Finset.mem_filter]
  constructor
  · rintro ⟨i, a, ⟨ha, hlo⟩, rfl⟩
    exact ⟨⟨i, a, ha, rfl⟩, hlo⟩
  · rintro ⟨⟨i, a, ha, rfl⟩, hlo⟩
    exact ⟨i, a, ⟨ha, hlo⟩, rfl⟩

/-- Two drops are one drop at the higher end. -/
theorem dropBelow_dropBelow (h : lo ≤ lo') :
    dropBelow key lo' (dropBelow key lo slots) = dropBelow key lo' slots := by
  funext i
  cases hs : slots i with
  | none => simp [dropBelow, hs]
  | some a =>
    by_cases ha : lo' ≤ key a
    · simp [dropBelow, hs, ha, h.trans ha, Option.filter]
    · by_cases ha' : lo ≤ key a <;> simp [dropBelow, hs, ha, ha', Option.filter]

/-- Nothing is dropped when no stored key lies below the new end. -/
theorem dropBelow_of_forall_le (h : ∀ {i a}, slots i = some a → lo ≤ key a) :
    dropBelow key lo slots = slots := by
  funext i
  cases hs : slots i with
  | none => simp [dropBelow, hs]
  | some a => simp [dropBelow, hs, h hs, Option.filter]

/-- Everything is dropped when every stored key lies below the new end. -/
theorem dropBelow_eq_empty (h : ∀ {i a}, slots i = some a → key a < lo) :
    dropBelow key lo slots = fun _ => none := by
  funext i
  cases hs : slots i with
  | none => simp [dropBelow, hs]
  | some a => simp [dropBelow, hs, Nat.not_le.mpr (h hs), Option.filter]

@[simp] theorem occupancy_empty : occupancy (fun _ : Fin n => (none : Option α)) = 0 := by
  simp [occupancy]

/-- A ring without filled slots is empty. -/
theorem occupancy_eq_zero : occupancy slots = 0 ↔ slots = fun _ => none := by
  constructor
  · intro h
    funext i
    have hi := Finset.filter_eq_empty_iff.mp (Finset.card_eq_zero.mp h) (Finset.mem_univ i)
    simpa using hi
  · rintro rfl
    exact occupancy_empty

/-- A ring holds at most as many items as it has slots. -/
theorem occupancy_le : occupancy slots ≤ n := by
  have := Finset.card_le_univ (Finset.univ.filter fun i => (slots i).isSome)
  simpa [occupancy] using this

/-- Filling a slot adds one exactly when the slot was empty. -/
theorem occupancy_store (i : Fin n) (a : α) :
    occupancy (Function.update slots i (some a)) =
      if slots i = none then occupancy slots + 1 else occupancy slots := by
  have hfilter : (Finset.univ.filter fun j => (Function.update slots i (some a) j).isSome) =
      insert i (Finset.univ.filter fun j => (slots j).isSome) := by
    ext j
    by_cases hj : j = i
    · subst hj; simp
    · simp [hj]
  unfold occupancy
  rw [hfilter]
  cases hs : slots i with
  | none => rw [Finset.card_insert_of_notMem (by simp [hs])]; rfl
  | some b => rw [Finset.insert_eq_of_mem (by simp [hs])]; rfl

/-- Emptying a slot removes one exactly when the slot was filled. -/
theorem occupancy_clear (i : Fin n) :
    occupancy (Function.update slots i none) = occupancy slots - (if (slots i).isSome then 1 else 0)
    := by
  have hfilter : (Finset.univ.filter fun j => (Function.update slots i none j).isSome) =
      (Finset.univ.filter fun j => (slots j).isSome).erase i := by
    ext j
    by_cases hj : j = i
    · subst hj; simp
    · simp [hj]
  unfold occupancy
  rw [hfilter, Finset.card_erase_eq_ite]
  by_cases hs : (slots i).isSome <;> simp [hs]

/-- Emptying a slot that holds nothing changes nothing. -/
theorem clear_of_none {i : Fin n} (h : slots i = none) : Function.update slots i none = slots := by
  rw [← h, Function.update_eq_self]

/-- Walking once around the ring from any key meets every filled slot once. -/
theorem countP_range_slot [NeZero n] (lo : ℕ) :
    (List.range n).countP (fun i => (slots (slot n (lo + i))).isSome) = occupancy slots := by
  have hcard : ∀ m, (List.range m).countP (fun i => (slots (slot n (lo + i))).isSome) =
      ((Finset.range m).filter fun i => (slots (slot n (lo + i))).isSome).card := by
    intro m
    induction m with
    | zero => rfl
    | succ m ih =>
      rw [List.range_succ, List.countP_append, ih, Finset.range_add_one, Finset.filter_insert]
      by_cases hm : (slots (slot n (lo + m))).isSome <;> simp [hm]
  rw [hcard]
  have hinj : ∀ i < n, ∀ j < n, slot n (lo + i) = slot n (lo + j) → i = j := by
    intro i hi j hj hij
    have := slot_inj lo (by omega) (by omega) (by omega) (by omega) hij
    omega
  have hbij : Function.Bijective fun i : Fin n => slot n (lo + i.val) :=
    Finite.injective_iff_bijective.mp fun i j hij => Fin.ext (hinj i i.2 j j.2 hij)
  apply Finset.card_bij (fun i _ => slot n (lo + i))
  · intro i hi
    simpa using (Finset.mem_filter.mp hi).2
  · intro i hi j hj hij
    exact hinj i (Finset.mem_range.mp (Finset.mem_filter.mp hi).1) j
      (Finset.mem_range.mp (Finset.mem_filter.mp hj).1) hij
  · intro j hj
    obtain ⟨i, rfl⟩ := hbij.2 j
    exact ⟨i, by simpa using hj, rfl⟩

section Window

variable [NeZero n]

theorem held_eq_some {a : α} :
    held key slots k = some a ↔ slots (slot n k) = some a ∧ key a = k := by
  simp [held, Option.filter_eq_some_iff]

/-- An empty ring fits every window. -/
theorem Windowed.empty (lo : ℕ) : Windowed key (fun _ : Fin n => none) lo :=
  ⟨by simp, by simp, by simp⟩

namespace Windowed

/-- A stored item is the one held under its key. -/
theorem held_of_slot (h : Windowed key slots lo) {i : Fin n} {a : α} (ha : slots i = some a) :
    held key slots (key a) = some a := by
  rw [held_eq_some, h.residue ha]
  exact ⟨ha, rfl⟩

/-- The stored keys are the keys under which something is held. -/
theorem mem_keys_iff (h : Windowed key slots lo) :
    k ∈ keys key slots ↔ (held key slots k).isSome := by
  rw [mem_keys, Option.isSome_iff_exists]
  constructor
  · rintro ⟨i, a, ha, rfl⟩
    exact ⟨a, h.held_of_slot ha⟩
  · rintro ⟨a, ha⟩
    rw [held_eq_some] at ha
    exact ⟨_, a, ha.1, ha.2⟩

/-- Every stored key lies in the window. -/
theorem mem_window (h : Windowed key slots lo) (hk : k ∈ keys key slots) :
    lo ≤ k ∧ k < lo + n := by
  obtain ⟨i, a, ha, rfl⟩ := mem_keys.mp hk
  exact ⟨h.lower ha, h.upper ha⟩

/-- Within its window a slot holds at most the item of one key. -/
theorem key_eq_of_slot (h : Windowed key slots lo) (hk : lo ≤ k) (hk' : k < lo + n) {a : α}
    (ha : slots (slot n k) = some a) : key a = k :=
  slot_inj _ (h.lower ha) (h.upper ha) hk hk' (h.residue ha)

/-- In the window, holding nothing means that the slot is empty. -/
theorem held_eq_none (h : Windowed key slots lo) (hk : lo ≤ k) (hk' : k < lo + n) :
    held key slots k = none ↔ slots (slot n k) = none := by
  cases hs : slots (slot n k) with
  | none => simp [held, hs]
  | some a => simp [held, hs, h.key_eq_of_slot hk hk' hs]

/-- Distinct slots store distinct keys. -/
theorem key_injective (h : Windowed key slots lo) {i j : Fin n} {a b : α} (ha : slots i = some a)
    (hb : slots j = some b) (hab : key a = key b) : i = j := by
  rw [← h.residue ha, ← h.residue hb, hab]

/-- There are as many stored keys as filled slots. -/
theorem card_keys (h : Windowed key slots lo) : (keys key slots).card = occupancy slots := by
  symm
  apply Finset.card_bij (fun i hi => key ((slots i).get (Finset.mem_filter.mp hi).2))
  · intro i hi
    exact mem_keys.mpr ⟨i, _, (Option.some_get _).symm, rfl⟩
  · intro i hi j hj hij
    exact h.key_injective (Option.some_get _).symm (Option.some_get _).symm hij
  · intro k hk
    obtain ⟨i, a, ha, rfl⟩ := mem_keys.mp hk
    have hi : i ∈ Finset.univ.filter fun i => (slots i).isSome := by simp [ha]
    refine ⟨i, hi, ?_⟩
    simp [ha]

/-- Raising the lower end and dropping what falls out keeps the window. -/
theorem dropBelow (h : Windowed key slots lo) (hlo : lo ≤ lo') :
    Windowed key (Ring.dropBelow key lo' slots) lo' := by
  refine ⟨fun ha => ?_, fun ha => ?_, fun ha => ?_⟩ <;> rw [dropBelow_eq_some] at ha
  · exact h.residue ha.1
  · exact ha.2
  · have := h.upper ha.1
    omega

/-- Storing an item whose key lies in the window keeps the window. -/
theorem store (h : Windowed key slots lo) {a : α} (ha : lo ≤ key a) (ha' : key a < lo + n) :
    Windowed key (Function.update slots (slot n (key a)) (some a)) lo := by
  refine ⟨fun {i b} hb => ?_, fun {i b} hb => ?_, fun {i b} hb => ?_⟩ <;>
    by_cases hi : i = slot n (key a)
  all_goals first
    | subst hi; obtain rfl : a = b := by simpa using hb
    | rw [Function.update_of_ne hi] at hb
  · rfl
  · exact h.residue hb
  · exact ha
  · exact h.lower hb
  · exact ha'
  · exact h.upper hb

/-- After storing an item, its key holds it and every other key is unchanged. -/
theorem held_store (h : Windowed key slots lo) {a : α} (ha : lo ≤ key a)
    (ha' : key a < lo + n) (k : ℕ) :
    held key (Function.update slots (slot n (key a)) (some a)) k =
      if k = key a then some a else held key slots k := by
  by_cases hk : k = key a
  · subst hk
    simp [held]
  · rw [if_neg hk]
    by_cases hs : slot n k = slot n (key a)
    · have hleft : held key (Function.update slots (slot n (key a)) (some a)) k = none := by
        simp [held, hs, Ne.symm hk]
      have hright : held key slots k = none := by
        cases hh : held key slots k with
        | none => rfl
        | some b =>
          obtain ⟨hb, rfl⟩ := held_eq_some.mp hh
          exact absurd (slot_inj _ (h.lower hb) (h.upper hb) ha ha' hs) hk
      rw [hleft, hright]
    · simp only [held, Function.update_of_ne hs]

end Windowed

/-- Dropping is a restriction of the partial map. -/
theorem held_dropBelow (k : ℕ) :
    held key (dropBelow key lo slots) k = if lo ≤ k then held key slots k else none := by
  cases hs : slots (slot n k) with
  | none => simp [held, dropBelow, hs]
  | some a =>
    by_cases hk : key a = k
    · subst hk
      by_cases hlo : lo ≤ key a <;> simp [held, dropBelow, hs, hlo, Option.filter]
    · by_cases hlo : lo ≤ key a <;> simp [held, dropBelow, hs, hlo, hk, Option.filter]

/-- Emptying the slot of the lowest key of the window raises the window by one. -/
theorem Windowed.clear_lowest (h : Windowed key slots lo) :
    Function.update slots (slot n lo) none = Ring.dropBelow key (lo + 1) slots := by
  funext i
  by_cases hi : i = slot n lo
  · subst hi
    rw [Function.update_self]
    symm
    rw [Option.eq_none_iff_forall_ne_some]
    intro a ha
    rw [dropBelow_eq_some] at ha
    have hn := Nat.pos_of_neZero n
    have := h.key_eq_of_slot le_rfl (by omega) ha.1
    omega
  · rw [Function.update_of_ne hi]
    cases hs : slots i with
    | none => simp [Ring.dropBelow, hs]
    | some a =>
      have hne : key a ≠ lo := by
        intro heq
        exact hi (by rw [← h.residue hs, heq])
      have hle := h.lower hs
      have hlt : lo + 1 ≤ key a := by omega
      simp [Ring.dropBelow, hs, hlt, Option.filter]

end Window

end Gemacast.Core.Ring
