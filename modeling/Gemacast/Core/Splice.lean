import Mathlib.Data.List.Basic
import Mathlib.Tactic.Common

/-!
# Splices of lists

Cutting a piece out of a list, and crossing over from one place of a list to a place of
another one: up to the first place the one list, from the second place on the other,
and a blend of both between them.
-/

namespace Gemacast.Core

variable {α β : Type*}

/-- The entries `[start, stop)` of a list. -/
def slice (l : List α) (start stop : ℕ) : List α := (l.drop start).take (stop - start)

theorem length_slice {l : List α} {start stop : ℕ} (h : stop ≤ l.length) :
    (slice l start stop).length = stop - start := by
  rw [slice, List.length_take, List.length_drop]
  omega

theorem getElem?_slice {l : List α} {start stop i : ℕ} (h : start + i < stop) :
    (slice l start stop)[i]? = l[start + i]? := by
  rw [slice, List.getElem?_take, if_pos (by omega), List.getElem?_drop]

/-- Two adjacent pieces are one. -/
theorem slice_append_slice {l : List α} {start mid stop : ℕ} (h : start ≤ mid)
    (h' : mid ≤ stop) : slice l start mid ++ slice l mid stop = slice l start stop := by
  have hsum : stop - start = mid - start + (stop - mid) := by omega
  rw [slice, slice, slice, hsum, List.take_add, List.drop_drop]
  congr 3
  omega

/-- A piece up to the end is the rest. -/
theorem slice_eq_drop {l : List α} {start stop : ℕ} (h : l.length ≤ stop) :
    slice l start stop = l.drop start := by
  apply List.take_of_length_le
  rw [List.length_drop]
  omega

theorem slice_zero (l : List α) (stop : ℕ) : slice l 0 stop = l.take stop := by
  rw [slice, List.drop_zero, Nat.sub_zero]

/-- A piece of the second of two lists. -/
theorem slice_append_right (l l' : List α) (start stop : ℕ) :
    slice (l ++ l') (l.length + start) (l.length + stop) = slice l' start stop := by
  rw [slice, slice, List.drop_length_add_append]
  congr 1
  omega

/-- Play `src` from `start` to `out`, cross over from there into `dst` at `into` within
`width` entries, and play `dst` to its end. -/
def crossOver (fade : List α → List α → List α) (src dst : List α)
    (start out into width : ℕ) : List α :=
  slice src start out ++ fade (slice src out (out + width)) (slice dst into (into + width)) ++
    dst.drop (into + width)

section CrossOver

variable {fade : List α → List α → List α} {src dst : List α} {start out into width len : ℕ}

/-- What a crossover appends: the way to `out`, and `dst` from `into` on. -/
theorem length_crossOver (hlen : out = start + len)
    (hfade : ∀ a b : List α, a.length = width → b.length = width → (fade a b).length = width)
    (hsrc : out + width ≤ src.length) (hdst : into + width ≤ dst.length) :
    (crossOver fade src dst start out into width).length = len + (dst.length - into) := by
  have hblend := hfade (slice src out (out + width)) (slice dst into (into + width))
    (by rw [length_slice hsrc]; omega) (by rw [length_slice hdst]; omega)
  rw [crossOver, List.length_append, List.length_append, hblend, length_slice (by omega),
    List.length_drop]
  omega

/-- Up to `out` a crossover plays the one list. -/
theorem take_crossOver (hlen : out = start + len) (hsrc : out ≤ src.length) :
    (crossOver fade src dst start out into width).take len = slice src start out := by
  rw [crossOver, List.append_assoc]
  apply List.take_left'
  rw [length_slice hsrc]
  omega

/-- In between it plays the blend. -/
theorem slice_crossOver (hlen : out = start + len)
    (hfade : ∀ a b : List α, a.length = width → b.length = width → (fade a b).length = width)
    (hsrc : out + width ≤ src.length) (hdst : into + width ≤ dst.length) :
    slice (crossOver fade src dst start out into width) len (len + width) =
      fade (slice src out (out + width)) (slice dst into (into + width)) := by
  have hblend := hfade (slice src out (out + width)) (slice dst into (into + width))
    (by rw [length_slice hsrc]; omega) (by rw [length_slice hdst]; omega)
  have hhead : (slice src start out).length = len := by
    rw [length_slice (by omega)]
    omega
  rw [slice, crossOver, List.append_assoc, List.drop_left' hhead, Nat.add_sub_cancel_left]
  exact List.take_left' hblend

/-- Behind the blend it plays the other one. -/
theorem drop_crossOver (hlen : out = start + len)
    (hfade : ∀ a b : List α, a.length = width → b.length = width → (fade a b).length = width)
    (hsrc : out + width ≤ src.length) (hdst : into + width ≤ dst.length) :
    (crossOver fade src dst start out into width).drop (len + width) = dst.drop (into + width) := by
  apply List.drop_left'
  rw [List.length_append, length_slice (by omega), hfade _ _ (by rw [length_slice hsrc]; omega)
    (by rw [length_slice hdst]; omega)]
  omega

end CrossOver

section Pairs

/-- The entries of a list of pairs laid out one after the other. -/
theorem getElem?_flatMap_pair (f g : α → β) (l : List α) (i : ℕ) :
    (l.flatMap fun a => [f a, g a])[i]? = l[i / 2]?.map (if i % 2 = 0 then f else g) := by
  induction l generalizing i with
  | nil => simp
  | cons a l ih =>
    obtain _ | _ | i := i
    · simp
    · simp
    · have hdiv : (i + 2) / 2 = i / 2 + 1 := by omega
      have hmod : (i + 2) % 2 = i % 2 := by omega
      rw [hdiv, hmod, List.getElem?_cons_succ, ← ih]
      rfl

@[simp] theorem length_flatMap_pair (f g : α → β) (l : List α) :
    (l.flatMap fun a => [f a, g a]).length = 2 * l.length := by
  induction l with
  | nil => rfl
  | cons a l ih =>
    rw [List.flatMap_cons, List.length_append, ih, List.length_cons]
    simp
    omega

end Pairs

end Gemacast.Core
