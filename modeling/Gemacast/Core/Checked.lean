import Gemacast.Core.Splice

/-!
# Checked reads

Reads of a list that answer nothing when an index is out of range, and loops of such
reads. A loop all of whose reads are in range is the loop without the checks.
-/

namespace Gemacast.Core

variable {α β : Type*}

/-- The entries `[start, stop)` of a list that has them. -/
def slice? (l : List α) (start stop : ℕ) : Option (List α) :=
  if start ≤ stop ∧ stop ≤ l.length then some (slice l start stop) else none

theorem slice?_eq {l : List α} {start stop : ℕ} (h : start ≤ stop) (h' : stop ≤ l.length) :
    slice? l start stop = some (slice l start stop) :=
  if_pos ⟨h, h'⟩

/-- A loop that never stops early is a fold. -/
theorem foldlM_eq_some {f : β → α → Option β} {g : β → α → β} {l : List α}
    (h : ∀ a ∈ l, ∀ b, f b a = some (g b a)) (b : β) : l.foldlM f b = some (l.foldl g b) := by
  induction l generalizing b with
  | nil => rfl
  | cons a l ih =>
    rw [List.foldlM_cons, h a List.mem_cons_self, List.foldl_cons]
    exact ih (fun a hmem => h a (List.mem_cons_of_mem _ hmem)) (g b a)

/-- A loop whose rounds all answer answers. -/
theorem foldlM_isSome {f : β → α → Option β} {l : List α}
    (h : ∀ a ∈ l, ∀ b, (f b a).isSome = true) (b : β) : (l.foldlM f b).isSome = true := by
  induction l generalizing b with
  | nil => rfl
  | cons a l ih =>
    obtain ⟨next, hnext⟩ := Option.isSome_iff_exists.mp (h a List.mem_cons_self b)
    rw [List.foldlM_cons, hnext]
    exact ih (fun a hmem => h a (List.mem_cons_of_mem _ hmem)) next

/-- A loop that reads every entry it wants. -/
theorem mapM_eq_some {f : α → Option β} {g : α → β} {l : List α}
    (h : ∀ a ∈ l, f a = some (g a)) : l.mapM f = some (l.map g) := by
  induction l with
  | nil => rfl
  | cons a l ih =>
    rw [List.mapM_cons, h a List.mem_cons_self, ih fun a hmem => h a (List.mem_cons_of_mem _ hmem)]
    rfl

/-- An entry in range is the entry with any default. -/
theorem getElem?_eq_getD {l : List α} {i : ℕ} (h : i < l.length) (default : α) :
    l[i]? = some (l.getD i default) := by
  rw [List.getD_eq_getElem?_getD, List.getElem?_eq_getElem h, Option.getD_some]

end Gemacast.Core
