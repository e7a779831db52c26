import Gemacast.Core.Blocks
import Gemacast.Core.Machine

/-!
# Streams cut anew

A component that is given a stream in pieces and passes it on in other pieces holds what
it has not passed on yet. If every step passes on and keeps just what it held and was
given, in order, so does every run. Cutting a list into equal chunks is the common case.
-/

namespace Gemacast.Core

variable {α β : Type*}

section Chunks

variable {size : ℕ} {l : List α}

/-- What is left of a list behind its whole chunks. -/
def chunksRest (size : ℕ) (l : List α) : List α := l.drop (l.length / size * size)

theorem chunksExact_of_lt (h : l.length < size) : chunksExact size l = [] := by
  rw [chunksExact, Nat.div_eq_of_lt h, List.range_zero, List.map_nil]

theorem chunksRest_of_lt (h : l.length < size) : chunksRest size l = l := by
  rw [chunksRest, Nat.div_eq_of_lt h, Nat.zero_mul, List.drop_zero]

/-- The whole chunks of a list with a whole chunk in front. -/
theorem chunksExact_of_le (hsize : 0 < size) (h : size ≤ l.length) :
    chunksExact size l = l.take size :: chunksExact size (l.drop size) := by
  have hcount : l.length / size = (l.drop size).length / size + 1 := by
    rw [List.length_drop, ← Nat.add_div_right _ hsize, Nat.sub_add_cancel h]
  rw [chunksExact, hcount, List.range_succ_eq_map, List.map_cons, List.map_map, chunksExact]
  congr 1
  · rw [block, Nat.zero_mul, List.drop_zero]
  · refine List.map_congr_left fun i _ => ?_
    rw [Function.comp_apply, block, block, List.drop_drop, Nat.succ_mul, Nat.add_comm size]

theorem chunksRest_of_le (hsize : 0 < size) (h : size ≤ l.length) :
    chunksRest size l = chunksRest size (l.drop size) := by
  have hcount : l.length / size = (l.drop size).length / size + 1 := by
    rw [List.length_drop, ← Nat.add_div_right _ hsize, Nat.sub_add_cancel h]
  rw [chunksRest, chunksRest, hcount, List.drop_drop, Nat.succ_mul, Nat.add_comm size]

/-- The chunks and what is left of it make up the list. -/
theorem flatten_chunksExact (size : ℕ) (l : List α) :
    (chunksExact size l).flatten ++ chunksRest size l = l := by
  obtain rfl | hsize := Nat.eq_zero_or_pos size
  · simp [chunksExact, chunksRest]
  induction hlength : l.length using Nat.strongRecOn generalizing l with
  | ind n ih =>
    by_cases h : size ≤ l.length
    · rw [chunksExact_of_le hsize h, chunksRest_of_le hsize h, List.flatten_cons, List.append_assoc,
        ih (l.drop size).length (by rw [List.length_drop]; omega) _ rfl, List.take_append_drop]
    · rw [chunksExact_of_lt (by omega), chunksRest_of_lt (by omega)]
      rfl

theorem length_chunksRest_lt (hsize : 0 < size) (l : List α) :
    (chunksRest size l).length < size := by
  rw [chunksRest, List.length_drop]
  have hmod := Nat.mod_lt l.length hsize
  have hdiv := Nat.div_add_mod' l.length size
  omega

/-- Chunks that are cut as the list arrives: the rest of the front goes before the back. -/
theorem chunksExact_append (hsize : 0 < size) (l l' : List α) :
    chunksExact size (l ++ l') = chunksExact size l ++ chunksExact size (chunksRest size l ++ l') ∧
      chunksRest size (l ++ l') = chunksRest size (chunksRest size l ++ l') := by
  induction hlength : l.length using Nat.strongRecOn generalizing l with
  | ind n ih =>
    by_cases h : size ≤ l.length
    · have happend : size ≤ (l ++ l').length := by
        rw [List.length_append]
        omega
      obtain ⟨hchunks, hrest⟩ := ih (l.drop size).length (by rw [List.length_drop]; omega) _ rfl
      rw [chunksExact_of_le hsize happend, chunksRest_of_le hsize happend,
        List.take_append_of_le_length h, List.drop_append_of_le_length h, hchunks, hrest,
        chunksExact_of_le hsize h, chunksRest_of_le hsize h, List.cons_append]
      exact ⟨rfl, rfl⟩
    · have hlt : l.length < size := Nat.lt_of_not_le h
      rw [chunksExact_of_lt hlt, chunksRest_of_lt hlt]
      exact ⟨rfl, rfl⟩

/-- How many chunks cover a length. -/
def divCeil (n size : ℕ) : ℕ := n / size + if n % size = 0 then 0 else 1

theorem div_le_divCeil (n size : ℕ) : n / size ≤ divCeil n size := Nat.le_add_right _ _

theorem le_divCeil_mul (hsize : 0 < size) (n : ℕ) : n ≤ divCeil n size * size := by
  have hdiv := Nat.div_add_mod' n size
  have hlt := Nat.mod_lt n hsize
  rw [divCeil, Nat.add_mul]
  split <;> omega

end Chunks

namespace Machine

variable {σ ι ο : Type*} (M : Machine σ ι ο) (held : σ → List α)
  (given taken : Event σ ι ο → List α) {p : σ → ι → Prop}

/-- Conservation rule: what a run has passed on, followed by what it still holds, is what it
held at first, followed by what it was given. -/
theorem conserved_from
    (hstep : ∀ s i, p s i → taken (M.eventAt s i) ++ held (M.step s i).1 =
      held s ++ given (M.eventAt s i)) {s : σ} {is : List ι}
    (hok : ∀ e ∈ M.eventsFrom s is, p e.before e.input) :
    (M.eventsFrom s is).flatMap taken ++ held (M.runFrom s is) =
      held s ++ (M.eventsFrom s is).flatMap given := by
  induction is generalizing s with
  | nil => simp
  | cons i is ih =>
    have hfirst := hstep s i (hok (M.eventAt s i) (by simp))
    have hrest := ih fun e he => hok e (List.mem_cons_of_mem _ he)
    rw [eventsFrom_cons, List.flatMap_cons, List.flatMap_cons, runFrom_cons, List.append_assoc,
      hrest, ← List.append_assoc, hfirst, List.append_assoc]

end Machine

end Gemacast.Core
