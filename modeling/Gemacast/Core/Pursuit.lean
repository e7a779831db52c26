import Mathlib.Order.Filter.AtTopBot.Basic
import Mathlib.Order.Filter.EventuallyConst
import Mathlib.Order.OrderIsoNat

/-!
# A value in pursuit of a goal

A value moves towards a goal that may itself move. Unless the goal is lifted over the value
again and again, the value comes to rest.
-/

namespace Gemacast.Core

open Filter

section Sequences

variable {f : ℕ → ℕ} {k bound : ℕ}

/-- A sequence that does not rise any more comes to rest. -/
theorem eventuallyConst_of_succ_le (h : ∀ n ≥ k, f (n + 1) ≤ f n) : EventuallyConst f atTop := by
  have hanti : Antitone fun n => f (k + n) :=
    antitone_nat_of_succ_le fun n => h (k + n) (Nat.le_add_right k n)
  obtain ⟨m, hm⟩ := WellFoundedLT.antitone_chain_condition hanti
  rw [eventuallyConst_atTop]
  refine ⟨k + m, fun j hj => ?_⟩
  obtain ⟨i, rfl⟩ := Nat.exists_eq_add_of_le hj
  have heq := hm (m + i) (Nat.le_add_right m i)
  rw [← Nat.add_assoc] at heq
  exact heq.symm

/-- A bounded sequence that does not fall any more comes to rest. -/
theorem eventuallyConst_of_le_succ (h : ∀ n ≥ k, f n ≤ f (n + 1)) (hbound : ∀ n, f n ≤ bound) :
    EventuallyConst f atTop := by
  have hrest : EventuallyConst (fun n => bound - f n) atTop := by
    refine eventuallyConst_of_succ_le (k := k) fun n hn => ?_
    have := h n hn
    omega
  rw [eventuallyConst_atTop_nat] at hrest ⊢
  obtain ⟨n, hn⟩ := hrest
  refine ⟨n, fun m hm => ?_⟩
  have := hn m hm
  have := hbound m
  have := hbound (m + 1)
  omega

end Sequences

/-- The value moves towards the goal of the moment, without passing it. -/
structure Pursues (value goal : ℕ → ℕ) : Prop where
  up : ∀ n, value n < goal (n + 1) → value n ≤ value (n + 1) ∧ value (n + 1) ≤ goal (n + 1)
  down : ∀ n, goal (n + 1) ≤ value n → goal (n + 1) ≤ value (n + 1) ∧ value (n + 1) ≤ value n

/-- The goal, at the value or below it, is lifted over it. -/
def Lifts (value goal : ℕ → ℕ) (n : ℕ) : Prop := goal n ≤ value n ∧ value n < goal (n + 1)

namespace Pursues

variable {value goal : ℕ → ℕ} {k bound low : ℕ}

/-- Once the goal is lifted no more, the value comes to rest. -/
theorem eventuallyConst_of_not_lifts (h : Pursues value goal) (hbound : ∀ n, value n ≤ bound)
    (hlifts : ∀ n ≥ k, ¬Lifts value goal n) : EventuallyConst value atTop := by
  by_cases hbelow : ∃ n ≥ k, goal n ≤ value n
  · obtain ⟨n, hn, hat⟩ := hbelow
    have hstays : ∀ m ≥ n, goal m ≤ value m := by
      intro m hm
      induction m, hm using Nat.le_induction with
      | base => exact hat
      | succ m hm ih =>
        have hnot : ¬value m < goal (m + 1) := fun hlt => hlifts m (hn.trans hm) ⟨ih, hlt⟩
        exact (h.down m (Nat.le_of_not_lt hnot)).1
    refine eventuallyConst_of_succ_le (k := n) fun m hm => ?_
    have hnot : ¬value m < goal (m + 1) := fun hlt => hlifts m (hn.trans hm) ⟨hstays m hm, hlt⟩
    exact (h.down m (Nat.le_of_not_lt hnot)).2
  · have habove : ∀ n ≥ k, value n < goal n := fun n hn =>
      Nat.lt_of_not_le fun hle => hbelow ⟨n, hn, hle⟩
    refine eventuallyConst_of_le_succ (k := k) (fun n hn => ?_) hbound
    have hup : value n < goal (n + 1) := by
      by_contra hle
      have hdown := (h.down n (Nat.le_of_not_lt hle)).1
      have hlater := habove (n + 1) (Nat.le_succ_of_le hn)
      omega
    exact (h.up n hup).1

/-- Under goals that stay above a level, the value comes to rest or stays above it too. -/
theorem eventuallyConst_or_le (h : Pursues value goal) (hbound : ∀ n, value n ≤ bound)
    (hlow : ∀ n ≥ k, low ≤ goal (n + 1)) :
    EventuallyConst value atTop ∨ ∃ m ≥ k, ∀ n ≥ m, low ≤ value n := by
  by_cases hreach : ∃ m ≥ k, low ≤ value m
  · obtain ⟨m, hm, hat⟩ := hreach
    refine Or.inr ⟨m, hm, fun n hn => ?_⟩
    induction n, hn using Nat.le_induction with
    | base => exact hat
    | succ n hn ih =>
      have hgoal := hlow n (hm.trans hn)
      by_cases hup : value n < goal (n + 1)
      · exact ih.trans (h.up n hup).1
      · exact hgoal.trans (h.down n (Nat.le_of_not_lt hup)).1
  · refine Or.inl (eventuallyConst_of_le_succ (k := k) (fun n hn => ?_) hbound)
    have hgoal := hlow n hn
    have hshort : ¬low ≤ value n := fun hle => hreach ⟨n, hn, hle⟩
    exact (h.up n (by omega)).1

/-- The goal is lifted only over values below a level, and once it has been lifted it stays at
that level or above it: the value comes to rest. -/
theorem eventuallyConst_of_lifts (h : Pursues value goal) (low : ℕ)
    (hbound : ∀ n, value n ≤ bound)
    (hlifts : ∀ n, Lifts value goal n → value n < low ∧ ∀ m ≥ n, low ≤ goal (m + 1)) :
    EventuallyConst value atTop := by
  by_cases hany : ∃ n, Lifts value goal n
  · obtain ⟨n, hn⟩ := hany
    rcases h.eventuallyConst_or_le hbound (hlifts n hn).2 with hrest | ⟨m, -, hstays⟩
    · exact hrest
    · refine h.eventuallyConst_of_not_lifts (k := m) hbound fun j hj hlift => ?_
      exact absurd (hstays j hj) (Nat.not_le.mpr (hlifts j hlift).1)
  · exact h.eventuallyConst_of_not_lifts (k := 0) hbound fun n _ hlift => hany ⟨n, hlift⟩

end Pursues

/-- A sequence that counts down reaches zero. -/
theorem exists_eq_zero_of_countdown {f : ℕ → ℕ} {k : ℕ}
    (h : ∀ n ≥ k, f n ≠ 0 → f (n + 1) < f n) : ∃ n ≥ k, f n = 0 := by
  by_contra hnever
  have hpos : ∀ n ≥ k, f n ≠ 0 := fun n hn heq => hnever ⟨n, hn, heq⟩
  obtain ⟨n, hn⟩ := eventuallyConst_atTop_nat.mp
    (eventuallyConst_of_succ_le (k := k) fun n hn => (h n hn (hpos n hn)).le)
  have hsame := hn (max n k) (le_max_left n k)
  have hless := h (max n k) (le_max_right n k) (hpos _ (le_max_right n k))
  omega

end Gemacast.Core
