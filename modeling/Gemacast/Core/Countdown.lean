import Gemacast.Core.Machine

/-!
# Countdowns

A rate limiter is a number that an action sets, every tick lowers by one, and the action waits
for. How far apart two actions are follows from what one step does to the number, also where
another step may cut the rest of the wait short.
-/

namespace Gemacast.Core.Machine

variable {σ ι ο : Type*} (M : Machine σ ι ο) {count : σ → ℕ} {ticks : σ → ι → Prop}
  [∀ s, DecidablePred (ticks s)] {p : σ → ι → Prop} {floor n : ℕ}

/-- The step lowers the number by one at a tick and never otherwise; a wait that is cut short
still leaves `floor`. -/
structure CountsDown (count : σ → ℕ) (ticks : σ → ι → Prop) (floor : ℕ) (s : σ) (i : ι) :
    Prop where
  kept : ¬ticks s i → count s ≤ count (M.step s i).1
  lowered : ticks s i → 1 < count s → min (count s - 1) floor ≤ count (M.step s i).1

/-- Over a run the number falls by no more than the ticks. -/
theorem le_count_add_ticks (hstep : ∀ s i, p s i → M.CountsDown count ticks floor s i) {s : σ}
    {is : List ι} (hfloor : n ≤ floor + 1) (hn : n ≤ count s)
    (hok : ∀ e ∈ M.eventsFrom s is, p e.before e.input) :
    n ≤ count (M.runFrom s is) +
      (M.eventsFrom s is).countP fun e => decide (ticks e.before e.input) := by
  induction is generalizing s n with
  | nil => exact hn
  | cons i is ih =>
    have hcounts := hstep s i (hok (M.eventAt s i) List.mem_cons_self)
    have hrest : ∀ e ∈ M.eventsFrom (M.step s i).1 is, p e.before e.input := fun e he =>
      hok e (List.mem_cons_of_mem _ he)
    rw [eventsFrom_cons, List.countP_cons, runFrom_cons, eventAt_before, eventAt_input]
    by_cases htick : ticks s i
    · -- at the last tick of the wait nothing is left to prove
      rw [if_pos (decide_eq_true htick)]
      by_cases hlast : n ≤ 1
      · omega
      · have hlowered := hcounts.lowered htick (by omega)
        have := ih (n := n - 1) (by omega) (by omega) hrest
        omega
    · rw [if_neg (fun h => htick (of_decide_eq_true h))]
      exact ih hfloor (Nat.le_trans hn (hcounts.kept htick)) hrest

/-- After an event that leaves the number at `n`, an event that waits for it comes `n` ticks
later at the earliest, its own included. -/
theorem le_ticks_between (hstep : ∀ s i, p s i → M.CountsDown count ticks floor s i)
    {s : σ} {is : List ι} {pre mid post : List (Event σ ι ο)} {a b : Event σ ι ο}
    (h : M.eventsFrom s is = pre ++ a :: mid ++ b :: post) (hfloor : n ≤ floor + 1)
    (hset : n ≤ count a.after) (hok : ∀ e ∈ mid, p e.before e.input)
    (hwaits : count b.before ≤ 1) :
    n ≤ (mid.countP fun e => decide (ticks e.before e.input)) + 1 := by
  obtain ⟨as, bs, cs, -, -, -, -, hmid, hb, -⟩ := M.eventsFrom_between h
  subst hmid
  have hleft := M.le_count_add_ticks hstep hfloor hset hok
  rw [← hb] at hleft
  omega

end Gemacast.Core.Machine
