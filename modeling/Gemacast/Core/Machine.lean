import Mathlib.Data.List.Induction
import Mathlib.Tactic.Common

/-!
# Deterministic machines and their runs

A component is a state with one step function that consumes an input and
answers with an output. A run is the list of events of an input list, each with
the state before and after it, so that a property of a whole execution is a
property of its events. The rules below turn a fact about one step into a fact
about every run, with or without a side condition on the steps taken.
-/

namespace Gemacast.Core

/-- A deterministic machine with an initial state and one step function. -/
structure Machine (σ ι ο : Type*) where
  /-- The state every run starts from. -/
  init : σ
  /-- Consume one input: the next state and the answer. -/
  step : σ → ι → σ × ο

/-- One executed step of a run. -/
structure Event (σ ι ο : Type*) where
  /-- The state in which the input is consumed. -/
  before : σ
  /-- The input consumed. -/
  input : ι
  /-- The answer given. -/
  output : ο
  /-- The state reached. -/
  after : σ

namespace Machine

variable {σ ι ο : Type*} (M : Machine σ ι ο)

/-- The event of consuming `i` in state `s`. -/
def eventAt (s : σ) (i : ι) : Event σ ι ο := ⟨s, i, (M.step s i).2, (M.step s i).1⟩

/-- The state reached from `s` on an input list. -/
def runFrom : σ → List ι → σ
  | s, [] => s
  | s, i :: is => runFrom (M.step s i).1 is

/-- The events of an input list consumed from `s`. -/
def eventsFrom : σ → List ι → List (Event σ ι ο)
  | _, [] => []
  | s, i :: is => M.eventAt s i :: eventsFrom (M.step s i).1 is

/-- The state reached from the initial state. -/
def run (is : List ι) : σ := M.runFrom M.init is

/-- The events of a run from the initial state. -/
def events (is : List ι) : List (Event σ ι ο) := M.eventsFrom M.init is

@[simp] theorem runFrom_nil (s : σ) : M.runFrom s [] = s := rfl

@[simp] theorem runFrom_cons (s : σ) (i : ι) (is : List ι) :
    M.runFrom s (i :: is) = M.runFrom (M.step s i).1 is := rfl

@[simp] theorem eventsFrom_nil (s : σ) : M.eventsFrom s [] = [] := rfl

@[simp] theorem eventsFrom_cons (s : σ) (i : ι) (is : List ι) :
    M.eventsFrom s (i :: is) = M.eventAt s i :: M.eventsFrom (M.step s i).1 is := rfl

@[simp] theorem eventAt_before (s : σ) (i : ι) : (M.eventAt s i).before = s := rfl

@[simp] theorem eventAt_input (s : σ) (i : ι) : (M.eventAt s i).input = i := rfl

@[simp] theorem eventAt_output (s : σ) (i : ι) : (M.eventAt s i).output = (M.step s i).2 := rfl

@[simp] theorem eventAt_after (s : σ) (i : ι) : (M.eventAt s i).after = (M.step s i).1 := rfl

/-- Running a concatenation is running its parts in order. -/
theorem runFrom_append (s : σ) (is js : List ι) :
    M.runFrom s (is ++ js) = M.runFrom (M.runFrom s is) js := by
  induction is generalizing s with
  | nil => rfl
  | cons i is ih => simp only [List.cons_append, runFrom_cons, ih]

/-- The events of a concatenation are those of its parts in order. -/
theorem eventsFrom_append (s : σ) (is js : List ι) :
    M.eventsFrom s (is ++ js) = M.eventsFrom s is ++ M.eventsFrom (M.runFrom s is) js := by
  induction is generalizing s with
  | nil => rfl
  | cons i is ih => simp only [List.cons_append, eventsFrom_cons, runFrom_cons, ih]

/-- Every listed event is a step of the machine. -/
theorem eq_eventAt_of_mem {s : σ} {is : List ι} {e : Event σ ι ο}
    (he : e ∈ M.eventsFrom s is) : e = M.eventAt e.before e.input := by
  induction is generalizing s with
  | nil => simp only [eventsFrom_nil, List.not_mem_nil] at he
  | cons i is ih =>
    rcases List.mem_cons.mp he with rfl | hmem
    · rfl
    · exact ih hmem

/-- The inputs of the listed events are inputs of the run. -/
theorem input_mem {s : σ} {is : List ι} {e : Event σ ι ο} (he : e ∈ M.eventsFrom s is) :
    e.input ∈ is := by
  induction is generalizing s with
  | nil => simp only [eventsFrom_nil, List.not_mem_nil] at he
  | cons i is ih =>
    rcases List.mem_cons.mp he with rfl | hmem
    · exact List.mem_cons_self
    · exact List.mem_cons_of_mem _ (ih hmem)

/-- The inputs of a run, in order. -/
theorem map_input_eventsFrom (s : σ) (is : List ι) :
    (M.eventsFrom s is).map Event.input = is := by
  induction is generalizing s with
  | nil => rfl
  | cons i is ih => rw [eventsFrom_cons, List.map_cons, ih, eventAt_input]

/-- A split of the event list is a split of the input list around one step. -/
theorem eventsFrom_split {s : σ} {is : List ι} {pre post : List (Event σ ι ο)}
    {e : Event σ ι ο} (h : M.eventsFrom s is = pre ++ e :: post) :
    ∃ as bs, is = as ++ e.input :: bs ∧ pre = M.eventsFrom s as ∧
      e = M.eventAt (M.runFrom s as) e.input ∧ post = M.eventsFrom e.after bs := by
  induction pre generalizing s is with
  | nil =>
    cases is with
    | nil => simp at h
    | cons i is =>
      simp only [eventsFrom_cons, List.nil_append, List.cons.injEq] at h
      obtain ⟨rfl, rfl⟩ := h
      exact ⟨[], is, rfl, rfl, rfl, rfl⟩
  | cons p pre ih =>
    cases is with
    | nil => simp at h
    | cons i is =>
      simp only [eventsFrom_cons, List.cons_append, List.cons.injEq] at h
      obtain ⟨rfl, h⟩ := h
      obtain ⟨as, bs, rfl, rfl, he, hpost⟩ := ih h
      exact ⟨i :: as, bs, rfl, rfl, he, hpost⟩

/-- Between two listed events lies a run from the first to the second. -/
theorem eventsFrom_between {s : σ} {is : List ι} {pre mid post : List (Event σ ι ο)}
    {a b : Event σ ι ο} (h : M.eventsFrom s is = pre ++ a :: mid ++ b :: post) :
    ∃ as bs cs, is = as ++ a.input :: (bs ++ b.input :: cs) ∧
      pre = M.eventsFrom s as ∧ a.before = M.runFrom s as ∧
      a = M.eventAt a.before a.input ∧ mid = M.eventsFrom a.after bs ∧
      b.before = M.runFrom a.after bs ∧ b = M.eventAt b.before b.input := by
  rw [List.append_assoc, List.cons_append] at h
  obtain ⟨as, bs, hsplit, hpre, ha, hrest⟩ := M.eventsFrom_split h
  obtain ⟨cs, ds, rfl, hmid, hb, -⟩ := M.eventsFrom_split hrest.symm
  have hbefore : a.before = M.runFrom s as := congrArg Event.before ha
  have hbefore' : b.before = M.runFrom a.after cs := congrArg Event.before hb
  exact ⟨as, cs, ds, hsplit, hpre, hbefore, hbefore ▸ ha, hmid, hbefore', hbefore' ▸ hb⟩

/-- Invariant rule: what every permitted step keeps holds around every event of a
run all of whose steps are permitted, and in the state the run reaches. -/
theorem invariant_from {I : σ → Prop} {p : σ → ι → Prop}
    (hstep : ∀ s i, I s → p s i → I (M.step s i).1) {s : σ} {is : List ι}
    (hs : I s) (hok : ∀ e ∈ M.eventsFrom s is, p e.before e.input) :
    (∀ e ∈ M.eventsFrom s is, I e.before ∧ I e.after) ∧ I (M.runFrom s is) := by
  induction is generalizing s with
  | nil => exact ⟨by simp, hs⟩
  | cons i is ih =>
    have hfirst : p s i := hok (M.eventAt s i) (by simp)
    have hnext := hstep s i hs hfirst
    obtain ⟨hevents, hlast⟩ := ih hnext fun e he => hok e (by simp [he])
    refine ⟨fun e he => ?_, hlast⟩
    rcases List.mem_cons.mp he with rfl | hmem
    · exact ⟨hs, hnext⟩
    · exact hevents e hmem

/-- Invariant rule from the initial state. -/
theorem invariant {I : σ → Prop} {p : σ → ι → Prop} (hinit : I M.init)
    (hstep : ∀ s i, I s → p s i → I (M.step s i).1) {is : List ι}
    (hok : ∀ e ∈ M.events is, p e.before e.input) :
    (∀ e ∈ M.events is, I e.before ∧ I e.after) ∧ I (M.run is) :=
  M.invariant_from hstep hinit hok

/-- The events of one more input. -/
theorem events_concat (is : List ι) (i : ι) :
    M.events (is ++ [i]) = M.events is ++ [M.eventAt (M.run is) i] := by
  rw [events, eventsFrom_append, eventsFrom_cons, eventsFrom_nil]
  rfl

theorem run_concat (is : List ι) (i : ι) : M.run (is ++ [i]) = (M.step (M.run is) i).1 := by
  rw [run, runFrom_append, runFrom_cons, runFrom_nil]
  rfl

/-- History rule: what every step keeps that is permitted after the events before it, as a
property of these events and the state reached, holds of every run whose steps are permitted. -/
theorem history_invariant {I : List (Event σ ι ο) → σ → Prop}
    {p : List (Event σ ι ο) → Event σ ι ο → Prop} (hinit : I [] M.init)
    (hstep : ∀ h s i, I h s → p h (M.eventAt s i) → I (h ++ [M.eventAt s i]) (M.step s i).1)
    {is : List ι} (hok : ∀ pre e post, M.events is = pre ++ e :: post → p pre e) :
    I (M.events is) (M.run is) := by
  induction is using List.reverseRecOn with
  | nil => exact hinit
  | append_singleton is i ih =>
    rw [events_concat] at hok ⊢
    rw [run_concat]
    refine hstep _ _ _ (ih fun pre e post h => ?_) (hok _ _ [] rfl)
    exact hok pre e (post ++ [M.eventAt (M.run is) i]) (by rw [h]; simp)

/-- The history rule at an event of a run: what holds of the events before it. -/
theorem history_before {I : List (Event σ ι ο) → σ → Prop}
    {p : List (Event σ ι ο) → Event σ ι ο → Prop} (hinit : I [] M.init)
    (hstep : ∀ h s i, I h s → p h (M.eventAt s i) → I (h ++ [M.eventAt s i]) (M.step s i).1)
    {is : List ι} (hok : ∀ pre e post, M.events is = pre ++ e :: post → p pre e)
    {pre post : List (Event σ ι ο)} {e : Event σ ι ο} (h : M.events is = pre ++ e :: post) :
    I pre e.before := by
  obtain ⟨as, bs, rfl, rfl, he, -⟩ := M.eventsFrom_split h
  rw [he]
  refine M.history_invariant hinit hstep fun pre' e' post' h' => ?_
  refine hok pre' e' (post' ++ e :: post) ?_
  rw [h, ← events, h', List.append_assoc, List.cons_append]

/-- What holds at every event of a list and its past, one event further on. -/
theorem forall_split_concat {α : Type*} {P : List α → α → Prop} (h : List α) (a : α) :
    (∀ pre e post, h ++ [a] = pre ++ e :: post → P pre e) ↔
      (∀ pre e post, h = pre ++ e :: post → P pre e) ∧ P h a := by
  constructor
  · refine fun hall => ⟨fun pre e post hsplit => ?_, hall h a [] rfl⟩
    exact hall pre e (post ++ [a]) (by rw [hsplit, List.append_assoc, List.cons_append])
  · rintro ⟨hall, hlast⟩ pre e post hsplit
    obtain rfl | ⟨post, last, rfl⟩ := post.eq_nil_or_concat
    · obtain ⟨rfl, hsingle⟩ := List.append_inj' hsplit rfl
      obtain rfl := List.head_eq_of_cons_eq hsingle
      exact hlast
    · rw [List.concat_eq_append, ← List.cons_append, ← List.append_assoc] at hsplit
      exact hall pre e post (List.append_inj' hsplit rfl).1

/-- A run keeps a property of its history and its state exactly when all its steps are
permitted, if that is so for every step that starts with the property. -/
theorem history_kept_iff {I : List (Event σ ι ο) → σ → Prop}
    {p : List (Event σ ι ο) → Event σ ι ο → Prop} (hinit : I [] M.init)
    (hstep : ∀ h s i, I h s →
      (I (h ++ [M.eventAt s i]) (M.step s i).1 ↔ p h (M.eventAt s i))) {is : List ι} :
    (∀ pre e post, M.events is = pre ++ e :: post → I (pre ++ [e]) e.after) ↔
      ∀ pre e post, M.events is = pre ++ e :: post → p pre e := by
  have hpermitted : ∀ is, (∀ pre e post, M.events is = pre ++ e :: post → p pre e) →
      I (M.events is) (M.run is) := fun is hok =>
    M.history_invariant hinit (fun h s i hI => (hstep h s i hI).mpr) hok
  induction is using List.reverseRecOn with
  | nil => simp [events]
  | append_singleton is i ih =>
    rw [events_concat, forall_split_concat, forall_split_concat]
    constructor
    · rintro ⟨hkept, hlast⟩
      have hok := ih.mp hkept
      exact ⟨hok, (hstep _ _ _ (hpermitted is hok)).mp hlast⟩
    · rintro ⟨hok, hlast⟩
      exact ⟨ih.mpr hok, (hstep _ _ _ (hpermitted is hok)).mpr hlast⟩

/-- A run keeps an invariant, and a property of its events with it, exactly when all its
steps are permitted, if that is so for every step from a state with the invariant. -/
theorem kept_iff_from {I : σ → Prop} {P : Event σ ι ο → Prop} {p : σ → ι → Prop}
    (hstep : ∀ s i, I s → (I (M.step s i).1 ∧ P (M.eventAt s i) ↔ p s i)) {s : σ} {is : List ι}
    (hs : I s) : (∀ e ∈ M.eventsFrom s is, I e.after ∧ P e) ↔
      ∀ e ∈ M.eventsFrom s is, p e.before e.input := by
  induction is generalizing s with
  | nil => simp
  | cons i is ih =>
    simp only [eventsFrom_cons, List.forall_mem_cons]
    constructor
    · rintro ⟨hfirst, hrest⟩
      exact ⟨(hstep s i hs).mp hfirst, (ih hfirst.1).mp hrest⟩
    · rintro ⟨hfirst, hrest⟩
      have hkept := (hstep s i hs).mpr hfirst
      exact ⟨hkept, (ih hkept.1).mpr hrest⟩

/-- A run keeps an invariant exactly when all its steps are permitted, if that is so for every step
from a state with the invariant. -/
theorem invariant_iff {I : σ → Prop} {p : σ → ι → Prop}
    (hstep : ∀ s i, I s → (I (M.step s i).1 ↔ p s i)) (hinit : I M.init) (is : List ι) :
    (∀ e ∈ M.events is, I e.after) ↔ ∀ e ∈ M.events is, p e.before e.input := by
  have hkept : (∀ e ∈ M.events is, I e.after ∧ True) ↔ ∀ e ∈ M.events is, p e.before e.input :=
    M.kept_iff_from (P := fun _ => True)
      (fun s i hs => (and_iff_left trivial).trans (hstep s i hs)) hinit
  simpa only [and_true] using hkept

/-- A relation between states that every permitted step respects, and that is
reflexive and transitive, relates the ends of every run of permitted steps. -/
theorem related_from {R : σ → σ → Prop} {p : σ → ι → Prop} (hrefl : ∀ s, R s s)
    (htrans : ∀ a b c, R a b → R b c → R a c) (hstep : ∀ s i, p s i → R s (M.step s i).1)
    {s : σ} {is : List ι} (hok : ∀ e ∈ M.eventsFrom s is, p e.before e.input) :
    R s (M.runFrom s is) := by
  induction is generalizing s with
  | nil => exact hrefl s
  | cons i is ih =>
    have hfirst := hstep s i (hok (M.eventAt s i) (by simp))
    exact htrans _ _ _ hfirst (ih fun e he => hok e (by simp [he]))

/-- States between which no input makes a difference answer all inputs alike. -/
theorem outputs_eq_of_related {R : σ → σ → Prop}
    (hstep : ∀ s s' i, R s s' → R (M.step s i).1 (M.step s' i).1 ∧ (M.step s' i).2 = (M.step s i).2)
    {s s' : σ} (hs : R s s') (is : List ι) :
    (M.eventsFrom s' is).map Event.output = (M.eventsFrom s is).map Event.output := by
  induction is generalizing s s' with
  | nil => rfl
  | cons i is ih =>
    obtain ⟨hnext, houtput⟩ := hstep s s' i hs
    rw [eventsFrom_cons, eventsFrom_cons, List.map_cons, List.map_cons, ih hnext, eventAt_output,
      eventAt_output, houtput]

/-- A property that a run loses is lost by one of its events. -/
theorem exists_lost_from {P : σ → Prop} {s : σ} {is : List ι} (hs : P s)
    (hlast : ¬P (M.runFrom s is)) : ∃ e ∈ M.eventsFrom s is, P e.before ∧ ¬P e.after := by
  induction is generalizing s with
  | nil => exact absurd hs hlast
  | cons i is ih =>
    by_cases hnext : P (M.step s i).1
    · obtain ⟨e, he, hlost⟩ := ih hnext hlast
      exact ⟨e, List.mem_cons_of_mem _ he, hlost⟩
    · exact ⟨M.eventAt s i, by simp, hs, hnext⟩

/-- Progress rule: when every counted step that is no goal lowers a rank, and no step
raises it, a run with more counted steps than the rank of its start meets a goal. -/
theorem exists_goal_from {I : σ → Prop} {r : σ → ℕ} {c goal : Event σ ι ο → Prop}
    [DecidablePred c] {p : Event σ ι ο → Prop}
    (hinv : ∀ s i, I s → p (M.eventAt s i) → I (M.step s i).1)
    (hrank : ∀ s i, I s → p (M.eventAt s i) → ¬goal (M.eventAt s i) →
      r (M.step s i).1 + (if c (M.eventAt s i) then 1 else 0) ≤ r s)
    {s : σ} {is : List ι} (hs : I s) (hok : ∀ e ∈ M.eventsFrom s is, p e)
    (hmany : r s < (M.eventsFrom s is).countP fun e => c e) :
    ∃ e ∈ M.eventsFrom s is, goal e := by
  induction is generalizing s with
  | nil => simp at hmany
  | cons i is ih =>
    by_cases hgoal : goal (M.eventAt s i)
    · exact ⟨_, List.mem_cons_self, hgoal⟩
    · have hfirst := hok (M.eventAt s i) (by simp)
      have hfall := hrank s i hs hfirst hgoal
      rw [eventsFrom_cons, List.countP_cons] at hmany
      simp only [decide_eq_true_eq] at hmany
      obtain ⟨e, he, hmet⟩ := ih (hinv s i hs hfirst) (fun e he => hok e (by simp [he])) (by omega)
      exact ⟨e, List.mem_cons_of_mem _ he, hmet⟩

end Machine

end Gemacast.Core
