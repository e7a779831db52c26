import Mathlib.Data.List.Basic
import Mathlib.Tactic.Common

/-!
# Programs of operations on shared state

A task that shares its state with others is a tree: it makes an operation, gets an answer
and goes on with what the answer selects. What may happen between two operations is no part
of the tree. A contract of a program speaks of the calls made so far, each with its answer:
it says what holds of them at every further operation and at the end.
-/

namespace Gemacast.Core

variable {Op : Type} {Ans : Op → Type} {α β : Type}

/-- An operation and the answer it got. -/
structure Called (Op : Type) (Ans : Op → Type) where
  /-- The operation. -/
  op : Op
  /-- The answer. -/
  answer : Ans op

/-- What is left of a task: an end, or an operation and the rest for every answer. -/
inductive Program (Op : Type) (Ans : Op → Type) (α : Type) where
  | done (result : α)
  | call (op : Op) (next : Ans op → Program Op Ans α)

namespace Program

/-- Go on with the result. -/
def bind : Program Op Ans α → (α → Program Op Ans β) → Program Op Ans β
  | .done result, f => f result
  | .call op next, f => .call op fun answer => (next answer).bind f

instance : Monad (Program Op Ans) where
  pure := .done
  bind := bind

/-- Make one operation. -/
def perform (op : Op) : Program Op Ans (Ans op) := .call op .done

@[simp] theorem pure_eq (a : α) : (pure a : Program Op Ans α) = .done a := rfl

@[simp] theorem done_bind (a : α) (f : α → Program Op Ans β) : (.done a >>= f) = f a := rfl

@[simp] theorem call_bind (op : Op) (next : Ans op → Program Op Ans α)
    (f : α → Program Op Ans β) : (.call op next >>= f) = .call op fun a => next a >>= f := rfl

@[simp] theorem perform_bind (op : Op) (f : Ans op → Program Op Ans β) :
    (perform op >>= f) = .call op f := rfl

/-- The program made these calls, in this order, and this is left of it. -/
inductive Path (p : Program Op Ans α) : List (Called Op Ans) → Program Op Ans α → Prop
  | start : Path p [] p
  | step {calls op next} (answer : Ans op) (h : Path p calls (.call op next)) :
      Path p (calls ++ [⟨op, answer⟩]) (next answer)

/-- The contract of a program after some calls: what holds of the calls so far at every
operation, and of the calls and the result at the end. -/
def Obeys (φ : List (Called Op Ans) → Op → Prop) (ψ : List (Called Op Ans) → α → Prop) :
    List (Called Op Ans) → Program Op Ans α → Prop
  | calls, .done result => ψ calls result
  | calls, .call op next =>
    φ calls op ∧ ∀ answer, Obeys φ ψ (calls ++ [⟨op, answer⟩]) (next answer)

section Contracts

variable {φ φ' : List (Called Op Ans) → Op → Prop} {ψ ψ' : List (Called Op Ans) → α → Prop}
  {χ : List (Called Op Ans) → β → Prop} {calls : List (Called Op Ans)} {p q : Program Op Ans α}

@[simp] theorem obeys_done {result : α} : Obeys φ ψ calls (.done result) ↔ ψ calls result :=
  Iff.rfl

@[simp] theorem obeys_call {op : Op} {next : Ans op → Program Op Ans α} :
    Obeys φ ψ calls (.call op next) ↔
      φ calls op ∧ ∀ answer, Obeys φ ψ (calls ++ [⟨op, answer⟩]) (next answer) := Iff.rfl

/-- The second program starts from what the first leaves. -/
theorem Obeys.bind {f : α → Program Op Ans β} (h : Obeys φ ψ calls p)
    (hf : ∀ calls a, ψ calls a → Obeys φ χ calls (f a)) : Obeys φ χ calls (p >>= f) := by
  induction p generalizing calls with
  | done result => exact hf calls result h
  | call op next ih => exact ⟨h.1, fun answer => ih answer (h.2 answer)⟩

/-- A contract may promise less. -/
theorem Obeys.mono (h : Obeys φ ψ calls p) (hφ : ∀ calls op, φ calls op → φ' calls op)
    (hψ : ∀ calls a, ψ calls a → ψ' calls a) : Obeys φ' ψ' calls p := by
  induction p generalizing calls with
  | done result => exact hψ calls result h
  | call op next ih => exact ⟨hφ calls op h.1, fun answer => ih answer (h.2 answer)⟩

/-- Two contracts hold together. -/
theorem Obeys.and (h : Obeys φ ψ calls p) (h' : Obeys φ' ψ' calls p) :
    Obeys (fun calls op => φ calls op ∧ φ' calls op) (fun calls a => ψ calls a ∧ ψ' calls a)
      calls p := by
  induction p generalizing calls with
  | done result => exact ⟨h, h'⟩
  | call op next ih => exact ⟨⟨h.1, h'.1⟩, fun answer => ih answer (h.2 answer) (h'.2 answer)⟩

/-- What is left of a program keeps the contract. -/
theorem Path.obeys (h : Path p calls q) (hp : Obeys φ ψ [] p) : Obeys φ ψ calls q := by
  induction h with
  | start => exact hp
  | step answer h ih => exact ih.2 answer

/-- The contract at the operation a program has come to. -/
theorem Path.at_call {op : Op} {next : Ans op → Program Op Ans α}
    (h : Path p calls (.call op next)) (hp : Obeys φ ψ [] p) : φ calls op :=
  (h.obeys hp).1

/-- The contract at the end of a program. -/
theorem Path.at_done {result : α} (h : Path p calls (.done result)) (hp : Obeys φ ψ [] p) :
    ψ calls result :=
  h.obeys hp

/-- Every call on the way was made under the contract, after the calls before it. -/
theorem Path.of_mem {call : Called Op Ans} (h : Path p calls q) (hp : Obeys φ ψ [] p)
    (hmem : call ∈ calls) : ∃ before after, calls = before ++ call :: after ∧ φ before call.op := by
  induction h with
  | start => nomatch hmem
  | @step calls op next answer h ih =>
    rcases List.mem_append.mp hmem with hold | hnew
    · obtain ⟨before, after, rfl, hφ⟩ := ih hold
      exact ⟨before, after ++ [⟨op, answer⟩], by simp, hφ⟩
    · obtain rfl := List.mem_singleton.mp hnew
      exact ⟨calls, [], rfl, h.at_call hp⟩

end Contracts

/-- Every operation the program can make is allowed. -/
def Uses (allowed : Op → Prop) : Program Op Ans α → Prop
  | .done _ => True
  | .call op next => allowed op ∧ ∀ answer, Uses allowed (next answer)

section Uses

variable {allowed : Op → Prop} {φ : List (Called Op Ans) → Op → Prop}
  {calls : List (Called Op Ans)} {p q : Program Op Ans α}

@[simp] theorem uses_done {result : α} : Uses allowed (.done result : Program Op Ans α) := trivial

@[simp] theorem uses_call {op : Op} {next : Ans op → Program Op Ans α} :
    Uses allowed (.call op next) ↔ allowed op ∧ ∀ answer, Uses allowed (next answer) := Iff.rfl

@[simp] theorem uses_perform {op : Op} :
    Uses allowed (perform op : Program Op Ans (Ans op)) ↔ allowed op :=
  ⟨fun h => h.1, fun h => ⟨h, fun _ => trivial⟩⟩

theorem Uses.bind {f : α → Program Op Ans β} (h : Uses allowed p)
    (hf : ∀ a, Uses allowed (f a)) : Uses allowed (p >>= f) := by
  induction p with
  | done result => exact hf result
  | call op next ih => exact ⟨h.1, fun answer => ih answer (h.2 answer)⟩

/-- What is allowed at every operation is a contract, and calls of a kind that is never
allowed are never among the calls. -/
theorem Uses.obeys (h : Uses allowed p) (bad : Called Op Ans → Prop)
    (hbad : ∀ op answer, allowed op → ¬bad ⟨op, answer⟩) (hcalls : ∀ call ∈ calls, ¬bad call)
    (hφ : ∀ calls op, allowed op → φ calls op) :
    Obeys φ (fun calls' _ => (∀ call ∈ calls', ¬bad call) ∧ ∃ more, calls' = calls ++ more)
      calls p := by
  induction p generalizing calls with
  | done result => exact ⟨hcalls, [], by simp⟩
  | call op next ih =>
    refine ⟨hφ calls op h.1, fun answer => ?_⟩
    refine (ih answer (h.2 answer) fun call hmem => ?_).mono (fun _ _ h => h) ?_
    · rcases List.mem_append.mp hmem with hold | hnew
      · exact hcalls call hold
      · rw [List.mem_singleton.mp hnew]
        exact hbad op answer h.1
    · rintro calls' - ⟨hnone, more, rfl⟩
      exact ⟨hnone, ⟨op, answer⟩ :: more, by simp⟩

/-- An operation a program has come to is allowed. -/
theorem Path.uses {op : Op} {next : Ans op → Program Op Ans α}
    (h : Path p calls (.call op next)) (hp : Uses allowed p) : allowed op :=
  h.at_call ((hp.obeys (fun _ => False) (fun _ _ _ h => h) (fun _ _ h => h)
    fun _ _ h => h).mono (fun _ _ h => h) fun _ _ _ => trivial)

end Uses

/-- Every result the program can end with is as said. -/
def Returns (P : α → Prop) : Program Op Ans α → Prop
  | .done result => P result
  | .call _ next => ∀ answer, Returns P (next answer)

section Returns

variable {P : α → Prop}

@[simp] theorem returns_done {result : α} :
    Returns P (.done result : Program Op Ans α) ↔ P result := Iff.rfl

@[simp] theorem returns_call {op : Op} {next : Ans op → Program Op Ans α} :
    Returns P (.call op next) ↔ ∀ answer, Returns P (next answer) := Iff.rfl

end Returns

section Alone

variable {σ : Type} (execute : σ → (op : Op) → Option (σ × Ans op))

/-- Run a program while nobody comes in between; none if it has to wait. -/
def runAlone : Program Op Ans α → σ → Option (σ × α)
  | .done result, s => some (s, result)
  | .call op next, s => (execute s op).bind fun answered => runAlone (next answered.2) answered.1

variable {execute} {s s' : σ}

@[simp] theorem runAlone_done {result : α} :
    runAlone execute (.done result : Program Op Ans α) s = some (s, result) := rfl

theorem runAlone_call {op : Op} {next : Ans op → Program Op Ans α} :
    runAlone execute (.call op next) s =
      (execute s op).bind fun answered => runAlone execute (next answered.2) answered.1 := rfl

/-- A program in two parts runs through the state between them. -/
theorem runAlone_bind {p : Program Op Ans α} {f : α → Program Op Ans β} :
    runAlone execute (p >>= f) s =
      (runAlone execute p s).bind fun reached => runAlone execute (f reached.2) reached.1 := by
  induction p generalizing s with
  | done result => rfl
  | call op next ih =>
    rw [call_bind, runAlone_call, runAlone_call, Option.bind_assoc]
    congr 1
    funext answered
    exact ih answered.2

theorem runAlone_bind_eq_some {p : Program Op Ans α} {f : α → Program Op Ans β} {b : β} :
    runAlone execute (p >>= f) s = some (s', b) ↔ ∃ t a, runAlone execute p s = some (t, a) ∧
      runAlone execute (f a) t = some (s', b) := by
  rw [runAlone_bind, Option.bind_eq_some_iff, Prod.exists]

theorem runAlone_call_eq_some {op : Op} {next : Ans op → Program Op Ans α} {a : α} :
    runAlone execute (.call op next) s = some (s', a) ↔ ∃ t answer,
      execute s op = some (t, answer) ∧ runAlone execute (next answer) t = some (s', a) := by
  rw [runAlone_call, Option.bind_eq_some_iff, Prod.exists]

/-- What every allowed operation keeps is kept by a program of allowed operations. -/
theorem Uses.runAlone {allowed : Op → Prop} {R : σ → σ → Prop} {p : Program Op Ans α} {a : α}
    (h : Uses allowed p) (hrefl : ∀ s, R s s) (htrans : ∀ a b c, R a b → R b c → R a c)
    (hstep : ∀ s op t answer, allowed op → execute s op = some (t, answer) → R s t)
    (hrun : runAlone execute p s = some (s', a)) : R s s' := by
  induction p generalizing s with
  | done result =>
    obtain ⟨rfl, -⟩ := Prod.mk.inj (Option.some.inj hrun)
    exact hrefl s
  | call op next ih =>
    obtain ⟨t, answer, hexecute, hrest⟩ := runAlone_call_eq_some.mp hrun
    exact htrans _ _ _ (hstep _ _ _ _ h.1 hexecute) (ih answer (h.2 answer) hrest)

/-- A program that ends has a result it can end with. -/
theorem Returns.runAlone {P : α → Prop} {p : Program Op Ans α} {a : α} (h : Returns P p)
    (hrun : runAlone execute p s = some (s', a)) : P a := by
  induction p generalizing s with
  | done result =>
    obtain ⟨-, rfl⟩ := Prod.mk.inj (Option.some.inj hrun)
    exact h
  | call op next ih =>
    obtain ⟨t, answer, -, hrest⟩ := runAlone_call_eq_some.mp hrun
    exact ih answer (h answer) hrest

end Alone

end Program

end Gemacast.Core
