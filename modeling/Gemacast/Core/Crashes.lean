import Gemacast.Core.Program

/-!
# Programs that may crash

An operation may be answered in more than one way, and a crash may come before, after or in
the middle of any of them. A program withstands crashes when a condition holds wherever one
may come; what is started again and again keeps the condition over all its starts.
-/

namespace Gemacast.Core

variable {σ Op : Type} {Ans : Op → Type} {α β : Type}

/-- How operations are answered, and what a crash leaves of one that is under way. -/
structure Service (σ Op : Type) (Ans : Op → Type) where
  /-- The operation gets the answer and leads to the state. -/
  serves : σ → (op : Op) → Ans op → σ → Prop
  /-- A crash during the operation leaves the state. -/
  tears : σ → Op → σ → Prop

namespace Program

variable {S S' : Service σ Op Ans}

/-- What becomes of a program: the result it ends with, none when it crashed, and the state
it leaves. -/
inductive Leaves (S : Service σ Op Ans) : Program Op Ans α → σ → Option α → σ → Prop
  | finished {result s} : Leaves S (.done result) s (some result) s
  | crashed {p s} : Leaves S p s none s
  | torn {op next s t} (h : S.tears s op t) : Leaves S (.call op next) s none t
  | served {op next s answer t outcome u} (h : S.serves s op answer t)
      (hrest : Leaves S (next answer) t outcome u) : Leaves S (.call op next) s outcome u

/-- Wherever a crash may come the condition holds, and at the end the promise too. -/
def Withstands (S : Service σ Op Ans) (I : σ → Prop) (ψ : σ → α → Prop) :
    Program Op Ans α → σ → Prop
  | .done result, s => I s ∧ ψ s result
  | .call op next, s => I s ∧ (∀ t, S.tears s op t → I t) ∧
      ∀ answer t, S.serves s op answer t → Withstands S I ψ (next answer) t

/-- A program that runs to its end while nobody comes in between. -/
theorem leaves_of_runAlone {execute : σ → (op : Op) → Option (σ × Ans op)} {p : Program Op Ans α}
    {s t : σ} {result : α}
    (hserves : ∀ s op t answer, execute s op = some (t, answer) → S.serves s op answer t)
    (h : runAlone execute p s = some (t, result)) : Leaves S p s (some result) t := by
  induction p generalizing s with
  | done result' =>
    obtain ⟨rfl, rfl⟩ := Prod.mk.inj (Option.some.inj h)
    exact .finished
  | call op next ih =>
    obtain ⟨u, answer, hexecute, hrest⟩ := runAlone_call_eq_some.mp h
    exact .served (hserves _ _ _ _ hexecute) (ih answer hrest)

/-- The second program goes on from where the first ended. -/
theorem Leaves.bind {f : α → Program Op Ans β} {p : Program Op Ans α} {s t u : σ} {a : α}
    {outcome : Option β} (hp : Leaves S p s (some a) t) (hf : Leaves S (f a) t outcome u) :
    Leaves S (p.bind f) s outcome u := by
  generalize hended : some a = ended at hp
  induction hp with
  | finished =>
    obtain rfl := Option.some.inj hended
    exact hf
  | crashed => cases hended
  | torn _ => cases hended
  | served hserved _ ih => exact .served hserved (ih hf hended)

section Withstands

variable {I I' : σ → Prop} {ψ ψ' : σ → α → Prop} {χ : σ → β → Prop} {p : Program Op Ans α}
  {s t : σ} {outcome : Option α}

@[simp] theorem withstands_done {result : α} :
    Withstands S I ψ (.done result) s ↔ I s ∧ ψ s result := Iff.rfl

@[simp] theorem withstands_call {op : Op} {next : Ans op → Program Op Ans α} :
    Withstands S I ψ (.call op next) s ↔ I s ∧ (∀ t, S.tears s op t → I t) ∧
      ∀ answer t, S.serves s op answer t → Withstands S I ψ (next answer) t := Iff.rfl

/-- The second program starts from what the first leaves. -/
theorem Withstands.bind {f : α → Program Op Ans β} (h : Withstands S I ψ p s)
    (hf : ∀ t a, I t → ψ t a → Withstands S I χ (f a) t) : Withstands S I χ (p >>= f) s := by
  induction p generalizing s with
  | done result => exact hf s result h.1 h.2
  | call op next ih =>
    obtain ⟨hI, htorn, hserved⟩ := h
    exact ⟨hI, htorn, fun answer t ht => ih answer (hserved answer t ht)⟩

/-- Less may be promised. -/
theorem Withstands.mono (h : Withstands S I ψ p s) (hI : ∀ t, I t → I' t)
    (hψ : ∀ t a, I t → ψ t a → ψ' t a) : Withstands S I' ψ' p s := by
  induction p generalizing s with
  | done result => exact ⟨hI s h.1, hψ s result h.1 h.2⟩
  | call op next ih =>
    obtain ⟨hs, htorn, hserved⟩ := h
    exact ⟨hI s hs, fun t ht => hI t (htorn t ht), fun answer t ht =>
      ih answer (hserved answer t ht)⟩

/-- The condition holds of what the program leaves, and its promise of what it answers. -/
theorem Withstands.leaves (h : Withstands S I ψ p s) (hleaves : Leaves S p s outcome t) :
    I t ∧ ∀ a, outcome = some a → ψ t a := by
  induction hleaves with
  | finished => exact ⟨h.1, fun a ha => Option.some.inj ha ▸ h.2⟩
  | @crashed p s =>
    refine ⟨?_, by rintro a ⟨⟩⟩
    cases p with
    | done result => exact h.1
    | call op next => exact h.1
  | torn htorn => exact ⟨h.2.1 _ htorn, by rintro a ⟨⟩⟩
  | served hserved _ ih => exact ih (h.2.2 _ _ hserved)

/-- What no operation of the program disturbs holds wherever a crash may come. -/
theorem Uses.withstands {allowed : Op → Prop} (h : Uses allowed p)
    (hserved : ∀ s op answer t, allowed op → I s → S.serves s op answer t → I t)
    (htorn : ∀ s op t, allowed op → I s → S.tears s op t → I t) (hs : I s) :
    Withstands S I (fun _ _ => True) p s := by
  induction p generalizing s with
  | done result => exact ⟨hs, trivial⟩
  | call op next ih =>
    exact ⟨hs, fun t => htorn s op t h.1 hs, fun answer t ht =>
      ih answer (h.2 answer) (hserved s op answer t h.1 hs ht)⟩

end Withstands

/-- A program is started again and again; between two starts the state may change, too. -/
inductive Restarts (S : Service σ Op Ans) (between : σ → σ → Prop) (p : Program Op Ans α) :
    σ → List (Option α) → σ → Prop
  | never {s} : Restarts S between p s [] s
  | again {s t u outcome outcomes v} (hbetween : between s t) (hleaves : Leaves S p t outcome u)
      (hrest : Restarts S between p u outcomes v) : Restarts S between p s (outcome :: outcomes) v

section Restarts

variable {between : σ → σ → Prop} {p : Program Op Ans α} {s t : σ} {outcomes : List (Option α)}

/-- What every start keeps, and with it the promise of every answer. -/
theorem Restarts.invariant {I : σ → Prop} {ψ : α → Prop}
    (hbetween : ∀ s t, I s → between s t → I t)
    (hstart : ∀ s, I s → Withstands S I (fun _ => ψ) p s)
    (h : Restarts S between p s outcomes t) (hs : I s) :
    I t ∧ ∀ a, some a ∈ outcomes → ψ a := by
  induction h with
  | never => exact ⟨hs, by rintro a ⟨⟩⟩
  | again hchange hleaves _ ih =>
    obtain ⟨hleft, hanswer⟩ := (hstart _ (hbetween _ _ hs hchange)).leaves hleaves
    obtain ⟨hlast, hanswers⟩ := ih hleft
    refine ⟨hlast, fun a ha => ?_⟩
    obtain heq | hmem := List.mem_cons.mp ha
    · exact hanswer a heq.symm
    · exact hanswers a hmem

/-- What an answer leaves behind and every later start keeps is still there. -/
theorem Restarts.kept {answers : α → Option β} {K : β → σ → Prop}
    (hbetween : ∀ b s t, K b s → between s t → K b t)
    (hleft : ∀ s, Withstands S (fun _ => True) (fun t a => ∀ b, answers a = some b → K b t) p s)
    (hkept : ∀ b s, K b s → Withstands S (K b) (fun _ _ => True) p s)
    (h : Restarts S between p s outcomes t) {a : α} {b : β} (ha : some a ∈ outcomes)
    (hb : answers a = some b) : K b t := by
  induction h with
  | never => cases ha
  | again _ hleaves hrest ih =>
    obtain heq | hmem := List.mem_cons.mp ha
    · have hstored := ((hleft _).leaves hleaves).2 a heq.symm b hb
      exact (hrest.invariant (hbetween b) (hkept b) hstored).1
    · exact ih hmem

/-- When a start leaves behind what makes every later one answer the same, all answers of all
starts are the same. -/
theorem Restarts.agree {answers : α → Option β} {K : β → σ → Prop}
    (hbetween : ∀ b s t, K b s → between s t → K b t)
    (hleft : ∀ s, Withstands S (fun _ => True) (fun t a => ∀ b, answers a = some b → K b t) p s)
    (hkept : ∀ b s, K b s → Withstands S (K b) (fun _ a => ∀ b', answers a = some b' → b' = b) p s)
    (h : Restarts S between p s outcomes t) :
    outcomes.Pairwise fun a a' =>
      ∀ b b', a.bind answers = some b → a'.bind answers = some b' → b' = b := by
  induction h with
  | never => exact .nil
  | again _ hleaves hrest ih =>
    refine .cons (fun a' ha' b b' hb hb' => ?_) ih
    obtain ⟨a, rfl, hanswer⟩ := Option.bind_eq_some_iff.mp hb
    obtain ⟨a', rfl, hanswer'⟩ := Option.bind_eq_some_iff.mp hb'
    have hstored := ((hleft _).leaves hleaves).2 a rfl b hanswer
    exact (hrest.invariant (hbetween b) (hkept b) hstored).2 a' ha' b' hanswer'

end Restarts

end Program

end Gemacast.Core
