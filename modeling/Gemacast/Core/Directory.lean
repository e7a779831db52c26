import Mathlib.Logic.Function.Basic
import Mathlib.Tactic.Common

/-!
# Files that are replaced as a whole

A directory as what is found under each name. A write that is cut off leaves a part of what
was to be written; a rename happens or does not. What is written to another name first and
renamed then is the old or the new at any time.
-/

namespace Gemacast.Core

/-- What is found under each name. -/
abbrev Directory (N : Type) := N → Option (List UInt8)

namespace Directory

variable {N : Type} [DecidableEq N]

/-- A write that was cut off leaves the file as it was, or a part of what was written. -/
def CutOff (d : Directory N) (name : N) (contents : List UInt8) (d' : Directory N) : Prop :=
  d' = d ∨ ∃ n, d' = Function.update d name (some (contents.take n))

/-- A file with a new name, in the place of what had the name. -/
def Renamed (d : Directory N) (source target : N) (d' : Directory N) : Prop :=
  ∃ contents, d source = some contents ∧
    d' = Function.update (Function.update d source none) target (some contents)

/-- A file is replaced as a whole or not at all, and but for what it is written to first the
others stay. -/
structure Replaces (target temporary : N) (contents : List UInt8) (d d' : Directory N) :
    Prop where
  /-- The file is the old one or the new one. -/
  whole : d' target = d target ∨ d' target = some contents
  /-- The others. -/
  others : ∀ name, name ≠ target → name ≠ temporary → d' name = d name

variable {target temporary : N} {contents : List UInt8} {d t t' : Directory N}

/-- A write that was cut off touches no other file. -/
theorem CutOff.of_ne {name other : N} (h : CutOff d name contents t) (hne : other ≠ name) :
    t other = d other := by
  obtain rfl | ⟨n, rfl⟩ := h
  · rfl
  · exact Function.update_of_ne hne _ _

/-- A file has its new name, with what it held. -/
theorem Renamed.target_eq {source : N} (h : Renamed d source target t) : t target = d source := by
  obtain ⟨bytes, hbytes, rfl⟩ := h
  rw [Function.update_self, hbytes]

omit [DecidableEq N] in
theorem Replaces.refl (target temporary : N) (contents : List UInt8) (d : Directory N) :
    Replaces target temporary contents d d :=
  ⟨.inl rfl, fun _ _ _ => rfl⟩

/-- What goes to the temporary file replaces nothing yet. -/
theorem Replaces.put (h : Replaces target temporary contents d t) (hne : target ≠ temporary)
    (bytes : List UInt8) :
    Replaces target temporary contents d (Function.update t temporary (some bytes)) := by
  refine ⟨?_, fun name hname hname' => ?_⟩
  · rw [Function.update_of_ne hne]
    exact h.whole
  · rw [Function.update_of_ne hname']
    exact h.others name hname hname'

theorem Replaces.cutOff {bytes : List UInt8} (h : Replaces target temporary contents d t)
    (hne : target ≠ temporary) (hcut : CutOff t temporary bytes t') :
    Replaces target temporary contents d t' := by
  obtain rfl | ⟨n, rfl⟩ := hcut
  · exact h
  · exact h.put hne _

theorem Replaces.renamed (h : Replaces target temporary contents d t)
    (hwritten : t temporary = some contents) (hrenamed : Renamed t temporary target t') :
    Replaces target temporary contents d t' ∧ t' target = some contents := by
  obtain ⟨bytes, hbytes, rfl⟩ := hrenamed
  obtain rfl := Option.some.inj (hwritten.symm.trans hbytes)
  refine ⟨⟨.inr (Function.update_self ..), fun name hne hne' => ?_⟩, Function.update_self ..⟩
  rw [Function.update_of_ne hne, Function.update_of_ne hne']
  exact h.others name hne hne'

end Directory

end Gemacast.Core
