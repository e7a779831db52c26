import Mathlib

/-!
# Texts of ASCII characters

Fingerprints and digests are compared without regard to the case of ASCII letters.
-/

namespace Gemacast.Control

/-- ASCII letters in lower case. -/
def asciiLower (s : String) : String := String.ofList (s.toList.map Char.toLower)

@[simp] theorem asciiLower_asciiLower (s : String) : asciiLower (asciiLower s) = asciiLower s := by
  unfold asciiLower
  rw [String.toList_ofList, List.map_map]
  congr 1
  exact List.map_congr_left fun c _ => Char.toLower_toLower_eq_toLower c

/-- The texts differ in the case of ASCII letters only. -/
def EqIgnoreAsciiCase (s t : String) : Prop := asciiLower s = asciiLower t

instance (s t : String) : Decidable (EqIgnoreAsciiCase s t) :=
  inferInstanceAs (Decidable (_ = _))

end Gemacast.Control
