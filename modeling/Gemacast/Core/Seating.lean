import Mathlib.Data.Option.Basic
import Mathlib.Logic.Function.Basic
import Mathlib.Tactic.Common

/-!
# Seats and their holders

Holders sit at places, and every place in use has a label. Two records are kept of this,
one read by holder and one read by place; they are settled when they say the same and no
two holders share a place. The rules tell which changes of both records keep them settled.
-/

namespace Gemacast.Core

variable {D P B : Type*} {seat : D → Option (P × B)} {slot : P → Option B}

/-- Both records say the same, and every place has one holder. -/
structure Settled (seat : D → Option (P × B)) (slot : P → Option B) : Prop where
  /-- A place has a label exactly if somebody sits there with it. -/
  slot_iff : ∀ p b, slot p = some b ↔ ∃ d, seat d = some (p, b)
  /-- No two holders share a place. -/
  seat_unique : ∀ d d' p b b', seat d = some (p, b) → seat d' = some (p, b') → d = d'

namespace Settled

/-- The holder sits at the place. -/
def SitsAt (seat : D → Option (P × B)) (d : D) (p : P) : Prop := ∃ b, seat d = some (p, b)

theorem empty : Settled (fun _ : D => (none : Option (P × B))) fun _ => none where
  slot_iff _ _ := by simp
  seat_unique _ _ _ _ _ h := nomatch h

/-- A holder has one place. -/
theorem sitsAt_inj {d : D} {p q : P} (hp : SitsAt seat d p) (hq : SitsAt seat d q) : p = q := by
  obtain ⟨b, hb⟩ := hp
  obtain ⟨b', hb'⟩ := hq
  exact (Prod.mk.inj (Option.some.inj (hb.symm.trans hb'))).1

/-- A place has one holder. -/
theorem holder_inj (h : Settled seat slot) {d d' : D} {p : P} (hd : SitsAt seat d p)
    (hd' : SitsAt seat d' p) : d = d' := by
  obtain ⟨b, hb⟩ := hd
  obtain ⟨b', hb'⟩ := hd'
  exact h.seat_unique d d' p b b' hb hb'

/-- A place has a label exactly if somebody sits there. -/
theorem slot_ne_none_iff (h : Settled seat slot) {p : P} :
    slot p ≠ none ↔ ∃ d, SitsAt seat d p := by
  rw [Option.ne_none_iff_exists']
  constructor
  · rintro ⟨b, hb⟩
    obtain ⟨d, hd⟩ := (h.slot_iff p b).mp hb
    exact ⟨d, b, hd⟩
  · rintro ⟨d, b, hd⟩
    exact ⟨b, (h.slot_iff p b).mpr ⟨d, hd⟩⟩

/-- Both records change for one holder, who leaves its place and takes another or none. The
records stay settled exactly if nobody else sits at the new place. -/
theorem take_iff (h : Settled seat slot) {d : D} {p : P} {b : B}
    {seat' : D → Option (P × B)} {slot' : P → Option B} (hseat : seat' d = some (p, b))
    (hother : ∀ d', d' ≠ d → seat' d' = seat d') (hslot : slot' p = some b)
    (hleft : ∀ q, q ≠ p → SitsAt seat d q → slot' q = none)
    (hkept : ∀ q, q ≠ p → ¬SitsAt seat d q → slot' q = slot q) :
    Settled seat' slot' ↔ ∀ d', d' ≠ d → ¬SitsAt seat d' p := by
  constructor
  · rintro h' d' hne ⟨b', hb'⟩
    rw [← hother d' hne] at hb'
    exact hne (h'.seat_unique d' d p b' b hb' hseat)
  · intro hvacant
    have hdown {d' : D} {q : P} {b' : B} (hb' : seat' d' = some (q, b')) :
        d' = d ∧ q = p ∧ b' = b ∨ d' ≠ d ∧ q ≠ p ∧ seat d' = some (q, b') := by
      by_cases hd : d' = d
      · rw [hd, hseat, Option.some_inj, Prod.mk.injEq] at hb'
        exact .inl ⟨hd, hb'.1.symm, hb'.2.symm⟩
      · rw [hother d' hd] at hb'
        exact .inr ⟨hd, fun hq => hvacant d' hd ⟨b', hq ▸ hb'⟩, hb'⟩
    constructor
    · intro q b'
      by_cases hq : q = p
      · subst hq
        rw [hslot, Option.some_inj]
        constructor
        · rintro rfl
          exact ⟨d, hseat⟩
        · rintro ⟨d', hd'⟩
          obtain ⟨-, -, rfl⟩ | ⟨-, hne, -⟩ := hdown hd'
          · rfl
          · exact absurd rfl hne
      · by_cases hold : SitsAt seat d q
        · rw [hleft q hq hold]
          refine iff_of_false nofun ?_
          rintro ⟨d', hd'⟩
          obtain ⟨-, heq, -⟩ | ⟨hne, -, hd'⟩ := hdown hd'
          · exact hq heq
          · exact hne (h.holder_inj ⟨b', hd'⟩ hold)
        · rw [hkept q hq hold, h.slot_iff]
          refine exists_congr fun d' => ?_
          by_cases hd : d' = d
          · subst hd
            rw [hseat]
            exact iff_of_false (fun hd' => hold ⟨b', hd'⟩) fun heq =>
              hq (Prod.mk.inj (Option.some.inj heq)).1.symm
          · rw [hother d' hd]
    · intro d₁ d₂ q b₁ b₂ h₁ h₂
      obtain ⟨rfl, rfl, -⟩ | ⟨-, hne, h₁⟩ := hdown h₁ <;>
        obtain ⟨rfl, hq, -⟩ | ⟨-, hne', h₂⟩ := hdown h₂
      · rfl
      · exact absurd rfl hne'
      · exact absurd hq hne
      · exact h.seat_unique d₁ d₂ q b₁ b₂ h₁ h₂

/-- Everybody at the places of a kind leaves, and their labels with them. -/
theorem clear (h : Settled seat slot) {S : P → Prop} {seat' : D → Option (P × B)}
    {slot' : P → Option B} (hgone : ∀ d p, S p → SitsAt seat d p → seat' d = none)
    (hseat : ∀ d p b, ¬S p → seat d = some (p, b) → seat' d = some (p, b))
    (hnone : ∀ d, seat d = none → seat' d = none) (hempty : ∀ p, S p → slot' p = none)
    (hslot : ∀ p, ¬S p → slot' p = slot p) : Settled seat' slot' := by
  have hdown {d : D} {p : P} {b : B} (hd : seat' d = some (p, b)) :
      ¬S p ∧ seat d = some (p, b) := by
    cases hold : seat d with
    | none => nomatch (hnone d hold).symm.trans hd
    | some place =>
      obtain ⟨q, b'⟩ := place
      by_cases hq : S q
      · nomatch (hgone d q hq ⟨b', hold⟩).symm.trans hd
      · have hsame := (hseat d q b' hq hold).symm.trans hd
        obtain ⟨rfl, rfl⟩ := Prod.mk.inj (Option.some.inj hsame)
        exact ⟨hq, rfl⟩
  constructor
  · intro p b
    by_cases hp : S p
    · rw [hempty p hp]
      exact iff_of_false nofun fun ⟨d, hd⟩ => (hdown hd).1 hp
    · rw [hslot p hp, h.slot_iff]
      exact exists_congr fun d => ⟨hseat d p b hp, fun hd => (hdown hd).2⟩
  · intro d d' p b b' hd hd'
    exact h.seat_unique d d' p b b' (hdown hd).2 (hdown hd').2

/-- One holder leaves and the label of one place goes. The records stay settled exactly if
it was the label of the holder's place. -/
theorem leave_iff (h : Settled seat slot) {d : D} {p : P} {seat' : D → Option (P × B)}
    {slot' : P → Option B} (hlabel : slot p ≠ none) (hseat : seat' d = none)
    (hother : ∀ d', d' ≠ d → seat' d' = seat d') (hslot : slot' p = none)
    (hkept : ∀ q, q ≠ p → slot' q = slot q) : Settled seat' slot' ↔ SitsAt seat d p := by
  constructor
  · intro h'
    obtain ⟨holder, b, hholder⟩ := h.slot_ne_none_iff.mp hlabel
    by_cases hd : holder = d
    · exact ⟨b, hd ▸ hholder⟩
    · rw [← hother holder hd] at hholder
      exact absurd hslot (h'.slot_ne_none_iff.mpr ⟨holder, b, hholder⟩)
  · intro hsits
    refine h.clear (S := (· = p)) ?_ ?_ ?_ ?_ hkept
    · rintro d' q rfl hd'
      exact h.holder_inj hd' hsits ▸ hseat
    · intro d' q b hq hd'
      have hne : d' ≠ d := fun heq => hq (sitsAt_inj ⟨b, heq ▸ hd'⟩ hsits)
      rw [hother d' hne, hd']
    · intro d' hd'
      by_cases hd : d' = d
      · exact hd ▸ hseat
      · rw [hother d' hd, hd']
    · rintro q rfl
      exact hslot

end Settled

end Gemacast.Core
