import Gemacast.Core.Bytes

/-!
# Length-prefixed fields

Fields of any contents written one after the other, each behind its length in a fixed
number of bytes. A reader that knows the width of the lengths gets the fields back, so two
lists of fields with the same bytes are the same list.
-/

namespace Gemacast.Core

variable {width : ℕ} {field rest : List UInt8} {fields fields' : List (List UInt8)}

/-- A field behind its length. -/
def writeField (width : ℕ) (field : List UInt8) : List UInt8 :=
  beBytes width field.length ++ field

/-- The fields one after the other. -/
def writeFields (width : ℕ) (fields : List (List UInt8)) : List UInt8 :=
  fields.flatMap (writeField width)

/-- Split the first field off. -/
def readField (width : ℕ) (bytes : List UInt8) : List UInt8 × List UInt8 :=
  let length := ofBeBytes (bytes.take width)
  ((bytes.drop width).take length, (bytes.drop width).drop length)

@[simp] theorem writeFields_nil : writeFields width [] = [] := rfl

@[simp] theorem writeFields_cons :
    writeFields width (field :: fields) = writeField width field ++ writeFields width fields :=
  rfl

/-- A field whose length fits its prefix is read back, with what follows it left over. -/
theorem readField_writeField (hfit : field.length < 256 ^ width) :
    readField width (writeField width field ++ rest) = (field, rest) := by
  have hlength : (beBytes width field.length).length = width := length_beBytes _ _
  have htake : (writeField width field ++ rest).take width = beBytes width field.length := by
    rw [writeField, List.append_assoc, List.take_left' hlength]
  have hdrop : (writeField width field ++ rest).drop width = field ++ rest := by
    rw [writeField, List.append_assoc, List.drop_left' hlength]
  rw [readField, htake, hdrop, ofBeBytes_beBytes hfit, List.take_left, List.drop_left]

theorem writeField_ne_nil (hwidth : 0 < width) : writeField width field ≠ [] := by
  intro hnil
  have hlength := congrArg List.length hnil
  rw [writeField, List.length_append, length_beBytes, List.length_nil] at hlength
  omega

/-- Two lists of fields that fit their prefixes are equal if their bytes are. -/
theorem writeFields_inj (hwidth : 0 < width) (hfit : ∀ field ∈ fields, field.length < 256 ^ width)
    (hfit' : ∀ field ∈ fields', field.length < 256 ^ width) :
    writeFields width fields = writeFields width fields' ↔ fields = fields' := by
  refine ⟨fun heq => ?_, fun heq => heq ▸ rfl⟩
  induction fields generalizing fields' with
  | nil =>
    cases fields' with
    | nil => rfl
    | cons field' fields' =>
      exact absurd (List.append_eq_nil_iff.mp heq.symm).1 (writeField_ne_nil hwidth)
  | cons field fields ih =>
    cases fields' with
    | nil => exact absurd (List.append_eq_nil_iff.mp heq).1 (writeField_ne_nil hwidth)
    | cons field' fields' =>
      -- both sides are read by the same reader
      have hread := congrArg (readField width) heq
      rw [writeFields_cons, writeFields_cons, readField_writeField (hfit _ List.mem_cons_self),
        readField_writeField (hfit' _ List.mem_cons_self), Prod.mk.injEq] at hread
      rw [hread.1, ih (fun f hf => hfit f (List.mem_cons_of_mem _ hf))
        (fun f hf => hfit' f (List.mem_cons_of_mem _ hf)) hread.2]

end Gemacast.Core
