import Gemacast.Core.Table
import Mathlib.Logic.Function.Basic

/-!
# Files, their names and open handles

A name stands for a file or a directory. A handle goes on writing to its file whatever
becomes of the name, and two handles on one file have a cursor each. What one path names
is not touched by what happens to another.
-/

namespace Gemacast.Core

/-- What a path names. -/
inductive Entry
  | file (inode : ℕ)
  | directory
  deriving DecidableEq

/-- Files by name; every file has one name at most. -/
structure FileSystem where
  /-- What the paths name. -/
  entries : Table String Entry
  /-- The bytes of the files. -/
  contents : ℕ → List UInt8
  /-- The next file. -/
  next : ℕ
  /-- The next file has no name yet. -/
  fresh : ∀ path inode, entries.lookup path = some (.file inode) → inode < next
  /-- No file has two names. -/
  injective : ∀ path path' inode, entries.lookup path = some (.file inode) →
    entries.lookup path' = some (.file inode) → path = path'

namespace FileSystem

variable {fs fs' : FileSystem} {path path' : String} {inode : ℕ} {bytes chunk : List UInt8}

/-- No files. -/
def empty : FileSystem := ⟨∅, fun _ => [], 0, nofun, nofun⟩

/-- What a path names. -/
def entry (fs : FileSystem) (path : String) : Option Entry := fs.entries.lookup path

/-- The bytes of the file at a path. -/
def read (fs : FileSystem) (path : String) : Option (List UInt8) :=
  match fs.entry path with
  | some (.file inode) => some (fs.contents inode)
  | _ => none

/-- The bytes of a file after a write at a cursor; a gap before the cursor reads as zeros. -/
def overwrite (content : List UInt8) (cursor : ℕ) (chunk : List UInt8) : List UInt8 :=
  content.take cursor ++ List.replicate (cursor - content.length) 0 ++ chunk ++
    content.drop (cursor + chunk.length)

/-- A write at the end of a file appends. -/
theorem overwrite_length (content chunk : List UInt8) :
    overwrite content content.length chunk = content ++ chunk := by
  rw [overwrite, List.take_length, Nat.sub_self, List.replicate_zero, List.append_nil,
    List.drop_eq_nil_of_le (Nat.le_add_right _ _), List.append_nil]

/-- Write to a file. -/
def write (fs : FileSystem) (inode cursor : ℕ) (chunk : List UInt8) : FileSystem :=
  { fs with contents :=
      Function.update fs.contents inode (overwrite (fs.contents inode) cursor chunk) }

/-- Remove a name; what has the file open keeps it. -/
def remove (fs : FileSystem) (path : String) : FileSystem where
  entries := fs.entries.erase path
  contents := fs.contents
  next := fs.next
  fresh path' inode h := by
    rw [Table.lookup_erase_eq] at h
    split at h
    · cases h
    · exact fs.fresh path' inode h
  injective path' path'' inode h h' := by
    rw [Table.lookup_erase_eq] at h h'
    split at h
    · cases h
    · split at h'
      · cases h'
      · exact fs.injective path' path'' inode h h'

/-- Name a new file, empty. -/
def link (fs : FileSystem) (path : String) : FileSystem where
  entries := fs.entries.insert path (.file fs.next)
  contents := Function.update fs.contents fs.next []
  next := fs.next + 1
  fresh path' inode h := by
    rw [Table.lookup_insert_eq] at h
    split at h
    · obtain rfl := Entry.file.inj (Option.some.inj h)
      exact Nat.lt_succ_self _
    · exact Nat.lt_succ_of_lt (fs.fresh path' inode h)
  injective path' path'' inode h h' := by
    rw [Table.lookup_insert_eq] at h h'
    split at h <;> split at h'
    · next heq heq' => exact heq.trans heq'.symm
    · obtain rfl := Entry.file.inj (Option.some.inj h)
      exact absurd (fs.fresh path'' _ h') (lt_irrefl _)
    · obtain rfl := Entry.file.inj (Option.some.inj h')
      exact absurd (fs.fresh path' _ h) (lt_irrefl _)
    · exact fs.injective path' path'' inode h h'

/-- Open a file for writing: it is truncated, or made; a directory cannot be opened. -/
def create (fs : FileSystem) (path : String) : Option (FileSystem × ℕ) :=
  match fs.entry path with
  | some (.file inode) =>
    some ({ fs with contents := Function.update fs.contents inode [] }, inode)
  | some .directory => none
  | none => some (fs.link path, fs.next)

/-- Make a directory, unless the path names something. -/
def mkdir (fs : FileSystem) (path : String) : FileSystem :=
  match fs.entry path with
  | some _ => fs
  | none =>
    { fs with
      entries := fs.entries.insert path .directory
      fresh := by
        intro path' inode h
        rw [Table.lookup_insert_eq] at h
        split at h
        · cases h
        · exact fs.fresh path' inode h
      injective := by
        intro path' path'' inode h h'
        rw [Table.lookup_insert_eq] at h h'
        split at h
        · cases h
        · split at h'
          · cases h'
          · exact fs.injective path' path'' inode h h' }

/-! ### What the operations leave as it was -/

/-- The path names the same with the same bytes. -/
def SameAt (fs fs' : FileSystem) (path : String) : Prop :=
  fs'.entry path = fs.entry path ∧ fs'.read path = fs.read path

theorem SameAt.refl : SameAt fs fs path := ⟨rfl, rfl⟩

theorem SameAt.trans {fs'' : FileSystem} (h : SameAt fs fs' path) (h' : SameAt fs' fs'' path) :
    SameAt fs fs'' path :=
  ⟨h'.1.trans h.1, h'.2.trans h.2⟩

/-- A path under which only other files lie keeps its bytes. -/
theorem sameAt_of_contents (hentry : fs'.entry path = fs.entry path)
    (hcontents : ∀ inode, fs.entry path = some (.file inode) →
      fs'.contents inode = fs.contents inode) : SameAt fs fs' path := by
  refine ⟨hentry, ?_⟩
  unfold read
  rw [hentry]
  split
  · next inode hfile => rw [hcontents inode hfile]
  · rfl

/-- A write is seen under the name of the file only. -/
theorem sameAt_write (cursor : ℕ) (hne : fs.entry path' ≠ some (.file inode)) :
    SameAt fs (fs.write inode cursor chunk) path' := by
  refine sameAt_of_contents rfl fun inode' hfile => Function.update_of_ne ?_ _ _
  rintro rfl
  exact hne hfile

/-- Removing a name leaves the others. -/
theorem sameAt_remove (hne : path' ≠ path) : SameAt fs (fs.remove path) path' :=
  sameAt_of_contents (AList.lookup_erase_ne hne) fun _ _ => rfl

/-- Making a directory leaves what is there. -/
theorem sameAt_mkdir (hsome : (fs.entry path').isSome) : SameAt fs (fs.mkdir path) path' := by
  unfold mkdir
  split
  · exact .refl
  · next hnone =>
    refine sameAt_of_contents (AList.lookup_insert_ne ?_) fun _ _ => rfl
    rintro rfl
    rw [hnone] at hsome
    nomatch hsome

/-- Opening a file leaves the others. -/
theorem sameAt_create (h : fs.create path = some (fs', inode)) (hne : path' ≠ path) :
    SameAt fs fs' path' := by
  unfold create at h
  split at h
  · next inode' hfile =>
    obtain ⟨rfl, rfl⟩ := Prod.mk.inj (Option.some.inj h)
    refine sameAt_of_contents rfl fun other hother => Function.update_of_ne ?_ _ _
    rintro rfl
    exact hne (fs.injective path' path _ hother hfile)
  · cases h
  · obtain ⟨rfl, rfl⟩ := Prod.mk.inj (Option.some.inj h)
    refine sameAt_of_contents (AList.lookup_insert_ne hne) fun other hother =>
      Function.update_of_ne ?_ _ _
    exact Nat.ne_of_lt (fs.fresh path' other hother)

/-- A file opened is there and empty. -/
theorem entry_create (h : fs.create path = some (fs', inode)) :
    fs'.entry path = some (.file inode) ∧ fs'.contents inode = [] := by
  unfold create at h
  split at h
  · next inode' hfile =>
    obtain ⟨rfl, rfl⟩ := Prod.mk.inj (Option.some.inj h)
    exact ⟨hfile, Function.update_self ..⟩
  · cases h
  · obtain ⟨rfl, rfl⟩ := Prod.mk.inj (Option.some.inj h)
    exact ⟨AList.lookup_insert _, Function.update_self ..⟩

@[simp] theorem entry_write (cursor : ℕ) : (fs.write inode cursor chunk).entry = fs.entry := rfl

/-- What is written at the end of a file is appended. -/
theorem contents_write_length (hlength : (fs.contents inode).length = cursor) :
    (fs.write inode cursor chunk).contents inode = fs.contents inode ++ chunk := by
  subst hlength
  exact (Function.update_self ..).trans (overwrite_length _ _)

theorem read_of_entry (h : fs.entry path = some (.file inode)) :
    fs.read path = some (fs.contents inode) := by
  rw [read, h]

end FileSystem

end Gemacast.Core
