/-
A folder of files and of folders of files, with the operations that a file system makes atomic.

A file carries what a status call tells of it: its inode, its mode and the times of its last
changes. Creating a file exclusively and making a folder fail where the name is taken, and a folder
is renamed onto an absent or an empty one.  Each operation comes with what it leaves alone.
-/
import Evosport.Lib.Dict

namespace Lib

/-- A regular file: its bytes, its mode, and what `stat` tells of its identity and of its last
changes. -/
structure File where
  bytes : ByteArray
  mode : ℕ
  ino : ℕ
  mtime : ℕ
  ctime : ℕ

instance : DecidableEq File := fun f g =>
  decidable_of_iff (f.bytes.data = g.bytes.data ∧ f.mode = g.mode ∧ f.ino = g.ino ∧
    f.mtime = g.mtime ∧ f.ctime = g.ctime) (by
    obtain ⟨⟨bytes⟩, mode, ino, mtime, ctime⟩ := f
    obtain ⟨⟨bytes'⟩, mode', ino', mtime', ctime'⟩ := g
    simp)

/-- What a name of a folder stands for. -/
inductive Node where
  | file (f : File)
  | folder (files : Dict String File)
  deriving DecidableEq

/-- A folder, by the names in it. -/
abbrev Folder := Dict String Node

namespace File

/-- A file that is created now. -/
def new (mode now : ℕ) : File := ⟨ByteArray.empty, mode, now, now, now⟩

/-- The file that is there is emptied, or a new one is created. -/
def truncate (f : Option File) (mode now : ℕ) : File :=
  match f with
  | some f => { f with bytes := ByteArray.empty, mtime := now, ctime := now }
  | none => new mode now

/-- Write a chunk at the end of a file. -/
def append (f : File) (chunk : ByteArray) (now : ℕ) : File :=
  { f with bytes := f.bytes ++ chunk, mtime := now, ctime := now }

/-- Change the permission bits of a file; its content keeps its time. -/
def chmod (f : File) (mode now : ℕ) : File := { f with mode := mode, ctime := now }

end File

namespace Folder

/-- The files of the folder `name`. -/
def filesOf (d : Folder) (name : String) : Option (Dict String File) :=
  match d.get? name with
  | some (.folder files) => some files
  | _ => none

/-- The file `file` of the folder `name`. -/
def fileIn (d : Folder) (name file : String) : Option File :=
  (d.filesOf name).bind fun files => files.get? file

/-- Create the file `name`, which must not exist. -/
def createExclusive (d : Folder) (name : String) (mode now : ℕ) : Option Folder :=
  match d.get? name with
  | some _ => none
  | none => some (d.set name (.file (File.new mode now)))

/-- Make the folder `name`, which must not exist. -/
def mkdir (d : Folder) (name : String) : Option Folder :=
  match d.get? name with
  | some _ => none
  | none => some (d.set name (.folder Dict.empty))

/-- Open the file `file` of the folder `name` for writing; what was in it is lost. -/
def createIn (d : Folder) (name file : String) (mode now : ℕ) : Option Folder :=
  (d.filesOf name).map fun files =>
    d.set name (.folder (files.set file (File.truncate (files.get? file) mode now)))

/-- Change the file `file` of the folder `name`. -/
def modifyIn (d : Folder) (name file : String) (change : File → File) : Option Folder :=
  (d.filesOf name).bind fun files =>
    (files.get? file).map fun f => d.set name (.folder (files.set file (change f)))

/-- Rename the folder `src` to `dst`, which must be absent or an empty folder. -/
def rename (d : Folder) (src dst : String) : Option Folder :=
  match d.get? src with
  | some (.folder files) =>
    if src = dst then some d
    else
      match d.get? dst with
      | none => some ((d.erase src).set dst (.folder files))
      | some (.folder old) =>
        if old.entries = [] then some ((d.erase src).set dst (.folder files)) else none
      | some (.file _) => none
  | _ => none

/-- Delete the oldest file of the folder `name`, or the folder where it has none. -/
def removeOne (d : Folder) (name : String) : Folder :=
  match d.filesOf name with
  | none => d
  | some files =>
    match files.entries with
    | [] => d.erase name
    | e :: _ => d.set name (.folder (files.erase e.1))

variable {d d' : Folder} {name other file src dst : String} {mode now : ℕ}

lemma filesOf_eq_some {files : Dict String File} :
    d.filesOf name = some files ↔ d.get? name = some (.folder files) := by
  unfold filesOf
  cases d.get? name with
  | none => simp
  | some n => cases n <;> simp

lemma createExclusive_eq_some :
    d.createExclusive name mode now = some d' ↔
      d.get? name = none ∧ d' = d.set name (.file (File.new mode now)) := by
  unfold createExclusive
  split
  · next h => simp [h]
  · next h => simp [h, eq_comm]

lemma mkdir_eq_some :
    d.mkdir name = some d' ↔ d.get? name = none ∧ d' = d.set name (.folder Dict.empty) := by
  unfold mkdir
  split
  · next h => simp [h]
  · next h => simp [h, eq_comm]

/-- Opening a file for writing changes its folder alone. -/
lemma createIn_eq_some :
    d.createIn name file mode now = some d' ↔
      ∃ files, d.get? name = some (.folder files) ∧
        d' = d.set name (.folder (files.set file (File.truncate (files.get? file) mode now))) := by
  rw [createIn, Option.map_eq_some_iff]
  constructor
  · rintro ⟨files, hfiles, rfl⟩
    exact ⟨files, filesOf_eq_some.1 hfiles, rfl⟩
  · rintro ⟨files, hfiles, rfl⟩
    exact ⟨files, filesOf_eq_some.2 hfiles, rfl⟩

/-- Changing a file changes its folder alone. -/
lemma modifyIn_eq_some {change : File → File} :
    d.modifyIn name file change = some d' ↔
      ∃ files f, d.get? name = some (.folder files) ∧ files.get? file = some f ∧
        d' = d.set name (.folder (files.set file (change f))) := by
  rw [modifyIn, Option.bind_eq_some_iff]
  constructor
  · rintro ⟨files, hfiles, h⟩
    obtain ⟨f, hf, rfl⟩ := Option.map_eq_some_iff.1 h
    exact ⟨files, f, filesOf_eq_some.1 hfiles, hf, rfl⟩
  · rintro ⟨files, f, hfiles, hf, rfl⟩
    exact ⟨files, filesOf_eq_some.2 hfiles, by rw [hf]; rfl⟩

/-- A folder is renamed onto nothing or onto an empty one. -/
lemma rename_eq_some (hne : src ≠ dst) :
    d.rename src dst = some d' ↔
      ∃ files, d.get? src = some (.folder files) ∧
        (d.get? dst = none ∨ ∃ old, d.get? dst = some (.folder old) ∧ old.entries = []) ∧
        d' = (d.erase src).set dst (.folder files) := by
  unfold rename
  constructor
  · intro h
    split at h
    · next files hsrc =>
      rw [if_neg hne] at h
      refine ⟨files, hsrc, ?_⟩
      split at h
      · next hdst => exact ⟨.inl hdst, (Option.some.inj h).symm⟩
      · next old hdst =>
        split at h
        · next hempty => exact ⟨.inr ⟨old, hdst, hempty⟩, (Option.some.inj h).symm⟩
        · cases h
      · cases h
    · cases h
  · rintro ⟨files, hsrc, hdst | ⟨old, hdst, hempty⟩, rfl⟩
    · simp [hsrc, hdst, hne]
    · simp [hsrc, hdst, hempty, hne]

/-- Deleting in a folder leaves the others alone. -/
lemma get?_removeOne_of_ne (h : name ≠ other) : (d.removeOne name).get? other = d.get? other := by
  unfold removeOne
  split
  · rfl
  · split
    · exact d.get?_erase_of_ne h
    · exact d.get?_set_of_ne _ h

end Folder

end Lib
