/-
A tree of directories and files, as a POSIX file system shows it.

A directory lists each name once; what a name stands for is a regular file, a directory, a symbolic
link or something else, and of each the status call tells the mode.  Two trees are the same
(`Same`) where every path leads to the same kind of entry, with the same bytes and write permission.

The process may do with its own entries what it likes, whatever their modes.  An operation returns
nothing where the system refuses it.
-/
import Evosport.Lib.Dict

namespace Lib

/-- What a name of a directory stands for: a file with its mode and bytes, a directory with its
entries, a symbolic link, or anything else. -/
inductive FileTree where
  | file (mode : ℕ) (bytes : ByteArray)
  | dir (mode : ℕ) (entries : List (String × FileTree))
  | link (target : String)
  | special (mode : ℕ)

namespace FileTree

/-- The kinds of entries. -/
inductive Kind where
  | file
  | dir
  | link
  | special
  deriving DecidableEq, Repr

/-- The kind of an entry. -/
def kind : FileTree → Kind
  | file _ _ => .file
  | dir _ _ => .dir
  | link _ => .link
  | special _ => .special

/-- The permission bits of an entry; a link has all of them. -/
def mode : FileTree → ℕ
  | file mode _ => mode
  | dir mode _ => mode
  | link _ => 0o777
  | special mode => mode

/-- Somebody may write. -/
def writable (t : FileTree) : Bool := t.mode &&& 0o222 != 0

/-- The bytes of a regular file. -/
def bytes? : FileTree → Option ByteArray
  | file _ bytes => some bytes
  | _ => none

/-- The entry `name` of a directory. -/
def child? : FileTree → String → Option FileTree
  | dir _ entries, name => Dict.lookup name entries
  | _, _ => none

/-- The entry at the end of a path. -/
def at? (t : FileTree) : List String → Option FileTree
  | [] => some t
  | name :: path => (t.child? name).bind fun c => c.at? path

/-- What `iterdir` lists. -/
def iterdir : FileTree → Option (List (String × FileTree))
  | dir _ entries => some entries
  | _ => none

/-! ## Changing a tree -/

section Operations

variable (canHold : String → Bool) (umask : ℕ)

/-- The mode of a file that is created. -/
def fileMode : ℕ := (0o666 &&& umask) ^^^ 0o666

/-- The mode of a directory that is made. -/
def dirMode : ℕ := (0o777 &&& umask) ^^^ 0o777

/-- Write a file, after making the directories above it that are not there.  `canHold` tells which
names the file system takes. -/
def write (content : ByteArray) : List String → FileTree → Option FileTree
  | [name], dir mode entries =>
    if canHold name then
      match Dict.lookup name entries with
      | none => some (dir mode (Dict.write name (file (fileMode umask) content) entries))
      | some (file mode' _) => some (dir mode (Dict.write name (file mode' content) entries))
      | some _ => none
    else none
  | name :: path, dir mode entries =>
    if canHold name then
      (write content path ((Dict.lookup name entries).getD (dir (dirMode umask) []))).map fun c =>
        dir mode (Dict.write name c entries)
    else none
  | _, _ => none

end Operations

/-- The same entry with another mode. -/
def setMode (mode : ℕ) : FileTree → FileTree
  | file _ bytes => file mode bytes
  | dir _ entries => dir mode entries
  | link target => link target
  | special _ => special mode

/-- Change the mode of what is at the end of a path. -/
def chmod (mode' : ℕ) : List String → FileTree → Option FileTree
  | [], t => some (t.setMode mode')
  | name :: path, dir mode entries =>
    (Dict.lookup name entries).bind fun c =>
      (chmod mode' path c).map fun c' => dir mode (Dict.write name c' entries)
  | _ :: _, _ => none

/-- Take away what is at the end of a path. -/
def remove : List String → FileTree → Option FileTree
  | [name], dir mode entries =>
    (Dict.lookup name entries).map fun _ => dir mode (entries.filter fun e => e.1 ≠ name)
  | name :: path, dir mode entries =>
    (Dict.lookup name entries).bind fun c =>
      (remove path c).map fun c' => dir mode (Dict.write name c' entries)
  | _, _ => none

/-! ## The same tree -/

/-- What matters of an entry, whatever is below it. -/
structure Look where
  kind : Kind
  writable : Bool
  bytes? : Option ByteArray

/-- What is compared of an entry, apart from what is below it. -/
def look (t : FileTree) : Look := ⟨t.kind, t.writable, t.bytes?⟩

/-- The two trees have the same paths, and at each the same kind of entry, with the same bytes if
it is a file, and the same write permission. -/
def Same (t u : FileTree) : Prop := ∀ path, (t.at? path).map look = (u.at? path).map look

namespace Same

variable {t u v : FileTree}

/-- Trees are compared entry by entry. -/
lemma of_children (hlook : t.look = u.look)
    (hnames : ∀ name, t.child? name = none ↔ u.child? name = none)
    (h : ∀ name c d, t.child? name = some c → u.child? name = some d → Same c d) : Same t u := by
  intro path
  cases path with
  | nil => simpa [at?] using hlook
  | cons name path =>
    cases hc : t.child? name with
    | none => simp [at?, hc, (hnames name).1 hc]
    | some c =>
      cases hd : u.child? name with
      | none => simp [(hnames name).2 hd] at hc
      | some d => simpa [at?, hc, hd] using h name c d hc hd path

/-- In trees that are the same, a name stands for the same bytes. -/
lemma bytes_child? (h : Same t u) (name : String) :
    (t.child? name).bind bytes? = (u.child? name).bind bytes? := by
  have hlook := h [name]
  simp only [at?] at hlook
  cases hc : t.child? name <;> cases hd : u.child? name <;> simp_all [look]

/-- Two files are the same where their bytes and permissions are. -/
lemma of_file {mode mode' : ℕ} {bytes : ByteArray}
    (h : (file mode bytes).writable = (file mode' bytes).writable) :
    Same (file mode bytes) (file mode' bytes) := by
  refine of_children ?_ (fun name => Iff.rfl) fun name c d hc => ?_
  · simp [look, kind, bytes?, h]
  · simp [child?] at hc

end Same

/-- A file of a directory can be written over, and then has the new bytes. -/
lemma exists_write_of_file (canHold : String → Bool) (umask : ℕ) {mode : ℕ} {t : FileTree}
    {name : String} {bytes : ByteArray} (hname : canHold name = true)
    (hfile : t.child? name = some (file mode bytes)) (content : ByteArray) :
    ∃ u, t.write canHold umask content [name] = some u ∧
      (u.child? name).bind bytes? = some content := by
  cases t with
  | dir mode' entries =>
    have hlookup : Dict.lookup name entries = some (file mode bytes) := hfile
    refine ⟨dir mode' (Dict.write name (file mode content) entries), ?_, ?_⟩
    · simp [write, hname, hlookup]
    · show (Dict.lookup name (Dict.write name _ entries)).bind bytes? = some content
      rw [Dict.lookup_write, if_pos rfl]
      rfl
  | file _ _ | link _ | special _ => cases hfile

end FileTree

end Lib
