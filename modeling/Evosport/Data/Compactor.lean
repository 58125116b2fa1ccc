/-
The window compactor of the book recordings (`services/external_data/parquet_compactor.py`).

A window directory holds loose source files (parts that the live sink writes and legacy files of
single tokens), one bundle for each kind, and a manifest with the rows and the tokens of each
bundle.  `compact_window_dir` merges the sources into the bundle, replaces the manifest and then
deletes the sources; where the bundle agrees with the manifest it only deletes the sources.

A file is the multiset of its rows, replaced or read as a whole.  Every event is one operation on
the file system, so that writes fall between any two steps of a pass and a crash may end a pass
after each of them.  Kept beside the files are the rows ever written and, for each bundle, the
loose files that it was merged from and that are still there.
-/
import Evosport.Lib.Run
import Mathlib.Algebra.BigOperators.Group.Multiset.Basic
import Mathlib.Data.Multiset.Filter
import Mathlib.Data.Finset.Insert
import Mathlib.Data.Multiset.AddSub
import Mathlib.Logic.Function.Basic

namespace Evosport.Data

/-- `_KINDS` -/
inductive Kind where
  | snapshots
  | deltas
  deriving DecidableEq, Repr

/-- The name of a loose source file: `{kind}__part-{seq}.parquet`, or the legacy
`{kind}__{token}.parquet`. -/
inductive SourceName where
  | part (seq : ℕ)
  | legacy (token : String)
  deriving DecidableEq, Repr

/-- Whether the name is that of a part file; the other files are from before parts were numbered. -/
def SourceName.isPart : SourceName → Bool
  | .part _ => true
  | .legacy _ => false

/-- The entry of a kind in the manifest: how many rows its bundle had when it was verified, and of
which tokens. -/
structure ManifestEntry where
  rows : ℕ
  tokens : Finset String
  deriving DecidableEq

/-- A loose file of a window with its rows; their order inside the file does not matter here. -/
structure SourceFile (R : Type) where
  name : SourceName
  rows : Multiset R

/-- The files of one kind in a window: the bundle, the loose sources, and the next number of a
part.  Two ghosts, which nothing reads, say which sources the bundle has absorbed and what was
written. -/
structure KindFiles (R : Type) where
  bundle : Option (Multiset R)
  sources : List (SourceFile R)
  /-- The part sequence that the sink remembers, 0 for none. -/
  partSeq : ℕ
  /-- The sources that the bundle was merged from. -/
  absorbed : List SourceName
  /-- All rows ever written. -/
  written : Multiset R

section Tokens

variable {R : Type} (token : R → Option String)

/-- `_token_values` -/
def tokenValues (rows : Multiset R) : Finset String := (rows.filterMap token).toFinset

end Tokens

namespace KindFiles

variable {R : Type}

/-- No file of the kind in the window: no bundle, no loose files and no pass over them. -/
def empty : KindFiles R := ⟨none, [], 0, [], 0⟩

/-- The names of the loose files. -/
def names (k : KindFiles R) : List SourceName := k.sources.map SourceFile.name

/-- The rows of the bundle. -/
def bundleRows (k : KindFiles R) : Multiset R := k.bundle.getD 0

/-- The rows of the sources that meet a condition. -/
def sourceRows (k : KindFiles R) (p : SourceName → Bool) : Multiset R :=
  ((k.sources.filter fun f => p f.name).map SourceFile.rows).sum

/-- All rows stored in the bundle and the sources. -/
def stored (k : KindFiles R) : Multiset R := k.bundleRows + k.sourceRows fun _ => true

/-- One name of `_next_part_sequence`. -/
def seqAfter (next : ℕ) : SourceName → ℕ
  | .part seq => max next (seq + 1)
  | .legacy _ => next

/-- `_next_part_sequence` -/
def nextPartSequence (k : KindFiles R) : ℕ := k.names.foldl seqAfter 0

/-- `_write_part` -/
def writePart (k : KindFiles R) (rows : Multiset R) : KindFiles R :=
  let seq := if k.partSeq = 0 then k.nextPartSequence else k.partSeq
  { k with
    sources := k.sources ++ [⟨.part seq, rows⟩], partSeq := seq + 1, written := k.written + rows }

/-- A legacy file is imported, under a name that is free. -/
def importLegacy (k : KindFiles R) (tok : String) (rows : Multiset R) : KindFiles R :=
  if .legacy tok ∈ k.names then k
  else { k with sources := k.sources ++ [⟨.legacy tok, rows⟩], written := k.written + rows }

/-- A source is unlinked. -/
def unlink (k : KindFiles R) (name : SourceName) : KindFiles R :=
  { k with
    sources := k.sources.filter fun f => f.name ≠ name
    absorbed := k.absorbed.filter (· ≠ name) }

/-- The bundle is replaced by one that was merged from `names`. -/
def replaceBundle (k : KindFiles R) (rows : Multiset R) (names : List SourceName) : KindFiles R :=
  { k with bundle := some rows, absorbed := names }

/-- `_write_legacy_bundle_stream`: the rows of the legacy files -/
def streamRows (k : KindFiles R) : Multiset R := k.sourceRows fun name => !name.isPart

/-- The tables of the sources, with the existing bundle first, concatenated. -/
def mergedRows (k : KindFiles R) : Multiset R := k.bundleRows + k.sourceRows fun _ => true

/-- There are parts among the sources. -/
def hasParts (k : KindFiles R) : Bool := k.names.any SourceName.isPart

/-- What the new bundle is made of: a stream of the legacy files where there is nothing else. -/
def compactedRows (k : KindFiles R) : Multiset R :=
  if !k.hasParts && k.bundle.isNone then k.streamRows else k.mergedRows

/-- `_verified_bundle_from_manifest` -/
def verified (token : R → Option String) (k : KindFiles R) (entry : Option ManifestEntry) : Bool :=
  match entry, k.bundle with
  | some e, some rows => rows.card == e.rows && tokenValues token rows == e.tokens
  | _, _ => false

end KindFiles

/-! ## One pass -/

/-- Where a pass is: it looks at a kind, removes sources that the bundle has, has merged them into a
bundle, or deletes what it has merged. -/
inductive CompactStage (R : Type) where
  /-- It goes on to the next kind, or to the manifest. -/
  | look
  /-- It deletes the sources of a kind whose bundle is verified. -/
  | cleanup (kind : Kind) (names : List SourceName)
  /-- It has merged the sources of a kind and is about to replace the bundle. -/
  | merged (kind : Kind) (rows : Multiset R) (names : List SourceName)
  /-- The manifest is in place; it deletes the merged sources. -/
  | delete (names : List (Kind × SourceName))

/-- A pass of `compact_window_dir` in place, with `delete_sources`: the manifest it has read, the
kinds still to do, and what it will write and delete. -/
structure Compaction (R : Type) where
  manifest : Kind → Option ManifestEntry
  /-- The kinds that are still to come. -/
  kinds : List Kind
  stage : CompactStage R
  /-- `kinds_compacted` is not empty. -/
  compacted : Bool
  sourcesToDelete : List (Kind × SourceName)
  /-- Something was written since the pass began. -/
  overlapped : Bool

/-- A window directory and the pass over it, if there is one: the files of each kind, and the
manifest. -/
structure Window (R : Type) where
  files : Kind → KindFiles R
  manifest : Kind → Option ManifestEntry
  pass : Option (Compaction R)

/-- What happens next in a window: the sink writes a part, a file of the old layout is imported, the
sink forgets its numbers, or a pass starts, goes on or dies. -/
inductive WindowEvent (R : Type) where
  | writePart (kind : Kind) (rows : Multiset R)
  | importLegacy (kind : Kind) (token : String) (rows : Multiset R)
  /-- The sink restarts, or drops the key of the window. -/
  | forgetSequence (kind : Kind)
  | start
  /-- The next step of the pass. -/
  | advance
  | crash

namespace Window

variable {R : Type}

/-- A window in which nothing was recorded, which no pass has visited. -/
def empty : Window R := ⟨fun _ => .empty, fun _ => none, none⟩

/-- Change the files of one kind. -/
def modify (w : Window R) (kind : Kind) (f : KindFiles R → KindFiles R) : Window R :=
  { w with files := Function.update w.files kind (f (w.files kind)) }

/-- A write; a pass that is under way is overlapped by it. -/
def write (w : Window R) (kind : Kind) (f : KindFiles R → KindFiles R) : Window R :=
  { w.modify kind f with pass := w.pass.map fun p => { p with overlapped := true } }

/-- The window with a compaction of it under way. -/
def withPass (w : Window R) (p : Compaction R) : Window R := { w with pass := some p }

section Step

variable (token : R → Option String)

/-- The manifest entry of a bundle that was just written. -/
def entryOf (rows : Multiset R) : ManifestEntry := ⟨rows.card, tokenValues token rows⟩

/-- A pass looks at one kind. -/
def lookAt (w : Window R) (p : Compaction R) (kind : Kind) (rest : List Kind) : Compaction R :=
  let k := w.files kind
  if k.sources.isEmpty then { p with kinds := rest }
  else if k.verified token (p.manifest kind) then
    { p with kinds := rest, stage := .cleanup kind k.names }
  else { p with kinds := rest, stage := .merged kind k.compactedRows k.names }

/-- One step of a pass, a single file operation: it looks at the next kind, unlinks a file, or moves
a bundle into place.  The manifest is written after all kinds, and only then are the merged sources
deleted. -/
def advancePass (w : Window R) (p : Compaction R) : Window R :=
  match p.stage with
  | .look =>
    match p.kinds with
    | kind :: rest => w.withPass (lookAt token w p kind rest)
    | [] =>
      if p.compacted then
        { w with manifest := p.manifest, pass := some { p with stage := .delete p.sourcesToDelete } }
      else { w with pass := none }
  | .cleanup kind (name :: names) =>
    (w.modify kind (·.unlink name)).withPass { p with stage := .cleanup kind names }
  | .cleanup _ [] => w.withPass { p with stage := .look }
  | .merged kind rows names =>
    (w.modify kind (·.replaceBundle rows names)).withPass
      { p with
        manifest := Function.update p.manifest kind (some (entryOf token rows))
        stage := .look
        compacted := true
        sourcesToDelete := p.sourcesToDelete ++ names.map fun name => (kind, name) }
  | .delete ((kind, name) :: names) =>
    (w.modify kind (·.unlink name)).withPass { p with stage := .delete names }
  | .delete [] => { w with pass := none }

/-- A pass begins by reading the manifest. -/
def startPass (w : Window R) : Window R :=
  match w.pass with
  | some _ => w
  | none => w.withPass ⟨w.manifest, [.snapshots, .deltas], .look, false, [], false⟩

/-- One event. -/
def step (w : Window R) : WindowEvent R → Window R
  | .writePart kind rows => w.write kind (·.writePart rows)
  | .importLegacy kind tok rows => w.write kind (·.importLegacy tok rows)
  | .forgetSequence kind => w.modify kind fun k => { k with partSeq := 0 }
  | .start => w.startPass
  | .advance =>
    match w.pass with
    | some p => w.advancePass token p
    | none => w
  | .crash => { w with pass := none }

end Step

/-- The event ends a pass that nothing written has overlapped. -/
def Returns (w : Window R) (e : WindowEvent R) : Prop :=
  match w.pass, e with
  | some p, .advance => p.overlapped = false ∧
    match p.stage with
    | .look => p.kinds = [] ∧ p.compacted = false
    | .delete names => names = []
    | _ => False
  | _, _ => False

end Window

end Evosport.Data
