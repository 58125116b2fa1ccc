/-
What the loops of the two pruners delete, from the files they start with.

The age cap of a topic takes the parquet files of its expired date partitions; a size cap takes the
oldest files that make up the excess (`shed`); the global cap takes the head of the largest backlog,
time after time.  The book pruner takes the windows past their retention, then the oldest ones that
make up the excess, then the oldest ones until enough of the disk is free.  Each loop is described
without its running state, for any files, also such that cannot be deleted, and for topics that
share directories.
-/
import Evosport.Data.Pruners
import Evosport.Lib.Shed
import Mathlib.Data.List.Dedup
import Mathlib.Data.List.Infix

namespace Evosport.Data

open Lib

/-! ## The pruner of the recorded event bus -/

namespace Disk

/-- Delete files one by one. -/
def unlinkAll (d : Disk) (fs : List DiskFile) (dir : Option String) : Disk :=
  fs.foldl (fun d f => d.unlink f dir) d

/-- The files that are not at the path of one of `taken`. -/
def without (files taken : List DiskFile) : List DiskFile :=
  files.filter fun f => f.parts ∉ taken.map DiskFile.parts

section Without

variable {d : Disk} {files taken taken' : List DiskFile} {dir : Option String}

lemma without_nil (files : List DiskFile) : without files [] = files := by
  simp [without]

lemma without_append : without files (taken ++ taken') = without (without files taken) taken' := by
  rw [without, without, without, List.filter_filter]
  refine List.filter_congr fun f _ => ?_
  rw [Bool.eq_iff_iff, Bool.and_eq_true, decide_eq_true_iff, decide_eq_true_iff,
    decide_eq_true_iff, List.map_append, List.mem_append, not_or, and_comm]

lemma unlinkAll_eq (d : Disk) (fs : List DiskFile) (dir : Option String) :
    d.unlinkAll fs dir =
      ⟨without d.files fs, d.deleted ++ fs.map fun f => ⟨pathOf f.parts, dir⟩⟩ := by
  induction fs generalizing d with
  | nil => simp [unlinkAll, without_nil]
  | cons f fs ih =>
    have hfirst : (d.unlink f dir).files = without d.files [f] := by simp [unlink, without]
    rw [unlinkAll, List.foldl_cons]
    refine (ih (d.unlink f dir)).trans ?_
    rw [hfirst, ← without_append]
    simp [unlink]

end Without

lemma isParquet_congr {f g : DiskFile} (h : f.parts = g.parts) : isParquet f = isParquet g := by
  rw [isParquet, isParquet, h]

lemma isUnder_congr {uri : List String} {f g : DiskFile} (h : f.parts = g.parts) :
    isUnder uri f = isUnder uri g := by
  rw [isUnder, isUnder, h]

lemma mem_parquetUnder {d : Disk} {uri : List String} {f : DiskFile} :
    f ∈ d.parquetUnder uri ↔ f ∈ d.files ∧ isUnder uri f = true ∧ isParquet f = true := by
  rw [parquetUnder, List.mem_filter, Bool.and_eq_true]

/-! ### The age cap -/

section Age

variable {parseDate : String → Option ℤ} {cutoff days : ℤ} {now : ℚ} {uri dir : List String}
  {d : Disk} {p : Pruned} {f : DiskFile}

/-- The file lies in a date partition from before the cutoff. -/
def expired (parseDate : String → Option ℤ) (cutoff : ℤ) (uri : List String) (f : DiskFile) :
    Bool :=
  match dateDirOf uri f with
  | some (_, date) =>
    match parseDate date with
    | some day => decide (day < cutoff)
    | none => false
  | none => false

/-- The files that the age cap deletes. -/
def expiredFiles (parseDate : String → Option ℤ) (cutoff : ℤ) (uri : List String)
    (files : List DiskFile) : List DiskFile :=
  files.filter fun f => expired parseDate cutoff uri f && isParquet f && !f.locked

/-- The partition of a file of a topic. -/
lemma dateDirOf_eq_some {part : List String} {date : String}
    (h : dateDirOf uri f = some (part, date)) : ∃ entity, part = uri ++ [entity, date] := by
  rw [dateDirOf] at h
  split at h
  · split at h
    · next entity date' _ _ _ =>
      obtain ⟨rfl, rfl⟩ := Prod.mk.inj (Option.some.inj h)
      exact ⟨entity, rfl⟩
    · cases h
  · cases h

/-- A file below a date partition is one of that partition. -/
lemma dateDirOf_of_isUnder {part : List String} {date : String} {f g : DiskFile}
    (hg : dateDirOf uri g = some (part, date)) :
    isUnder part f = true ↔ dateDirOf uri f = some (part, date) := by
  obtain ⟨entity, rfl⟩ := dateDirOf_eq_some hg
  constructor
  · intro hf
    obtain ⟨hstart, hlength⟩ := (Bool.and_eq_true _ _).mp hf
    obtain ⟨rest, hrest⟩ := List.isPrefixOf_iff_prefix.1 hstart
    cases rest with
    | nil => simp [← hrest] at hlength
    | cons name rest =>
      have hunder : isUnder uri f = true := by
        simp [isUnder, ← hrest, List.append_assoc]
      have hdrop : f.parts.drop uri.length = entity :: date :: name :: rest := by
        simp [← hrest, List.append_assoc]
      rw [dateDirOf, if_pos hunder, hdrop]
  · intro hf
    rw [dateDirOf] at hf
    split at hf
    · next hunder =>
      split at hf
      · next entity' date' name rest hdrop =>
        obtain ⟨hstart, -⟩ := (Bool.and_eq_true _ _).mp hunder
        obtain ⟨tail, htail⟩ := List.isPrefixOf_iff_prefix.1 hstart
        rw [← htail, List.drop_left] at hdrop
        have hparts := (Prod.mk.inj (Option.some.inj hf)).1
        rw [← hparts, isUnder, ← htail, hdrop]
        simp
      · cases hf
    · cases hf

lemma mem_listPartitionDirs : dir ∈ d.listPartitionDirsOlderThan parseDate uri cutoff ↔
    ∃ f ∈ d.files, expired parseDate cutoff uri f = true ∧ ∃ date,
      dateDirOf uri f = some (dir, date) := by
  rw [listPartitionDirsOlderThan, List.mem_dedup, List.mem_map]
  constructor
  · rintro ⟨⟨dir, date⟩, hdate, rfl⟩
    obtain ⟨hpart, hday⟩ := List.mem_filter.1 hdate
    obtain ⟨f, hf, hdir⟩ := List.mem_filterMap.1 hpart
    exact ⟨f, hf, by rw [expired, hdir]; exact hday, date, hdir⟩
  · rintro ⟨f, hf, hexpired, date, hdir⟩
    rw [expired, hdir] at hexpired
    exact ⟨(dir, date), List.mem_filter.2 ⟨List.mem_filterMap.2 ⟨f, hf, hdir⟩, hexpired⟩, rfl⟩

/-- What lies below an expired partition is what has expired. -/
lemma any_isUnder_listPartitionDirs (hf : f ∈ d.files) :
    (d.listPartitionDirsOlderThan parseDate uri cutoff).any (isUnder · f) =
      expired parseDate cutoff uri f := by
  rw [Bool.eq_iff_iff, List.any_eq_true]
  constructor
  · rintro ⟨dir, hdir, hunder⟩
    obtain ⟨g, -, hexpired, date, hg⟩ := mem_listPartitionDirs.1 hdir
    rw [expired, hg] at hexpired
    rw [expired, (dateDirOf_of_isUnder hg).1 hunder]
    exact hexpired
  · intro hexpired
    have hsome : ∃ e, dateDirOf uri f = some e := by
      rw [expired] at hexpired
      split at hexpired
      · next part date hpart => exact ⟨_, hpart⟩
      · cases hexpired
    obtain ⟨⟨part, date⟩, hpart⟩ := hsome
    exact ⟨part, mem_listPartitionDirs.2 ⟨f, hf, hexpired, date, hpart⟩,
      (dateDirOf_of_isUnder hpart).2 hpart⟩

lemma disk_deleteDirSafely (p : Pruned) (dir : List String) :
    (deleteDirSafely p dir).disk =
      p.disk.unlinkAll ((p.disk.parquetUnder dir).filter fun f => !f.locked) (some (pathOf dir)) := by
  have hfold : ∀ (fs : List DiskFile) (q : Pruned), (fs.foldl (deleteFile dir) q).disk =
      q.disk.unlinkAll (fs.filter fun f => !f.locked) (some (pathOf dir)) := by
    intro fs
    induction fs with
    | nil => exact fun _ => rfl
    | cons f fs ih =>
      intro q
      rw [List.foldl_cons, ih]
      cases hf : f.locked with
      | true => rw [List.filter_cons_of_neg (by simp [hf]), deleteFile, if_pos hf]
      | false =>
        rw [List.filter_cons_of_pos (by simp [hf]), deleteFile, if_neg (by simp [hf]), unlinkAll,
          unlinkAll, List.foldl_cons]
  exact hfold _ p

/-- Directories of one depth have no file in common. -/
lemma eq_of_isUnder {dir dir' : List String} (hlength : dir.length = dir'.length)
    (h : isUnder dir f = true) (h' : isUnder dir' f = true) : dir = dir' := by
  rw [isUnder, Bool.and_eq_true, List.isPrefixOf_iff_prefix] at h h'
  exact (List.prefix_of_prefix_length_le h.1 h'.1 hlength.le).eq_of_length hlength

/-- What the deletion of several directories of one depth takes and leaves. -/
lemma foldl_deleteDirSafely {n : ℕ} {dirs : List (List String)}
    (hlength : ∀ dir ∈ dirs, dir.length = n) (hnodup : dirs.Nodup) (p : Pruned) :
    (dirs.foldl deleteDirSafely p).disk.files = without p.disk.files
        (p.disk.files.filter fun f => dirs.any (isUnder · f) && isParquet f && !f.locked) ∧
      ∀ x, x ∈ (dirs.foldl deleteDirSafely p).disk.deleted ↔ x ∈ p.disk.deleted ∨
        ∃ dir ∈ dirs, ∃ f ∈ p.disk.parquetUnder dir, f.locked = false ∧
          x = ⟨pathOf f.parts, some (pathOf dir)⟩ := by
  induction dirs generalizing p with
  | nil => simp [without_nil]
  | cons dir dirs ih =>
    obtain ⟨hdir, hdirs⟩ := List.forall_mem_cons.1 hlength
    obtain ⟨hnew, hnodup⟩ := List.nodup_cons.1 hnodup
    obtain ⟨hfiles, hdeleted⟩ := ih hdirs hnodup (deleteDirSafely p dir)
    have hdisk := disk_deleteDirSafely p dir
    rw [unlinkAll_eq] at hdisk
    -- the files below the other directories are still there
    have hstays : ∀ dir' ∈ dirs, ∀ f, f ∈ (deleteDirSafely p dir).disk.parquetUnder dir' ↔
        f ∈ p.disk.parquetUnder dir' := by
      intro dir' hdir' f
      rw [mem_parquetUnder, mem_parquetUnder, hdisk, without, List.mem_filter]
      refine and_congr_left fun hf => and_iff_left_of_imp fun _ => decide_eq_true fun hmem => ?_
      obtain ⟨g, hg, hparts⟩ := List.mem_map.1 hmem
      have hunder := (mem_parquetUnder.1 (List.mem_filter.1 hg).1).2.1
      rw [isUnder_congr hparts] at hunder
      exact hnew (eq_of_isUnder (hdir.trans (hdirs dir' hdir').symm) hunder hf.1 ▸ hdir')
    rw [hdisk] at hfiles hdeleted hstays
    refine ⟨?_, fun x => ?_⟩
    · rw [List.foldl_cons, hfiles, ← without_append, without, without]
      refine List.filter_congr fun f _ => ?_
      rw [Bool.eq_iff_iff, decide_eq_true_iff, decide_eq_true_iff, not_iff_not]
      simp only [List.map_append, List.mem_append, List.mem_map, List.mem_filter, parquetUnder,
        Bool.and_eq_true, Bool.not_eq_true', List.any_cons, Bool.or_eq_true]
      constructor
      · rintro (⟨g, ⟨⟨hg, hunder, hparquet⟩, hlocked⟩, hparts⟩ |
          ⟨g, ⟨⟨hg, -⟩, ⟨hunder, hparquet⟩, hlocked⟩, hparts⟩)
        · exact ⟨g, ⟨hg, ⟨.inl hunder, hparquet⟩, hlocked⟩, hparts⟩
        · exact ⟨g, ⟨hg, ⟨.inr hunder, hparquet⟩, hlocked⟩, hparts⟩
      · rintro ⟨g, ⟨hg, ⟨hunder, hparquet⟩, hlocked⟩, hparts⟩
        by_cases hfirst : isUnder dir g = true
        · exact .inl ⟨g, ⟨⟨hg, hfirst, hparquet⟩, hlocked⟩, hparts⟩
        · refine .inr ⟨g, ⟨⟨hg, ?_⟩, ⟨hunder.resolve_left hfirst, hparquet⟩, hlocked⟩, hparts⟩
          refine decide_eq_true fun hmem => hfirst ?_
          obtain ⟨g', hg', hparts'⟩ := List.mem_map.1 hmem
          rw [← isUnder_congr hparts']
          exact (mem_parquetUnder.1 (List.mem_filter.1 hg').1).2.1
    · rw [List.foldl_cons, hdeleted]
      simp only [List.mem_append, List.mem_map, List.mem_filter, List.mem_cons, exists_eq_or_imp,
        Bool.not_eq_true']
      rw [or_assoc]
      refine or_congr_right (or_congr ?_ ?_)
      · simp only [and_assoc, eq_comm]
      · exact exists_congr fun dir' => and_congr_right fun hdir' =>
          exists_congr fun f => and_congr_left fun _ => hstays dir' hdir' f

/-- What the age cap takes and leaves. -/
lemma pruneTopicAge_spec (d : Disk) (uri : List String) (days : ℤ) (now : ℚ) :
    (d.pruneTopicAge parseDate uri days now).disk.files =
        without d.files (expiredFiles parseDate (cutoffDay days now) uri d.files) ∧
      ∀ x, x ∈ (d.pruneTopicAge parseDate uri days now).disk.deleted ↔ x ∈ d.deleted ∨
        ∃ f ∈ expiredFiles parseDate (cutoffDay days now) uri d.files, ∃ e ∈ dateDirOf uri f,
          x = ⟨pathOf f.parts, some (pathOf e.1)⟩ := by
  have hlength : ∀ dir ∈ d.listPartitionDirsOlderThan parseDate uri (cutoffDay days now),
      dir.length = uri.length + 2 := by
    intro dir hdir
    obtain ⟨f, -, -, date, hpart⟩ := mem_listPartitionDirs.1 hdir
    obtain ⟨entity, rfl⟩ := dateDirOf_eq_some hpart
    simp
  have hnodup : (d.listPartitionDirsOlderThan parseDate uri (cutoffDay days now)).Nodup :=
    List.nodup_dedup _
  obtain ⟨hfiles, hdeleted⟩ := foldl_deleteDirSafely hlength hnodup ⟨d, 0⟩
  refine ⟨hfiles.trans ?_, fun x => (hdeleted x).trans (or_congr_right ?_)⟩
  · refine congrArg (without d.files) (List.filter_congr fun f hf => ?_)
    rw [any_isUnder_listPartitionDirs hf]
  · constructor
    · rintro ⟨dir, hdir, f, hf, hlocked, rfl⟩
      obtain ⟨hmem, hunder, hparquet⟩ := mem_parquetUnder.1 hf
      obtain ⟨g, -, -, date, hg⟩ := mem_listPartitionDirs.1 hdir
      have hexpired := @any_isUnder_listPartitionDirs parseDate (cutoffDay days now) uri d f hmem
      rw [List.any_eq_true.2 ⟨dir, hdir, hunder⟩] at hexpired
      refine ⟨f, List.mem_filter.2 ⟨hmem, ?_⟩, (dir, date), (dateDirOf_of_isUnder hg).1 hunder, rfl⟩
      rw [← hexpired, hparquet, hlocked]
      rfl
    · rintro ⟨f, hf, ⟨dir, date⟩, hpart, rfl⟩
      obtain ⟨hmem, htaken⟩ := List.mem_filter.1 hf
      simp only [Bool.and_eq_true, Bool.not_eq_true'] at htaken
      obtain ⟨⟨hexpired, hparquet⟩, hlocked⟩ := htaken
      exact ⟨dir, mem_listPartitionDirs.2 ⟨f, hmem, hexpired, date, hpart⟩, f,
        mem_parquetUnder.2 ⟨hmem, (dateDirOf_of_isUnder hpart).2 hpart, hparquet⟩, hlocked, rfl⟩

end Age

/-! ### The size cap of a topic -/

section Size

variable {uri : List String} {maxBytes total : ℤ}

/-- The files that the size cap deletes: the oldest ones that make up the excess, of those that can
be deleted. -/
def surplusFiles (maxBytes : ℤ) (files : List DiskFile) : List DiskFile :=
  shed (fun f => (f.size : ℤ)) (bytes files - maxBytes) (files.filter fun f => !f.locked)

/-- A topic under its cap stays as it is. -/
lemma foldl_sizeStep_under {p : Pruned} (h : total - p.freed ≤ maxBytes)
    (files : List DiskFile) : files.foldl (sizeStep maxBytes total) p = p := by
  induction files with
  | nil => rfl
  | cons f files ih => rw [List.foldl_cons, sizeStep, if_pos h, ih]

lemma pruneTopicSize_eq_foldl (d : Disk) (uri : List String) (maxBytes : ℤ) :
    d.pruneTopicSize uri maxBytes = (d.listPartitionFiles uri).foldl
      (sizeStep maxBytes (bytes (d.listPartitionFiles uri))) ⟨d, 0⟩ := by
  unfold pruneTopicSize
  dsimp only
  split
  · next hunder => rw [foldl_sizeStep_under (by simpa using hunder)]
  · rfl

/-- What the size cap takes and leaves. -/
lemma pruneTopicSize_disk (d : Disk) (uri : List String) (maxBytes : ℤ) :
    (d.pruneTopicSize uri maxBytes).disk =
      d.unlinkAll (surplusFiles maxBytes (d.listPartitionFiles uri)) none := by
  have hfold := foldl_shed (fun f : DiskFile => (f.size : ℤ))
    (sizeStep maxBytes (bytes (d.listPartitionFiles uri)))
    (fun p f => ⟨p.disk.unlink f none, p.freed + f.size⟩)
    (fun p => bytes (d.listPartitionFiles uri) - p.freed - maxBytes) DiskFile.locked
    (fun p f hp => if_pos (by omega))
    (fun p f hf => by rw [sizeStep, if_pos hf, ite_self])
    (fun p f hp hf => by rw [sizeStep, if_neg (by omega), if_neg (by simp [hf])])
    (fun p f => by dsimp only; omega) ⟨d, 0⟩ (d.listPartitionFiles uri)
  have hdisk : ∀ (fs : List DiskFile) (p : Pruned), (fs.foldl (fun p f =>
      (⟨p.disk.unlink f none, p.freed + f.size⟩ : Pruned)) p).disk = p.disk.unlinkAll fs none := by
    intro fs
    induction fs with
    | nil => exact fun _ => rfl
    | cons f fs ih => exact fun p => ih _
  rw [pruneTopicSize_eq_foldl, hfold, hdisk, surplusFiles]
  simp only [sub_zero]

end Size

/-! ### The cap over all topics -/

/-- What the global cap is at: the bytes that are still too many, the bytes it notes for each topic,
and the files of each from the oldest on. -/
structure Backlogs where
  excess : ℤ
  noted : Dict String ℤ
  files : String → List DiskFile

namespace Backlogs

/-- The oldest file of the topic with the largest backlog, while there are bytes too many. -/
def next (b : Backlogs) : Option (String × Option DiskFile) :=
  if b.excess ≤ 0 then none
  else
    match largest b.noted with
    | none => none
    | some (slug, size) => if size ≤ 0 then none else some (slug, (b.files slug).head?)

/-- One turn: the head of the largest backlog goes, where it can be deleted, and its bytes are no
longer noted in any case. -/
def turn (b : Backlogs) : Backlogs :=
  match b.next with
  | none => b
  | some (slug, none) => { b with noted := b.noted.set slug 0 }
  | some (slug, some f) =>
    { excess := if f.locked then b.excess else b.excess - f.size
      noted := b.noted.set slug (b.noted.getD slug 0 - f.size)
      files := if f.locked then b.files else fun slug => without (b.files slug) [f] }

/-- What the turn deletes. -/
def taken (b : Backlogs) : List DiskFile :=
  match b.next with
  | some (_, some f) => if f.locked then [] else [f]
  | _ => []

/-- What a number of turns delete: heads of the largest backlogs. -/
def heads (b : Backlogs) : ℕ → List DiskFile
  | 0 => []
  | n + 1 => b.taken ++ b.turn.heads n

end Backlogs

/-- The backlogs of the topics of a disk. -/
def backlogs (d : Disk) (specs : List (String × List String)) (cap : ℤ) : Backlogs where
  excess := d.globalTotal specs - cap
  noted := (d.globalStart specs).sizes
  files := fun slug => d.listPartitionFiles ((dictOf specs).getD slug [])

/-- The files that the global cap deletes. -/
def globalFiles (d : Disk) (specs : List (String × List String)) (cap : ℤ) : List DiskFile :=
  (d.backlogs specs cap).heads 1000

section Global

variable {uriBySlug : Dict String (List String)} {total cap : ℤ} {s : GlobalState} {b : Backlogs}

lemma listPartitionFiles_unlink {d : Disk} {f : DiskFile} {uri : List String}
    (dir : Option String) : (d.unlink f dir).listPartitionFiles uri =
      without (d.listPartitionFiles uri) [f] := by
  rw [listPartitionFiles, listPartitionFiles, without, filter_sortByKey, parquetUnder, parquetUnder,
    unlink, List.filter_filter, List.filter_filter]
  simp only [List.map_cons, List.map_nil, List.mem_singleton, Bool.and_comm]

/-- The loop is at the backlogs: it has as many bytes to free, notes the same sizes, and finds the
same files on the disk. -/
structure At (uriBySlug : Dict String (List String)) (total cap : ℤ) (s : GlobalState)
    (b : Backlogs) : Prop where
  excess : b.excess = total - s.pruned.freed - cap
  noted : b.noted = s.sizes
  files : ∀ slug, b.files slug = s.pruned.disk.listPartitionFiles (uriBySlug.getD slug [])

lemma At.candidate (h : At uriBySlug total cap s b) :
    globalCandidate uriBySlug total cap s = b.next := by
  have hover : total - s.pruned.freed ≤ cap ↔ b.excess ≤ 0 := by
    rw [h.excess]
    omega
  rw [globalCandidate, Backlogs.next, h.noted]
  by_cases hexcess : b.excess ≤ 0
  · rw [if_pos (hover.2 hexcess), if_pos hexcess]
  · rw [if_neg (fun hle => hexcess (hover.1 hle)), if_neg hexcess]
    cases largest s.sizes with
    | none => rfl
    | some e =>
      show (if e.2 ≤ 0 then none else
          some (e.1, (s.pruned.disk.listPartitionFiles (uriBySlug.getD e.1 [])).head?)) =
        if e.2 ≤ 0 then none else some (e.1, (b.files e.1).head?)
      rw [h.files]

/-- An iteration of the loop is a turn of the backlogs. -/
lemma At.step (h : At uriBySlug total cap s b) :
    At uriBySlug total cap (globalStep uriBySlug total cap s) b.turn ∧
      (globalStep uriBySlug total cap s).pruned.disk = s.pruned.disk.unlinkAll b.taken none := by
  rw [globalStep, Backlogs.turn, Backlogs.taken]
  rw [h.candidate]
  cases b.next with
  | none => exact ⟨h, rfl⟩
  | some c =>
    obtain ⟨slug, _ | f⟩ := c
    · exact ⟨⟨h.excess, by rw [h.noted], h.files⟩, rfl⟩
    · dsimp only
      -- a locked file stays, but its bytes are no longer noted
      cases f.locked with
      | true =>
        simp only [if_true]
        exact ⟨⟨h.excess, by rw [h.noted], h.files⟩, rfl⟩
      | false =>
        simp only [Bool.false_eq_true, if_false]
        refine ⟨⟨?_, by rw [h.noted], fun slug' => ?_⟩, rfl⟩
        · have hexcess := h.excess
          dsimp only
          omega
        · dsimp only
          rw [listPartitionFiles_unlink, h.files]

lemma At.foldl (h : At uriBySlug total cap s b) (n : ℕ) :
    ((List.replicate n ()).foldl (fun s _ => globalStep uriBySlug total cap s) s).pruned.disk =
      s.pruned.disk.unlinkAll (b.heads n) none := by
  induction n generalizing s b with
  | zero => rfl
  | succ n ih =>
    obtain ⟨hnext, hdisk⟩ := h.step
    rw [List.replicate_succ, List.foldl_cons, ih hnext, hdisk, Backlogs.heads, unlinkAll, unlinkAll,
      unlinkAll, List.foldl_append]

/-- A pass under the cap deletes nothing. -/
lemma foldl_globalStep_under (h : total - s.pruned.freed ≤ cap) (us : List Unit) :
    us.foldl (fun s _ => globalStep uriBySlug total cap s) s = s := by
  have hstep : globalStep uriBySlug total cap s = s := by
    simp only [globalStep, globalCandidate, if_pos h]
  induction us with
  | nil => rfl
  | cons u us ih => rw [List.foldl_cons, hstep, ih]

lemma pruneGlobalSize_eq_foldl (d : Disk) (specs : List (String × List String)) (cap : ℤ) :
    d.pruneGlobalSize specs cap = ((List.replicate 1000 ()).foldl
      (fun s _ => globalStep (dictOf specs) (d.globalTotal specs) cap s)
      (d.globalStart specs)).pruned := by
  unfold pruneGlobalSize
  dsimp only
  split
  · next hunder =>
    rw [foldl_globalStep_under (by simpa [globalStart] using hunder)]
    rfl
  · rfl

/-- The global cap takes heads of the largest backlogs. -/
lemma pruneGlobalSize_disk (d : Disk) (specs : List (String × List String)) (cap : ℤ) :
    (d.pruneGlobalSize specs cap).disk = d.unlinkAll (d.globalFiles specs cap) none := by
  have hat : At (dictOf specs) (d.globalTotal specs) cap (d.globalStart specs)
      (d.backlogs specs cap) := ⟨by simp [backlogs, globalStart], rfl, fun _ => rfl⟩
  rw [pruneGlobalSize_eq_foldl]
  exact hat.foldl 1000

end Global

end Disk

/-! ### A pass -/

/-- The size cap of a topic, for topics of the bus only. -/
def sizeCapOf (t : Topic) : Option ℤ :=
  if t.storageKind = .parquet then capOf t.maxBytes else none

/-- The entry of a topic for the global cap. -/
def specOf (t : Topic) : Option (String × List String) :=
  if t.storageKind = .parquet then t.storageUri.map fun uri => (t.slug, uri) else none

/-- The topics under the global cap, with their directories. -/
def specsOf (topics : List Topic) : List (String × List String) :=
  (scanned topics).filterMap specOf

/-- The cap over all topics, where there are any. -/
def capOver (settings : Option PrunerSettings) (topics : List Topic) : Option ℤ :=
  if specsOf topics = [] then none else capOf (settings.bind PrunerSettings.globalMaxBytes)

section Pass

variable (parseDate : String → Option ℤ) (now : ℚ)

/-- What the age cap of a topic deletes. -/
def agedFiles (t : Topic) (uri : List String) (files : List DiskFile) : List DiskFile :=
  match capOf t.retentionDays with
  | some days => Disk.expiredFiles parseDate (Disk.cutoffDay days now) uri files
  | none => []

/-- What the size cap of a topic deletes. -/
def oversizeFiles (t : Topic) (uri : List String) (files : List DiskFile) : List DiskFile :=
  match sizeCapOf t with
  | some maxBytes => Disk.surplusFiles maxBytes (Disk.listPartitionFiles ⟨files, []⟩ uri)
  | none => []

/-- The files that the caps of a topic leave. -/
def leftBy (files : List DiskFile) (t : Topic) : List DiskFile :=
  match t.storageUri with
  | none => files
  | some uri =>
    let unexpired := Disk.without files (agedFiles parseDate now t uri files)
    Disk.without unexpired (oversizeFiles t uri unexpired)

/-- The files that the caps of the topics leave. -/
def leftByTopics (topics : List Topic) (files : List DiskFile) : List DiskFile :=
  (scanned topics).foldl (leftBy parseDate now) files

variable {parseDate now} {t : Topic} {uri : List String} {s : PassState} {d : Disk}

lemma ageCap_spec : (ageCap parseDate now t uri d).disk.files =
      Disk.without d.files (agedFiles parseDate now t uri d.files) ∧
    ∀ x, x ∈ (ageCap parseDate now t uri d).disk.deleted ↔ x ∈ d.deleted ∨
      ∃ f ∈ agedFiles parseDate now t uri d.files, ∃ e ∈ Disk.dateDirOf uri f,
        x = ⟨pathOf f.parts, some (pathOf e.1)⟩ := by
  rw [ageCap, agedFiles]
  cases capOf t.retentionDays with
  | none => simp [Disk.without_nil]
  | some days => exact Disk.pruneTopicAge_spec d uri days now

lemma sizeCap_disk :
    (sizeCap t uri d).disk = d.unlinkAll (oversizeFiles t uri d.files) none := by
  rw [sizeCap, oversizeFiles, sizeCapOf]
  cases t.storageKind with
  | parquet =>
    cases capOf t.maxBytes with
    | none => rfl
    | some maxBytes => exact Disk.pruneTopicSize_disk d uri maxBytes
  | _ => rfl

lemma files_topicStep (s : PassState) (t : Topic) :
    (topicStep parseDate now s t).disk.files = leftBy parseDate now s.disk.files t := by
  rw [topicStep, leftBy]
  cases t.storageUri with
  | none => rfl
  | some uri =>
    dsimp only
    rw [sizeCap_disk, Disk.unlinkAll_eq, ageCap_spec.1]

lemma specs_topicStep (s : PassState) (t : Topic) :
    (topicStep parseDate now s t).specs = s.specs ++ (specOf t).toList := by
  rw [topicStep, specOf]
  cases t.storageUri with
  | none => simp
  | some uri => by_cases hkind : t.storageKind = .parquet <;> simp [hkind]

lemma files_foldl_topicStep (s : PassState) (ts : List Topic) :
    (ts.foldl (topicStep parseDate now) s).disk.files =
      ts.foldl (leftBy parseDate now) s.disk.files := by
  induction ts generalizing s with
  | nil => rfl
  | cons t ts ih => rw [List.foldl_cons, ih, files_topicStep, List.foldl_cons]

lemma specs_foldl_topicStep (s : PassState) (ts : List Topic) :
    (ts.foldl (topicStep parseDate now) s).specs = s.specs ++ ts.filterMap specOf := by
  induction ts generalizing s with
  | nil => simp
  | cons t ts ih =>
    rw [List.foldl_cons, ih, specs_topicStep, List.filterMap_cons]
    cases specOf t <;> simp

/-- The files after the pass over the topics. -/
lemma files_topicPass (topics : List Topic) (files : List DiskFile) :
    (topicPass parseDate now topics files).disk.files = leftByTopics parseDate now topics files :=
  files_foldl_topicStep _ _

lemma specs_topicPass (topics : List Topic) (files : List DiskFile) :
    (topicPass parseDate now topics files).specs = specsOf topics :=
  (specs_foldl_topicStep _ _).trans (List.nil_append _)

lemma globalCapOf_topicPass (settings : Option PrunerSettings) (topics : List Topic)
    (files : List DiskFile) : globalCapOf settings (topicPass parseDate now topics files) =
      capOver settings topics := by
  rw [globalCapOf, capOver, specs_topicPass]

end Pass

/-! ## The pruner of the book recordings -/

namespace Sweep

/-- A window with the end that its name states. -/
abbrev Entry := ℚ × WindowDir

section

variable (pinned : List String) (retentionDays maxBytes : ℤ) (now : ℚ) (measure : ℕ → Option ℚ)

/-- The window is past its retention, and not pinned as a whole. -/
def isExpired (e : Entry) : Bool :=
  decide (retentionDays * 86400 < now - e.1) && !isPathPinned e.2.dir pinned

/-- The windows that the loops go over. -/
def entries (windows : List WindowDir) : List Entry :=
  windows.filterMap fun w => w.endAt.map fun e => (e, w)

/-- What the retention loop removes. -/
def expiredEntries (windows : List WindowDir) : List Entry :=
  (entries windows).filter (isExpired pinned retentionDays now)

/-- What it keeps, oldest first. -/
def keptEntries (windows : List WindowDir) : List Entry :=
  sortByKey Prod.fst ((entries windows).filter fun e => !isExpired pinned retentionDays now e)

/-- What the size loop removes: the oldest windows that make up the excess, of those that are not
pinned. -/
def surplusEntries (kept : List Entry) : List Entry :=
  shed (fun e => e.2.bytes) ((kept.map fun e => e.2.bytes).sum - maxBytes)
    (kept.filter fun e => !isPathPinned e.2.dir pinned)

/-- The windows that are still there, of those that are not pinned. -/
def standing (kept surplus : List Entry) : List Entry :=
  kept.filter fun e => (decide (e.2.dir ∉ surplus.map fun e => e.2.dir) ||
    e.2.files.any BookFile.locked) && !isPathPinned e.2.dir pinned

/-- The oldest windows until enough of the disk is free; `free` GiB were when it was measured or
estimated last, and it was measured `n` times. -/
def neededEntries (target : ℚ) : ℕ → ℚ → List Entry → List Entry
  | _, _, [] => []
  | n, free, e :: es =>
    if target ≤ free then []
    else e :: neededEntries target (n + 1) ((measure n).getD (free + e.2.bytes / 1073741824)) es

/-- What the emergency loop removes. -/
def emergencyEntries (target : Option ℚ) (kept surplus : List Entry) : List Entry :=
  match target.filter fun t => 0 < t with
  | some t => neededEntries measure t 1 ((measure 0).getD t) (standing pinned kept surplus)
  | none => []

end

/-- Call `rmtree` on windows one by one. -/
def rmtreeAll (s : Sweep) (es : List Entry) : Sweep := es.foldl (fun s e => s.rmtree e.2) s

/-- The directory of a window. -/
def dirOf (e : Entry) : String := e.2.dir

section Removal

variable {s s' : Sweep} {es : List Entry}

/-- The same is removed and deleted, whatever is counted. -/
structure Same (s s' : Sweep) : Prop where
  removed : s.removed = s'.removed
  deleted : s.deleted = s'.deleted

lemma Same.refl (s : Sweep) : Same s s := ⟨rfl, rfl⟩

lemma Same.trans {s'' : Sweep} (h : Same s s') (h' : Same s' s'') : Same s s'' :=
  ⟨h.removed.trans h'.removed, h.deleted.trans h'.deleted⟩

lemma Same.rmtree (h : Same s s') (w : WindowDir) : Same (s.rmtree w) (s'.rmtree w) := by
  unfold Sweep.rmtree
  rw [h.removed]
  split
  · exact h
  · exact ⟨rfl, congrArg (· ++ w.contents) h.deleted⟩

lemma rmtreeAll_cons (s : Sweep) (e : Entry) (es : List Entry) :
    s.rmtreeAll (e :: es) = (s.rmtree e.2).rmtreeAll es := rfl

lemma Same.rmtreeAll (h : Same s s') (es : List Entry) :
    Same (s.rmtreeAll es) (s'.rmtreeAll es) := by
  induction es generalizing s s' with
  | nil => exact h
  | cons e es ih => exact ih (h.rmtree e.2)

lemma kept_rmtree (s : Sweep) (w : WindowDir) : (s.rmtree w).kept = s.kept := by
  rw [Sweep.rmtree]
  split <;> rfl

lemma mem_removed_rmtree {w : WindowDir} {dir : String} :
    dir ∈ (s.rmtree w).removed ↔ dir ∈ s.removed ∨ dir = w.dir := by
  rw [Sweep.rmtree]
  split
  · next hmem => exact ⟨.inl, fun h => h.elim id fun heq => heq ▸ hmem⟩
  · simp

lemma mem_deleted_rmtree {w : WindowDir} {x : Deletion} :
    x ∈ (s.rmtree w).deleted ↔ x ∈ s.deleted ∨ w.dir ∉ s.removed ∧ x ∈ w.contents := by
  rw [Sweep.rmtree]
  split
  · next hmem => simp [hmem]
  · next hnew => simp [hnew]

lemma mem_removed_rmtreeAll {dir : String} :
    dir ∈ (s.rmtreeAll es).removed ↔ dir ∈ s.removed ∨ dir ∈ es.map dirOf := by
  induction es generalizing s with
  | nil => simp [rmtreeAll]
  | cons e es ih =>
    rw [rmtreeAll_cons, ih, mem_removed_rmtree, or_assoc, List.map_cons, List.mem_cons]
    rfl

/-- Of windows in different directories, those that are still there are removed with all in them. -/
lemma mem_deleted_rmtreeAll (hnodup : (es.map dirOf).Nodup) {x : Deletion} :
    x ∈ (s.rmtreeAll es).deleted ↔
      x ∈ s.deleted ∨ ∃ e ∈ es, dirOf e ∉ s.removed ∧ x ∈ e.2.contents := by
  induction es generalizing s with
  | nil => simp [rmtreeAll]
  | cons e es ih =>
    rw [List.map_cons, List.nodup_cons] at hnodup
    have hrest : (∃ e' ∈ es, dirOf e' ∉ (s.rmtree e.2).removed ∧ x ∈ e'.2.contents) ↔
        ∃ e' ∈ es, dirOf e' ∉ s.removed ∧ x ∈ e'.2.contents := by
      refine exists_congr fun e' => and_congr_right fun he' => and_congr_left fun _ => ?_
      rw [mem_removed_rmtree, not_or]
      refine and_iff_left fun hsame => hnodup.1 (List.mem_map.2 ⟨e', he', hsame⟩)
    rw [rmtreeAll_cons, ih hnodup.2, mem_deleted_rmtree, hrest, or_assoc, List.exists_mem_cons_iff]
    rfl

end Removal

section Loops

variable {pinned : List String} {retentionDays maxBytes : ℤ} {now target : ℚ}
  {measure : ℕ → Option ℚ}

/-- The retention loop removes the windows that are past their retention, and keeps the others. -/
lemma foldl_retentionStep (es : List Entry) (s : Sweep) :
    Same (es.foldl (retentionStep pinned retentionDays now) s)
        (s.rmtreeAll (es.filter (isExpired pinned retentionDays now))) ∧
      (es.foldl (retentionStep pinned retentionDays now) s).kept =
        s.kept ++ es.filter fun e => !isExpired pinned retentionDays now e := by
  induction es generalizing s with
  | nil => exact ⟨Same.refl s, by simp⟩
  | cons e es ih =>
    rw [List.foldl_cons]
    cases he : isExpired pinned retentionDays now e with
    | true =>
      have hstep : retentionStep pinned retentionDays now s e = s.rmtree e.2 :=
        if_pos (by simpa [isExpired] using he)
      obtain ⟨hsame, hkept⟩ := ih (s.rmtree e.2)
      rw [hstep, List.filter_cons_of_pos he, List.filter_cons_of_neg (by simp [he])]
      exact ⟨hsame, hkept.trans (by rw [kept_rmtree])⟩
    | false =>
      have hstep : retentionStep pinned retentionDays now s e = { s with kept := s.kept ++ [e] } :=
        if_neg (by simpa [isExpired] using he)
      obtain ⟨hsame, hkept⟩ := ih { s with kept := s.kept ++ [e] }
      rw [hstep, List.filter_cons_of_neg (by simp [he]), List.filter_cons_of_pos (by simp [he])]
      have hkeeps : Same { s with kept := s.kept ++ [e] } s := ⟨rfl, rfl⟩
      exact ⟨hsame.trans (hkeeps.rmtreeAll _), by rw [hkept]; simp⟩

/-- The size loop removes the oldest windows that make up the excess. -/
lemma foldl_trimStep (es : List Entry) (s : Sweep) :
    Same (es.foldl (trimStep pinned maxBytes) s)
        (s.rmtreeAll (shed (fun e => e.2.bytes) (s.total - maxBytes)
          (es.filter fun e => !isPathPinned e.2.dir pinned))) ∧
      (es.foldl (trimStep pinned maxBytes) s).kept = s.kept := by
  have hfold := foldl_shed (fun e : Entry => e.2.bytes) (trimStep pinned maxBytes)
    (fun s e => { s.rmtree e.2 with total := s.total - e.2.bytes })
    (fun s => s.total - maxBytes) (fun e => isPathPinned e.2.dir pinned)
    (fun s e hs => if_pos (by omega))
    (fun s e he => by rw [trimStep, if_pos he, ite_self])
    (fun s e hs he => by rw [trimStep, if_neg (by omega), if_neg (by simp [he])])
    (fun s e => by dsimp only; omega) s es
  -- the total that the loop counts down does not matter to what is removed
  have hact : ∀ (es : List Entry) (s s' : Sweep), Same s s' →
      Same (es.foldl (fun s e => { s.rmtree e.2 with total := s.total - e.2.bytes }) s)
        (s'.rmtreeAll es) ∧
      (es.foldl (fun s e => { s.rmtree e.2 with total := s.total - e.2.bytes }) s).kept =
        s.kept := by
    intro es
    induction es with
    | nil => exact fun s s' h => ⟨h, rfl⟩
    | cons e es ih =>
      intro s s' h
      obtain ⟨hsame, hkept⟩ := ih { s.rmtree e.2 with total := s.total - e.2.bytes }
        (s'.rmtree e.2) ⟨(h.rmtree e.2).removed, (h.rmtree e.2).deleted⟩
      exact ⟨hsame, hkept.trans (kept_rmtree s e.2)⟩
  rw [hfold]
  exact hact _ s s (Same.refl s)

/-- The emergency loop removes the oldest windows that are still there until enough is free. -/
lemma foldl_emergencyStep {es : List Entry} (hnodup : (es.map dirOf).Nodup) (s : Sweep) :
    Same (es.foldl (emergencyStep pinned measure target) s)
      (s.rmtreeAll (neededEntries measure target s.reads s.free
        (es.filter fun e => s.exists? e.2 && !isPathPinned e.2.dir pinned))) := by
  induction es generalizing s with
  | nil => exact Same.refl s
  | cons e es ih =>
    rw [List.map_cons, List.nodup_cons] at hnodup
    rw [List.foldl_cons]
    by_cases hfree : target ≤ s.free
    · have hstep : emergencyStep pinned measure target s e = s := if_pos hfree
      -- enough is free: no later window is removed either
      have hnone : ∀ es : List Entry, neededEntries measure target s.reads s.free es = [] := by
        intro es
        cases es with
        | nil => rfl
        | cons e es => exact if_pos hfree
      have hrest := ih hnodup.2 s
      rw [hnone] at hrest ⊢
      rw [hstep]
      exact hrest
    · cases he : s.exists? e.2 && !isPathPinned e.2.dir pinned with
      | false =>
        have hstep : emergencyStep pinned measure target s e = s := by
          rw [emergencyStep, if_neg hfree, if_pos]
          rw [Bool.and_eq_false_iff, Bool.not_eq_false'] at he
          rwa [Bool.or_eq_true, Bool.not_eq_true']
        rw [hstep, List.filter_cons_of_neg (by simp [he])]
        exact ih hnodup.2 s
      | true =>
        have hstep : emergencyStep pinned measure target s e =
            { s.rmtree e.2 with
              free := (measure s.reads).getD (s.free + e.2.bytes / 1073741824)
              reads := s.reads + 1 } := by
          rw [emergencyStep, if_neg hfree, if_neg (by simpa using he)]
        -- what is removed is the directory of no later window
        have hexists : ∀ e' ∈ es, (s.rmtree e.2).exists? e'.2 = s.exists? e'.2 := by
          intro e' he'
          have hne : e'.2.dir ≠ e.2.dir := fun hsame => hnodup.1 (List.mem_map.2 ⟨e', he', hsame⟩)
          rw [exists?, exists?]
          congr 1
          rw [Bool.eq_iff_iff, decide_eq_true_iff, decide_eq_true_iff, mem_removed_rmtree,
            or_iff_left hne]
        have hfilter : (es.filter fun e' => (s.rmtree e.2).exists? e'.2 &&
            !isPathPinned e'.2.dir pinned) =
            es.filter fun e' => s.exists? e'.2 && !isPathPinned e'.2.dir pinned :=
          List.filter_congr fun e' he' => congrArg (· && _) (hexists e' he')
        have hrest := ih hnodup.2 { s.rmtree e.2 with
          free := (measure s.reads).getD (s.free + e.2.bytes / 1073741824)
          reads := s.reads + 1 }
        have hcounts : Same { s.rmtree e.2 with
          free := (measure s.reads).getD (s.free + e.2.bytes / 1073741824)
          reads := s.reads + 1 } (s.rmtree e.2) := ⟨rfl, rfl⟩
        rw [hstep, List.filter_cons_of_pos (by simp [he]), neededEntries, if_neg hfree,
          rmtreeAll_cons, ← hfilter]
        exact hrest.trans (hcounts.rmtreeAll _)

end Loops

end Sweep

section Book

variable (retentionDays maxBytes : ℤ) (cfg : BookConfig) (pinned : List String) (now : ℚ)
  (measure : ℕ → Option ℚ) (target : Option ℚ) (recordings : Recordings)

/-- What the retention loop of a pass keeps, oldest first. -/
def bookKept : List Sweep.Entry :=
  Sweep.keptEntries pinned (limitOf retentionDays cfg.bookRetentionDays) now recordings.windows

/-- What the size loop of a pass removes. -/
def bookSurplus : List Sweep.Entry :=
  Sweep.surplusEntries pinned (limitOf maxBytes cfg.bookMaxBytes)
    (bookKept retentionDays cfg pinned now recordings)

/-- What the emergency loop of a pass removes. -/
def bookEmergency : List Sweep.Entry :=
  Sweep.emergencyEntries pinned measure target (bookKept retentionDays cfg pinned now recordings)
    (bookSurplus retentionDays maxBytes cfg pinned now recordings)

/-- The windows that a pass removes: those past their retention, the oldest ones that make up the
excess, and in an emergency the oldest ones until enough is free. -/
def bookRemoved : List Sweep.Entry :=
  Sweep.expiredEntries pinned (limitOf retentionDays cfg.bookRetentionDays) now
      recordings.windows ++
    bookSurplus retentionDays maxBytes cfg pinned now recordings ++
    (bookEmergency retentionDays maxBytes cfg pinned now measure target recordings).filter fun e =>
      Sweep.dirOf e ∉ (bookSurplus retentionDays maxBytes cfg pinned now recordings).map Sweep.dirOf

variable {retentionDays maxBytes cfg pinned now measure target recordings}

lemma mem_bookRemoved {e : Sweep.Entry} :
    e ∈ bookRemoved retentionDays maxBytes cfg pinned now measure target recordings ↔
      e ∈ Sweep.expiredEntries pinned (limitOf retentionDays cfg.bookRetentionDays) now
          recordings.windows ∨
        e ∈ bookSurplus retentionDays maxBytes cfg pinned now recordings ∨
        e ∈ bookEmergency retentionDays maxBytes cfg pinned now measure target recordings ∧
          Sweep.dirOf e ∉
            (bookSurplus retentionDays maxBytes cfg pinned now recordings).map Sweep.dirOf := by
  rw [bookRemoved, List.mem_append, List.mem_append, List.mem_filter, decide_eq_true_iff, or_assoc]

namespace Sweep

lemma neededEntries_isPrefix (measure : ℕ → Option ℚ) (t : ℚ) (n : ℕ) (free : ℚ)
    (es : List Entry) : neededEntries measure t n free es <+: es := by
  induction es generalizing n free with
  | nil => exact List.prefix_rfl
  | cons e es ih =>
    rw [neededEntries]
    split
    · exact List.nil_prefix
    · exact (List.prefix_cons_inj e).2 (ih _ _)

lemma emergencyEntries_sublist (measure : ℕ → Option ℚ) (target : Option ℚ)
    (kept surplus : List Entry) :
    (emergencyEntries pinned measure target kept surplus).Sublist kept := by
  rw [emergencyEntries]
  split
  · exact (neededEntries_isPrefix _ _ _ _ _).sublist.trans List.filter_sublist
  · exact List.nil_sublist _

lemma surplusEntries_sublist (maxBytes : ℤ) (kept : List Entry) :
    (surplusEntries pinned maxBytes kept).Sublist kept :=
  (shed_isPrefix _ _).sublist.trans List.filter_sublist

lemma nodup_entries (recordings : Recordings) :
    ((entries recordings.windows).map dirOf).Nodup := by
  have hsublist : ((entries recordings.windows).map dirOf).Sublist
      (recordings.windows.map WindowDir.dir) := by
    have hmap : (entries recordings.windows).map dirOf =
        recordings.windows.filterMap fun w => w.endAt.map fun _ => w.dir := by
      rw [entries, List.map_filterMap]
      simp only [Option.map_map, Function.comp_def, dirOf]
    rw [hmap]
    induction recordings.windows with
    | nil => exact List.Sublist.refl _
    | cons w ws ih =>
      rw [List.map_cons]
      cases hw : w.endAt with
      | none =>
        rw [List.filterMap_cons_none (by rw [hw]; rfl)]
        exact ih.cons _
      | some t =>
        rw [List.filterMap_cons_some (by rw [hw]; rfl)]
        exact ih.cons_cons _
  exact recordings.distinct.sublist hsublist

end Sweep

lemma nodup_expiredEntries :
    ((Sweep.expiredEntries pinned retentionDays now recordings.windows).map Sweep.dirOf).Nodup :=
  (Sweep.nodup_entries recordings).sublist (List.filter_sublist.map _)

lemma nodup_bookKept :
    ((bookKept retentionDays cfg pinned now recordings).map Sweep.dirOf).Nodup :=
  (((perm_sortByKey _ _).map _).nodup_iff).2
    ((Sweep.nodup_entries recordings).sublist (List.filter_sublist.map _))

/-- A window that the retention loop keeps is in none of the directories that it removes. -/
lemma not_expired_of_mem_bookKept {e : Sweep.Entry}
    (he : e ∈ bookKept retentionDays cfg pinned now recordings) : Sweep.dirOf e ∉
      (Sweep.expiredEntries pinned (limitOf retentionDays cfg.bookRetentionDays) now
        recordings.windows).map Sweep.dirOf := by
  intro hdir
  obtain ⟨hmem, hlive⟩ := List.mem_filter.1 (mem_sortByKey.1 he)
  obtain ⟨e', he', hsame⟩ := List.mem_map.1 hdir
  obtain ⟨hmem', hexpired⟩ := List.mem_filter.1 he'
  obtain rfl := List.inj_on_of_nodup_map (Sweep.nodup_entries recordings) hmem' hmem hsame
  rw [hexpired] at hlive
  cases hlive

lemma bookSurplus_sublist : (bookSurplus retentionDays maxBytes cfg pinned now recordings).Sublist
    (bookKept retentionDays cfg pinned now recordings) :=
  Sweep.surplusEntries_sublist _ _

lemma bookEmergency_sublist :
    (bookEmergency retentionDays maxBytes cfg pinned now measure target recordings).Sublist
      (bookKept retentionDays cfg pinned now recordings) :=
  Sweep.emergencyEntries_sublist _ _ _ _

/-- What a pass removes, loop by loop. -/
lemma same_bookPrune :
    Sweep.Same (bookPrune retentionDays maxBytes cfg pinned now measure target recordings)
      (((Sweep.rmtreeAll ⟨[], [], [], 0, 0, 0⟩
        (Sweep.expiredEntries pinned (limitOf retentionDays cfg.bookRetentionDays) now
          recordings.windows)).rmtreeAll
        (bookSurplus retentionDays maxBytes cfg pinned now recordings)).rmtreeAll
        (bookEmergency retentionDays maxBytes cfg pinned now measure target recordings)) := by
  let retained := Sweep.retention pinned (limitOf retentionDays cfg.bookRetentionDays) now
    recordings.windows
  let trimmed := retained.trim pinned (limitOf maxBytes cfg.bookMaxBytes)
  obtain ⟨hretained, hkept⟩ := @Sweep.foldl_retentionStep pinned
    (limitOf retentionDays cfg.bookRetentionDays) now
    (Sweep.entries recordings.windows) ⟨[], [], [], 0, 0, 0⟩
  -- the three loops one after the other, each on what the one before it keeps
  replace hretained : Sweep.Same retained (Sweep.rmtreeAll ⟨[], [], [], 0, 0, 0⟩
      (Sweep.expiredEntries pinned (limitOf retentionDays cfg.bookRetentionDays) now
        recordings.windows)) := hretained
  replace hkept : retained.kept = _ := hkept
  have holdest : retained.oldestFirst = bookKept retentionDays cfg pinned now recordings := by
    rw [Sweep.oldestFirst, hkept]
    rfl
  obtain ⟨htrimmed, hsame⟩ := @Sweep.foldl_trimStep pinned
    (limitOf maxBytes cfg.bookMaxBytes) retained.oldestFirst
    { retained with total := (retained.kept.map fun e => e.2.bytes).sum }
  replace hsame : trimmed.kept = retained.kept := hsame
  have hsurplus : Sweep.Same trimmed
      (retained.rmtreeAll (bookSurplus retentionDays maxBytes cfg pinned now recordings)) := by
    have htotal : (retained.kept.map fun e => e.2.bytes).sum =
        ((bookKept retentionDays cfg pinned now recordings).map fun e => e.2.bytes).sum := by
      rw [← holdest]
      exact (((perm_sortByKey Prod.fst retained.kept).map _).sum_eq).symm
    have hcounts : Sweep.Same
        { retained with total := (retained.kept.map fun e => e.2.bytes).sum } retained := ⟨rfl, rfl⟩
    rw [bookSurplus, Sweep.surplusEntries, ← htotal, ← holdest]
    exact htrimmed.trans (hcounts.rmtreeAll _)
  have hremoved := hsurplus.trans (hretained.rmtreeAll _)
  -- the emergency loop looks again whether a directory is there; retention removed none of these
  have hthere : ∀ e ∈ bookKept retentionDays cfg pinned now recordings,
      trimmed.exists? e.2 = (decide (e.2.dir ∉
        (bookSurplus retentionDays maxBytes cfg pinned now recordings).map fun e => e.2.dir) ||
        e.2.files.any BookFile.locked) := by
    intro e he
    have hnew : e.2.dir ∉ _ := not_expired_of_mem_bookKept he
    rw [Sweep.exists?]
    congr 1
    rw [Bool.eq_iff_iff, decide_eq_true_iff, decide_eq_true_iff, hremoved.removed,
      Sweep.mem_removed_rmtreeAll, Sweep.mem_removed_rmtreeAll]
    simp only [List.not_mem_nil, false_or, hnew]
    rfl
  have htoldest : trimmed.oldestFirst = bookKept retentionDays cfg pinned now recordings := by
    rw [Sweep.oldestFirst, hsame]
    exact holdest
  refine Sweep.Same.trans ?_ (hremoved.rmtreeAll _)
  show Sweep.Same (trimmed.emergency pinned measure target) _
  rw [Sweep.emergency, bookEmergency, Sweep.emergencyEntries]
  cases target.filter fun t => 0 < t with
  | none => exact Sweep.Same.refl trimmed
  | some t =>
    have hloop := @Sweep.foldl_emergencyStep pinned t measure
      (bookKept retentionDays cfg pinned now recordings) nodup_bookKept
      { trimmed with free := (measure 0).getD t, reads := 1 }
    have hcounts : Sweep.Same { trimmed with free := (measure 0).getD t, reads := 1 } trimmed :=
      ⟨rfl, rfl⟩
    have hstanding : (bookKept retentionDays cfg pinned now recordings).filter (fun e =>
        trimmed.exists? e.2 && !isPathPinned e.2.dir pinned) =
        Sweep.standing pinned (bookKept retentionDays cfg pinned now recordings)
          (bookSurplus retentionDays maxBytes cfg pinned now recordings) :=
      List.filter_congr fun e he => congrArg (· && _) (hthere e he)
    dsimp only
    rw [htoldest, ← hstanding]
    exact hloop.trans (hcounts.rmtreeAll _)

/-- A pass deletes what can be deleted in the windows that it removes. -/
lemma mem_deleted_bookPrune {x : Deletion} :
    x ∈ (bookPrune retentionDays maxBytes cfg pinned now measure target recordings).deleted ↔
      ∃ e ∈ bookRemoved retentionDays maxBytes cfg pinned now measure target recordings,
        x ∈ e.2.contents := by
  rw [same_bookPrune.deleted,
    Sweep.mem_deleted_rmtreeAll (nodup_bookKept.sublist (bookEmergency_sublist.map _)),
    Sweep.mem_deleted_rmtreeAll (nodup_bookKept.sublist (bookSurplus_sublist.map _)),
    Sweep.mem_deleted_rmtreeAll nodup_expiredEntries]
  simp only [List.not_mem_nil, false_or, not_false_eq_true, true_and, mem_bookRemoved, or_and_right,
    exists_or, Sweep.mem_removed_rmtreeAll, or_assoc, not_or]
  refine or_congr_right (or_congr ?_ ?_)
  · exact exists_congr fun e => and_congr_right fun he =>
      and_iff_right (not_expired_of_mem_bookKept (bookSurplus_sublist.subset he))
  · refine exists_congr fun e => ?_
    rw [and_assoc, and_assoc]
    exact and_congr_right fun he =>
      and_iff_right (not_expired_of_mem_bookKept (bookEmergency_sublist.subset he))

end Book

end Evosport.Data
