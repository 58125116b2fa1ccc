/-
What a pass of the bus pruner keeps, where every file can be deleted.

The age cap of a topic leaves no parquet file of an expired date partition, the size cap leaves its
newest files, and the global cap drops the oldest file of the largest topic, at most 1000 times,
until the cap is met.  All deletions are below the directories of the topics that a cap is set for
(`Shrinks`), and what a cap has brought about stays so (`PassDone`).
-/
import Evosport.Data.PruneLoops
import Evosport.Lib.Run
import Mathlib.Data.List.Pairwise

namespace Evosport.Data

open Lib

/-! ## One disk -/

namespace Disk

variable {d d' d'' : Disk} {f : DiskFile} {uri : List String} {dirs dirs' : List (List String)}

/-- Paths are listed once, and every file can be deleted. -/
structure Sound (d : Disk) : Prop where
  nodup : (d.files.map DiskFile.parts).Nodup
  unlocked : ∀ f ∈ d.files, f.locked = false

/-- Some parquet files below the directories are gone. -/
structure Shrinks (dirs : List (List String)) (d d' : Disk) : Prop where
  sublist : d'.files.Sublist d.files
  others : ∀ f ∈ d.files, (isParquet f = true → ∀ dir ∈ dirs, isUnder dir f = false) → f ∈ d'.files

lemma Shrinks.refl (dirs : List (List String)) (d : Disk) : Shrinks dirs d d :=
  ⟨List.Sublist.refl _, fun _ hf _ => hf⟩

lemma Shrinks.trans (h : Shrinks dirs d d') (h' : Shrinks dirs d' d'') : Shrinks dirs d d'' :=
  ⟨h'.sublist.trans h.sublist, fun f hf hother => h'.others f (h.others f hf hother) hother⟩

lemma Shrinks.mono (h : Shrinks dirs d d') (hdirs : dirs ⊆ dirs') : Shrinks dirs' d d' :=
  ⟨h.sublist, fun f hf hother => h.others f hf fun hparquet dir hdir =>
    hother hparquet dir (hdirs hdir)⟩

lemma Sound.shrink (h : d.Sound) (hd : Shrinks dirs d d') : d'.Sound :=
  ⟨h.nodup.sublist (hd.sublist.map _), fun f hf => h.unlocked f (hd.sublist.subset hf)⟩

/-- Deleting parquet files below a directory. -/
lemma shrinks_without (taken : List DiskFile)
    (htaken : ∀ f ∈ taken, isUnder uri f = true ∧ isParquet f = true)
    (hfiles : d'.files = without d.files taken) : Shrinks [uri] d d' := by
  refine ⟨hfiles ▸ List.filter_sublist, fun f hf hother => ?_⟩
  rw [hfiles, without, List.mem_filter, decide_eq_true_iff]
  refine ⟨hf, fun hmem => ?_⟩
  obtain ⟨g, hg, hparts⟩ := List.mem_map.1 hmem
  obtain ⟨hunder, hparquet⟩ := htaken g hg
  rw [isUnder_congr hparts, hother (isParquet_congr hparts ▸ hparquet) uri
    (List.mem_singleton_self uri)] at hunder
  cases hunder

lemma Shrinks.parquetUnder (h : Shrinks dirs d d') (uri : List String) :
    (d'.parquetUnder uri).Sublist (d.parquetUnder uri) :=
  h.sublist.filter _

lemma bytes_nonneg (fs : List DiskFile) : 0 ≤ bytes fs :=
  List.sum_nonneg fun b hb => by
    obtain ⟨f, -, rfl⟩ := List.mem_map.1 hb
    exact Int.natCast_nonneg f.size

lemma bytes_le_of_sublist {fs gs : List DiskFile} (h : fs.Sublist gs) : bytes fs ≤ bytes gs := by
  induction h with
  | slnil => exact le_rfl
  | cons f _ ih =>
    refine ih.trans ?_
    simp [bytes]
  | cons_cons f _ ih =>
    simp only [bytes, List.map_cons, List.sum_cons] at ih ⊢
    omega

lemma Shrinks.size_le (h : Shrinks dirs d d') (uri : List String) :
    d'.topicDirSizeBytes uri ≤ d.topicDirSizeBytes uri :=
  bytes_le_of_sublist (h.parquetUnder uri)

lemma topicDirSizeBytes_eq (d : Disk) (uri : List String) :
    d.topicDirSizeBytes uri = bytes (d.listPartitionFiles uri) :=
  (((perm_sortByKey DiskFile.mtime (d.parquetUnder uri)).map _).sum_eq).symm

lemma mem_listPartitionFiles : f ∈ d.listPartitionFiles uri ↔ f ∈ d.parquetUnder uri :=
  mem_sortByKey

lemma parquetUnder_congr (h : d'.files = d.files) (uri : List String) :
    d'.parquetUnder uri = d.parquetUnder uri := by
  rw [parquetUnder, parquetUnder, h]

/-- Deleting the oldest file of a topic leaves the others in their order. -/
lemma listPartitionFiles_unlink_head (h : d.Sound) {fs : List DiskFile}
    (hfiles : d.listPartitionFiles uri = f :: fs) (dir : Option String) :
    (d.unlink f dir).listPartitionFiles uri = fs := by
  have hnodup : ((d.listPartitionFiles uri).map DiskFile.parts).Nodup :=
    ((perm_sortByKey DiskFile.mtime (d.parquetUnder uri)).map _).nodup_iff.2
      (h.nodup.sublist (List.filter_sublist.map _))
  rw [listPartitionFiles_unlink, hfiles, without, List.filter_cons_of_neg (by simp)]
  rw [hfiles, List.map_cons, List.nodup_cons] at hnodup
  refine List.filter_eq_self.2 fun g hg => decide_eq_true fun hmem => ?_
  obtain ⟨f', hf', hparts⟩ := List.mem_map.1 hmem
  obtain rfl := List.mem_singleton.1 hf'
  exact hnodup.1 (hparts ▸ List.mem_map_of_mem hg)

/-- Deleting a file that is not below a directory leaves what is below it. -/
lemma listPartitionFiles_unlink_of_not_under (hf : isUnder uri f = false) (dir : Option String) :
    (d.unlink f dir).listPartitionFiles uri = d.listPartitionFiles uri := by
  rw [listPartitionFiles_unlink, without]
  refine List.filter_eq_self.2 fun g hg => decide_eq_true fun hmem => ?_
  obtain ⟨f', hf', hparts⟩ := List.mem_map.1 hmem
  obtain rfl := List.mem_singleton.1 hf'
  have hunder := (mem_parquetUnder.1 (mem_listPartitionFiles.1 hg)).2.1
  rw [← isUnder_congr hparts, hf] at hunder
  cases hunder

lemma shrinks_unlink (hunder : isUnder uri f = true) (hf : isParquet f = true)
    (dir : Option String) : Shrinks [uri] d (d.unlink f dir) := by
  refine shrinks_without [f] (fun g hg => ?_) (by simp [unlink, without])
  obtain rfl := List.mem_singleton.1 hg
  exact ⟨hunder, hf⟩

/-! ## The age cap -/

section Age

variable {parseDate : String → Option ℤ} {cutoff days : ℤ} {now : ℚ}

lemma isUnder_of_expired (h : expired parseDate cutoff uri f = true) : isUnder uri f = true := by
  rw [expired, dateDirOf] at h
  by_contra hunder
  rw [if_neg hunder] at h
  cases h

lemma mem_expiredFiles {files : List DiskFile} : f ∈ expiredFiles parseDate cutoff uri files ↔
    f ∈ files ∧ expired parseDate cutoff uri f = true ∧ isParquet f = true ∧ f.locked = false := by
  rw [expiredFiles, List.mem_filter, Bool.and_eq_true, Bool.and_eq_true, Bool.not_eq_true',
    and_assoc]

end Age

/-! ## The size cap of a topic -/

/-- A file that a size cap deletes, and the disk before. -/
structure Removal where
  before : Disk
  file : DiskFile

/-- What one turn of the size cap deletes. -/
def sizeRemoval (maxBytes total : ℤ) (p : Pruned) (f : DiskFile) : List Removal :=
  if total - p.freed ≤ maxBytes ∨ f.locked then [] else [⟨p.disk, f⟩]

/-- What the size cap deletes. -/
def sizeRemovals (d : Disk) (uri : List String) (maxBytes : ℤ) : List Removal :=
  let files := d.listPartitionFiles uri
  outputs (sizeStep maxBytes (bytes files)) (sizeRemoval maxBytes (bytes files)) ⟨d, 0⟩ files

/-- The deletion takes the oldest file of a topic that is above its cap. -/
def Removal.OldestOf (r : Removal) (uri : List String) (maxBytes : ℤ) : Prop :=
  maxBytes < r.before.topicDirSizeBytes uri ∧
    (r.before.listPartitionFiles uri).head? = some r.file

/-- The newest files that fit under a cap, of files from the oldest on. -/
def newest (maxBytes : ℤ) : List DiskFile → List DiskFile
  | [] => []
  | f :: fs => if bytes (f :: fs) ≤ maxBytes then f :: fs else newest maxBytes fs

lemma newest_of_le {maxBytes : ℤ} {fs : List DiskFile} (h : bytes fs ≤ maxBytes) :
    newest maxBytes fs = fs := by
  cases fs with
  | nil => rfl
  | cons f fs => exact if_pos h

lemma bytes_newest_le {maxBytes : ℤ} (hmax : 0 ≤ maxBytes) (fs : List DiskFile) :
    bytes (newest maxBytes fs) ≤ maxBytes := by
  induction fs with
  | nil => exact hmax
  | cons f fs ih =>
    rw [newest]
    split
    · assumption
    · exact ih

variable {maxBytes total : ℤ} {p : Pruned}

/-- The files the loop still goes through are those of the topic, and the counter is right. -/
structure Walk (uri : List String) (total : ℤ) (p : Pruned) (fs : List DiskFile) : Prop where
  sound : p.disk.Sound
  files : p.disk.listPartitionFiles uri = fs
  size : total - p.freed = bytes fs

lemma Walk.head {fs : List DiskFile} (h : Walk uri total p (f :: fs)) :
    f.locked = false ∧ isUnder uri f = true ∧ isParquet f = true := by
  have hmem : f ∈ p.disk.parquetUnder uri :=
    mem_listPartitionFiles.1 (h.files ▸ List.mem_cons_self)
  exact ⟨h.sound.unlocked f (mem_parquetUnder.1 hmem).1, (mem_parquetUnder.1 hmem).2⟩

lemma Walk.step_eq {fs : List DiskFile} (h : Walk uri total p (f :: fs))
    (hover : ¬ total - p.freed ≤ maxBytes) :
    sizeStep maxBytes total p f = ⟨p.disk.unlink f none, p.freed + f.size⟩ := by
  rw [sizeStep, if_neg hover, h.head.1]
  rfl

/-- Above the cap, a turn deletes the oldest file. -/
lemma Walk.step {fs : List DiskFile} (h : Walk uri total p (f :: fs))
    (hover : ¬ total - p.freed ≤ maxBytes) :
    Shrinks [uri] p.disk (sizeStep maxBytes total p f).disk ∧
      Walk uri total (sizeStep maxBytes total p f) fs := by
  have hshrinks : Shrinks [uri] p.disk (p.disk.unlink f none) :=
    shrinks_unlink h.head.2.1 h.head.2.2 none
  rw [h.step_eq hover]
  refine ⟨hshrinks, h.sound.shrink hshrinks, listPartitionFiles_unlink_head h.sound h.files none, ?_⟩
  have hsize := h.size
  simp only [bytes, List.map_cons, List.sum_cons] at hsize ⊢
  omega

lemma outputs_sizeRemoval_under (hunder : total - p.freed ≤ maxBytes) (fs : List DiskFile) :
    outputs (sizeStep maxBytes total) (sizeRemoval maxBytes total) p fs = [] := by
  induction fs with
  | nil => rfl
  | cons f fs ih =>
    have hstep : sizeStep maxBytes total p f = p := if_pos hunder
    rw [outputs, hstep, ih, sizeRemoval, if_pos (.inl hunder), List.nil_append]

lemma Walk.foldl {fs : List DiskFile} (h : Walk uri total p fs) :
    Shrinks [uri] p.disk (fs.foldl (sizeStep maxBytes total) p).disk ∧
      (fs.foldl (sizeStep maxBytes total) p).disk.listPartitionFiles uri = newest maxBytes fs ∧
      ∀ r ∈ outputs (sizeStep maxBytes total) (sizeRemoval maxBytes total) p fs,
        r.before.files ⊆ p.disk.files ∧ r.OldestOf uri maxBytes := by
  induction fs generalizing p with
  | nil => exact ⟨Shrinks.refl _ _, h.files, by simp [outputs]⟩
  | cons f fs ih =>
    by_cases hover : total - p.freed ≤ maxBytes
    · rw [foldl_sizeStep_under hover, outputs_sizeRemoval_under hover,
        newest_of_le (h.size ▸ hover)]
      exact ⟨Shrinks.refl _ _, h.files, by simp⟩
    · obtain ⟨hshrinks, hwalk⟩ := h.step hover
      obtain ⟨hrest, hfiles, hremovals⟩ := ih hwalk
      rw [List.foldl_cons, outputs, newest, if_neg (h.size ▸ hover)]
      refine ⟨hshrinks.trans hrest, hfiles, fun r hr => ?_⟩
      rcases List.mem_append.1 hr with hr | hr
      · rw [sizeRemoval, if_neg (by simp [hover, h.head.1])] at hr
        obtain rfl := List.mem_singleton.1 hr
        refine ⟨List.Subset.refl _, ?_, by rw [h.files]; rfl⟩
        rw [topicDirSizeBytes_eq, h.files, ← h.size]
        omega
      · obtain ⟨hsub, hremoval⟩ := hremovals r hr
        exact ⟨List.Subset.trans hsub hshrinks.sublist.subset, hremoval⟩

/-- The size cap keeps the newest files of a topic, and deletes the oldest first. -/
lemma pruneTopicSize_spec (hd : d.Sound) :
    Shrinks [uri] d (d.pruneTopicSize uri maxBytes).disk ∧
      (d.pruneTopicSize uri maxBytes).disk.listPartitionFiles uri =
        newest maxBytes (d.listPartitionFiles uri) ∧
      ∀ r ∈ d.sizeRemovals uri maxBytes, r.before.files ⊆ d.files ∧ r.OldestOf uri maxBytes := by
  have hwalk : Walk uri (bytes (d.listPartitionFiles uri)) ⟨d, 0⟩ (d.listPartitionFiles uri) :=
    ⟨hd, rfl, by simp⟩
  rw [pruneTopicSize_eq_foldl]
  exact hwalk.foldl

/-! ## The global size cap -/

/-- The files of several topics, those of each from the oldest on. -/
def queuesOf (specs : List (String × List String)) (d : Disk) : List (String × List DiskFile) :=
  specs.map fun spec => (spec.1, d.listPartitionFiles spec.2)

/-- The sizes of the topics. -/
def queueSizes (qs : List (String × List DiskFile)) : Dict String ℤ :=
  dictOf (qs.map fun q => (q.1, bytes q.2))

/-- The bytes of all topics. -/
def queueTotal (qs : List (String × List DiskFile)) : ℤ := (qs.map fun q => bytes q.2).sum

/-- Drop the oldest file of a topic. -/
def dropHead (slug : String) (qs : List (String × List DiskFile)) : List (String × List DiskFile) :=
  qs.map fun q => (q.1, if q.1 = slug then q.2.tail else q.2)

/-- Drop the oldest file of the largest topic. -/
def dropOldest (qs : List (String × List DiskFile)) : List (String × List DiskFile) :=
  match largest (queueSizes qs) with
  | some (slug, _) => dropHead slug qs
  | none => qs

/-- Drop oldest files until the cap is met, at most `n` times. -/
def dropUntil (cap : ℤ) : ℕ → List (String × List DiskFile) → List (String × List DiskFile)
  | 0, qs => qs
  | n + 1, qs => if queueTotal qs ≤ cap then qs else dropUntil cap n (dropOldest qs)

/-- What one iteration of the global cap deletes. -/
def globalRemoval (uriBySlug : Dict String (List String)) (total cap : ℤ) (s : GlobalState) :
    List Removal :=
  match globalCandidate uriBySlug total cap s with
  | some (_, some f) => if f.locked then [] else [⟨s.pruned.disk, f⟩]
  | _ => []

/-- What the global cap deletes. -/
def globalRemovals (d : Disk) (specs : List (String × List String)) (cap : ℤ) : List Removal :=
  let total := d.globalTotal specs
  outputs (fun s _ => globalStep (dictOf specs) total cap s)
    (fun s _ => globalRemoval (dictOf specs) total cap s) (d.globalStart specs)
    (List.replicate 1000 ())

/-- No file is stored in two of the directories. -/
def Unshared (specs : List (String × List String)) (files : List DiskFile) : Prop :=
  specs.Pairwise fun spec spec' =>
    ∀ f ∈ files, ¬ (isUnder spec.2 f = true ∧ isUnder spec'.2 f = true)

variable {specs : List (String × List String)} {qs : List (String × List DiskFile)} {cap : ℤ}

lemma Unshared.of_ne {files : List DiskFile} (h : Unshared specs files)
    {spec spec' : String × List String} (hspec : spec ∈ specs) (hspec' : spec' ∈ specs)
    (hne : spec ≠ spec') (hf : f ∈ files) (hunder : isUnder spec.2 f = true) :
    isUnder spec'.2 f = false := by
  have hsymm : Std.Symm fun spec spec' : String × List String =>
      ∀ f ∈ files, ¬ (isUnder spec.2 f = true ∧ isUnder spec'.2 f = true) :=
    ⟨fun _ _ hunshared f hf hboth => hunshared f hf hboth.symm⟩
  refine Bool.eq_false_iff.2 fun hunder' => ?_
  exact List.Pairwise.forall h hspec hspec' hne f hf ⟨hunder, hunder'⟩

lemma Unshared.subset {files files' : List DiskFile} (h : Unshared specs files)
    (hfiles : files' ⊆ files) : Unshared specs files' :=
  h.imp fun hunshared f hf => hunshared f (hfiles hf)

/-- Pairs with different keys are the entries of their dictionary. -/
lemma entries_dictOf {ν : Type} {entries : List (String × ν)}
    (h : (entries.map Prod.fst).Nodup) : (dictOf entries).entries = entries := by
  induction entries using List.reverseRecOn with
  | nil => rfl
  | append_singleton entries e ih =>
    rw [List.map_append, List.nodup_append] at h
    have hnew : (dictOf entries).get? e.1 = none := by
      rw [Dict.get?_eq_none, Dict.keys, ih h.1]
      exact fun hmem => h.2.2 _ hmem e.1 (by simp) rfl
    rw [dictOf, List.foldl_append]
    exact (Dict.entries_set_of_none hnew e.2).trans (by rw [ih h.1])

lemma get?_dictOf {ν : Type} {entries : List (String × ν)} (h : (entries.map Prod.fst).Nodup)
    {e : String × ν} (he : e ∈ entries) : (dictOf entries).get? e.1 = some e.2 := by
  rw [← Dict.mem_entries, entries_dictOf h]
  exact he

lemma keys_dictOf {ν : Type} {entries : List (String × ν)} (h : (entries.map Prod.fst).Nodup) :
    (dictOf entries).keys = entries.map Prod.fst := by
  rw [Dict.keys, entries_dictOf h]

section Queues

variable (hqs : (qs.map Prod.fst).Nodup)

include hqs

lemma nodup_queueSizes : ((qs.map fun q => (q.1, bytes q.2)).map Prod.fst).Nodup := by
  rw [List.map_map]
  exact hqs

lemma keys_queueSizes : (queueSizes qs).keys = qs.map Prod.fst := by
  rw [queueSizes, keys_dictOf (nodup_queueSizes hqs), List.map_map]
  rfl

lemma get?_queueSizes {q : String × List DiskFile} (hq : q ∈ qs) :
    (queueSizes qs).get? q.1 = some (bytes q.2) := by
  have hmem : (q.1, bytes q.2) ∈ qs.map fun q => (q.1, bytes q.2) := List.mem_map.2 ⟨q, hq, rfl⟩
  exact get?_dictOf (nodup_queueSizes hqs) hmem

lemma total_queueSizes : (queueSizes qs).total (fun _ size => size) = queueTotal qs := by
  show (queueSizes qs).values.sum = queueTotal qs
  rw [Dict.values, queueSizes, entries_dictOf (nodup_queueSizes hqs), List.map_map]
  rfl

end Queues

lemma fst_dropHead (slug : String) (qs : List (String × List DiskFile)) :
    (dropHead slug qs).map Prod.fst = qs.map Prod.fst := by
  rw [dropHead, List.map_map]
  rfl

/-- Dropping the oldest file of a topic takes its size from the topic's. -/
lemma queueSizes_dropHead (hqs : (qs.map Prod.fst).Nodup) {slug : String} {fs : List DiskFile}
    (hq : (slug, f :: fs) ∈ qs) : queueSizes (dropHead slug qs) =
      (queueSizes qs).set slug ((queueSizes qs).getD slug 0 - f.size) := by
  have hqs' : ((dropHead slug qs).map Prod.fst).Nodup := by rwa [fst_dropHead]
  have hsize : (queueSizes qs).get? slug = some (bytes (f :: fs)) := get?_queueSizes hqs hq
  refine Dict.ext_get? ?_ fun k => ?_
  · rw [Dict.keys_set_of_some hsize, keys_queueSizes hqs, keys_queueSizes hqs', fst_dropHead]
  · rw [Dict.get?_set, Dict.getD, hsize, Option.getD_some]
    -- the entry of the topic itself, of another topic, and of no topic
    by_cases hmem : k ∈ qs.map Prod.fst
    · obtain ⟨q, hq', rfl⟩ := List.mem_map.1 hmem
      have hdropped : (q.1, if q.1 = slug then q.2.tail else q.2) ∈ dropHead slug qs :=
        List.mem_map.2 ⟨q, hq', rfl⟩
      rw [get?_queueSizes hqs' hdropped, get?_queueSizes hqs hq']
      by_cases hk : slug = q.1
      · have hsame : q.2 = f :: fs :=
          List.inj_on_of_nodup_map hqs hq' hq hk.symm ▸ rfl
        simp [hk, hsame, bytes]
      · simp [hk, Ne.symm hk]
    · have hne : slug ≠ k := by
        rintro rfl
        exact hmem (List.mem_map.2 ⟨_, hq, rfl⟩)
      rw [if_neg hne, Dict.get?_eq_none.2 (by rwa [keys_queueSizes hqs', fst_dropHead]),
        Dict.get?_eq_none.2 (by rwa [keys_queueSizes hqs])]

lemma queueTotal_dropHead (hqs : (qs.map Prod.fst).Nodup) {slug : String} {fs : List DiskFile}
    (hq : (slug, f :: fs) ∈ qs) : queueTotal (dropHead slug qs) = queueTotal qs - f.size := by
  have hget : (queueSizes qs).get? slug = some (bytes (f :: fs)) := get?_queueSizes hqs hq
  rw [← total_queueSizes hqs, ← total_queueSizes (by rwa [fst_dropHead]),
    queueSizes_dropHead hqs hq, Dict.total_set, Dict.share_of_some hget, Dict.getD, hget,
    Option.getD_some]
  omega

/-- The loop that looks for the largest entry, from an entry on. -/
lemma foldl_largest_some (es : List (String × ℤ)) (b : String × ℤ) :
    ∃ c ∈ b :: es, (∀ e ∈ b :: es, e.2 ≤ c.2) ∧
      es.foldl (fun best e => match best with
        | none => some e
        | some b => if b.2 < e.2 then some e else some b) (some b) = some c := by
  induction es generalizing b with
  | nil => exact ⟨b, List.mem_singleton_self b, by simp, rfl⟩
  | cons e es ih =>
    rw [List.foldl_cons]
    dsimp only
    by_cases hlt : b.2 < e.2
    · obtain ⟨c, hc, hmax, hfold⟩ := ih e
      rw [if_pos hlt]
      refine ⟨c, List.mem_cons_of_mem b hc, ?_, hfold⟩
      exact List.forall_mem_cons.2 ⟨hlt.le.trans (hmax e List.mem_cons_self), hmax⟩
    · obtain ⟨c, hc, hmax, hfold⟩ := ih b
      obtain ⟨hb, hes⟩ := List.forall_mem_cons.1 hmax
      rw [if_neg hlt]
      refine ⟨c, ?_, List.forall_mem_cons.2 ⟨hb, List.forall_mem_cons.2 ⟨?_, hes⟩⟩, hfold⟩
      · rcases List.mem_cons.1 hc with rfl | hc
        · exact List.mem_cons_self
        · exact List.mem_cons_of_mem _ (List.mem_cons_of_mem _ hc)
      · exact (not_lt.1 hlt).trans hb

/-- There is a largest entry, and no entry is larger. -/
lemma largest_spec {sizes : Dict String ℤ} (h : sizes.entries ≠ []) :
    ∃ e ∈ sizes.entries, (∀ e' ∈ sizes.entries, e'.2 ≤ e.2) ∧ largest sizes = some e := by
  rw [largest]
  cases hentries : sizes.entries with
  | nil => exact absurd hentries h
  | cons e es => exact foldl_largest_some es e

/-- Topics that hold anything have a largest one, and it has an oldest file. -/
lemma exists_largest (hqs : (qs.map Prod.fst).Nodup) (htotal : 0 < queueTotal qs) :
    ∃ slug f fs, (slug, f :: fs) ∈ qs ∧ 0 < bytes (f :: fs) ∧
      largest (queueSizes qs) = some (slug, bytes (f :: fs)) := by
  have hentries : (queueSizes qs).entries = qs.map fun q => (q.1, bytes q.2) :=
    entries_dictOf (nodup_queueSizes hqs)
  have hne : (queueSizes qs).entries ≠ [] := by
    rw [hentries]
    intro hnil
    rw [List.map_eq_nil_iff] at hnil
    simp [hnil, queueTotal] at htotal
  obtain ⟨e, he, hmax, hlargest⟩ := largest_spec hne
  rw [hentries] at he hmax
  obtain ⟨⟨slug, fs⟩, hq, rfl⟩ := List.mem_map.1 he
  -- if the largest were empty, all would be
  have hpos : 0 < bytes fs := by
    by_contra hzero
    have hle := List.sum_le_card_nsmul (qs.map fun q => bytes q.2) 0 fun x hx => by
      obtain ⟨q, hq', rfl⟩ := List.mem_map.1 hx
      exact (hmax _ (List.mem_map_of_mem hq')).trans (not_lt.1 hzero)
    rw [nsmul_zero] at hle
    exact htotal.not_ge hle
  cases fs with
  | nil => exact absurd hpos (by simp [bytes])
  | cons f fs => exact ⟨slug, f, fs, hq, hpos, hlargest⟩

lemma fst_queuesOf (specs : List (String × List String)) (d : Disk) :
    (queuesOf specs d).map Prod.fst = specs.map Prod.fst := by
  rw [queuesOf, List.map_map]
  rfl

/-- Deleting the oldest file of a topic drops it from the topic's files, and from no other's. -/
lemma queuesOf_unlink (hslugs : (specs.map Prod.fst).Nodup) (hunshared : Unshared specs d.files)
    (hd : d.Sound) {spec : String × List String} (hspec : spec ∈ specs) {fs : List DiskFile}
    (hfiles : d.listPartitionFiles spec.2 = f :: fs) :
    queuesOf specs (d.unlink f none) = dropHead spec.1 (queuesOf specs d) := by
  have hmem := mem_parquetUnder.1 (mem_listPartitionFiles.1 (hfiles ▸ List.mem_cons_self))
  rw [queuesOf, dropHead, queuesOf, List.map_map]
  refine List.map_congr_left fun spec' hspec' => ?_
  dsimp only [Function.comp]
  by_cases hsame : spec'.1 = spec.1
  · obtain rfl := List.inj_on_of_nodup_map hslugs hspec' hspec hsame
    rw [if_pos rfl, listPartitionFiles_unlink_head hd hfiles none, hfiles, List.tail_cons]
  -- no other topic lists the file
  · have hfar := hunshared.of_ne hspec hspec' (fun heq => hsame (congrArg Prod.fst heq.symm))
      hmem.1 hmem.2.1
    rw [if_neg hsame, listPartitionFiles_unlink_of_not_under hfar none]

/-- The sizes and the counter of the loop are right: what it notes for each topic is the size on
disk, and the total less what it has freed is the size of all topics together. -/
structure GlobalWalk (specs : List (String × List String)) (total : ℤ) (s : GlobalState) :
    Prop where
  sound : s.pruned.disk.Sound
  unshared : Unshared specs s.pruned.disk.files
  sizes : s.sizes = queueSizes (queuesOf specs s.pruned.disk)
  size : total - s.pruned.freed = queueTotal (queuesOf specs s.pruned.disk)

/-- The deletion takes the oldest file of a topic while the topics are above the global cap. -/
def Removal.OldestAbove (r : Removal) (specs : List (String × List String)) (cap : ℤ) : Prop :=
  cap < queueTotal (queuesOf specs r.before) ∧
    ∃ spec ∈ specs, (r.before.listPartitionFiles spec.2).head? = some r.file

variable {total : ℤ} {s : GlobalState}

/-- Above the cap, an iteration deletes the oldest file of the largest topic. -/
lemma GlobalWalk.step (hslugs : (specs.map Prod.fst).Nodup) (hcap : 0 ≤ cap)
    (h : GlobalWalk specs total s) (hover : ¬ total - s.pruned.freed ≤ cap) :
    Shrinks (specs.map Prod.snd) s.pruned.disk
        (globalStep (dictOf specs) total cap s).pruned.disk ∧
      queuesOf specs (globalStep (dictOf specs) total cap s).pruned.disk =
        dropOldest (queuesOf specs s.pruned.disk) ∧
      GlobalWalk specs total (globalStep (dictOf specs) total cap s) ∧
      ∀ r ∈ globalRemoval (dictOf specs) total cap s, r.OldestAbove specs cap ∧
        r.before.files ⊆ s.pruned.disk.files := by
  have hqs : ((queuesOf specs s.pruned.disk).map Prod.fst).Nodup := by rwa [fst_queuesOf]
  have habove : cap < queueTotal (queuesOf specs s.pruned.disk) := by
    rw [← h.size]
    omega
  -- the cap is not negative, so some topic holds a file, and the loop finds it
  obtain ⟨slug, f, fs, hq, hpos, hlargest⟩ := exists_largest hqs (hcap.trans_lt habove)
  obtain ⟨spec, hspec, heq⟩ := List.mem_map.1 hq
  obtain ⟨rfl, hfiles⟩ := Prod.mk.inj heq
  have hmem := mem_parquetUnder.1 (mem_listPartitionFiles.1 (hfiles ▸ List.mem_cons_self))
  have hunlocked : f.locked = false := h.sound.unlocked f hmem.1
  have hcandidate : globalCandidate (dictOf specs) total cap s = some (spec.1, some f) := by
    rw [globalCandidate, if_neg hover, h.sizes, hlargest]
    dsimp only
    rw [if_neg (by omega), Dict.getD, get?_dictOf hslugs hspec, Option.getD_some, hfiles]
    rfl
  have hstep : globalStep (dictOf specs) total cap s =
      { pruned := ⟨s.pruned.disk.unlink f none, s.pruned.freed + f.size⟩
        sizes := s.sizes.set spec.1 (s.sizes.getD spec.1 0 - f.size) } := by
    simp only [globalStep, hcandidate, hunlocked, Bool.false_eq_true, if_false]
  have hshrinks : Shrinks (specs.map Prod.snd) s.pruned.disk (s.pruned.disk.unlink f none) := by
    refine (shrinks_unlink hmem.2.1 hmem.2.2 none).mono fun dir hdir => ?_
    rw [List.mem_singleton.1 hdir]
    exact List.mem_map_of_mem hspec
  have hqueues := queuesOf_unlink hslugs h.unshared h.sound hspec hfiles
  refine ⟨by rw [hstep]; exact hshrinks, ?_, ?_, ?_⟩
  · rw [hstep, dropOldest, hlargest]
    exact hqueues
  · rw [hstep]
    refine ⟨h.sound.shrink hshrinks, h.unshared.subset hshrinks.sublist.subset, ?_, ?_⟩
    · dsimp only
      rw [hqueues, queueSizes_dropHead hqs hq, h.sizes]
    · have hsize := h.size
      dsimp only
      rw [hqueues, queueTotal_dropHead hqs hq]
      omega
  · intro r hr
    rw [globalRemoval, hcandidate] at hr
    simp only [hunlocked, Bool.false_eq_true, if_false, List.mem_singleton] at hr
    subst hr
    exact ⟨⟨habove, spec, hspec, by rw [hfiles]; rfl⟩, List.Subset.refl _⟩

/-- Iterations under the cap delete nothing. -/
lemma outputs_globalRemoval_under (hunder : total - s.pruned.freed ≤ cap) (us : List Unit) :
    outputs (fun s _ => globalStep (dictOf specs) total cap s)
      (fun s _ => globalRemoval (dictOf specs) total cap s) s us = [] := by
  have hnone : globalCandidate (dictOf specs) total cap s = none := if_pos hunder
  have hstep : globalStep (dictOf specs) total cap s = s := by rw [globalStep, hnone]
  induction us with
  | nil => rfl
  | cons u us ih => rw [outputs, hstep, ih, globalRemoval, hnone, List.nil_append]

lemma dropUntil_of_le (h : queueTotal qs ≤ cap) (n : ℕ) : dropUntil cap n qs = qs := by
  cases n with
  | zero => rfl
  | succ n => exact if_pos h

/-- A number of iterations drops oldest files until the cap is met. -/
lemma GlobalWalk.foldl (hslugs : (specs.map Prod.fst).Nodup) (hcap : 0 ≤ cap)
    (h : GlobalWalk specs total s) (n : ℕ) :
    let s' := (List.replicate n ()).foldl (fun s _ => globalStep (dictOf specs) total cap s) s
    Shrinks (specs.map Prod.snd) s.pruned.disk s'.pruned.disk ∧
      queuesOf specs s'.pruned.disk = dropUntil cap n (queuesOf specs s.pruned.disk) ∧
      ∀ r ∈ outputs (fun s _ => globalStep (dictOf specs) total cap s)
        (fun s _ => globalRemoval (dictOf specs) total cap s) s (List.replicate n ()),
        r.OldestAbove specs cap ∧ r.before.files ⊆ s.pruned.disk.files := by
  induction n generalizing s with
  | zero => exact ⟨Shrinks.refl _ _, rfl, by simp [outputs]⟩
  | succ n ih =>
    by_cases hover : total - s.pruned.freed ≤ cap
    · dsimp only
      rw [foldl_globalStep_under hover, outputs_globalRemoval_under hover,
        dropUntil_of_le (h.size ▸ hover)]
      exact ⟨Shrinks.refl _ _, rfl, by simp⟩
    · obtain ⟨hshrinks, hqueues, hwalk, hremoval⟩ := h.step hslugs hcap hover
      obtain ⟨hrest, hleft, hremovals⟩ := ih hwalk
      rw [List.replicate_succ, List.foldl_cons, outputs, dropUntil, if_neg (h.size ▸ hover),
        ← hqueues]
      refine ⟨hshrinks.trans hrest, hleft, fun r hr => ?_⟩
      rcases List.mem_append.1 hr with hr | hr
      · exact hremoval r hr
      · exact (hremovals r hr).imp_right fun hsub => List.Subset.trans hsub hshrinks.sublist.subset

/-- The global cap drops oldest files until it is met, at most 1000 of them. -/
lemma pruneGlobalSize_spec (hslugs : (specs.map Prod.fst).Nodup)
    (hunshared : Unshared specs d.files) (hcap : 0 ≤ cap) (hd : d.Sound) :
    Shrinks (specs.map Prod.snd) d (d.pruneGlobalSize specs cap).disk ∧
      queuesOf specs (d.pruneGlobalSize specs cap).disk =
        dropUntil cap 1000 (queuesOf specs d) ∧
      ∀ r ∈ d.globalRemovals specs cap, r.OldestAbove specs cap ∧ r.before.files ⊆ d.files := by
  have hsizes : (d.globalStart specs).sizes = queueSizes (queuesOf specs d) := by
    rw [globalStart, queueSizes, queuesOf, List.map_map]
    refine congrArg dictOf (List.map_congr_left fun spec _ => ?_)
    exact congrArg _ (topicDirSizeBytes_eq d spec.2)
  have hwalk : GlobalWalk specs (d.globalTotal specs) (d.globalStart specs) := by
    refine ⟨hd, hunshared, hsizes, ?_⟩
    have htotal : d.globalTotal specs =
        (queueSizes (queuesOf specs d)).total fun _ size => size := by
      rw [globalTotal, hsizes]
      rfl
    rw [htotal, total_queueSizes (by rwa [fst_queuesOf])]
    exact sub_zero _
  rw [pruneGlobalSize_eq_foldl]
  exact hwalk.foldl hslugs hcap 1000

end Disk

/-! ## The pass over the topics -/

/-- The directory that a pass deletes files of a topic in, if a cap may ask for that: topics of the
bus are under the global cap, the others can only have an age cap. -/
def prunedDir (t : Topic) : Option (List String) :=
  if t.storageKind = .parquet ∨ (capOf t.retentionDays).isSome then t.storageUri else none

/-- The directories that a pass deletes files in. -/
def prunedDirs (topics : List Topic) : List (List String) := (scanned topics).filterMap prunedDir

section Pass

variable (parseDate : String → Option ℤ) (now : ℚ)

/-- What the caps of the topics leave of the topics of the bus. -/
def queuesLeft (topics : List Topic) (files : List DiskFile) : List (String × List DiskFile) :=
  Disk.queuesOf (specsOf topics) ⟨leftByTopics parseDate now topics files, []⟩

/-- What the size cap of a topic deletes. -/
def sizeCapRemovals (t : Topic) (uri : List String) (d : Disk) : List Disk.Removal :=
  match sizeCapOf t with
  | some maxBytes => d.sizeRemovals uri maxBytes
  | none => []

/-- What the turn of a topic deletes for its size. -/
def topicRemoval (s : PassState) (t : Topic) : List (Topic × Disk.Removal) :=
  match t.storageUri with
  | none => []
  | some uri => (sizeCapRemovals t uri (ageCap parseDate now t uri s.disk).disk).map fun r => (t, r)

/-- What the pass over the topics deletes for their sizes. -/
def topicRemovals (topics : List Topic) (files : List DiskFile) : List (Topic × Disk.Removal) :=
  outputs (topicStep parseDate now) (topicRemoval parseDate now) ⟨⟨files, []⟩, 0, 0, []⟩
    (scanned topics)

/-- What the global cap deletes after it. -/
def globalCapRemovals (settings : Option PrunerSettings) (topics : List Topic)
    (files : List DiskFile) : List Disk.Removal :=
  let s := topicPass parseDate now topics files
  match globalCapOf settings s with
  | some cap => s.disk.globalRemovals s.specs cap
  | none => []

end Pass

section Pass

variable {parseDate : String → Option ℤ} {now : ℚ} {t : Topic} {uri : List String} {d : Disk}
  {s : PassState} {ts : List Topic}

lemma pos_of_mem_capOf {cap : Option ℤ} {c : ℤ} (h : c ∈ capOf cap) : 0 < c := by
  simpa using (Option.filter_eq_some_iff.1 h).2

lemma mem_agedFiles {files : List DiskFile} {f : DiskFile} :
    f ∈ agedFiles parseDate now t uri files ↔ ∃ days ∈ capOf t.retentionDays,
      f ∈ Disk.expiredFiles parseDate (Disk.cutoffDay days now) uri files := by
  rw [agedFiles]
  cases capOf t.retentionDays <;> simp

lemma shrinks_ageCap : Disk.Shrinks [uri] d (ageCap parseDate now t uri d).disk := by
  refine Disk.shrinks_without _ (fun f hf => ?_) ageCap_spec.1
  obtain ⟨days, -, hf⟩ := mem_agedFiles.1 hf
  obtain ⟨-, hexpired, hparquet, -⟩ := Disk.mem_expiredFiles.1 hf
  exact ⟨Disk.isUnder_of_expired hexpired, hparquet⟩

/-- Without an age cap nothing is deleted for its age. -/
lemma ageCap_of_none (h : capOf t.retentionDays = none) : ageCap parseDate now t uri d = ⟨d, 0⟩ := by
  rw [ageCap, h]

lemma not_expired_ageCap (hd : d.Sound) {days : ℤ} (hdays : days ∈ capOf t.retentionDays)
    {f : DiskFile} (hf : f ∈ (ageCap parseDate now t uri d).disk.files)
    (hparquet : Disk.isParquet f = true) :
    Disk.expired parseDate (Disk.cutoffDay days now) uri f = false := by
  rw [ageCap_spec.1, Disk.without, List.mem_filter, decide_eq_true_iff] at hf
  refine Bool.eq_false_iff.2 fun hexpired => hf.2 (List.mem_map_of_mem ?_)
  exact mem_agedFiles.2 ⟨days, hdays,
    Disk.mem_expiredFiles.2 ⟨hf.1, hexpired, hparquet, hd.unlocked f hf.1⟩⟩

lemma sizeCap_of_some {maxBytes : ℤ} (h : sizeCapOf t = some maxBytes) :
    sizeCap t uri d = d.pruneTopicSize uri maxBytes := by
  rw [sizeCapOf] at h
  split at h
  · next hkind => rw [sizeCap, hkind, h]
  · cases h

lemma sizeCap_of_none (h : sizeCapOf t = none) : sizeCap t uri d = ⟨d, 0⟩ := by
  rw [sizeCap]
  split
  · next hkind hmax =>
    rw [sizeCapOf, if_pos hkind, hmax] at h
    cases h
  · rfl

/-- The size cap of a topic is met, if there is one, and takes the oldest files. -/
lemma sizeCap_spec (hd : d.Sound) :
    Disk.Shrinks [uri] d (sizeCap t uri d).disk ∧
      (∀ maxBytes ∈ sizeCapOf t, (sizeCap t uri d).disk.topicDirSizeBytes uri ≤ maxBytes) ∧
      ∀ r ∈ sizeCapRemovals t uri d, r.before.files ⊆ d.files ∧
        ∃ maxBytes ∈ sizeCapOf t, r.OldestOf uri maxBytes := by
  rw [sizeCapRemovals]
  cases hcap : sizeCapOf t with
  | none =>
    rw [sizeCap_of_none hcap]
    exact ⟨Disk.Shrinks.refl _ d, by simp, by simp⟩
  | some maxBytes =>
    obtain ⟨hshrinks, hfiles, hremovals⟩ := @Disk.pruneTopicSize_spec d uri maxBytes hd
    have hpos : 0 < maxBytes := by
      rw [sizeCapOf] at hcap
      split at hcap
      · exact pos_of_mem_capOf hcap
      · cases hcap
    rw [sizeCap_of_some hcap]
    refine ⟨hshrinks, fun maxBytes' hmax => ?_, fun r hr => ?_⟩
    · obtain rfl := Option.some.inj hmax
      rw [Disk.topicDirSizeBytes_eq, hfiles]
      exact Disk.bytes_newest_le hpos.le _
    · obtain ⟨hsub, hremoval⟩ := hremovals r hr
      exact ⟨hsub, maxBytes, rfl, hremoval⟩

lemma shrinks_topicStep (hs : s.disk.Sound) :
    Disk.Shrinks (prunedDir t).toList s.disk (topicStep parseDate now s t).disk := by
  cases huri : t.storageUri with
  | none =>
    rw [topicStep, huri]
    exact Disk.Shrinks.refl _ _
  | some uri =>
    have haged : Disk.Shrinks [uri] s.disk (ageCap parseDate now t uri s.disk).disk :=
      shrinks_ageCap
    rw [topicStep, huri]
    dsimp only
    rw [prunedDir]
    split
    · rw [huri]
      exact haged.trans (sizeCap_spec (t := t) (hs.shrink haged)).1
    · next hcaps =>
      -- a source from elsewhere without a retention: neither cap applies
      obtain ⟨hkind, hdays⟩ := not_or.1 hcaps
      rw [ageCap_of_none (Option.not_isSome_iff_eq_none.1 hdays), sizeCap_of_none (if_neg hkind)]
      exact Disk.Shrinks.refl _ _

/-- After the turn of a topic, the topic is within its caps. -/
lemma topicStep_spec (huri : t.storageUri = some uri) (hs : s.disk.Sound) :
    (∀ days ∈ capOf t.retentionDays, ∀ f ∈ (topicStep parseDate now s t).disk.files,
        Disk.isParquet f = true →
          Disk.expired parseDate (Disk.cutoffDay days now) uri f = false) ∧
      (∀ maxBytes ∈ sizeCapOf t,
        (topicStep parseDate now s t).disk.topicDirSizeBytes uri ≤ maxBytes) ∧
      ∀ e ∈ topicRemoval parseDate now s t, e.1 = t ∧ e.2.before.files ⊆ s.disk.files ∧
        ∃ maxBytes ∈ sizeCapOf t, e.2.OldestOf uri maxBytes := by
  have haged : Disk.Shrinks [uri] s.disk (ageCap parseDate now t uri s.disk).disk := shrinks_ageCap
  obtain ⟨hsized, hmet, hremovals⟩ := @sizeCap_spec t uri _ (hs.shrink haged)
  rw [topicStep, topicRemoval, huri]
  refine ⟨fun days hdays f hf hparquet => ?_, hmet, fun e he => ?_⟩
  · exact not_expired_ageCap hs hdays (hsized.sublist.subset hf) hparquet
  · obtain ⟨r, hr, rfl⟩ := List.mem_map.1 he
    obtain ⟨hsub, hremoval⟩ := hremovals r hr
    exact ⟨rfl, List.Subset.trans hsub haged.sublist.subset, hremoval⟩

/-- What the pass over topics has done when it ends: it only deleted below its topics, each is
within its retention and its size, and every deletion for a size took the oldest file of a topic
above its cap. -/
structure PassDone (parseDate : String → Option ℤ) (now : ℚ) (ts : List Topic) (s s' : PassState) :
    Prop where
  shrinks : Disk.Shrinks (ts.filterMap prunedDir) s.disk s'.disk
  aged : ∀ t ∈ ts, ∀ uri ∈ t.storageUri, ∀ days ∈ capOf t.retentionDays, ∀ f ∈ s'.disk.files,
    Disk.isParquet f = true → Disk.expired parseDate (Disk.cutoffDay days now) uri f = false
  sized : ∀ t ∈ ts, ∀ uri ∈ t.storageUri, ∀ maxBytes ∈ sizeCapOf t,
    s'.disk.topicDirSizeBytes uri ≤ maxBytes
  removals : ∀ e ∈ outputs (topicStep parseDate now) (topicRemoval parseDate now) s ts,
    e.1 ∈ ts ∧ e.2.before.files ⊆ s.disk.files ∧
      ∃ uri ∈ e.1.storageUri, ∃ maxBytes ∈ sizeCapOf e.1, e.2.OldestOf uri maxBytes

/-- Each topic of the pass is brought within its caps, and stays so. -/
lemma passDone_foldl (hs : s.disk.Sound) :
    PassDone parseDate now ts s (ts.foldl (topicStep parseDate now) s) := by
  induction ts generalizing s with
  | nil => exact ⟨Disk.Shrinks.refl _ _, by simp, by simp, by simp [outputs]⟩
  | cons t ts ih =>
    have hshrinks : Disk.Shrinks (prunedDir t).toList s.disk (topicStep parseDate now s t).disk :=
      shrinks_topicStep hs
    have hdone := ih (s := topicStep parseDate now s t) (hs.shrink hshrinks)
    have hdirs : (t :: ts).filterMap prunedDir = (prunedDir t).toList ++ ts.filterMap prunedDir := by
      rw [List.filterMap_cons]
      cases prunedDir t <;> rfl
    rw [List.foldl_cons]
    refine ⟨?_, ?_, ?_, ?_⟩
    · rw [hdirs]
      exact (hshrinks.mono (List.subset_append_left _ _)).trans
        (hdone.shrinks.mono (List.subset_append_right _ _))
    · refine List.forall_mem_cons.2 ⟨fun uri huri days hdays f hf => ?_, hdone.aged⟩
      exact (topicStep_spec huri hs).1 days hdays f (hdone.shrinks.sublist.subset hf)
    -- the later topics only delete, so what fits under a cap still does
    · refine List.forall_mem_cons.2 ⟨fun uri huri maxBytes hmax => ?_, hdone.sized⟩
      exact (hdone.shrinks.size_le uri).trans ((topicStep_spec huri hs).2.1 maxBytes hmax)
    · intro e he
      rcases List.mem_append.1 he with he | he
      · cases huri : t.storageUri with
        | none => simp [topicRemoval, huri] at he
        | some uri =>
          obtain ⟨rfl, hsub, hremoval⟩ := (topicStep_spec huri hs).2.2 e he
          exact ⟨List.mem_cons_self, hsub, uri, huri, hremoval⟩
      · obtain ⟨hmem, hsub, hremoval⟩ := hdone.removals e he
        exact ⟨List.mem_cons_of_mem t hmem, List.Subset.trans hsub hshrinks.sublist.subset, hremoval⟩

end Pass

end Evosport.Data
