/-
What the pruners do to pinned data.

A deletion spares the pins when the file is neither pinned nor below a pinned directory, and no
pinned path lies in a directory that is removed with it.  The pruner of the event bus does not look
at the pins at all.  The pruner of the book recordings asks only whether a window directory is
itself pinned, not whether something in it is.  So a pass spares the pins exactly if they are apart
from what the caps take of the files that it starts with: the expired partitions, the oldest files
of the topics that are too large, the heads of the largest backlogs, and the windows that the book
pruner removes (`pruners_spare_iff`).
-/
import Evosport.Data.PruneLoops

namespace Evosport.Data

open Lib

/-- The path is a directory or lies in it. -/
def Inside (p dir : String) : Prop := p = norm dir ∨ (norm dir ++ "/").toList <+: p.toList

instance (p dir : String) : Decidable (Inside p dir) := inferInstanceAs (Decidable (_ ∨ _))

/-- The deletion touches nothing that is pinned. -/
def Spares (pinned : List String) (x : Deletion) : Prop :=
  isPathPinned x.path pinned = false ∧ ∀ dir, x.dir = some dir → ∀ p ∈ pinned, ¬ Inside p dir

variable {pinned : List String}

lemma spares_file {path : String} :
    Spares pinned ⟨path, none⟩ ↔ isPathPinned path pinned = false := by
  simp [Spares]

lemma spares_inDir {path dir : String} :
    Spares pinned ⟨path, some dir⟩ ↔
      isPathPinned path pinned = false ∧ ∀ p ∈ pinned, ¬ Inside p dir := by
  simp [Spares]

/-! ## The pruner of the recorded event bus -/

namespace Disk

/-- Nothing that was deleted is pinned. -/
def Clean (pinned : List String) (d : Disk) : Prop := ∀ x ∈ d.deleted, Spares pinned x

/-- Files that are deleted one by one are spared exactly if none of them is pinned. -/
lemma clean_unlinkAll {d : Disk} {fs : List DiskFile} :
    (d.unlinkAll fs none).Clean pinned ↔
      d.Clean pinned ∧ ∀ f ∈ fs, isPathPinned (pathOf f.parts) pinned = false := by
  simp only [Clean, unlinkAll_eq, List.mem_append, or_imp, forall_and, List.forall_mem_map,
    spares_file]

end Disk

section Bus

variable (parseDate : String → Option ℤ) (now : ℚ)

/-- No pin is at what the caps of a topic take of the files: at an expired file or in its partition,
or at one of the oldest of the others that make up the excess. -/
def TopicSpared (pinned : List String) (t : Topic) (files : List DiskFile) : Prop :=
  ∀ uri, t.storageUri = some uri →
    (∀ f ∈ agedFiles parseDate now t uri files, ∀ part ∈ Disk.dateDirOf uri f,
      isPathPinned (pathOf f.parts) pinned = false ∧ ∀ p ∈ pinned, ¬ Inside p (pathOf part.1)) ∧
    ∀ f ∈ oversizeFiles t uri (Disk.without files (agedFiles parseDate now t uri files)),
      isPathPinned (pathOf f.parts) pinned = false

/-- No pin is at what the caps of the topics take, of the files that the topics before have left, nor
at what the global cap takes of what the topics have left. -/
def BusSpared (pinned : List String) (settings : Option PrunerSettings) (topics : List Topic)
    (files : List DiskFile) : Prop :=
  disabled settings = true ∨
    (∀ before t after, scanned topics = before ++ t :: after →
      TopicSpared parseDate now pinned t (before.foldl (leftBy parseDate now) files)) ∧
    ∀ cap, capOver settings topics = some cap →
      ∀ f ∈ Disk.globalFiles ⟨leftByTopics parseDate now topics files, []⟩ (specsOf topics) cap,
        isPathPinned (pathOf f.parts) pinned = false

variable {parseDate now}

lemma clean_ageCap {t : Topic} {uri : List String} {d : Disk} :
    (ageCap parseDate now t uri d).disk.Clean pinned ↔
      d.Clean pinned ∧ ∀ f ∈ agedFiles parseDate now t uri d.files, ∀ part ∈ Disk.dateDirOf uri f,
        isPathPinned (pathOf f.parts) pinned = false ∧
          ∀ p ∈ pinned, ¬ Inside p (pathOf part.1) := by
  simp only [Disk.Clean, ageCap_spec.2, or_imp, forall_and (p := fun x => x ∈ d.deleted → _)]
  refine and_congr_right fun _ => ⟨fun h f hf part hpart => ?_, ?_⟩
  · exact spares_inDir.1 (h _ ⟨f, hf, part, hpart, rfl⟩)
  · rintro h x ⟨f, hf, part, hpart, rfl⟩
    exact spares_inDir.2 (h f hf part hpart)

lemma clean_topicStep (s : PassState) (t : Topic) :
    (topicStep parseDate now s t).disk.Clean pinned ↔
      s.disk.Clean pinned ∧ TopicSpared parseDate now pinned t s.disk.files := by
  unfold topicStep TopicSpared
  cases t.storageUri with
  | none => simp
  | some uri =>
    simp only [sizeCap_disk, Disk.clean_unlinkAll, clean_ageCap, ageCap_spec.1, Option.some.injEq,
      forall_eq', and_assoc]

/-- Turn after turn, the topics spare the pins exactly if each does with what those before it have
left. -/
lemma clean_foldl_topicStep (s : PassState) (ts : List Topic) :
    (ts.foldl (topicStep parseDate now) s).disk.Clean pinned ↔
      s.disk.Clean pinned ∧ ∀ before t after, ts = before ++ t :: after →
        TopicSpared parseDate now pinned t (before.foldl (leftBy parseDate now) s.disk.files) := by
  induction ts generalizing s with
  | nil => simp
  | cons t ts ih =>
    rw [List.foldl_cons, ih, clean_topicStep, files_topicStep, and_assoc]
    refine and_congr_right fun _ => ⟨fun ⟨hfirst, hrest⟩ before t' after h => ?_, fun h => ⟨?_, ?_⟩⟩
    · cases before with
      | nil =>
        obtain ⟨rfl, -⟩ := List.cons.inj h
        exact hfirst
      | cons t₀ before =>
        obtain ⟨rfl, hts⟩ := List.cons.inj h
        exact hrest before t' after hts
    · exact h [] t ts rfl
    · exact fun before t' after hts => h (t :: before) t' after (by rw [hts]; rfl)

/-- A pass over the event bus deletes nothing pinned exactly if no pin is at what the caps take. -/
theorem pruneOnce_spares_iff {settings : Option PrunerSettings} {topics : List Topic}
    {files : List DiskFile} :
    (pruneOnce parseDate now settings topics files).2.Clean pinned ↔
      BusSpared parseDate now pinned settings topics files := by
  have hempty : (⟨files, []⟩ : Disk).Clean pinned := by simp [Disk.Clean]
  unfold pruneOnce BusSpared
  split
  · next hdisabled => simp [hdisabled, hempty]
  · next henabled =>
    have htopics : (topicPass parseDate now topics files).disk.Clean pinned ↔ _ :=
      (clean_foldl_topicStep ⟨⟨files, []⟩, 0, 0, []⟩ (scanned topics)).trans
        (and_iff_right hempty)
    have hdisk : ∀ cap, (topicPass parseDate now topics files).disk.globalFiles (specsOf topics) cap
        = Disk.globalFiles ⟨leftByTopics parseDate now topics files, []⟩ (specsOf topics) cap := by
      intro cap
      rw [← files_topicPass]
      rfl
    simp only [henabled, Bool.false_eq_true, false_or]
    rw [← htopics, globalCapOf_topicPass, specs_topicPass]
    cases capOver settings topics with
    | none => simp
    | some cap => simp [Disk.pruneGlobalSize_disk, Disk.clean_unlinkAll, hdisk]

end Bus

/-! ## The pruner of the book recordings -/

/-- A path is pinned when it is a pinned path or lies below one. -/
lemma isPathPinned_iff {path : String} :
    isPathPinned path pinned = true ↔
      ∃ p ∈ pinned, norm path = p ∨ (p ++ "/").toList <+: (norm path).toList := by
  unfold isPathPinned
  split
  · next hnil => simp [hnil]
  · split
    · next hmem => exact iff_of_true rfl ⟨norm path, hmem, .inl rfl⟩
    · simp [List.any_eq_true, List.isPrefixOf_iff_prefix]

/-- A path in a directory is pinned only with something in the directory, unless the directory
is. -/
lemma not_pinned_of_under {path dir : String}
    (hunder : (norm dir ++ "/").toList <+: (norm path).toList)
    (hdir : isPathPinned dir pinned = false) (hclear : ∀ p ∈ pinned, ¬ Inside p dir) :
    isPathPinned path pinned = false := by
  by_contra hpinned
  rw [Bool.not_eq_false] at hpinned
  obtain ⟨p, hp, heq | hpre⟩ := isPathPinned_iff.1 hpinned
  · exact hclear p hp (.inr (heq ▸ hunder))
  · have hsame : (norm dir ++ "/").toList ≠ (p ++ "/").toList := fun h =>
      hclear p hp (.inl ((String.append_left_inj "/").1 (String.toList_injective h)).symm)
    have hcovers : ¬ (p ++ "/").toList <+: (norm dir).toList := fun h => by
      rw [isPathPinned_iff.2 ⟨p, hp, .inr h⟩] at hdir
      cases hdir
    -- two prefixes of one path: the pin lies in the directory, or covers it
    rcases List.prefix_or_prefix_of_prefix hunder hpre with h | h
    · rcases List.prefix_concat_iff.1 (by simpa using h) with h' | h'
      · exact hsame (by simpa using h')
      · exact hclear p hp (.inr (by simpa using h'))
    · rcases List.prefix_concat_iff.1 (by simpa using h) with h' | h'
      · exact hsame (by simpa using h'.symm)
      · exact hcovers (by simpa using h')

/-- The directory can be removed: no pinned path lies in it, or it holds nothing that would be
deleted. -/
def WindowDir.Clear (pinned : List String) (w : WindowDir) : Prop :=
  w.contents = [] ∨ ∀ p ∈ pinned, ¬ Inside p w.dir

/-- Removing a directory that is not itself pinned spares the pins exactly when it is clear. -/
lemma spares_contents_iff {w : WindowDir} (hdir : isPathPinned w.dir pinned = false) :
    (∀ x ∈ w.contents, Spares pinned x) ↔ w.Clear pinned := by
  constructor
  · intro h
    by_cases hempty : w.contents = []
    · exact .inl hempty
    · obtain ⟨x, hx⟩ := List.exists_mem_of_ne_nil _ hempty
      obtain ⟨f, -, rfl⟩ := List.mem_map.1 hx
      exact .inr (spares_inDir.1 (h _ hx)).2
  · rintro (hempty | hclear) x hx
    · rw [hempty] at hx
      cases hx
    · obtain ⟨f, hf, rfl⟩ := List.mem_map.1 hx
      have hmem := (List.mem_filter.1 hf).1
      exact spares_inDir.2 ⟨not_pinned_of_under (w.under f hmem) hdir hclear, hclear⟩

/-- Nothing that was deleted is pinned. -/
def Sweep.Clean (pinned : List String) (s : Sweep) : Prop := ∀ x ∈ s.deleted, Spares pinned x

section Book

variable (retentionDays maxBytes : ℤ) (cfg : BookConfig) (now : ℚ) (measure : ℕ → Option ℚ)
  (target : Option ℚ) (recordings : Recordings)

/-- No pinned path lies in a window that a pass removes, unless nothing in it can be deleted. -/
def BookSpared (pinned : List String) : Prop :=
  ∀ e ∈ bookRemoved retentionDays maxBytes cfg pinned now measure target recordings,
    e.2.Clear pinned

variable {retentionDays maxBytes cfg now measure target recordings}

/-- The loops remove no window that is pinned as a whole. -/
lemma not_pinned_of_mem_bookRemoved {e : Sweep.Entry}
    (he : e ∈ bookRemoved retentionDays maxBytes cfg pinned now measure target recordings) :
    isPathPinned e.2.dir pinned = false := by
  rcases mem_bookRemoved.1 he with he | he | ⟨he, -⟩
  · have hexpired := (List.mem_filter.1 he).2
    rw [Sweep.isExpired, Bool.and_eq_true, Bool.not_eq_true'] at hexpired
    exact hexpired.2
  · have hmem := (shed_isPrefix _ _).subset he
    simpa using (List.mem_filter.1 hmem).2
  · unfold bookEmergency Sweep.emergencyEntries at he
    split at he
    · have hmem := (Sweep.neededEntries_isPrefix _ _ _ _ _).subset he
      have hstanding := (List.mem_filter.1 hmem).2
      rw [Bool.and_eq_true, Bool.not_eq_true'] at hstanding
      exact hstanding.2
    · cases he

variable (retentionDays maxBytes cfg now measure target recordings)

/-- A pass over the book recordings, in normal or emergency mode, deletes nothing pinned exactly if
no pin is in a window that it removes. -/
theorem bookPrune_spares_iff :
    (bookPrune retentionDays maxBytes cfg pinned now measure target recordings).Clean pinned ↔
      BookSpared retentionDays maxBytes cfg now measure target recordings pinned := by
  simp only [Sweep.Clean, mem_deleted_bookPrune, BookSpared, forall_exists_index, and_imp]
  rw [forall_comm]
  refine forall_congr' fun e => ?_
  rw [forall_comm]
  exact forall_congr' fun he => spares_contents_iff (not_pinned_of_mem_bookRemoved he)

/-- Pins that name whole windows, or directories above them, are always spared: the loops ask for
them. -/
theorem bookPrune_spares_of_whole (hwhole : ∀ w ∈ recordings.windows, ∀ p ∈ pinned,
    Inside p w.dir → isPathPinned w.dir pinned = true) :
    (bookPrune retentionDays maxBytes cfg pinned now measure target recordings).Clean pinned := by
  refine (bookPrune_spares_iff ..).2 fun e he => .inr fun p hp hinside => ?_
  have hmem : e.2 ∈ recordings.windows := by
    have hentry : e ∈ Sweep.entries recordings.windows := by
      rcases mem_bookRemoved.1 he with he | he | ⟨he, -⟩
      · exact (List.mem_filter.1 he).1
      · exact (List.mem_filter.1 (mem_sortByKey.1 (bookSurplus_sublist.subset he))).1
      · exact (List.mem_filter.1 (mem_sortByKey.1 (bookEmergency_sublist.subset he))).1
    obtain ⟨w, hw, hwe⟩ := List.mem_filterMap.1 hentry
    obtain ⟨t, -, rfl⟩ := Option.map_eq_some_iff.1 hwe
    exact hw
  have hdir := not_pinned_of_mem_bookRemoved he
  rw [hwhole e.2 hmem p hp hinside] at hdir
  cases hdir

end Book

/-- A file that a run has pinned, in a day that is past the retention of its topic. -/
def pinnedEvents : DiskFile where
  parts := ["", "data", "topic", "btc", "2026-01-01", "a.parquet"]
  size := 10
  mtime := 0
  locked := false

/-- A window whose one file is pinned. -/
def pinnedWindow : WindowDir where
  dir := "/data/live_ingestor/_/20260101T000000__20260101T001500"
  endAt := some 900
  files := [⟨"/data/live_ingestor/_/20260101T000000__20260101T001500/snapshots.parquet", 10, true,
    false⟩]
  under := by decide +kernel

end Evosport.Data
