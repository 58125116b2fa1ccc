/-
What the compactor keeps of the rows.

The rows ever written are those of the bundle and of the sources that it was not merged from, as
long as every source that a pass deletes was merged into the bundle, and no bundle is merged with
sources that it contains already (`KindFiles.Ok`).  A pass that checks the bundle against its own
manifest ensures neither: a part that is written after the manifest is deleted unread, and sources
that outlive a crash between the bundle and the manifest are merged a second time.
-/
import Evosport.Data.Compactor
import Mathlib.Tactic.Abel

namespace Evosport.Data

open Lib

/-! ## The files of one kind -/

namespace KindFiles

variable {R : Type} {k : KindFiles R}

/-- The rows of the sources that the bundle was not merged from. -/
def fresh (k : KindFiles R) : Multiset R := k.sourceRows fun name => decide (name ∉ k.absorbed)

/-- The files of one kind add up to what was written. -/
structure Ok (k : KindFiles R) : Prop where
  absorbed : ∀ name ∈ k.absorbed, name ∈ k.names
  balance : k.bundleRows + k.fresh = k.written
  sequence : k.partSeq ≠ 0 → ∀ seq, .part seq ∈ k.names → seq < k.partSeq
  nodup : k.names.Nodup

lemma sourceRows_congr {p q : SourceName → Bool} (h : ∀ name ∈ k.names, p name = q name) :
    k.sourceRows p = k.sourceRows q := by
  unfold sourceRows
  rw [List.filter_congr fun f hf => h f.name (List.mem_map_of_mem hf)]

/-- Every source either meets a condition or it does not. -/
lemma sourceRows_split (k : KindFiles R) (p : SourceName → Bool) :
    (k.sourceRows p + k.sourceRows fun name => !p name) = k.sourceRows fun _ => true := by
  unfold sourceRows
  induction k.sources with
  | nil => rfl
  | cons f fs ih =>
    cases hp : p f.name
    · simp only [List.filter_cons, hp, Bool.false_eq_true, if_false, Bool.not_false, if_true,
        List.map_cons, List.sum_cons, ← ih]
      abel
    · simp only [List.filter_cons, hp, Bool.not_true, Bool.false_eq_true, if_false, if_true,
        List.map_cons, List.sum_cons, ← ih]
      abel

/-- Nothing that was written is missing. -/
lemma Ok.written_le (h : k.Ok) : k.written ≤ k.stored := by
  rw [← h.balance, stored, ← sourceRows_split k fun name => decide (name ∉ k.absorbed)]
  exact Multiset.add_le_add_left (Multiset.le_add_right _ _)

/-- When the bundle was merged from all sources, it contains every row once. -/
lemma Ok.bundle_eq (h : k.Ok) (hall : ∀ name ∈ k.names, name ∈ k.absorbed) :
    k.bundleRows = k.written := by
  have hfresh : k.fresh = 0 := by
    unfold fresh sourceRows
    rw [List.filter_eq_nil_iff.2 fun f hf => by
      simpa using hall f.name (List.mem_map_of_mem hf)]
    rfl
  rw [← h.balance, hfresh, add_zero]

lemma ok_empty : (empty : KindFiles R).Ok where
  absorbed := by simp [empty]
  balance := rfl
  sequence := by simp [empty]
  nodup := List.nodup_nil

/-! ### Writes -/

/-- Only a source under a new name is added; the bundle and what it has absorbed stay. -/
structure Grows (k k' : KindFiles R) (name : SourceName) (rows : Multiset R) : Prop where
  isNew : name ∉ k.names
  bundle : k'.bundle = k.bundle
  absorbed : k'.absorbed = k.absorbed
  sources : k'.sources = k.sources ++ [⟨name, rows⟩]
  written : k'.written = k.written + rows

lemma Grows.names {k' : KindFiles R} {name : SourceName} {rows : Multiset R}
    (h : k.Grows k' name rows) : k'.names = k.names ++ [name] := by
  simp [KindFiles.names, h.sources]

/-- The sources that meet a condition are those from before, unless the new one meets it. -/
lemma Grows.sourceRows {k' : KindFiles R} {name : SourceName} {rows : Multiset R}
    (h : k.Grows k' name rows) (p : SourceName → Bool) :
    k'.sourceRows p = k.sourceRows p + if p name then rows else 0 := by
  unfold KindFiles.sourceRows
  rw [h.sources, List.filter_append, List.map_append, List.sum_append]
  cases hp : p name <;> simp [hp]

lemma Grows.ok {k' : KindFiles R} {name : SourceName} {rows : Multiset R}
    (h : k.Grows k' name rows) (hk : k.Ok)
    (hsequence : k'.partSeq ≠ 0 → ∀ seq, .part seq ∈ k'.names → seq < k'.partSeq) : k'.Ok where
  absorbed := by
    intro other hother
    rw [h.absorbed] at hother
    rw [h.names]
    exact List.mem_append_left _ (hk.absorbed other hother)
  balance := by
    have hnot : name ∉ k.absorbed := fun hmem => h.isNew (hk.absorbed name hmem)
    have hfresh : k'.fresh = k.fresh + rows := by
      unfold fresh
      rw [h.sourceRows, h.absorbed, if_pos (by simpa using hnot)]
    rw [bundleRows, h.bundle, hfresh, h.written, ← hk.balance, bundleRows, add_assoc]
  sequence := hsequence
  nodup := by
    rw [h.names]
    exact List.nodup_append.2 ⟨hk.nodup, List.nodup_singleton _, fun a ha b hb heq => by
      rw [List.mem_singleton.1 hb] at heq
      exact h.isNew (heq ▸ ha)⟩

lemma le_foldl_seqAfter (names : List SourceName) (start : ℕ) :
    start ≤ names.foldl seqAfter start := by
  induction names generalizing start with
  | nil => exact le_rfl
  | cons name names ih =>
    refine le_trans ?_ (ih _)
    cases name with
    | part n => exact le_max_left _ _
    | legacy tok => exact le_rfl

lemma lt_foldl_seqAfter {seq : ℕ} {names : List SourceName} (h : .part seq ∈ names) (start : ℕ) :
    seq < names.foldl seqAfter start := by
  induction names generalizing start with
  | nil => cases h
  | cons name names ih =>
    rcases List.mem_cons.1 h with rfl | h
    · have hle := le_foldl_seqAfter names (seqAfter start (.part seq))
      have hstart : seq + 1 ≤ seqAfter start (.part seq) := le_max_right _ _
      exact hstart.trans hle
    · exact ih h _

/-- The next part comes after all the parts that are there. -/
lemma lt_nextPartSequence {seq : ℕ} (h : .part seq ∈ k.names) : seq < k.nextPartSequence :=
  lt_foldl_seqAfter h 0

/-- The number of the part that the sink writes next. -/
def writtenSequence (k : KindFiles R) : ℕ :=
  if k.partSeq = 0 then k.nextPartSequence else k.partSeq

lemma Ok.lt_writtenSequence (h : k.Ok) {seq : ℕ} (hmem : .part seq ∈ k.names) :
    seq < k.writtenSequence := by
  unfold writtenSequence
  split
  · exact lt_nextPartSequence hmem
  · next hne => exact h.sequence hne seq hmem

lemma Ok.grows_writePart (h : k.Ok) (rows : Multiset R) :
    k.Grows (k.writePart rows) (.part k.writtenSequence) rows where
  isNew := fun hmem => lt_irrefl _ (h.lt_writtenSequence hmem)
  bundle := rfl
  absorbed := rfl
  sources := rfl
  written := rfl

lemma Ok.writePart (h : k.Ok) (rows : Multiset R) : (k.writePart rows).Ok := by
  refine (h.grows_writePart rows).ok h fun _ seq hmem => ?_
  rw [(h.grows_writePart rows).names, List.mem_append, List.mem_singleton] at hmem
  show seq < k.writtenSequence + 1
  rcases hmem with hmem | heq
  · exact (h.lt_writtenSequence hmem).trans (Nat.lt_succ_self _)
  · obtain rfl : seq = k.writtenSequence := by simpa using heq
    exact Nat.lt_succ_self _

/-- An import adds a source or changes nothing. -/
lemma importLegacy_cases (k : KindFiles R) (tok : String) (rows : Multiset R) :
    k.importLegacy tok rows = k ∨
      k.Grows (k.importLegacy tok rows) (.legacy tok) rows ∧
        (k.importLegacy tok rows).partSeq = k.partSeq := by
  unfold importLegacy
  split
  · exact .inl rfl
  · next hnew => exact .inr ⟨⟨hnew, rfl, rfl, rfl, rfl⟩, rfl⟩

lemma Ok.importLegacy (h : k.Ok) (tok : String) (rows : Multiset R) :
    (k.importLegacy tok rows).Ok := by
  rcases importLegacy_cases k tok rows with heq | ⟨hgrows, hseq⟩
  · rwa [heq]
  · refine hgrows.ok h fun hne seq hmem => ?_
    rw [hseq] at hne ⊢
    rw [hgrows.names, List.mem_append, List.mem_singleton] at hmem
    exact h.sequence hne seq (hmem.resolve_right (by simp))

lemma Ok.forget (h : k.Ok) : ({ k with partSeq := 0 } : KindFiles R).Ok where
  absorbed := h.absorbed
  balance := h.balance
  sequence := fun hne => absurd rfl hne
  nodup := h.nodup

/-! ### Deletions and merges -/

lemma names_unlink (k : KindFiles R) (name : SourceName) :
    (k.unlink name).names = k.names.filter (· ≠ name) := by
  simp only [names, unlink, List.filter_map]
  rfl

/-- Deleting a source that the bundle was merged from loses nothing. -/
lemma Ok.unlink (h : k.Ok) {name : SourceName} (hname : name ∈ k.absorbed) :
    (k.unlink name).Ok where
  absorbed := by
    intro other hother
    obtain ⟨hmem, hne⟩ := List.mem_filter.1 hother
    rw [names_unlink]
    exact List.mem_filter.2 ⟨h.absorbed other hmem, hne⟩
  balance := by
    have hfresh : (k.unlink name).fresh = k.fresh := by
      simp only [fresh, sourceRows, KindFiles.unlink, List.filter_filter]
      refine congrArg (fun fs : List (SourceFile R) => (fs.map SourceFile.rows).sum)
        (List.filter_congr fun f _ => ?_)
      by_cases hf : f.name = name
      · simp [hf, hname]
      · simp [hf]
    rw [hfresh]
    exact h.balance
  sequence := by
    intro hne seq hmem
    rw [names_unlink] at hmem
    exact h.sequence hne seq (List.mem_filter.1 hmem).1
  nodup := by
    rw [names_unlink]
    exact h.nodup.filter _

/-- Both ways to make the new bundle put the same rows in it. -/
lemma compactedRows_eq (k : KindFiles R) :
    k.compactedRows = k.bundleRows + k.sourceRows fun _ => true := by
  unfold compactedRows
  split
  · next h =>
    simp only [Bool.and_eq_true, Bool.not_eq_true', Option.isNone_iff_eq_none] at h
    obtain ⟨hparts, hbundle⟩ := h
    rw [bundleRows, hbundle, Option.getD_none, zero_add]
    refine sourceRows_congr fun name hname => ?_
    cases name with
    | part seq =>
      exact absurd rfl (List.any_eq_false.1 hparts (.part seq) hname)
    | legacy tok => rfl
  · rfl

/-- Replacing a bundle that was merged from no source still there loses and repeats nothing. -/
lemma Ok.replaceBundle (h : k.Ok) (hnone : k.absorbed = []) {rows : Multiset R}
    {names : List SourceName} (hrows : rows = k.bundleRows + k.sourceRows (decide <| · ∈ names))
    (hnames : ∀ name ∈ names, name ∈ k.names) : (k.replaceBundle rows names).Ok where
  absorbed := hnames
  balance := by
    have hall : k.fresh = k.sourceRows fun _ => true := by
      unfold fresh
      simp [hnone]
    have hrest : (k.replaceBundle rows names).fresh =
        k.sourceRows fun name => !decide (name ∈ names) := by
      unfold fresh
      simp only [decide_not]
      rfl
    have hbalance := h.balance
    rw [hall, ← sourceRows_split k (decide <| · ∈ names), ← add_assoc, ← hrows] at hbalance
    rw [hrest]
    exact hbalance
  sequence := h.sequence
  nodup := h.nodup

end KindFiles

/-! ## A pass over the window -/

namespace Compaction

variable {R : Type}

/-- The kind that the pass is working on. -/
def busy (p : Compaction R) : Option Kind :=
  match p.stage with
  | .cleanup kind _ => some kind
  | .merged kind _ _ => some kind
  | _ => none

/-- The merged sources that the pass has yet to delete. -/
def doomed (p : Compaction R) : List (Kind × SourceName) :=
  match p.stage with
  | .delete names => names
  | _ => p.sourcesToDelete

/-- What has been done to a kind whose turn has come: every source of it is about to be deleted or
merged, or was merged. -/
def Settles (p : Compaction R) (kind : Kind) (k : KindFiles R) : Prop :=
  match p.stage with
  | .cleanup kind' names =>
    if kind' = kind then ∀ name ∈ k.names, name ∈ names else ∀ name ∈ k.names, name ∈ k.absorbed
  | .merged kind' _ names =>
    if kind' = kind then ∀ name ∈ k.names, name ∈ names else ∀ name ∈ k.names, name ∈ k.absorbed
  | _ => ∀ name ∈ k.names, name ∈ k.absorbed

/-- What a pass relies on between its steps. -/
structure Ok (files : Kind → KindFiles R) (p : Compaction R) : Prop where
  kinds : p.kinds.Nodup
  busy : ∀ kind, p.busy = some kind → kind ∉ p.kinds
  doomed : ∀ e ∈ p.doomed, e.2 ∈ (files e.1).absorbed ∧ e.1 ∉ p.kinds ∧ p.busy ≠ some e.1
  doomedNodup : p.doomed.Nodup
  merging : ∀ kind rows names, p.stage = .merged kind rows names →
    rows = (files kind).bundleRows + (files kind).sourceRows (decide <| · ∈ names) ∧
      (∀ name ∈ names, name ∈ (files kind).names) ∧ names.Nodup
  deleting : ∀ names, p.stage = .delete names → p.kinds = []
  settled : p.overlapped = false → ∀ kind, kind ∉ p.kinds → p.Settles kind (files kind)

end Compaction

/-- A pass does not look at the sequences of the sink. -/
lemma Compaction.Ok.forget {R : Type} {files : Kind → KindFiles R} {p : Compaction R}
    (h : p.Ok files) (seq : Kind → ℕ) :
    p.Ok fun kind => { files kind with partSeq := seq kind } :=
  ⟨h.kinds, h.busy, h.doomed, h.doomedNodup, h.merging, h.deleting, h.settled⟩

namespace Window

variable {R : Type} {w : Window R}

/-- The files of every kind add up, and the pass may rely on what it does. -/
structure Ok (w : Window R) : Prop where
  files : ∀ kind, (w.files kind).Ok
  pass : ∀ p, w.pass = some p → p.Ok w.files

/-- What the next step of a pass must find: a source that it deletes on account of a verified bundle
was merged into that bundle, and the bundle that it replaces contains no source that is still
there. -/
def StageSound (files : Kind → KindFiles R) : CompactStage R → Prop
  | .cleanup kind (name :: _) => name ∈ (files kind).absorbed
  | .merged kind _ _ => (files kind).absorbed = []
  | .cleanup _ [] => True
  | .look => True
  | .delete _ => True

/-- Every step of a pass finds what it must. -/
def Sound (w : Window R) : WindowEvent R → Prop
  | .advance => ∀ p ∈ w.pass, StageSound w.files p.stage
  | _ => True

instance (files : Kind → KindFiles R) : ∀ stage, Decidable (StageSound files stage)
  | .cleanup kind (name :: _) => inferInstanceAs (Decidable (name ∈ (files kind).absorbed))
  | .merged kind _ _ => inferInstanceAs (Decidable ((files kind).absorbed = []))
  | .cleanup _ [] => inferInstanceAs (Decidable True)
  | .look => inferInstanceAs (Decidable True)
  | .delete _ => inferInstanceAs (Decidable True)

instance (w : Window R) : ∀ e, Decidable (Sound w e)
  | .advance => Option.decidableForallMem w.pass
  | .writePart _ _ => inferInstanceAs (Decidable True)
  | .importLegacy _ _ _ => inferInstanceAs (Decidable True)
  | .forgetSequence _ => inferInstanceAs (Decidable True)
  | .start => inferInstanceAs (Decidable True)
  | .crash => inferInstanceAs (Decidable True)

lemma files_modify (kind : Kind) (f : KindFiles R → KindFiles R) {P : KindFiles R → Prop}
    (h : ∀ kind, P (w.files kind)) (hf : P (f (w.files kind))) (kind' : Kind) :
    P ((w.modify kind f).files kind') := by
  by_cases heq : kind' = kind
  · subst heq
    simpa [modify] using hf
  · simpa [modify, heq] using h kind'

@[simp] lemma files_withPass (p : Compaction R) : (w.withPass p).files = w.files := rfl

@[simp] lemma files_modify_self (kind : Kind) (f : KindFiles R → KindFiles R) :
    (w.modify kind f).files kind = f (w.files kind) := by
  simp [modify]

@[simp] lemma files_modify_of_ne {kind kind' : Kind} (f : KindFiles R → KindFiles R)
    (h : kind' ≠ kind) : (w.modify kind f).files kind' = w.files kind' := by
  simp [modify, h]

lemma ok_empty : (empty : Window R).Ok := ⟨fun _ => KindFiles.ok_empty, by simp [empty]⟩

lemma Ok.crash (h : w.Ok) : ({ w with pass := none } : Window R).Ok := ⟨h.files, by simp⟩

lemma Ok.startPass (h : w.Ok) : w.startPass.Ok := by
  unfold Window.startPass
  split
  · exact h
  · refine ⟨h.files, ?_⟩
    rintro p hp
    obtain rfl := Option.some.inj hp
    exact {
      kinds := (by decide : [Kind.snapshots, Kind.deltas].Nodup)
      busy := by simp [Compaction.busy]
      doomed := by simp [Compaction.doomed]
      doomedNodup := List.nodup_nil
      merging := by simp
      deleting := by simp
      settled := fun _ kind hkind => absurd (by cases kind <;> simp) hkind }

/-! ### Writes -/

/-- A write that adds a source under a new name, or changes nothing, leaves the pass what it relies
on; the pass counts as overlapped from then on. -/
lemma Ok.write {kind : Kind} {f : KindFiles R → KindFiles R} (h : w.Ok)
    (hok : (f (w.files kind)).Ok)
    (hf : f (w.files kind) = w.files kind ∨
      ∃ name rows, (w.files kind).Grows (f (w.files kind)) name rows) : (w.write kind f).Ok := by
  refine ⟨files_modify kind f h.files hok, fun p' hp' => ?_⟩
  obtain ⟨p, hp, rfl⟩ := Option.map_eq_some_iff.1 hp'
  have hpass := h.pass p hp
  have habsorbed : ∀ kind', ((w.modify kind f).files kind').absorbed =
      (w.files kind').absorbed := by
    intro kind'
    by_cases heq : kind' = kind
    · subst heq
      rcases hf with hsame | ⟨name, rows, hgrows⟩
      · simp [modify, hsame]
      · simpa [modify] using hgrows.absorbed
    · simp [modify, heq]
  exact {
    kinds := hpass.kinds
    busy := hpass.busy
    doomed := fun e he => by
      rw [show (w.write kind f).files = (w.modify kind f).files from rfl, habsorbed]
      exact hpass.doomed e he
    doomedNodup := hpass.doomedNodup
    merging := fun kind' rows names hstage => by
      obtain ⟨hrows, hnames, hnodup⟩ := hpass.merging kind' rows names hstage
      by_cases heq : kind' = kind
      · subst heq
        rcases hf with hsame | ⟨name, rows', hgrows⟩
        · simpa [Window.write, modify, hsame] using ⟨hrows, hnames, hnodup⟩
        · have hnot : name ∉ names := fun hmem => hgrows.isNew (hnames name hmem)
          have hsum := hgrows.sourceRows (decide <| · ∈ names)
          rw [if_neg (by simpa using hnot), add_zero] at hsum
          refine ⟨?_, fun other hother => ?_, hnodup⟩
          · simp only [Window.write, modify, Function.update_self, KindFiles.bundleRows,
              hgrows.bundle, hsum]
            exact hrows
          · simp only [Window.write, modify, Function.update_self, hgrows.names]
            exact List.mem_append_left _ (hnames other hother)
      · simpa [Window.write, modify, heq] using ⟨hrows, hnames, hnodup⟩
    deleting := hpass.deleting
    settled := fun hover => by cases hover }

/-! ### The steps of a pass -/

section Advance

variable {m : Kind → Option ManifestEntry} {kinds : List Kind} {kind : Kind}
  {compacted overlapped : Bool} {dels : List (Kind × SourceName)} {token : R → Option String}

/-- The pass looks at its next kind. -/
lemma Ok.lookAt {p : Compaction R} (hstage : p.stage = .look) (hkinds : p.kinds = kind :: kinds)
    (hw : w.Ok) (hp : p.Ok w.files) : (w.withPass (lookAt token w p kind kinds)).Ok := by
  obtain ⟨m, ks, stage, compacted, dels, overlapped⟩ := p
  dsimp only at hstage hkinds
  subst hstage hkinds
  obtain ⟨hkind, hnodup⟩ := List.nodup_cons.1 hp.kinds
  have hrest : ∀ kind', kind' ∉ kinds → kind' ≠ kind → kind' ∉ kind :: kinds :=
    fun kind' h hne hmem => (List.mem_cons.1 hmem).elim hne h
  refine ⟨hw.files, fun p' hp' => ?_⟩
  obtain rfl := Option.some.inj hp'
  unfold Window.lookAt
  dsimp only
  split
  · -- nothing to do for this kind
    next hempty =>
    rw [List.isEmpty_iff] at hempty
    exact {
      kinds := hnodup
      busy := by simp [Compaction.busy]
      doomed := fun e he => ⟨(hp.doomed e he).1,
        fun h => (hp.doomed e he).2.1 (List.mem_cons_of_mem kind h), by simp [Compaction.busy]⟩
      doomedNodup := hp.doomedNodup
      merging := by simp
      deleting := by simp
      settled := fun hover kind' hkind' => by
        by_cases heq : kind' = kind
        · have hnames : (w.files kind').names = [] := by simp [KindFiles.names, heq, hempty]
          exact fun name hname => absurd (hnames ▸ hname) List.not_mem_nil
        · exact hp.settled hover kind' (hrest kind' hkind' heq) }
  · split
    · exact {
        kinds := hnodup
        busy := fun kind' h => by
          obtain rfl : kind = kind' := by simpa [Compaction.busy] using h
          exact hkind
        doomed := fun e he => ⟨(hp.doomed e he).1,
          fun h => (hp.doomed e he).2.1 (List.mem_cons_of_mem kind h), fun h => by
            obtain heq : kind = e.1 := by simpa [Compaction.busy] using h
            exact (hp.doomed e he).2.1 (heq ▸ List.mem_cons_self)⟩
        doomedNodup := hp.doomedNodup
        merging := by simp
        deleting := by simp
        settled := fun hover kind' hkind' => by
          unfold Compaction.Settles
          dsimp only
          split
          · next heq =>
            subst heq
            exact fun _ h => h
          · next heq => exact hp.settled hover kind' (hrest kind' hkind' (Ne.symm heq)) }
    · exact {
        kinds := hnodup
        busy := fun kind' h => by
          obtain rfl : kind = kind' := by simpa [Compaction.busy] using h
          exact hkind
        doomed := fun e he => ⟨(hp.doomed e he).1,
          fun h => (hp.doomed e he).2.1 (List.mem_cons_of_mem kind h), fun h => by
            obtain heq : kind = e.1 := by simpa [Compaction.busy] using h
            exact (hp.doomed e he).2.1 (heq ▸ List.mem_cons_self)⟩
        doomedNodup := hp.doomedNodup
        merging := fun kind' rows names h => by
          simp only [CompactStage.merged.injEq] at h
          obtain ⟨rfl, rfl, rfl⟩ := h
          refine ⟨?_, fun _ h => h, (hw.files kind).nodup⟩
          rw [KindFiles.compactedRows_eq]
          exact congrArg _ (KindFiles.sourceRows_congr fun name hname => by simpa using hname)
        deleting := by simp
        settled := fun hover kind' hkind' => by
          unfold Compaction.Settles
          dsimp only
          split
          · next heq =>
            subst heq
            exact fun _ h => h
          · next heq => exact hp.settled hover kind' (hrest kind' hkind' (Ne.symm heq)) }

/-- The manifest is replaced, and the deletions begin. -/
lemma Ok.replaceManifest {p : Compaction R} (hstage : p.stage = .look) (hkinds : p.kinds = [])
    (hw : w.Ok) (hp : p.Ok w.files) (manifest : Kind → Option ManifestEntry) :
    (Window.mk w.files manifest (some { p with stage := .delete p.sourcesToDelete })).Ok := by
  obtain ⟨m, ks, stage, compacted, dels, overlapped⟩ := p
  dsimp only at hstage
  subst hstage
  refine ⟨hw.files, fun p' hp' => ?_⟩
  obtain rfl := Option.some.inj hp'
  exact {
    kinds := hp.kinds
    busy := by simp [Compaction.busy]
    doomed := hp.doomed
    doomedNodup := hp.doomedNodup
    merging := by simp
    deleting := fun _ _ => hkinds
    settled := hp.settled }

/-- After its last deletion of sources of a verified bundle the pass goes on. -/
lemma Ok.endCleanup {p : Compaction R} (hstage : p.stage = .cleanup kind []) (hw : w.Ok)
    (hp : p.Ok w.files) : (w.withPass { p with stage := .look }).Ok := by
  obtain ⟨m, ks, stage, compacted, dels, overlapped⟩ := p
  dsimp only at hstage
  subst hstage
  refine ⟨hw.files, fun p' hp' => ?_⟩
  obtain rfl := Option.some.inj hp'
  exact {
    kinds := hp.kinds
    busy := by simp [Compaction.busy]
    doomed := fun e he => ⟨(hp.doomed e he).1, (hp.doomed e he).2.1, by simp [Compaction.busy]⟩
    doomedNodup := hp.doomedNodup
    merging := by simp
    deleting := by simp
    settled := fun hover kind' hkind' => by
      have hsettled := hp.settled hover kind' hkind'
      unfold Compaction.Settles at hsettled ⊢
      dsimp only at hsettled ⊢
      split at hsettled
      · exact fun name hname => absurd (hsettled name hname) List.not_mem_nil
      · exact hsettled }

/-- A source of a verified bundle is deleted. -/
lemma Ok.cleanup {p : Compaction R} {name : SourceName} {names : List SourceName}
    (hstage : p.stage = .cleanup kind (name :: names)) (hw : w.Ok) (hp : p.Ok w.files)
    (hsound : name ∈ (w.files kind).absorbed) :
    ((w.modify kind (·.unlink name)).withPass { p with stage := .cleanup kind names }).Ok := by
  obtain ⟨m, ks, stage, compacted, dels, overlapped⟩ := p
  dsimp only at hstage
  subst hstage
  refine ⟨files_modify (P := KindFiles.Ok) kind (·.unlink name) hw.files
    ((hw.files kind).unlink hsound), fun p' hp' => ?_⟩
  obtain rfl := Option.some.inj hp'
  exact {
    kinds := hp.kinds
    busy := hp.busy
    doomed := fun e he => by
      have hne : e.1 ≠ kind := fun heq => (hp.doomed e he).2.2 (by simp [Compaction.busy, heq])
      rw [files_withPass, files_modify_of_ne _ hne]
      exact hp.doomed e he
    doomedNodup := hp.doomedNodup
    merging := by simp
    deleting := by simp
    settled := fun hover kind' hkind' => by
      have hsettled := hp.settled hover kind' hkind'
      unfold Compaction.Settles at hsettled ⊢
      dsimp only at hsettled ⊢
      split at hsettled
      · next heq =>
        subst heq
        rw [if_pos rfl]
        intro other hmem
        simp only [files_withPass, files_modify_self, KindFiles.names_unlink, List.mem_filter,
          decide_eq_true_eq] at hmem
        exact (List.mem_cons.1 (hsettled other hmem.1)).resolve_left hmem.2
      · next heq =>
        rw [if_neg heq, files_withPass, files_modify_of_ne _ (Ne.symm heq)]
        exact hsettled }

/-- The bundle of a kind is replaced. -/
lemma Ok.replaceBundle {p : Compaction R} {rows : Multiset R} {names : List SourceName}
    (hstage : p.stage = .merged kind rows names) (hw : w.Ok) (hp : p.Ok w.files)
    (hsound : (w.files kind).absorbed = []) (manifest : Kind → Option ManifestEntry) :
    ((w.modify kind (·.replaceBundle rows names)).withPass
      { p with
        manifest := manifest
        stage := .look
        compacted := true
        sourcesToDelete := p.sourcesToDelete ++ names.map fun name => (kind, name) }).Ok := by
  obtain ⟨m, ks, stage, compacted, dels, overlapped⟩ := p
  dsimp only at hstage
  subst hstage
  obtain ⟨hrows, hnames, hnodup⟩ := hp.merging kind rows names rfl
  refine ⟨files_modify (P := KindFiles.Ok) kind (·.replaceBundle rows names) hw.files
    ((hw.files kind).replaceBundle hsound hrows hnames), fun p' hp' => ?_⟩
  obtain rfl := Option.some.inj hp'
  have hbusy : ∀ e ∈ dels, e.1 ≠ kind := fun e he heq =>
    (hp.doomed e he).2.2 (by simp [Compaction.busy, heq])
  exact {
    kinds := hp.kinds
    busy := by simp [Compaction.busy]
    doomed := fun e he => by
      rcases List.mem_append.1 he with he | he
      · rw [files_withPass, files_modify_of_ne _ (hbusy e he)]
        exact ⟨(hp.doomed e he).1, (hp.doomed e he).2.1, by simp [Compaction.busy]⟩
      · obtain ⟨name, hname, rfl⟩ := List.mem_map.1 he
        rw [files_withPass, files_modify_self]
        exact ⟨hname, hp.busy kind rfl, by simp [Compaction.busy]⟩
    doomedNodup := by
      refine List.nodup_append.2 ⟨hp.doomedNodup, hnodup.map fun a b h => by simpa using h, ?_⟩
      rintro e he _ he' rfl
      obtain ⟨name, -, rfl⟩ := List.mem_map.1 he'
      exact hbusy _ he rfl
    merging := by simp
    deleting := by simp
    settled := fun hover kind' hkind' => by
      have hsettled := hp.settled hover kind' hkind'
      unfold Compaction.Settles at hsettled ⊢
      dsimp only at hsettled ⊢
      split at hsettled
      · next heq =>
        subst heq
        rw [files_withPass, files_modify_self]
        exact hsettled
      · next heq =>
        rw [files_withPass, files_modify_of_ne _ (Ne.symm heq)]
        exact hsettled }

/-- A merged source is deleted. -/
lemma Ok.delete {p : Compaction R} {name : SourceName} {names : List (Kind × SourceName)}
    (hstage : p.stage = .delete ((kind, name) :: names)) (hw : w.Ok) (hp : p.Ok w.files) :
    ((w.modify kind (·.unlink name)).withPass { p with stage := .delete names }).Ok := by
  obtain ⟨m, ks, stage, compacted, dels, overlapped⟩ := p
  dsimp only at hstage
  subst hstage
  have hname := (hp.doomed (kind, name) List.mem_cons_self).1
  obtain ⟨hnot, hnodup⟩ := List.nodup_cons.1 hp.doomedNodup
  refine ⟨files_modify (P := KindFiles.Ok) kind (·.unlink name) hw.files
    ((hw.files kind).unlink hname), fun p' hp' => ?_⟩
  obtain rfl := Option.some.inj hp'
  exact {
    kinds := hp.kinds
    busy := by simp [Compaction.busy]
    doomed := fun e he => by
      obtain ⟨hmem, hrest⟩ := hp.doomed e (List.mem_cons_of_mem _ he)
      refine ⟨?_, hrest⟩
      by_cases heq : e.1 = kind
      · -- another source of the same kind stays merged
        have hne : e.2 ≠ name := fun h => hnot (by
          rwa [← heq, ← h])
        rw [files_withPass, heq, files_modify_self]
        exact List.mem_filter.2 ⟨heq ▸ hmem, by simpa using hne⟩
      · rw [files_withPass, files_modify_of_ne _ heq]
        exact hmem
    doomedNodup := hnodup
    merging := by simp
    deleting := fun _ _ => hp.deleting _ rfl
    settled := fun hover kind' hkind' => by
      have hsettled := hp.settled hover kind' hkind'
      by_cases heq : kind' = kind
      · subst heq
        intro other hmem
        rw [files_withPass, files_modify_self] at hmem ⊢
        rw [KindFiles.names_unlink] at hmem
        obtain ⟨hmem, hne⟩ := List.mem_filter.1 hmem
        exact List.mem_filter.2 ⟨hsettled other hmem, hne⟩
      · intro other hmem
        rw [files_withPass, files_modify_of_ne _ heq] at hmem ⊢
        exact hsettled other hmem }

/-- One step of the pass. -/
lemma Ok.advance {p : Compaction R} (hw : w.Ok) (hpass : w.pass = some p)
    (hsound : Sound w .advance) : (w.advancePass token p).Ok := by
  have hp := hw.pass p hpass
  have hstageSound : StageSound w.files p.stage := hsound p hpass
  unfold Window.advancePass
  split
  · next hstage =>
    split
    · next kind rest hkinds => exact hw.lookAt hstage hkinds hp
    · next hkinds =>
      split
      · exact hw.replaceManifest hstage hkinds hp p.manifest
      · exact hw.crash
  · next kind name names hstage =>
    rw [hstage] at hstageSound
    exact hw.cleanup hstage hp hstageSound
  · next kind hstage => exact hw.endCleanup hstage hp
  · next kind rows names hstage =>
    rw [hstage] at hstageSound
    exact hw.replaceBundle hstage hp hstageSound _
  · next kind name names hstage => exact hw.delete hstage hp
  · exact hw.crash

/-- One event. -/
lemma Ok.step {e : WindowEvent R} (hw : w.Ok) (hsound : Sound w e) : (w.step token e).Ok := by
  cases e with
  | writePart kind rows =>
    exact hw.write ((hw.files kind).writePart rows)
      (.inr ⟨_, rows, (hw.files kind).grows_writePart rows⟩)
  | importLegacy kind tok rows =>
    exact hw.write ((hw.files kind).importLegacy tok rows)
      ((KindFiles.importLegacy_cases (w.files kind) tok rows).imp_right
        fun h => ⟨_, rows, h.1⟩)
  | forgetSequence kind =>
    refine ⟨files_modify (P := KindFiles.Ok) kind (fun k => { k with partSeq := 0 })
      hw.files (hw.files kind).forget, fun p hpass => ?_⟩
    have hfiles : (w.modify kind fun k => { k with partSeq := 0 }).files = fun kind' =>
        { w.files kind' with partSeq := if kind' = kind then 0 else (w.files kind').partSeq } := by
      funext kind'
      by_cases heq : kind' = kind
      · subst heq
        simp
      · simp [heq]
    rw [Window.step, hfiles]
    exact (hw.pass p hpass).forget _
  | start => exact hw.startPass
  | advance =>
    rw [Window.step]
    split
    · next p hpass => exact hw.advance hpass hsound
    · exact hw
  | crash => exact hw.crash

/-- When a pass returns that nothing has overlapped, the bundles contain every row once. -/
lemma Ok.returns {e : WindowEvent R} (hw : w.Ok) (hret : Returns w e) (kind : Kind) :
    ((w.step token e).files kind).bundleRows = ((w.step token e).files kind).written := by
  unfold Returns at hret
  split at hret
  · next p hpass =>
    obtain ⟨hover, hend⟩ := hret
    have hp := hw.pass p hpass
    -- the last step of a pass leaves the files as they are
    have hfiles : (w.step token .advance).files = w.files ∧ p.kinds = [] ∧
        (p.stage = .look ∨ p.stage = .delete []) := by
      simp only [Window.step, hpass, Window.advancePass]
      split at hend
      · next hstage => simp [hstage, hend.1, hend.2]
      · next names hstage =>
        subst hend
        simp [hstage, hp.deleting [] hstage]
      · exact hend.elim
    obtain ⟨hsame, hkinds, hstage⟩ := hfiles
    have hsettled := hp.settled hover kind (by simp [hkinds])
    rw [hsame]
    refine (hw.files kind).bundle_eq ?_
    rcases hstage with h | h <;> simpa [Compaction.Settles, h] using hsettled
  · exact hret.elim

end Advance

section Run

variable (token : R → Option String) (events : List (WindowEvent R))

/-- The window after a run that begins with an empty directory. -/
def after (events : List (WindowEvent R)) : Window R := events.foldl (step token) empty

/-- In a run in which a pass deletes only sources that were merged into the bundle, and replaces
only bundles that contain none of the sources that are there, no row that was ever written is
missing from the bundle and the sources in any state, and after every pass that no write has
overlapped the bundle alone contains every row exactly once. -/
theorem compaction_keeps_rows (hsound : EveryStep (step token) Sound empty events) :
    (∀ pre, pre <+: events → ∀ kind,
      ((after token pre).files kind).written ≤ ((after token pre).files kind).stored) ∧
    ∀ pre e, pre ++ [e] <+: events → Returns (after token pre) e → ∀ kind,
      ((after token (pre ++ [e])).files kind).bundleRows =
        ((after token (pre ++ [e])).files kind).written := by
  have hok : ∀ pre, pre <+: events → (after token pre).Ok := fun pre hpre =>
    (hsound.of_prefix hpre).invariant ok_empty fun _ _ hw he => hw.step he
  refine ⟨fun pre hpre kind => ((hok pre hpre).files kind).written_le, ?_⟩
  intro pre e hpre hret kind
  have hlast : after token (pre ++ [e]) = (after token pre).step token e := by
    simp [after]
  rw [hlast]
  exact (hok pre ((List.prefix_append pre [e]).trans hpre)).returns hret kind

end Run

section Examples

/-- Every row is of one token. -/
def oneToken (_ : ℕ) : Option String := some "token"

/-- The steps of a pass that merges one source. -/
def mergingPass : List (WindowEvent ℕ) :=
  [.start, .advance, .advance, .advance, .advance, .advance, .advance]

/-- A pass crashes between the manifest and the deletion of its source, and the next one deletes
the source. -/
def tidied : List (WindowEvent ℕ) :=
  [.writePart .snapshots {1, 2}, .start, .advance, .advance, .advance, .advance, .crash, .start,
    .advance, .advance, .advance, .advance]

theorem tidied_keeps_rows :
    EveryStep (step oneToken) Sound empty tidied ∧
    ((after oneToken tidied).files .snapshots).written ≤
      ((after oneToken tidied).files .snapshots).stored :=
  ⟨by decide +kernel, (compaction_keeps_rows oneToken tidied (by decide +kernel)).1 tidied
    (List.prefix_refl _) .snapshots⟩

/-- A part that is written after the window was compacted is deleted by the next pass without being
read.  A source that outlives a crash between the bundle and the manifest is merged again by the
next pass. -/
theorem compaction_loses_and_repeats :
    ¬ ((after oneToken ([.writePart .snapshots {1}] ++ mergingPass ++
        [.writePart .snapshots {2}, .start, .advance, .advance])).files .snapshots).written ≤
      ((after oneToken ([.writePart .snapshots {1}] ++ mergingPass ++
        [.writePart .snapshots {2}, .start, .advance, .advance])).files .snapshots).stored ∧
    (after oneToken ([.writePart .snapshots {1}, .start, .advance, .advance, .crash] ++
      mergingPass)).pass.isNone = true ∧
    ((after oneToken ([.writePart .snapshots {1}, .start, .advance, .advance, .crash] ++
      mergingPass)).files .snapshots).bundleRows = {1, 1} := by
  decide +kernel

end Examples

end Window

end Evosport.Data
