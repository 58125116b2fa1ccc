/-
What a replay of one topic yields of the events that were flushed.

A replay reads the directories of entities and dates.  It yields an event of the window exactly
when it reads the directory in which the event was written (`perm_replayed`).  That is what the
window asks for unless the event was observed on a date that is not read, which happens to windows
on the time of ingestion, the entity's directory is not listed under its own name, or another
entity's identifier has the same file name as one that the window asks for
(`replaysExactly_iff`).
-/
import Evosport.RecordedBus.Flushed
import Evosport.RecordedBus.Reading

namespace Evosport.RecordedBus

open Lib Writer

section Lists

variable {α β κ : Type*}

/-- Two selections without a common entry are one after the other what they select together. -/
lemma filter_append_filter_perm {p q : α → Bool} (hpq : ∀ a, p a = true → q a = false)
    (l : List α) : (l.filter p ++ l.filter q).Perm (l.filter fun a => p a || q a) := by
  induction l with
  | nil => simp
  | cons a l ih =>
    cases hp : p a with
    | true => simpa [hp, hpq a hp] using ih
    | false =>
      cases hq : q a with
      | true => simpa [hp, hq] using List.perm_middle.trans (ih.cons a)
      | false => simpa [hp, hq] using ih

/-- Collecting by keys is collecting what has one of the keys. -/
lemma flatMap_by_key_perm [DecidableEq κ] (key : α → κ) (g : α → List β) (l : List α)
    {keys : List κ} (hkeys : keys.Nodup) {q : α → Bool} (hq : ∀ a, q a = true ↔ key a ∈ keys) :
    (keys.flatMap fun k => (l.filter fun a => decide (key a = k)).flatMap g).Perm
      ((l.filter q).flatMap g) := by
  induction keys generalizing q with
  | nil => simp [hq]
  | cons k keys ih =>
    obtain ⟨hnot, hkeys⟩ := List.nodup_cons.1 hkeys
    have hdisjoint : ∀ a, decide (key a = k) = true → decide (key a ∈ keys) = false := by
      intro a hk
      simpa [of_decide_eq_true hk] using hnot
    have hsplit : l.filter q = l.filter fun a => decide (key a = k) || decide (key a ∈ keys) :=
      List.filter_congr fun a _ => Bool.eq_iff_iff.2 (by simp [hq])
    rw [List.flatMap_cons, hsplit]
    refine ((ih hkeys fun a => decide_eq_true_iff).append_left _).trans ?_
    rw [← List.flatMap_append]
    exact List.Perm.flatMap_right g (filter_append_filter_perm hdisjoint l)

/-- Two selections of one list are the same up to order only if they select the same. -/
lemma filter_perm_filter_iff {p q : α → Bool} {l : List α} :
    (l.filter p).Perm (l.filter q) ↔ ∀ a ∈ l, p a = true ↔ q a = true := by
  constructor
  · intro h a ha
    have := h.mem_iff (a := a)
    simpa [ha] using this
  · intro h
    rw [List.filter_congr fun a ha => Bool.eq_iff_iff.2 (h a ha)]

end Lists

variable {F : Type}

/-- The entities that the window restricts the topic to. -/
def restriction (w : ReplayWindow) (spec : TopicSpec) : Option (List String) :=
  w.entityFilter.bind fun filter => filter.get? spec.slug

/-- The window asks for the event. -/
def Wanted (w : ReplayWindow) (spec : TopicSpec) (e : RecordedEvent F) : Prop :=
  w.Contains (e.time w.timeField) ∧ ((restriction w spec).all fun ents => ents.contains e.entityId)

instance (w : ReplayWindow) (spec : TopicSpec) (e : RecordedEvent F) : Decidable (Wanted w spec e) :=
  inferInstanceAs (Decidable (_ ∧ _))

/-- The date of the event is among those that are read. -/
def DateRead (days : List ℤ) (e : RecordedEvent F) : Prop :=
  ∃ day ∈ days, dayOf e.observedAtUs = some day

instance (days : List ℤ) (e : RecordedEvent F) : Decidable (DateRead days e) :=
  List.decidableBEx _ days

/-- The names of the entities lead a replay to the event exactly when the window asks for its
entity: the date of an event that is asked for is read and, where all entities are, its directory
listed under its own name; an event of another entity shares its directory with none that is asked
for, unless its date is not read anyway. -/
def Traced (w : ReplayWindow) (spec : TopicSpec) (days : List ℤ) (e : RecordedEvent F) : Prop :=
  match restriction w spec with
  | none => DateRead days e ∧ safeSegment e.entityId ≠ "." ∧ safeSegment e.entityId ≠ ".."
  | some ents =>
    if e.entityId ∈ ents then DateRead days e
    else DateRead days e → ∀ ent ∈ ents, safeSegment ent ≠ safeSegment e.entityId

/-- The partitions that a replay reads. -/
def partitions (dirs : List Dir) (days : List ℤ) : List Dir :=
  dirs.dedup.flatMap fun dir => days.map fun day => dir ++ [isoDate day]

lemma mem_partitions {dirs : List Dir} {days : List ℤ} {dir : Dir} {date : String} :
    dir ++ [date] ∈ partitions dirs days ↔ dir ∈ dirs ∧ ∃ day ∈ days, isoDate day = date := by
  simp only [partitions, List.mem_flatMap, List.mem_dedup, List.mem_map]
  constructor
  · rintro ⟨dir', hdir, day, hday, heq⟩
    obtain ⟨rfl, hdate⟩ := List.append_inj' heq rfl
    exact ⟨hdir, day, hday, List.singleton_inj.1 hdate⟩
  · rintro ⟨hdir, day, hday, rfl⟩
    exact ⟨dir, hdir, day, hday, rfl⟩

lemma nodup_partitions (dirs : List Dir) {w : ReplayWindow} {days : List ℤ}
    (hdays : replayDays w = some days) : (partitions dirs days).Nodup := by
  refine List.nodup_flatMap.2 ⟨fun dir _ => ?_, ?_⟩
  · have hnodup : days.Nodup := (pairwise_replayDays hdays).imp ne_of_lt
    refine hnodup.map_on fun d hd d' hd' heq => ?_
    have hdate := List.singleton_inj.1 (List.append_cancel_left heq)
    exact (isoDate_inj_of_minDay (minDay_le_of_mem hdays hd) (minDay_le_of_mem hdays hd')).1 hdate
  · refine (List.nodup_dedup dirs).imp fun {dir dir'} hne p hp hp' => hne ?_
    obtain ⟨d, -, rfl⟩ := List.mem_map.1 hp
    obtain ⟨d', -, heq⟩ := List.mem_map.1 hp'
    exact (List.append_inj' heq rfl).1.symm

/-- Different file names are different directories. -/
lemma entityDir_inj {base : Dir} {a b : String} :
    entityDir base a = entityDir base b ↔ safeSegment a = safeSegment b := by
  unfold entityDir joinSegment
  split_ifs with ha hb hb <;> simp [*, Ne.symm]

variable [PyFloat F]

/-! ## What is read -/

/-- Up to order, a directory yields the events of the window in the files of its dates. -/
lemma entityStream_perm (store : Store) (w : ReplayWindow) (days : List ℤ) (dir : Dir) :
    (entityStream (F := F) store w days dir).Perm (days.flatMap fun day =>
      (store.files.entries.filter fun f => decide (f.1.1 = dir ++ [isoDate day])).flatMap
        fun f => windowEvents w f.2) := by
  rw [entityStream_eq]
  refine List.Perm.flatMap_left _ fun day _ => ?_
  have hrows : ((store.dayFiles (dir ++ [isoDate day])).flatMap fun f =>
      readFileRows (F := F) w f.2).Perm
      ((store.dayFiles (dir ++ [isoDate day])).flatMap fun f => windowEvents w f.2) :=
    List.Perm.flatMap_left _ fun f _ => perm_sortByKey _ _
  refine hrows.trans ?_
  unfold Store.dayFiles
  refine (List.Perm.flatMap_right _ (perm_sortByKey Prod.fst _)).trans ?_
  rw [List.flatMap_map]

/-- Up to order, a replay yields the events of the window in the files of its partitions. -/
lemma merge_perm (store : Store) {w : ReplayWindow} {days : List ℤ} (dirs : List Dir)
    (hdays : replayDays w = some days) :
    (HeapMerge.merge (entityOrder w.timeField)
      (dirs.dedup.map fun dir => (dir, entityStream (F := F) store w days dir))).Perm
      ((store.files.entries.filter fun f => decide (f.1.1 ∈ partitions dirs days)).flatMap
        fun f => windowEvents w f.2) := by
  refine (HeapMerge.perm_merge _).trans ?_
  have hkeys := flatMap_by_key_perm (fun f : (Dir × String) × List Row => f.1.1)
    (fun f => windowEvents (F := F) w f.2) store.files.entries (nodup_partitions dirs hdays)
    (q := fun f => decide (f.1.1 ∈ partitions dirs days)) (fun _ => decide_eq_true_iff)
  refine List.Perm.trans ?_ hkeys
  rw [HeapMerge.entries, List.flatMap_map, partitions, List.flatMap_assoc]
  refine List.Perm.flatMap_left _ fun dir _ => (entityStream_perm store w days dir).trans ?_
  rw [List.flatMap_map]

section Run

variable {actions : List (Action F)} {w : ReplayWindow} {spec : TopicSpec} {base : Dir}
  {days : List ℤ}

omit [PyFloat F] in
/-- Where an event was written. -/
lemma dir_of_placed {write : Write F} (h : Placed (· = base) write) {e : RecordedEvent F}
    (he : e ∈ write.batch.events) :
    ∃ day, dayOf e.observedAtUs = some day ∧
      write.dir = entityDir base e.entityId ++ [isoDate day] := by
  obtain ⟨huri, hbelongs⟩ := h
  obtain ⟨hentity, day, hday, hdate⟩ := hbelongs e he
  exact ⟨day, hday, by rw [Write.dir, huri, hentity, hdate]⟩

omit [PyFloat F] in
/-- The partition of an event is read if its directory and its date are. -/
lemma mem_partitions_of_placed {write : Write F} (h : Placed (· = base) write)
    (hdays : replayDays w = some days) {dirs : List Dir} {e : RecordedEvent F}
    (he : e ∈ write.batch.events) :
    write.dir ∈ partitions dirs days ↔ entityDir base e.entityId ∈ dirs ∧ DateRead days e := by
  obtain ⟨day, hday, hdir⟩ := dir_of_placed h he
  rw [hdir, mem_partitions]
  refine and_congr_right fun _ => ⟨?_, ?_⟩
  · rintro ⟨day', hmem, hdate⟩
    rw [isoDate_inj_of_minDay (minDay_le_of_mem hdays hmem) (dayOf_bounds hday).1] at hdate
    exact ⟨day', hmem, hdate ▸ hday⟩
  · rintro ⟨day', hmem, hday'⟩
    rw [hday] at hday'
    exact ⟨day', hmem, by rw [Option.some.inj hday']⟩

/-- The event is in a partition that the replay reads. -/
def Replayed (store : Store) (w : ReplayWindow) (spec : TopicSpec) (base : Dir) (days : List ℤ)
    (e : RecordedEvent F) : Prop :=
  w.Contains (e.time w.timeField) ∧ entityDir base e.entityId ∈ entityDirs store w spec base ∧
    DateRead days e

instance (store : Store) (w : ReplayWindow) (spec : TopicSpec) (base : Dir) (days : List ℤ)
    (e : RecordedEvent F) : Decidable (Replayed store w spec base days e) :=
  inferInstanceAs (Decidable (_ ∧ _ ∧ _))

/-- Up to order, a replay yields the flushed events whose partition it reads. -/
theorem perm_replayed (hat : ∀ a ∈ actions, StoredAt (· = base) a) (hfresh : FreshNames actions)
    (hdays : replayDays w = some days) :
    (HeapMerge.merge (entityOrder w.timeField)
      ((entityDirs (run actions).store w spec base).dedup.map fun dir =>
        (dir, entityStream (F := F) (run actions).store w days dir))).Perm
      ((flushed actions).filter fun e =>
        decide (Replayed (run actions).store w spec base days e)) := by
  refine (merge_perm _ _ hdays).trans ?_
  rw [entries_run hfresh, flushed, List.filter_flatMap, List.filter_map, List.flatMap_map]
  have hplaced : ∀ write ∈ (written actions).filter fun write => decide write.Fits,
      Placed (· = base) write := fun write hwrite =>
    placed_of_mem_written hat write (List.mem_filter.1 hwrite).1
  generalize (written actions).filter (fun write => decide write.Fits) = writes at hplaced ⊢
  induction writes with
  | nil => simp
  | cons write writes ih =>
    obtain ⟨hhead, htail⟩ := List.forall_mem_cons.1 hplaced
    -- a file is read as a whole or not at all
    have hfile : write.batch.events.filter (fun e =>
        decide (Replayed (run actions).store w spec base days e)) =
        if write.dir ∈ partitions (entityDirs (run actions).store w spec base) days then
          windowEvents w write.rows else [] := by
      rw [Write.rows, windowEvents_toRow]
      split_ifs with hread
      · refine List.filter_congr fun e he => decide_eq_decide.2 (and_iff_left ?_)
        exact (mem_partitions_of_placed hhead hdays he).1 hread
      · refine List.filter_eq_nil_iff.2 fun e he hreplayed => hread ?_
        exact (mem_partitions_of_placed hhead hdays he).2 (of_decide_eq_true hreplayed).2
    rw [List.flatMap_cons, hfile]
    have htail' := ih htail
    by_cases hread : write.dir ∈ partitions (entityDirs (run actions).store w spec base) days
    · rw [List.filter_cons_of_pos (by simpa [Write.file] using hread), List.flatMap_cons,
        if_pos hread]
      exact htail'.append_left _
    · rw [List.filter_cons_of_neg (by simpa [Write.file] using hread), if_neg hread]
      exact htail'

/-- The directory of a written event is read when the names say so. -/
lemma mem_entityDirs_iff {write : Write F} (hwrite : write ∈ written actions)
    (h : Placed (· = base) write) {e : RecordedEvent F} (he : e ∈ write.batch.events) :
    entityDir base e.entityId ∈ entityDirs (run actions).store w spec base ↔
      match restriction w spec with
      | none => safeSegment e.entityId ≠ "." ∧ safeSegment e.entityId ≠ ".."
      | some ents => ∃ ent ∈ ents, safeSegment ent = safeSegment e.entityId := by
  obtain ⟨day, hday, hdir⟩ := dir_of_placed h he
  have hmade : entityDir base e.entityId ++ [isoDate day] ∈ (run actions).store.dirs :=
    (dirs_run actions _).2 ⟨write, hwrite, hdir⟩
  unfold entityDirs restriction
  cases w.entityFilter.bind fun filter => filter.get? spec.slug with
  | some ents =>
    simp only [List.mem_filter, List.mem_map, entityDir_inj]
    refine and_iff_left ?_
    exact List.any_eq_true.2 ⟨_, hmade, decide_eq_true (List.prefix_append _ _)⟩
  | none =>
    simp only [List.mem_map, mem_sortByKey]
    constructor
    · rintro ⟨name, hname, heq⟩
      simp only [Store.children, List.mem_filter, decide_eq_true_eq] at hname
      unfold entityDir joinSegment at heq
      split_ifs at heq with hdot
      · simp at heq
      · exact ⟨hdot, by rw [← List.singleton_inj.1 (List.append_cancel_left heq)]; exact hname.2⟩
    · rintro ⟨hdot, hdots⟩
      have hentity : entityDir base e.entityId = base ++ [safeSegment e.entityId] := if_neg hdot
      refine ⟨safeSegment e.entityId, ?_, hentity.symm⟩
      simp only [Store.children, List.mem_filter, decide_eq_true_eq, List.mem_dedup,
        List.mem_filterMap]
      refine ⟨⟨_, hmade, ?_⟩, hdots⟩
      rw [hentity]
      simp

/-- For a written event of the window, being replayed and being wanted are the same when the event
is traced. -/
lemma replayed_iff_wanted_iff {write : Write F} (hwrite : write ∈ written actions)
    (h : Placed (· = base) write) {e : RecordedEvent F} (he : e ∈ write.batch.events) :
    (Replayed (run actions).store w spec base days e ↔ Wanted w spec e) ↔
      (w.Contains (e.time w.timeField) → Traced w spec days e) := by
  unfold Replayed Wanted
  rw [and_congr_right_iff, mem_entityDirs_iff hwrite h he]
  unfold Traced
  refine imp_congr_right fun _ => ?_
  cases restriction w spec with
  | none => simp [and_comm]
  | some ents =>
    simp only [Option.all_some, List.contains_iff_mem]
    by_cases hin : e.entityId ∈ ents
    · have hself : ∃ ent ∈ ents, safeSegment ent = safeSegment e.entityId := ⟨_, hin, rfl⟩
      simp [hin, hself]
    · simp only [hin, if_false, iff_false, not_and]
      constructor
      · exact fun hnot hdate ent hent heq => hnot ⟨ent, hent, heq⟩ hdate
      · rintro hfree ⟨ent, hent, heq⟩ hdate
        exact hfree hdate ent hent heq

variable (actions w spec) in
/-- The replay ends, and yields exactly the flushed events that the window asks for. -/
def ReplaysExactly : Prop :=
  ∃ out, parquetReplayer (run actions).store spec w = some out ∧
    out.Perm ((flushed actions).filter fun e => decide (Wanted w spec e))

/-- A replay of a topic yields exactly what was flushed in the window exactly when the padded window
lies in the calendar and every event of the window is traced, or nothing has been written. -/
theorem replaysExactly_iff (hspec : spec.storageUri = some base)
    (hat : ∀ a ∈ actions, StoredAt (· = base) a) (hfresh : FreshNames actions) :
    ReplaysExactly actions w spec ↔ written actions = [] ∨ ∃ days, replayDays w = some days ∧
      ∀ e ∈ flushed actions, w.Contains (e.time w.timeField) → Traced w spec days e := by
  obtain hnone | ⟨hwritten, hdir⟩ : written actions = [] ∨
      written actions ≠ [] ∧ (run actions).store.hasDir base = true := by
    refine (em _).imp_right fun hne => ⟨hne, ?_⟩
    obtain ⟨write, hwrite⟩ := List.exists_mem_of_ne_nil _ hne
    have hdir : write.dir ∈ (run actions).store.dirs := (dirs_run actions _).2 ⟨write, hwrite, rfl⟩
    have huri := (placed_of_mem_written hat write hwrite).1
    refine List.any_eq_true.2 ⟨_, hdir, decide_eq_true ?_⟩
    unfold Write.dir entityDir joinSegment
    split_ifs <;> simp [huri]
  · -- nothing was written, and the storage directory is not there
    have hstore : (run actions).store = (empty : Writer F).store := by rw [store_run, hnone]; rfl
    refine iff_of_true ⟨[], ?_, ?_⟩ (.inl hnone)
    · simp [parquetReplayer, hspec, hstore, empty, Store.hasDir]
    · simp [flushed, hnone]
  · rw [or_iff_right hwritten, ReplaysExactly]
    simp only [parquetReplayer, hspec, hdir, if_true]
    cases hdays : replayDays w with
    | none => simp
    | some days =>
      simp only [Option.map_some, Option.some.injEq, exists_eq_left']
      rw [(perm_replayed hat hfresh hdays).congr_left, filter_perm_filter_iff]
      refine forall₂_congr fun e he => ?_
      obtain ⟨write, hwrite, hmem⟩ := List.mem_flatMap.1 he
      obtain hwrite := (List.mem_filter.1 hwrite).1
      rw [decide_eq_true_iff, decide_eq_true_iff]
      exact replayed_iff_wanted_iff hwrite (placed_of_mem_written hat write hwrite) hmem

end Run

/-! ## Two entities in one directory -/

/-- An update of a currency pair. -/
def update (entityId : String) : Envelope Unit where
  topic := "crypto.update"
  entityId := entityId
  observedAtUs := 1704067210000000
  payload := [("price", .int 42000)]
  source := "crypto_worker"
  sequence := some 7
  ingestedAtUs := 1704067211000000
  schemaVersion := 1

lemma valid_update_slash : (update "BTC/USD").Valid := by decide +kernel

lemma valid_update_dash : (update "BTC-USD").Valid := by decide +kernel

/-- The first pair alone, or both pairs, published and flushed. -/
def updates (both : Bool) : List (Action Unit) :=
  .publish ⟨update "BTC/USD", valid_update_slash⟩ ["bus", "crypto.update"] ::
    (if both then [.publish ⟨update "BTC-USD", valid_update_dash⟩ ["bus", "crypto.update"]] else []) ++
    [.flush true fun i => (1704067212000, if i = 0 then "5e1d0a7c" else "90c2be41")]

/-- The topic of the crypto updates, kept under its name. -/
def updateSpec : TopicSpec := ⟨"crypto.update", some ["bus", "crypto.update"], true, true⟩

lemma slashMinute : (1704067200000000 : ℤ) < 1704067260000000 := by decide

/-- The updates of the pair with the slash, by the time of their ingestion. -/
def slashOnly : ReplayWindow where
  startUs := 1704067200000000
  endUs := 1704067260000000
  topics := ["crypto.update"]
  entityFilter := some (Dict.empty.set "crypto.update" ["BTC/USD"])
  timeField := .ingestedAtUs
  start_lt_end := slashMinute
  topics_ne_nil := by decide

theorem firstUpdate_replayed : ReplaysExactly (updates false) slashOnly updateSpec := by
  refine (replaysExactly_iff rfl (by simp [updates, StoredAt]) ?_).2
    (.inr ⟨[19722, 19723, 19724], by decide +kernel, ?_⟩)
  · exact show List.Nodup _ by decide +kernel
  · have hflushed : (flushed (updates false)).map (fun e => (e.entityId, e.observedAtUs)) =
        [("BTC/USD", 1704067210000000)] := by decide +kernel
    intro e he _
    have hmem := List.mem_map_of_mem (f := fun e : RecordedEvent Unit =>
      (e.entityId, e.observedAtUs)) he
    rw [hflushed, List.mem_singleton, Prod.mk.injEq] at hmem
    have hrestriction : restriction slashOnly updateSpec = some ["BTC/USD"] := by decide +kernel
    rw [Traced, hrestriction]
    simp only [hmem.1, List.mem_singleton, if_true]
    refine ⟨19723, by decide, ?_⟩
    rw [hmem.2]
    decide +kernel

/-- The directory of the other pair has the same name. -/
theorem updates_mixed : ¬ ReplaysExactly (updates true) slashOnly updateSpec := by
  rintro ⟨out, hout, hperm⟩
  have hread : (parquetReplayer (F := Unit) (run (updates true)).store updateSpec slashOnly).map
      List.length = some 2 := by decide +kernel
  have hwanted : ((flushed (updates true)).filter fun e =>
      decide (Wanted slashOnly updateSpec e)).length = 1 := by decide +kernel
  have hlen := hperm.length_eq
  rw [hout, Option.map_some, Option.some.injEq] at hread
  omega

end Evosport.RecordedBus
