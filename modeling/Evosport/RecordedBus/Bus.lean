/-
Replay over the topics of a window.

`bus.replay` merges the streams of its topics with a heap, and each of them merges the directories
of its entities the same way.  A heap only interleaves, so the replay is in the order of time and
sequence exactly when every directory's files are (`replay_inTimeOrder_iff`): when no event stands
in a file that is read later than a file with a later event.  The files of one date are read by
name, that is in the order in which they were flushed, and nothing merges them, so an event that
arrives late, behind a flush of later events, is replayed behind them (`secondFlush_comes_late`).
-/
import Evosport.RecordedBus.Flushed
import Evosport.RecordedBus.Reading

namespace Evosport.RecordedBus

open Lib Writer

/-- `topic_catalog`, by slug. -/
abbrev Catalog := Dict String TopicSpec

/-- `require_topic` and the check that the topic can be replayed; none where it raises. -/
def requireReplayable (catalog : Catalog) (topic : String) : Option TopicSpec :=
  (catalog.get? topic).bind fun spec => if spec.enabled && spec.isReplayable then some spec else none

/-- The specs of the window's topics, resolved before any stream is opened. -/
def resolve (catalog : Catalog) (w : ReplayWindow) : Option (List (String × TopicSpec)) :=
  w.topics.dedup.mapM fun topic => (requireReplayable catalog topic).map fun spec => (topic, spec)

section

variable {F : Type} [PyFloat F]

/-- The stream of a topic: `storage_replayer` logs what its one source raises and ends. -/
def topicStream (store : Store) (w : ReplayWindow) (spec : TopicSpec) : List (RecordedEvent F) :=
  (parquetReplayer store spec w).getD []

/-- The order of the heap of topics. -/
def topicOrder (field : TimeField) (topic : String) (e : RecordedEvent F) :
    ((ℤ ×ₗ ℤ) ×ₗ (String ×ₗ String)) ×ₗ String :=
  toLex (e.orderKey field, topic)

/-- `bus.replay`: none where a topic is refused, which happens before the first event. -/
def replay (store : Store) (catalog : Catalog) (w : ReplayWindow) :
    Option (List (RecordedEvent F)) :=
  (resolve catalog w).map fun specs =>
    HeapMerge.merge (topicOrder w.timeField)
      (specs.map fun t => (t.1, topicStream store w t.2))

/-- The events come in the order of the window's time and, at equal times, of the sequence. -/
def InTimeOrder (w : ReplayWindow) (events : List (RecordedEvent F)) : Prop :=
  events.Pairwise fun e e' => e.timeSeq w.timeField ≤ e'.timeSeq w.timeField

instance (w : ReplayWindow) (events : List (RecordedEvent F)) : Decidable (InTimeOrder w events) :=
  inferInstanceAs (Decidable (List.Pairwise _ _))

variable (F) in
/-- In a directory of an entity no event of the window stands in a file that is read later than a
file with a later event.  Of the files of one date the one with the smaller name is read first; by
the time of ingestion, files of different dates matter as well. -/
def FilesInOrder (store : Store) (w : ReplayWindow) (days : List ℤ) (dir : Dir) : Prop :=
  ∀ day ∈ days, ∀ day' ∈ days, ∀ name rows name' rows',
    store.files.get? (dir ++ [isoDate day], name) = some rows →
    store.files.get? (dir ++ [isoDate day'], name') = some rows' →
    day = day' ∧ name < name' ∨ day < day' ∧ w.timeField = .ingestedAtUs →
    ∀ e e' : RecordedEvent F, e ∈ windowEvents w rows → e' ∈ windowEvents w rows' →
      e.timeSeq w.timeField ≤ e'.timeSeq w.timeField

variable {w : ReplayWindow} {store : Store} {days : List ℤ} {dir : Dir}

/-! ## One directory -/

/-- The events of a file are found in the date that they were observed on. -/
lemma dayOf_of_mem_file (actions : List (Action F)) {date name : String} {rows : List Row}
    (hget : (run actions).store.files.get? (dir ++ [date], name) = some rows)
    {e : RecordedEvent F} (he : e ∈ windowEvents w rows) :
    ∃ day, dayOf e.observedAtUs = some day ∧ isoDate day = date := by
  obtain ⟨write, hwrite, hfile, rfl⟩ := mem_written_of_get? hget
  have hplaced := placed_of_mem_written (P := fun _ => True)
    (fun a _ => by cases a <;> trivial) write hwrite
  have hdate : write.batch.key.dateStr = date := by
    have hdir : write.dir = dir ++ [date] := congrArg Prod.fst hfile
    exact List.singleton_inj.1 (List.append_inj_right' hdir rfl)
  rw [Write.rows, windowEvents_toRow] at he
  obtain ⟨-, day, hday, hiso⟩ := hplaced.2 e (List.mem_filter.1 he).1
  exact ⟨day, hday, hiso.trans hdate⟩

/-- By the time of observation, what stands under an earlier date is earlier. -/
lemma timeSeq_le_of_day_lt (actions : List (Action F)) (hfield : w.timeField = .observedAtUs)
    {day day' : ℤ} (hday : minDay ≤ day) (hlt : day < day') {name name' : String}
    {rows rows' : List Row}
    (hget : (run actions).store.files.get? (dir ++ [isoDate day], name) = some rows)
    (hget' : (run actions).store.files.get? (dir ++ [isoDate day'], name') = some rows')
    {e e' : RecordedEvent F} (he : e ∈ windowEvents w rows) (he' : e' ∈ windowEvents w rows') :
    e.timeSeq w.timeField ≤ e'.timeSeq w.timeField := by
  obtain ⟨d, hd, hiso⟩ := dayOf_of_mem_file actions hget he
  obtain ⟨d', hd', hiso'⟩ := dayOf_of_mem_file actions hget' he'
  have h := (isoDate_inj_of_minDay (dayOf_bounds hd).1 hday).1 hiso
  have h' := (isoDate_inj_of_minDay (dayOf_bounds hd').1 (hday.trans hlt.le)).1 hiso'
  have htime : e.observedAtUs < e'.observedAtUs := by
    by_contra hge
    have := dayOf_le (not_lt.1 hge) hd' hd
    omega
  rw [hfield]
  exact Prod.Lex.toLex_le_toLex.2 (.inl htime)

/-- The stream of a directory is in order exactly when its files are. -/
lemma entityStream_inTimeOrder_iff (actions : List (Action F)) (hdays : replayDays w = some days)
    (dir : Dir) :
    InTimeOrder w (entityStream (F := F) (run actions).store w days dir) ↔
      FilesInOrder F (run actions).store w days dir := by
  have hmem : ∀ {rows : List Row} {e : RecordedEvent F}, e ∈ readFileRows w rows ↔
      e ∈ windowEvents w rows := mem_sortByKey
  rw [entityStream_eq]
  unfold InTimeOrder FilesInOrder
  rw [List.pairwise_flatMap, pairwise_iff_of_strict id (pairwise_replayDays hdays)]
  simp only [List.pairwise_flatMap, id_eq,
    pairwise_iff_of_strict Prod.fst (pairwise_dayFiles _ _)]
  constructor
  · rintro ⟨hsame, hcross⟩ day hday day' hday' name rows name' rows' hget hget' hlt e e' he he'
    have hf := mem_dayFiles.2 hget
    have hf' := mem_dayFiles.2 hget'
    rcases hlt with ⟨rfl, hlt⟩ | ⟨hlt, -⟩
    · exact (hsame day hday).2 _ hf _ hf' hlt e (hmem.2 he) e' (hmem.2 he')
    · exact hcross day hday day' hday' hlt e (List.mem_flatMap.2 ⟨_, hf, hmem.2 he⟩) e'
        (List.mem_flatMap.2 ⟨_, hf', hmem.2 he'⟩)
  · intro h
    refine ⟨fun day hday => ⟨fun f _ => pairwise_sortByKey _, ?_⟩, ?_⟩
    · rintro ⟨name, rows⟩ hf ⟨name', rows'⟩ hf' hlt e he e' he'
      exact h day hday day hday name rows name' rows' (mem_dayFiles.1 hf) (mem_dayFiles.1 hf')
        (.inl ⟨rfl, hlt⟩) e e' (hmem.1 he) (hmem.1 he')
    · intro day hday day' hday' hlt e he e' he'
      obtain ⟨⟨name, rows⟩, hf, he⟩ := List.mem_flatMap.1 he
      obtain ⟨⟨name', rows'⟩, hf', he'⟩ := List.mem_flatMap.1 he'
      have hget := mem_dayFiles.1 hf
      have hget' := mem_dayFiles.1 hf'
      cases hfield : w.timeField with
      | observedAtUs =>
        have := timeSeq_le_of_day_lt actions hfield (minDay_le_of_mem hdays hday) hlt hget hget'
          (hmem.1 he) (hmem.1 he')
        rwa [hfield] at this
      | ingestedAtUs =>
        have := h day hday day' hday' name rows name' rows' hget hget' (.inr ⟨hlt, hfield⟩)
          e e' (hmem.1 he) (hmem.1 he')
        rwa [hfield] at this

/-! ## The merges -/

omit [PyFloat F] in
/-- Where the base directory does not exist there is nothing in it. -/
lemma entityDirs_of_not_hasDir {spec : TopicSpec} {base : Dir} (h : store.hasDir base = false) :
    entityDirs store w spec base = [] := by
  have hnone : ∀ d ∈ store.dirs, ¬ base <+: d := by
    simpa [Store.hasDir] using h
  unfold entityDirs
  split
  · refine List.filter_eq_nil_iff.2 fun dir hdir => ?_
    obtain ⟨ent, -, rfl⟩ := List.mem_map.1 hdir
    have hbase : base <+: entityDir base ent := by
      unfold entityDir joinSegment
      split_ifs
      · exact List.prefix_refl base
      · exact List.prefix_append base _
    simpa [Store.hasDir] using fun d hd hpre => hnone d hd (hbase.trans hpre)
  · have hchildren : store.children base = [] := by
      unfold Store.children
      rw [List.filterMap_eq_nil_iff.2 fun d hd => if_neg (hnone d hd)]
      rfl
    rw [hchildren]
    rfl

/-- The heap of entities keeps the order that the directories have. -/
lemma topicStream_inTimeOrder_iff {spec : TopicSpec} :
    InTimeOrder w (topicStream (F := F) store w spec) ↔
      ∀ base, spec.storageUri = some base → ∀ days, replayDays w = some days →
        ∀ dir ∈ entityDirs store w spec base, InTimeOrder w (entityStream (F := F) store w days dir) := by
  unfold topicStream parquetReplayer
  cases spec.storageUri with
  | none => simp [InTimeOrder]
  | some base =>
    simp only [Option.some.injEq, forall_eq']
    cases hdir : store.hasDir base with
    | false =>
      rw [if_neg Bool.false_ne_true, entityDirs_of_not_hasDir hdir]
      simp [InTimeOrder]
    | true =>
      rw [if_pos rfl]
      cases replayDays w with
      | none => simp [InTimeOrder]
      | some days =>
        have hkey (d d' : Dir) (e e' : RecordedEvent F)
            (h : entityOrder w.timeField d e ≤ entityOrder w.timeField d' e') :
            e.timeSeq w.timeField ≤ e'.timeSeq w.timeField :=
          RecordedEvent.timeSeq_le_of_orderKey (Prod.Lex.monotone_fst _ _ h)
        simp only [Option.map_some, Option.getD_some, Option.some.injEq, forall_eq']
        rw [InTimeOrder, HeapMerge.pairwise_merge_iff hkey]
        simp [InTimeOrder]

/-- A replay is in the order of time and sequence exactly when the files of every entity's
directory are, whatever was published and however it was flushed. -/
theorem replay_inTimeOrder_iff (actions : List (Action F)) (catalog : Catalog) (w : ReplayWindow) :
    InTimeOrder w ((replay (F := F) (run actions).store catalog w).getD []) ↔
      ∀ specs, resolve catalog w = some specs → ∀ t ∈ specs, ∀ base, t.2.storageUri = some base →
        ∀ days, replayDays w = some days → ∀ dir ∈ entityDirs (run actions).store w t.2 base,
          FilesInOrder F (run actions).store w days dir := by
  unfold replay
  cases resolve catalog w with
  | none => simp [InTimeOrder]
  | some specs =>
    simp only [Option.map_some, Option.getD_some, Option.some.injEq, forall_eq']
    have hkey (t t' : String) (e e' : RecordedEvent F)
        (h : topicOrder w.timeField t e ≤ topicOrder w.timeField t' e') :
        e.timeSeq w.timeField ≤ e'.timeSeq w.timeField :=
      RecordedEvent.timeSeq_le_of_orderKey (Prod.Lex.monotone_fst _ _ h)
    rw [InTimeOrder, HeapMerge.pairwise_merge_iff hkey]
    simp only [List.forall_mem_map]
    refine forall₂_congr fun t _ => topicStream_inTimeOrder_iff.trans ?_
    refine forall₂_congr fun base _ => forall₂_congr fun days hdays => forall₂_congr fun dir _ => ?_
    exact entityStream_inTimeOrder_iff actions hdays dir

end

/-! ## A late event -/

/-- A trade observed at the given second of 2024-01-01. -/
def trade (second : ℤ) : Envelope Unit where
  topic := "wallet.trade"
  entityId := "0xab"
  observedAtUs := 1704067200000000 + second * 1000000
  payload := []
  source := "wallet_ws"
  sequence := none
  ingestedAtUs := 1704067200000000 + second * 1000000
  schemaVersion := 1

lemma valid_trade_10 : (trade 10).Valid := by decide +kernel

lemma valid_trade_20 : (trade 20).Valid := by decide +kernel

/-- The trade of second 20 is flushed before the one of second 10 arrives. -/
def lateTrade : List (Action Unit) :=
  [.publish ⟨trade 20, valid_trade_20⟩ ["bus", "wallet.trade"],
    .flush true fun _ => (1704067221000, "5e1d0a7c"),
    .publish ⟨trade 10, valid_trade_10⟩ ["bus", "wallet.trade"],
    .flush true fun _ => (1704067226000, "90c2be41")]

/-- A catalog with the topic of the wallet's trades. -/
def walletCatalog : Catalog :=
  Dict.empty.set "wallet.trade" ⟨"wallet.trade", some ["bus", "wallet.trade"], true, true⟩

/-- The minute in which both trades happened. -/
def firstMinute : ReplayWindow where
  startUs := 1704067200000000
  endUs := 1704067260000000
  topics := ["wallet.trade"]
  entityFilter := none
  timeField := .observedAtUs
  start_lt_end := by decide
  topics_ne_nil := by decide

theorem secondFlush_comes_late :
    ¬ InTimeOrder firstMinute
      ((replay (F := Unit) (run lateTrade).store walletCatalog firstMinute).getD []) := by
  decide +kernel

end Evosport.RecordedBus
