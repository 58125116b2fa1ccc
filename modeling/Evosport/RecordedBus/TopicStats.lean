/-
The counters of the topic catalog.

A publish does not write the counters of its topic.  It adds to what is pending and leaves the rest
to one task, which sleeps, takes all that is pending and writes it in a single `UPDATE` that adds to
the rows.  When the database is under pressure, or the write fails, the batch goes back to what is
pending, where other publishes may have come in.

No event is lost on the way, and none is counted twice except where a commit took effect without
its acknowledgement (`counts_conserved`).  Nothing waits without a task that will see to it, so
that the task, once the database is quiet, brings everything into the table (`counts_settle`); and
once nothing of a topic is under way, its row bears the time of its last publish (`stamp_latest`).
-/
import Evosport.Lib.Run
import Evosport.Lib.Text
import Evosport.RecordedBus.TopicCatalog

namespace Evosport.RecordedBus.TopicStats

open Lib TopicCatalog
open Evosport.Data (StorageKind)

variable {J : Type*}

/-! ## What is pending -/

/-- What is known of a topic since its last flush: events, bytes, and the time of the latest event.
-/
structure Pending where
  nEvents : ℤ
  bytesAdded : ℤ
  publishedAt : ℚ
  deriving DecidableEq

/-- The pending counts by topic. -/
abbrev Batch := Dict String Pending

/-- A report is added to what is pending of its topic; the stamp is the latest. -/
def joined (old : Option Pending) (p : Pending) : Pending :=
  let old := old.getD ⟨0, 0, p.publishedAt⟩
  ⟨old.nEvents + p.nEvents, old.bytesAdded + p.bytesAdded, max old.publishedAt p.publishedAt⟩

/-- Add to the pending counts of a topic. -/
def note (pending : Batch) (slug : String) (p : Pending) : Batch :=
  pending.set slug (joined (pending.get? slug) p)

/-- `_requeue_touch_published_batch` -/
def requeue (pending batch : Batch) : Batch :=
  batch.entries.foldl (fun acc e => note acc e.1 e.2) pending

/-- What the `UPDATE` adds to a row -/
def Pending.addTo (p : Pending) (row : TopicRow J) : TopicRow J :=
  { row with
    lastPublishedAt := some p.publishedAt
    eventCount := row.eventCount + p.nEvents
    bytesOnDisk := row.bytesOnDisk + p.bytesAdded }

/-- `_persist_touch_published_batch`: a topic without a row is passed over. -/
def persist (batch : Batch) (rows : Dict String (TopicRow J)) : Dict String (TopicRow J) :=
  rows.mapVal fun slug row => (batch.get? slug).elim row fun p => p.addTo row

/-- The events of a topic in a batch -/
def eventsOf (batch : Batch) (slug : String) : ℤ := (batch.get? slug).elim 0 Pending.nEvents

@[simp] lemma eventsOf_empty (slug : String) : eventsOf .empty slug = 0 := rfl

lemma get?_note (pending : Batch) (slug : String) (p : Pending) (slug' : String) :
    (note pending slug p).get? slug' =
      if slug = slug' then some (joined (pending.get? slug) p) else pending.get? slug' :=
  Dict.get?_set _ _ _ _

/-- A batch that goes back is added topic by topic. -/
lemma get?_requeue (pending batch : Batch) (slug : String) :
    (requeue pending batch).get? slug =
      (batch.get? slug).elim (pending.get? slug) fun p =>
        some (joined (pending.get? slug) p) := by
  obtain ⟨entries, hnodup⟩ := batch
  have hfold : ∀ pending : Batch,
      (entries.foldl (fun acc e => note acc e.1 e.2) pending).get? slug =
        (Dict.lookup slug entries).elim (pending.get? slug) fun p =>
          some (joined (pending.get? slug) p) := by
    induction entries with
    | nil => intro pending; rfl
    | cons e entries ih =>
      intro pending
      rw [List.map_cons, List.nodup_cons] at hnodup
      rw [List.foldl_cons, ih hnodup.2]
      by_cases h : e.1 = slug
      · -- no other entry is about this topic
        have hnone : Dict.lookup slug entries = none := by
          rw [Dict.lookup_eq_none, ← h]
          exact hnodup.1
        simp [Dict.lookup, h, hnone, get?_note]
      · simp [Dict.lookup, h, get?_note]
  exact hfold pending

lemma eventsOf_note (pending : Batch) (slug : String) (p : Pending) (slug' : String) :
    eventsOf (note pending slug p) slug' =
      eventsOf pending slug' + if slug = slug' then p.nEvents else 0 := by
  rw [eventsOf, eventsOf, get?_note]
  split_ifs with h
  · subst h
    cases pending.get? slug <;> simp [joined]
  · simp

lemma eventsOf_requeue (pending batch : Batch) (slug : String) :
    eventsOf (requeue pending batch) slug = eventsOf pending slug + eventsOf batch slug := by
  rw [eventsOf, eventsOf, eventsOf, get?_requeue]
  cases batch.get? slug with
  | none => simp
  | some p => cases pending.get? slug <;> simp [joined]

/-! ## The task -/

/-- `_flush_scheduled_touch_published`, between two points where it waits -/
inductive Task where
  | idle
  | sleeping
  | backingOff
  | persisting (batch : Batch)

variable (J) in
/-- The rows of the catalog, the counts that wait, and the task that writes them. -/
structure State where
  rows : Dict String (TopicRow J)
  pending : Batch := .empty
  task : Task := .idle

/-- What happens: the bus has published events of a topic, the parquet writer has written bytes of
it, the task wakes and may find the database under pressure, its `UPDATE` goes through or fails,
with or without effect, or `touch_published` or another process adds to a row. -/
inductive Event where
  | published (slug : String) (kind : StorageKind) (n : ℕ) (now : ℚ)
  | flushed (slug : String) (bytes : ℕ) (now : ℚ)
  | wake (pressure : Bool)
  | persisted
  | failed (committed : Bool)
  | touch (slug : String) (p : Pending)

/-- `schedule_touch_published` -/
def schedule (s : State J) (slug : String) (p : Pending) : State J :=
  if strip slug = "" then s
  else
    { s with
      pending := note s.pending (strip slug) p
      task := match s.task with | .idle => .sleeping | task => task }

/-- The end of a turn of the task: it ends when nothing is pending. -/
def endTurn (s : State J) : State J :=
  { s with task := if s.pending.entries = [] then .idle else .sleeping }

/-- The flush task wakes: it ends when nothing waits, backs off when the database is under pressure,
and else takes all that waits with it. -/
def wake (s : State J) (pressure : Bool) : State J :=
  match s.task with
  | .sleeping =>
    if s.pending.entries = [] then { s with task := .idle }
    else if pressure then
      { s with pending := requeue .empty s.pending, task := .backingOff }
    else { s with pending := .empty, task := .persisting s.pending }
  | .backingOff => { s with task := .sleeping }
  | .idle | .persisting _ => s

/-- The events that the bus reports of what it has published: the rows of a table are counted by
whoever writes them, and topics in memory and foreign files are not counted. -/
def reported (kind : StorageKind) (n : ℕ) : Option ℕ :=
  match kind with
  | .parquet => some n
  | .sqlTable => some 0
  | .externalParquet | .memory => none

/-- One event of the counters: reports are added to what is pending, and the task of the flush
writes a batch, or puts it back when the write has failed. -/
def step (s : State J) : Event → State J
  | .published slug kind n now =>
    (reported kind n).elim s fun n => schedule s slug ⟨n, 0, now⟩
  | .flushed slug bytes now => schedule s slug ⟨0, bytes, now⟩
  | .wake pressure => wake s pressure
  | .persisted =>
    match s.task with
    | .persisting batch => endTurn { s with rows := persist batch s.rows }
    | _ => s
  | .failed committed =>
    match s.task with
    | .persisting batch =>
      endTurn { s with
        rows := if committed then persist batch s.rows else s.rows
        pending := requeue s.pending batch }
    | _ => s
  | .touch slug p =>
    if strip slug = "" then s
    else { s with rows := persist (Dict.empty.set (strip slug) p) s.rows }

/-- The counters after these events, over the rows that were there before. -/
def run (rows : Dict String (TopicRow J)) (events : List Event) : State J :=
  events.foldl step { rows := rows }

lemma run_snoc (rows : Dict String (TopicRow J)) (events : List Event) (event : Event) :
    run rows (events ++ [event]) = step (run rows events) event := by
  rw [run, List.foldl_append]
  rfl

/-! ## Where the events are -/

section Counts

variable (slug : String)

/-- The events of the topic that are in the table -/
def State.counted (s : State J) : ℤ := (s.rows.get? slug).elim 0 TopicRow.eventCount

/-- The events of the topic that the task has in hand -/
def State.inHand (s : State J) : ℤ :=
  match s.task with
  | .persisting batch => eventsOf batch slug
  | _ => 0

/-- The events of the topic wherever they are -/
def State.total (s : State J) : ℤ := s.counted slug + s.inHand slug + eventsOf s.pending slug

/-- The events of the topic that come in -/
def Event.adds : Event → ℤ
  | .published slug' kind n _ =>
    if strip slug' = slug ∧ slug ≠ "" then ((reported kind n).getD 0 : ℕ) else 0
  | .touch slug' p => if strip slug' = slug ∧ slug ≠ "" then p.nEvents else 0
  | _ => 0

/-- The events of the topic that are written and go back nevertheless, because nobody hears that
they were written -/
def recounted (s : State J) : Event → ℤ
  | .failed true => s.inHand slug
  | _ => 0

/-- All of them in a run -/
def recounts (s : State J) (events : List Event) : ℤ :=
  (outputs step (fun s event => [recounted slug s event]) s events).sum

end Counts

variable {slug : String} {s : State J}

lemma isSome_persist (batch : Batch) (rows : Dict String (TopicRow J)) :
    ((persist batch rows).get? slug).isSome = (rows.get? slug).isSome := by
  rw [persist, Dict.get?_mapVal, Option.isSome_map]

lemma count_persist (batch : Batch) {rows : Dict String (TopicRow J)}
    (h : (rows.get? slug).isSome) :
    ((persist batch rows).get? slug).elim 0 TopicRow.eventCount =
      (rows.get? slug).elim 0 TopicRow.eventCount + eventsOf batch slug := by
  obtain ⟨row, hrow⟩ := Option.isSome_iff_exists.1 h
  rw [persist, Dict.get?_mapVal, hrow, eventsOf]
  cases batch.get? slug <;> simp [Pending.addTo]

@[simp] lemma schedule_rows (s : State J) (slug : String) (p : Pending) :
    (schedule s slug p).rows = s.rows := by
  unfold schedule
  split_ifs <;> rfl

@[simp] lemma wake_rows (s : State J) (pressure : Bool) : (wake s pressure).rows = s.rows := by
  unfold wake
  split
  · split_ifs <;> rfl
  · rfl
  · rfl
  · rfl

@[simp] lemma endTurn_rows (s : State J) : (endTurn s).rows = s.rows := rfl

/-- No step adds a row or takes one away. -/
lemma isSome_step (slug : String) (s : State J) (event : Event) :
    ((step s event).rows.get? slug).isSome = (s.rows.get? slug).isSome := by
  cases event with
  | published slug' kind n now => cases hn : reported kind n <;> simp [step, hn]
  | flushed slug' bytes now => simp [step]
  | wake pressure => simp [step]
  | persisted =>
    cases htask : s.task with
    | persisting batch => simp [step, htask, isSome_persist]
    | idle | sleeping | backingOff => simp [step, htask]
  | failed committed =>
    cases htask : s.task with
    | persisting batch => cases committed <;> simp [step, htask, isSome_persist]
    | idle | sleeping | backingOff => simp [step, htask]
  | touch slug' p =>
    rw [step]
    split_ifs
    · rfl
    · exact isSome_persist _ _

lemma total_schedule (s : State J) (slug' : String) (p : Pending) :
    (schedule s slug' p).total slug =
      s.total slug + if strip slug' = slug ∧ slug ≠ "" then p.nEvents else 0 := by
  unfold schedule
  by_cases hempty : strip slug' = ""
  · have hne : ¬(strip slug' = slug ∧ slug ≠ "") := fun h => h.2 (h.1 ▸ hempty)
    rw [if_pos hempty, if_neg hne, add_zero]
  · have hiff : (strip slug' = slug ∧ slug ≠ "") ↔ strip slug' = slug :=
      ⟨fun h => h.1, fun h => ⟨h, h ▸ hempty⟩⟩
    rw [if_neg hempty]
    simp only [hiff, State.total, State.counted, eventsOf_note]
    cases htask : s.task <;> simp [State.inHand, htask] <;> ring

/-- At the end of a turn the task has nothing in hand. -/
lemma total_endTurn (s : State J) :
    (endTurn s).total slug = s.counted slug + eventsOf s.pending slug := by
  have hhand : (endTurn s).inHand slug = 0 := by
    unfold endTurn State.inHand
    split_ifs <;> rfl
  rw [State.total, hhand, add_zero]
  rfl

lemma total_wake (s : State J) (pressure : Bool) : (wake s pressure).total slug = s.total slug := by
  unfold wake
  split
  case h_1 htask =>
    split_ifs
    · simp [State.total, State.counted, State.inHand, htask]
    · simp [State.total, State.counted, State.inHand, htask, eventsOf_requeue]
    · simp [State.total, State.counted, State.inHand, htask]
  case h_2 htask => simp [State.total, State.counted, State.inHand, htask]
  case h_3 => rfl
  case h_4 => rfl

/-- What a step does to the events of a topic that has a row -/
lemma total_step (h : (s.rows.get? slug).isSome) (event : Event) :
    (step s event).total slug = s.total slug + event.adds slug + recounted slug s event := by
  cases event with
  | published slug' kind n now =>
    cases hn : reported kind n with
    | none => simp [step, Event.adds, recounted, hn]
    | some m => simp [step, Event.adds, recounted, hn, total_schedule]
  | flushed slug' bytes now => simp [step, Event.adds, recounted, total_schedule]
  | wake pressure => simp [step, Event.adds, recounted, total_wake]
  | persisted =>
    cases htask : s.task with
    | persisting batch =>
      simp only [step, htask, total_endTurn, Event.adds, recounted, add_zero]
      rw [State.counted, count_persist batch h, State.total, State.counted, State.inHand, htask]
    | idle | sleeping | backingOff => simp [step, Event.adds, recounted, htask]
  | failed committed =>
    cases htask : s.task with
    | persisting batch =>
      simp only [step, htask, total_endTurn, Event.adds, eventsOf_requeue]
      cases committed with
      | false => simp [recounted, State.total, State.counted, State.inHand, htask]; ring
      | true =>
        -- the batch is in the table and goes back as well
        simp only [State.counted, if_true, count_persist batch h, recounted, State.total,
          State.inHand, htask]
        ring
    | idle | sleeping | backingOff =>
      cases committed <;> simp [step, Event.adds, recounted, htask, State.inHand]
  | touch slug' p =>
    rw [step]
    by_cases hempty : strip slug' = ""
    · have hne : ¬(strip slug' = slug ∧ slug ≠ "") := fun h => h.2 (h.1 ▸ hempty)
      rw [if_pos hempty, Event.adds, if_neg hne]
      simp [recounted]
    · have hiff : (strip slug' = slug ∧ slug ≠ "") ↔ strip slug' = slug :=
        ⟨fun h => h.1, fun h => ⟨h, h ▸ hempty⟩⟩
      rw [if_neg hempty, Event.adds]
      simp only [hiff, recounted, add_zero, State.total, State.counted]
      rw [count_persist _ h, eventsOf, Dict.get?_set]
      simp only [State.inHand]
      split_ifs
      · simp only [Option.elim_some]; ring
      · simp

lemma recounts_snoc (slug : String) (rows : Dict String (TopicRow J)) (events : List Event)
    (event : Event) :
    recounts slug { rows := rows } (events ++ [event]) =
      recounts slug { rows := rows } events + recounted slug (run rows events) event := by
  simp [recounts, outputs_append, outputs, run]

/-- In every run, the events of a topic that are in the table, in the hands of the task or pending
are those that were there at first and those that have come in since, from the bus and from other
processes; only an `UPDATE` that takes effect without being acknowledged counts its batch twice. -/
theorem counts_conserved {rows : Dict String (TopicRow J)} {row : TopicRow J}
    (hrow : rows.get? slug = some row) (events : List Event) :
    (run rows events).counted slug + (run rows events).inHand slug +
        eventsOf (run rows events).pending slug =
      row.eventCount + (events.map (Event.adds slug)).sum +
        recounts slug { rows := rows } events := by
  have hinv : ((run rows events).rows.get? slug).isSome ∧
      (run rows events).total slug = row.eventCount + (events.map (Event.adds slug)).sum +
        recounts slug { rows := rows } events := by
    induction events using List.reverseRecOn with
    | nil => simp [run, hrow, State.total, State.counted, State.inHand, recounts, outputs]
    | append_singleton events event ih =>
      obtain ⟨hsome, htotal⟩ := ih
      rw [run_snoc]
      refine ⟨by rw [isSome_step]; exact hsome, ?_⟩
      rw [total_step hsome, htotal, recounts_snoc, List.map_append, List.sum_append]
      simp only [List.map_cons, List.map_nil, List.sum_cons, List.sum_nil]
      ring
  exact hinv.2

/-! ## Quiet turns -/

/-- The turns that are left for the task if nothing stands in its way -/
def Task.quietTurns : Task → List Event
  | .idle => []
  | .sleeping => [.wake false, .persisted]
  | .backingOff => [.wake false, .wake false, .persisted]
  | .persisting _ => [.persisted, .wake false, .persisted]

/-- Nothing waits without a task that will see to it. -/
def Attended (s : State J) : Prop := s.task = .idle → s.pending = .empty

lemma eq_empty_of_entries {batch : Batch} (h : batch.entries = []) : batch = .empty :=
  Dict.ext h

lemma attended_schedule (hs : Attended s) (slug : String) (p : Pending) :
    Attended (schedule s slug p) := by
  unfold schedule
  split_ifs
  · exact hs
  · intro hidle
    cases htask : s.task <;> simp [htask] at hidle

lemma attended_endTurn (s : State J) : Attended (endTurn s) := by
  intro hidle
  refine eq_empty_of_entries ?_
  by_contra hne
  have hsleeping : (endTurn s).task = .sleeping := if_neg hne
  rw [hsleeping] at hidle
  cases hidle

lemma attended_wake (hs : Attended s) (pressure : Bool) : Attended (wake s pressure) := by
  unfold wake
  split
  · split_ifs with hentries
    · exact fun _ => eq_empty_of_entries hentries
    · exact fun hidle => nomatch hidle
    · exact fun _ => rfl
  · exact fun hidle => nomatch hidle
  · exact hs
  · exact hs

lemma attended_step (hs : Attended s) (event : Event) : Attended (step s event) := by
  cases event with
  | published slug' kind n now =>
    cases hn : reported kind n with
    | none => simpa [step, hn] using hs
    | some m => simpa [step, hn] using attended_schedule hs slug' _
  | flushed slug' bytes now => exact attended_schedule hs slug' _
  | wake pressure => exact attended_wake hs pressure
  | persisted =>
    cases htask : s.task with
    | persisting batch => simpa [step, htask] using attended_endTurn _
    | idle | sleeping | backingOff => simpa [step, htask] using hs
  | failed committed =>
    cases htask : s.task with
    | persisting batch => simpa [step, htask] using attended_endTurn _
    | idle | sleeping | backingOff => simpa [step, htask] using hs
  | touch slug' p =>
    rw [step]
    split_ifs
    · exact hs
    · exact hs

lemma attended_run (rows : Dict String (TopicRow J)) (events : List Event) :
    Attended (run rows events) :=
  foldl_invariant (I := Attended) (fun _ event hs => attended_step hs event) (fun _ => rfl) events

/-- Without a task, neither a wake nor an answer of the database means anything. -/
lemma quiet_of_idle (hs : s.task = .idle) :
    step s (.wake false) = s ∧ step s .persisted = s := by
  simp [step, wake, hs]

/-- The turn of a task that has slept -/
lemma idle_of_sleeping (hs : s.task = .sleeping) :
    (step (step s (.wake false)) .persisted).task = .idle ∧
      (step (step s (.wake false)) .persisted).pending = .empty := by
  by_cases hentries : s.pending.entries = []
  · have hwake : step s (.wake false) = { s with task := .idle } := by
      simp [step, wake, hs, hentries]
    rw [hwake, (quiet_of_idle rfl).2]
    exact ⟨rfl, eq_empty_of_entries hentries⟩
  · have hwake : step s (.wake false) =
        { s with pending := .empty, task := .persisting s.pending } := by
      simp [step, wake, hs, hentries]
    rw [hwake]
    exact ⟨rfl, rfl⟩

lemma idle_after_quietTurns (hs : Attended s) :
    (s.task.quietTurns.foldl step s).task = .idle ∧
      (s.task.quietTurns.foldl step s).pending = .empty := by
  cases htask : s.task with
  | idle => exact ⟨htask, hs htask⟩
  | sleeping => exact idle_of_sleeping htask
  | backingOff =>
    have hslept : step s (.wake false) = { s with task := .sleeping } := by
      simp [step, wake, htask]
    simp only [Task.quietTurns, List.foldl_cons, List.foldl_nil, hslept]
    exact idle_of_sleeping rfl
  | persisting batch =>
    simp only [Task.quietTurns, List.foldl_cons, List.foldl_nil]
    have hturn : step s .persisted = endTurn { s with rows := persist batch s.rows } := by
      simp [step, htask]
    rw [hturn]
    by_cases hentries : s.pending.entries = []
    · have hidle : (endTurn { s with rows := persist batch s.rows }).task = .idle := by
        simp [endTurn, hentries]
      rw [(quiet_of_idle hidle).1, (quiet_of_idle hidle).2]
      exact ⟨hidle, eq_empty_of_entries hentries⟩
    · exact idle_of_sleeping (by simp [endTurn, hentries])

lemma adds_quietTurns (slug : String) (task : Task) :
    (task.quietTurns.map (Event.adds slug)).sum = 0 := by
  cases task <;> simp [Task.quietTurns, Event.adds]

lemma recounts_quietTurns (slug : String) (task : Task) (s : State J) :
    recounts slug s task.quietTurns = 0 := by
  cases task <;> simp [Task.quietTurns, recounts, outputs, recounted]

/-- Whatever has happened before, failures, pressure and publishes in between: when the task then
finds the database quiet for the turns that it has left, at most two, it comes to rest with nothing
pending, and every event is in the table. -/
theorem counts_settle {rows : Dict String (TopicRow J)} {row : TopicRow J}
    (hrow : rows.get? slug = some row) (events : List Event) :
    let s := run rows (events ++ (run rows events).task.quietTurns)
    s.task = .idle ∧ s.pending = .empty ∧
      s.counted slug = row.eventCount + (events.map (Event.adds slug)).sum +
        recounts slug { rows := rows } events := by
  intro s
  have hrun : s = (run rows events).task.quietTurns.foldl step (run rows events) := by
    show run rows _ = _
    rw [run, List.foldl_append]
    rfl
  obtain ⟨hidle, hpending⟩ := idle_after_quietTurns (attended_run rows events)
  rw [← hrun] at hidle hpending
  refine ⟨hidle, hpending, ?_⟩
  have hcounts := counts_conserved hrow (events ++ (run rows events).task.quietTurns)
  have hrecounts : recounts slug { rows := rows }
      (events ++ (run rows events).task.quietTurns) = recounts slug { rows := rows } events := by
    rw [recounts, outputs_append, List.sum_append]
    show _ + recounts slug (run rows events) _ = _
    rw [recounts_quietTurns, add_zero]
    rfl
  rw [hrecounts, List.map_append, List.sum_append, adds_quietTurns, add_zero] at hcounts
  have hhand : s.inHand slug = 0 := by rw [State.inHand, hidle]
  show s.counted slug = _
  rw [← hcounts]
  show s.counted slug = s.counted slug + s.inHand slug + eventsOf s.pending slug
  rw [hhand, hpending, eventsOf_empty, add_zero, add_zero]

/-! ## The stamp of the last publish -/

section Stamps

variable (slug : String)

/-- The stamp of the topic in a batch -/
def stampOf (batch : Batch) : Option ℚ := (batch.get? slug).map Pending.publishedAt

/-- The time of the latest event of the topic in the batch that is being written. -/
def State.stampInHand (s : State J) : Option ℚ :=
  match s.task with
  | .persisting batch => stampOf slug batch
  | _ => none

/-- The stamp of the topic in the table -/
def State.lastPublishedAt (s : State J) : Option ℚ :=
  (s.rows.get? slug).bind TopicRow.lastPublishedAt

/-- The time of a report of this process about the topic -/
def Event.report : Event → Option ℚ
  | .published slug' kind n now =>
    if strip slug' = slug ∧ slug ≠ "" ∧ (reported kind n).isSome then some now else none
  | .flushed slug' _ now => if strip slug' = slug ∧ slug ≠ "" then some now else none
  | _ => none

/-- The last report of a run -/
def latest (events : List Event) : Option ℚ := (events.filterMap (Event.report slug)).getLast?

/-- The topic's last report is what is pending, or what the task has in hand when nothing is
pending, or else what the table says. -/
structure Stamped (last first : Option ℚ) (s : State J) : Prop where
  underWay : ∀ t, (stampOf slug s.pending).or (s.stampInHand slug) = some t → last = some t
  atRest : (stampOf slug s.pending).or (s.stampInHand slug) = none →
    s.lastPublishedAt slug = last.or first
  older : ∀ t t', s.stampInHand slug = some t → stampOf slug s.pending = some t' → t ≤ t'

end Stamps

lemma stampOf_note (pending : Batch) (slug' : String) (p : Pending) :
    stampOf slug (note pending slug' p) =
      if slug' = slug then
        some (max ((stampOf slug pending).getD p.publishedAt) p.publishedAt)
      else stampOf slug pending := by
  rw [stampOf, stampOf, get?_note]
  split_ifs with h
  · subst h
    cases pending.get? slug' <;> simp [joined]
  · rfl

lemma stampOf_requeue (pending batch : Batch) :
    stampOf slug (requeue pending batch) =
      (stampOf slug batch).elim (stampOf slug pending) fun t =>
        some (max ((stampOf slug pending).getD t) t) := by
  rw [stampOf, stampOf, stampOf, get?_requeue]
  cases batch.get? slug with
  | none => rfl
  | some p => cases pending.get? slug <;> simp [joined]

lemma lastPublishedAt_persist {batch : Batch} {rows : Dict String (TopicRow J)}
    (h : (rows.get? slug).isSome) :
    ((persist batch rows).get? slug).bind TopicRow.lastPublishedAt =
      (stampOf slug batch).or ((rows.get? slug).bind TopicRow.lastPublishedAt) := by
  obtain ⟨row, hrow⟩ := Option.isSome_iff_exists.1 h
  rw [persist, Dict.get?_mapVal, hrow, stampOf]
  cases batch.get? slug <;> simp [Pending.addTo]

lemma stampInHand_schedule (s : State J) (slug' : String) (p : Pending) :
    (schedule s slug' p).stampInHand slug = s.stampInHand slug := by
  unfold schedule
  split_ifs
  · rfl
  · cases htask : s.task <;> simp [State.stampInHand, htask]

lemma stampInHand_endTurn (s : State J) : (endTurn s).stampInHand slug = none := by
  unfold endTurn State.stampInHand
  split_ifs <;> rfl

variable (slug) in
lemma stampInHand_persisting {batch : Batch} (htask : s.task = .persisting batch) :
    s.stampInHand slug = stampOf slug batch := by
  rw [State.stampInHand, htask]

namespace Stamped

variable {last first : Option ℚ}

/-- Only the stamps matter. -/
lemma congr (h : Stamped slug last first s) {s' : State J}
    (hpending : stampOf slug s'.pending = stampOf slug s.pending)
    (hhand : s'.stampInHand slug = s.stampInHand slug)
    (hrow : s'.lastPublishedAt slug = s.lastPublishedAt slug) : Stamped slug last first s' := by
  constructor
  case underWay => rw [hpending, hhand]; exact h.underWay
  case atRest => rw [hpending, hhand, hrow]; exact h.atRest
  case older => rw [hpending, hhand]; exact h.older

/-- A report that is not older than the last one is the last one. -/
lemma schedule_self (h : Stamped slug last first s) (p : Pending)
    (hlast : ∀ t, last = some t → t ≤ p.publishedAt) (hne : slug ≠ "") {slug' : String}
    (hslug : strip slug' = slug) :
    Stamped slug (some p.publishedAt) first (schedule s slug' p) := by
  have hbefore : ∀ t, (stampOf slug s.pending).or (s.stampInHand slug) = some t →
      t ≤ p.publishedAt := fun t ht => hlast t (h.underWay t ht)
  have hpending : stampOf slug (schedule s slug' p).pending = some p.publishedAt := by
    rw [schedule, hslug, if_neg hne, stampOf_note, if_pos rfl]
    cases hold : stampOf slug s.pending with
    | none => simp
    | some t => simp [hbefore t (by rw [hold]; rfl)]
  constructor
  case underWay =>
    intro t ht
    rw [hpending] at ht
    exact ht
  case atRest =>
    intro hnone
    rw [hpending] at hnone
    cases hnone
  case older =>
    intro t t' ht ht'
    rw [stampInHand_schedule] at ht
    rw [hpending] at ht'
    obtain rfl := Option.some.inj ht'
    cases hold : stampOf slug s.pending with
    | none => exact hbefore t (by rw [hold, ht]; rfl)
    | some u => exact (h.older t u ht hold).trans (hbefore u (by rw [hold]; rfl))

lemma schedule_of_ne (h : Stamped slug last first s) {slug' : String} (p : Pending)
    (hslug : ¬(strip slug' = slug ∧ slug ≠ "")) :
    Stamped slug last first (schedule s slug' p) := by
  refine h.congr ?_ (stampInHand_schedule s slug' p) (by simp [State.lastPublishedAt])
  unfold schedule
  by_cases hempty : strip slug' = ""
  · rw [if_pos hempty]
  · have hne : strip slug' ≠ slug := fun heq => hslug ⟨heq, heq ▸ hempty⟩
    rw [if_neg hempty, stampOf_note, if_neg hne]

lemma wake (h : Stamped slug last first s) (pressure : Bool) :
    Stamped slug last first (TopicStats.wake s pressure) := by
  unfold TopicStats.wake
  split
  case h_1 htask =>
    have hhand : s.stampInHand slug = none := by rw [State.stampInHand, htask]
    split_ifs
    · exact h.congr rfl (by rw [hhand]; rfl) rfl
    · refine h.congr ?_ (by rw [hhand]; rfl) rfl
      rw [stampOf_requeue]
      cases stampOf slug s.pending <;> simp [stampOf]
    · -- what was pending is now in hand
      constructor
      case underWay =>
        intro t ht
        refine h.underWay t ?_
        rw [hhand, Option.or_none]
        exact ht
      case atRest =>
        intro hnone
        refine h.atRest ?_
        rw [hhand, Option.or_none]
        exact hnone
      case older => exact fun t t' _ ht' => nomatch ht'
  case h_2 htask => exact h.congr rfl (by rw [State.stampInHand, State.stampInHand, htask]) rfl
  case h_3 => exact h
  case h_4 => exact h

/-- After the end of a turn nothing is in hand. -/
lemma endTurn (hpending : ∀ t, stampOf slug s.pending = some t → last = some t)
    (hrow : stampOf slug s.pending = none → s.lastPublishedAt slug = last.or first) :
    Stamped slug last first (TopicStats.endTurn s) := by
  constructor
  case underWay =>
    intro t ht
    rw [stampInHand_endTurn, Option.or_none] at ht
    exact hpending t ht
  case atRest =>
    intro hnone
    rw [stampInHand_endTurn, Option.or_none] at hnone
    exact hrow hnone
  case older =>
    intro t t' ht _
    rw [stampInHand_endTurn] at ht
    cases ht

lemma persisted (h : Stamped slug last first s) (hrow : (s.rows.get? slug).isSome) {batch : Batch}
    (htask : s.task = .persisting batch) :
    Stamped slug last first (TopicStats.endTurn { s with rows := persist batch s.rows }) := by
  have hhand := stampInHand_persisting slug htask
  refine endTurn (fun t ht => h.underWay t ?_) fun hpending => ?_
  · have ht : stampOf slug s.pending = some t := ht
    rw [ht]
    rfl
  · -- what was in hand is in the table now
    have hpending : stampOf slug s.pending = none := hpending
    show ((persist batch s.rows).get? slug).bind _ = _
    rw [lastPublishedAt_persist hrow, ← hhand]
    cases ht : s.stampInHand slug with
    | none => exact h.atRest (by rw [hpending, ht]; rfl)
    | some t => rw [h.underWay t (by rw [hpending, ht]; rfl)]; rfl

lemma failed (h : Stamped slug last first s) (hrow : (s.rows.get? slug).isSome) {batch : Batch}
    (htask : s.task = .persisting batch) (committed : Bool) :
    Stamped slug last first (TopicStats.endTurn { s with
      rows := if committed then persist batch s.rows else s.rows
      pending := requeue s.pending batch }) := by
  have hhand := stampInHand_persisting slug htask
  have hpending : stampOf slug (requeue s.pending batch) =
      (stampOf slug s.pending).or (s.stampInHand slug) := by
    rw [stampOf_requeue, ← hhand]
    cases ht : s.stampInHand slug with
    | none => simp
    | some t =>
      -- what came in meanwhile is not older
      cases ht' : stampOf slug s.pending with
      | none => simp
      | some t' => simp [h.older t t' ht ht']
  refine endTurn (fun t ht => h.underWay t (hpending.symm.trans ht)) fun hnone => ?_
  have hrest := hpending.symm.trans hnone
  have hnothing : stampOf slug batch = none := by
    rw [← hhand]
    exact (Option.or_eq_none_iff.1 hrest).2
  rw [← h.atRest hrest]
  cases committed with
  | false => rfl
  | true =>
    show ((persist batch s.rows).get? slug).bind _ = _
    rw [lastPublishedAt_persist hrow, hnothing]
    rfl

lemma touch_of_ne (h : Stamped slug last first s) (hrow : (s.rows.get? slug).isSome)
    {slug' : String} (p : Pending) (hslug : strip slug' ≠ slug) :
    Stamped slug last first (step s (.touch slug' p)) := by
  rw [step]
  split_ifs
  · exact h
  · refine h.congr rfl rfl ?_
    show ((persist _ s.rows).get? slug).bind _ = _
    rw [lastPublishedAt_persist hrow, stampOf, Dict.get?_set_of_ne _ _ hslug]
    rfl

lemma step (h : Stamped slug last first s) (hrow : (s.rows.get? slug).isSome) (event : Event)
    (hreport : ∀ now, event.report slug = some now → ∀ t, last = some t → t ≤ now)
    (htouch : ∀ slug' p, event = .touch slug' p → strip slug' ≠ slug) :
    Stamped slug ((event.report slug).or last) first (TopicStats.step s event) := by
  cases event with
  | published slug' kind n now =>
    cases hn : reported kind n with
    | none => simpa [TopicStats.step, Event.report, hn] using h
    | some m =>
      by_cases hslug : strip slug' = slug ∧ slug ≠ ""
      · have hnow : (Event.published slug' kind n now).report slug = some now := by
          simp [Event.report, hn, hslug]
        rw [hnow]
        simpa [TopicStats.step, hn] using
          h.schedule_self ⟨m, 0, now⟩ (hreport now hnow) hslug.2 hslug.1
      · have hnow : (Event.published slug' kind n now).report slug = none := by
          rw [Event.report, if_neg fun hall => hslug ⟨hall.1, hall.2.1⟩]
        rw [hnow]
        simpa [TopicStats.step, hn] using h.schedule_of_ne ⟨m, 0, now⟩ hslug
  | flushed slug' bytes now =>
    by_cases hslug : strip slug' = slug ∧ slug ≠ ""
    · have hnow : (Event.flushed slug' bytes now).report slug = some now := if_pos hslug
      rw [hnow]
      exact h.schedule_self ⟨0, bytes, now⟩ (hreport now hnow) hslug.2 hslug.1
    · rw [Event.report, if_neg hslug]
      exact h.schedule_of_ne ⟨0, bytes, now⟩ hslug
  | wake pressure => exact h.wake pressure
  | persisted =>
    cases htask : s.task with
    | persisting batch => simpa [TopicStats.step, htask, Event.report] using h.persisted hrow htask
    | idle | sleeping | backingOff => simpa [TopicStats.step, htask, Event.report] using h
  | failed committed =>
    cases htask : s.task with
    | persisting batch =>
      simpa [TopicStats.step, htask, Event.report] using h.failed hrow htask committed
    | idle | sleeping | backingOff => simpa [TopicStats.step, htask, Event.report] using h
  | touch slug' p => exact h.touch_of_ne hrow p (htouch slug' p rfl)

end Stamped

lemma latest_snoc (slug : String) (events : List Event) (event : Event) :
    latest slug (events ++ [event]) = (event.report slug).or (latest slug events) := by
  rw [latest, List.filterMap_append, List.getLast?_append, latest]
  cases hreport : event.report slug <;> simp [hreport]

/-- In a run in which the reports about a topic come in the order of time and no other process
stamps it, the row of the topic bears the time of the last report whenever nothing of the topic is
pending or in hand, whatever failed, was taken back or was written twice on the way. -/
theorem stamp_latest {rows : Dict String (TopicRow J)} {row : TopicRow J}
    (hrow : rows.get? slug = some row) {events : List Event}
    (horder : (events.filterMap (Event.report slug)).Pairwise (· ≤ ·))
    (htouch : ∀ slug' p, .touch slug' p ∈ events → strip slug' ≠ slug)
    (hpending : stampOf slug (run rows events).pending = none)
    (hhand : (run rows events).stampInHand slug = none) :
    (run rows events).lastPublishedAt slug = (latest slug events).or row.lastPublishedAt := by
  have hinv : ((run rows events).rows.get? slug).isSome ∧
      Stamped slug (latest slug events) row.lastPublishedAt (run rows events) := by
    clear hpending hhand
    induction events using List.reverseRecOn with
    | nil =>
      refine ⟨by simp [run, hrow], ?_, ?_, ?_⟩
      · exact fun t ht => nomatch ht
      · intro _
        simp [run, hrow, State.lastPublishedAt, latest]
      · exact fun t t' _ ht' => nomatch ht'
    | append_singleton events event ih =>
      rw [List.filterMap_append] at horder
      obtain ⟨hbefore, -, hafter⟩ := List.pairwise_append.1 horder
      obtain ⟨hsome, hstamped⟩ := ih hbefore fun slug' p hmem =>
        htouch slug' p (List.mem_append_left _ hmem)
      rw [run_snoc, latest_snoc]
      refine ⟨by rw [isSome_step]; exact hsome, hstamped.step hsome event ?_ ?_⟩
      · intro now hnow t ht
        exact hafter t (List.mem_of_getLast? ht) now (by simp [hnow])
      · intro slug' p hevent
        exact htouch slug' p (by simp [hevent])
  exact hinv.2.atRest (by rw [hpending, hhand]; rfl)

/-! ## A failure, a publish and a late success -/

/-- A topic with ten events in the table -/
def newsRows : Dict String (TopicRow ℕ) :=
  Dict.empty.set "news.update" { newsRegistration.newRow .parquet with eventCount := 10 }

/-- Two events are published; while they are written a third comes in; the write fails. -/
def failing : List Event :=
  [.published "news.update" .parquet 2 1, .wake false, .published "news.update" .parquet 1 2,
    .failed false]

theorem counts_conserved_failing :
    (run newsRows failing).counted "news.update" + (run newsRows failing).inHand "news.update" +
        eventsOf (run newsRows failing).pending "news.update" =
      10 + (failing.map (Event.adds "news.update")).sum +
        recounts "news.update" { rows := newsRows } failing :=
  counts_conserved (Dict.get?_set_self _ _ _) failing

theorem counts_settle_failing :
    let s := run newsRows (failing ++ (run newsRows failing).task.quietTurns)
    s.task = .idle ∧ s.pending = .empty ∧
      s.counted "news.update" = 10 + (failing.map (Event.adds "news.update")).sum +
        recounts "news.update" { rows := newsRows } failing :=
  counts_settle (Dict.get?_set_self _ _ _) failing

theorem stamp_latest_failing :
    (run newsRows (failing ++ [.wake false, .persisted])).lastPublishedAt "news.update" =
      (latest "news.update" (failing ++ [.wake false, .persisted])).or none := by
  refine stamp_latest (Dict.get?_set_self _ _ _) (by decide +kernel) ?_ (by decide +kernel)
    (by decide +kernel)
  simp [failing]

/-- All thirteen are counted, and the stamp is that of the third. -/
example :
    (run newsRows (failing ++ [.wake false, .persisted])).counted "news.update" = 13 ∧
      (run newsRows (failing ++ [.wake false, .persisted])).lastPublishedAt "news.update" =
        some 2 := by
  decide +kernel

end Evosport.RecordedBus.TopicStats
