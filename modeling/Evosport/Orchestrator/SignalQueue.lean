/-
The queue of signal batches that wakes the trader cycles (`services/runtime_signal_queue.py`).

There are two lanes, each with one consumer.  A producer that finds a long backlog on its lane
merges it in place, one batch for each source, before it puts its own; the consumer takes the first
batch, maybe after a wait, and when it is resumed drains the lane and unites what it has.  Between
these two moments any number of batches may be published, and the rest of the lane merged.

The backlog of a lane is what was published to it since it was drained last, with nothing merged.
What the consumer is given is read off the backlog, so whether anything was merged does not show in
the signals (`wait_delivers`); of the snapshots merging may only put a newer one in an older one's
place (`wait_snapshots`); and the lane stays short (`queueDepth_le`).

The case tables for `lower` are a parameter.  A batch's id and the time of its publication come with
the action; the warning about a compaction and its clock are left out.
-/
import Evosport.Lib.FirstSeen
import Evosport.Lib.Run
import Evosport.Lib.Text
import Mathlib.Data.List.DropRight

namespace Evosport.Orchestrator.SignalQueue

open Lib

/-! ## Batches -/

/-- The two queues, each with its own consumer. -/
inductive Lane where
  | general
  | crypto
deriving DecidableEq, Repr

/-- `_ACTIONABLE_EVENT_TYPES` -/
def actionableEventTypes : List String :=
  ["upsert_insert", "upsert_update", "upsert_reactivated", "reverse_entry"]

/-- `_QUEUE_COMPACT_THRESHOLD` -/
def queueCompactThreshold : ℕ := 512

/-- The arguments of `publish_signal_batch`. -/
structure Batch (J : Type*) where
  eventType : String
  source : Option String
  signalIds : List String
  trigger : String
  reason : Option String := none
  emittedAt : Option String := none
  metadata : Option (Dict String J) := none
  signalSnapshots : Option (Dict String (Dict String J)) := none

/-- What is put on a lane: the arguments of the call, normalised, under the id of the batch. -/
structure Payload (J : Type*) where
  batchId : String
  batchEventType : String
  source : String
  signalIds : List String
  signalCount : ℕ
  trigger : String
  reason : Option String
  emittedAt : String
  metadata : Option (Dict String J)
  signalSnapshots : Option (Dict String (Dict String J))
  lane : Lane

/-- What a consumer is given: the signals and snapshots of all batches it took, by their sources,
with the ids and the types of the batches. -/
structure Coalesced (J : Type*) where
  eventType : String := "runtime_signal_batch"
  source : String := ""
  sourceSignalIds : Dict String (List String) := .empty
  sourceSignalSnapshots : Dict String (Dict String (Dict String J)) := .empty
  batchIds : List String := []
  batchEventTypes : List String := []

/-- The loop of `_normalize_signal_ids` -/
def normalizeLoop (limit : ℕ) : List String → List String → List String
  | out, [] => out
  | out, raw :: rest =>
    let signalId := strip raw
    if signalId = "" ∨ signalId ∈ out then normalizeLoop limit out rest
    else if (out ++ [signalId]).length ≥ max 1 limit then out ++ [signalId]
    else normalizeLoop limit (out ++ [signalId]) rest

/-- `_normalize_signal_ids` -/
def normalizeSignalIds (rawIds : List String) (limit : ℕ := 5000) : List String :=
  normalizeLoop limit [] rawIds

section Lanes

variable {J : Type*} (lower : String → String)

/-- `_normalize_source` -/
def normalizeSource (value : String) : String := lower (strip value)

/-- `_normalize_event_type` -/
def normalizeEventType (value : String) : String := lower (strip value)

/-- `_is_actionable_event` -/
def isActionableEvent (eventType trigger : String) : Bool :=
  decide (eventType ∈ actionableEventTypes) ||
    (eventType == "" && trigger == "strategy_signal_bridge")

/-- `_default_lane_for_source` -/
def defaultLaneForSource (source : String) : Lane :=
  if normalizeSource lower source = "crypto" then .crypto else .general

/-- `_normalize_source(payload.get("source")) or "__all__"` -/
def sourceKey (payload : Payload J) : String :=
  let source := normalizeSource lower payload.source
  if source = "" then "__all__" else source

/-- The batch that is put on a lane, when there is one: batches without signals or without an
actionable event are dropped. -/
def payloadOf (batchId now : String) (batch : Batch J) : Option (Payload J) :=
  let normalizedIds := normalizeSignalIds batch.signalIds
  let eventType := normalizeEventType lower batch.eventType
  let trigger := lower (strip batch.trigger)
  if normalizedIds = [] then none
  else if !isActionableEvent eventType trigger then none
  else some {
    batchId := batchId
    batchEventType := eventType
    source := normalizeSource lower (batch.source.getD "")
    signalIds := normalizedIds
    signalCount := normalizedIds.length
    trigger := trigger
    reason := batch.reason
    emittedAt := (batch.emittedAt.filter (· ≠ "")).getD now
    metadata := batch.metadata.filter (·.entries ≠ [])
    signalSnapshots := batch.signalSnapshots.filter (·.entries ≠ [])
    lane := defaultLaneForSource lower (batch.source.getD "") }

/-! ## What a consumer is given -/

/-- One signal of a batch: the signals seen of its source, and their snapshots. -/
def coalesceId (snapshotMap : Dict String (Dict String J)) :
    List String × Dict String (Dict String J) → String →
      List String × Dict String (Dict String J)
  | (ids, snapshots), raw =>
    let signalId := strip raw
    if signalId = "" ∨ signalId ∈ ids then (ids, snapshots)
    else (ids ++ [signalId], match snapshotMap.get? signalId with
      | some snapshot => snapshots.set signalId snapshot
      | none => snapshots)

/-- The snapshots of a payload by their source, none where the payload has none. -/
def Payload.snapshotMap (payload : Payload J) : Dict String (Dict String J) :=
  payload.signalSnapshots.getD .empty

/-- The loop of `_coalesce_batches`, for one batch: its signals and their snapshots are added under
its source, and its identifier and event type are noted. -/
def coalesceStep (c : Coalesced J) (payload : Payload J) : Coalesced J :=
  let batchId := strip payload.batchId
  let batchEventType := lower (strip payload.batchEventType)
  let key := sourceKey lower payload
  let (ids, snapshots) := payload.signalIds.foldl (coalesceId payload.snapshotMap)
    (c.sourceSignalIds.getD key [], c.sourceSignalSnapshots.getD key .empty)
  { c with
    sourceSignalIds := c.sourceSignalIds.set key ids
    sourceSignalSnapshots := c.sourceSignalSnapshots.set key snapshots
    batchIds := if batchId = "" then c.batchIds else c.batchIds ++ [batchId]
    batchEventTypes :=
      if batchEventType = "" then c.batchEventTypes else c.batchEventTypes ++ [batchEventType] }

/-- The source that is named when all the batches are of one. -/
def triggerSource (sources : List String) : String :=
  match sources.filter (· ≠ "__all__") with
  | [source] => if "__all__" ∈ sources then "" else source
  | _ => ""

/-- `_coalesce_batches` -/
def coalesceBatches (batches : List (Payload J)) : Option (Coalesced J) :=
  if batches.isEmpty then none
  else
    let c := batches.foldl (coalesceStep lower) {}
    some { c with source := triggerSource c.sourceSignalIds.keys }

/-! ## Merging a backlog -/

/-- One signal of a batch that is merged into an earlier one -/
def mergeId (ids : List String) (raw : String) : List String :=
  let sid := strip raw
  if sid = "" ∨ sid ∈ ids then ids else ids ++ [sid]

/-- The body of the loop of `_merge_same_source_payloads`, for a source that was met before -/
def mergeInto (existing payload : Payload J) : Payload J :=
  let ids := payload.signalIds.foldl mergeId existing.signalIds
  { existing with
    signalIds := ids
    signalCount := ids.length
    signalSnapshots := match payload.signalSnapshots with
      | some newSnap =>
        if newSnap.entries = [] then existing.signalSnapshots
        else some ((existing.signalSnapshots.getD .empty).update newSnap)
      | none => existing.signalSnapshots
    batchId := payload.batchId
    batchEventType := payload.batchEventType
    emittedAt := payload.emittedAt }

/-- One payload in the merge: it joins the payload of its source, or is the first of its source. -/
def mergeStep (merged : Dict String (Payload J)) (payload : Payload J) :
    Dict String (Payload J) :=
  let key := sourceKey lower payload
  match merged.get? key with
  | none => merged.set key payload
  | some existing => merged.set key (mergeInto existing payload)

/-- `_merge_same_source_payloads` -/
def mergeSameSourcePayloads (payloads : List (Payload J)) : List (Payload J) :=
  (payloads.foldl (mergeStep lower) .empty).values

/-! ## The lanes -/

/-- The batches on a lane and the one that its consumer has taken off it. -/
structure LaneState (J : Type*) where
  queue : List (Payload J) := []
  first : Option (Payload J) := none

/-- The state of both queues. -/
abbrev Queues (J : Type*) := Lane → LaneState J

/-- `publish_signal_batch` -/
def publishSignalBatch (batchId now : String) (batch : Batch J) (s : Queues J) :
    Queues J × Option String :=
  match payloadOf lower batchId now batch with
  | none => (s, none)
  | some payload =>
    let lane := s payload.lane
    let queue :=
      if lane.queue.length ≥ queueCompactThreshold then mergeSameSourcePayloads lower lane.queue
      else lane.queue
    (Function.update s payload.lane { lane with queue := queue ++ [payload] }, some batchId)

/-- `wait_for_signal_batch`, up to the first batch -/
def takeFirst (lane : Lane) (s : Queues J) : Queues J :=
  match (s lane).first, (s lane).queue with
  | none, payload :: rest => Function.update s lane ⟨rest, some payload⟩
  | _, _ => s

/-- `wait_for_signal_batch`, from the first batch on -/
def drain (lane : Lane) (s : Queues J) : Queues J × Option (Coalesced J) :=
  match (s lane).first with
  | none => (s, none)
  | some payload =>
    (Function.update s lane {}, coalesceBatches lower (payload :: (s lane).queue))

/-- `get_queue_depth` -/
def getQueueDepth (lane : Lane) (s : Queues J) : ℕ := (s lane).queue.length

/-- What can happen next. -/
inductive Action (J : Type*) where
  | publish (batchId now : String) (batch : Batch J)
  | take (lane : Lane)
  | drain (lane : Lane)

/-- One action on the queues. -/
def step (s : Queues J) : Action J → Queues J
  | .publish batchId now batch => (publishSignalBatch lower batchId now batch s).1
  | .take lane => takeFirst lane s
  | .drain lane => (drain lower lane s).1

/-- The lanes are empty when the process starts. -/
def run (acts : List (Action J)) : Queues J := acts.foldl (step lower) fun _ => {}

/-! ## The backlog -/

/-- What was published to a lane since it was drained last, and whether its consumer has woken up
for it. -/
structure Backlog (J : Type*) where
  batches : List (Payload J) := []
  woken : Bool := false

/-- What a lane owes its consumer after one more action. -/
def Backlog.next (lane : Lane) (b : Backlog J) : Action J → Backlog J
  | .publish batchId now batch =>
    match payloadOf lower batchId now batch with
    | none => b
    | some payload => if payload.lane = lane then { b with batches := b.batches ++ [payload] } else b
  | .take lane' => if lane' = lane ∧ b.batches ≠ [] then { b with woken := true } else b
  | .drain lane' => if lane' = lane ∧ b.woken then {} else b

/-- What a lane owes its consumer after these actions. -/
def backlog (lane : Lane) (acts : List (Action J)) : Backlog J :=
  acts.foldl (Backlog.next lower lane) {}

/-- The signals of a batch, under its source. -/
def Payload.entry (payload : Payload J) : String × List String :=
  (sourceKey lower payload, payload.signalIds)

/-! ## Signals without blanks and without repetitions -/

private lemma dropWhile_of_prefix {p : Char → Bool} {l m : List Char}
    (h : m <+: l.dropWhile p) : m.dropWhile p = m := by
  refine List.dropWhile_eq_self_iff.2 fun hm hp => ?_
  obtain ⟨rest, hrest⟩ := h
  have hl : 0 < (l.dropWhile p).length := by rw [← hrest, List.length_append]; omega
  have hhead : (l.dropWhile p)[0] = m[0] := by simp [← hrest, hm]
  exact List.dropWhile_get_zero_not p l hl (by simpa [hhead] using hp)

lemma strip_strip (s : String) : strip (strip s) = strip s := by
  have hprefix : (s.toList.dropWhile isBlank).rdropWhile isBlank <+: s.toList.dropWhile isBlank :=
    List.rdropWhile_prefix isBlank _
  have hself := List.rdropWhile_idempotent (p := isBlank) (s.toList.dropWhile isBlank)
  show String.ofList (((strip s).toList.dropWhile isBlank).rdropWhile isBlank) = strip s
  show String.ofList (((String.ofList ((s.toList.dropWhile isBlank).rdropWhile
    isBlank)).toList.dropWhile isBlank).rdropWhile isBlank) = strip s
  rw [String.toList_ofList, dropWhile_of_prefix hprefix, hself]
  rfl

/-- Ids as they come from a producer: each once, none of them empty, and none with blanks around it.
-/
structure CleanIds (ids : List String) : Prop where
  nodup : ids.Nodup
  stripped : ∀ id ∈ ids, strip id = id
  nonempty : ∀ id ∈ ids, id ≠ ""

lemma CleanIds.nil : CleanIds [] := ⟨List.nodup_nil, by simp, by simp⟩

lemma CleanIds.snoc {ids : List String} (h : CleanIds ids) {raw : String} (hne : strip raw ≠ "")
    (hnew : strip raw ∉ ids) : CleanIds (ids ++ [strip raw]) := by
  have happend : addNew ids (strip raw) = ids ++ [strip raw] := if_neg hnew
  constructor
  · exact happend ▸ nodup_addNew h.nodup _
  · intro id hid
    rcases List.mem_append.1 hid with hid | hid
    · exact h.stripped id hid
    · rw [List.mem_singleton.1 hid, strip_strip]
  · intro id hid
    rcases List.mem_append.1 hid with hid | hid
    · exact h.nonempty id hid
    · exact List.mem_singleton.1 hid ▸ hne

lemma cleanIds_normalizeLoop (limit : ℕ) (rawIds : List String) {out : List String}
    (hout : CleanIds out) : CleanIds (normalizeLoop limit out rawIds) := by
  induction rawIds generalizing out with
  | nil => exact hout
  | cons raw rest ih =>
    by_cases hskip : strip raw = "" ∨ strip raw ∈ out
    · simpa [normalizeLoop, hskip] using ih hout
    · obtain ⟨hne, hnew⟩ := not_or.1 hskip
      have hnext := hout.snoc hne hnew
      simp only [normalizeLoop, if_neg hskip]
      split_ifs
      · exact hnext
      · exact ih hnext

lemma cleanIds_normalizeSignalIds (rawIds : List String) (limit : ℕ) :
    CleanIds (normalizeSignalIds rawIds limit) :=
  cleanIds_normalizeLoop limit rawIds .nil

/-- Signals that are clean and not too many are all taken. -/
lemma normalizeLoop_of_cleanIds {limit : ℕ} {ids out : List String} (h : CleanIds (out ++ ids))
    (hlimit : (out ++ ids).length ≤ limit) : normalizeLoop limit out ids = out ++ ids := by
  induction ids generalizing out with
  | nil => rw [normalizeLoop, List.append_nil]
  | cons id rest ih =>
    have hid : strip id = id := h.stripped id (by simp)
    have hne : id ≠ "" := h.nonempty id (by simp)
    have hnew : id ∉ out := by
      intro hmem
      exact (List.nodup_append.1 h.nodup).2.2 id hmem id List.mem_cons_self rfl
    have hsplit : out ++ id :: rest = (out ++ [id]) ++ rest := by simp
    rw [hsplit] at h hlimit ⊢
    rw [normalizeLoop, hid, if_neg (not_or.2 ⟨hne, hnew⟩)]
    split_ifs with hfull
    · -- The limit is reached with the last one.
      have hrest : rest = [] := by
        refine List.eq_nil_of_length_eq_zero ?_
        rw [List.length_append] at hlimit
        omega
      rw [hrest, List.append_nil]
    · exact ih h hlimit

lemma cleanIds_payloadOf {batchId now : String} {batch : Batch J} {payload : Payload J}
    (h : payloadOf lower batchId now batch = some payload) : CleanIds payload.signalIds := by
  simp only [payloadOf] at h
  split_ifs at h
  obtain rfl := Option.some.inj h
  exact cleanIds_normalizeSignalIds _ _

/-- On such signals the loop over a batch's signals collects what it has not met. -/
lemma foldl_mergeId {ids : List String} (h : CleanIds ids) (out : List String) :
    ids.foldl mergeId out = ids.foldl addNew out := by
  refine List.foldl_ext _ _ _ fun out id hid => ?_
  simp [mergeId, addNew, h.stripped id hid, h.nonempty id hid]

lemma foldl_coalesceId_fst {ids : List String} (h : CleanIds ids)
    (snapshotMap : Dict String (Dict String J))
    (acc : List String × Dict String (Dict String J)) :
    (ids.foldl (coalesceId snapshotMap) acc).1 = ids.foldl addNew acc.1 := by
  have hstep : ∀ acc, ∀ id ∈ ids, (coalesceId snapshotMap acc id).1 = addNew acc.1 id := by
    intro acc id hid
    by_cases hseen : id ∈ acc.1
    · simp [coalesceId, addNew, h.stripped id hid, hseen]
    · simp [coalesceId, addNew, h.stripped id hid, h.nonempty id hid, hseen]
  clear h
  induction ids generalizing acc with
  | nil => rfl
  | cons id ids ih =>
    rw [List.foldl_cons, List.foldl_cons, ← hstep acc id List.mem_cons_self]
    exact ih _ fun acc id hid => hstep acc id (List.mem_cons_of_mem _ hid)

/-- The snapshot of a signal is the one that comes with it where it is first met. -/
lemma get?_foldl_coalesceId {ids : List String} (h : CleanIds ids)
    (snapshotMap : Dict String (Dict String J))
    (acc : List String × Dict String (Dict String J)) (id : String) :
    (ids.foldl (coalesceId snapshotMap) acc).2.get? id =
      if id ∈ acc.1 ∨ id ∉ ids then acc.2.get? id
      else (snapshotMap.get? id).or (acc.2.get? id) := by
  have hclean : ∀ raw ∈ ids, strip raw = raw ∧ raw ≠ "" := fun raw hraw =>
    ⟨h.stripped raw hraw, h.nonempty raw hraw⟩
  clear h
  induction ids generalizing acc with
  | nil => simp
  | cons raw ids ih =>
    obtain ⟨hstrip, hne⟩ := hclean raw List.mem_cons_self
    rw [List.foldl_cons, ih _ fun raw hraw => hclean raw (List.mem_cons_of_mem _ hraw)]
    by_cases hseen : raw ∈ acc.1
    · have hskip : coalesceId snapshotMap acc raw = acc := by
        simp [coalesceId, hstrip, hseen]
      rw [hskip]
      by_cases hid : id = raw
      · subst hid; simp [hseen]
      · simp [hid]
    · have hkeep : coalesceId snapshotMap acc raw = (acc.1 ++ [raw],
          match snapshotMap.get? raw with
          | some snapshot => acc.2.set raw snapshot
          | none => acc.2) := by
        simp [coalesceId, hstrip, hne, hseen]
      rw [hkeep]
      by_cases hid : id = raw
      · subst hid
        cases hsnap : snapshotMap.get? id <;> simp [hseen]
      · have hother : (match snapshotMap.get? raw with
            | some snapshot => acc.2.set raw snapshot
            | none => acc.2).get? id = acc.2.get? id := by
          cases snapshotMap.get? raw with
          | none => rfl
          | some snapshot => exact Dict.get?_set_of_ne _ _ (Ne.symm hid)
        simp [hid, hother]

/-! ## What a list of batches amounts to -/

/-- The batches of clean signals. -/
abbrev Clean (l : List (Payload J)) : Prop := ∀ p ∈ l, CleanIds p.signalIds

/-- The first batch of a source that has the signal. -/
def carrier (k id : String) (l : List (Payload J)) : Option (Payload J) :=
  l.find? fun p => sourceKey lower p = k ∧ id ∈ p.signalIds

lemma mem_listed {k id : String} {l : List (Payload J)} :
    id ∈ listed k (l.map (Payload.entry lower)) ↔
      ∃ p ∈ l, sourceKey lower p = k ∧ id ∈ p.signalIds := by
  simp only [listed, List.mem_flatMap, List.mem_filter, List.mem_map, decide_eq_true_eq]
  constructor
  · rintro ⟨e, ⟨⟨p, hp, rfl⟩, hk⟩, hid⟩
    exact ⟨p, hp, hk, hid⟩
  · rintro ⟨p, hp, hk, hid⟩
    exact ⟨p.entry lower, ⟨⟨p, hp, rfl⟩, hk⟩, hid⟩

lemma isSome_carrier {k id : String} {l : List (Payload J)} :
    (carrier lower k id l).isSome ↔ id ∈ listed k (l.map (Payload.entry lower)) := by
  simp [carrier, mem_listed]

lemma carrier_append (k id : String) (l l' : List (Payload J)) :
    carrier lower k id (l ++ l') = (carrier lower k id l).or (carrier lower k id l') :=
  List.find?_append

/-- What has been united after some batches -/
abbrev united (l : List (Payload J)) : Coalesced J := l.foldl (coalesceStep lower) {}

lemma united_snoc (l : List (Payload J)) (p : Payload J) :
    united lower (l ++ [p]) = coalesceStep lower (united lower l) p := by
  simp [united]

lemma united_sourceSignalIds {l : List (Payload J)} (hl : Clean l) :
    (united lower l).sourceSignalIds = gather (l.map (Payload.entry lower)) := by
  induction l using List.reverseRecOn with
  | nil => rfl
  | append_singleton l p ih =>
    have hp : CleanIds p.signalIds := hl p (by simp)
    have ih := ih fun q hq => hl q (List.mem_append_left _ hq)
    rw [united_snoc, List.map_append, List.map_singleton, gather_snoc, ← ih]
    simp only [coalesceStep, gatherStep, Payload.entry, foldl_coalesceId_fst hp]

lemma united_snapshot {l : List (Payload J)} (hl : Clean l) (k id : String) :
    ((united lower l).sourceSignalSnapshots.getD k .empty).get? id =
      (carrier lower k id l).bind fun p => p.snapshotMap.get? id := by
  induction l using List.reverseRecOn with
  | nil => rfl
  | append_singleton l p ih =>
    have hp : CleanIds p.signalIds := hl p (by simp)
    have hclean : Clean l := fun q hq => hl q (List.mem_append_left _ hq)
    have ih := ih hclean
    have hids := united_sourceSignalIds lower hclean
    rw [united_snoc, carrier_append]
    simp only [coalesceStep, Dict.getD_set]
    by_cases hk : sourceKey lower p = k
    · subst hk
      have hcarrier : carrier lower (sourceKey lower p) id [p] =
          if id ∈ p.signalIds then some p else none := by
        by_cases hid : id ∈ p.signalIds <;> simp [carrier, hid]
      have hseen : id ∈ (united lower l).sourceSignalIds.getD (sourceKey lower p) [] ↔
          (carrier lower (sourceKey lower p) id l).isSome := by
        rw [hids, getD_gather, List.mem_eraseDups, isSome_carrier]
      rw [if_pos rfl, get?_foldl_coalesceId hp, hcarrier, ih]
      -- The batch adds a snapshot only where no earlier one has the signal.
      cases hfirst : carrier lower (sourceKey lower p) id l with
      | some q =>
        rw [hfirst] at hseen
        simp [hseen]
      | none =>
        rw [hfirst] at hseen
        by_cases hid : id ∈ p.signalIds <;> simp [hseen, hid]
    · have hnone : carrier lower k id [p] = none := by simp [carrier, hk]
      rw [if_neg hk, ih, hnone, Option.or_none]

/-! ## Merging -/

lemma get?_snapshotMap_mergeInto (existing payload : Payload J) (id : String) :
    (mergeInto existing payload).snapshotMap.get? id =
      (payload.snapshotMap.get? id).or (existing.snapshotMap.get? id) := by
  cases hnew : payload.signalSnapshots with
  | none => simp [mergeInto, Payload.snapshotMap, hnew]
  | some newSnap =>
    by_cases hnil : newSnap.entries = []
    · have hnone : newSnap.get? id = none := by rw [Dict.get?, hnil]; rfl
      simp [mergeInto, Payload.snapshotMap, hnew, hnil, hnone]
    · simp [mergeInto, Payload.snapshotMap, hnew, hnil, Dict.get?_update]

/-- The batch of a source that a list of batches is merged into -/
structure Represents (k : String) (l : List (Payload J)) (m : Payload J) : Prop where
  key : sourceKey lower m = k
  ids : m.signalIds = (listed k (l.map (Payload.entry lower))).eraseDups
  genuine : ∀ id s, m.snapshotMap.get? id = some s →
    ∃ p ∈ l, sourceKey lower p = k ∧ p.snapshotMap.get? id = some s
  covers : ∀ p ∈ l, sourceKey lower p = k → ∀ id,
    (p.snapshotMap.get? id).isSome → (m.snapshotMap.get? id).isSome

namespace Represents

variable {lower} {k : String} {l : List (Payload J)} {m p : Payload J}

/-- The first batch of its source -/
lemma single (hp : CleanIds p.signalIds) (hnew : ∀ q ∈ l, sourceKey lower q ≠ sourceKey lower p) :
    Represents lower (sourceKey lower p) (l ++ [p]) p := by
  constructor
  case key => rfl
  case ids =>
    have hnil : listed (sourceKey lower p) (l.map (Payload.entry lower)) = [] := by
      refine listed_eq_nil fun hmem => ?_
      obtain ⟨e, he, heq⟩ := List.mem_map.1 hmem
      obtain ⟨q, hq, rfl⟩ := List.mem_map.1 he
      exact hnew q hq heq
    have hone : listed (sourceKey lower p) ([p].map (Payload.entry lower)) = p.signalIds := by
      simp [listed, Payload.entry]
    rw [List.map_append, listed_append, hnil, hone, List.nil_append, eraseDups_of_nodup hp.nodup]
  case genuine => exact fun id s hs => ⟨p, by simp, rfl, hs⟩
  case covers =>
    intro q hq hk id hsome
    rcases List.mem_append.1 hq with hq | hq
    · exact absurd hk (hnew q hq)
    · exact List.mem_singleton.1 hq ▸ hsome

/-- A batch of another source -/
lemma frame (h : Represents lower k l m) (hk : sourceKey lower p ≠ k) :
    Represents lower k (l ++ [p]) m := by
  constructor
  case key => exact h.key
  case ids =>
    have hone : listed k ([p].map (Payload.entry lower)) = [] := by
      simp [listed, Payload.entry, hk]
    rw [List.map_append, listed_append, hone, List.append_nil, h.ids]
  case genuine =>
    intro id s hs
    obtain ⟨q, hq, hkey, hsnap⟩ := h.genuine id s hs
    exact ⟨q, List.mem_append_left _ hq, hkey, hsnap⟩
  case covers =>
    intro q hq hkey id hsome
    rcases List.mem_append.1 hq with hq | hq
    · exact h.covers q hq hkey id hsome
    · exact absurd (List.mem_singleton.1 hq ▸ hkey) hk

/-- One more batch of the source -/
lemma merge (h : Represents lower k l m) (hp : CleanIds p.signalIds)
    (hk : sourceKey lower p = k) : Represents lower k (l ++ [p]) (mergeInto m p) := by
  constructor
  case key => exact h.key
  case ids =>
    have hone : listed k ([p].map (Payload.entry lower)) = p.signalIds := by
      simp [listed, Payload.entry, hk]
    show p.signalIds.foldl mergeId m.signalIds = _
    rw [foldl_mergeId hp, h.ids, foldl_addNew, List.map_append, listed_append, hone]
  case genuine =>
    intro id s hs
    rw [get?_snapshotMap_mergeInto, Option.or_eq_some_iff] at hs
    rcases hs with hs | ⟨-, hs⟩
    · exact ⟨p, by simp, hk, hs⟩
    · obtain ⟨q, hq, hkey, hsnap⟩ := h.genuine id s hs
      exact ⟨q, List.mem_append_left _ hq, hkey, hsnap⟩
  case covers =>
    intro q hq hkey id hsome
    rw [get?_snapshotMap_mergeInto, Option.isSome_or]
    rcases List.mem_append.1 hq with hq | hq
    · simp [h.covers q hq hkey id hsome]
    · simp [← List.mem_singleton.1 hq, hsome]

end Represents

/-- The batches that a list is merged into, by their source -/
abbrev mergedBySource (l : List (Payload J)) : Dict String (Payload J) :=
  l.foldl (mergeStep lower) .empty

lemma mergedBySource_spec {l : List (Payload J)} (hl : Clean l) :
    (mergedBySource lower l).keys = (l.map (sourceKey lower)).eraseDups ∧
      ∀ k m, (mergedBySource lower l).get? k = some m → Represents lower k l m := by
  induction l using List.reverseRecOn with
  | nil => exact ⟨rfl, fun k m h => nomatch h⟩
  | append_singleton l p ih =>
    have hp : CleanIds p.signalIds := hl p (by simp)
    obtain ⟨hkeys, hrep⟩ := ih fun q hq => hl q (List.mem_append_left _ hq)
    have hsnoc : mergedBySource lower (l ++ [p]) = mergeStep lower (mergedBySource lower l) p := by
      simp [mergedBySource]
    rw [hsnoc, List.map_append, List.map_singleton, eraseDups_snoc, ← hkeys]
    generalize hmerged : mergedBySource lower l = merged at hkeys hrep ⊢
    cases hget : merged.get? (sourceKey lower p) with
    | none =>
      -- The source is new: its batch comes behind all the others.
      have hnot : sourceKey lower p ∉ merged.keys := Dict.get?_eq_none.1 hget
      have hnew : ∀ q ∈ l, sourceKey lower q ≠ sourceKey lower p := by
        intro q hq heq
        rw [hkeys, List.mem_eraseDups] at hnot
        exact hnot (heq ▸ List.mem_map_of_mem hq)
      constructor
      · rw [addNew, if_neg hnot]
        simp [mergeStep, hget, Dict.keys, Dict.entries_set_of_none hget]
      · intro k m hm
        simp only [mergeStep, hget, Dict.get?_set] at hm
        split_ifs at hm with hk
        · obtain rfl := Option.some.inj hm
          exact hk ▸ .single hp hnew
        · exact (hrep k m hm).frame hk
    | some existing =>
      -- The batch is merged into the one of its source, at its place.
      have hmem : sourceKey lower p ∈ merged.keys := Dict.mem_keys.2 ⟨existing, hget⟩
      constructor
      · simp only [mergeStep, hget, addNew, if_pos hmem]
        exact Dict.keys_set_of_some hget _
      · intro k m hm
        simp only [mergeStep, hget, Dict.get?_set] at hm
        split_ifs at hm with hk
        · obtain rfl := Option.some.inj hm
          exact (hrep k existing (hk ▸ hget)).merge hp hk
        · exact (hrep k m hm).frame hk

/-- The snapshot that a signal of a source comes with where it is first met. -/
def firstSnapshot (k id : String) (l : List (Payload J)) : Option (Dict String J) :=
  (carrier lower k id l).bind fun p => p.snapshotMap.get? id

/-- To a consumer the batches `l'` are as good as the batches `l`: the same signals in the same
order, and snapshots from `l` wherever `l` has one. -/
structure StandsFor (l' l : List (Payload J)) : Prop where
  clean : Clean l'
  same : SameGathered (l'.map (Payload.entry lower)) (l.map (Payload.entry lower))
  genuine : ∀ p' ∈ l', ∀ id s, p'.snapshotMap.get? id = some s →
    ∃ p ∈ l, sourceKey lower p = sourceKey lower p' ∧ p.snapshotMap.get? id = some s
  covers : ∀ k id, (firstSnapshot lower k id l).isSome → (firstSnapshot lower k id l').isSome

namespace StandsFor

variable {lower} {a a' b b' l l' : List (Payload J)}

lemma refl (hl : Clean l) : StandsFor lower l l :=
  ⟨hl, .refl _, fun p hp _ _ hs => ⟨p, hp, rfl, hs⟩, fun _ _ h => h⟩

lemma carrier_isSome (h : StandsFor lower l' l) (k id : String) :
    (carrier lower k id l').isSome ↔ (carrier lower k id l).isSome := by
  rw [isSome_carrier, isSome_carrier, ← List.mem_eraseDups, h.same.listed k, List.mem_eraseDups]

lemma append (ha : StandsFor lower a' a) (hb : StandsFor lower b' b) :
    StandsFor lower (a' ++ b') (a ++ b) := by
  constructor
  case clean =>
    intro p hp
    exact (List.mem_append.1 hp).elim (ha.clean p) (hb.clean p)
  case same => simpa using ha.same.append hb.same
  case genuine =>
    intro p' hp' id s hs
    rcases List.mem_append.1 hp' with hp' | hp'
    · obtain ⟨p, hp, hkey, hsnap⟩ := ha.genuine p' hp' id s hs
      exact ⟨p, List.mem_append_left _ hp, hkey, hsnap⟩
    · obtain ⟨p, hp, hkey, hsnap⟩ := hb.genuine p' hp' id s hs
      exact ⟨p, List.mem_append_right _ hp, hkey, hsnap⟩
  case covers =>
    intro k id
    have hfirst := ha.carrier_isSome k id
    have hcovers := ha.covers k id
    simp only [firstSnapshot, carrier_append] at hcovers ⊢
    cases hold : carrier lower k id a with
    | some p =>
      rw [hold] at hfirst hcovers
      obtain ⟨p', hp'⟩ := Option.isSome_iff_exists.1 (hfirst.2 rfl)
      rw [hp'] at hcovers ⊢
      exact hcovers
    | none =>
      rw [hold] at hfirst
      have hnone : carrier lower k id a' = none := by simpa using hfirst
      rw [hnone]
      exact hb.covers k id

lemma trans (h : StandsFor lower a b) (h' : StandsFor lower b l) : StandsFor lower a l := by
  refine ⟨h.clean, h.same.trans h'.same, fun p hp id s hs => ?_, fun k id hsome => ?_⟩
  · obtain ⟨q, hq, hkey, hsnap⟩ := h.genuine p hp id s hs
    obtain ⟨q', hq', hkey', hsnap'⟩ := h'.genuine q hq id s hsnap
    exact ⟨q', hq', hkey'.trans hkey, hsnap'⟩
  · exact h.covers k id (h'.covers k id hsome)

lemma merge (hl : Clean l) : StandsFor lower (mergeSameSourcePayloads lower l) l := by
  obtain ⟨hkeys, hrep⟩ := mergedBySource_spec lower hl
  have hvalue : ∀ p ∈ mergeSameSourcePayloads lower l, ∃ k, Represents lower k l p := by
    intro p hp
    obtain ⟨k, hk⟩ := Dict.mem_values.1 hp
    exact ⟨k, hrep k p hk⟩
  have hids : ∀ k id, id ∈ listed k (l.map (Payload.entry lower)) → strip id = id ∧ id ≠ "" := by
    intro k id hid
    obtain ⟨p, hp, -, hmem⟩ := (mem_listed lower).1 hid
    exact ⟨(hl p hp).stripped id hmem, (hl p hp).nonempty id hmem⟩
  have hlisted : ∀ k, listed k ((mergeSameSourcePayloads lower l).map (Payload.entry lower)) =
      (listed k (l.map (Payload.entry lower))).eraseDups := by
    intro k
    refine (listed_values (g := Payload.signalIds) (fun k m hm => (hrep k m hm).key) k).trans ?_
    cases hget : (mergedBySource lower l).get? k with
    | some m => exact (hrep k m hget).ids
    | none =>
      have hnot : k ∉ (l.map (Payload.entry lower)).map Prod.fst := by
        have hnotKey := Dict.get?_eq_none.1 hget
        rw [hkeys, List.mem_eraseDups] at hnotKey
        simpa [Payload.entry, Function.comp_def] using hnotKey
      rw [listed_eq_nil hnot]
      rfl
  constructor
  case clean =>
    intro p hp
    obtain ⟨k, hk⟩ := hvalue p hp
    refine ⟨hk.ids ▸ nodup_eraseDups _, fun id hid => ?_, fun id hid => ?_⟩
    · exact (hids k id (List.mem_eraseDups.1 (hk.ids ▸ hid))).1
    · exact (hids k id (List.mem_eraseDups.1 (hk.ids ▸ hid))).2
  case same =>
    refine ⟨?_, fun k => ?_⟩
    · have hfst : ((mergeSameSourcePayloads lower l).map (Payload.entry lower)).map Prod.fst =
          (mergedBySource lower l).keys := by
        show ((mergedBySource lower l).values.map _).map _ = _
        rw [Dict.values, Dict.keys, List.map_map, List.map_map]
        exact List.map_congr_left fun e he => (hrep e.1 e.2 (Dict.mem_entries.1 he)).key
      have hfst' : (l.map (Payload.entry lower)).map Prod.fst = l.map (sourceKey lower) := by
        simp [Payload.entry, Function.comp_def]
      rw [hfst, hfst', hkeys, eraseDups_of_nodup (nodup_eraseDups _)]
    · rw [hlisted, eraseDups_of_nodup (nodup_eraseDups _)]
  case genuine =>
    intro p hp id s hs
    obtain ⟨k, hk⟩ := hvalue p hp
    obtain ⟨q, hq, hkey, hsnap⟩ := hk.genuine id s hs
    exact ⟨q, hq, hkey.trans hk.key.symm, hsnap⟩
  case covers =>
    intro k id hsome
    obtain ⟨s, hs⟩ := Option.isSome_iff_exists.1 hsome
    obtain ⟨p, hp, hsnap⟩ := Option.bind_eq_some_iff.1 hs
    have hpkey : p ∈ l ∧ sourceKey lower p = k ∧ id ∈ p.signalIds := by
      have hfound := List.find?_some hp
      exact ⟨List.mem_of_find?_eq_some hp, by simpa using hfound⟩
    have hmem : id ∈ listed k ((mergeSameSourcePayloads lower l).map (Payload.entry lower)) := by
      rw [hlisted, List.mem_eraseDups]
      exact (mem_listed lower).2 ⟨p, hpkey⟩
    obtain ⟨m, hm⟩ := Option.isSome_iff_exists.1 ((isSome_carrier lower).2 hmem)
    have hmkey : m ∈ mergeSameSourcePayloads lower l ∧ sourceKey lower m = k := by
      have hfound := List.find?_some hm
      exact ⟨List.mem_of_find?_eq_some hm, by simpa using (of_decide_eq_true hfound).1⟩
    obtain ⟨k', hk'⟩ := hvalue m hmkey.1
    obtain rfl : k' = k := hk'.key.symm.trans hmkey.2
    rw [firstSnapshot, hm]
    exact hk'.covers p hpkey.1 hpkey.2.1 id (by rw [hsnap]; rfl)

lemma eq_nil_iff (h : StandsFor lower l' l) : l' = [] ↔ l = [] := by
  have hkeys : ∀ l : List (Payload J),
      l = [] ↔ ∀ k, k ∉ (l.map (Payload.entry lower)).map Prod.fst := by
    intro l
    constructor
    · intro hl
      simp [hl]
    · intro hl
      cases l with
      | nil => rfl
      | cons p l => exact absurd (by simp) (hl (p.entry lower).1)
  rw [hkeys, hkeys]
  exact forall_congr' fun k => not_congr (h.same.mem_keys k)

end StandsFor

/-! ## Runs -/

/-- A lane stands for its backlog, and its consumer has a batch exactly when it has woken up. -/
structure InStep (q : LaneState J) (b : Backlog J) : Prop where
  stands : StandsFor lower (q.first.toList ++ q.queue) b.batches
  clean : Clean b.batches
  woken : q.first.isSome ↔ b.woken

namespace InStep

variable {lower} {q : LaneState J} {b : Backlog J}

lemma init : InStep lower ({} : LaneState J) {} :=
  ⟨.refl fun p hp => (nomatch hp), fun p hp => (nomatch hp), by simp⟩

/-- A batch is put on the lane, behind what is there or behind what that is merged into. -/
lemma publish (h : InStep lower q b) {p : Payload J} (hp : CleanIds p.signalIds)
    {queue : List (Payload J)}
    (hqueue : queue = q.queue ∨ queue = mergeSameSourcePayloads lower q.queue) :
    InStep lower { q with queue := queue ++ [p] } { b with batches := b.batches ++ [p] } := by
  have hone : Clean [p] := fun q hq => List.mem_singleton.1 hq ▸ hp
  have hbacklog : StandsFor lower (q.first.toList ++ queue) b.batches := by
    rcases hqueue with rfl | rfl
    · exact h.stands
    · have hfirst : Clean q.first.toList := fun p hp =>
        h.stands.clean p (List.mem_append_left _ hp)
      have hrest : Clean q.queue := fun p hp => h.stands.clean p (List.mem_append_right _ hp)
      exact ((StandsFor.refl hfirst).append (.merge hrest)).trans h.stands
  constructor
  case stands =>
    show StandsFor lower (q.first.toList ++ (queue ++ [p])) _
    rw [← List.append_assoc]
    exact hbacklog.append (.refl hone)
  case clean => exact fun q hq => (List.mem_append.1 hq).elim (h.clean q) (hone q)
  case woken => exact h.woken

/-- The consumer takes the first batch. -/
lemma take (h : InStep lower q b) {p : Payload J} {rest : List (Payload J)}
    (hfirst : q.first = none) (hqueue : q.queue = p :: rest) :
    InStep lower ⟨rest, some p⟩ { b with woken := true } := by
  have hstands := h.stands
  rw [hfirst, hqueue] at hstands
  exact ⟨hstands, h.clean, by simp⟩

lemma queue_eq_nil_iff (h : InStep lower q b) (hfirst : q.first = none) :
    q.queue = [] ↔ b.batches = [] := by
  have hstands := h.stands
  rw [hfirst] at hstands
  exact hstands.eq_nil_iff

lemma batches_ne_nil (h : InStep lower q b) {p : Payload J} (hfirst : q.first = some p) :
    b.batches ≠ [] := by
  intro hnil
  have hstands := h.stands.eq_nil_iff.2 hnil
  rw [hfirst] at hstands
  cases hstands

end InStep

lemma takeFirst_of_ne (s : Queues J) {lane lane' : Lane} (h : lane' ≠ lane) :
    takeFirst lane' s lane = s lane := by
  cases hfirst : (s lane').first with
  | some p => simp [takeFirst, hfirst]
  | none =>
    cases hqueue : (s lane').queue with
    | nil => simp [takeFirst, hfirst, hqueue]
    | cons p rest => simp [takeFirst, hfirst, hqueue, Ne.symm h]

lemma drain_of_ne (s : Queues J) {lane lane' : Lane} (h : lane' ≠ lane) :
    (drain lower lane' s).1 lane = s lane := by
  cases hfirst : (s lane').first with
  | none => simp [drain, hfirst]
  | some p => simp [drain, hfirst, Ne.symm h]

/-- Each step of the lanes is a step of every backlog. -/
lemma inStep_step {s : Queues J} {lane : Lane} {b : Backlog J} (h : InStep lower (s lane) b)
    (act : Action J) : InStep lower (step lower s act lane) (b.next lower lane act) := by
  cases act with
  | publish batchId now batch =>
    cases hp : payloadOf lower batchId now batch with
    | none => simpa [step, publishSignalBatch, Backlog.next, hp] using h
    | some p =>
      by_cases hlane : p.lane = lane
      · subst hlane
        simp only [step, publishSignalBatch, Backlog.next, hp, if_true, Function.update_self]
        -- A long lane is merged before the batch goes in.
        refine h.publish (cleanIds_payloadOf lower hp) ?_
        split_ifs
        · exact .inr rfl
        · exact .inl rfl
      · have hother : lane ≠ p.lane := Ne.symm hlane
        simpa [step, publishSignalBatch, Backlog.next, hp, hlane, hother] using h
  | take lane' =>
    by_cases hlane : lane' = lane
    · subst hlane
      cases hfirst : (s lane').first with
      | some p =>
        -- The consumer has woken up already.
        have hwoken : b.woken = true := h.woken.1 (by rw [hfirst]; rfl)
        have hb : { b with woken := true } = b := by rw [← hwoken]
        simpa [step, takeFirst, Backlog.next, hfirst, h.batches_ne_nil hfirst, hb] using h
      | none =>
        cases hqueue : (s lane').queue with
        | nil =>
          have hnil := (h.queue_eq_nil_iff hfirst).1 hqueue
          simpa [step, takeFirst, Backlog.next, hfirst, hqueue, hnil] using h
        | cons p rest =>
          have hne : b.batches ≠ [] := fun hnil => by
            rw [(h.queue_eq_nil_iff hfirst).2 hnil] at hqueue
            cases hqueue
          simpa [step, takeFirst, Backlog.next, hfirst, hqueue, hne] using h.take hfirst hqueue
    · simpa [step, Backlog.next, hlane, takeFirst_of_ne s hlane] using h
  | drain lane' =>
    by_cases hlane : lane' = lane
    · subst hlane
      cases hfirst : (s lane').first with
      | some p =>
        have hwoken : b.woken = true := h.woken.1 (by rw [hfirst]; rfl)
        simpa [step, drain, Backlog.next, hfirst, hwoken] using InStep.init
      | none =>
        have hwoken : b.woken = false := by
          have hnot := h.woken
          rw [hfirst] at hnot
          simpa using hnot
        simpa [step, drain, Backlog.next, hfirst, hwoken] using h
    · simpa [step, Backlog.next, hlane, drain_of_ne lower s hlane] using h

lemma inStep_run (acts : List (Action J)) (lane : Lane) :
    InStep lower (run lower acts lane) (backlog lower lane acts) := by
  induction acts using List.reverseRecOn with
  | nil => exact .init
  | append_singleton acts act ih =>
    have hnext := inStep_step lower ih act
    rwa [run, backlog, List.foldl_append, List.foldl_append]

/-- What the consumer of a lane is given, when it has woken up -/
lemma drain_run (acts : List (Action J)) (lane : Lane) {c : Coalesced J}
    (hc : (drain lower lane (run lower acts)).2 = some c) :
    ∃ l, StandsFor lower l (backlog lower lane acts).batches ∧
      c.sourceSignalIds = (united lower l).sourceSignalIds ∧
      c.sourceSignalSnapshots = (united lower l).sourceSignalSnapshots := by
  have hstands := (inStep_run lower acts lane).stands
  unfold drain at hc
  split at hc
  · cases hc
  · next p hfirst =>
    rw [hfirst] at hstands
    refine ⟨_, hstands, ?_⟩
    obtain rfl := Option.some.inj hc
    exact ⟨rfl, rfl⟩

lemma sourceSignalIds_drain (acts : List (Action J)) (lane : Lane) {c : Coalesced J}
    (hc : (drain lower lane (run lower acts)).2 = some c) :
    c.sourceSignalIds = gather ((backlog lower lane acts).batches.map (Payload.entry lower)) := by
  obtain ⟨l, hstands, hids, -⟩ := drain_run lower acts lane hc
  rw [hids, united_sourceSignalIds lower hstands.clean, hstands.same.gather_eq]

/-- In every run, what the consumer of a lane is given are, source by source, exactly the signals
that were published to the lane since it was drained last, each of them once and in the order of
their first publication, whether the lane was merged in between or not; and a lane whose consumer
waits is empty only if nothing was published. -/
theorem wait_delivers (acts : List (Action J)) (lane : Lane) :
    let b := backlog lower lane acts
    ((run lower acts lane).first = none → ((run lower acts lane).queue = [] ↔ b.batches = [])) ∧
      ((drain lower lane (run lower acts)).2.isSome ↔ b.woken) ∧
      ∀ c, (drain lower lane (run lower acts)).2 = some c →
        c.sourceSignalIds.keys = (b.batches.map (sourceKey lower)).eraseDups ∧
        ∀ k ∈ c.sourceSignalIds.keys, c.sourceSignalIds.get? k =
          some ((b.batches.filter (sourceKey lower · = k)).flatMap Payload.signalIds).eraseDups := by
  have hrun := inStep_run lower acts lane
  refine ⟨hrun.queue_eq_nil_iff, ?_, fun c hc => ?_⟩
  · rw [← hrun.woken]
    cases hfirst : (run lower acts lane).first with
    | none => simp [drain, hfirst]
    | some p => simp [drain, hfirst, coalesceBatches]
  · have hids := sourceSignalIds_drain lower acts lane hc
    have hkeys : c.sourceSignalIds.keys =
        ((backlog lower lane acts).batches.map (sourceKey lower)).eraseDups := by
      rw [hids, keys_gather, List.map_map]
      rfl
    refine ⟨hkeys, fun k hk => ?_⟩
    have hmem : k ∈ (((backlog lower lane acts).batches).map (Payload.entry lower)).map Prod.fst := by
      rw [hids, keys_gather] at hk
      exact List.mem_eraseDups.1 hk
    rw [hids, get?_gather, if_pos hmem, listed, List.filter_map, List.flatMap_map]
    rfl

/-- In every run, the snapshot that a signal is given with was published for it since the lane was
drained last, and a signal whose first publication had a snapshot is given one. -/
theorem wait_snapshots (acts : List (Action J)) (lane : Lane) (c : Coalesced J)
    (hc : (drain lower lane (run lower acts)).2 = some c) (k id : String) :
    (∀ s, (c.sourceSignalSnapshots.getD k .empty).get? id = some s →
      ∃ p ∈ (backlog lower lane acts).batches,
        sourceKey lower p = k ∧ p.snapshotMap.get? id = some s) ∧
      ((firstSnapshot lower k id (backlog lower lane acts).batches).isSome →
        ((c.sourceSignalSnapshots.getD k .empty).get? id).isSome) := by
  obtain ⟨l, hstands, -, hsnaps⟩ := drain_run lower acts lane hc
  rw [hsnaps, united_snapshot lower hstands.clean]
  refine ⟨fun s hs => ?_, hstands.covers k id⟩
  obtain ⟨p, hp, hsnap⟩ := Option.bind_eq_some_iff.1 hs
  have hkey := List.find?_some hp
  obtain ⟨q, hq, hsame, hfrom⟩ := hstands.genuine p (List.mem_of_find?_eq_some hp) id s hsnap
  exact ⟨q, hq, hsame.trans (of_decide_eq_true hkey).1, hfrom⟩

/-- A batch of one signal with a snapshot, which the consumer of its lane has taken. -/
def newsActions : List (Action ℕ) :=
  [.publish "b1" "12:00" {
      eventType := "reverse_entry"
      source := some "News"
      signalIds := [" s1"]
      trigger := "exit"
      signalSnapshots := some (Dict.empty.set "s1" (Dict.empty.set "price" 7)) },
    .take .general]

theorem wait_snapshots_news :
    ((((drain String.toLower .general (run String.toLower newsActions)).2.get
      (by decide +kernel)).sourceSignalSnapshots.getD "news" .empty).get? "s1").isSome :=
  (wait_snapshots String.toLower newsActions .general _ (Option.some_get _).symm "news" "s1").2
    (by decide +kernel)

/-! ## The length of a lane -/

/-- The sources of some batches, each once. -/
def sources (l : List (Payload J)) : List String := (l.map (sourceKey lower)).eraseDups

lemma length_eraseDups_le {xs ys : List String} (h : ∀ x ∈ xs, x ∈ ys) :
    xs.eraseDups.length ≤ ys.eraseDups.length := by
  refine (List.subperm_of_subset (nodup_eraseDups xs) fun x hx => ?_).length_le
  exact List.mem_eraseDups.2 (h x (List.mem_eraseDups.1 hx))

lemma length_mergeSameSourcePayloads {l : List (Payload J)} (hl : Clean l) :
    (mergeSameSourcePayloads lower l).length = (sources lower l).length := by
  rw [sources, ← (mergedBySource_spec lower hl).1]
  simp [mergeSameSourcePayloads, Dict.values, Dict.keys]

lemma sources_length_mono (l l' : List (Payload J)) :
    (sources lower l).length ≤ (sources lower (l ++ l')).length := by
  refine length_eraseDups_le fun k hk => ?_
  rw [List.map_append]
  exact List.mem_append_left _ hk

/-- A lane that is merged keeps one batch for each source of its backlog at most. -/
lemma InStep.length_merge_le {lower : String → String} {q : LaneState J} {b : Backlog J}
    (h : InStep lower q b) :
    (mergeSameSourcePayloads lower q.queue).length ≤ (sources lower b.batches).length := by
  have hclean : Clean q.queue := fun p hp => h.stands.clean p (List.mem_append_right _ hp)
  rw [length_mergeSameSourcePayloads lower hclean]
  refine length_eraseDups_le fun k hk => ?_
  obtain ⟨p, hp, rfl⟩ := List.mem_map.1 hk
  have hmem : sourceKey lower p ∈ ((q.first.toList ++ q.queue).map (Payload.entry lower)).map
      Prod.fst :=
    List.mem_map.2 ⟨p.entry lower, List.mem_map_of_mem (List.mem_append_right _ hp), rfl⟩
  have hbacklog := (h.stands.same.mem_keys _).1 hmem
  rwa [List.map_map] at hbacklog

/-- The bound on a lane, given its backlog -/
def Short (q : LaneState J) (b : Backlog J) : Prop :=
  q.queue.length ≤ max queueCompactThreshold ((sources lower b.batches).length + 1)

lemma short_step {s : Queues J} {lane : Lane} {b : Backlog J} (h : InStep lower (s lane) b)
    (hshort : Short lower (s lane) b) (act : Action J) :
    Short lower (step lower s act lane) (b.next lower lane act) := by
  have hnext := inStep_step lower h act
  cases act with
  | publish batchId now batch =>
    cases hp : payloadOf lower batchId now batch with
    | none => simpa [step, publishSignalBatch, Backlog.next, hp] using hshort
    | some p =>
      by_cases hlane : p.lane = lane
      · subst hlane
        have hmono := sources_length_mono lower b.batches [p]
        have hmerge := h.length_merge_le
        simp only [Short, step, publishSignalBatch, Backlog.next, hp, if_true,
          Function.update_self, List.length_append, List.length_singleton]
        split_ifs <;> omega
      · have hother : lane ≠ p.lane := Ne.symm hlane
        simpa [step, publishSignalBatch, Backlog.next, hp, hlane, hother] using hshort
  | take lane' =>
    have hbatches : (b.next lower lane (.take lane')).batches = b.batches := by
      simp only [Backlog.next]
      split_ifs <;> rfl
    have hlength : (takeFirst lane' s lane).queue.length ≤ (s lane).queue.length := by
      by_cases hlane : lane' = lane
      · subst hlane
        cases hfirst : (s lane').first with
        | some p => simp [takeFirst, hfirst]
        | none => cases hqueue : (s lane').queue <;> simp [takeFirst, hfirst, hqueue]
      · rw [takeFirst_of_ne s hlane]
    rw [Short, hbatches]
    exact hlength.trans hshort
  | drain lane' =>
    by_cases hlane : lane' = lane
    · subst hlane
      cases hfirst : (s lane').first with
      | some p => simp [Short, step, drain, hfirst]
      | none =>
        have hwoken : b.woken = false := by simpa [hfirst] using h.woken.symm
        simpa [step, drain, Backlog.next, hfirst, hwoken] using hshort
    · simpa [step, Backlog.next, hlane, drain_of_ne lower s hlane] using hshort

lemma short_run (acts : List (Action J)) (lane : Lane) :
    Short lower (run lower acts lane) (backlog lower lane acts) := by
  induction acts using List.reverseRecOn with
  | nil => simp [Short, run]
  | append_singleton acts act ih =>
    have hnext := short_step lower (inStep_run lower acts lane) ih act
    rwa [run, backlog, List.foldl_append, List.foldl_append]

/-- The batches of the crypto lane are all of one source. -/
lemma source_of_mem_backlog {acts : List (Action J)} :
    ∀ p ∈ (backlog lower .crypto acts).batches, p.source = "crypto" := by
  induction acts using List.reverseRecOn with
  | nil => exact fun p hp => (nomatch hp)
  | append_singleton acts act ih =>
    have hsnoc : backlog lower .crypto (acts ++ [act]) =
        (backlog lower .crypto acts).next lower .crypto act := by
      simp [backlog]
    rw [hsnoc]
    cases act with
    | publish batchId now batch =>
      cases hp : payloadOf lower batchId now batch with
      | none => simpa [Backlog.next, hp] using ih
      | some p =>
        simp only [Backlog.next, hp]
        split_ifs with hlane
        · have hsource : p.source = "crypto" := by
            simp only [payloadOf] at hp
            split_ifs at hp
            obtain rfl := Option.some.inj hp
            simpa [defaultLaneForSource] using hlane
          intro q hq
          rcases List.mem_append.1 hq with hq | hq
          · exact ih q hq
          · exact List.mem_singleton.1 hq ▸ hsource
        · exact ih
    | take lane' =>
      simp only [Backlog.next]
      split_ifs <;> exact ih
    | drain lane' =>
      simp only [Backlog.next]
      split_ifs
      · exact fun p hp => (nomatch hp)
      · exact ih

/-- In every run a lane holds at most as many batches as make it merge, or one more than there are
sources in its backlog; the crypto lane never holds more than make it merge. -/
theorem queueDepth_le (acts : List (Action J)) :
    (∀ lane, getQueueDepth lane (run lower acts) ≤
      max queueCompactThreshold ((sources lower (backlog lower lane acts).batches).length + 1)) ∧
      getQueueDepth .crypto (run lower acts) ≤ queueCompactThreshold := by
  refine ⟨short_run lower acts, (short_run lower acts .crypto).trans ?_⟩
  have hone : (sources lower (backlog lower .crypto acts).batches).length ≤ 1 := by
    have hkeys : ∀ k ∈ (backlog lower .crypto acts).batches.map (sourceKey lower),
        k ∈ [if normalizeSource lower "crypto" = "" then "__all__"
          else normalizeSource lower "crypto"] := by
      intro k hk
      obtain ⟨p, hp, rfl⟩ := List.mem_map.1 hk
      simp [sourceKey, source_of_mem_backlog lower p hp]
    exact (length_eraseDups_le hkeys).trans (by simp [List.eraseDups_cons])
  have hthreshold : (2 : ℕ) ≤ queueCompactThreshold := by decide
  omega

end Lanes

end Evosport.Orchestrator.SignalQueue
