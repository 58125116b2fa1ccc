/-
The bridge that carries signals of other processes into this one
(`services/signal_bus_redis_bridge.py`).

Every emission of a signal is broadcast, and comes back to the process that emitted it.  The bridge
stamps the signals that were emitted here, and those that it has carried, and drops what was stamped
a moment ago: the echo, but not a later emission of the same signal.  The stamps are swept when
there are many of them.  `forwarded_iff` says what is carried in terms of everything that happened,
`seenAt_length_le` that the memory is bounded by what happened a moment ago, and
`forwarded_delivered` follows a signal through the lanes to the consumer.

The readings of the clock, the ids of the batches and the times of their publication come with the
events.  Texts that are missing are empty.
-/
import Evosport.Lib.Expiring
import Evosport.Orchestrator.SignalQueue
import Mathlib.Algebra.Order.Field.Rat

namespace Evosport.Orchestrator.SignalBridge

open Lib SignalQueue

/-- `_DEDUP_WINDOW_SIZE` -/
def dedupWindowSize : ℕ := 2048

/-- `_DEDUP_TTL_SECONDS` -/
def dedupTtlSeconds : ℚ := 1 / 10

/-! ## The stamps -/

/-- `_evict_locked` -/
def evict (now : ℚ) (seenAt : Dict String ℚ) : Dict String ℚ :=
  if seenAt.entries.length ≤ dedupWindowSize then seenAt
  else seenAt.keep fun ts => decide (now - dedupTtlSeconds ≤ ts)

/-- `_SignalDedup.add` -/
def add (now : ℚ) (signalId : String) (seenAt : Dict String ℚ) : Dict String ℚ :=
  if signalId = "" then seenAt else evict now (seenAt.set signalId now)

/-- `_SignalDedup.add_if_unseen` -/
def addIfUnseen (now : ℚ) (signalId : String) (seenAt : Dict String ℚ) : Dict String ℚ × Bool :=
  if signalId = "" then (seenAt, false)
  else if isFresh dedupTtlSeconds now seenAt signalId then (seenAt, false)
  else (evict now (seenAt.set signalId now), true)

/-- The body of the loop of `filter_unseen_and_add` -/
def filterStep (now : ℚ) : Dict String ℚ × List String → String → Dict String ℚ × List String
  | (seenAt, unseen), raw =>
    let signalId := strip raw
    if signalId = "" ∨ signalId ∈ unseen then (seenAt, unseen)
    else if isFresh dedupTtlSeconds now seenAt signalId then (seenAt, unseen)
    else (seenAt.set signalId now, unseen ++ [signalId])

/-- `_SignalDedup.filter_unseen_and_add` -/
def filterUnseenAndAdd (now : ℚ) (signalIds : List String) (seenAt : Dict String ℚ) :
    Dict String ℚ × List String :=
  if signalIds = [] then (seenAt, [])
  else
    let (seenAt, unseen) := signalIds.foldl (filterStep now) (seenAt, [])
    (evict now seenAt, unseen)

/-! ## The messages -/

/-- A message on the channel of single emissions -/
structure Emission where
  signalId : String
  eventType : String := ""
  source : Option String := none
  trigger : String := ""
  reason : Option String := none
  updatedAt : Option String := none
deriving DecidableEq, Repr

/-- A message on the channel of batches -/
structure BatchMessage (J : Type*) where
  signalIds : List String
  signalCount : ℕ := 0
  eventType : String := ""
  source : Option String := none
  trigger : String := ""
  reason : Option String := none
  emittedAt : Option String := none
  signalSnapshots : Option (Dict String (Dict String J)) := none

section Bridge

variable {J : Type*}

/-- The snapshots of the signals that are carried on -/
def restrict (unseen : List String) (raw : Dict String (Dict String J)) :
    Dict String (Dict String J) :=
  unseen.foldl (fun m signalId =>
    match raw.get? signalId with
    | some snapshot => m.set signalId snapshot
    | none => m) .empty

/-- `_bridge_emission`, up to what is published -/
def bridgeEmission (now : ℚ) (payload : Emission) (seenAt : Dict String ℚ) :
    Dict String ℚ × Option Emission :=
  let signalId := strip payload.signalId
  if signalId = "" then (seenAt, some payload)
  else match addIfUnseen now signalId seenAt with
    | (seenAt, true) => (seenAt, some payload)
    | (seenAt, false) => (seenAt, none)

/-- `_bridge_batch`, up to what is published -/
def bridgeBatch (now : ℚ) (payload : BatchMessage J) (seenAt : Dict String ℚ) :
    Dict String ℚ × Option (BatchMessage J) :=
  let signalIds := payload.signalIds.filter (· ≠ "")
  if signalIds = [] then (seenAt, some payload)
  else
    let (seenAt, unseen) := filterUnseenAndAdd now signalIds seenAt
    if unseen = [] then (seenAt, none)
    else (seenAt, some { payload with
      signalSnapshots := payload.signalSnapshots.map (restrict unseen)
      signalIds := unseen
      signalCount := unseen.length })

/-- What `_wake_runtime_queue` puts on a lane -/
def wakeRuntimeQueue (batch : Batch J) : Option (Batch J) :=
  let ids := batch.signalIds.filter (· ≠ "")
  if ids = [] then none
  else some { batch with
    signalIds := ids
    trigger := if batch.trigger = "" then "signal_bus" else batch.trigger }

/-- The arguments that `_bridge_emission` calls it with -/
def Emission.toBatch (payload : Emission) : Batch J where
  eventType := payload.eventType
  source := payload.source
  signalIds := if strip payload.signalId = "" then [] else [strip payload.signalId]
  trigger := payload.trigger
  reason := payload.reason
  emittedAt := payload.updatedAt

/-- The arguments that `_bridge_batch` calls it with -/
def BatchMessage.toBatch (payload : BatchMessage J) : Batch J where
  eventType := payload.eventType
  source := payload.source
  signalIds := payload.signalIds
  trigger := payload.trigger
  reason := payload.reason
  emittedAt := payload.emittedAt
  signalSnapshots := payload.signalSnapshots

/-! ## Runs -/

/-- The stamps of the ids that were seen, the counters of the bridge, and the lanes that it wakes -/
structure Bridge (J : Type*) where
  seenAt : Dict String ℚ := .empty
  messagesBridged : ℕ := 0
  messagesSkippedDup : ℕ := 0
  queues : Queues J := fun _ => {}

/-- What happens: a signal is marked as emitted here, a message arrives, or something is done with
the lanes. -/
inductive Event (J : Type*) where
  | mark (now : ℚ) (signalId : String)
  | emission (now : ℚ) (batchId emittedAt : String) (payload : Emission)
  | batch (now : ℚ) (batchId emittedAt : String) (payload : BatchMessage J)
  | lanes (act : Action J)

/-- The stamps after an event -/
def stamp (seenAt : Dict String ℚ) : Event J → Dict String ℚ
  | .mark now signalId => add now signalId seenAt
  | .emission now _ _ payload => (bridgeEmission now payload seenAt).1
  | .batch now _ _ payload => (bridgeBatch now payload seenAt).1
  | .lanes _ => seenAt

/-- What is carried on of a message, when it is not dropped -/
def carried (seenAt : Dict String ℚ) : Event J → Option (Batch J)
  | .emission now _ _ payload => (bridgeEmission now payload seenAt).2.map Emission.toBatch
  | .batch now _ _ payload => (bridgeBatch now payload seenAt).2.map BatchMessage.toBatch
  | _ => none

/-- Whether an event is a message -/
def Event.isMessage : Event J → Bool
  | .emission .. | .batch .. => true
  | _ => false

/-- What a lane is woken with -/
def woken (seenAt : Dict String ℚ) (event : Event J) : Option (Batch J) :=
  (carried seenAt event).bind wakeRuntimeQueue

/-- What the lanes are asked to do -/
def actions (seenAt : Dict String ℚ) (event : Event J) : List (Action J) :=
  match event with
  | .lanes act => [act]
  | .emission _ batchId emittedAt _ | .batch _ batchId emittedAt _ =>
    (woken seenAt event).toList.map (.publish batchId emittedAt)
  | .mark _ _ => []

variable (lower : String → String)

/-- One event of the bridge: the ids of what it carries are stamped, and what is carried is put into
the queues. -/
def step (s : Bridge J) (event : Event J) : Bridge J where
  seenAt := stamp s.seenAt event
  messagesBridged := s.messagesBridged + if (carried s.seenAt event).isSome then 1 else 0
  messagesSkippedDup := s.messagesSkippedDup +
    if event.isMessage ∧ (carried s.seenAt event).isNone then 1 else 0
  queues := (actions s.seenAt event).foldl (SignalQueue.step lower) s.queues

/-- The bridge after these events. -/
def run (events : List (Event J)) : Bridge J := events.foldl (step lower) {}

/-! ## What was stamped -/

/-- The reading of the clock, for an event that reads it -/
def Event.reading : Event J → Option ℚ
  | .mark now signalId => if signalId = "" then none else some now
  | .emission now _ _ payload => if strip payload.signalId = "" then none else some now
  | .batch now _ _ payload => if payload.signalIds.filter (· ≠ "") = [] then none else some now
  | .lanes _ => none

/-- The signals that a message is about -/
def Event.emitted : Event J → List String
  | .emission _ _ _ payload => [strip payload.signalId].filter (· ≠ "")
  | .batch _ _ _ payload => (payload.signalIds.map strip).filter (· ≠ "")
  | _ => []

/-- The signals of a message that are carried on -/
def forwarded (seenAt : Dict String ℚ) (event : Event J) : List String :=
  ((woken seenAt event).map Batch.signalIds).getD []

/-- The stamps that an event makes: of the signal that is marked, or of those that are carried on -/
def stamps (seenAt : Dict String ℚ) (event : Event J) : List (String × ℚ) :=
  match event with
  | .mark now signalId => if signalId = "" then [] else [(signalId, now)]
  | .emission now _ _ _ | .batch now _ _ _ => (forwarded seenAt event).map fun id => (id, now)
  | .lanes _ => []

/-- What the events of a run leave behind -/
def trail {β : Type*} (f : Dict String ℚ → Event J → List β) (events : List (Event J)) : List β :=
  (events.foldl (fun (b : Bridge J × List β) event =>
    (step lower b.1 event, b.2 ++ f b.1.seenAt event)) ({}, [])).2

/-- All the stamps that were ever made -/
def history (events : List (Event J)) : List (String × ℚ) := trail lower stamps events

lemma trail_snoc {β : Type*} (f : Dict String ℚ → Event J → List β) (events : List (Event J))
    (event : Event J) :
    trail lower f (events ++ [event]) =
      trail lower f events ++ f (run lower events).seenAt event := by
  have hstate : ∀ (events : List (Event J)) (s : Bridge J) (l : List β),
      (events.foldl (fun (b : Bridge J × List β) event =>
        (step lower b.1 event, b.2 ++ f b.1.seenAt event)) (s, l)).1 =
          events.foldl (step lower) s := by
    intro events
    induction events with
    | nil => intro s l; rfl
    | cons event events ih => intro s l; exact ih _ _
  rw [trail, List.foldl_append, List.foldl_cons, List.foldl_nil, hstate]
  rfl

lemma run_snoc (events : List (Event J)) (event : Event J) :
    run lower (events ++ [event]) = step lower (run lower events) event := by
  rw [run, List.foldl_append]
  rfl

/-! ## The memory -/

variable {now : ℚ} {log : List (String × ℚ)} {seenAt : Dict String ℚ}

lemma remembers_evict (h : Remembers dedupTtlSeconds log now seenAt) :
    Remembers dedupTtlSeconds log now (evict now seenAt) := by
  unfold evict
  split_ifs
  · exact h
  · exact h.sweep

/-- What the loop over a batch carries on, and the stamps it leaves -/
lemma foldl_filterStep (h : Remembers dedupTtlSeconds log now seenAt) (raws : List String) :
    Remembers dedupTtlSeconds
        (log ++ (raws.foldl (filterStep now) (seenAt, [])).2.map fun id => (id, now)) now
        (raws.foldl (filterStep now) (seenAt, [])).1 ∧
      CleanIds (raws.foldl (filterStep now) (seenAt, [])).2 ∧
      ∀ id, id ∈ (raws.foldl (filterStep now) (seenAt, [])).2 ↔
        id ∈ (raws.map strip).filter (· ≠ "") ∧ ∀ t, (id, t) ∈ log → dedupTtlSeconds ≤ now - t := by
  induction raws using List.reverseRecOn with
  | nil => exact ⟨by simpa using h, .nil, fun id => by simp⟩
  | append_singleton raws raw ih =>
    obtain ⟨hmem, hclean, hids⟩ := ih
    rw [List.foldl_append, List.foldl_cons, List.foldl_nil]
    set m := (raws.foldl (filterStep now) (seenAt, [])).1
    set unseen := (raws.foldl (filterStep now) (seenAt, [])).2
    have hpair : raws.foldl (filterStep now) (seenAt, []) = (m, unseen) := rfl
    have hsnoc : ∀ id, id ∈ ((raws ++ [raw]).map strip).filter (· ≠ "") ↔
        id ∈ (raws.map strip).filter (· ≠ "") ∨ id = strip raw ∧ strip raw ≠ "" := by
      intro id
      rw [List.map_append, List.filter_append, List.mem_append]
      simp only [List.map_cons, List.map_nil, List.mem_filter, List.mem_singleton,
        decide_eq_true_eq]
      exact or_congr_right ⟨fun ⟨h, hne⟩ => ⟨h, h ▸ hne⟩, fun ⟨h, hne⟩ => ⟨h, h ▸ hne⟩⟩
    rw [hpair]
    by_cases hskip : strip raw = "" ∨ strip raw ∈ unseen
    · -- The signal is there already, or there is none.
      have hstep : filterStep now (m, unseen) raw = (m, unseen) := by simp [filterStep, hskip]
      rw [hstep]
      refine ⟨hmem, hclean, fun id => ?_⟩
      rw [hsnoc, hids]
      constructor
      · exact fun h => ⟨.inl h.1, h.2⟩
      · rintro ⟨hid | ⟨rfl, hne⟩, hold⟩
        · exact ⟨hid, hold⟩
        · rcases hskip with hempty | hthere
          · exact absurd hempty hne
          · exact (hids _).1 hthere
    · obtain ⟨hne, hnew⟩ := not_or.1 hskip
      cases hfresh : isFresh dedupTtlSeconds now m (strip raw) with
      | true =>
        have hstep : filterStep now (m, unseen) raw = (m, unseen) := by
          simp [filterStep, hskip, hfresh]
        rw [hstep]
        refine ⟨hmem, hclean, fun id => ?_⟩
        rw [hsnoc, hids]
        constructor
        · exact fun h => ⟨.inl h.1, h.2⟩
        · rintro ⟨hid | ⟨rfl, -⟩, hold⟩
          · exact ⟨hid, hold⟩
          · -- It is not the loop that has stamped the signal.
            obtain ⟨t, ht, hspan⟩ := (hmem.isFresh_iff _).1 hfresh
            rcases List.mem_append.1 ht with ht | ht
            · exact absurd hspan (not_lt.2 (hold t ht))
            · obtain ⟨id, hid, heq⟩ := List.mem_map.1 ht
              exact absurd ((Prod.mk.inj heq).1 ▸ hid) hnew
      | false =>
        have hstep : filterStep now (m, unseen) raw =
            (m.set (strip raw) now, unseen ++ [strip raw]) := by
          simp [filterStep, hskip, hfresh]
        rw [hstep]
        refine ⟨?_, hclean.snoc hne hnew, fun id => ?_⟩
        · rw [List.map_append, ← List.append_assoc]
          exact hmem.touch (strip raw)
        · rw [hsnoc, List.mem_append, List.mem_singleton, hids]
          have hold := (hmem.isFresh_eq_false _).1 hfresh
          constructor
          · rintro (⟨hid, hlog⟩ | rfl)
            · exact ⟨.inl hid, hlog⟩
            · exact ⟨.inr ⟨rfl, hne⟩, fun t ht => hold t (List.mem_append_left _ ht)⟩
          · rintro ⟨hid | ⟨rfl, -⟩, hlog⟩
            · exact .inl ⟨hid, hlog⟩
            · exact .inr rfl

/-- An event that does not read the clock stamps nothing. -/
lemma stamp_of_reading (seenAt : Dict String ℚ) {event : Event J} (h : event.reading = none) :
    stamp seenAt event = seenAt ∧ stamps seenAt event = [] := by
  cases event with
  | mark now signalId =>
    have hempty : signalId = "" := by simpa [Event.reading] using h
    simp [stamp, stamps, add, hempty]
  | emission now batchId emittedAt payload =>
    have hempty : strip payload.signalId = "" := by simpa [Event.reading] using h
    simp [stamp, stamps, forwarded, woken, carried, bridgeEmission, Emission.toBatch,
      wakeRuntimeQueue, hempty]
  | batch now batchId emittedAt payload =>
    have hempty : payload.signalIds.filter (· ≠ "") = [] := by
      by_contra hne
      rw [Event.reading, if_neg hne] at h
      cases h
    constructor
    · simp only [stamp, bridgeBatch, if_pos hempty]
    · simp only [stamps, forwarded, woken, carried, bridgeBatch, if_pos hempty, Option.map_some,
        Option.bind_some, wakeRuntimeQueue, BatchMessage.toBatch]
      rfl
  | lanes act => exact ⟨rfl, rfl⟩

lemma mem_emitted_batch {raws : List String} {id : String} :
    id ∈ ((raws.filter (· ≠ "")).map strip).filter (· ≠ "") ↔
      id ∈ (raws.map strip).filter (· ≠ "") := by
  simp only [List.mem_filter, List.mem_map, decide_eq_true_eq]
  constructor
  · rintro ⟨⟨raw, ⟨hraw, -⟩, rfl⟩, hne⟩
    exact ⟨⟨raw, hraw, rfl⟩, hne⟩
  · rintro ⟨⟨raw, hraw, rfl⟩, hne⟩
    refine ⟨⟨raw, ⟨hraw, fun hempty => hne ?_⟩, rfl⟩, hne⟩
    rw [hempty]
    rfl

/-- What a message carries on: the signals that were not stamped a moment ago, each of them once -/
lemma forwarded_spec (h : Remembers dedupTtlSeconds log now seenAt) {event : Event J}
    (hreading : event.reading = some now) :
    CleanIds (forwarded seenAt event) ∧
      (∀ id, id ∈ forwarded seenAt event ↔
        id ∈ event.emitted ∧ ∀ t, (id, t) ∈ log → dedupTtlSeconds ≤ now - t) ∧
      Remembers dedupTtlSeconds (log ++ stamps seenAt event) now (stamp seenAt event) := by
  cases event with
  | mark now' signalId =>
    by_cases hempty : signalId = ""
    · simp [Event.reading, hempty] at hreading
    · obtain rfl : now' = now := by simpa [Event.reading, hempty] using hreading
      refine ⟨.nil, fun id => ?_, ?_⟩
      · simp [forwarded, woken, carried, Event.emitted]
      · simp only [stamps, stamp, add, if_neg hempty]
        exact remembers_evict (h.touch signalId)
  | emission now' batchId emittedAt payload =>
    by_cases hempty : strip payload.signalId = ""
    · simp [Event.reading, hempty] at hreading
    · obtain rfl : now' = now := by simpa [Event.reading, hempty] using hreading
      have hold := h.isFresh_eq_false (strip payload.signalId)
      cases hfresh : isFresh dedupTtlSeconds now' seenAt (strip payload.signalId) with
      | true =>
        have hnone :
            forwarded seenAt (.emission now' batchId emittedAt payload : Event J) = [] := by
          simp [forwarded, woken, carried, bridgeEmission, addIfUnseen, hempty, hfresh]
        have hstamp :
            stamp seenAt (.emission now' batchId emittedAt payload : Event J) = seenAt := by
          simp [stamp, bridgeEmission, addIfUnseen, hempty, hfresh]
        rw [hfresh] at hold
        refine ⟨hnone ▸ .nil, fun id => ?_, ?_⟩
        · rw [hnone]
          simp only [List.not_mem_nil, Event.emitted, List.mem_filter, List.mem_singleton,
            false_iff, not_and]
          rintro ⟨rfl, -⟩ hlog
          exact absurd (hold.2 hlog) (by simp)
        · rw [hstamp, stamps, hnone, List.map_nil, List.append_nil]
          exact h
      | false =>
        have hone : forwarded seenAt (.emission now' batchId emittedAt payload : Event J) =
            [strip payload.signalId] := by
          simp [forwarded, woken, carried, bridgeEmission, addIfUnseen, hempty, hfresh,
            Emission.toBatch, wakeRuntimeQueue]
        have hstamp : stamp seenAt (.emission now' batchId emittedAt payload : Event J) =
            evict now' (seenAt.set (strip payload.signalId) now') := by
          simp [stamp, bridgeEmission, addIfUnseen, hempty, hfresh]
        rw [hfresh] at hold
        refine ⟨?_, fun id => ?_, ?_⟩
        · rw [hone]
          exact CleanIds.nil.snoc hempty List.not_mem_nil
        · rw [hone]
          simp only [List.mem_singleton, Event.emitted, List.mem_filter, decide_eq_true_eq]
          constructor
          · rintro rfl
            exact ⟨⟨rfl, hempty⟩, hold.1 rfl⟩
          · exact fun hid => hid.1.1
        · rw [hstamp, stamps, hone]
          exact remembers_evict (h.touch (strip payload.signalId))
  | batch now' batchId emittedAt payload =>
    by_cases hempty : payload.signalIds.filter (· ≠ "") = []
    · rw [Event.reading, if_pos hempty] at hreading
      cases hreading
    · obtain rfl : now' = now := by
        rw [Event.reading, if_neg hempty] at hreading
        exact Option.some.inj hreading
      obtain ⟨hloop, hclean, hids⟩ := foldl_filterStep h (payload.signalIds.filter (· ≠ ""))
      set unseen := ((payload.signalIds.filter (· ≠ "")).foldl (filterStep now') (seenAt, [])).2
        with hunseen
      have hbridge : bridgeBatch now' payload seenAt = (evict now'
          ((payload.signalIds.filter (· ≠ "")).foldl (filterStep now') (seenAt, [])).1,
          if unseen = [] then none else some { payload with
            signalSnapshots := payload.signalSnapshots.map (restrict unseen)
            signalIds := unseen
            signalCount := unseen.length }) := by
        simp only [bridgeBatch, if_neg hempty, filterUnseenAndAdd, hunseen]
        split_ifs <;> rfl
      have hforwarded : forwarded seenAt (.batch now' batchId emittedAt payload) = unseen := by
        by_cases hnone : unseen = []
        · simp [forwarded, woken, carried, hbridge, hnone]
        · have hall : unseen.filter (· ≠ "") = unseen :=
            List.filter_eq_self.2 fun id hid => by simpa using hclean.nonempty id hid
          simp only [forwarded, woken, carried, hbridge, if_neg hnone, Option.map_some,
            Option.bind_some, BatchMessage.toBatch, wakeRuntimeQueue, hall, Option.getD_some]
      have hstamp : stamp seenAt (.batch now' batchId emittedAt payload) = evict now'
          ((payload.signalIds.filter (· ≠ "")).foldl (filterStep now') (seenAt, [])).1 := by
        rw [stamp, hbridge]
      refine ⟨hforwarded ▸ hclean, fun id => ?_, ?_⟩
      · rw [hforwarded, hids, mem_emitted_batch]
        rfl
      · rw [hstamp, stamps, hforwarded]
        exact remembers_evict hloop
  | lanes act => cases hreading

/-- The clock does not run backwards. -/
def InOrder (events : List (Event J)) : Prop :=
  (events.filterMap Event.reading).Pairwise (· ≤ ·)

instance (events : List (Event J)) : Decidable (InOrder events) :=
  inferInstanceAs (Decidable (List.Pairwise _ _))

lemma InOrder.left {events events' : List (Event J)} (h : InOrder (events ++ events')) :
    InOrder events := by
  rw [InOrder, List.filterMap_append] at h
  exact (List.pairwise_append.1 h).1

lemma InOrder.le_of_snoc {events : List (Event J)} {event : Event J}
    (h : InOrder (events ++ [event])) (hreading : event.reading = some now) :
    ∀ r ∈ events.filterMap Event.reading, r ≤ now := by
  rw [InOrder, List.filterMap_append] at h
  intro r hr
  exact (List.pairwise_append.1 h).2.2 r hr now (by simp [hreading])

/-- At any time after the last reading of the clock, the memory stands for the whole history. -/
lemma remembers_run {events : List (Event J)} (h : InOrder events)
    (hnow : ∀ r ∈ events.filterMap Event.reading, r ≤ now) :
    Remembers dedupTtlSeconds (history lower events) now (run lower events).seenAt := by
  induction events using List.reverseRecOn generalizing now with
  | nil => exact .init _ _
  | append_singleton events event ih =>
    rw [history, trail_snoc, run_snoc]
    show Remembers _ _ _ (stamp (run lower events).seenAt event)
    cases hreading : event.reading with
    | none =>
      obtain ⟨hsame, hnil⟩ := stamp_of_reading (run lower events).seenAt hreading
      rw [hsame, hnil, List.append_nil]
      refine ih h.left fun r hr => hnow r ?_
      rw [List.filterMap_append]
      exact List.mem_append_left _ hr
    | some t =>
      have hbefore := ih h.left (h.le_of_snoc hreading)
      refine (forwarded_spec hbefore hreading).2.2.later (hnow t ?_)
      rw [List.filterMap_append]
      exact List.mem_append_right _ (by simp [hreading])

/-- In every run in which the clock does not run backwards, a message carries on exactly those of
its signals that were neither marked as emitted here nor carried on within the span before:
however many stamps were swept or overwritten in between, an echo is dropped, no signal is carried
twice within the span, and none is dropped for an older stamp. -/
theorem forwarded_iff {events : List (Event J)} {event : Event J}
    (h : InOrder (events ++ [event])) (hreading : event.reading = some now) (id : String) :
    id ∈ forwarded (run lower events).seenAt event ↔
      id ∈ event.emitted ∧
        ∀ t, (id, t) ∈ history lower events → dedupTtlSeconds ≤ now - t :=
  (forwarded_spec (remembers_run lower h.left (h.le_of_snoc hreading)) hreading).2.1 id

/-! ## The bound of the memory -/

/-- Behind a sweep nothing is kept that has expired. -/
lemma evict_bound (now : ℚ) (seenAt : Dict String ℚ) :
    (evict now seenAt).entries.length ≤ dedupWindowSize ∨
      ∀ e ∈ (evict now seenAt).entries, now - dedupTtlSeconds ≤ e.2 := by
  unfold evict
  split_ifs with hfew
  · exact .inl hfew
  · refine .inr fun e he => ?_
    simpa using (List.mem_filter.1 he).2

/-- The stamps are left, or something is swept. -/
lemma stamp_cases (seenAt : Dict String ℚ) {event : Event J} (hreading : event.reading = some now) :
    stamp seenAt event = seenAt ∨ ∃ m, stamp seenAt event = evict now m := by
  cases event with
  | mark now' signalId =>
    by_cases hempty : signalId = ""
    · exact .inl (by simp [stamp, add, hempty])
    · obtain rfl : now' = now := by simpa [Event.reading, hempty] using hreading
      exact .inr ⟨seenAt.set signalId now', by simp [stamp, add, hempty]⟩
  | emission now' batchId emittedAt payload =>
    by_cases hempty : strip payload.signalId = ""
    · exact .inl (by simp [stamp, bridgeEmission, hempty])
    · obtain rfl : now' = now := by simpa [Event.reading, hempty] using hreading
      cases hfresh : isFresh dedupTtlSeconds now' seenAt (strip payload.signalId) with
      | true => exact .inl (by simp [stamp, bridgeEmission, addIfUnseen, hempty, hfresh])
      | false =>
        refine .inr ⟨seenAt.set (strip payload.signalId) now', ?_⟩
        simp [stamp, bridgeEmission, addIfUnseen, hempty, hfresh]
  | batch now' batchId emittedAt payload =>
    by_cases hempty : payload.signalIds.filter (· ≠ "") = []
    · exact .inl (by simp only [stamp, bridgeBatch, if_pos hempty])
    · obtain rfl : now' = now := by
        rw [Event.reading, if_neg hempty] at hreading
        exact Option.some.inj hreading
      refine .inr ⟨((payload.signalIds.filter (· ≠ "")).foldl (filterStep now')
        (seenAt, [])).1, ?_⟩
      simp only [stamp, bridgeBatch, if_neg hempty, filterUnseenAndAdd]
      split_ifs <;> rfl
  | lanes act => cases hreading

/-- The memory is small, or it was swept at some reading of the clock and what is there was stamped
within the span before. -/
lemma recent_run {events : List (Event J)} (h : InOrder events) :
    (run lower events).seenAt.entries.length ≤ dedupWindowSize ∨
      ∃ r ∈ events.filterMap Event.reading, ∀ e ∈ (run lower events).seenAt.entries,
        e ∈ history lower events ∧ r - dedupTtlSeconds ≤ e.2 ∧ e.2 ≤ r := by
  induction events using List.reverseRecOn with
  | nil => exact .inl (Nat.zero_le _)
  | append_singleton events event ih =>
    have hmono : ∀ e ∈ history lower events, e ∈ history lower (events ++ [event]) := by
      intro e he
      rw [history, trail_snoc]
      exact List.mem_append_left _ he
    -- Stamps that are left are judged by the reading of before.
    have hkept : (run lower (events ++ [event])).seenAt = (run lower events).seenAt →
        (run lower (events ++ [event])).seenAt.entries.length ≤ dedupWindowSize ∨
          ∃ r ∈ (events ++ [event]).filterMap Event.reading,
            ∀ e ∈ (run lower (events ++ [event])).seenAt.entries,
              e ∈ history lower (events ++ [event]) ∧ r - dedupTtlSeconds ≤ e.2 ∧ e.2 ≤ r := by
      intro hsame
      rw [hsame]
      refine (ih h.left).imp_right ?_
      rintro ⟨r, hr, hall⟩
      refine ⟨r, ?_, fun e he => ⟨hmono e (hall e he).1, (hall e he).2⟩⟩
      rw [List.filterMap_append]
      exact List.mem_append_left _ hr
    cases hreading : event.reading with
    | none =>
      refine hkept ?_
      rw [run_snoc]
      exact (stamp_of_reading _ hreading).1
    | some now =>
      rcases stamp_cases (run lower events).seenAt hreading with hsame | ⟨m, hm⟩
      · refine hkept ?_
        rw [run_snoc]
        exact hsame
      · have hall : ∀ r ∈ (events ++ [event]).filterMap Event.reading, r ≤ now := by
          intro r hr
          rw [List.filterMap_append] at hr
          rcases List.mem_append.1 hr with hr | hr
          · exact h.le_of_snoc hreading r hr
          · simpa [hreading, eq_comm] using (by simpa [hreading] using hr : r = now).le
        have hmem := remembers_run lower h hall
        have hseen : (run lower (events ++ [event])).seenAt = evict now m := by
          rw [run_snoc]
          exact hm
        rw [hseen] at hmem ⊢
        refine (evict_bound now m).imp_right fun hbound => ⟨now, ?_, fun e he => ?_⟩
        · rw [List.filterMap_append]
          exact List.mem_append_right _ (by simp [hreading])
        · have hlogged := hmem.logged e.1 e.2 (Dict.mem_entries.1 he)
          exact ⟨hlogged, hbound e he, hmem.past e.1 e.2 hlogged⟩

/-- In every run in which the clock does not run backwards, the memory holds at most as many stamps
as its window has places, or as there were signals stamped within one span before some reading of
the clock. -/
theorem seenAt_length_le {events : List (Event J)} (h : InOrder events) :
    (run lower events).seenAt.entries.length ≤ dedupWindowSize ∨
      ∃ r ∈ events.filterMap Event.reading, (run lower events).seenAt.entries.length ≤
        (((history lower events).filter fun e => r - dedupTtlSeconds ≤ e.2 ∧ e.2 ≤ r).map
          Prod.fst).eraseDups.length := by
  refine (recent_run lower h).imp_right ?_
  rintro ⟨r, hr, hall⟩
  refine ⟨r, hr, ?_⟩
  have hkeys : (run lower events).seenAt.keys.Nodup := (run lower events).seenAt.nodup
  have hsub : ∀ k ∈ (run lower events).seenAt.keys, k ∈
      (((history lower events).filter fun e => r - dedupTtlSeconds ≤ e.2 ∧ e.2 ≤ r).map
        Prod.fst).eraseDups := by
    intro k hk
    obtain ⟨e, he, rfl⟩ := List.mem_map.1 hk
    obtain ⟨hlogged, hspan⟩ := hall e he
    refine List.mem_eraseDups.2 (List.mem_map_of_mem (List.mem_filter.2 ⟨hlogged, ?_⟩))
    simpa using hspan
  have hlength := (List.subperm_of_subset hkeys hsub).length_le
  rwa [Dict.keys, List.length_map] at hlength

/-! ## To the consumer -/

/-- A message as it came -/
def Event.message : Event J → Option (Batch J)
  | .emission _ _ _ payload => some payload.toBatch
  | .batch _ _ _ payload => some payload.toBatch
  | _ => none

/-- Whether a message, when it is carried on, wakes a lane -/
def isWaking (message : Batch J) : Bool :=
  isActionableEvent (normalizeEventType lower message.eventType)
    (lower (strip (if message.trigger = "" then "signal_bus" else message.trigger)))

lemma queues_run (events : List (Event J)) :
    (run lower events).queues = SignalQueue.run lower (trail lower actions events) := by
  induction events using List.reverseRecOn with
  | nil => rfl
  | append_singleton events event ih =>
    rw [run_snoc, trail_snoc, SignalQueue.run, List.foldl_append]
    show (actions (run lower events).seenAt event).foldl _ (run lower events).queues = _
    rw [ih]
    rfl

/-- What wakes a lane is the message with the signals that are carried on. -/
lemma woken_of_forwarded {event : Event J} {message : Batch J}
    (hmessage : event.message = some message) (hne : forwarded seenAt event ≠ []) :
    ∃ batch, woken seenAt event = some batch ∧ batch.signalIds = forwarded seenAt event ∧
      batch.eventType = message.eventType ∧ batch.source = message.source ∧
      batch.trigger = if message.trigger = "" then "signal_bus" else message.trigger := by
  cases hwoken : woken seenAt event with
  | none => simp [forwarded, hwoken] at hne
  | some batch =>
    have hids : batch.signalIds = forwarded seenAt event := by simp [forwarded, hwoken]
    obtain ⟨payload, hcarried, hwake⟩ : ∃ payload, carried seenAt event = some payload ∧
        wakeRuntimeQueue payload = some batch := Option.bind_eq_some_iff.1 hwoken
    have hhead : payload.eventType = message.eventType ∧ payload.source = message.source ∧
        payload.trigger = message.trigger := by
      cases event with
      | emission now batchId emittedAt e =>
        obtain rfl := Option.some.inj hmessage
        obtain ⟨e', he', rfl⟩ := Option.map_eq_some_iff.1 hcarried
        have hsame : e' = e := by
          simp only [bridgeEmission] at he'
          split_ifs at he'
          · exact (Option.some.inj he').symm
          · split at he'
            · exact (Option.some.inj he').symm
            · cases he'
        rw [hsame]
        exact ⟨rfl, rfl, rfl⟩
      | batch now batchId emittedAt b =>
        obtain rfl := Option.some.inj hmessage
        obtain ⟨b', hb', rfl⟩ := Option.map_eq_some_iff.1 hcarried
        simp only [bridgeBatch] at hb'
        split_ifs at hb'
        · obtain rfl := Option.some.inj hb'
          exact ⟨rfl, rfl, rfl⟩
        · obtain rfl := Option.some.inj hb'
          exact ⟨rfl, rfl, rfl⟩
      | _ => cases hmessage
    refine ⟨batch, rfl, hids, ?_⟩
    simp only [wakeRuntimeQueue] at hwake
    split_ifs at hwake
    · obtain rfl := Option.some.inj hwake
      rw [← hhead.1, ← hhead.2.1, ← hhead.2.2]
      rename_i htrigger
      exact ⟨rfl, rfl, by simp [htrigger]⟩
    · obtain rfl := Option.some.inj hwake
      rw [← hhead.1, ← hhead.2.1, ← hhead.2.2]
      rename_i htrigger
      exact ⟨rfl, rfl, by simp [htrigger]⟩

/-- What was published to a lane is there, and its consumer stays awake, until it is drained. -/
lemma mem_backlog_next {lane : Lane} {b : Backlog J} {p : Payload J} (hp : p ∈ b.batches)
    {act : Action J} (hact : act ≠ .drain lane) :
    p ∈ (b.next lower lane act).batches ∧
      (b.woken = true ∨ act = .take lane → (b.next lower lane act).woken = true) := by
  cases act with
  | publish batchId emittedAt batch =>
    cases hpayload : payloadOf lower batchId emittedAt batch with
    | none => simpa [Backlog.next, hpayload] using hp
    | some p' =>
      simp only [Backlog.next, hpayload]
      split_ifs
      · exact ⟨List.mem_append_left _ hp, by simp⟩
      · exact ⟨hp, by simp⟩
  | take lane' =>
    have hne : b.batches ≠ [] := List.ne_nil_of_mem hp
    simp only [Backlog.next, Action.take.injEq]
    split_ifs with htake
    · exact ⟨hp, fun _ => rfl⟩
    · refine ⟨hp, fun h => h.resolve_right fun heq => htake ⟨heq, hne⟩⟩
  | drain lane' =>
    have hne : lane' ≠ lane := fun heq => hact (by rw [heq])
    simp [Backlog.next, hne, hp]

lemma mem_backlog_foldl {lane : Lane} {b : Backlog J} {p : Payload J} (hp : p ∈ b.batches)
    {acts : List (Action J)} (hacts : ∀ act ∈ acts, act ≠ .drain lane) :
    p ∈ (acts.foldl (Backlog.next lower lane) b).batches ∧
      (b.woken = true ∨ .take lane ∈ acts →
        (acts.foldl (Backlog.next lower lane) b).woken = true) := by
  induction acts generalizing b with
  | nil => exact ⟨hp, fun h => h.resolve_right List.not_mem_nil⟩
  | cons act acts ih =>
    obtain ⟨hthere, hwoken⟩ := mem_backlog_next lower hp (hacts act List.mem_cons_self)
    obtain ⟨hthere', hwoken'⟩ := ih hthere fun act' h => hacts act' (List.mem_cons_of_mem _ h)
    refine ⟨hthere', fun h => hwoken' ?_⟩
    rcases h with h | h
    · exact .inl (hwoken (.inl h))
    · rcases List.mem_cons.1 h with rfl | h
      · exact .inl (hwoken (.inr rfl))
      · exact .inr h

/-- What is in the backlog of a lane whose consumer is awake is given to it when it drains. -/
lemma exists_drain {acts : List (Action J)} {lane : Lane} {p : Payload J} {id : String}
    (hp : p ∈ (backlog lower lane acts).batches) (hid : id ∈ p.signalIds)
    (hwoken : (backlog lower lane acts).woken = true) :
    ∃ c, (drain lower lane (SignalQueue.run lower acts)).2 = some c ∧
      ∃ k ids, c.sourceSignalIds.get? k = some ids ∧ id ∈ ids := by
  obtain ⟨first, hfirst⟩ := Option.isSome_iff_exists.1 ((inStep_run lower acts lane).woken.2 hwoken)
  obtain ⟨c, hc⟩ : ∃ c, (drain lower lane (SignalQueue.run lower acts)).2 = some c := by
    simp [drain, hfirst, coalesceBatches]
  have hlisted : c.sourceSignalIds.get? (sourceKey lower p) = some
      (listed (sourceKey lower p)
        ((backlog lower lane acts).batches.map (Payload.entry lower))).eraseDups := by
    rw [sourceSignalIds_drain lower _ _ hc, get?_gather, if_pos]
    rw [List.map_map]
    exact List.mem_map.2 ⟨p, hp, rfl⟩
  refine ⟨c, hc, sourceKey lower p, _, hlisted, List.mem_eraseDups.2 ?_⟩
  rw [listed, List.mem_flatMap]
  refine ⟨p.entry lower, List.mem_filter.2 ⟨List.mem_map_of_mem hp, ?_⟩, hid⟩
  simp [Payload.entry]

/-- The events of a run ask the lanes for what they ask each by itself. -/
lemma exists_trail_append (pre mid : List (Event J)) :
    ∃ acts, trail lower actions (pre ++ mid) = trail lower actions pre ++ acts ∧
      (∀ lane, (∀ e ∈ mid, e ≠ .lanes (.drain lane)) → ∀ act ∈ acts, act ≠ .drain lane) ∧
      ∀ act, .lanes act ∈ mid → act ∈ acts := by
  induction mid using List.reverseRecOn with
  | nil => exact ⟨[], by simp, fun _ _ _ h => absurd h List.not_mem_nil, fun _ h => (nomatch h)⟩
  | append_singleton mid event ih =>
    obtain ⟨acts, heq, hdrain, hmem⟩ := ih
    refine ⟨acts ++ actions (run lower (pre ++ mid)).seenAt event, ?_, ?_, ?_⟩
    · rw [← List.append_assoc, trail_snoc, heq, List.append_assoc]
    · intro lane hmid act hact
      rcases List.mem_append.1 hact with hact | hact
      · exact hdrain lane (fun e he => hmid e (List.mem_append_left _ he)) act hact
      · have hevent := hmid event (List.mem_append_right _ List.mem_cons_self)
        rintro rfl
        cases event with
        | lanes act => exact hevent (by rw [List.mem_singleton.1 hact])
        | mark now signalId => cases hact
        | emission now batchId emittedAt payload =>
          obtain ⟨batch, -, heq⟩ := List.mem_map.1 hact
          cases heq
        | batch now batchId emittedAt payload =>
          obtain ⟨batch, -, heq⟩ := List.mem_map.1 hact
          cases heq
    · intro act hact
      rcases List.mem_append.1 hact with hact | hact
      · exact List.mem_append_left _ (hmem act hact)
      · obtain rfl := List.mem_singleton.1 hact
        exact List.mem_append_right _ (List.mem_singleton_self act)

/-- In every run in which the clock does not run backwards, a signal of a message that wakes a
lane, and that was not stamped within the span before, reaches the consumer: when the consumer
takes from the lane after that and then drains it, the signal is among those that it is given,
whatever else was published, merged, or dropped in between. -/
theorem forwarded_delivered {pre mid : List (Event J)} {event : Event J} {message : Batch J}
    {id : String} {lane : Lane} (h : InOrder (pre ++ [event])) (hreading : event.reading = some now)
    (hmessage : event.message = some message) (hwaking : isWaking lower message = true)
    (hlane : lane = defaultLaneForSource lower (message.source.getD ""))
    (hid : id ∈ event.emitted)
    (hold : ∀ t, (id, t) ∈ history lower pre → dedupTtlSeconds ≤ now - t)
    (hfew : event.emitted.length ≤ 5000)
    (hmid : ∀ e ∈ mid, e ≠ .lanes (.drain lane)) (htake : .lanes (.take lane) ∈ mid) :
    ∃ c, (drain lower lane (run lower (pre ++ event :: mid)).queues).2 = some c ∧
      ∃ k ids, c.sourceSignalIds.get? k = some ids ∧ id ∈ ids := by
  obtain ⟨hclean, hids, -⟩ :=
    forwarded_spec (remembers_run lower h.left (h.le_of_snoc hreading)) hreading
  have hforwarded := (hids id).2 ⟨hid, hold⟩
  obtain ⟨batch, hwoken, hbatch, heventType, hsource, htrigger⟩ :=
    woken_of_forwarded hmessage (List.ne_nil_of_mem hforwarded)
  -- The batch is put on the lane with all of its signals.
  have hlength : batch.signalIds.length ≤ 5000 := by
    rw [hbatch]
    exact (List.subperm_of_subset hclean.nodup fun x hx => ((hids x).1 hx).1).length_le.trans hfew
  have hall : normalizeSignalIds batch.signalIds = batch.signalIds := by
    have hloop : normalizeLoop 5000 [] batch.signalIds = [] ++ batch.signalIds :=
      normalizeLoop_of_cleanIds (by rwa [hbatch]) hlength
    exact hloop
  obtain ⟨batchId, emittedAt, hactions⟩ : ∃ batchId emittedAt,
      actions (run lower pre).seenAt event = [.publish batchId emittedAt batch] := by
    cases event with
    | emission now batchId emittedAt payload =>
      exact ⟨batchId, emittedAt, by simp [actions, hwoken]⟩
    | batch now batchId emittedAt payload =>
      exact ⟨batchId, emittedAt, by simp [actions, hwoken]⟩
    | _ => cases hmessage
  obtain ⟨payload, hpayload, hsignals, hon⟩ : ∃ payload,
      payloadOf lower batchId emittedAt batch = some payload ∧
        payload.signalIds = batch.signalIds ∧ payload.lane = lane := by
    have hne : batch.signalIds ≠ [] := by rw [hbatch]; exact List.ne_nil_of_mem hforwarded
    have hactionable : isActionableEvent (normalizeEventType lower batch.eventType)
        (lower (strip batch.trigger)) = true := by
      rw [heventType, htrigger]
      exact hwaking
    simp only [payloadOf, hall, if_neg hne, hactionable]
    exact ⟨_, rfl, rfl, by rw [hlane, ← hsource]⟩
  -- From there it goes with everything else that is published until the lane is drained.
  obtain ⟨acts, htrail, hdrain, hmem⟩ := exists_trail_append lower (pre ++ [event]) mid
  rw [List.append_assoc, List.singleton_append, trail_snoc, hactions] at htrail
  have hstart : payload ∈ (backlog lower lane
      (trail lower actions pre ++ [.publish batchId emittedAt batch])).batches := by
    rw [backlog, List.foldl_append, List.foldl_cons, List.foldl_nil]
    simp only [Backlog.next, hpayload, if_pos hon]
    exact List.mem_append_right _ (List.mem_singleton_self _)
  obtain ⟨hthere, hawake⟩ := mem_backlog_foldl lower hstart (hdrain lane hmid)
  have hbacklog : (backlog lower lane (trail lower actions (pre ++ event :: mid))) =
      acts.foldl (Backlog.next lower lane) (backlog lower lane
        (trail lower actions pre ++ [.publish batchId emittedAt batch])) := by
    rw [htrail, backlog, List.foldl_append]
    rfl
  rw [← hbacklog] at hthere hawake
  rw [queues_run]
  exact exists_drain lower hthere (hsignals ▸ hbatch ▸ hforwarded) (hawake (.inr (hmem _ htake)))

end Bridge

/-! ## An echo and a later emission -/

/-- A signal is marked here, echoed at once, and emitted again a second later by another process. -/
def echoed : List (Event ℕ) :=
  [.mark 1 "s1",
    .emission (1001 / 1000) "b1" "t1" { signalId := "s1", eventType := "upsert_insert" }]

/-- The signal of the first message, in another batch. -/
def emittedAgain : Event ℕ :=
  .emission 2 "b2" "t2" { signalId := " s1 ", eventType := "upsert_update" }

theorem forwarded_iff_again :
    "s1" ∈ forwarded (run String.toLower echoed).seenAt emittedAgain ↔
      "s1" ∈ emittedAgain.emitted ∧
        ∀ t, ("s1", t) ∈ history String.toLower echoed → dedupTtlSeconds ≤ 2 - t :=
  forwarded_iff String.toLower (by decide +kernel) (by decide +kernel) "s1"

theorem seenAt_length_le_echoed :
    (run String.toLower echoed).seenAt.entries.length ≤ dedupWindowSize ∨
      ∃ r ∈ echoed.filterMap Event.reading, (run String.toLower echoed).seenAt.entries.length ≤
        (((history String.toLower echoed).filter fun e =>
          r - dedupTtlSeconds ≤ e.2 ∧ e.2 ≤ r).map Prod.fst).eraseDups.length :=
  seenAt_length_le String.toLower (by decide +kernel)

theorem forwarded_delivered_again :
    ∃ c, (drain String.toLower .general (run String.toLower
        (echoed ++ emittedAgain :: [.lanes (.take .general)])).queues).2 = some c ∧
      ∃ k ids, c.sourceSignalIds.get? k = some ids ∧ "s1" ∈ ids := by
  have hhistory : history String.toLower echoed = [("s1", 1)] := by decide +kernel
  refine forwarded_delivered String.toLower (by decide +kernel) rfl rfl (by decide +kernel)
    (by decide +kernel) (by decide +kernel) ?_ (by decide +kernel) ?_ (List.mem_singleton_self _)
  · intro t ht
    rw [hhistory, List.mem_singleton] at ht
    obtain ⟨-, rfl⟩ := Prod.mk.inj ht
    decide +kernel
  · intro e he
    obtain rfl := List.mem_singleton.1 he
    rintro ⟨⟩

end Evosport.Orchestrator.SignalBridge
