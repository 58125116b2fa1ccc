/-
The topic catalog and the cache in front of it.

Every publish asks `get_topic` for the row of its topic.  The answer is kept for five seconds, so
that the table is read rarely, and whoever writes a row in this process drops what is kept of it.
The calls are coroutines: each waits for the table once or twice, and in between the others run,
the clock advances and other processes write.  An event below is what happens between two such
points.

However the calls interleave, an answer is the row as it stood less than five seconds before the
call or later (`answer_recent`), so a topic that an operator switches off is refused everywhere five
seconds later (`requireTopic_refuses`).  A process sees its own writes at once, unless a call has
fetched the row before the write and keeps it afterwards (`answer_after_write`); and recorders that
register their topics at every start never touch what belongs to the operator
(`register_keeps_operator`).
-/
import Evosport.Data.Pruners
import Evosport.RecordedBus.Envelope
import Evosport.Lib.StableSort
import Mathlib.Data.List.Induction
import Mathlib.Data.List.Infix

namespace Evosport.RecordedBus.TopicCatalog

open Lib
open Evosport.Data (StorageKind)

/-- `_CACHE_TTL_SECONDS` -/
def cacheTtlSeconds : ℚ := 5

/-! ## Rows -/

section Rows

variable (J : Type*)

/-- A row of the table; `created_at`, and `updated_at`, which the database sets on every update, are
not read by the calls and left out. -/
structure TopicRow where
  slug : String
  title : String
  description : Option String
  storageKind : StorageKind
  storageUri : Option String
  payloadSchemaJson : Option (Dict String J)
  schemaVersion : ℤ
  retentionDays : Option ℤ
  maxBytes : Option ℤ
  publishersJson : List String
  subscribersJson : List String
  enabled : Bool
  isReplayable : Bool
  lastPublishedAt : Option ℚ
  lastReplayedAt : Option ℚ
  eventCount : ℤ
  bytesOnDisk : ℤ
  deriving DecidableEq

/-- What the consumers of the bus get to see of a row -/
structure TopicSpec where
  slug : String
  title : String
  storageKind : StorageKind
  storageUri : Option String
  schemaVersion : ℤ
  enabled : Bool
  isReplayable : Bool
  description : Option String
  payloadSchema : Option (Dict String J)
  retentionDays : Option ℤ
  maxBytes : Option ℤ
  publishers : List String
  subscribers : List String
  lastPublishedAt : Option ℚ
  lastReplayedAt : Option ℚ
  eventCount : ℤ
  bytesOnDisk : ℤ
  deriving DecidableEq

/-- The arguments of `register_topic` -/
structure Registration where
  slug : String
  title : String
  storageKind : String
  storageUri : Option String := none
  description : Option String := none
  payloadSchema : Option (Dict String J) := none
  schemaVersion : ℤ := 1
  retentionDays : Option ℤ := none
  maxBytes : Option ℤ := none
  publishers : List String := []
  subscribers : List String := []
  enabled : Bool := true
  isReplayable : Bool := true
  upsert : Bool := true

end Rows

variable {J : Type*}

/-- `from_row`; a schema version of zero counts as the first. -/
def TopicSpec.fromRow (row : TopicRow J) : TopicSpec J where
  slug := row.slug
  title := row.title
  storageKind := row.storageKind
  storageUri := row.storageUri
  schemaVersion := if row.schemaVersion = 0 then 1 else row.schemaVersion
  enabled := row.enabled
  isReplayable := row.isReplayable
  description := row.description
  payloadSchema := row.payloadSchemaJson
  retentionDays := row.retentionDays
  maxBytes := row.maxBytes
  publishers := row.publishersJson
  subscribers := row.subscribersJson
  lastPublishedAt := row.lastPublishedAt
  lastReplayedAt := row.lastReplayedAt
  eventCount := row.eventCount
  bytesOnDisk := row.bytesOnDisk

/-- Why a registration is refused. -/
inductive RegisterError where
  | invalidTopic
  | unknownStorageKind
  | missingStorageUri
  deriving DecidableEq

/-- The storage kind of a name, where there is one. -/
def storageKind? (name : String) : Option StorageKind :=
  match name with
  | "parquet" => some .parquet
  | "external_parquet" => some .externalParquet
  | "sql_table" => some .sqlTable
  | "memory" => some .memory
  | _ => none

namespace Registration

/-- What `register_topic` refuses before it turns to the table; only a topic in memory needs no
storage. -/
def check (args : Registration J) : Except RegisterError StorageKind :=
  if (parseTopic args.slug).isNone then .error .invalidTopic
  else
    match storageKind? args.storageKind with
    | none => .error .unknownStorageKind
    | some kind =>
      if kind ≠ .memory ∧ args.storageUri.getD "" = "" then .error .missingStorageUri else .ok kind

/-- `payload_schema_dict`: an empty schema is none. -/
def payloadSchemaDict (args : Registration J) : Option (Dict String J) :=
  args.payloadSchema.filter fun schema => !schema.entries.isEmpty

/-- The row of a topic that is not there yet: the arguments of its registration, and counters at
zero. -/
def newRow (args : Registration J) (kind : StorageKind) : TopicRow J where
  slug := args.slug
  title := args.title
  description := args.description
  storageKind := kind
  storageUri := args.storageUri
  payloadSchemaJson := args.payloadSchemaDict
  schemaVersion := args.schemaVersion
  retentionDays := args.retentionDays
  maxBytes := args.maxBytes
  publishersJson := args.publishers
  subscribersJson := args.subscribers
  enabled := args.enabled
  isReplayable := args.isReplayable
  lastPublishedAt := none
  lastReplayedAt := none
  eventCount := 0
  bytesOnDisk := 0

/-- `sorted(set(old) | set(new))` -/
def union (old new : List String) : List String := sortByKey id (old ++ new).dedup

/-- What a registration makes of the row that it has found: arguments that are left out keep the old
value, publishers and subscribers are united, and the switches of the operator stay. -/
def merge (args : Registration J) (kind : StorageKind) (existing : TopicRow J) : TopicRow J :=
  { existing with
    title := if args.title = "" then existing.title else args.title
    description := args.description.or existing.description
    storageKind := kind
    storageUri := args.storageUri
    payloadSchemaJson := args.payloadSchemaDict.or existing.payloadSchemaJson
    schemaVersion := args.schemaVersion
    publishersJson := union existing.publishersJson args.publishers
    subscribersJson := union existing.subscribersJson args.subscribers
    retentionDays := args.retentionDays.or existing.retentionDays
    maxBytes := args.maxBytes.or existing.maxBytes }

end Registration

/-- A column is written only when the session has changed it. -/
def writeColumn {α : Type*} [DecidableEq α] (loaded changed current : α) : α :=
  if changed = loaded then current else changed

/-- The `UPDATE` of a session that has loaded a row and changed it, on what the table has by then -/
def TopicRow.writeBack [DecidableEq J] (loaded changed current : TopicRow J) : TopicRow J where
  slug := current.slug
  title := writeColumn loaded.title changed.title current.title
  description := writeColumn loaded.description changed.description current.description
  storageKind := writeColumn loaded.storageKind changed.storageKind current.storageKind
  storageUri := writeColumn loaded.storageUri changed.storageUri current.storageUri
  payloadSchemaJson :=
    writeColumn loaded.payloadSchemaJson changed.payloadSchemaJson current.payloadSchemaJson
  schemaVersion := writeColumn loaded.schemaVersion changed.schemaVersion current.schemaVersion
  retentionDays := writeColumn loaded.retentionDays changed.retentionDays current.retentionDays
  maxBytes := writeColumn loaded.maxBytes changed.maxBytes current.maxBytes
  publishersJson := writeColumn loaded.publishersJson changed.publishersJson current.publishersJson
  subscribersJson :=
    writeColumn loaded.subscribersJson changed.subscribersJson current.subscribersJson
  enabled := writeColumn loaded.enabled changed.enabled current.enabled
  isReplayable := writeColumn loaded.isReplayable changed.isReplayable current.isReplayable
  lastPublishedAt :=
    writeColumn loaded.lastPublishedAt changed.lastPublishedAt current.lastPublishedAt
  lastReplayedAt := writeColumn loaded.lastReplayedAt changed.lastReplayedAt current.lastReplayedAt
  eventCount := writeColumn loaded.eventCount changed.eventCount current.eventCount
  bytesOnDisk := writeColumn loaded.bytesOnDisk changed.bytesOnDisk current.bytesOnDisk

@[simp] lemma writeColumn_self {α : Type*} [DecidableEq α] (loaded current : α) :
    writeColumn loaded loaded current = current := if_pos rfl

/-! ## Calls that wait for the table -/

section State

variable (J)

/-- A specification in the cache, and until when it counts. -/
structure CacheEntry where
  spec : TopicSpec J
  expiresAt : ℚ

/-- A call that is waiting, with what it has learnt so far -/
inductive Call where
  /-- `get_topic`, before its `SELECT` -/
  | reading (asked : ℚ) (slug : String)
  /-- `get_topic`, after it -/
  | read (asked : ℚ) (slug : String) (row : Option (TopicRow J))
  /-- `register_topic`, before its `SELECT` -/
  | registering (args : Registration J) (kind : StorageKind)
  /-- `register_topic`, before its commit -/
  | merging (args : Registration J) (kind : StorageKind) (existing : Option (TopicRow J))
  /-- `delete_topic`, before its commit -/
  | deleting (slug : String)
  /-- either of them, after its commit -/
  | committed (slug : String)

/-- The table, which all processes share, and what this process keeps: the cache, and the calls that
wait -/
structure State where
  now : ℚ := 0
  rows : Dict String (TopicRow J) := .empty
  cache : Dict String (CacheEntry J) := .empty
  calls : Dict ℕ (Call J) := .empty

/-- A call is made, the table answers one or refuses it, or something else happens: the monotonic
clock is read later, another writer of this process drops what is kept of a topic, or another
process writes a row. -/
inductive Event where
  | tick (now : ℚ)
  | getTopic (id : ℕ) (slug : String)
  | registerTopic (id : ℕ) (args : Registration J)
  | deleteTopic (id : ℕ) (slug : String)
  | resume (id : ℕ)
  | fail (id : ℕ)
  | invalidate (slug : String)
  | elsewhere (slug : String) (row : Option (TopicRow J))

/-- What `get_topic` returns, with the time at which it was called -/
structure Answer where
  asked : ℚ
  slug : String
  spec : Option (TopicSpec J)
  deriving DecidableEq

end State

namespace State

/-- The row of a topic, as its readers see it -/
def spec? (s : State J) (slug : String) : Option (TopicSpec J) :=
  (s.rows.get? slug).map .fromRow

/-- What is kept of a topic and has not expired -/
def cached? (s : State J) (slug : String) : Option (TopicSpec J) :=
  (s.cache.get? slug).bind fun entry => if s.now < entry.expiresAt then some entry.spec else none

/-- `_invalidate_cache` -/
def invalidateCache (s : State J) (slug : String) : State J :=
  { s with cache := s.cache.erase slug }

/-- The call waits for the database. -/
def wait (s : State J) (id : ℕ) (call : Call J) : State J :=
  { s with calls := s.calls.set id call }

/-- The call is over. -/
def finish (s : State J) (id : ℕ) : State J := { s with calls := s.calls.erase id }

/-- What the table has for a topic from now on -/
def write (s : State J) (slug : String) : Option (TopicRow J) → State J
  | some row => { s with rows := s.rows.set slug row }
  | none => { s with rows := s.rows.erase slug }

/-- The end of `get_topic`: a row that was found is kept, its five seconds counted from the call. -/
def keep (s : State J) (asked : ℚ) (slug : String) : Option (TopicRow J) → State J
  | some row => { s with cache := s.cache.set slug ⟨.fromRow row, asked + cacheTtlSeconds⟩ }
  | none => s

@[simp] lemma wait_now (s : State J) (id : ℕ) (call : Call J) : (s.wait id call).now = s.now := rfl

@[simp] lemma finish_now (s : State J) (id : ℕ) : (s.finish id).now = s.now := rfl

@[simp] lemma invalidateCache_now (s : State J) (slug : String) :
    (s.invalidateCache slug).now = s.now := rfl

@[simp] lemma write_now (s : State J) (slug : String) (row : Option (TopicRow J)) :
    (s.write slug row).now = s.now := by cases row <;> rfl

lemma write_rows_of_ne (s : State J) {slug slug' : String} (row : Option (TopicRow J))
    (h : slug ≠ slug') : (s.write slug row).rows.get? slug' = s.rows.get? slug' := by
  cases row with
  | none => exact Dict.get?_erase_of_ne _ h
  | some row => exact Dict.get?_set_of_ne _ _ h

@[simp] lemma keep_now (s : State J) (asked : ℚ) (slug : String) (row : Option (TopicRow J)) :
    (s.keep asked slug row).now = s.now := by cases row <;> rfl

variable [DecidableEq J]

/-- The commit of `register_topic`.  The insertion of a topic that is there by now is refused, and
so is the update of one that is gone, unless there is nothing to update. -/
def commit (s : State J) (id : ℕ) (args : Registration J) (kind : StorageKind)
    (existing : Option (TopicRow J)) : State J :=
  match existing, s.rows.get? args.slug with
  | none, none =>
    (s.write args.slug (some (args.newRow kind))).wait id (.committed args.slug)
  | none, some _ => s.finish id
  | some loaded, some current =>
    (s.write args.slug (some (loaded.writeBack (args.merge kind loaded) current))).wait id
      (.committed args.slug)
  | some loaded, none =>
    if args.merge kind loaded = loaded then s.wait id (.committed args.slug) else s.finish id

/-- A waiting call goes on to the next point where it waits. -/
def resume (s : State J) (id : ℕ) : Call J → State J
  | .reading asked slug => s.wait id (.read asked slug (s.rows.get? slug))
  | .read asked slug row => (s.keep asked slug row).finish id
  | .registering args kind =>
    -- without `upsert` a topic that is there already is an error
    if (s.rows.get? args.slug).isSome ∧ args.upsert = false then s.finish id
    else s.wait id (.merging args kind (s.rows.get? args.slug))
  | .merging args kind existing => s.commit id args kind existing
  | .deleting slug => (s.write slug none).wait id (.committed slug)
  | .committed slug => (s.invalidateCache slug).finish id

end State

variable [DecidableEq J]

/-- What an event makes of the state: a call starts, goes on with its statement in the database, or
fails.  Call numbers are not used twice at a time. -/
def step (s : State J) : Event J → State J
  | .tick now => { s with now := max s.now now }
  | .getTopic id slug =>
    if s.calls.contains id ∨ (s.cached? slug).isSome then s else s.wait id (.reading s.now slug)
  | .registerTopic id args =>
    match args.check with
    | .error _ => s
    | .ok kind => if s.calls.contains id then s else s.wait id (.registering args kind)
  | .deleteTopic id slug => if s.calls.contains id then s else s.wait id (.deleting slug)
  | .resume id => (s.calls.get? id).elim s (s.resume id)
  | .fail id => s.finish id
  | .invalidate slug => s.invalidateCache slug
  | .elsewhere slug row => s.write slug row

omit [DecidableEq J] in
variable (J) in
/-- A process that has just started, over a table without rows -/
def start : State J := {}

/-- The catalog after these events, from the start of the process. -/
def run (events : List (Event J)) : State J := events.foldl step (start J)

omit [DecidableEq J] in
/-- What `get_topic` returns at an event: at once what is kept, or what the table has answered -/
def answer (s : State J) : Event J → Option (Answer J)
  | .getTopic _ slug => (s.cached? slug).map fun spec => ⟨s.now, slug, some spec⟩
  | .resume id =>
    match s.calls.get? id with
    | some (.read asked slug row) => some ⟨asked, slug, row.map .fromRow⟩
    | _ => none
  | _ => none

/-- Why a topic may not be published to. -/
inductive TopicError where
  | notRegistered
  | disabled
  deriving DecidableEq

omit [DecidableEq J] in
/-- `require_topic`, given what `get_topic` returns -/
def requireTopic : Option (TopicSpec J) → Except TopicError (TopicSpec J)
  | none => .error .notRegistered
  | some spec => if spec.enabled then .ok spec else .error .disabled

lemma run_snoc (events : List (Event J)) (event : Event J) :
    run (events ++ [event]) = step (run events) event := by
  rw [run, List.foldl_append]
  rfl

/-! ## What has been seen of the table -/

section Fresh

variable {seen : String → ℚ → Option (TopicSpec J) → Prop} {s : State J}

omit [DecidableEq J] in
/-- What a waiting call has fetched was seen since it was called. -/
def CallFresh (seen : String → ℚ → Option (TopicSpec J) → Prop) (now : ℚ) : Call J → Prop
  | .reading asked _ => asked ≤ now
  | .read asked slug row => seen slug asked (row.map .fromRow)
  | _ => True

omit [DecidableEq J] in
/-- Everything that is kept or carried was seen in the table, where `seen slug t spec` stands for
"at some time from `t` on, the topic read `spec`". -/
structure Fresh (seen : String → ℚ → Option (TopicSpec J) → Prop) (s : State J) : Prop where
  cached : ∀ slug entry, s.cache.get? slug = some entry →
    seen slug (entry.expiresAt - cacheTtlSeconds) (some entry.spec)
  calls : ∀ id call, s.calls.get? id = some call → CallFresh seen s.now call

namespace Fresh

omit [DecidableEq J]

lemma wait (h : Fresh seen s) (id : ℕ) {call : Call J} (hcall : CallFresh seen s.now call) :
    Fresh seen (s.wait id call) := by
  constructor
  case cached => exact h.cached
  case calls =>
    intro id' call' hget
    rw [State.wait, Dict.get?_set] at hget
    split_ifs at hget with hid
    · obtain rfl := Option.some.inj hget
      exact hcall
    · exact h.calls id' call' hget

lemma finish (h : Fresh seen s) (id : ℕ) : Fresh seen (s.finish id) := by
  constructor
  case cached => exact h.cached
  case calls =>
    intro id' call' hget
    rw [State.finish, Dict.get?_erase] at hget
    split_ifs at hget with hid
    exact h.calls id' call' hget

lemma write (h : Fresh seen s) (slug : String) (row : Option (TopicRow J)) :
    Fresh seen (s.write slug row) := by
  cases row with
  | none => exact ⟨h.cached, h.calls⟩
  | some row => exact ⟨h.cached, h.calls⟩

lemma invalidateCache (h : Fresh seen s) (slug : String) : Fresh seen (s.invalidateCache slug) := by
  constructor
  case cached =>
    intro slug' entry hget
    rw [State.invalidateCache, Dict.get?_erase] at hget
    split_ifs at hget with hslug
    exact h.cached slug' entry hget
  case calls => exact h.calls

lemma keep (h : Fresh seen s) {asked : ℚ} {slug : String} {row : Option (TopicRow J)}
    (hrow : seen slug asked (row.map .fromRow)) : Fresh seen (s.keep asked slug row) := by
  cases row with
  | none => exact h
  | some row =>
    constructor
    case cached =>
      intro slug' entry hget
      rw [State.keep, Dict.get?_set] at hget
      split_ifs at hget with hslug
      · obtain rfl := Option.some.inj hget
        subst hslug
        -- the five seconds are counted from the call
        simpa using hrow
      · exact h.cached slug' entry hget
    case calls => exact h.calls

lemma tick (h : Fresh seen s) (now : ℚ) : Fresh seen { s with now := max s.now now } := by
  constructor
  case cached => exact h.cached
  case calls =>
    intro id call hget
    have hcall := h.calls id call hget
    cases call with
    | reading asked slug => exact le_trans hcall (le_max_left _ _)
    | read asked slug row => exact hcall
    | registering args kind => trivial
    | merging args kind existing => trivial
    | deleting slug => trivial
    | committed slug => trivial

variable [DecidableEq J]

lemma commit (h : Fresh seen s) (id : ℕ) (args : Registration J) (kind : StorageKind)
    (existing : Option (TopicRow J)) : Fresh seen (s.commit id args kind existing) := by
  unfold State.commit
  split
  · exact (h.write _ _).wait id trivial
  · exact h.finish id
  · exact (h.write _ _).wait id trivial
  · split_ifs
    · exact h.wait id trivial
    · exact h.finish id

/-- One step of one call -/
lemma resume (h : Fresh seen s) (hnow : ∀ slug, seen slug s.now (s.spec? slug))
    (hanti : ∀ slug t t' spec, seen slug t spec → t' ≤ t → seen slug t' spec) {id : ℕ}
    {call : Call J} (hcall : CallFresh seen s.now call) : Fresh seen (s.resume id call) := by
  cases call with
  | reading asked slug => exact h.wait id (hanti slug _ _ _ (hnow slug) hcall)
  | read asked slug row => exact (h.keep hcall).finish id
  | registering args kind =>
    rw [State.resume]
    split_ifs
    · exact h.finish id
    · exact h.wait id trivial
  -- What the table holds may change here, but not what was seen of it.
  | merging args kind existing => exact h.commit id args kind existing
  | deleting slug => exact (h.write slug none).wait id trivial
  | committed slug => exact (h.invalidateCache slug).finish id

lemma step (h : Fresh seen s) (hnow : ∀ slug, seen slug s.now (s.spec? slug))
    (hanti : ∀ slug t t' spec, seen slug t spec → t' ≤ t → seen slug t' spec) (event : Event J) :
    Fresh seen (TopicCatalog.step s event) := by
  cases event with
  | tick now => exact h.tick now
  | getTopic id slug =>
    rw [TopicCatalog.step]
    split_ifs
    · exact h
    · exact h.wait id le_rfl
  | registerTopic id args =>
    rw [TopicCatalog.step]
    split
    · exact h
    · split_ifs
      · exact h
      · exact h.wait id trivial
  | deleteTopic id slug =>
    rw [TopicCatalog.step]
    split_ifs
    · exact h
    · exact h.wait id trivial
  | resume id =>
    cases hget : s.calls.get? id with
    | none => simpa [TopicCatalog.step, hget] using h
    | some call => simpa [TopicCatalog.step, hget] using h.resume hnow hanti (h.calls id call hget)
  | fail id => exact h.finish id
  | invalidate slug => exact h.invalidateCache slug
  | elsewhere slug row => exact h.write slug row

omit [DecidableEq J] in
/-- An answer was seen less than five seconds before the call, or later. -/
lemma answer (h : Fresh seen s) {event : Event J} {a : Answer J}
    (ha : TopicCatalog.answer s event = some a) :
    ∃ t, a.asked - cacheTtlSeconds < t ∧ seen a.slug t a.spec := by
  cases event with
  | getTopic id slug =>
    -- What is kept has not expired, so it was fetched by a call of less than five seconds ago.
    obtain ⟨spec, hspec, rfl⟩ := Option.map_eq_some_iff.1 ha
    obtain ⟨entry, hentry, hfresh⟩ := Option.bind_eq_some_iff.1 hspec
    split_ifs at hfresh with hlt
    obtain rfl := Option.some.inj hfresh
    exact ⟨_, sub_lt_sub_right hlt _, h.cached slug entry hentry⟩
  | resume id =>
    rw [TopicCatalog.answer] at ha
    split at ha
    case h_1 asked slug row hget =>
      obtain rfl := Option.some.inj ha
      have hpos : asked - cacheTtlSeconds < asked := sub_lt_self _ (by norm_num [cacheTtlSeconds])
      exact ⟨asked, hpos, h.calls id _ hget⟩
    case h_2 => cases ha
  | tick | registerTopic | deleteTopic | fail | invalidate | elsewhere => cases ha

end Fresh

/-- A run keeps what is seen in every state on its way. -/
lemma fresh_run (hanti : ∀ slug t t' spec, seen slug t spec → t' ≤ t → seen slug t' spec)
    {first : List (Event J)} (hfirst : Fresh seen (run first)) {rest : List (Event J)}
    (hnow : ∀ q, first <+: q → q <+: first ++ rest →
      ∀ slug, seen slug (run q).now ((run q).spec? slug)) :
    Fresh seen (run (first ++ rest)) := by
  induction rest using List.reverseRecOn with
  | nil => rwa [List.append_nil]
  | append_singleton rest event ih =>
    rw [← List.append_assoc, run_snoc]
    have hpre : first ++ rest <+: first ++ (rest ++ [event]) := by
      rw [← List.append_assoc]
      exact List.prefix_append _ _
    have hrest := ih fun q hq hq' => hnow q hq (hq'.trans hpre)
    exact hrest.step (hnow _ (List.prefix_append _ _) hpre) hanti event

omit [DecidableEq J] in
lemma fresh_start (seen : String → ℚ → Option (TopicSpec J) → Prop) : Fresh seen (start J) :=
  ⟨fun _ _ h => (nomatch h), fun _ _ h => (nomatch h)⟩

end Fresh

/-! ## How old an answer can be -/

/-- At some time from `t` on, the topic read `spec`. -/
def SeenDuring (events : List (Event J)) (slug : String) (t : ℚ) (spec : Option (TopicSpec J)) :
    Prop :=
  ∃ pre, pre <+: events ∧ t ≤ (run pre).now ∧ (run pre).spec? slug = spec

lemma SeenDuring.mono {events : List (Event J)} {slug : String} {t t' : ℚ}
    {spec : Option (TopicSpec J)} (h : SeenDuring events slug t spec) (ht : t' ≤ t) :
    SeenDuring events slug t' spec := by
  obtain ⟨pre, hpre, hle, hspec⟩ := h
  exact ⟨pre, hpre, ht.trans hle, hspec⟩

lemma fresh_during (events : List (Event J)) : Fresh (SeenDuring events) (run events) := by
  have hanti : ∀ slug t t' spec, SeenDuring events slug t spec → t' ≤ t →
      SeenDuring events slug t' spec := fun _ _ _ _ => SeenDuring.mono
  have hnow : ∀ q, [] <+: q → q <+: [] ++ events →
      ∀ slug, SeenDuring events slug (run q).now ((run q).spec? slug) :=
    fun q _ hq slug => ⟨q, hq, le_rfl, rfl⟩
  have hstart : Fresh (SeenDuring events) (run []) := fresh_start _
  have hrun := fresh_run hanti hstart hnow
  exact hrun

/-- In every run, whatever the calls, the other writers and the other processes do in between, an
answer of `get_topic` is what the table had for the topic at some moment less than five seconds
before the call was made, or after it. -/
theorem answer_recent {events : List (Event J)} {event : Event J} {a : Answer J}
    (ha : answer (run events) event = some a) :
    ∃ pre, pre <+: events ∧ a.asked - cacheTtlSeconds < (run pre).now ∧
      (run pre).spec? a.slug = a.spec := by
  obtain ⟨t, ht, pre, hpre, hle, hspec⟩ := (fresh_during events).answer ha
  exact ⟨pre, hpre, ht.trans_le hle, hspec⟩

lemma now_commit (s : State J) (id : ℕ) (args : Registration J) (kind : StorageKind)
    (existing : Option (TopicRow J)) : (s.commit id args kind existing).now = s.now := by
  unfold State.commit
  split
  · simp
  · simp
  · simp
  · split_ifs <;> simp

lemma now_resume (s : State J) (id : ℕ) (call : Call J) : (s.resume id call).now = s.now := by
  cases call with
  | reading asked slug => rfl
  | read asked slug row => simp [State.resume]
  | registering args kind =>
    rw [State.resume]
    split_ifs <;> simp
  | merging args kind existing => exact now_commit s id args kind existing
  | deleting slug => simp [State.resume]
  | committed slug => simp [State.resume]

/-- The clock does not run backwards. -/
lemma now_le_step (s : State J) (event : Event J) : s.now ≤ (step s event).now := by
  cases event with
  | tick now => exact le_max_left _ _
  | getTopic id slug =>
    rw [step]
    split_ifs <;> simp
  | registerTopic id args =>
    rw [step]
    split
    · exact le_rfl
    · split_ifs <;> simp
  | deleteTopic id slug =>
    rw [step]
    split_ifs <;> simp
  | resume id =>
    cases hget : s.calls.get? id with
    | none => simp [step, hget]
    | some call => simp [step, hget, now_resume]
  | fail id => exact le_rfl
  | invalidate slug => exact le_rfl
  | elsewhere slug row => simp [step]

lemma now_le_of_earlier {pre events : List (Event J)} (h : pre <+: events) :
    (run pre).now ≤ (run events).now := by
  obtain ⟨rest, rfl⟩ := h
  induction rest using List.reverseRecOn with
  | nil => rw [List.append_nil]
  | append_singleton rest event ih =>
    rw [← List.append_assoc, run_snoc]
    exact ih.trans (now_le_step _ event)

/-- Once a topic is switched off, or is gone, and stays so, every call that is made five seconds
later refuses to publish to it, in whichever process and whatever is kept there. -/
theorem requireTopic_refuses {pre post : List (Event J)} {event : Event J} {a : Answer J}
    (hoff : ∀ q, pre <+: q → q <+: pre ++ post → ∀ spec, (run q).spec? a.slug = some spec →
      spec.enabled = false)
    (ha : answer (run (pre ++ post)) event = some a)
    (hlate : (run pre).now + cacheTtlSeconds ≤ a.asked) :
    ∃ err, requireTopic a.spec = .error err := by
  obtain ⟨t, ht, q, hq, hle, hspec⟩ := (fresh_during (pre ++ post)).answer ha
  have hafter : (run pre).now < (run q).now := by linarith
  have hpre : pre <+: q := by
    rcases List.prefix_or_prefix_of_prefix hq (List.prefix_append pre post) with hqp | hpq
    · exact absurd (now_le_of_earlier hqp) (not_le.2 hafter)
    · exact hpq
  cases hrow : a.spec with
  | none => exact ⟨.notRegistered, rfl⟩
  | some spec =>
    have henabled := hoff q hpre hq spec (hspec.trans hrow)
    exact ⟨.disabled, by simp [requireTopic, henabled]⟩

/-! ## A process and its own writes -/

/-- When a registration or a deletion is through, and at that moment no call carries what it has
fetched of the topic, then everything that this process is told of the topic from then on is what
the table has had since: what was written, or what came after it. -/
theorem answer_after_write {pre post : List (Event J)} {id : ℕ} {event : Event J} {a : Answer J}
    (hwrite : (run pre).calls.get? id = some (.committed a.slug))
    (hquiet : ∀ id' asked row, (run pre).calls.get? id' ≠ some (.read asked a.slug row))
    (ha : answer (run (pre ++ .resume id :: post)) event = some a) :
    ∃ q, pre <+: q ∧ q <+: pre ++ .resume id :: post ∧ (run q).spec? a.slug = a.spec := by
  have hstep : run (pre ++ [.resume id]) = ((run pre).invalidateCache a.slug).finish id := by
    simp [run_snoc, step, hwrite, State.resume]
  let seen : String → ℚ → Option (TopicSpec J) → Prop := fun slug _ spec => slug = a.slug →
    ∃ q, pre <+: q ∧ q <+: pre ++ .resume id :: post ∧ (run q).spec? slug = spec
  have hfirst : Fresh seen (run (pre ++ [.resume id])) := by
    rw [hstep]
    constructor
    case cached =>
      intro slug entry hget hslug
      rw [State.finish, State.invalidateCache, hslug] at hget
      simp at hget
    case calls =>
      intro id' call hget
      rw [State.finish, Dict.get?_erase] at hget
      split_ifs at hget with hid
      cases call with
      | reading asked slug => exact (fresh_during pre).calls id' _ hget
      -- A call that has fetched the row already is what the hypothesis rules out.
      | read asked slug row =>
        intro hslug
        rw [hslug] at hget
        exact absurd hget (hquiet id' asked row)
      | registering args kind => trivial
      | merging args kind existing => trivial
      | deleting slug => trivial
      | committed slug => trivial
  have hsplit : pre ++ .resume id :: post = (pre ++ [.resume id]) ++ post := by simp
  have hnow : ∀ q, pre ++ [.resume id] <+: q → q <+: (pre ++ [.resume id]) ++ post →
      ∀ slug, seen slug (run q).now ((run q).spec? slug) :=
    fun q hq hq' slug _ => ⟨q, (List.prefix_append _ _).trans hq, hsplit ▸ hq', rfl⟩
  have hrun := fresh_run (fun _ _ _ _ h _ => h) hfirst hnow
  rw [hsplit] at ha
  obtain ⟨t, -, hseen⟩ := hrun.answer ha
  exact hseen rfl

/-! ## What belongs to the operator -/

omit [DecidableEq J] in
/-- The switches, the caps and the counters of a topic -/
def TopicRow.owned (row : TopicRow J) :
    (Bool × Bool) × (Option ℤ × Option ℤ) × (Option ℚ × Option ℚ) × (ℤ × ℤ) :=
  ((row.enabled, row.isReplayable), (row.retentionDays, row.maxBytes),
    (row.lastPublishedAt, row.lastReplayedAt), (row.eventCount, row.bytesOnDisk))

omit [DecidableEq J] in
/-- A registration that asks for no caps, as those of the recorders -/
def Registration.CapsOpen (args : Registration J) : Prop :=
  args.retentionDays = none ∧ args.maxBytes = none

omit [DecidableEq J] in
/-- A call that does not delete the topic, and asks for no caps if it registers it -/
def Call.Leaves (slug : String) : Call J → Prop
  | .registering args _ | .merging args _ _ => args.slug = slug → args.CapsOpen
  | .deleting slug' => slug' ≠ slug
  | _ => True

omit [DecidableEq J] in
/-- An event that does not write the topic from elsewhere, does not delete it, and asks for no caps
if it registers it -/
def Event.Leaves (slug : String) : Event J → Prop
  | .registerTopic _ args => args.slug = slug → args.CapsOpen
  | .deleteTopic _ slug' | .elsewhere slug' _ => slug' ≠ slug
  | _ => True

lemma TopicRow.owned_writeBack {loaded changed : TopicRow J} (h : changed.owned = loaded.owned)
    (current : TopicRow J) : (loaded.writeBack changed current).owned = current.owned := by
  simp only [TopicRow.owned, Prod.mk.injEq] at h
  obtain ⟨⟨h₁, h₂⟩, ⟨h₃, h₄⟩, ⟨h₅, h₆⟩, h₇, h₈⟩ := h
  simp [TopicRow.owned, TopicRow.writeBack, h₁, h₂, h₃, h₄, h₅, h₆, h₇, h₈]

omit [DecidableEq J] in
lemma Registration.owned_merge {args : Registration J} (h : args.CapsOpen) (kind : StorageKind)
    (existing : TopicRow J) : (args.merge kind existing).owned = existing.owned := by
  simp [Registration.merge, TopicRow.owned, h.1, h.2]

/-- The topic is there with these columns, and no call that is waiting is about to change them. -/
structure Kept (slug : String)
    (owned : (Bool × Bool) × (Option ℤ × Option ℤ) × (Option ℚ × Option ℚ) × (ℤ × ℤ))
    (s : State J) : Prop where
  row : ∃ row, s.rows.get? slug = some row ∧ row.owned = owned
  calls : ∀ id call, s.calls.get? id = some call → call.Leaves slug

namespace Kept

variable {slug : String} {s : State J}
  {owned : (Bool × Bool) × (Option ℤ × Option ℤ) × (Option ℚ × Option ℚ) × (ℤ × ℤ)}

omit [DecidableEq J]

lemma wait (h : Kept slug owned s) (id : ℕ) {call : Call J} (hcall : call.Leaves slug) :
    Kept slug owned (s.wait id call) := by
  constructor
  case row => exact h.row
  case calls =>
    intro id' call' hget
    rw [State.wait, Dict.get?_set] at hget
    split_ifs at hget with hid
    · obtain rfl := Option.some.inj hget
      exact hcall
    · exact h.calls id' call' hget

lemma finish (h : Kept slug owned s) (id : ℕ) : Kept slug owned (s.finish id) := by
  constructor
  case row => exact h.row
  case calls =>
    intro id' call' hget
    rw [State.finish, Dict.get?_erase] at hget
    split_ifs at hget with hid
    exact h.calls id' call' hget

lemma write_of_ne (h : Kept slug owned s) {slug' : String} (hne : slug' ≠ slug)
    (row : Option (TopicRow J)) : Kept slug owned (s.write slug' row) := by
  constructor
  case row =>
    rw [State.write_rows_of_ne s row hne]
    exact h.row
  case calls => cases row <;> exact h.calls

lemma write_row (h : Kept slug owned s) {row : TopicRow J} (hrow : row.owned = owned) :
    Kept slug owned (s.write slug (some row)) :=
  ⟨⟨row, Dict.get?_set_self _ _ _, hrow⟩, h.calls⟩

lemma keep (h : Kept slug owned s) (asked : ℚ) (slug' : String) (row : Option (TopicRow J)) :
    Kept slug owned (s.keep asked slug' row) := by
  cases row <;> exact ⟨h.row, h.calls⟩

variable [DecidableEq J]

lemma commit (h : Kept slug owned s) (id : ℕ) {args : Registration J}
    (hargs : args.slug = slug → args.CapsOpen) (kind : StorageKind)
    (existing : Option (TopicRow J)) : Kept slug owned (s.commit id args kind existing) := by
  unfold State.commit
  split
  case h_1 hnone =>
    -- there is no such topic yet, so it is another one
    have hne : args.slug ≠ slug := by
      intro heq
      obtain ⟨row, hrow, -⟩ := h.row
      rw [heq, hrow] at hnone
      cases hnone
    exact (h.write_of_ne hne _).wait id trivial
  case h_2 => exact h.finish id
  case h_3 loaded current hcurrent =>
    refine Kept.wait ?_ id trivial
    by_cases heq : args.slug = slug
    · obtain ⟨row, hrow, howned⟩ := h.row
      have hsame : current = row := by
        rw [heq, hrow] at hcurrent
        exact (Option.some.inj hcurrent).symm
      have hmerge := Registration.owned_merge (hargs heq) kind loaded
      rw [heq]
      exact h.write_row ((TopicRow.owned_writeBack hmerge current).trans (hsame ▸ howned))
    · exact h.write_of_ne heq _
  case h_4 =>
    split_ifs
    · exact h.wait id trivial
    · exact h.finish id

lemma resume (h : Kept slug owned s) {id : ℕ} {call : Call J} (hcall : call.Leaves slug) :
    Kept slug owned (s.resume id call) := by
  cases call with
  | reading asked slug' => exact h.wait id trivial
  | read asked slug' row => exact (h.keep asked slug' row).finish id
  | registering args kind =>
    rw [State.resume]
    split_ifs
    · exact h.finish id
    · exact h.wait id hcall
  | merging args kind existing => exact h.commit id hcall kind existing
  | deleting slug' => exact (h.write_of_ne hcall none).wait id trivial
  | committed slug' =>
    have hcache : Kept slug owned (s.invalidateCache slug') := ⟨h.row, h.calls⟩
    exact hcache.finish id

lemma step (h : Kept slug owned s) {event : Event J} (hevent : event.Leaves slug) :
    Kept slug owned (TopicCatalog.step s event) := by
  cases event with
  | tick now => exact ⟨h.row, h.calls⟩
  | getTopic id slug' =>
    rw [TopicCatalog.step]
    split_ifs
    · exact h
    · exact h.wait id trivial
  | registerTopic id args =>
    rw [TopicCatalog.step]
    split
    · exact h
    · split_ifs
      · exact h
      · exact h.wait id hevent
  | deleteTopic id slug' =>
    rw [TopicCatalog.step]
    split_ifs
    · exact h
    · exact h.wait id hevent
  | resume id =>
    cases hget : s.calls.get? id with
    | none => simpa [TopicCatalog.step, hget] using h
    | some call => simpa [TopicCatalog.step, hget] using h.resume (h.calls id call hget)
  | fail id => exact h.finish id
  | invalidate slug' => exact ⟨h.row, h.calls⟩
  | elsewhere slug' row => exact h.write_of_ne hevent row

end Kept

/-- However often the recorders register a topic that is there, and however their registrations
overlap with each other and with other calls, its switches, its caps, its counters and the times of
its last publication and replay stay as they are: a topic that the operator has switched off stays
off. -/
theorem register_keeps_operator {pre post : List (Event J)} {slug : String} {row : TopicRow J}
    (hrow : (run pre).rows.get? slug = some row)
    (hcalls : ∀ id call, (run pre).calls.get? id = some call → call.Leaves slug)
    (hpost : ∀ event ∈ post, event.Leaves slug) :
    ∃ row', (run (pre ++ post)).rows.get? slug = some row' ∧ row'.owned = row.owned := by
  have hkept : Kept slug row.owned (run (pre ++ post)) := by
    induction post using List.reverseRecOn with
    | nil =>
      rw [List.append_nil]
      exact ⟨⟨row, hrow, rfl⟩, hcalls⟩
    | append_singleton post event ih =>
      rw [← List.append_assoc, run_snoc]
      have hbefore := ih fun event' hmem => hpost event' (List.mem_append_left _ hmem)
      exact hbefore.step (hpost event (by simp))
  exact hkept.row

/-! ## A registration and a switch -/

/-- A recorder announces itself. -/
def newsRegistration : Registration ℕ where
  slug := "news.update"
  title := "News"
  storageKind := "parquet"
  storageUri := some "bus/news.update"
  publishers := ["news_worker"]

/-- The topic as the operator has switched it off -/
def newsOff : TopicRow ℕ := { newsRegistration.newRow .parquet with enabled := false }

/-- The topic is registered and asked for once. -/
def registered : List (Event ℕ) :=
  [.registerTopic 0 newsRegistration, .resume 0, .resume 0, .resume 0, .getTopic 1 "news.update",
    .resume 1, .resume 1]

/-- Another process switches the topic off. -/
def switchedOff : List (Event ℕ) := registered ++ [.elsewhere "news.update" (some newsOff)]

/-- Five seconds later the topic is asked for again. -/
def askedLater : List (Event ℕ) := [.tick 5, .getTopic 2 "news.update", .resume 2]

theorem answer_recent_registered :
    ∃ pre, pre <+: registered ∧ 0 - cacheTtlSeconds < (run pre).now ∧
      (run pre).spec? "news.update" = some (.fromRow (newsRegistration.newRow .parquet)) := by
  have hkept : answer (run registered) (.getTopic 2 "news.update") =
      some ⟨0, "news.update", some (.fromRow (newsRegistration.newRow .parquet))⟩ := by
    decide +kernel
  exact answer_recent hkept

theorem requireTopic_refuses_switchedOff :
    ∃ err, requireTopic (some (.fromRow newsOff)) = .error err := by
  have hasked : answer (run (switchedOff ++ askedLater)) (.resume 2) =
      some ⟨5, "news.update", some (.fromRow newsOff)⟩ := by
    decide +kernel
  have hall : ∀ rest ∈ askedLater.inits,
      (run (switchedOff ++ rest)).spec? "news.update" = some (.fromRow newsOff) := by
    decide +kernel
  refine requireTopic_refuses (fun q hpre hq spec hspec => ?_) hasked (by decide +kernel)
  obtain ⟨rest, rfl⟩ := hpre
  have hrest := (List.mem_inits _ _).2 ((List.prefix_append_right_inj _).1 hq)
  obtain rfl := Option.some.inj ((hall rest hrest).symm.trans hspec)
  rfl

/-- The operator's renaming of the topic, up to the point where it is in the table -/
def renamed : List (Event ℕ) :=
  registered ++ [.registerTopic 2 { newsRegistration with title := "Newswire" }, .resume 2,
    .resume 2]

/-- The topic as it reads then -/
def newswire : TopicRow ℕ :=
  { newsRegistration.newRow .parquet with title := "Newswire" }

theorem answer_after_write_renamed :
    ∃ q, renamed <+: q ∧ q <+: renamed ++ [.resume 2, .getTopic 3 "news.update", .resume 3] ∧
      (run q).spec? "news.update" = some (.fromRow newswire) := by
  have hasked : answer (run (renamed ++ .resume 2 :: [.getTopic 3 "news.update", .resume 3]))
      (.resume 3) = some ⟨0, "news.update", some (.fromRow newswire)⟩ := by
    decide +kernel
  have hcalls : (run renamed).calls.entries.map Prod.fst = [2] := by decide +kernel
  have hwrite : (run renamed).calls.get? 2 = some (.committed "news.update") := by rfl
  refine answer_after_write hwrite (fun id' asked row hget => ?_) hasked
  have hid : id' ∈ (run renamed).calls.keys := Dict.mem_keys.2 ⟨_, hget⟩
  rw [Dict.keys, hcalls, List.mem_singleton] at hid
  rw [hid, hwrite] at hget
  cases hget

/-- A call that has fetched the row before the new title was in the table, and keeps it after the
registration is through, makes the process miss its own write for a while. -/
example :
    answer (run (registered ++ [.tick 6, .getTopic 3 "news.update", .resume 3,
      .registerTopic 2 { newsRegistration with title := "Newswire" }, .resume 2, .resume 2,
      .resume 2, .resume 3])) (.getTopic 4 "news.update") =
      some ⟨6, "news.update", some (.fromRow (newsRegistration.newRow .parquet))⟩ := by
  decide +kernel

theorem register_keeps_operator_restarted :
    ∃ row', (run (switchedOff ++ [.registerTopic 5 newsRegistration, .resume 5, .resume 5,
      .resume 5])).rows.get? "news.update" = some row' ∧ row'.owned = newsOff.owned := by
  have hnone : (run switchedOff).calls.entries.map Prod.fst = [] := by decide +kernel
  refine register_keeps_operator (by decide +kernel) (fun id call hget => ?_) ?_
  · have hid : id ∈ (run switchedOff).calls.keys := Dict.mem_keys.2 ⟨_, hget⟩
    rw [Dict.keys, hnone] at hid
    cases hid
  · intro event hevent
    simp only [List.mem_cons, List.not_mem_nil, or_false] at hevent
    rcases hevent with rfl | rfl | rfl | rfl
    · exact fun _ => ⟨rfl, rfl⟩
    · trivial
    · trivial
    · trivial

end Evosport.RecordedBus.TopicCatalog
