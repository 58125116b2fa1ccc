/-
The envelope of a recorded observation and the row of a parquet file that keeps it.

`RecordedEvent.__post_init__` refuses an envelope that breaks one of its rules, so an event carries
the proof that it keeps them.  A row holds the columns of `RECORDED_EVENT_SCHEMA`, the payload as
compact JSON.  Whatever event the writer turns into a row, the reader finds it again in the row
(`event?_toRow`).
-/
import Evosport.Lib.JsonParse
import Mathlib.Data.Prod.Lex

namespace Evosport.RecordedBus

open Lib

/-- The characters `[a-z0-9_]`. -/
def isPartChar (c : Char) : Bool := ('a' ≤ c && c ≤ 'z') || c.isDigit || c == '_'

/-- What may follow the first character of a part: `[a-z0-9_]*$`.  The `$` also matches in front of
a final line feed. -/
def isPartRest : List Char → Bool
  | [] => true
  | ['\n'] => true
  | c :: cs => isPartChar c && isPartRest cs

/-- One dotted part of a topic name, `^[a-z][a-z0-9_]*$`. -/
def isTopicPart : List Char → Bool
  | c :: cs => 'a' ≤ c && c ≤ 'z' && isPartRest cs
  | [] => false

/-- The parts of a topic name, if it is one. -/
def parseTopic (topic : String) : Option (List (List Char)) :=
  let parts := topic.toList.splitOn '.'
  if 2 ≤ parts.length ∧ parts.length ≤ 5 ∧ parts.all isTopicPart then some parts else none

variable {F : Type}

/-- The fields of an envelope.  The payload is the list of its members in their order. -/
structure Envelope (F : Type) where
  topic : String
  entityId : String
  observedAtUs : ℤ
  payload : List (String × Json F)
  source : String
  sequence : Option ℤ
  ingestedAtUs : ℤ
  schemaVersion : ℤ

/-- The rules of `__post_init__`. -/
structure Envelope.Valid (e : Envelope F) : Prop where
  topic : (parseTopic e.topic).isSome
  entityId : e.entityId ≠ ""
  observedAtUs : 0 < e.observedAtUs
  ingestedAtUs : 0 < e.ingestedAtUs
  notBackdated : e.observedAtUs ≤ e.ingestedAtUs + 1000000
  source : e.source ≠ ""
  schemaVersion : 1 ≤ e.schemaVersion

instance (e : Envelope F) : Decidable e.Valid :=
  decidable_of_iff ((parseTopic e.topic).isSome ∧ e.entityId ≠ "" ∧ 0 < e.observedAtUs ∧
      0 < e.ingestedAtUs ∧ e.observedAtUs ≤ e.ingestedAtUs + 1000000 ∧ e.source ≠ "" ∧
      1 ≤ e.schemaVersion)
    ⟨fun ⟨h₁, h₂, h₃, h₄, h₅, h₆, h₇⟩ => ⟨h₁, h₂, h₃, h₄, h₅, h₆, h₇⟩,
      fun h => ⟨h.1, h.2, h.3, h.4, h.5, h.6, h.7⟩⟩

/-- A recorded event: an envelope that keeps the rules. -/
structure RecordedEvent (F : Type) extends Envelope F where
  valid : toEnvelope.Valid

lemma RecordedEvent.ext {e e' : RecordedEvent F} (h : e.toEnvelope = e'.toEnvelope) : e = e' := by
  cases e
  cases e'
  congr

/-- The clock by which a window replays. -/
inductive TimeField where
  | observedAtUs
  | ingestedAtUs
deriving DecidableEq

namespace RecordedEvent

/-- `getattr(ev, time_attr)`. -/
def time (field : TimeField) (e : RecordedEvent F) : ℤ :=
  match field with
  | .observedAtUs => e.observedAtUs
  | .ingestedAtUs => e.ingestedAtUs

/-- Time and sequence, a missing sequence counting as zero. -/
def timeSeq (field : TimeField) (e : RecordedEvent F) : ℤ ×ₗ ℤ :=
  toLex (e.time field, e.sequence.getD 0)

/-- The order of a replay's merges, `_entity_order_key` and `_replay_order_key`. -/
def orderKey (field : TimeField) (e : RecordedEvent F) : (ℤ ×ₗ ℤ) ×ₗ (String ×ₗ String) :=
  toLex (e.timeSeq field, toLex (e.topic, e.entityId))

lemma timeSeq_le_of_orderKey {field : TimeField} {e e' : RecordedEvent F}
    (h : e.orderKey field ≤ e'.orderKey field) : e.timeSeq field ≤ e'.timeSeq field :=
  Prod.Lex.monotone_fst _ _ h

end RecordedEvent

/-- One row of a parquet file. -/
structure Row where
  topic : String
  entityId : String
  observedAtUs : ℤ
  ingestedAtUs : ℤ
  source : String
  sequence : Option ℤ
  schemaVersion : ℤ
  payloadJson : List Char
deriving DecidableEq

namespace Row

/-- The column that the window names. -/
def time (field : TimeField) (r : Row) : ℤ :=
  match field with
  | .observedAtUs => r.observedAtUs
  | .ingestedAtUs => r.ingestedAtUs

/-- The columns are 64-bit integers, the schema version a 32-bit one. -/
def Fits (r : Row) : Prop :=
  (-2 ^ 63 ≤ r.observedAtUs ∧ r.observedAtUs < 2 ^ 63) ∧
    (-2 ^ 63 ≤ r.ingestedAtUs ∧ r.ingestedAtUs < 2 ^ 63) ∧
    (-2 ^ 63 ≤ r.sequence.getD 0 ∧ r.sequence.getD 0 < 2 ^ 63) ∧
    (-2 ^ 31 ≤ r.schemaVersion ∧ r.schemaVersion < 2 ^ 31)

instance (r : Row) : Decidable r.Fits := inferInstanceAs (Decidable (_ ∧ _ ∧ _ ∧ _))

variable [PyFloat F]

/-- The payload that a reader decodes: an empty object where the text is missing or broken. -/
def payload (r : Row) : Json F :=
  (Json.loads (if r.payloadJson = [] then "{}".toList else r.payloadJson)).getD (.obj [])

/-- The event that `_read_file_rows` makes of a row; an invalid row is skipped. -/
def event? (r : Row) : Option (RecordedEvent F) :=
  match (r.payload : Json F) with
  | .obj members =>
    let e : Envelope F :=
      { topic := r.topic
        entityId := r.entityId
        observedAtUs := r.observedAtUs
        payload := members
        source := if r.source = "" then "unknown" else r.source
        sequence := r.sequence
        ingestedAtUs := r.ingestedAtUs
        schemaVersion := if r.schemaVersion = 0 then 1 else r.schemaVersion }
    if h : e.Valid then some ⟨e, h⟩ else none
  | _ => none

end Row

variable [PyFloat F]

/-- The row that `_write_parquet_batch` writes for an event. -/
def RecordedEvent.toRow (e : RecordedEvent F) : Row where
  topic := e.topic
  entityId := e.entityId
  observedAtUs := e.observedAtUs
  ingestedAtUs := e.ingestedAtUs
  source := e.source
  sequence := e.sequence
  schemaVersion := e.schemaVersion
  payloadJson := Json.text Json.escapeAscii (.obj e.payload)

lemma time_toRow (field : TimeField) (e : RecordedEvent F) :
    e.toRow.time field = e.time field := by
  cases field <;> rfl

lemma payload_toRow (e : RecordedEvent F) : (e.toRow.payload : Json F) = .obj e.payload := by
  have hne : e.toRow.payloadJson ≠ [] := by simp [RecordedEvent.toRow, Json.text]
  have hnone : ∀ c ∈ ([] : List Char), Json.isSpace c = true := by simp
  have hloads := Json.loads_text Json.escapes_escapeAscii (.obj e.payload : Json F) hnone
  rw [List.append_nil] at hloads
  rw [Row.payload, if_neg hne]
  change (Json.loads (Json.text Json.escapeAscii (.obj e.payload : Json F))).getD (.obj []) = _
  rw [hloads, Option.getD_some]

/-- A row gives back the event that it was written for. -/
theorem event?_toRow (e : RecordedEvent F) : e.toRow.event? = some e := by
  have hversion := e.valid.schemaVersion
  have henvelope : ({
      topic := e.toRow.topic
      entityId := e.toRow.entityId
      observedAtUs := e.toRow.observedAtUs
      payload := e.payload
      source := if e.toRow.source = "" then "unknown" else e.toRow.source
      sequence := e.toRow.sequence
      ingestedAtUs := e.toRow.ingestedAtUs
      schemaVersion := if e.toRow.schemaVersion = 0 then 1 else e.toRow.schemaVersion } :
      Envelope F) = e.toEnvelope := by
    rw [if_neg (show e.toRow.source ≠ "" from e.valid.source),
      if_neg (show e.toRow.schemaVersion ≠ 0 by change e.schemaVersion ≠ 0; omega)]
    rfl
  unfold Row.event?
  simp only [payload_toRow, henvelope, e.valid, ↓reduceDIte]

end Evosport.RecordedBus
