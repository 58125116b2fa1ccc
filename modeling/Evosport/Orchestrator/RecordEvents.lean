/-
What the events of a journal leave alone: the pairs that its index has, the intents that await a
result, and what is known of every record in the log and among the open intents (`Records`).
-/
import Evosport.Orchestrator.Durability

namespace Evosport.Orchestrator

open Lib

variable {F : Type} (lower : String → String)

namespace IntentJournal

variable {j : IntentJournal F} {rec rec' : Json F} {traderId signalId : String}

/-- No record takes a pair off the index. -/
lemma hasIntent_applyRecord (h : j.hasIntent traderId signalId = true) :
    (j.applyRecord lower rec).hasIntent traderId signalId = true := by
  have hset : ∀ pair state,
      (j.index.set pair state).contains (traderId, signalId) = true := by
    intro pair state
    rw [Dict.contains, Dict.get?_set]
    split_ifs
    · rfl
    · exact h
  rcases applyRecord_cases lower j rec with ⟨pair, -, -, heq⟩ | ⟨pair, -, -, -, -, heq⟩ |
    ⟨pair, -, heq⟩ | heq
  all_goals rw [heq]
  · exact hset pair .opened
  · exact hset pair .done
  · exact hset pair .opened
  · exact h

lemma mem_openIntents_applyRecord (h : rec' ∈ (j.applyRecord lower rec).openIntents) :
    rec' = rec ∨ rec' ∈ j.openIntents := by
  rcases applyRecord_cases lower j rec with ⟨pair, -, -, heq⟩ | ⟨pair, -, -, -, -, heq⟩ |
    ⟨pair, -, heq⟩ | heq
  all_goals rw [heq] at h
  · obtain ⟨pair', hpair'⟩ := Dict.mem_values.1 h
    rw [Dict.get?_set] at hpair'
    split_ifs at hpair'
    · exact .inl (Option.some.inj hpair').symm
    · exact .inr (Dict.mem_values.2 ⟨pair', hpair'⟩)
  · obtain ⟨pair', hpair'⟩ := Dict.mem_values.1 h
    rw [Dict.get?_erase] at hpair'
    split_ifs at hpair'
    exact .inr (Dict.mem_values.2 ⟨pair', hpair'⟩)
  · exact .inr h
  · exact .inr h

lemma mem_openIntents_foldl {recs : List (Json F)}
    (h : rec ∈ (recs.foldl (IntentJournal.applyRecord lower) j).openIntents) :
    rec ∈ recs ∨ rec ∈ j.openIntents := by
  induction recs generalizing j with
  | nil => exact .inr h
  | cons rec' recs ih =>
    rcases ih h with hmem | hmem
    · exact .inl (List.mem_cons_of_mem rec' hmem)
    · refine (mem_openIntents_applyRecord lower hmem).imp_left ?_
      rintro rfl
      exact List.mem_cons_self

/-- A pair with an open intent is on the index. -/
lemma Indexed.hasIntent (hj : j.Indexed) {pair : Pair} (h : j.Opens pair) :
    j.hasIntent pair.1 pair.2 = true :=
  Knows.hasIntent (.inr h) hj

end IntentJournal

open IntentJournal

/-! ## Ids -/

/-- The pair of a record, of an intent or of a result. -/
lemma pairOf_eq_some {rec : Json F} {traderId signalId : String} {pair : Pair}
    (htrader : rec.get? "tr" = some (.str traderId))
    (hsignal : rec.get? "sig" = some (.str signalId)) (h : pairOf rec = some pair) :
    pair = (traderId, signalId) := by
  obtain ⟨t, ht, h⟩ := Option.bind_eq_some_iff.1 h
  obtain ⟨g, hg, rfl⟩ := Option.map_eq_some_iff.1 h
  rw [idOf, htrader] at ht
  rw [idOf, hsignal] at hg
  dsimp only at ht hg
  split_ifs at ht hg
  cases ht
  cases hg
  rfl

lemma pairOf_intent {args : IntentArgs F} (htrader : args.traderId ≠ "")
    (hsignal : args.signalId ≠ "") :
    pairOf args.record = some (args.traderId, args.signalId) := by
  have ht : idOf args.record "tr" = if args.traderId = "" then none else some args.traderId := rfl
  have hs : idOf args.record "sig" = if args.signalId = "" then none else some args.signalId := rfl
  rw [pairOf, ht, hs, if_neg htrader, if_neg hsignal]
  rfl

/-- Records that are all objects leave the index in order. -/
lemma indexed_foldlM {recs : List (Json F)} {j j' : IntentJournal F} (hj : j.Indexed)
    (h : recs.foldlM (loadRecord lower) j = some j') : j'.Indexed := by
  induction recs generalizing j with
  | nil =>
    cases h
    exact hj
  | cons rec recs ih =>
    obtain ⟨j₁, hj₁, h⟩ := Option.bind_eq_some_iff.1 h
    unfold loadRecord at hj₁
    split_ifs at hj₁ with hobject
    cases hj₁
    exact ih (hj.applyRecord lower hobject) h

section Events

variable [PyFloat F]

/-! ## The process -/

/-- The index that a start finds is in order, whatever the log. -/
lemma indexed_load {log : List Char} {j : IntentJournal F} (h : load lower log = some j) :
    j.Indexed := by
  obtain ⟨j', hj', rfl⟩ := Option.map_eq_some_iff.1 h
  have hindexed := indexed_foldlM lower indexed_empty hj'
  exact ⟨hindexed.opened, hindexed.record⟩

/-- The index and the open intents behind an append, with or without a compaction. -/
lemma journal_append {w : World F} {j : IntentJournal F} (hj : w.journal = some j) (rec : Json F)
    (fsync : Bool) : ∃ j', (w.append lower rec fsync).journal = some j' ∧
      j'.index = (j.applyRecord lower rec).index ∧
      j'.openRecords = (j.applyRecord lower rec).openRecords := by
  simp only [World.append, hj]
  split_ifs
  · exact ⟨_, rfl, rfl, rfl⟩
  · exact ⟨_, rfl, rfl, rfl⟩

/-- An append keeps the index in order, keeps the intents open that the record does not resolve, and
opens the pair of an intent. -/
lemma opens_append {w : World F} {j : IntentJournal F} (hj : w.journal = some j)
    (hindexed : j.Indexed) (rec : Json F) (hobject : isObject rec = true) (fsync : Bool) :
    ∃ j', (w.append lower rec fsync).journal = some j' ∧ j'.Indexed ∧
      (∀ pair, j.Opens pair → ¬Resolves lower rec pair → j'.Opens pair) ∧
      ∀ pair, pairOf rec = some pair → isIntent rec = true → j'.Opens pair := by
  obtain ⟨j', hj', hindex, hrecords⟩ := journal_append lower hj rec fsync
  have hopens : ∀ pair, (j.applyRecord lower rec).Opens pair → j'.Opens pair := by
    rintro pair ⟨rec', hrec'⟩
    exact ⟨rec', hrecords ▸ hrec'⟩
  refine ⟨j', hj', ?_, fun pair hopen hnot => hopens pair (hopen.applyRecord lower hnot),
    fun pair hpair hintent => hopens pair (opens_applyRecord lower hpair hintent)⟩
  have happly := hindexed.applyRecord lower hobject
  constructor
  · rintro pair ⟨rec', hrec'⟩
    rw [hindex]
    exact happly.opened pair ⟨rec', hrecords ▸ hrec'⟩
  · intro pair rec' hrec'
    exact happly.record pair rec' (hrecords ▸ hrec')

/-- The event ends the process or begins one. -/
def Event.restarts : Event F → Bool
  | .recordIntent _ => false
  | .recordResult _ => false
  | .compact => false
  | _ => true

/-- As long as a process runs, its index loses no pair. -/
lemma journal_step {r : Run F} {e : Event F} (he : e.restarts = false) {j : IntentJournal F}
    (hj : r.world.journal = some j) : ∃ j', (r.step lower e).world.journal = some j' ∧
      ∀ traderId signalId, j.hasIntent traderId signalId = true →
        j'.hasIntent traderId signalId = true := by
  cases e with
  | recordIntent args =>
    obtain ⟨j', hj', hindex, -⟩ := journal_append lower hj args.record true
    refine ⟨j', hj', fun t g h => ?_⟩
    rw [hasIntent, hindex]
    exact hasIntent_applyRecord lower h
  | recordResult args =>
    obtain ⟨j', hj', hindex, -⟩ := journal_append lower hj (args.record lower) false
    refine ⟨j', hj', fun t g h => ?_⟩
    rw [hasIntent, hindex]
    exact hasIntent_applyRecord lower h
  | compact =>
    refine ⟨{ j with bytesWritten := (journalFormat.write j.openIntents).length }, ?_,
      fun t g h => h⟩
    simp only [Run.step, World.step, World.compact, hj]
  | _ => cases he

/-! ## What awaits a result -/

omit [PyFloat F] in
lemma awaiting_dropResolved (w : World F) (l : Ledger) :
    (Run.dropResolved w l).awaiting = l.awaiting := by
  unfold Run.dropResolved
  split <;> rfl

lemma awaiting_afterAppend (w : World F) (rec : Json F) (fsync : Bool) (l : Ledger) :
    (Run.afterAppend lower w rec fsync l).awaiting = l.awaiting := by
  unfold Run.afterAppend
  split
  · rfl
  · dsimp only
    split
    · exact awaiting_dropResolved _ l
    · rfl

omit [PyFloat F] in
lemma mem_awaiting_settle {args : ResultArgs F} {l : Ledger} {q : Pair} (hq : q ∈ l.awaiting)
    (hne : q ≠ (args.traderId, args.signalId)) :
    q ∈ (Run.settle lower (args.record lower) l).awaiting := by
  unfold Run.settle
  split
  · exact hq
  next pair hpair =>
    split
    · refine List.mem_filter.2 ⟨hq, ?_⟩
      rw [pairOf_eq_some rfl rfl hpair]
      simpa using hne
    · exact hq

/-- An intent that awaits a result still does behind an event that is not its result. -/
lemma mem_awaiting_step {r : Run F} {e : Event F} {q : Pair} (hq : q ∈ r.ledger.awaiting)
    (hresult : ∀ args, e = .recordResult args → q ≠ (args.traderId, args.signalId))
    (hcrash : ∀ args kept, e = .crashInResult args kept → q ≠ (args.traderId, args.signalId)) :
    q ∈ (r.step lower e).ledger.awaiting := by
  cases e with
  | recordIntent args =>
    show q ∈ (if r.world.journal.isSome then _ else _ : Ledger).awaiting
    split
    · rw [awaiting_afterAppend]
      unfold Run.owe
      split
      · exact hq
      · exact List.mem_cons_of_mem _ hq
    · exact hq
  | recordResult args =>
    show q ∈ (if r.world.journal.isSome then _ else _ : Ledger).awaiting
    split
    · rw [awaiting_afterAppend]
      exact mem_awaiting_settle lower hq (hresult args rfl)
    · exact hq
  | compact =>
    show q ∈ (Run.dropResolved r.world r.ledger).awaiting
    rwa [awaiting_dropResolved]
  | crashInResult args kept =>
    show q ∈ (if r.world.journal.isSome then _ else _ : Ledger).awaiting
    split
    · exact mem_awaiting_settle lower hq (hcrash args kept rfl)
    · exact hq
  | _ => exact hq

/-- An intent that is recorded awaits its result. -/
lemma mem_awaiting_recordIntent {r : Run F} {args : IntentArgs F}
    (hj : r.world.journal.isSome = true) (htrader : args.traderId ≠ "")
    (hsignal : args.signalId ≠ "") :
    (args.traderId, args.signalId) ∈ (r.step lower (.recordIntent args)).ledger.awaiting := by
  show _ ∈ (if r.world.journal.isSome then _ else _ : Ledger).awaiting
  rw [if_pos hj, awaiting_afterAppend, Run.owe, pairOf_intent htrader hsignal]
  exact List.mem_cons_self

/-! ## Records -/

/-- What is known of every record that a start would find in the log, and of every open intent. -/
structure Records (P : Json F → Prop) (w : World F) : Prop where
  log : ∀ rec ∈ (journalFormat.read w.log : List (Json F)), P rec
  openIntents : ∀ j, w.journal = some j → ∀ rec ∈ j.openIntents, P rec

/-- The record that an event writes. -/
def Event.record : Event F → Option (Json F)
  | .recordIntent args => some args.record
  | .recordResult args => some (args.record lower)
  | .crashInIntent args _ => some args.record
  | .crashInResult args _ => some (args.record lower)
  | _ => none

namespace Records

variable {P : Json F → Prop} {w : World F} {j : IntentJournal F} {rec : Json F}

lemma compact (h : Records P w) (hindexed : ∀ j, w.journal = some j → j.Indexed) :
    Records P w.compact := by
  unfold World.compact
  cases hj : w.journal with
  | none => exact h
  | some j =>
    have hvalid : ∀ rec ∈ j.openIntents, journalFormat.valid rec :=
      isObject_openIntents (hindexed j hj)
    constructor
    · show ∀ rec ∈ journalFormat.read (journalFormat.write j.openIntents ++ []), P rec
      rw [List.append_nil, LineFormat.read_write hvalid]
      exact h.openIntents j hj
    · rintro j' ⟨⟩
      exact h.openIntents j hj

lemma append (h : Records P w) (hindexed : ∀ j, w.journal = some j → j.Indexed)
    (hwhole : LineFormat.Whole w.log) (hobject : isObject rec = true) (hrec : P rec)
    (fsync : Bool) : Records P (w.append lower rec fsync) := by
  unfold World.append
  cases hj : w.journal with
  | none => exact h
  | some j =>
    have hlog : (w.write lower j rec fsync).log = w.log ++ journalFormat.line rec := by
      cases fsync <;> simp [World.log, World.write]
    have hwrite : Records P (w.write lower j rec fsync) := by
      constructor
      · rw [hlog, hwhole.read_append, LineFormat.read_line hobject]
        exact List.forall_mem_append.2 ⟨h.log, List.forall_mem_singleton.2 hrec⟩
      · rintro j' ⟨⟩ rec' hrec'
        rcases mem_openIntents_applyRecord lower hrec' with rfl | hmem
        · exact hrec
        · exact h.openIntents j hj rec' hmem
    dsimp only
    split
    · refine hwrite.compact ?_
      rintro j' ⟨⟩
      have happly := (hindexed j hj).applyRecord lower hobject
      exact ⟨happly.opened, happly.record⟩
    · exact hwrite

lemma crash {S U : List (Json F)} (hlog : LogHolds w S U) (h : ∀ rec ∈ S ++ U, P rec) (kept : ℕ) :
    Records P (w.crash kept) := by
  obtain ⟨pre, hpre, hread⟩ := hlog.read_take kept
  constructor
  · show ∀ rec ∈ journalFormat.read (w.synced ++ w.unsynced.take kept ++ []), P rec
    rw [List.append_nil, hread]
    rw [List.forall_mem_append] at h ⊢
    exact ⟨h.1, fun rec hrec => h.2 rec (hpre.subset hrec)⟩
  · rintro j ⟨⟩

lemma crashInAppend {S U : List (Json F)} (h : Records P w) (hlog : LogHolds w S U)
    (hwhole : LineFormat.Whole w.log) (hobject : isObject rec = true) (hrec : P rec) (kept : ℕ) :
    Records P (w.crashInAppend rec kept) := by
  unfold World.crashInAppend
  cases hj : w.journal with
  | none => exact h
  | some j =>
    have hall : ∀ rec ∈ S ++ U, P rec := hlog.read_log ▸ h.log
    refine crash (hlog.append hwhole hobject w.journal) ?_ kept
    rw [← List.append_assoc, List.forall_mem_append]
    exact ⟨hall, List.forall_mem_singleton.2 hrec⟩

lemma reload {S U : List (Json F)} (h : Records P w) (hlog : LogHolds w S U) :
    Records P (w.reload lower) := by
  have hload := load_of_objects lower (hlog.read_log ▸ hlog.objects)
  refine ⟨h.log, fun j hj rec hrec => h.log rec ?_⟩
  cases (hload.symm.trans hj : some _ = some j)
  exact (mem_openIntents_foldl lower hrec).resolve_right List.not_mem_nil

/-- One event, of a record that is known of. -/
lemma step {r : Run F} {S U : List (Json F)} (h : Records P r.world) (hinv : Inv lower r S U)
    {e : Event F} (he : BehindWholeLine r e) (hrec : ∀ rec ∈ e.record lower, P rec) :
    Records P (r.step lower e).world := by
  cases e with
  | recordIntent args => exact h.append lower hinv.indexed he rfl (hrec _ rfl) true
  | recordResult args => exact h.append lower hinv.indexed he rfl (hrec _ rfl) false
  | compact => exact h.compact hinv.indexed
  | reload => exact h.reload lower hinv.log
  | crash kept => exact crash hinv.log (hinv.log.read_log ▸ h.log) kept
  | crashInIntent args kept => exact h.crashInAppend hinv.log he rfl (hrec _ rfl) kept
  | crashInResult args kept => exact h.crashInAppend hinv.log he rfl (hrec _ rfl) kept

end Records

end Events

end Evosport.Orchestrator
