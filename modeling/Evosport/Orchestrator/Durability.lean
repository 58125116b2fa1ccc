/-
What the intent journal remembers.

Beside the journal runs a ledger of what it owes: the pairs whose intent was recorded, those that
are owed also after the next start, and those whose intent awaits a result.  Compaction drops from
the log what the process knows to be resolved, so a resolved pair is owed only until the next start
after a compaction.  A run in which no record is appended behind a torn line keeps the ledger
(`remembers_intents`), whatever a crash cuts off of what was not synced.

The invariant speaks about the records that the loader finds in the synced part of the log, and
about the records that were written behind it.
-/
import Evosport.Lib.Run
import Evosport.Orchestrator.IntentJournal

namespace Evosport.Orchestrator

open Lib

variable {F : Type} (lower : String → String)

/-! ## Single records -/

namespace IntentJournal

variable {j : IntentJournal F} {rec : Json F} {pair : Pair}

/-- The intent of the pair is open. -/
def Opens (j : IntentJournal F) (pair : Pair) : Prop := ∃ rec, j.openRecords.get? pair = some rec

/-- The pair is resolved or its intent is open. -/
def Knows (j : IntentJournal F) (pair : Pair) : Prop :=
  j.index.get? pair = some .done ∨ j.Opens pair

/-- Every open record is the intent record of its pair and is indexed as open. -/
structure Indexed (j : IntentJournal F) : Prop where
  opened : ∀ pair, j.Opens pair → j.index.get? pair = some .opened
  record : ∀ pair rec, j.openRecords.get? pair = some rec →
    isObject rec = true ∧ isIntent rec = true ∧ pairOf rec = some pair

lemma Knows.hasIntent (h : j.Knows pair) (hj : j.Indexed) : j.hasIntent pair.1 pair.2 = true := by
  rw [IntentJournal.hasIntent, Dict.contains]
  rcases h with hdone | hopen
  · simp [hdone]
  · simp [hj.opened pair hopen]

/-- What a record does to the index: it opens a pair, resolves one, or indexes as open a pair that
was unknown. -/
lemma applyRecord_cases (j : IntentJournal F) (rec : Json F) :
    (∃ pair, pairOf rec = some pair ∧ isIntent rec = true ∧ j.applyRecord lower rec =
      { j with index := j.index.set pair .opened, openRecords := j.openRecords.set pair rec }) ∨
    (∃ pair, pairOf rec = some pair ∧ isIntent rec = false ∧ isResult rec = true ∧
      isTerminal lower rec = true ∧ j.applyRecord lower rec =
        { j with index := j.index.set pair .done, openRecords := j.openRecords.erase pair }) ∨
    (∃ pair, j.index.get? pair = none ∧
      j.applyRecord lower rec = { j with index := j.index.set pair .opened }) ∨
    j.applyRecord lower rec = j := by
  unfold applyRecord
  cases hpair : pairOf rec with
  | none => exact .inr (.inr (.inr rfl))
  | some pair =>
    dsimp only
    split_ifs with hintent hresult hterminal hindex
    · exact .inl ⟨pair, rfl, hintent, rfl⟩
    · exact .inr (.inl ⟨pair, rfl, by simpa using hintent, hresult, hterminal, rfl⟩)
    · exact .inr (.inr (.inr rfl))
    · refine .inr (.inr (.inl ⟨pair, ?_, rfl⟩))
      simpa [Dict.contains] using hindex
    · exact .inr (.inr (.inr rfl))

/-- The record resolves the pair. -/
def Resolves (rec : Json F) (pair : Pair) : Prop :=
  pairOf rec = some pair ∧ isResult rec = true ∧ isTerminal lower rec = true

lemma indexed_empty : (empty : IntentJournal F).Indexed where
  opened := by rintro pair ⟨rec, ⟨⟩⟩
  record := by rintro pair rec ⟨⟩

lemma Indexed.applyRecord (hj : j.Indexed) (hrec : isObject rec = true) :
    (j.applyRecord lower rec).Indexed := by
  rcases applyRecord_cases lower j rec with ⟨pair, hpair, hintent, heq⟩ | ⟨pair, -, -, -, -, heq⟩ |
    ⟨pair, hnone, heq⟩ | heq
  all_goals rw [heq]
  · constructor
    · rintro pair' ⟨rec', hrec'⟩
      by_cases hp : pair = pair'
      · subst hp
        exact Dict.get?_set_self _ _ _
      · rw [Dict.get?_set_of_ne _ _ hp] at hrec' ⊢
        exact hj.opened pair' ⟨rec', hrec'⟩
    · intro pair' rec' hrec'
      by_cases hp : pair = pair'
      · subst hp
        rw [Dict.get?_set_self] at hrec'
        cases hrec'
        exact ⟨hrec, hintent, hpair⟩
      · rw [Dict.get?_set_of_ne _ _ hp] at hrec'
        exact hj.record pair' rec' hrec'
  · constructor
    · rintro pair' ⟨rec', hrec'⟩
      by_cases hp : pair = pair'
      · subst hp
        simp at hrec'
      · rw [Dict.get?_erase_of_ne _ hp] at hrec'
        rw [Dict.get?_set_of_ne _ _ hp]
        exact hj.opened pair' ⟨rec', hrec'⟩
    · intro pair' rec' hrec'
      by_cases hp : pair = pair'
      · subst hp
        simp at hrec'
      · rw [Dict.get?_erase_of_ne _ hp] at hrec'
        exact hj.record pair' rec' hrec'
  · refine ⟨fun pair' hopen => ?_, hj.record⟩
    have hopened := hj.opened pair' hopen
    have hp : pair ≠ pair' := by
      rintro rfl
      rw [hnone] at hopened
      cases hopened
    rw [Dict.get?_set_of_ne _ _ hp, hopened]
  · exact hj

/-- No record makes the journal forget a pair. -/
lemma Knows.applyRecord (h : j.Knows pair) :
    (j.applyRecord lower rec).Knows pair := by
  rcases applyRecord_cases lower j rec with ⟨pair', -, -, heq⟩ | ⟨pair', -, -, -, -, heq⟩ |
    ⟨pair', hnone, heq⟩ | heq
  all_goals rw [heq]
  · by_cases hp : pair' = pair
    · subst hp
      exact .inr ⟨rec, Dict.get?_set_self _ _ _⟩
    · rcases h with hdone | ⟨rec', hrec'⟩
      · exact .inl ((Dict.get?_set_of_ne _ _ hp).trans hdone)
      · exact .inr ⟨rec', (Dict.get?_set_of_ne _ _ hp).trans hrec'⟩
  · by_cases hp : pair' = pair
    · subst hp
      exact .inl (Dict.get?_set_self _ _ _)
    · rcases h with hdone | ⟨rec', hrec'⟩
      · exact .inl ((Dict.get?_set_of_ne _ _ hp).trans hdone)
      · exact .inr ⟨rec', (Dict.get?_erase_of_ne _ hp).trans hrec'⟩
  · rcases h with hdone | hopen
    · have hp : pair' ≠ pair := by
        rintro rfl
        rw [hnone] at hdone
        cases hdone
      exact .inl ((Dict.get?_set_of_ne _ _ hp).trans hdone)
    · exact .inr hopen
  · exact h

/-- An intent stays open under every record that does not resolve it. -/
lemma Opens.applyRecord (h : j.Opens pair) (hrec : ¬ Resolves lower rec pair) :
    (j.applyRecord lower rec).Opens pair := by
  obtain ⟨rec', hrec'⟩ := h
  rcases applyRecord_cases lower j rec with ⟨pair', -, -, heq⟩ |
    ⟨pair', hpair, -, hresult, hterminal, heq⟩ | ⟨pair', -, heq⟩ | heq
  all_goals rw [heq]
  · by_cases hp : pair' = pair
    · subst hp
      exact ⟨rec, Dict.get?_set_self _ _ _⟩
    · exact ⟨rec', (Dict.get?_set_of_ne _ _ hp).trans hrec'⟩
  · have hp : pair' ≠ pair := by
      rintro rfl
      exact hrec ⟨hpair, hresult, hterminal⟩
    exact ⟨rec', (Dict.get?_erase_of_ne _ hp).trans hrec'⟩
  · exact ⟨rec', hrec'⟩
  · exact ⟨rec', hrec'⟩

/-- An intent record opens its pair. -/
lemma opens_applyRecord (hpair : pairOf rec = some pair) (hintent : isIntent rec = true) :
    (j.applyRecord lower rec).Opens pair := by
  rw [IntentJournal.applyRecord, hpair]
  simp only [if_pos hintent]
  exact ⟨rec, Dict.get?_set_self _ _ _⟩

/-- The journal after some records. -/
def replay (recs : List (Json F)) : IntentJournal F :=
  recs.foldl (IntentJournal.applyRecord lower) empty

lemma replay_append (recs recs' : List (Json F)) :
    replay lower (recs ++ recs') =
      recs'.foldl (IntentJournal.applyRecord lower) (replay lower recs) :=
  List.foldl_append

lemma Indexed.foldl {recs : List (Json F)} (hj : j.Indexed)
    (h : ∀ rec ∈ recs, isObject rec = true) :
    (recs.foldl (IntentJournal.applyRecord lower) j).Indexed := by
  induction recs generalizing j with
  | nil => exact hj
  | cons rec recs ih =>
    exact ih (hj.applyRecord lower (h rec List.mem_cons_self))
      fun r hr => h r (List.mem_cons_of_mem rec hr)

lemma Knows.foldl (h : j.Knows pair) (recs : List (Json F)) :
    (recs.foldl (IntentJournal.applyRecord lower) j).Knows pair := by
  induction recs generalizing j with
  | nil => exact h
  | cons rec recs ih => exact ih (h.applyRecord lower)

lemma Opens.foldl {recs : List (Json F)} (h : j.Opens pair)
    (hrecs : ∀ rec ∈ recs, ¬ Resolves lower rec pair) :
    (recs.foldl (IntentJournal.applyRecord lower) j).Opens pair := by
  induction recs generalizing j with
  | nil => exact h
  | cons rec recs ih =>
    exact ih (h.applyRecord lower (hrecs rec List.mem_cons_self))
      fun r hr => hrecs r (List.mem_cons_of_mem rec hr)

lemma not_resolves_of_isIntent (hintent : isIntent rec = true) : ¬ Resolves lower rec pair := by
  rintro ⟨-, hresult, -⟩
  unfold isIntent at hintent
  unfold isResult at hresult
  split at hintent
  · next kind hk =>
    rw [hk] at hresult
    simp only [beq_iff_eq] at hintent hresult
    rw [hintent] at hresult
    exact absurd hresult (by decide)
  · cases hintent

/-- Replaying the open records opens them all again. -/
lemma opens_replay_openIntents (hj : j.Indexed) (h : j.Opens pair) :
    (replay lower j.openIntents).Opens pair := by
  obtain ⟨rec, hrec⟩ := h
  obtain ⟨-, hintent, hpair⟩ := hj.record pair rec hrec
  obtain ⟨before, behind, hsplit⟩ :=
    List.append_of_mem (Dict.mem_values.2 ⟨pair, hrec⟩ : rec ∈ j.openRecords.values)
  rw [openIntents, hsplit, replay_append, List.foldl_cons]
  refine Opens.foldl lower (opens_applyRecord lower hpair hintent) fun r hr => ?_
  obtain ⟨pair', hr'⟩ :=
    Dict.mem_values.1 (hsplit ▸ List.mem_append_right before (List.mem_cons_of_mem rec hr))
  exact not_resolves_of_isIntent lower (hj.record pair' r hr').2.1

lemma isObject_openIntents (hj : j.Indexed) : ∀ rec ∈ j.openIntents, isObject rec = true := by
  intro rec hrec
  obtain ⟨pair, hpair⟩ := Dict.mem_values.1 hrec
  exact (hj.record pair rec hpair).1

end IntentJournal

private lemma foldlM_loadRecord {recs : List (Json F)} (h : ∀ rec ∈ recs, isObject rec = true)
    (j : IntentJournal F) : recs.foldlM (loadRecord lower) j =
      some (recs.foldl (IntentJournal.applyRecord lower) j) := by
  induction recs generalizing j with
  | nil => rfl
  | cons rec recs ih =>
    rw [List.foldlM_cons, loadRecord, if_pos (h rec List.mem_cons_self)]
    exact ih (fun r hr => h r (List.mem_cons_of_mem rec hr)) _

section Ledger

variable [PyFloat F]

open IntentJournal

lemma load_of_objects {log : List Char}
    (h : ∀ rec ∈ (journalFormat.read log : List (Json F)), isObject rec = true) :
    (load lower log : Option (IntentJournal F)) =
      some { replay lower (journalFormat.read log) with bytesWritten := log.length } := by
  rw [load, foldlM_loadRecord lower h]
  rfl

/-! ## The ledger -/

/-- What the journal owes: the intents that were recorded, those among them that it has to keep, and
the results that wait to be kept. -/
structure Ledger where
  /-- The pairs whose intent was recorded. -/
  recorded : List Pair
  /-- Of these, the ones that are owed also after the next start. -/
  kept : List Pair
  /-- The pairs whose intent was recorded and has no terminal result. -/
  awaiting : List Pair

/-- The world and what is owed in it. -/
structure Run (F : Type) where
  world : World F
  ledger : Ledger

namespace Run

/-- A run before its first event, with an empty ledger. -/
def fresh : Run F := ⟨.fresh, ⟨[], [], []⟩⟩

/-- A compaction drops the pairs that the process knows to be resolved. -/
def dropResolved (w : World F) (l : Ledger) : Ledger :=
  match w.journal with
  | none => l
  | some j => { l with kept := l.kept.filter fun pair => j.index.get? pair ≠ some .done }

/-- A record is appended, and the log is compacted where that is due. -/
def afterAppend (w : World F) (rec : Json F) (fsync : Bool) (l : Ledger) : Ledger :=
  match w.journal with
  | none => l
  | some j =>
    let w' := w.write lower j rec fsync
    if w'.compactionDue then dropResolved w' l else l

/-- The intent of a record was recorded. -/
def owe (rec : Json F) (l : Ledger) : Ledger :=
  match pairOf rec with
  | none => l
  | some pair => ⟨pair :: l.recorded, pair :: l.kept, pair :: l.awaiting⟩

/-- The result of a record was recorded, or the process ended while it was. -/
def settle (rec : Json F) (l : Ledger) : Ledger :=
  match pairOf rec with
  | none => l
  | some pair =>
    if isTerminal lower rec then { l with awaiting := l.awaiting.filter (· ≠ pair) } else l

/-- What one event does to the ledger.  Without a process nothing is recorded. -/
def ledgerStep (w : World F) (l : Ledger) : Event F → Ledger
  | .recordIntent args =>
    if w.journal.isSome then afterAppend lower w args.record true (owe args.record l) else l
  | .recordResult args =>
    if w.journal.isSome then
      afterAppend lower w (args.record lower) false (settle lower (args.record lower) l)
    else l
  | .compact => dropResolved w l
  | .reload => { l with recorded := l.kept }
  | .crash _ => l
  | .crashInIntent _ _ => l
  | .crashInResult args _ =>
    if w.journal.isSome then settle lower (args.record lower) l else l

/-- One event of the run: the world takes it, and the ledger notes what was promised and kept. -/
def step (r : Run F) (e : Event F) : Run F :=
  ⟨r.world.step lower e, ledgerStep lower r.world r.ledger e⟩

end Run

/-- The event appends no record behind a torn line. -/
def BehindWholeLine (r : Run F) : Event F → Prop
  | .recordIntent _ | .recordResult _ | .crashInIntent _ _ | .crashInResult _ _ =>
    LineFormat.Whole r.world.log
  | _ => True

instance (r : Run F) : ∀ e : Event F, Decidable (BehindWholeLine r e)
  | .recordIntent _ => inferInstanceAs (Decidable (LineFormat.Whole r.world.log))
  | .recordResult _ => inferInstanceAs (Decidable (LineFormat.Whole r.world.log))
  | .crashInIntent _ _ => inferInstanceAs (Decidable (LineFormat.Whole r.world.log))
  | .crashInResult _ _ => inferInstanceAs (Decidable (LineFormat.Whole r.world.log))
  | .compact => inferInstanceAs (Decidable True)
  | .reload => inferInstanceAs (Decidable True)
  | .crash _ => inferInstanceAs (Decidable True)

/-! ## The log -/

/-- The loader finds the records `S` in the synced part of the log, and behind it the records `U`
were written. -/
structure LogHolds (w : World F) (S U : List (Json F)) : Prop where
  synced : journalFormat.read w.synced = S
  unsynced : w.unsynced = journalFormat.write U
  whole : U = [] ∨ LineFormat.Whole w.synced
  objects : ∀ rec ∈ S ++ U, isObject rec = true

namespace LogHolds

variable {w : World F} {S U : List (Json F)} {rec : Json F}

/-- Of what may be cut off, a crash leaves a prefix of the records. -/
lemma read_take (h : LogHolds w S U) (kept : ℕ) :
    ∃ P, P <+: U ∧ journalFormat.read (w.synced ++ w.unsynced.take kept) = S ++ P := by
  rcases h.whole with rfl | hwhole
  · refine ⟨[], List.nil_prefix, ?_⟩
    simp [h.unsynced, h.synced]
  · have hU : ∀ rec ∈ U, journalFormat.valid rec := fun r hr =>
      h.objects r (List.mem_append_right S hr)
    refine ⟨_, LineFormat.read_prefix hU (List.take_prefix kept _), ?_⟩
    rw [h.unsynced, hwhole.read_append, h.synced]

lemma read_log (h : LogHolds w S U) : journalFormat.read w.log = S ++ U := by
  rcases h.whole with rfl | hwhole
  · simp [World.log, h.unsynced, h.synced]
  · have hU : ∀ rec ∈ U, journalFormat.valid rec := fun r hr =>
      h.objects r (List.mem_append_right S hr)
    rw [World.log, hwhole.read_append, h.synced, h.unsynced, LineFormat.read_write hU]

/-- Behind a whole line the synced part is whole too. -/
lemma whole_synced (h : LogHolds w S U) (hlog : LineFormat.Whole w.log) :
    LineFormat.Whole w.synced := by
  rcases h.whole with rfl | hwhole
  · rwa [World.log, h.unsynced, LineFormat.write_nil, List.append_nil] at hlog
  · exact hwhole

lemma crash (h : LogHolds w S U) (kept : ℕ) :
    ∃ P, P <+: U ∧ LogHolds (w.crash kept) (S ++ P) [] := by
  obtain ⟨P, hP, hread⟩ := h.read_take kept
  refine ⟨P, hP, hread, rfl, .inl rfl, fun r hr => h.objects r ?_⟩
  rw [List.append_nil] at hr
  rcases List.mem_append.1 hr with hr | hr
  · exact List.mem_append_left U hr
  · exact List.mem_append_right S (hP.subset hr)

/-- A record that is appended without a sync. -/
lemma append (h : LogHolds w S U) (hlog : LineFormat.Whole w.log) (hrec : isObject rec = true)
    (j : Option (IntentJournal F)) :
    LogHolds ⟨w.synced, w.unsynced ++ journalFormat.line rec, j⟩ S (U ++ [rec]) where
  synced := h.synced
  unsynced := by
    rw [h.unsynced, LineFormat.write_append, LineFormat.write_singleton]
  whole := .inr (h.whole_synced hlog)
  objects := by
    intro r hr
    rw [← List.append_assoc, List.mem_append, List.mem_singleton] at hr
    rcases hr with hr | rfl
    · exact h.objects r hr
    · exact hrec

/-- A record that is appended and synced. -/
lemma appendSync (h : LogHolds w S U) (hlog : LineFormat.Whole w.log) (hrec : isObject rec = true)
    (j : Option (IntentJournal F)) :
    LogHolds ⟨w.log ++ journalFormat.line rec, [], j⟩ (S ++ U ++ [rec]) [] where
  synced := by
    rw [hlog.read_append, h.read_log, LineFormat.read_line hrec]
  unsynced := rfl
  whole := .inl rfl
  objects := by
    intro r hr
    rw [List.append_nil, List.mem_append, List.mem_singleton] at hr
    rcases hr with hr | rfl
    · exact h.objects r hr
    · exact hrec

end LogHolds

/-! ## The invariant -/

/-- What is owed is in the index, and is in the log wherever it is cut off. -/
structure Inv (r : Run F) (S U : List (Json F)) : Prop where
  log : LogHolds r.world S U
  keptRecorded : ∀ pair ∈ r.ledger.kept, pair ∈ r.ledger.recorded
  kept : ∀ pair ∈ r.ledger.kept, (replay lower S).Knows pair
  awaiting : ∀ pair ∈ r.ledger.awaiting, (replay lower S).Opens pair
  unresolved : ∀ pair ∈ r.ledger.awaiting, ∀ rec ∈ U, ¬ Resolves lower rec pair
  indexed : ∀ j, r.world.journal = some j → j.Indexed
  recordedKnown : ∀ j, r.world.journal = some j → ∀ pair ∈ r.ledger.recorded, j.Knows pair
  awaitingOpen : ∀ j, r.world.journal = some j → ∀ pair ∈ r.ledger.awaiting, j.Opens pair

namespace Inv

variable {w : World F} {l : Ledger} {j : IntentJournal F} {rec : Json F} {S U : List (Json F)}

lemma fresh : Inv lower (Run.fresh : Run F) [] [] where
  log := ⟨by simp [Run.fresh, World.fresh], rfl, .inl rfl, by simp⟩
  keptRecorded := by simp [Run.fresh]
  kept := by simp [Run.fresh]
  awaiting := by simp [Run.fresh]
  unresolved := by simp [Run.fresh]
  indexed := by rintro j ⟨⟩
  recordedKnown := by rintro j ⟨⟩
  awaitingOpen := by rintro j ⟨⟩

/-- Compaction keeps the open intents, and what is kept is open unless it is resolved. -/
lemma compact (h : Inv lower ⟨w, l⟩ S U) :
    ∃ S' U', Inv lower ⟨w.compact, Run.dropResolved w l⟩ S' U' := by
  cases hjournal : w.journal with
  | none =>
    rw [World.compact, Run.dropResolved, hjournal]
    exact ⟨S, U, h⟩
  | some j =>
    have hj := h.indexed j hjournal
    rw [World.compact, Run.dropResolved, hjournal]
    refine ⟨j.openIntents, [], ?_, ?_, ?_, ?_, by simp, ?_, ?_, ?_⟩
    · have hvalid : ∀ rec ∈ j.openIntents, journalFormat.valid rec := isObject_openIntents hj
      exact ⟨LineFormat.read_write hvalid, rfl, .inl rfl,
        fun rec hrec => hvalid rec (by simpa using hrec)⟩
    · exact fun pair hpair => h.keptRecorded pair (List.mem_filter.1 hpair).1
    · intro pair hpair
      obtain ⟨hmem, hnot⟩ := List.mem_filter.1 hpair
      rcases h.recordedKnown j hjournal pair (h.keptRecorded pair hmem) with hdone | hopen
      · simp [hdone] at hnot
      · exact .inr (opens_replay_openIntents lower hj hopen)
    · exact fun pair hpair =>
        opens_replay_openIntents lower hj (h.awaitingOpen j hjournal pair hpair)
    · rintro j' hj'
      cases hj'
      exact ⟨hj.opened, hj.record⟩
    · rintro j' hj' pair hpair
      cases hj'
      exact h.recordedKnown j hjournal pair hpair
    · rintro j' hj' pair hpair
      cases hj'
      exact h.awaitingOpen j hjournal pair hpair

/-- An intent that is written and synced is owed from then on. -/
lemma writeIntent (h : Inv lower ⟨w, l⟩ S U) (hjournal : w.journal = some j)
    (hwhole : LineFormat.Whole w.log) (hrec : isObject rec = true)
    (hintent : isIntent rec = true) :
    Inv lower ⟨w.write lower j rec true, Run.owe rec l⟩ (S ++ U ++ [rec]) [] := by
  have hj := h.indexed j hjournal
  have hknown : ∀ pair ∈ l.kept, (replay lower (S ++ U ++ [rec])).Knows pair := by
    intro pair hpair
    rw [List.append_assoc, replay_append]
    exact (h.kept pair hpair).foldl lower _
  have hopens : ∀ pair ∈ l.awaiting, (replay lower (S ++ U ++ [rec])).Opens pair := by
    intro pair hpair
    rw [replay_append, replay_append]
    exact ((h.awaiting pair hpair).foldl lower (h.unresolved pair hpair)).applyRecord lower
      (not_resolves_of_isIntent lower hintent)
  have hnew : ∀ pair, pairOf rec = some pair → (replay lower (S ++ U ++ [rec])).Opens pair := by
    intro pair hpair
    rw [replay_append]
    exact opens_applyRecord lower hpair hintent
  have hlog := h.log.appendSync hwhole hrec
    (some { j.applyRecord lower rec with
      bytesWritten := j.bytesWritten + (journalFormat.line rec).length })
  have hindexed := hj.applyRecord lower hrec
  have hrecorded : ∀ pair ∈ l.recorded, (j.applyRecord lower rec).Knows pair := fun pair hpair =>
    (h.recordedKnown j hjournal pair hpair).applyRecord lower
  have hawaiting : ∀ pair ∈ l.awaiting, (j.applyRecord lower rec).Opens pair := fun pair hpair =>
    (h.awaitingOpen j hjournal pair hpair).applyRecord lower
      (not_resolves_of_isIntent lower hintent)
  unfold Run.owe
  cases hpair : pairOf rec with
  | none =>
    refine ⟨hlog, h.keptRecorded, hknown, hopens, by simp, ?_, ?_, ?_⟩
    · rintro j' hj'
      cases hj'
      exact ⟨hindexed.opened, hindexed.record⟩
    · rintro j' hj'
      cases hj'
      exact hrecorded
    · rintro j' hj'
      cases hj'
      exact hawaiting
  | some pair =>
    have hopen : (j.applyRecord lower rec).Opens pair := opens_applyRecord lower hpair hintent
    refine ⟨hlog, ?_, ?_, ?_, by simp, ?_, ?_, ?_⟩
    · exact fun pair' hmem => (List.mem_cons.1 hmem).elim (fun heq => heq ▸ List.mem_cons_self)
        fun hmem => List.mem_cons_of_mem pair (h.keptRecorded pair' hmem)
    · exact List.forall_mem_cons.2 ⟨.inr (hnew pair hpair), hknown⟩
    · exact List.forall_mem_cons.2 ⟨hnew pair hpair, hopens⟩
    · rintro j' hj'
      cases hj'
      exact ⟨hindexed.opened, hindexed.record⟩
    · rintro j' hj'
      cases hj'
      exact List.forall_mem_cons.2 ⟨.inr hopen, hrecorded⟩
    · rintro j' hj'
      cases hj'
      exact List.forall_mem_cons.2 ⟨hopen, hawaiting⟩

omit [PyFloat F] in
lemma mem_settle {pair : Pair} (h : pair ∈ (Run.settle lower rec l).awaiting) :
    pair ∈ l.awaiting ∧ ¬ Resolves lower rec pair := by
  unfold Run.settle at h
  cases hpair : pairOf rec with
  | none =>
    rw [hpair] at h
    refine ⟨h, ?_⟩
    rintro ⟨hsome, -⟩
    rw [hpair] at hsome
    cases hsome
  | some pair' =>
    rw [hpair] at h
    dsimp only at h
    split at h
    · obtain ⟨hmem, hne⟩ := List.mem_filter.1 h
      refine ⟨hmem, ?_⟩
      rintro ⟨hsome, -⟩
      rw [hpair] at hsome
      cases hsome
      simp at hne
    · next hterminal => exact ⟨h, fun hres => hterminal hres.2.2⟩

omit [PyFloat F] in
lemma recorded_settle : (Run.settle lower rec l).recorded = l.recorded := by
  unfold Run.settle
  split
  · rfl
  · split <;> rfl

omit [PyFloat F] in
lemma kept_settle : (Run.settle lower rec l).kept = l.kept := by
  unfold Run.settle
  split
  · rfl
  · split <;> rfl

/-- A result that is written resolves its own pair only. -/
lemma writeResult (h : Inv lower ⟨w, l⟩ S U) (hjournal : w.journal = some j)
    (hwhole : LineFormat.Whole w.log) (hrec : isObject rec = true) :
    Inv lower ⟨w.write lower j rec false, Run.settle lower rec l⟩ S (U ++ [rec]) where
  log := h.log.append hwhole hrec _
  keptRecorded := by
    rw [kept_settle, recorded_settle]
    exact h.keptRecorded
  kept := by
    rw [kept_settle]
    exact h.kept
  awaiting pair hpair := h.awaiting pair (mem_settle lower hpair).1
  unresolved := by
    intro pair hpair r hr
    obtain ⟨hmem, hnot⟩ := mem_settle lower hpair
    rcases List.mem_append.1 hr with hr | hr
    · exact h.unresolved pair hmem r hr
    · rwa [List.mem_singleton.1 hr]
  indexed := by
    rintro j' hj'
    cases hj'
    have hindexed := (h.indexed j hjournal).applyRecord lower hrec
    exact ⟨hindexed.opened, hindexed.record⟩
  recordedKnown := by
    rintro j' hj' pair hpair
    cases hj'
    rw [recorded_settle] at hpair
    exact (h.recordedKnown j hjournal pair hpair).applyRecord lower
  awaitingOpen := by
    rintro j' hj' pair hpair
    cases hj'
    obtain ⟨hmem, hnot⟩ := mem_settle lower hpair
    exact (h.awaitingOpen j hjournal pair hmem).applyRecord lower hnot

/-- The compaction behind an append. -/
lemma afterAppend {fsync : Bool} {l' : Ledger} (hjournal : w.journal = some j)
    (h : Inv lower ⟨w.write lower j rec fsync, l'⟩ S U) :
    ∃ S' U', Inv lower ⟨w.append lower rec fsync, Run.afterAppend lower w rec fsync l'⟩ S' U' := by
  rw [World.append, Run.afterAppend, hjournal]
  dsimp only
  split
  · exact h.compact
  · exact ⟨S, U, h⟩

lemma reload (h : Inv lower ⟨w, l⟩ S U) :
    Inv lower ⟨w.reload lower, { l with recorded := l.kept }⟩ S U := by
  have hload : load lower w.log =
      some { replay lower (S ++ U) with bytesWritten := w.log.length } := by
    rw [← h.log.read_log]
    exact load_of_objects lower (h.log.read_log ▸ h.log.objects)
  have hindexed := (indexed_empty (F := F)).foldl lower h.log.objects
  refine ⟨⟨h.log.synced, h.log.unsynced, h.log.whole, h.log.objects⟩, fun _ hpair => hpair, h.kept,
    h.awaiting, h.unresolved, ?_, ?_, ?_⟩
  · rintro j hj
    cases (hload.symm.trans hj : some _ = some j)
    exact ⟨hindexed.opened, hindexed.record⟩
  · rintro j hj pair hpair
    cases (hload.symm.trans hj : some _ = some j)
    have hknows := (h.kept pair hpair).foldl lower U
    rw [← replay_append] at hknows
    exact hknows
  · rintro j hj pair hpair
    cases (hload.symm.trans hj : some _ = some j)
    have hopens := (h.awaiting pair hpair).foldl lower (h.unresolved pair hpair)
    rw [← replay_append] at hopens
    exact hopens

lemma crash (h : Inv lower ⟨w, l⟩ S U) (kept : ℕ) :
    ∃ S' U', Inv lower ⟨w.crash kept, l⟩ S' U' := by
  obtain ⟨P, hP, hlog⟩ := h.log.crash kept
  refine ⟨S ++ P, [], hlog, h.keptRecorded, ?_, ?_, by simp, ?_, ?_, ?_⟩
  · intro pair hpair
    rw [replay_append]
    exact (h.kept pair hpair).foldl lower P
  · intro pair hpair
    rw [replay_append]
    exact (h.awaiting pair hpair).foldl lower fun rec hrec =>
      h.unresolved pair hpair rec (hP.subset hrec)
  all_goals rintro j ⟨⟩

/-- A record that a crash may cut off. -/
lemma crashInAppend (h : Inv lower ⟨w, l⟩ S U) (hjournal : w.journal = some j)
    (hwhole : LineFormat.Whole w.log) (hrec : isObject rec = true) {l' : Ledger}
    (hrecorded : l'.recorded = l.recorded) (hkept : l'.kept = l.kept)
    (hawaiting : ∀ pair ∈ l'.awaiting, pair ∈ l.awaiting ∧ ¬ Resolves lower rec pair) (kept : ℕ) :
    ∃ S' U', Inv lower ⟨w.crashInAppend rec kept, l'⟩ S' U' := by
  rw [World.crashInAppend, hjournal]
  have htorn : Inv lower ⟨⟨w.synced, w.unsynced ++ journalFormat.line rec, none⟩, l'⟩ S
      (U ++ [rec]) := by
    refine ⟨h.log.append hwhole hrec none, ?_, ?_, ?_, ?_, ?_, ?_, ?_⟩
    · rw [hkept, hrecorded]
      exact h.keptRecorded
    · rw [hkept]
      exact h.kept
    · exact fun pair hpair => h.awaiting pair (hawaiting pair hpair).1
    · intro pair hpair r hr
      rcases List.mem_append.1 hr with hr | hr
      · exact h.unresolved pair (hawaiting pair hpair).1 r hr
      · rw [List.mem_singleton.1 hr]
        exact (hawaiting pair hpair).2
    all_goals rintro j ⟨⟩
  exact htorn.crash lower kept

/-- One event. -/
lemma step {r : Run F} (h : Inv lower r S U) {e : Event F} (he : BehindWholeLine r e) :
    ∃ S' U', Inv lower (r.step lower e) S' U' := by
  obtain ⟨w, l⟩ := r
  cases e with
  | recordIntent args =>
    cases hjournal : w.journal with
    | none =>
      simp only [Run.step, World.step, World.append, Run.ledgerStep, hjournal]
      exact ⟨S, U, h⟩
    | some j =>
      have hwrite : Inv lower ⟨w.write lower j args.record true, Run.owe args.record l⟩
          (S ++ U ++ [args.record]) [] := h.writeIntent lower hjournal he rfl rfl
      simp only [Run.step, World.step, Run.ledgerStep, hjournal, Option.isSome_some, if_true]
      exact hwrite.afterAppend lower hjournal
  | recordResult args =>
    cases hjournal : w.journal with
    | none =>
      simp only [Run.step, World.step, World.append, Run.ledgerStep, hjournal]
      exact ⟨S, U, h⟩
    | some j =>
      have hwrite : Inv lower ⟨w.write lower j (args.record lower) false,
          Run.settle lower (args.record lower) l⟩ S (U ++ [args.record lower]) :=
        h.writeResult lower hjournal he rfl
      simp only [Run.step, World.step, Run.ledgerStep, hjournal, Option.isSome_some, if_true]
      exact hwrite.afterAppend lower hjournal
  | compact => exact h.compact lower
  | reload => exact ⟨S, U, h.reload lower⟩
  | crash kept => exact h.crash lower kept
  | crashInIntent args kept =>
    cases hjournal : w.journal with
    | none =>
      simp only [Run.step, World.step, World.crashInAppend, Run.ledgerStep, hjournal]
      exact ⟨S, U, h⟩
    | some j =>
      exact h.crashInAppend lower hjournal he rfl rfl rfl (fun pair hpair =>
        ⟨hpair, not_resolves_of_isIntent lower rfl⟩) kept
  | crashInResult args kept =>
    cases hjournal : w.journal with
    | none =>
      simp only [Run.step, World.step, World.crashInAppend, Run.ledgerStep, hjournal]
      exact ⟨S, U, h⟩
    | some j =>
      simp only [Run.step, World.step, Run.ledgerStep, hjournal, Option.isSome_some, if_true]
      exact h.crashInAppend lower hjournal he rfl (recorded_settle lower) (kept_settle lower)
        (fun pair hpair => mem_settle lower hpair) kept

end Inv

/-- In every run that appends no record behind a torn line, a start finds an index in the log, and
the index of a running process holds every pair that is owed, and among its open intents one of
every pair that awaits its result. -/
theorem remembers_intents (events : List (Event F))
    (h : EveryStep (Run.step lower) BehindWholeLine Run.fresh events) :
    let r := events.foldl (Run.step lower) Run.fresh
    (r.world.reload lower).journal.isSome = true ∧
      ∀ j, r.world.journal = some j →
        (∀ pair ∈ r.ledger.recorded, j.hasIntent pair.1 pair.2 = true) ∧
        ∀ pair ∈ r.ledger.awaiting,
          ∃ rec ∈ j.openIntents, isIntent rec = true ∧ pairOf rec = some pair := by
  have hinv : ∃ S U, Inv lower (events.foldl (Run.step lower) Run.fresh) S U :=
    h.invariant (I := fun r => ∃ S U, Inv lower r S U) ⟨[], [], Inv.fresh lower⟩
      fun r e ⟨S, U, hr⟩ he => hr.step lower he
  obtain ⟨S, U, hinv⟩ := hinv
  refine ⟨?_, fun j hj => ⟨fun pair hpair => ?_, fun pair hpair => ?_⟩⟩
  · rw [World.reload, load_of_objects lower (hinv.log.read_log ▸ hinv.log.objects)]
    rfl
  · exact (hinv.recordedKnown j hj pair hpair).hasIntent (hinv.indexed j hj)
  · obtain ⟨rec, hrec⟩ := hinv.awaitingOpen j hj pair hpair
    have hrecord := (hinv.indexed j hj).record pair rec hrec
    exact ⟨rec, Dict.mem_values.2 ⟨pair, hrec⟩, hrecord.2⟩

end Ledger

section Examples

/-- The lower case of ASCII letters. -/
def lowerAscii (s : String) : String := String.ofList (s.toList.map Char.toLower)

/-- The intent of a purchase on a signal. -/
def buyIntent (signalId : String) : IntentArgs Unit :=
  ⟨"t1", signalId, "0xab", some "tok", some "BUY", some (), none, some "live", ()⟩

/-- The report that the order on a signal was executed. -/
def executed (signalId : String) : ResultArgs Unit := ⟨"t1", signalId, "Executed ", none, none, ()⟩

/-- A result and an intent that were cut off by crashes, and a compaction. -/
def crashes : List (Event Unit) :=
  [.reload, .recordIntent (buyIntent "s1"), .recordResult (executed "s1"), .crash 20, .reload,
    .compact, .recordIntent (buyIntent "s2"), .recordResult (executed "s1"), .compact,
    .crashInIntent (buyIntent "s3") 30, .reload]

set_option maxRecDepth 100000 in
theorem remembers_intents_of_crashes :
    let r := crashes.foldl (Run.step lowerAscii) Run.fresh
    (r.world.reload lowerAscii).journal.isSome = true ∧
      ∀ j, r.world.journal = some j →
        (∀ pair ∈ r.ledger.recorded, j.hasIntent pair.1 pair.2 = true) ∧
        ∀ pair ∈ r.ledger.awaiting,
          ∃ rec ∈ j.openIntents, isIntent rec = true ∧ pairOf rec = some pair :=
  remembers_intents lowerAscii crashes (by decide +kernel)

/-- An intent that was executed is forgotten by a compaction and a restart. -/
theorem compaction_forgets_executed :
    let recorded := [Event.reload, .recordIntent (buyIntent "s1")].foldl
      (World.step lowerAscii) World.fresh
    let restarted := [Event.recordResult (executed "s1"), .compact, .reload].foldl
      (World.step lowerAscii) recorded
    (recorded.journal.map fun j => j.hasIntent "t1" "s1") = some true ∧
      (restarted.journal.map fun j => j.hasIntent "t1" "s1") = some false := by
  decide +kernel

end Examples

end Evosport.Orchestrator
