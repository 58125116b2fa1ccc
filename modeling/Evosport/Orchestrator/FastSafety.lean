/-
No order of the fast path is lost or doubled.

What the journal awaits a result for, and the rows, the calls and the passes beside it, are the
books of the fast path.  The books are kept in order (`Books`) by every move that meets its
condition; what the journal keeps through crashes is known from its ledger.
-/
import Evosport.Orchestrator.FastBooks
import Evosport.Orchestrator.RecordEvents

namespace Evosport.Orchestrator

open Lib Execution

variable {F : Type}

/-! ## Nothing lost, nothing submitted twice -/

namespace FastWorld

variable (s : FastWorld F)

/-- No call is running, and no pass has rows that it has yet to commit. -/
def Quiet : Prop := (∀ c ∈ s.calls, ¬c.Running) ∧ s.NonePending

/-- `submit_execution_leg` was called at most once for each trader and signal. -/
def SubmittedOnce : Prop :=
  ∀ pair, ((s.calls.filter fun c => c.pair = pair).map Call.submissions).sum ≤ 1

variable [PyFloat F] (cfg : FastConfig) (s : FastWorld F)

/-- The intent of the pair is open, in the journal of the process or in the one of the next start.
-/
def IntentOpen (pair : Pair) : Prop :=
  ∃ j ∈ s.process <|> (s.journal.world.reload cfg.lower).journal,
    j.isOpen pair.1 pair.2 = true

/-- Wherever the venue may hold or have filled an order, its intent is open, or there is exactly one
row for it, with the status of an order that was taken. -/
def NothingLost : Prop :=
  ∀ c ∈ s.calls, c.held → s.IntentOpen cfg c.pair ∨
    ∃ row ∈ s.rows, rowsOf s.rows c.pair = [row] ∧ row.status.Counts

/-! ## The condition -/

/-- The condition on a step: no record is appended behind a torn line, and the process does not die
between the hand-over of an intent and the commit of its row. -/
def Undisturbed : FastStep F → Prop
  | .move m => s.Orderly cfg m ∧ ∀ e ∈ s.eventOf cfg m, BehindWholeLine s.journal e
  | .crash _ => s.NonePending
  | .crashDuring m kept => s.Orderly cfg m ∧ (s.movedBeforeWrite cfg m).NonePending ∧
      BehindWholeLine s.journal (s.crashEvent cfg m kept)
  | .start => True

instance : Decidable s.Quiet := inferInstanceAs (Decidable (_ ∧ _))

instance (pair : Pair) : Decidable (s.IntentOpen cfg pair) :=
  inferInstanceAs (Decidable (∃ j ∈ _, _))

instance : Decidable (s.NothingLost cfg) := inferInstanceAs (Decidable (∀ c ∈ _, _))

instance : ∀ i : FastStep F, Decidable (s.Undisturbed cfg i)
  | .move _ => inferInstanceAs (Decidable (_ ∧ _))
  | .crash _ => inferInstanceAs (Decidable (FastWorld.NonePending _))
  | .crashDuring _ _ => inferInstanceAs (Decidable (_ ∧ _ ∧ _))
  | .start => inferInstanceAs (Decidable True)

end FastWorld

/-! ## The invariant -/

/-- The intent is that of a live order with a key, and a pass finds its pair. -/
def LiveIntent (cfg : FastConfig) (rec : Json F) : Prop :=
  isIntent rec = true → isLiveKeyed cfg.lower rec = true ∧ recoverPair rec = pairOf rec

lemma FastSignal.Named.liveIntent {cfg : FastConfig} {signal : FastSignal F}
    (h : signal.Named cfg) : LiveIntent cfg (FastWorld.intentArgs cfg signal).record := by
  have hpair : pairOf (FastWorld.intentArgs cfg signal).record = some signal.pair :=
    pairOf_intent h.trader_ne h.signal_ne
  have hmode : cfg.lower (strip "live") = "live" := by
    rw [show strip "live" = "live" by decide +kernel, cfg.lower_live]
  refine fun _ => ⟨?_, ?_⟩
  · have hmd : textOf (FastWorld.intentArgs cfg signal).record "md" = "live" := rfl
    have hkey : textOf (FastWorld.intentArgs cfg signal).record "key" =
        cfg.deriveFastIdempotencyKey signal.traderId signal.signalId := rfl
    rw [isLiveKeyed, hmd, hkey, hmode, h.key]
    rfl
  · rw [recoverPair, hpair, Option.bind_some, FastSignal.pair, h.strip_trader, signal.stripped]
    exact if_neg (not_or.2 ⟨h.trader_ne, h.signal_ne⟩)

section Moves

variable {cfg : FastConfig} {s : FastWorld F} {m : Move F}

/-- Without a process no pass comes up. -/
lemma moved_passes (hdown : s.process = none) (hpasses : s.passes = []) :
    (s.moved cfg m).passes = [] := by
  cases m <;> simp [FastWorld.moved, hdown, hpasses]

lemma restarts_eventOf {e : Event F} (he : s.eventOf cfg m = some e) : e.restarts = false := by
  rcases eventOf_cases he with ⟨-, -, -, -, -, -, rfl⟩ | ⟨-, rfl, -⟩ <;> rfl

/-- What is left of what a move writes when the process dies in the middle of it. -/
lemma crashEvent_cases (cfg : FastConfig) (s : FastWorld F) (m : Move F) (kept : ℕ) :
    s.crashEvent cfg m kept = .crash kept ∨
    (∃ signal, m = .enter signal ∧
      s.crashEvent cfg m kept = .crashInIntent (FastWorld.intentArgs cfg signal) kept) ∨
    ∃ args, s.crashEvent cfg m kept = .crashInResult args kept ∧
      Settles cfg s (args.traderId, args.signalId) m := by
  cases he : s.eventOf cfg m with
  | none => exact .inl (by rw [FastWorld.crashEvent, he]; rfl)
  | some e =>
    rcases eventOf_cases he with ⟨signal, j, hm, -, -, -, rfl⟩ | ⟨args, rfl, hsettles⟩
    · exact .inr (.inl ⟨signal, hm, by rw [FastWorld.crashEvent, he]; rfl⟩)
    · exact .inr (.inr ⟨args, by rw [FastWorld.crashEvent, he]; rfl, hsettles⟩)

end Moves

section Safe

variable [PyFloat F] {cfg : FastConfig} {s : FastWorld F} {m : Move F}

/-- The journal keeps what it owes, its intents are known live orders, and the books are in order.
-/
structure Safe (cfg : FastConfig) (s : FastWorld F) : Prop where
  journal : ∃ S U, Inv cfg.lower s.journal S U
  records : Records (LiveIntent cfg) s.journal.world
  books : Books cfg s.journal.ledger.awaiting s.Known s
  down : s.process = none → s.passes = []

namespace Safe

lemma fresh : Safe cfg (FastWorld.fresh : FastWorld F) where
  journal := ⟨[], [], Inv.fresh cfg.lower⟩
  records := by
    constructor
    · show ∀ rec ∈ journalFormat.read [], LiveIntent cfg rec
      rw [LineFormat.read_nil]
      simp
    · rintro j ⟨⟩
  books := ⟨List.nodup_nil, List.nodup_nil, Nat.zero_le 1, by simp [FastWorld.fresh],
    by simp [FastWorld.fresh]⟩
  down _ := rfl

/-- The open intents are known live orders. -/
lemma openIntents (h : Safe cfg s) {j : IntentJournal F} (hj : s.process = some j) :
    ∀ rec ∈ j.openIntents,
      isLiveKeyed cfg.lower rec = true ∧ ∀ pair ∈ recoverPair rec, s.Known pair := by
  intro rec hrec
  obtain ⟨S, U, hinv⟩ := h.journal
  obtain ⟨pair, hget⟩ := Dict.mem_values.1 hrec
  have hindexed := hinv.indexed j hj
  obtain ⟨-, hintent, hpair⟩ := hindexed.record pair rec hget
  obtain ⟨hlive, hrecover⟩ := h.records.openIntents j hj rec hrec hintent
  refine ⟨hlive, fun pair' hpair' => ⟨j, hj, ?_⟩⟩
  rw [hrecover, hpair] at hpair'
  cases hpair'
  exact hindexed.hasIntent ⟨rec, hget⟩

/-- What a move does beside the journal, for what awaits a result after it. -/
lemma booksMoved (h : Safe cfg s) (hm : s.Orderly cfg m) {awaiting : List Pair}
    (hsettles : ∀ q ∈ s.journal.ledger.awaiting, ¬Settles cfg s q m → q ∈ awaiting)
    (henter : ∀ signal j, m = .enter signal → s.process = some j → ¬s.refuses cfg j signal →
      signal.pair ∈ awaiting) : Books cfg awaiting s.Known (s.moved cfg m) :=
  h.books.moved hm hsettles henter fun _ hj => h.openIntents hj

lemma moveOnly (h : Safe cfg s) (hm : s.Orderly cfg m) (he : s.eventOf cfg m = none) :
    Safe cfg (s.moved cfg m) := by
  have hjournal := moved_journal cfg s m
  have hbooks : Books cfg s.journal.ledger.awaiting s.Known (s.moved cfg m) := by
    refine h.booksMoved hm (fun q hq _ => hq) ?_
    rintro signal j rfl hj hrefuses
    rw [eventOf_enter hj hrefuses hm.1.signal_ne] at he
    cases he
  refine ⟨hjournal ▸ h.journal, hjournal ▸ h.records, ?_, fun hdown => ?_⟩
  · rw [hjournal]
    refine hbooks.mono (List.Subset.refl _) fun pair hpair => ?_
    rwa [FastWorld.Known, FastWorld.process, hjournal]
  · rw [FastWorld.process, hjournal] at hdown
    exact moved_passes hdown (h.down hdown)

/-- A move that writes to the journal. -/
lemma moveAfter (h : Safe cfg s) (hm : s.Orderly cfg m) {e : Event F}
    (he : s.eventOf cfg m = some e) (hwhole : BehindWholeLine s.journal e) :
    Safe cfg ((s.moved cfg m).after cfg e) := by
  obtain ⟨S, U, hinv⟩ := h.journal
  have hjournal : ((s.moved cfg m).after cfg e).journal = s.journal.step cfg.lower e := by
    rw [FastWorld.after, moved_journal]
  have hrestarts := restarts_eventOf he
  have hrecord : ∀ rec ∈ e.record cfg.lower, LiveIntent cfg rec := by
    rcases eventOf_cases he with ⟨signal, j, rfl, -, -, -, rfl⟩ | ⟨args, rfl, -⟩
    · rintro rec ⟨⟩
      exact hm.1.liveIntent
    · rintro rec ⟨⟩ ⟨⟩
  have hbooks : Books cfg (s.journal.step cfg.lower e).ledger.awaiting s.Known
      (s.moved cfg m) := by
    refine h.booksMoved hm (fun q hq hnot => ?_) ?_
    · refine mem_awaiting_step cfg.lower hq ?_ ?_
      · rintro args rfl rfl
        rcases eventOf_cases he with ⟨-, -, -, -, -, -, ⟨⟩⟩ | ⟨args', ⟨⟩, hsettles⟩
        exact hnot hsettles
      · rintro args kept rfl
        cases hrestarts
    · rintro signal j rfl hj hrefuses
      rw [eventOf_enter hj hrefuses hm.1.signal_ne] at he
      cases he
      have hsome : s.journal.world.journal.isSome = true := Option.isSome_iff_exists.2 ⟨j, hj⟩
      exact mem_awaiting_recordIntent cfg.lower hsome hm.1.trader_ne hm.1.signal_ne
  constructor
  · rw [hjournal]
    exact hinv.step cfg.lower hwhole
  · rw [hjournal]
    exact h.records.step cfg.lower hinv hwhole hrecord
  · rw [hjournal]
    refine (hbooks.withJournal _).mono (List.Subset.refl _) ?_
    rintro pair ⟨j, hj, hknown⟩
    obtain ⟨j', hj', hkeeps⟩ := journal_step cfg.lower hrestarts hj
    exact ⟨j', (congrArg (fun r => r.world.journal) hjournal).trans hj', hkeeps _ _ hknown⟩
  · intro hdown
    have hnone : s.process = none := by
      cases hj : s.process with
      | none => rfl
      | some j =>
        obtain ⟨j', hj', -⟩ := journal_step cfg.lower hrestarts hj
        rw [FastWorld.process, hjournal, hj'] at hdown
        cases hdown
    exact moved_passes (m := m) hnone (h.down hnone)

/-- The process dies, with what an event leaves in the journal. -/
lemma deadAfter (h : Safe cfg s) {t : FastWorld F} (hjournal : t.journal = s.journal) {e : Event F}
    (hwhole : BehindWholeLine s.journal e)
    (hrecord : ∀ rec ∈ e.record cfg.lower, LiveIntent cfg rec) (hnone : t.NonePending)
    (hbooks : Books cfg (s.journal.step cfg.lower e).ledger.awaiting s.Known t) :
    Safe cfg (t.dead.after cfg e) := by
  obtain ⟨S, U, hinv⟩ := h.journal
  have hafter : (t.dead.after cfg e).journal = s.journal.step cfg.lower e := by
    show t.journal.step cfg.lower e = s.journal.step cfg.lower e
    rw [hjournal]
  constructor
  · rw [hafter]
    exact hinv.step cfg.lower hwhole
  · rw [hafter]
    exact h.records.step cfg.lower hinv hwhole hrecord
  · rw [hafter]
    exact (hbooks.dead hnone s.Known).withKnown rfl |>.withJournal _
  · exact fun _ => rfl

lemma crashDuring (h : Safe cfg s) {kept : ℕ} (hm : s.Orderly cfg m)
    (hnone : (s.movedBeforeWrite cfg m).NonePending)
    (hwhole : BehindWholeLine s.journal (s.crashEvent cfg m kept)) :
    Safe cfg ((s.movedBeforeWrite cfg m).dead.after cfg (s.crashEvent cfg m kept)) := by
  have hjournal : (s.movedBeforeWrite cfg m).journal = s.journal := by
    cases m <;> first | rfl | exact moved_journal cfg s _
  have hkeep : ∀ q ∈ s.journal.ledger.awaiting, ¬Settles cfg s q m →
      q ∈ (s.journal.step cfg.lower (s.crashEvent cfg m kept)).ledger.awaiting := by
    intro q hq hnot
    rcases crashEvent_cases cfg s m kept with heq | ⟨signal, -, heq⟩ | ⟨args, heq, hsettles⟩
    all_goals rw [heq]
    · exact mem_awaiting_step cfg.lower hq (by rintro args ⟨⟩) (by rintro args kept ⟨⟩)
    · exact mem_awaiting_step cfg.lower hq (by rintro args ⟨⟩) (by rintro args kept ⟨⟩)
    · refine mem_awaiting_step cfg.lower hq (by rintro args ⟨⟩) ?_
      rintro args' kept' ⟨⟩ rfl
      exact hnot hsettles
  refine h.deadAfter hjournal hwhole ?_ hnone ?_
  · rcases crashEvent_cases cfg s m kept with heq | ⟨signal, rfl, heq⟩ | ⟨args, heq, -⟩
    all_goals rw [heq]
    · rintro rec ⟨⟩
    · rintro rec ⟨⟩
      exact hm.1.liveIntent
    · rintro rec ⟨⟩ ⟨⟩
  · by_cases henter : ∃ signal, m = .enter signal
    · obtain ⟨signal, rfl⟩ := henter
      exact h.books.mono (fun q hq => hkeep q hq (by rintro ⟨⟩)) fun _ hq => hq
    · have hmoved : s.movedBeforeWrite cfg m = s.moved cfg m := by
        cases m <;> first | rfl | exact absurd ⟨_, rfl⟩ henter
      rw [hmoved]
      exact h.booksMoved hm hkeep fun signal _ hm' => absurd ⟨signal, hm'⟩ henter

lemma crash (h : Safe cfg s) {kept : ℕ} (hnone : s.NonePending) :
    Safe cfg (s.dead.after cfg (.crash kept)) := by
  refine h.deadAfter rfl trivial (by rintro rec ⟨⟩) hnone (h.books.mono ?_ fun _ hq => hq)
  exact fun q hq => mem_awaiting_step cfg.lower hq (by rintro args ⟨⟩) (by rintro args kept ⟨⟩)

lemma start (h : Safe cfg s) (hdown : s.process = none) : Safe cfg (s.after cfg .reload) := by
  obtain ⟨S, U, hinv⟩ := h.journal
  constructor
  · exact hinv.step cfg.lower (e := .reload) trivial
  · exact h.records.step cfg.lower hinv (e := .reload) trivial (by rintro rec ⟨⟩)
  · refine ((h.books.mono ?_ fun _ hq => hq).withKnown (h.down hdown)).withJournal _
    exact fun q hq => mem_awaiting_step cfg.lower hq (by rintro args ⟨⟩) (by rintro args kept ⟨⟩)
  · exact fun _ => h.down hdown

/-- Every step that meets the condition keeps it so. -/
lemma step (h : Safe cfg s) {i : FastStep F} (hi : s.Undisturbed cfg i) :
    Safe cfg (s.step cfg i) := by
  cases i with
  | move m =>
    cases he : s.eventOf cfg m with
    | none =>
      simp only [FastWorld.step, he]
      exact h.moveOnly hi.1 he
    | some e =>
      simp only [FastWorld.step, he]
      exact h.moveAfter hi.1 he (hi.2 e he)
  | crash kept => exact h.crash hi
  | crashDuring m kept => exact h.crashDuring hi.1 hi.2.1 hi.2.2
  | start =>
    unfold FastWorld.step
    dsimp only
    split_ifs with hup
    · exact h
    · exact h.start (by simpa using hup)

lemma submittedOnce (h : Safe cfg s) : s.SubmittedOnce := by
  intro pair
  have hcalls : ∀ c ∈ s.calls.filter fun c => c.pair = pair, c.submissions ≤ 1 := fun c hc =>
    (h.books.calls c (List.mem_filter.1 hc).1).submissions
  have hlength : (s.calls.filter fun c => c.pair = pair).length ≤ 1 := by
    have hnodup : ((s.calls.filter fun c => c.pair = pair).map Call.pair).Nodup :=
      h.books.nodup.sublist (List.filter_sublist.map Call.pair)
    have hsame : ((s.calls.filter fun c => c.pair = pair).map Call.pair) =
        List.replicate (s.calls.filter fun c => c.pair = pair).length pair := by
      refine List.eq_replicate_iff.2 ⟨List.length_map _, fun q hq => ?_⟩
      obtain ⟨c, hc, rfl⟩ := List.mem_map.1 hq
      simpa using (List.mem_filter.1 hc).2
    rw [hsame] at hnodup
    exact List.nodup_replicate.1 hnodup
  calc ((s.calls.filter fun c => c.pair = pair).map Call.submissions).sum
      ≤ ((s.calls.filter fun c => c.pair = pair).map Call.submissions).length • 1 :=
        List.sum_le_card_nsmul _ 1 (List.forall_mem_map.2 hcalls)
    _ ≤ 1 := by simpa using hlength

/-- An intent that awaits its result is open. -/
lemma intentOpen (h : Safe cfg s) {pair : Pair} (hpair : pair ∈ s.journal.ledger.awaiting) :
    s.IntentOpen cfg pair := by
  obtain ⟨S, U, hinv⟩ := h.journal
  cases hj : s.process with
  | some j =>
    have hopened := (hinv.indexed j hj).opened pair (hinv.awaitingOpen j hj pair hpair)
    exact ⟨j, by rw [hj]; rfl, by rw [IntentJournal.isOpen, hopened]; rfl⟩
  | none =>
    have hreload := hinv.reload cfg.lower
    have hload := load_of_objects cfg.lower (hinv.log.read_log ▸ hinv.log.objects)
    refine ⟨_, by rw [hj]; exact hload, ?_⟩
    have hopened := (hreload.indexed _ hload).opened pair (hreload.awaitingOpen _ hload pair hpair)
    rw [IntentJournal.isOpen, hopened]
    rfl

lemma nothingLost (h : Safe cfg s) (hquiet : s.Quiet) : s.NothingLost cfg := by
  intro c hc hheld
  have hcall := h.books.calls c hc
  rcases hcall.covered hheld with hawaits | hrow | hrow
  · exact .inl (h.intentOpen hawaits)
  · obtain ⟨row, hmem⟩ := List.exists_mem_of_ne_nil _ hrow
    have hnodup := h.books.rows
    rw [List.map_append, List.nodup_append] at hnodup
    exact .inr ⟨row, (mem_rowsOf.1 hmem).1, rowsOf_of_nodup hnodup.1 hmem,
      hcall.counts hheld row hmem⟩
  · rw [Books.pending_of_nonePending hquiet.2] at hrow
    exact absurd rfl hrow

end Safe

/-- In every run whose steps are undisturbed, the venue is called at most once for a signal, and
when no call is running, no order that the venue may have is lost or doubled. -/
theorem neverLost_of_undisturbed (cfg : FastConfig) (steps : List (FastStep F))
    (h : EveryStep (FastWorld.step cfg) (FastWorld.Undisturbed cfg) FastWorld.fresh steps) :
    ∀ reached, reached <+: steps →
      (reached.foldl (FastWorld.step cfg) FastWorld.fresh).SubmittedOnce ∧
      ((reached.foldl (FastWorld.step cfg) FastWorld.fresh).Quiet →
        (reached.foldl (FastWorld.step cfg) FastWorld.fresh).NothingLost cfg) := by
  intro reached hreached
  have hsafe : Safe cfg (reached.foldl (FastWorld.step cfg) FastWorld.fresh) :=
    (h.of_prefix hreached).invariant Safe.fresh fun s i hs hi => hs.step hi
  exact ⟨hsafe.submittedOnce, hsafe.nothingLost⟩

end Safe

section Examples

/-- The call of the venue times out, and the process dies; after the next start a pass hands the
order over. -/
def recovered : List (FastStep Unit) :=
  [.start, .move (.enter (buySignal "s1" strip_s1)), .move (.submit 0),
    .move (.answer 0 (.ambiguous true) ()), .crash 60, .start, .move .recoverStart,
    .move (.recoverLook 0 ()), .move (.recoverHand 0 ()), .move (.recoverCommit 0 .committed)]

/-- An order that rests at the venue. -/
def resting : List (FastStep Unit) :=
  [.start, .move (.enter (buySignal "s1" strip_s1)), .move (.submit 0),
    .move (.answer 0 (.returned ⟨.opened, some "0xc1", none⟩) ()), .move (.commit 0 .committed),
    .move (.close 0 ())]

set_option maxRecDepth 100000 in
theorem neverLost_of_recovered :
    (recovered.foldl (FastWorld.step plainConfig) FastWorld.fresh).SubmittedOnce ∧
      (recovered.foldl (FastWorld.step plainConfig) FastWorld.fresh).NothingLost plainConfig :=
  have h := neverLost_of_undisturbed plainConfig recovered (by decide +kernel) recovered
    (List.prefix_refl _)
  ⟨h.1, h.2 (by decide +kernel)⟩

set_option maxRecDepth 100000 in
/-- The order rests at the venue, its intent is closed, and its row says that it failed. -/
theorem restingOrder_is_lost :
    (resting.foldl (FastWorld.step plainConfig) FastWorld.fresh).Quiet ∧
      ¬(resting.foldl (FastWorld.step plainConfig) FastWorld.fresh).NothingLost plainConfig := by
  decide +kernel

end Examples

end Evosport.Orchestrator
