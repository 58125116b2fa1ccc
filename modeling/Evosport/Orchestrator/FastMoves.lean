/-
The moves of the fast order path: the condition under which its books stay in order, what the steps
of a call leave alone, and what a move writes to the journal.
-/
import Evosport.Orchestrator.FastSubmit

namespace Evosport.Orchestrator

open Lib Execution

variable {F : Type}

/-! ## The condition -/

/-- The ids are there, the one of the trader without blanks around it, and their key is a key. -/
structure FastSignal.Named (cfg : FastConfig) (signal : FastSignal F) : Prop where
  strip_trader : strip signal.traderId = signal.traderId
  trader_ne : signal.traderId ≠ ""
  signal_ne : signal.signalId ≠ ""
  key : isFastIdempotencyKey
    (cfg.deriveFastIdempotencyKey signal.traderId signal.signalId) = true

instance (cfg : FastConfig) (signal : FastSignal F) : Decidable (signal.Named cfg) :=
  decidable_of_iff (_ ∧ _ ∧ _ ∧ _)
    ⟨fun ⟨h₁, h₂, h₃, h₄⟩ => ⟨h₁, h₂, h₃, h₄⟩, fun h => ⟨h.1, h.2, h.3, h.4⟩⟩

namespace FastWorld

variable (cfg : FastConfig) (s : FastWorld F)

/-- The journal of the process knows the pair. -/
def Known (pair : Pair) : Prop := ∃ j ∈ s.process, j.hasIntent pair.1 pair.2 = true

/-- There is a call or a row for the pair. -/
def OnBooks (pair : Pair) : Prop := pair ∈ s.calls.map Call.pair ∨ pair ∈ s.rows.map Row.pair

/-- No call for the first intent of the pass is running. -/
def HeadIdle (k : ℕ) : Prop :=
  ∀ p ∈ s.passes[k]?, ∀ rec ∈ p.todo.head?, ∀ pair ∈ recoverPair rec,
    ∀ c ∈ s.calls, c.pair = pair → ¬c.Running

/-- A pass has no rows that are not committed. -/
def NonePending : Prop := ∀ p ∈ s.passes, p.pending = []

/-- The condition on a move: a signal does not come again once the journal has forgotten it; the
venue neither leaves an order resting nor answers that it was submitted; the passes do not overlap,
handle no intent whose call is running, and commit the rows they add. -/
def Orderly : Move F → Prop
  | .enter signal => signal.Named cfg ∧
      (s.OnBooks signal.pair → ∀ j ∈ s.process, j.hasIntent signal.traderId signal.signalId = true)
  | .answer _ (.returned a) _ => a.status ≠ .opened ∧ a.status ≠ .submitted
  | .recoverStart => s.passes = []
  | .recoverLook k _ => s.HeadIdle k
  | .recoverHand k _ => s.HeadIdle k
  | .recoverCommit _ outcome => outcome.isDurable ∨ s.NonePending
  | .recoverAbort _ => s.NonePending
  | _ => True

instance (pair : Pair) : Decidable (s.Known pair) := inferInstanceAs (Decidable (∃ j ∈ _, _))

instance (pair : Pair) : Decidable (s.OnBooks pair) := inferInstanceAs (Decidable (_ ∨ _))

instance (k : ℕ) : Decidable (s.HeadIdle k) := inferInstanceAs (Decidable (∀ p ∈ _, _))

instance : Decidable s.NonePending := inferInstanceAs (Decidable (∀ p ∈ _, _))

instance : ∀ m : Move F, Decidable (s.Orderly cfg m)
  | .enter _ => inferInstanceAs (Decidable (_ ∧ (_ → ∀ j ∈ _, _)))
  | .answer _ (.returned _) _ => inferInstanceAs (Decidable (_ ∧ _))
  | .answer _ (.ambiguous _) _ => inferInstanceAs (Decidable True)
  | .recoverStart => decidable_of_iff (s.passes.isEmpty = true) List.isEmpty_iff
  | .recoverLook k _ => inferInstanceAs (Decidable (s.HeadIdle k))
  | .recoverHand k _ => inferInstanceAs (Decidable (s.HeadIdle k))
  | .recoverCommit _ _ => inferInstanceAs (Decidable (_ ∨ s.NonePending))
  | .recoverAbort _ => inferInstanceAs (Decidable s.NonePending)
  | .abandon _ | .submit _ | .commit _ _ | .close _ _ | .resolve _ =>
    inferInstanceAs (Decidable True)

end FastWorld

/-! ## The steps of a call -/

namespace Call

variable (c : Call F)

lemma pair_abandon : c.abandon.pair = c.pair := by
  unfold abandon
  split_ifs <;> rfl

lemma pair_submit : c.submit.pair = c.pair := by
  unfold submit
  split_ifs <;> rfl

lemma pair_answer (outcome : Outcome) : (c.answer outcome).pair = c.pair := by
  unfold answer
  split_ifs
  · cases outcome with
    | ambiguous held => rfl
    | returned a =>
      dsimp only
      split <;> rfl
  · rfl

lemma pair_commit (outcome : CommitOutcome) : (c.commit outcome).pair = c.pair := by
  unfold commit
  split <;> rfl

lemma pair_close : c.close.pair = c.pair := by
  unfold close
  split <;> rfl

lemma pair_resolve : c.resolve.pair = c.pair := by
  unfold resolve
  split_ifs <;> rfl

variable {c}

lemma row_eq_some {row : Row} (hrow : c.row = some row) :
    ∃ a, c.phase = .persisting a ∧ row = ⟨c.pair, orderStatus a.status, a.clobOrderId⟩ := by
  unfold Call.row at hrow
  split at hrow
  next a hphase => exact ⟨a, hphase, by simpa using hrow.symm⟩
  next => cases hrow

end Call

/-! ## What a move writes -/

/-- The move writes the result of the pair. -/
inductive Settles (cfg : FastConfig) (s : FastWorld F) (pair : Pair) : Move F → Prop
  | answer {i : ℕ} {a : LegAnswer} {ts : F} {c : Call F} (hi : s.calls[i]? = some c)
      (hphase : c.phase = .submitting) (hskipped : a.status = .skipped) (hpair : c.pair = pair) :
      Settles cfg s pair (.answer i (.returned a) ts)
  | close {i : ℕ} {ts : F} {c : Call F} {a : LegAnswer} (hi : s.calls[i]? = some c)
      (hphase : c.phase = .persisted a) (hpair : c.pair = pair) : Settles cfg s pair (.close i ts)
  | look {k : ℕ} {ts : F} {p : Pass F} {rec : Json F} (hk : s.passes[k]? = some p)
      (hrec : rec ∈ p.todo.head?) (hpair : recoverPair rec = some pair)
      (hlive : isLiveKeyed cfg.lower rec = false) : Settles cfg s pair (.recoverLook k ts)
  | hand {k : ℕ} {ts : F} {p : Pass F} {rec : Json F} (hk : s.passes[k]? = some p)
      (hfound : p.found ≠ none) (hrec : rec ∈ p.todo.head?) (hpair : recoverPair rec = some pair) :
      Settles cfg s pair (.recoverHand k ts)

/-- A move writes the intent of a signal that is not turned away, or the result of a pair. -/
lemma eventOf_cases {cfg : FastConfig} {s : FastWorld F} {m : Move F} {e : Event F}
    (h : s.eventOf cfg m = some e) :
    (∃ signal j, m = .enter signal ∧ s.process = some j ∧ ¬s.refuses cfg j signal ∧
      signal.signalId ≠ "" ∧ e = .recordIntent (FastWorld.intentArgs cfg signal)) ∨
    ∃ args, e = .recordResult args ∧ Settles cfg s (args.traderId, args.signalId) m := by
  cases m with
  | enter signal =>
    obtain ⟨j, hj, h⟩ := Option.bind_eq_some_iff.1 h
    split_ifs at h with hnot
    obtain ⟨hrefuses, hid⟩ := not_or.1 hnot
    exact .inl ⟨signal, j, rfl, hj, hrefuses, hid, by simpa using h.symm⟩
  | answer i outcome ts =>
    cases outcome with
    | ambiguous held => cases h
    | returned a =>
      obtain ⟨c, hc, h⟩ := Option.bind_eq_some_iff.1 h
      split_ifs at h with hif
      cases h
      exact .inr ⟨_, rfl, .answer hc hif.1 hif.2.1 rfl⟩
  | close i ts =>
    obtain ⟨c, hc, h⟩ := Option.bind_eq_some_iff.1 h
    split at h
    next a hphase =>
      split_ifs at h
      cases h
      exact .inr ⟨_, rfl, .close hc hphase rfl⟩
    next => cases h
  | recoverLook k ts =>
    obtain ⟨p, hp, h⟩ := Option.bind_eq_some_iff.1 h
    split at h
    next rec todo htodo hfound =>
      obtain ⟨pair, hpair, h⟩ := Option.bind_eq_some_iff.1 h
      split_ifs at h with hlive
      cases h
      exact .inr ⟨_, rfl, .look hp (by simp [htodo]) hpair (by simpa using hlive)⟩
    next => cases h
  | recoverHand k ts =>
    obtain ⟨p, hp, h⟩ := Option.bind_eq_some_iff.1 h
    split at h
    next rec todo found htodo hfound =>
      obtain ⟨pair, hpair, rfl⟩ := Option.map_eq_some_iff.1 h
      exact .inr ⟨_, rfl, .hand hp (by simp [hfound]) (by simp [htodo]) hpair⟩
    next => cases h
  | _ => cases h

section Moved

variable {cfg : FastConfig} {s : FastWorld F}

lemma eventOf_enter {signal : FastSignal F} {j : IntentJournal F} (hj : s.process = some j)
    (hrefuses : ¬s.refuses cfg j signal) (hsignal : signal.signalId ≠ "") :
    s.eventOf cfg (.enter signal) = some (.recordIntent (FastWorld.intentArgs cfg signal)) := by
  simp [FastWorld.eventOf, hj, hrefuses, hsignal]

lemma moved_journal (cfg : FastConfig) (s : FastWorld F) (m : Move F) :
    (s.moved cfg m).journal = s.journal := by
  cases m with
  | enter signal =>
    simp only [FastWorld.moved]
    split
    · rfl
    · split <;> rfl
  | recoverStart =>
    simp only [FastWorld.moved]
    split <;> rfl
  | recoverCommit k outcome =>
    simp only [FastWorld.moved]
    split
    · split <;> rfl
    · rfl
  | _ => rfl

end Moved

section Examples

/-- One open order for every trader. -/
def plainConfig : FastConfig where
  lower := lowerAscii
  lower_live := by decide +kernel
  maxOpenOrders _ := some 1

lemma strip_s1 : strip "s1" = "s1" := by decide +kernel

lemma strip_s2 : strip "s2" = "s2" := by decide +kernel

/-- The signal of a purchase, with an id without blanks around it. -/
def buySignal (signalId : String) (h : strip signalId = signalId) : FastSignal Unit :=
  ⟨"t1", signalId, h, some "tok", some "BUY", none, (), ()⟩

end Examples

end Evosport.Orchestrator
