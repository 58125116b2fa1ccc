/-
# Committing a session with retries

`commit_with_retry` runs one attempt at `session.commit()` through the generic retry loop
`run_with_db_retries`.  A failed attempt rolls the session back before it re-raises, and the
loop commits the same session once more when the error counts as transient.

A session is the writes it has pending and the writes that are durable.  What SQLAlchemy
does is fixed by three facts: a failed commit persists nothing, a rollback discards what is
pending, and the commit of a session with nothing pending does not fail.
-/
import Mathlib.Data.List.Infix
import Mathlib.Data.List.Range
import Mathlib.Order.Lattice
import Mathlib.Data.Int.Order.Basic
import Evosport.Lib.Text

namespace Evosport.Persistence

/-! ## Database errors -/

/-- What the error checks read of one exception object: whether it is a `TimeoutError`, its
text, and its `sqlstate` attribute (`""` when there is none). -/
structure Exn where
  isTimeout : Bool
  text : String
  sqlstate : String
  deriving DecidableEq

/-- An exception with its `orig` attribute, its `__cause__` and its `__context__`. -/
structure DbError extends Exn where
  orig : Option Exn
  cause : Option Exn
  context : Option Exn
  deriving DecidableEq

/-- `_DB_CONNECTION_BROKEN_MARKERS`. -/
def dbConnectionBrokenMarkers : List String :=
  ["cannot switch to state", "another operation", "server disconnected",
    "connection is closed", "underlying connection is closed", "connection has been closed",
    "connection was closed", "connection has been invalidated", "connection invalidated",
    "closed the connection unexpectedly", "terminating connection",
    "connection reset by peer", "broken pipe", "connectiondoesnotexist",
    "closed in the middle of operation", "got result for unknown protocol state"]

/-- `_DB_RETRYABLE_MARKERS`. -/
def dbRetryableMarkers : List String :=
  ["deadlock detected", "serialization failure", "could not serialize access",
    "lock not available", "lock timeout", "canceling statement due to lock timeout",
    "statement timeout", "canceling statement due to statement timeout",
    "too many clients already", "sorry, too many clients already",
    "remaining connection slots are reserved", "cannot connect now"] ++
  dbConnectionBrokenMarkers

/-- `marker in message`. -/
def occursIn (message marker : String) : Bool := decide (marker.toList <:+: message.toList)

section Errors

variable (lower : String → String)

/-- `_db_error_message`; `lower` is `str.lower`. -/
def dbErrorMessage (exc : DbError) : String := lower (exc.orig.getD exc.toExn).text

/-- `is_db_connection_broken`. -/
def isDbConnectionBroken (exc : DbError) : Bool :=
  dbConnectionBrokenMarkers.any (occursIn (dbErrorMessage lower exc))

/-- The first SQLSTATE that is not empty, of `orig`, `__cause__`, `__context__` and the
exception itself. -/
def sqlstateOf (exc : DbError) : String :=
  let states := [exc.orig, exc.cause, exc.context, some exc.toExn].map
    fun e => (e.map Exn.sqlstate).getD ""
  Lib.strip ((states.find? (· ≠ "")).getD "")

/-- `is_retryable_db_error`. -/
def isRetryableDbError (exc : DbError) : Bool :=
  if exc.isTimeout then false
  else if (exc.cause.map Exn.isTimeout).getD false then false
  else if (exc.context.map Exn.isTimeout).getD false then false
  else if sqlstateOf exc ∈ ["40P01", "40001", "55P03", "57014"] then true
  else dbRetryableMarkers.any (occursIn (dbErrorMessage lower exc))

/-- `is_retryable_db_operation_error`. -/
def isRetryableDbOperationError (exc : DbError) : Bool :=
  exc.isTimeout || isRetryableDbError lower exc

end Errors

/-! ## The generic retry loop -/

/-- What awaiting a coroutine ends in.  A cancellation is not an `Exception`: no handler
below catches it. -/
inductive Ending (α : Type) where
  | returned (value : α)
  | raised (exc : DbError)
  | cancelled
  deriving DecidableEq

section Loop

variable {α σ : Type}

/-- The error after the loop: `RuntimeError(...) from last_error`. -/
def loopExited (lastError : Option DbError) : DbError :=
  { isTimeout := false, text := "DB retry loop exited without result", sqlstate := "",
    orig := none, cause := lastError.map DbError.toExn, context := none }

/-- The loop of `run_with_db_retries` over the attempts still to make. -/
def retryLoop (operation : ℕ → σ → Ending α × σ) (isRetryable : DbError → Bool)
    (attempts : ℕ) : List ℕ → Option DbError → σ → Ending α × σ
  | [], lastError, s => (.raised (loopExited lastError), s)
  | attempt :: rest, _, s =>
    match operation attempt s with
    | (.raised exc, s') =>
      if attempts - 1 ≤ attempt ∨ isRetryable exc = false then (.raised exc, s')
      else retryLoop operation isRetryable attempts rest (some exc) s'
    | ended => ended

/-- `run_with_db_retries`. -/
def runWithDbRetries (operation : ℕ → σ → Ending α × σ) (maxAttempts : ℤ)
    (isRetryable : DbError → Bool) (s : σ) : Ending α × σ :=
  let attempts := (max 1 maxAttempts).toNat
  retryLoop operation isRetryable attempts (List.range attempts) none s

variable {operation : ℕ → σ → Ending α × σ} {isRetryable : DbError → Bool}

/-- The loop ends as one of its attempts ends, made in a state that the attempts retried
before it lead to. -/
lemma retryLoop_ends {I : σ → Prop}
    (hretried : ∀ n s exc s', I s → operation n s = (.raised exc, s') →
      isRetryable exc = true → I s')
    {attempts : ℕ} {ns : List ℕ} (hlast : attempts - 1 ∈ ns) (lastError : Option DbError)
    {s : σ} (hs : I s) :
    ∃ n t, I t ∧ retryLoop operation isRetryable attempts ns lastError s = operation n t := by
  induction ns generalizing s lastError with
  | nil => cases hlast
  | cons n rest ih =>
    simp only [retryLoop]
    split
    · next exc s' heq =>
      split
      · exact ⟨n, s, hs, heq.symm⟩
      · next hgo =>
        -- a retried attempt is not the last one, so the last one is still to come
        have hretry : attempts - 1 ∈ rest := by
          rcases List.mem_cons.1 hlast with h | h
          · omega
          · exact h
        exact ih hretry (some exc) (hretried n s exc s' hs heq (by simpa using (not_or.1 hgo).2))
    · exact ⟨n, s, hs, rfl⟩

/-- `run_with_db_retries` never reaches the error after its loop: it ends as one of its
attempts does, and what every retried attempt keeps holds when that attempt starts. -/
theorem runWithDbRetries_ends {I : σ → Prop}
    (hretried : ∀ n s exc s', I s → operation n s = (.raised exc, s') →
      isRetryable exc = true → I s') (maxAttempts : ℤ) {s : σ} (hs : I s) :
    ∃ n t, I t ∧ runWithDbRetries operation maxAttempts isRetryable s = operation n t := by
  refine retryLoop_ends hretried ?_ none hs
  rw [List.mem_range]
  omega

/-- The first attempt alone decides when it does not end in an error that is retried. -/
lemma runWithDbRetries_first {maxAttempts : ℤ} {s : σ}
    (h : ∀ exc s', operation 0 s = (.raised exc, s') → 2 ≤ maxAttempts →
      isRetryable exc = false) :
    runWithDbRetries operation maxAttempts isRetryable s = operation 0 s := by
  obtain ⟨m, hm⟩ : ∃ m, (max 1 maxAttempts).toNat = m + 1 :=
    ⟨(max 1 maxAttempts).toNat - 1, by omega⟩
  have hstop : ∀ exc s', operation 0 s = (.raised exc, s') →
      m + 1 - 1 ≤ 0 ∨ isRetryable exc = false := by
    intro exc s' heq
    by_cases hmax : 2 ≤ maxAttempts
    · exact .inr (h exc s' heq hmax)
    · rw [max_eq_left (by omega : maxAttempts ≤ 1)] at hm
      omega
  simp only [runWithDbRetries, hm, List.range_succ_eq_map, retryLoop]
  split
  · next exc s' heq => rw [if_pos (hstop exc s' heq), heq]
  · rfl

/-- After a retried first attempt the second decides when it does not end in an error. -/
lemma runWithDbRetries_second {maxAttempts : ℤ} {s s' : σ} {exc : DbError}
    (hfirst : operation 0 s = (.raised exc, s')) (hretry : isRetryable exc = true)
    (hmax : 2 ≤ maxAttempts) (hsecond : ∀ exc' s'', operation 1 s' ≠ (.raised exc', s'')) :
    runWithDbRetries operation maxAttempts isRetryable s = operation 1 s' := by
  obtain ⟨m, hm⟩ : ∃ m, (max 1 maxAttempts).toNat = m + 2 :=
    ⟨(max 1 maxAttempts).toNat - 2, by omega⟩
  have hgo : ¬ (m + 2 - 1 ≤ 0 ∨ isRetryable exc = false) := by
    rintro (h | h)
    · omega
    · simp [hretry] at h
  -- `hsecond` rules the handler's branch out of the second round
  simp only [runWithDbRetries, hm, List.range_eq_range', List.range'_succ, retryLoop, hfirst,
    if_neg hgo]

end Loop

/-! ## The commit -/

/-- A session: the writes pending in it, the writes that are durable, and whether its
connection was handed back as unusable. -/
structure Session (W : Type) where
  pending : List W
  durable : List W
  invalidated : Bool
  deriving DecidableEq

/-- What one `session.commit()` meets.  A cancellation of the caller leaves the shielded
commit to run to its end, or finds it not started. -/
inductive CommitOutcome where
  | succeeds
  | fails (exc : DbError)
  | cancelled (done : Bool)

namespace Session

variable {W : Type}

/-- The pending writes become durable. -/
def persist (s : Session W) : Session W :=
  { s with pending := [], durable := s.durable ++ s.pending }

/-- `session.rollback()`. -/
def rollback (s : Session W) : Session W := { s with pending := [] }

/-- `session.invalidate()`. -/
def invalidate (s : Session W) : Session W := { s with pending := [], invalidated := true }

/-- `session.commit()`: with nothing pending no transaction is open, and nothing can fail. -/
def commit (s : Session W) (outcome : CommitOutcome) : Ending Unit × Session W :=
  match outcome with
  | .succeeds => (.returned (), s.persist)
  | .cancelled done => (.cancelled, if done then s.persist else s)
  | .fails exc => if s.pending.isEmpty then (.returned (), s) else (.raised exc, s)

end Session

section Commit

variable {W : Type} (lower : String → String)

/-- `_commit`: one attempt.  An error rolls the session back, and drops its connection when
that is broken, before it is raised again. -/
def commitAttempt (outcomes : ℕ → CommitOutcome) (attempt : ℕ) (s : Session W) :
    Ending Unit × Session W :=
  match s.commit (outcomes attempt) with
  | (.raised exc, s') =>
    let rolledBack := s'.rollback
    (.raised exc,
      if isDbConnectionBroken lower exc then rolledBack.invalidate else rolledBack)
  | ended => ended

/-- `_commit_is_retryable`. -/
def commitIsRetryable (isRetryable : DbError → Bool) (exc : DbError) : Bool :=
  if isDbConnectionBroken lower exc then false else isRetryable exc

/-- `commit_with_retry`; `outcomes n` is what attempt `n` meets. -/
def commitWithRetry (maxAttempts : ℤ) (isRetryable : DbError → Bool)
    (outcomes : ℕ → CommitOutcome) (s : Session W) : Ending Unit × Session W :=
  runWithDbRetries (commitAttempt lower outcomes) maxAttempts
    (commitIsRetryable lower isRetryable) s

variable {isRetryable : DbError → Bool} {outcomes : ℕ → CommitOutcome}
  {maxAttempts : ℤ} {s : Session W}

lemma commitAttempt_succeeds (s : Session W) {n : ℕ} (h : outcomes n = .succeeds) :
    commitAttempt lower outcomes n s = (.returned (), s.persist) := by
  simp [commitAttempt, Session.commit, h]

lemma commitAttempt_cancelled (s : Session W) {n : ℕ} {done : Bool}
    (h : outcomes n = .cancelled done) :
    commitAttempt lower outcomes n s = (.cancelled, if done then s.persist else s) := by
  simp [commitAttempt, Session.commit, h]

/-- A failed attempt leaves nothing pending and makes nothing durable. -/
lemma commitAttempt_fails {n : ℕ} {exc : DbError} (h : outcomes n = .fails exc)
    (hpending : s.pending ≠ []) :
    ∃ s' : Session W, commitAttempt lower outcomes n s = (.raised exc, s') ∧
      s'.pending = [] ∧ s'.durable = s.durable := by
  have hne : s.pending.isEmpty = false := by simpa using hpending
  by_cases hbroken : isDbConnectionBroken lower exc = true
  · exact ⟨s.rollback.invalidate, by simp [commitAttempt, Session.commit, h, hne, hbroken],
      rfl, rfl⟩
  · exact ⟨s.rollback, by simp [commitAttempt, Session.commit, h, hne, hbroken], rfl, rfl⟩

/-- An attempt on a session with nothing pending raises nothing and changes nothing
durable. -/
lemma commitAttempt_of_empty (outcomes : ℕ → CommitOutcome) (hpending : s.pending = []) (n : ℕ) :
    (∃ done, outcomes n = .cancelled done ∧
      (commitAttempt lower outcomes n s).1 = .cancelled) ∨
    (commitAttempt lower outcomes n s).1 = .returned () ∧
      (commitAttempt lower outcomes n s).2.durable = s.durable := by
  cases h : outcomes n with
  | succeeds =>
    right
    rw [commitAttempt_succeeds lower s h]
    simp [Session.persist, hpending]
  | cancelled done => exact .inl ⟨done, rfl, by rw [commitAttempt_cancelled lower s h]⟩
  | fails exc =>
    right
    simp [commitAttempt, Session.commit, h, hpending]

/-- The first attempt fails with an error that is retried, although its rollback has
discarded the writes, and the second attempt is not cancelled. -/
def RetriesEmptied (lower : String → String) (maxAttempts : ℤ)
    (isRetryable : DbError → Bool) (outcomes : ℕ → CommitOutcome) (s : Session W) : Prop :=
  s.pending ≠ [] ∧ 2 ≤ maxAttempts ∧
    (∃ exc, outcomes 0 = .fails exc ∧ isDbConnectionBroken lower exc = false ∧
      isRetryable exc = true) ∧
    ∀ done, outcomes 1 ≠ .cancelled done

/-- When the first attempt's error is retried, the second commits an empty session and the
call returns, with nothing of what was pending made durable. -/
lemma commitWithRetry_of_retriesEmptied
    (h : RetriesEmptied lower maxAttempts isRetryable outcomes s) :
    (commitWithRetry lower maxAttempts isRetryable outcomes s).1 = .returned () ∧
      (commitWithRetry lower maxAttempts isRetryable outcomes s).2.durable = s.durable := by
  obtain ⟨hpending, hmax, ⟨exc, hfirst, hbroken, hretry⟩, hsecond⟩ := h
  obtain ⟨s', hrun, hempty, hdurable⟩ := commitAttempt_fails lower hfirst hpending
  rcases commitAttempt_of_empty lower outcomes hempty 1 with
    ⟨done, hdone, -⟩ | ⟨hret, hdur⟩
  · exact absurd hdone (hsecond done)
  · have hgo : commitIsRetryable lower isRetryable exc = true := by
      simp [commitIsRetryable, hbroken, hretry]
    rw [commitWithRetry, runWithDbRetries_second hrun hgo hmax
      (fun exc' s'' heq => by simp [heq] at hret)]
    exact ⟨hret, hdur.trans hdurable⟩

/-- A call that returns has made its writes durable, unless it retried an emptied session. -/
lemma durable_of_returned (h : ¬ RetriesEmptied lower maxAttempts isRetryable outcomes s)
    (hret : (commitWithRetry lower maxAttempts isRetryable outcomes s).1 = .returned ()) :
    (commitWithRetry lower maxAttempts isRetryable outcomes s).2.durable =
      s.durable ++ s.pending := by
  by_cases hpending : s.pending = []
  · -- nothing pending: no attempt raises, and the first one decides
    have hfirst : commitWithRetry lower maxAttempts isRetryable outcomes s =
        commitAttempt lower outcomes 0 s := by
      refine runWithDbRetries_first fun exc s' heq _ => ?_
      rcases commitAttempt_of_empty lower outcomes hpending 0 with
        ⟨-, -, h⟩ | ⟨h, -⟩ <;> simp [heq] at h
    rw [hfirst] at hret ⊢
    rcases commitAttempt_of_empty lower outcomes hpending 0 with
      ⟨-, -, h⟩ | ⟨-, h⟩
    · simp [h] at hret
    · simp [h, hpending]
  cases h₀ : outcomes 0 with
  | succeeds =>
    have hrun := commitAttempt_succeeds lower s h₀
    rw [commitWithRetry, runWithDbRetries_first (by simp [hrun]), hrun]
    rfl
  | cancelled done =>
    have hrun := commitAttempt_cancelled lower s h₀
    rw [commitWithRetry, runWithDbRetries_first (by simp [hrun]), hrun] at hret
    cases hret
  | fails exc =>
    obtain ⟨s', hrun, hempty, -⟩ := commitAttempt_fails lower h₀ hpending
    by_cases hgo : 2 ≤ maxAttempts ∧ commitIsRetryable lower isRetryable exc = true
    · -- the retry was made: only a cancelled second attempt is left, and it does not return
      have hbroken : isDbConnectionBroken lower exc = false := by
        by_contra hb
        simp [commitIsRetryable, hb] at hgo
      have hretry : isRetryable exc = true := by
        simpa [commitIsRetryable, hbroken] using hgo.2
      have hcancelled : ¬ ∀ done, outcomes 1 ≠ .cancelled done := fun hsecond =>
        h ⟨hpending, hgo.1, ⟨exc, h₀, hbroken, hretry⟩, hsecond⟩
      push Not at hcancelled
      obtain ⟨done, hdone⟩ := hcancelled
      have hrun₁ := commitAttempt_cancelled lower s' hdone
      rw [commitWithRetry, runWithDbRetries_second hrun hgo.2 hgo.1 (by simp [hrun₁]),
        hrun₁] at hret
      cases hret
    · rw [commitWithRetry, runWithDbRetries_first, hrun] at hret
      · cases hret
      · intro exc' s'' heq hmax
        obtain ⟨rfl, rfl⟩ : exc = exc' ∧ s' = s'' := by simpa [hrun] using heq
        simpa [hmax] using hgo

/-- `commit_with_retry` returns only with the pending writes made durable, exactly when the
first attempt does not fail with an error that the loop retries: the retry finds the session
emptied by the rollback, and its success says nothing about those writes. -/
theorem commitWithRetry_durable_iff (lower : String → String) (maxAttempts : ℤ)
    (isRetryable : DbError → Bool) (outcomes : ℕ → CommitOutcome) (s : Session W) :
    ((commitWithRetry lower maxAttempts isRetryable outcomes s).1 = .returned () →
      (commitWithRetry lower maxAttempts isRetryable outcomes s).2.durable =
        s.durable ++ s.pending) ↔
      ¬ RetriesEmptied lower maxAttempts isRetryable outcomes s := by
  refine ⟨fun h hemptied => ?_, durable_of_returned lower⟩
  obtain ⟨hret, hdur⟩ := commitWithRetry_of_retriesEmptied lower hemptied
  have hnil : s.pending = [] := by simpa [hdur] using h hret
  exact hemptied.1 hnil

/-- The error PostgreSQL reports to one of two transactions that wait for each other. -/
def deadlockDetected : DbError :=
  { isTimeout := false, text := "deadlock detected", sqlstate := "40P01", orig := none,
    cause := none, context := none }

/-- One pending write, a deadlock at the first commit, four attempts: the call returns and
nothing is durable. -/
theorem commitWithRetry_loses_write :
    ¬ ((commitWithRetry id 4 (isRetryableDbOperationError id)
        (fun n => if n = 0 then .fails deadlockDetected else .succeeds)
        ⟨["order"], [], false⟩).1 = .returned () →
      (commitWithRetry id 4 (isRetryableDbOperationError id)
        (fun n => if n = 0 then .fails deadlockDetected else .succeeds)
        ⟨["order"], [], false⟩).2.durable = [] ++ ["order"]) := by
  decide +kernel

end Commit

end Evosport.Persistence
