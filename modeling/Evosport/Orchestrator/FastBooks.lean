/-
The books of the fast path: its rows, its calls and its passes, beside what the journal awaits a
result for.  They are kept in order (`Books`) by every move that meets its condition (`Orderly`).
-/
import Evosport.Orchestrator.FastMoves

namespace Evosport.Orchestrator

open Lib Execution

variable {F : Type}

/-! ## Rows -/

/-- The row stands for an order that was taken. -/
def RowStatus.Counts (status : RowStatus) : Prop := status ≠ .failed ∧ status ≠ .cancelled

instance (status : RowStatus) : Decidable status.Counts := inferInstanceAs (Decidable (_ ∧ _))

/-- The rows of the pair. -/
def rowsOf (rows : List Row) (pair : Pair) : List Row := rows.filter fun row => row.pair = pair

section Rows

variable {rows : List Row} {pair : Pair} {row : Row}

lemma mem_rowsOf : row ∈ rowsOf rows pair ↔ row ∈ rows ∧ row.pair = pair := by
  simp [rowsOf]

@[simp] lemma rowsOf_nil (pair : Pair) : rowsOf [] pair = [] := rfl

@[simp] lemma rowsOf_append (rows rows' : List Row) (pair : Pair) :
    rowsOf (rows ++ rows') pair = rowsOf rows pair ++ rowsOf rows' pair :=
  List.filter_append _ _

lemma rowsOf_eq_nil : rowsOf rows pair = [] ↔ pair ∉ rows.map Row.pair := by
  simp [rowsOf, List.filter_eq_nil_iff]

lemma rowsOf_singleton (row : Row) : rowsOf [row] row.pair = [row] := by
  simp [rowsOf]

lemma rowsOf_singleton_of_ne (h : row.pair ≠ pair) : rowsOf [row] pair = [] := by
  simp [rowsOf, h]

/-- Where the pairs of the rows differ, a pair has one row. -/
lemma rowsOf_of_nodup (h : (rows.map Row.pair).Nodup) (hrow : row ∈ rowsOf rows pair) :
    rowsOf rows pair = [row] := by
  obtain ⟨hmem, rfl⟩ := mem_rowsOf.1 hrow
  obtain ⟨before, behind, rfl⟩ := List.append_of_mem hmem
  rw [List.map_append, List.map_cons, List.nodup_middle, List.nodup_cons, List.mem_append] at h
  obtain ⟨hbefore, hbehind⟩ := not_or.1 h.1
  have hcons : rowsOf (row :: behind) row.pair = row :: rowsOf behind row.pair := by
    simp [rowsOf]
  rw [rowsOf_append, hcons, rowsOf_eq_nil.2 hbefore, rowsOf_eq_nil.2 hbehind]
  rfl

end Rows

/-! ## The books -/

/-- A call is in order: while it runs, its intent awaits the result, and its row is there from its
commit on and not before; and an order the venue may have is found in the journal, among the rows or
in a pass. -/
structure CallOk (awaiting : List Pair) (rows pending : List Row) (c : Call F) : Prop where
  submissions : c.submissions ≤ 1
  intended : c.phase = .intended → c.submissions = 0 ∧ c.held = false
  awaits : c.Running → c.pair ∈ awaiting
  unwritten : c.Running → (∀ a, c.phase ≠ .persisted a) → rowsOf rows c.pair = []
  written : ∀ a, c.phase = .persisted a → rowsOf rows c.pair ≠ []
  idle : c.Running → rowsOf pending c.pair = []
  answered : ∀ a, c.phase = .persisting a → c.held → a.status = .executed
  counts : c.held → ∀ row ∈ rowsOf rows c.pair, row.status.Counts
  covered : c.held →
    c.pair ∈ awaiting ∨ rowsOf rows c.pair ≠ [] ∨ rowsOf pending c.pair ≠ []

/-- What others do leaves a call in order, as long as it does not touch its pair. -/
lemma CallOk.frame {awaiting awaiting' : List Pair} {rows rows' pending pending' : List Row}
    {c : Call F} (h : CallOk awaiting rows pending c)
    (hawaiting : c.pair ∈ awaiting → c.pair ∈ awaiting')
    (hrows : rowsOf rows' c.pair = rowsOf rows c.pair)
    (hpending : rowsOf pending' c.pair = rowsOf pending c.pair) :
    CallOk awaiting' rows' pending' c where
  submissions := h.submissions
  intended := h.intended
  awaits hrunning := hawaiting (h.awaits hrunning)
  unwritten := by rw [hrows]; exact h.unwritten
  written := by rw [hrows]; exact h.written
  idle := by rw [hpending]; exact h.idle
  answered := h.answered
  counts := by rw [hrows]; exact h.counts
  covered hheld := by
    rw [hrows, hpending]
    exact (h.covered hheld).imp_left hawaiting

/-! ### Calls -/

namespace CallOk

variable {awaiting awaiting' : List Pair} {rows pending : List Row} {c : Call F}

/-- A call that has just recorded its intent. -/
lemma enter {signal : FastSignal F} (hawaits : signal.pair ∈ awaiting)
    (hrows : signal.pair ∉ rows.map Row.pair) (hpending : signal.pair ∉ pending.map Row.pair) :
    CallOk awaiting rows pending { signal } where
  submissions := Nat.zero_le 1
  intended _ := ⟨rfl, rfl⟩
  awaits _ := hawaits
  unwritten _ _ := rowsOf_eq_nil.2 hrows
  written := by rintro a ⟨⟩
  idle _ := rowsOf_eq_nil.2 hpending
  answered := by rintro a ⟨⟩
  counts := by rintro ⟨⟩
  covered := by rintro ⟨⟩

/-- A call that ends without a row is covered as long as its intent awaits the result. -/
lemma ended (h : CallOk awaiting rows pending c) (hrunning : c.Running) {held live : Bool}
    (hunwritten : ∀ a, c.phase ≠ .persisted a) (hawaiting : held = true → c.pair ∈ awaiting') :
    CallOk awaiting' rows pending { c with phase := .ended, held := held, live := live } where
  submissions := h.submissions
  intended := by rintro ⟨⟩
  awaits hended := absurd rfl hended
  unwritten hended := absurd rfl hended
  written := by rintro a ⟨⟩
  idle hended := absurd rfl hended
  answered := by rintro a ⟨⟩
  counts := by
    intro _ row hrow
    have hnil : rowsOf rows c.pair = [] := h.unwritten hrunning hunwritten
    exact absurd (hnil ▸ hrow) List.not_mem_nil
  covered hheld := .inl (hawaiting hheld)

lemma abandon (h : CallOk awaiting rows pending c)
    (hawaiting : c.pair ∈ awaiting → c.pair ∈ awaiting') :
    CallOk awaiting' rows pending c.abandon := by
  unfold Call.abandon
  split_ifs with hphase
  · refine h.ended (by simp [Call.Running, hphase]) (by simp [hphase]) fun hheld => ?_
    rw [(h.intended hphase).2] at hheld
    cases hheld
  · exact h.frame hawaiting rfl rfl

lemma submit (h : CallOk awaiting rows pending c)
    (hawaiting : c.pair ∈ awaiting → c.pair ∈ awaiting') :
    CallOk awaiting' rows pending c.submit := by
  unfold Call.submit
  split_ifs with hphase
  · have hrunning : c.Running := by simp [Call.Running, hphase]
    have hnil : rowsOf rows c.pair = [] := h.unwritten hrunning (by simp [hphase])
    refine ⟨?_, ?_, fun _ => hawaiting (h.awaits hrunning), fun _ _ => hnil, ?_,
      fun _ => h.idle hrunning, ?_, ?_, fun _ => .inl (hawaiting (h.awaits hrunning))⟩
    · show c.submissions + 1 ≤ 1
      rw [(h.intended hphase).1]
    · rintro ⟨⟩
    · rintro a ⟨⟩
    · rintro a ⟨⟩
    · intro _ row hrow
      exact absurd (hnil ▸ hrow) List.not_mem_nil
  · exact h.frame hawaiting rfl rfl

/-- The answer has come, and the intent awaits the result. -/
lemma persisting (h : CallOk awaiting rows pending c) (hphase : c.phase = .submitting)
    {a : LegAnswer} {held live : Bool} (hanswered : held = true → a.status = .executed)
    (hawaiting : c.pair ∈ awaiting → c.pair ∈ awaiting') :
    CallOk awaiting' rows pending
      { c with phase := .persisting a, held := held, live := live } := by
  have hrunning : c.Running := by simp [Call.Running, hphase]
  have hnil : rowsOf rows c.pair = [] := h.unwritten hrunning (by simp [hphase])
  refine ⟨h.submissions, ?_, fun _ => hawaiting (h.awaits hrunning), fun _ _ => hnil, ?_,
    fun _ => h.idle hrunning, ?_, ?_, fun _ => .inl (hawaiting (h.awaits hrunning))⟩
  · rintro ⟨⟩
  · rintro a' ⟨⟩
  · rintro a' ⟨⟩ hheld
    exact hanswered hheld
  · intro _ row hrow
    exact absurd (hnil ▸ hrow) List.not_mem_nil

/-- An answer other than that the order rests or was submitted; only a leg that was skipped closes
its intent. -/
lemma answer (h : CallOk awaiting rows pending c) {outcome : Outcome}
    (houtcome : ∀ a, outcome = .returned a → a.status ≠ .opened ∧ a.status ≠ .submitted)
    (hawaiting : (∀ a, outcome = .returned a → c.phase = .submitting → a.status ≠ .skipped) →
      c.pair ∈ awaiting → c.pair ∈ awaiting') :
    CallOk awaiting' rows pending (c.answer outcome) := by
  unfold Call.answer
  split_ifs with hphase
  · have hrunning : c.Running := by simp [Call.Running, hphase]
    have hunwritten : ∀ a, c.phase ≠ .persisted a := by simp [hphase]
    cases outcome with
    | ambiguous held =>
      exact h.ended hrunning hunwritten fun _ =>
        hawaiting (fun a ha => by cases ha) (h.awaits hrunning)
    | returned a =>
      dsimp only
      have hresult : a.status ≠ .skipped → c.pair ∈ awaiting → c.pair ∈ awaiting' := by
        intro hskipped
        refine hawaiting fun a' ha' _ => ?_
        cases ha'
        exact hskipped
      split
      next hskipped => exact h.ended hrunning hunwritten (by rintro ⟨⟩)
      next hfailed => exact h.persisting hphase (by rintro ⟨⟩) (hresult (by simp [hfailed]))
      next hexecuted =>
        exact h.persisting hphase (fun _ => hexecuted) (hresult (by simp [hexecuted]))
      next hopened => exact absurd hopened (houtcome a rfl).1
      next hsubmitted => exact absurd hsubmitted (houtcome a rfl).2
  · exact h.frame (hawaiting fun a _ hsubmitting => absurd hsubmitting hphase) rfl rfl

/-- The row of the call has become durable. -/
lemma persist (h : CallOk awaiting rows pending c) {a : LegAnswer}
    (hphase : c.phase = .persisting a) {phase : Phase}
    (hnext : phase = .persisted a ∨ phase = .ended) (hawaits : c.pair ∈ awaiting') :
    CallOk awaiting' (rows ++ [⟨c.pair, orderStatus a.status, a.clobOrderId⟩]) pending
      { c with phase := phase } := by
  have hrunning : c.Running := by simp [Call.Running, hphase]
  have hrows : rowsOf (rows ++ [⟨c.pair, orderStatus a.status, a.clobOrderId⟩]) c.pair =
      [⟨c.pair, orderStatus a.status, a.clobOrderId⟩] := by
    rw [rowsOf_append, h.unwritten hrunning (by simp [hphase])]
    exact rowsOf_singleton ⟨c.pair, orderStatus a.status, a.clobOrderId⟩
  refine ⟨h.submissions, ?_, fun _ => hawaits, ?_, ?_, fun _ => h.idle hrunning, ?_, ?_,
    fun _ => .inl hawaits⟩
  · rintro rfl
    rcases hnext with ⟨⟨⟩⟩ | ⟨⟨⟩⟩
  · intro hrunning' hnot
    rcases hnext with hpersisted | hended
    · exact absurd hpersisted (hnot a)
    · exact absurd hended hrunning'
  · intro _ _ hnil
    exact List.cons_ne_nil _ _ (hrows.symm.trans hnil)
  · rintro a' rfl
    rcases hnext with ⟨⟨⟩⟩ | ⟨⟨⟩⟩
  · intro hheld row hrow
    have hmem : row ∈ [_] := hrows ▸ hrow
    rw [List.mem_singleton.1 hmem, h.answered a hphase hheld]
    show RowStatus.executed.Counts
    decide

/-- The commit of the row, whatever its end. -/
lemma commit (h : CallOk awaiting rows pending c) (outcome : CommitOutcome)
    (hawaiting : c.pair ∈ awaiting → c.pair ∈ awaiting') :
    CallOk awaiting' (rows ++ if outcome.isDurable then c.row.toList else []) pending
      (c.commit outcome) := by
  by_cases hphase : ∃ a, c.phase = .persisting a
  · obtain ⟨a, hphase⟩ := hphase
    have hrunning : c.Running := by simp [Call.Running, hphase]
    have hrow : c.row = some ⟨c.pair, orderStatus a.status, a.clobOrderId⟩ := by
      simp [Call.row, hphase]
    have hawaits : c.pair ∈ awaiting' := hawaiting (h.awaits hrunning)
    cases outcome with
    | committed =>
      simp only [Call.commit, hphase, CommitOutcome.isDurable, if_true, hrow, Option.toList_some]
      exact h.persist hphase (.inl rfl) hawaits
    | failed =>
      simp only [Call.commit, hphase, CommitOutcome.isDurable, Bool.false_eq_true, if_false,
        List.append_nil, reduceCtorEq]
      exact h.ended hrunning (by simp [hphase]) fun _ => hawaits
    | lost =>
      simp only [Call.commit, hphase, CommitOutcome.isDurable, if_true, hrow, Option.toList_some,
        reduceCtorEq, if_false]
      exact h.persist hphase (.inr rfl) hawaits
  · have hrow : c.row = none := by
      unfold Call.row
      split
      next a ha => exact absurd ⟨a, ha⟩ hphase
      next => rfl
    have hcommit : c.commit outcome = c := by
      unfold Call.commit
      split
      next a ha => exact absurd ⟨a, ha⟩ hphase
      next => rfl
    rw [hrow, hcommit, Option.toList_none, ite_self, List.append_nil]
    exact h.frame hawaiting rfl rfl

/-- The hand-over: the row is there. -/
lemma close (h : CallOk awaiting rows pending c)
    (hawaiting : (∀ a, c.phase ≠ .persisted a) → c.pair ∈ awaiting → c.pair ∈ awaiting') :
    CallOk awaiting' rows pending c.close := by
  unfold Call.close
  split
  next a hphase =>
    exact ⟨h.submissions, by rintro ⟨⟩, fun hended => absurd rfl hended,
      fun hended => absurd rfl hended, by rintro a ⟨⟩, fun hended => absurd rfl hended,
      by rintro a ⟨⟩, h.counts, fun _ => .inr (.inl (h.written a hphase))⟩
  next hnot => exact h.frame (hawaiting hnot) rfl rfl

lemma resolve (h : CallOk awaiting rows pending c)
    (hawaiting : c.pair ∈ awaiting → c.pair ∈ awaiting') :
    CallOk awaiting' rows pending c.resolve := by
  have h' := h.frame hawaiting rfl rfl
  unfold Call.resolve
  split_ifs
  · exact h'
  · exact ⟨h'.submissions, h'.intended, h'.awaits, h'.unwritten, h'.written, h'.idle, h'.answered,
      h'.counts, h'.covered⟩

/-- The process dies while no row waits for its commit. -/
lemma die (h : CallOk awaiting rows [] c) : CallOk awaiting rows [] c.die where
  submissions := h.submissions
  intended := by rintro ⟨⟩
  awaits hended := absurd rfl hended
  unwritten hended := absurd rfl hended
  written := by rintro a ⟨⟩
  idle _ := rfl
  answered := by rintro a ⟨⟩
  counts := h.counts
  covered := h.covered

end CallOk

/-! ### Passes -/

/-- A pass is in order: its intents are known live orders, the rows it adds are for known pairs, and
what its query found is still so. -/
structure PassOk (cfg : FastConfig) (known : Pair → Prop) (rows : List Row) (calls : List (Call F))
    (p : Pass F) : Prop where
  todo : ∀ rec ∈ p.todo, isLiveKeyed cfg.lower rec = true ∧ ∀ pair ∈ recoverPair rec, known pair
  pending : ∀ row ∈ p.pending, row.status = .placing ∧ known row.pair
  found : ∀ found, p.found = some found → ∀ rec ∈ p.todo.head?, ∀ pair ∈ recoverPair rec,
    (found.isSome ↔ pair ∈ (rows ++ p.pending).map Row.pair) ∧
      ∀ c ∈ calls, c.pair = pair → ¬c.Running

lemma PassOk.mono {cfg : FastConfig} {known known' : Pair → Prop} {rows : List Row}
    {calls : List (Call F)} {p : Pass F} (h : PassOk cfg known rows calls p)
    (hknown : ∀ pair, known pair → known' pair) : PassOk cfg known' rows calls p where
  todo rec hrec := ⟨(h.todo rec hrec).1, fun pair hpair => hknown pair ((h.todo rec hrec).2 pair hpair)⟩
  pending row hrow := (h.pending row hrow).imp_right (hknown row.pair)
  found := h.found

/-- A pass keeps in order when no row comes up for what its query looked for, and no call of it. -/
lemma PassOk.frame {cfg : FastConfig} {known : Pair → Prop} {rows extra : List Row}
    {calls calls' : List (Call F)} {p : Pass F} (h : PassOk cfg known rows calls p)
    (hextra : ∀ row ∈ extra, ∃ c ∈ calls, c.pair = row.pair ∧ c.Running)
    (hcalls : ∀ c' ∈ calls', c'.Running →
      (∃ c ∈ calls, c.pair = c'.pair ∧ c.Running) ∨ ¬known c'.pair) :
    PassOk cfg known (rows ++ extra) calls' p where
  todo := h.todo
  pending := h.pending
  found := by
    intro found hfound rec hrec pair hpair
    obtain ⟨hiff, hidle⟩ := h.found found hfound rec hrec pair hpair
    have hnew : pair ∉ extra.map Row.pair := by
      intro hmem
      obtain ⟨row, hrow, rfl⟩ := List.mem_map.1 hmem
      obtain ⟨c, hc, hcpair, hrunning⟩ := hextra row hrow
      exact hidle c hc hcpair hrunning
    refine ⟨hiff.trans ?_, fun c' hc' hpair' hrunning' => ?_⟩
    · simp only [List.map_append, List.mem_append]
      tauto
    · rcases hcalls c' hc' hrunning' with ⟨c, hc, hcpair, hrunning⟩ | hunknown
      · exact hidle c hc (hcpair.trans hpair') hrunning
      · exact hunknown (hpair' ▸ (h.todo rec (List.mem_of_mem_head? hrec)).2 pair hpair)

/-! ### The books -/

/-- The rows that the passes have not committed yet. -/
def FastWorld.pending (s : FastWorld F) : List Row := s.passes.flatMap Pass.pending

/-- The books are in order: there is one call and one row at most for a pair, one pass at most, and
each of them is in order. -/
structure Books (cfg : FastConfig) (awaiting : List Pair) (known : Pair → Prop) (s : FastWorld F) :
    Prop where
  nodup : (s.calls.map Call.pair).Nodup
  rows : ((s.rows ++ s.pending).map Row.pair).Nodup
  single : s.passes.length ≤ 1
  calls : ∀ c ∈ s.calls, CallOk awaiting s.rows s.pending c
  passes : ∀ p ∈ s.passes, PassOk cfg known s.rows s.calls p

namespace Books

variable {cfg : FastConfig} {awaiting awaiting' : List Pair} {known known' : Pair → Prop}
  {s : FastWorld F}

lemma mono (h : Books cfg awaiting known s) (hawaiting : awaiting ⊆ awaiting')
    (hknown : ∀ pair, known pair → known' pair) : Books cfg awaiting' known' s where
  nodup := h.nodup
  rows := h.rows
  single := h.single
  calls c hc := (h.calls c hc).frame (fun hmem => hawaiting hmem) rfl rfl
  passes p hp := (h.passes p hp).mono hknown

lemma withHot (h : Books cfg awaiting known s) (hot : List TrackedOrder) :
    Books cfg awaiting known { s with hot := hot } :=
  ⟨h.nodup, h.rows, h.single, h.calls, h.passes⟩

/-- The journal is no part of the books, but for what it awaits and knows. -/
lemma withJournal (h : Books cfg awaiting known s) (journal : Run F) :
    Books cfg awaiting known { s with journal := journal } :=
  ⟨h.nodup, h.rows, h.single, h.calls, h.passes⟩

/-- Without a pass it does not matter what is known. -/
lemma withKnown (h : Books cfg awaiting known s) (hnone : s.passes = []) :
    Books cfg awaiting known' s :=
  ⟨h.nodup, h.rows, h.single, h.calls, by simp [hnone]⟩

/-- One call moves, and its row may become durable. -/
lemma modifyCall (h : Books cfg awaiting known s) {i : ℕ} {f : Call F → Call F} {extra : List Row}
    (hpair : ∀ c, (f c).pair = c.pair) (hrunning : ∀ c, (f c).Running → c.Running)
    (hextra : ∀ row ∈ extra, ∃ c, s.calls[i]? = some c ∧ c.pair = row.pair ∧ c.Running ∧
      ∀ a, c.phase ≠ .persisted a)
    (hone : extra.length ≤ 1)
    (hawaiting : ∀ q ∈ awaiting, (∀ c, s.calls[i]? = some c → q ≠ c.pair) → q ∈ awaiting')
    (hok : ∀ c, s.calls[i]? = some c → CallOk awaiting s.rows s.pending c →
      CallOk awaiting' (s.rows ++ extra) s.pending (f c)) :
    Books cfg awaiting' known { s with rows := s.rows ++ extra, calls := s.calls.modify i f } := by
  cases hi : s.calls[i]? with
  | none =>
    have hnil : extra = [] := by
      refine List.eq_nil_iff_forall_not_mem.2 fun row hrow => ?_
      obtain ⟨c, hc, -⟩ := hextra row hrow
      rw [hi] at hc
      cases hc
    have hsame : s.calls.modify i f = s.calls := List.modify_eq_self (List.getElem?_eq_none_iff.1 hi)
    rw [hnil, hsame, List.append_nil]
    refine h.mono (fun q hq => hawaiting q hq fun c hc => ?_) fun _ hq => hq
    rw [hi] at hc
    cases hc
  | some c =>
    have hmem : c ∈ s.calls := List.mem_of_getElem? hi
    have hcall : CallOk awaiting s.rows s.pending c := h.calls c hmem
    obtain ⟨before, c', behind, hcalls, hlength, hmodify⟩ :=
      List.exists_of_modify f (List.getElem?_eq_some_iff.1 hi).1
    obtain rfl : c' = c := by
      rw [hcalls, ← hlength] at hi
      simpa using hi
    have hothers : ∀ d ∈ s.calls.modify i f, d = f c' ∨ d ∈ s.calls ∧ d.pair ≠ c'.pair := by
      intro d hd
      have hnodup := h.nodup
      rw [hcalls, List.map_append, List.map_cons, List.nodup_middle, List.nodup_cons,
        ← List.map_append, List.mem_map, not_exists] at hnodup
      rw [hmodify, List.mem_append, List.mem_cons] at hd
      have hne : d ∈ before ++ behind → d = f c' ∨ d ∈ s.calls ∧ d.pair ≠ c'.pair := by
        intro hd'
        refine .inr ⟨?_, fun heq => hnodup.1 d ⟨hd', heq⟩⟩
        rw [hcalls, List.mem_append, List.mem_cons]
        exact (List.mem_append.1 hd').imp_right .inr
      rcases hd with hd | rfl | hd
      · exact hne (List.mem_append_left behind hd)
      · exact .inl rfl
      · exact hne (List.mem_append_right before hd)
    have hextra' : ∀ row ∈ extra, row.pair = c'.pair ∧ c'.Running ∧ ∀ a, c'.phase ≠ .persisted a := by
      intro row hrow
      obtain ⟨d, hd, heq, hrest⟩ := hextra row hrow
      rw [hi] at hd
      cases hd
      exact ⟨heq.symm, hrest⟩
    constructor
    · have hpairs : (s.calls.modify i f).map Call.pair = s.calls.map Call.pair := by
        rw [hmodify, hcalls]
        simp [hpair]
      show ((s.calls.modify i f).map Call.pair).Nodup
      rw [hpairs]
      exact h.nodup
    · show ((s.rows ++ extra ++ s.pending).map Row.pair).Nodup
      cases extra with
      | nil => simpa using h.rows
      | cons row rest =>
        obtain rfl : rest = [] := List.eq_nil_of_length_eq_zero (by simpa using hone)
        obtain ⟨hrow, hrun, hnot⟩ := hextra' row List.mem_cons_self
        have hrows : row.pair ∉ s.rows.map Row.pair := by
          rw [hrow]
          exact rowsOf_eq_nil.1 (hcall.unwritten hrun hnot)
        have hpending : row.pair ∉ s.pending.map Row.pair := by
          rw [hrow]
          exact rowsOf_eq_nil.1 (hcall.idle hrun)
        have hrest := h.rows
        rw [List.map_append] at hrest
        rw [List.append_assoc, List.map_append, List.singleton_append, List.map_cons,
          List.nodup_middle, List.nodup_cons, List.mem_append]
        exact ⟨not_or.2 ⟨hrows, hpending⟩, hrest⟩
    · exact h.single
    · intro d hd
      rcases hothers d hd with rfl | ⟨hd', hne⟩
      · exact hok c' hi hcall
      · have hnone : rowsOf extra d.pair = [] := by
          rw [rowsOf_eq_nil]
          intro hmem
          obtain ⟨row, hrow, heq⟩ := List.mem_map.1 hmem
          exact hne (heq.symm.trans (hextra' row hrow).1)
        refine (h.calls d hd').frame (fun hq => hawaiting d.pair hq fun e he => ?_) ?_ rfl
        · rw [hi] at he
          cases he
          exact hne
        · rw [rowsOf_append, hnone, List.append_nil]
    · intro p hp
      refine (h.passes p hp).frame (fun row hrow => ?_) fun d hd hrun => .inl ?_
      · obtain ⟨heq, hrun, -⟩ := hextra' row hrow
        exact ⟨c', hmem, heq.symm, hrun⟩
      · rcases hothers d hd with rfl | ⟨hd', -⟩
        · exact ⟨c', hmem, (hpair c').symm, hrunning c' hrun⟩
        · exact ⟨d, hd', rfl, hrun⟩

/-- One call moves, and no row becomes durable. -/
lemma moveCall (h : Books cfg awaiting known s) {i : ℕ} {f : Call F → Call F}
    (hpair : ∀ c, (f c).pair = c.pair) (hrunning : ∀ c, c.phase = .ended → (f c).phase = .ended)
    (hawaiting : ∀ q ∈ awaiting, (∀ c, s.calls[i]? = some c → q ≠ c.pair) → q ∈ awaiting')
    (hok : ∀ c, s.calls[i]? = some c → CallOk awaiting s.rows s.pending c →
      CallOk awaiting' s.rows s.pending (f c)) :
    Books cfg awaiting' known { s with calls := s.calls.modify i f } := by
  have hmodify : Books cfg awaiting' known
      { s with rows := s.rows ++ [], calls := s.calls.modify i f } := by
    refine h.modifyCall hpair (fun c hrun hended => hrun (hrunning c hended)) (by simp)
      (Nat.zero_le 1) hawaiting fun c hc hcall => ?_
    rw [List.append_nil]
    exact hok c hc hcall
  rwa [List.append_nil] at hmodify

/-- A call comes in for a pair that is neither on the books nor known. -/
lemma enter (h : Books cfg awaiting known s) {signal : FastSignal F}
    (hbooks : ¬s.OnBooks signal.pair) (hunknown : ¬known signal.pair)
    (hawaits : signal.pair ∈ awaiting') (hawaiting : awaiting ⊆ awaiting') :
    Books cfg awaiting' known { s with calls := s.calls ++ [{ signal }] } := by
  obtain ⟨hcalls, hrows⟩ := not_or.1 hbooks
  have hpending : signal.pair ∉ s.pending.map Row.pair := by
    intro hmem
    obtain ⟨row, hrow, heq⟩ := List.mem_map.1 hmem
    obtain ⟨p, hp, hrow⟩ := List.mem_flatMap.1 hrow
    exact hunknown (heq ▸ ((h.passes p hp).pending row hrow).2)
  constructor
  · rw [List.map_append, List.nodup_append]
    refine ⟨h.nodup, List.nodup_singleton _, ?_⟩
    rintro pair hpair pair' hpair' rfl
    have heq : pair = signal.pair := List.mem_singleton.1 hpair'
    exact hcalls (heq ▸ hpair)
  · exact h.rows
  · exact h.single
  · intro c hc
    rcases List.mem_append.1 hc with hc | hc
    · exact (h.calls c hc).frame (fun hmem => hawaiting hmem) rfl rfl
    · rw [List.mem_singleton.1 hc]
      exact .enter hawaits hrows hpending
  · intro p hp
    rw [show s.rows = s.rows ++ [] from (List.append_nil _).symm]
    refine (h.passes p hp).frame (by simp) fun c hc hrunning => ?_
    rcases List.mem_append.1 hc with hc | hc
    · exact .inl ⟨c, hc, rfl, hrunning⟩
    · rw [List.mem_singleton.1 hc]
      exact .inr hunknown

lemma pass_eq (h : Books cfg awaiting known s) {k : ℕ} {p : Pass F} (hk : s.passes[k]? = some p) :
    k = 0 ∧ s.passes = [p] := by
  have hlt : k < s.passes.length := (List.getElem?_eq_some_iff.1 hk).1
  have hzero : k = 0 := by
    have := h.single
    omega
  subst hzero
  obtain ⟨p', hp'⟩ := List.length_eq_one_iff.1 (le_antisymm h.single hlt)
  rw [hp'] at hk
  cases hk
  exact ⟨rfl, hp'⟩

/-- A pass starts where there is none. -/
lemma recoverStart (h : Books cfg awaiting known s) (hnone : s.passes = []) {todo : List (Json F)}
    (htodo : ∀ rec ∈ todo,
      isLiveKeyed cfg.lower rec = true ∧ ∀ pair ∈ recoverPair rec, known pair) :
    Books cfg awaiting known { s with passes := s.passes ++ [{ todo }] } := by
  have hpending : s.pending = [] := by simp [FastWorld.pending, hnone]
  have hpending' : FastWorld.pending { s with passes := s.passes ++ [{ todo }] } = [] := by
    simp [FastWorld.pending, hnone]
  constructor
  · exact h.nodup
  · rw [hpending', ← hpending]
    exact h.rows
  · simp [hnone]
  · rw [hpending', ← hpending]
    exact h.calls
  · intro p hp
    rw [hnone, List.nil_append] at hp
    rw [List.mem_singleton.1 hp]
    exact ⟨htodo, by simp, by rintro found ⟨⟩⟩

/-- A pass moves.  What it settles has a row then, and what it adds had none; of neither a call is
running. -/
lemma modifyPass (h : Books cfg awaiting known s) {k : ℕ} {f : Pass F → Pass F}
    (hawaiting : ∀ q ∈ awaiting, q ∉ awaiting' → ∃ p, s.passes[k]? = some p ∧
      (∀ c ∈ s.calls, c.pair = q → ¬c.Running) ∧ q ∈ (s.rows ++ (f p).pending).map Row.pair)
    (hpending : ∀ p, s.passes[k]? = some p → (f p).pending = p.pending ∨
      ∃ row, (f p).pending = p.pending ++ [row] ∧ row.pair ∉ (s.rows ++ p.pending).map Row.pair ∧
        ∀ c ∈ s.calls, c.pair = row.pair → ¬c.Running)
    (hok : ∀ p, s.passes[k]? = some p → PassOk cfg known s.rows s.calls p →
      PassOk cfg known s.rows s.calls (f p)) :
    Books cfg awaiting' known { s with passes := s.passes.modify k f } := by
  cases hk : s.passes[k]? with
  | none =>
    have hsame : s.passes.modify k f = s.passes :=
      List.modify_eq_self (List.getElem?_eq_none_iff.1 hk)
    rw [hsame]
    refine h.mono (fun q hq => ?_) fun _ hq => hq
    by_contra hnot
    obtain ⟨p, hp, -⟩ := hawaiting q hq hnot
    rw [hk] at hp
    cases hp
  | some p =>
    obtain ⟨rfl, hpasses⟩ := h.pass_eq hk
    have hmodify : s.passes.modify 0 f = [f p] := by rw [hpasses]; rfl
    have hold : s.pending = p.pending := by simp [FastWorld.pending, hpasses]
    have hnew : FastWorld.pending { s with passes := s.passes.modify 0 f } = (f p).pending := by
      simp [FastWorld.pending, hmodify]
    have hsub : ∀ q, q ∈ p.pending.map Row.pair → q ∈ (f p).pending.map Row.pair := by
      rcases hpending p hk with heq | ⟨row, heq, -⟩
      · rw [heq]
        exact fun q hq => hq
      · rw [heq, List.map_append]
        exact fun q hq => List.mem_append_left _ hq
    constructor
    · exact h.nodup
    · show ((s.rows ++ FastWorld.pending _).map Row.pair).Nodup
      have hrows := h.rows
      rw [hold] at hrows
      rw [hnew]
      rcases hpending p hk with heq | ⟨row, heq, hrow, -⟩
      · rwa [heq]
      · rw [heq, ← List.append_assoc, List.map_append, List.nodup_append]
        refine ⟨hrows, List.nodup_singleton _, ?_⟩
        rintro q hq q' hq' rfl
        rw [List.map_singleton, List.mem_singleton] at hq'
        exact hrow (hq' ▸ hq)
    · show (s.passes.modify 0 f).length ≤ 1
      rw [hmodify]
      exact le_rfl
    · intro c hc
      rw [hnew]
      have hcall := h.calls c hc
      rw [hold] at hcall
      have hawaits : c.pair ∈ awaiting → c.Running → c.pair ∈ awaiting' := by
        intro hq hrunning
        by_contra hnot
        obtain ⟨-, -, hidle, -⟩ := hawaiting c.pair hq hnot
        exact hidle c hc rfl hrunning
      refine ⟨hcall.submissions, hcall.intended, fun hrunning => hawaits (hcall.awaits hrunning)
        hrunning, hcall.unwritten, hcall.written, fun hrunning => ?_, hcall.answered, hcall.counts,
        fun hheld => ?_⟩
      · rcases hpending p hk with heq | ⟨row, heq, -, hidle⟩
        · rw [heq]
          exact hcall.idle hrunning
        · rw [heq, rowsOf_append, hcall.idle hrunning, List.nil_append]
          exact rowsOf_singleton_of_ne fun hrow => hidle c hc hrow.symm hrunning
      · rcases hcall.covered hheld with hq | hrow | hrow
        · by_cases hmem : c.pair ∈ awaiting'
          · exact .inl hmem
          · obtain ⟨p', hp', -, hrow⟩ := hawaiting c.pair hq hmem
            rw [hk] at hp'
            cases hp'
            rw [List.map_append, List.mem_append] at hrow
            rcases hrow with hrow | hrow
            · exact .inr (.inl fun hnil => rowsOf_eq_nil.1 hnil hrow)
            · exact .inr (.inr fun hnil => rowsOf_eq_nil.1 hnil hrow)
        · exact .inr (.inl hrow)
        · refine .inr (.inr fun hnil => hrow (rowsOf_eq_nil.2 fun hmem => ?_))
          exact rowsOf_eq_nil.1 hnil (hsub c.pair hmem)
    · intro p' hp'
      change p' ∈ s.passes.modify 0 f at hp'
      rw [hmodify] at hp'
      rw [List.mem_singleton.1 hp']
      exact hok p hk (h.passes p (hpasses ▸ List.mem_singleton_self p))

end Books

namespace PassOk

variable {cfg : FastConfig} {known : Pair → Prop} {rows : List Row} {calls : List (Call F)}
  {p : Pass F}

/-- The query; none of the intents is closed without a row. -/
lemma look (h : PassOk cfg known rows calls p)
    (hidle : ∀ rec ∈ p.todo.head?, ∀ pair ∈ recoverPair rec,
      ∀ c ∈ calls, c.pair = pair → ¬c.Running) :
    PassOk cfg known rows calls (p.look cfg.lower rows) := by
  unfold Pass.look
  split
  next rec todo htodo hfound =>
    have htail : ∀ rec ∈ todo, isLiveKeyed cfg.lower rec = true ∧
        ∀ pair ∈ recoverPair rec, known pair := fun rec' hrec' =>
      h.todo rec' (htodo ▸ List.mem_cons_of_mem rec hrec')
    cases hpair : recoverPair rec with
    | none => exact ⟨htail, h.pending, by rw [hfound]; rintro found ⟨⟩⟩
    | some pair =>
      have hlive : isLiveKeyed cfg.lower rec = true := (h.todo rec (htodo ▸ List.mem_cons_self)).1
      simp only [hlive, if_true]
      refine ⟨h.todo, h.pending, ?_⟩
      rintro found ⟨⟩ rec' hrec' pair' hpair'
      obtain rfl : rec' = rec := by simpa [htodo] using hrec'.symm
      obtain rfl : pair' = pair := by simpa [hpair] using hpair'.symm
      exact ⟨by simp [List.find?_isSome], hidle rec' hrec' pair' hpair⟩
  next => exact h

lemma pending_look (lower : String → String) (rows : List Row) (p : Pass F) :
    (p.look lower rows).pending = p.pending := by
  unfold Pass.look
  split
  · split
    · rfl
    · split <;> rfl
  · rfl

/-- What a hand-over does to the rows of the pass. -/
lemma pending_hand (h : PassOk cfg known rows calls p) :
    p.hand.pending = p.pending ∨
      ∃ rec ∈ p.todo.head?, ∃ pair ∈ recoverPair rec, p.hand.pending = p.pending ++ [recoveryRow pair] ∧
        known pair ∧ pair ∉ (rows ++ p.pending).map Row.pair ∧
          ∀ c ∈ calls, c.pair = pair → ¬c.Running := by
  unfold Pass.hand
  split
  next rec todo found htodo hfound =>
    cases found with
    | some row => exact .inl (by simp)
    | none =>
      cases hpair : recoverPair rec with
      | none => exact .inl (by simp)
      | some pair =>
        have hrec : rec ∈ p.todo.head? := by simp [htodo]
        obtain ⟨hiff, hidle⟩ := h.found none hfound rec hrec pair hpair
        refine .inr ⟨rec, hrec, pair, hpair, rfl, ?_, fun hmem => ?_, hidle⟩
        · exact (h.todo rec (htodo ▸ List.mem_cons_self)).2 pair hpair
        · exact absurd (hiff.2 hmem) (by simp)
  next => exact .inl rfl

lemma hand (h : PassOk cfg known rows calls p) : PassOk cfg known rows calls p.hand := by
  have hpending : ∀ row ∈ p.hand.pending, row.status = .placing ∧ known row.pair := by
    rcases h.pending_hand with heq | ⟨-, -, pair, -, heq, hknown, -⟩
    · rw [heq]
      exact h.pending
    · rw [heq, List.forall_mem_append]
      exact ⟨h.pending, List.forall_mem_singleton.2 ⟨rfl, hknown⟩⟩
  by_cases hhand : ∃ rec todo found, p.todo = rec :: todo ∧ p.found = some found
  · obtain ⟨rec, todo, found, htodo, hfound⟩ := hhand
    have hfields : p.hand.todo = todo ∧ p.hand.found = none := by
      simp [Pass.hand, htodo, hfound]
    refine ⟨fun rec' hrec' => h.todo rec' ?_, hpending, ?_⟩
    · rw [htodo]
      exact List.mem_cons_of_mem rec (hfields.1 ▸ hrec')
    · rw [hfields.2]
      rintro found ⟨⟩
  · have hsame : p.hand = p := by
      unfold Pass.hand
      split
      next rec todo found htodo hfound => exact absurd ⟨rec, todo, found, htodo, hfound⟩ hhand
      next => rfl
    rwa [hsame]

end PassOk

namespace Books

variable {cfg : FastConfig} {awaiting awaiting' : List Pair} {known : Pair → Prop} {s : FastWorld F}

lemma look (h : Books cfg awaiting known s) {k : ℕ} (hidle : s.HeadIdle k)
    (hawaiting : awaiting ⊆ awaiting') :
    Books cfg awaiting' known { s with passes := s.passes.modify k (Pass.look cfg.lower s.rows) } :=
  h.modifyPass (fun _ hq hnot => absurd (hawaiting hq) hnot)
    (fun p _ => .inl (PassOk.pending_look cfg.lower s.rows p))
    fun p hp hpass => hpass.look (hidle p hp)

/-- The hand-over of an intent settles its pair, and there is a row for it then. -/
lemma hand (h : Books cfg awaiting known s) {k : ℕ}
    (hawaiting : ∀ q ∈ awaiting, (∀ p, s.passes[k]? = some p → p.found ≠ none →
      ∀ rec ∈ p.todo.head?, recoverPair rec ≠ some q) → q ∈ awaiting') :
    Books cfg awaiting' known { s with passes := s.passes.modify k Pass.hand } := by
  refine h.modifyPass (fun q hq hnot => ?_) (fun p hp => ?_) fun p _ hpass => hpass.hand
  · by_contra hno
    refine hnot (hawaiting q hq fun p hp hfound rec hrec hpair => hno ⟨p, hp, ?_⟩)
    obtain ⟨found, hfound⟩ := Option.ne_none_iff_exists'.1 hfound
    have hpass := h.passes p (List.mem_of_getElem? hp)
    obtain ⟨hiff, hidle⟩ := hpass.found found hfound rec hrec q hpair
    refine ⟨hidle, ?_⟩
    obtain ⟨todo, htodo⟩ : ∃ todo, p.todo = rec :: todo := List.head?_eq_some_iff.1 hrec
    cases found with
    | some row => simpa [Pass.hand, htodo, hfound] using hiff.1 rfl
    | none => simp [Pass.hand, htodo, hfound, hpair, recoveryRow]
  · have hpass := h.passes p (List.mem_of_getElem? hp)
    rcases hpass.pending_hand with heq | ⟨-, -, pair, -, heq, -, hrow, hidle⟩
    · exact .inl heq
    · exact .inr ⟨recoveryRow pair, heq, hrow, hidle⟩

/-- The pass is gone, and its rows are committed. -/
lemma endPass (h : Books cfg awaiting known s) (hawaiting : awaiting ⊆ awaiting') :
    Books cfg awaiting' known { s with rows := s.rows ++ s.pending, passes := [] } where
  nodup := h.nodup
  rows := by
    show ((s.rows ++ s.pending ++ []).map Row.pair).Nodup
    rw [List.append_nil]
    exact h.rows
  single := Nat.zero_le 1
  calls c hc := by
    show CallOk awaiting' (s.rows ++ s.pending) [] c
    have hcall := h.calls c hc
    have hplacing : ∀ row ∈ rowsOf s.pending c.pair, row.status.Counts := by
      intro row hrow
      obtain ⟨p, hp, hmem⟩ := List.mem_flatMap.1 (mem_rowsOf.1 hrow).1
      rw [((h.passes p hp).pending row hmem).1]
      decide
    refine ⟨hcall.submissions, hcall.intended, fun hrunning => hawaiting (hcall.awaits hrunning),
      fun hrunning hnot => ?_, fun a hphase hnil => ?_, fun _ => rfl, hcall.answered,
      fun hheld row hrow => ?_, fun hheld => ?_⟩
    · rw [rowsOf_append, hcall.unwritten hrunning hnot, hcall.idle hrunning]
      rfl
    · rw [rowsOf_append, List.append_eq_nil_iff] at hnil
      exact hcall.written a hphase hnil.1
    · rw [rowsOf_append, List.mem_append] at hrow
      exact hrow.elim (hcall.counts hheld row) (hplacing row)
    · rw [rowsOf_append]
      rcases hcall.covered hheld with hq | hrow | hrow
      · exact .inl (hawaiting hq)
      · exact .inr (.inl (List.append_ne_nil_of_left_ne_nil hrow _))
      · exact .inr (.inl (List.append_ne_nil_of_right_ne_nil _ hrow))
  passes p hp := absurd hp List.not_mem_nil

lemma pending_of_nonePending (h : s.NonePending) : s.pending = [] :=
  List.flatMap_eq_nil_iff.2 h

lemma recoverAbort (h : Books cfg awaiting known s) {k : ℕ} (hnone : s.NonePending)
    (hawaiting : awaiting ⊆ awaiting') :
    Books cfg awaiting' known { s with passes := s.passes.eraseIdx k } := by
  have hend : Books cfg awaiting' known { s with rows := s.rows ++ s.pending, passes := [] } :=
    h.endPass hawaiting
  rw [pending_of_nonePending hnone, List.append_nil] at hend
  cases hk : s.passes[k]? with
  | none =>
    rw [List.eraseIdx_of_length_le (List.getElem?_eq_none_iff.1 hk)]
    exact h.mono hawaiting fun _ hq => hq
  | some p =>
    obtain ⟨rfl, hpasses⟩ := h.pass_eq hk
    rw [hpasses]
    exact hend

/-- The commit of a pass: its rows are durable, or there are none. -/
lemma recoverCommit (h : Books cfg awaiting known s) {k : ℕ} {p : Pass F} {outcome : CommitOutcome}
    (hk : s.passes[k]? = some p) (hdurable : outcome.isDurable ∨ s.NonePending)
    (hawaiting : awaiting ⊆ awaiting') : Books cfg awaiting' known
      { s with
        rows := s.rows ++
          if outcome.isDurable ∧ ∀ row ∈ p.pending, row ∉ s.rows then p.pending else []
        passes := s.passes.eraseIdx k } := by
  obtain ⟨rfl, hpasses⟩ := h.pass_eq hk
  have hpending : s.pending = p.pending := by simp [FastWorld.pending, hpasses]
  have hnew : ∀ row ∈ p.pending, row ∉ s.rows := by
    intro row hrow hmem
    have hnodup := h.rows
    rw [hpending, List.map_append, List.nodup_append] at hnodup
    exact hnodup.2.2 row.pair (List.mem_map_of_mem hmem) row.pair (List.mem_map_of_mem hrow) rfl
  have hrows : (if outcome.isDurable ∧ ∀ row ∈ p.pending, row ∉ s.rows then p.pending else []) =
      s.pending := by
    split_ifs with hif
    · exact hpending.symm
    · rcases hdurable with hdurable | hnone
      · exact absurd ⟨hdurable, hnew⟩ hif
      · exact (pending_of_nonePending hnone).symm
  rw [hrows, hpasses]
  exact h.endPass hawaiting

/-- What a move that meets its condition does beside the journal; what awaits a result still does,
but for the pair that the move settles. -/
lemma moved (h : Books cfg awaiting s.Known s) {m : Move F} (hm : s.Orderly cfg m)
    (hsettles : ∀ q ∈ awaiting, ¬Settles cfg s q m → q ∈ awaiting')
    (henter : ∀ signal j, m = .enter signal → s.process = some j → ¬s.refuses cfg j signal →
      signal.pair ∈ awaiting')
    (htodo : ∀ j, s.process = some j → ∀ rec ∈ j.openIntents,
      isLiveKeyed cfg.lower rec = true ∧ ∀ pair ∈ recoverPair rec, s.Known pair) :
    Books cfg awaiting' s.Known (s.moved cfg m) := by
  cases m with
  | enter signal =>
    have hsub : awaiting ⊆ awaiting' := fun q hq => hsettles q hq (by rintro ⟨⟩)
    unfold FastWorld.moved
    cases hj : s.process with
    | none => exact h.mono hsub fun _ hq => hq
    | some j =>
      dsimp only
      split_ifs with hrefuses
      · exact h.mono hsub fun _ hq => hq
      · have hunknown : j.hasIntent signal.traderId signal.signalId ≠ true := fun hknown =>
          hrefuses (.inl ⟨hm.1.signal_ne, hknown⟩)
        refine h.enter (fun hbooks => hunknown (hm.2 hbooks j hj)) ?_
          (henter signal j rfl hj hrefuses) hsub
        rintro ⟨j', hj', hknown⟩
        rw [hj] at hj'
        cases hj'
        exact hunknown hknown
  | abandon i =>
    have hsub : awaiting ⊆ awaiting' := fun q hq => hsettles q hq (by rintro ⟨⟩)
    exact h.moveCall Call.pair_abandon (fun c hc => by simp [Call.abandon, hc])
      (fun q hq _ => hsub hq) fun c _ hcall => hcall.abandon fun hq => hsub hq
  | submit i =>
    have hsub : awaiting ⊆ awaiting' := fun q hq => hsettles q hq (by rintro ⟨⟩)
    exact h.moveCall Call.pair_submit (fun c hc => by simp [Call.submit, hc])
      (fun q hq _ => hsub hq) fun c _ hcall => hcall.submit fun hq => hsub hq
  | answer i outcome ts =>
    refine h.moveCall (fun c => c.pair_answer outcome) (fun c hc => by simp [Call.answer, hc])
      (fun q hq hne => hsettles q hq ?_) fun c hi hcall => hcall.answer ?_ fun hskipped hq =>
        hsettles c.pair hq ?_
    · intro hset
      cases hset with
      | answer hi hphase hstatus hpair => exact hne _ hi hpair.symm
    · rintro a rfl
      exact hm
    · intro hset
      cases hset with
      | answer hi' hphase hstatus hpair =>
        rw [hi] at hi'
        cases hi'
        exact hskipped _ rfl hphase hstatus
  | commit i outcome =>
    have hsub : awaiting ⊆ awaiting' := fun q hq => hsettles q hq (by rintro ⟨⟩)
    refine h.modifyCall (fun c => c.pair_commit outcome)
      (fun c hrunning hended => hrunning (by simp [Call.commit, hended])) (fun row hrow => ?_) ?_
      (fun q hq _ => hsub hq) fun c hi hcall => ?_
    · split_ifs at hrow
      · obtain ⟨c, hc, hcrow⟩ := Option.bind_eq_some_iff.1 (Option.mem_toList.1 hrow)
        obtain ⟨a, hphase, rfl⟩ := Call.row_eq_some hcrow
        exact ⟨c, hc, rfl, by simp [Call.Running, hphase], by simp [hphase]⟩
      · cases hrow
    · split_ifs
      · exact Option.length_toList_le
      · exact Nat.zero_le 1
    · rw [hi, Option.bind_some]
      exact hcall.commit outcome fun hq => hsub hq
  | close i ts =>
    refine (h.moveCall Call.pair_close (fun c hc => by simp [Call.close, hc])
      (fun q hq hne => hsettles q hq ?_) fun c hi hcall => hcall.close fun hnot hq =>
        hsettles c.pair hq ?_).withHot _
    · intro hset
      cases hset with
      | close hi hphase hpair => exact hne _ hi hpair.symm
    · intro hset
      cases hset with
      | close hi' hphase hpair =>
        rw [hi] at hi'
        cases hi'
        exact hnot _ hphase
  | resolve i =>
    have hsub : awaiting ⊆ awaiting' := fun q hq => hsettles q hq (by rintro ⟨⟩)
    exact (h.moveCall Call.pair_resolve (fun c hc => by simp [Call.resolve, hc])
      (fun q hq _ => hsub hq) fun c _ hcall => hcall.resolve fun hq => hsub hq).withHot _
  | recoverStart =>
    have hsub : awaiting ⊆ awaiting' := fun q hq => hsettles q hq (by rintro ⟨⟩)
    unfold FastWorld.moved
    cases hj : s.process with
    | none => exact h.mono hsub fun _ hq => hq
    | some j => exact (h.mono hsub fun _ hq => hq).recoverStart hm (htodo j hj)
  | recoverLook k ts =>
    refine h.look hm fun q hq => hsettles q hq ?_
    intro hset
    cases hset with
    | look hk hrec hpair hlive =>
      have hpass := h.passes _ (List.mem_of_getElem? hk)
      rw [(hpass.todo _ (List.mem_of_mem_head? hrec)).1] at hlive
      cases hlive
  | recoverHand k ts =>
    refine h.hand fun q hq hnot => hsettles q hq ?_
    intro hset
    cases hset with
    | hand hk hfound hrec hpair => exact hnot _ hk hfound _ hrec hpair
  | recoverCommit k outcome =>
    have hsub : awaiting ⊆ awaiting' := fun q hq => hsettles q hq (by rintro ⟨⟩)
    cases hk : s.passes[k]? with
    | none =>
      simp only [FastWorld.moved, hk]
      exact h.mono hsub fun _ hq => hq
    | some p =>
      simp only [FastWorld.moved, hk]
      by_cases hdone : p.isDone = true
      · rw [if_pos hdone]
        exact h.recoverCommit hk hm hsub
      · rw [if_neg hdone]
        exact h.mono hsub fun _ hq => hq
  | recoverAbort k => exact h.recoverAbort hm fun q hq => hsettles q hq (by rintro ⟨⟩)

/-- The end of the process. -/
lemma dead (h : Books cfg awaiting known s) (hnone : s.NonePending)
    (known' : Pair → Prop) : Books cfg awaiting known' s.dead where
  nodup := by
    show ((s.calls.map Call.die).map Call.pair).Nodup
    rw [List.map_map]
    exact h.nodup
  rows := by
    have hrows := h.rows
    rw [pending_of_nonePending hnone] at hrows
    exact hrows
  single := Nat.zero_le 1
  calls c hc := by
    obtain ⟨c', hc', rfl⟩ := List.mem_map.1 hc
    have hcall := h.calls c' hc'
    rw [pending_of_nonePending hnone] at hcall
    exact hcall.die
  passes p hp := absurd hp List.not_mem_nil

end Books

end Evosport.Orchestrator
