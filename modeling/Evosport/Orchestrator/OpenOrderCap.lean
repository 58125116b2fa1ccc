/-
The cap on the open orders of a trader.

The critical section counts the open intents of the journal and the unfilled orders of the hot
state. A call that is running, or whose order is in flight, at rest or unresolved, is busy.  As long
as no intent is closed while its call is busy, every busy call has an open intent of its own, and is
counted when the next signal comes in.
-/
import Mathlib.Data.List.Perm.Subperm
import Evosport.Orchestrator.FastMoves
import Evosport.Orchestrator.RecordEvents

namespace Evosport.Orchestrator

open Lib Execution IntentJournal

variable {F : Type}

/-! ## Busy calls -/

namespace Call

/-- The call is running, or its order is in flight, at rest or unresolved. -/
def Busy (c : Call F) : Prop := c.Running ∨ c.live = true

instance (c : Call F) : Decidable c.Busy := inferInstanceAs (Decidable (_ ∨ _))

/-- The row of the order is there, and its intent is not closed yet. -/
def isPersisted (c : Call F) : Bool :=
  match c.phase with
  | .persisted _ => true
  | _ => false

/-- A step makes no call busy that is over. -/
lemma busy_of_step {f : Call F → Call F}
    (hf : ∀ c : Call F, c.phase = .ended → (f c).Busy → c.live = true) {c : Call F}
    (h : (f c).Busy) : c.Busy := by
  by_cases hended : c.phase = .ended
  · exact .inr (hf c hended h)
  · exact .inl hended

end Call

/-- The pairs of the calls that are busy. -/
def busyPairs (calls : List (Call F)) : List Pair := (calls.filter fun c => c.Busy).map Call.pair

section BusyPairs

variable {calls : List (Call F)} {f : Call F → Call F} {i : ℕ} {c : Call F}

lemma busyPairs_append (calls calls' : List (Call F)) :
    busyPairs (calls ++ calls') = busyPairs calls ++ busyPairs calls' := by
  simp [busyPairs]

lemma busyPairs_cons (c : Call F) (calls : List (Call F)) :
    busyPairs (c :: calls) = (if c.Busy then [c.pair] else []) ++ busyPairs calls := by
  unfold busyPairs
  rw [List.filter_cons]
  split_ifs <;> simp_all

/-- A step of a call leaves the other calls as they are. -/
lemma busyPairs_modify (hpair : ∀ c, (f c).pair = c.pair) (hbusy : ∀ c, (f c).Busy → c.Busy) :
    (busyPairs (calls.modify i f)).Sublist (busyPairs calls) := by
  induction calls generalizing i with
  | nil => simp
  | cons c calls ih =>
    cases i with
    | zero =>
      rw [List.modify_zero_cons, busyPairs_cons, busyPairs_cons, hpair]
      refine List.Sublist.append ?_ (List.Sublist.refl _)
      split_ifs with h h'
      · exact List.Sublist.refl _
      · exact absurd (hbusy c h) h'
      · exact List.nil_sublist _
      · exact List.Sublist.refl _
    | succ i =>
      rw [List.modify_succ_cons, busyPairs_cons, busyPairs_cons]
      exact (List.Sublist.refl _).append ih

/-- A call that is no longer busy is gone from the pairs. -/
lemma notMem_busyPairs_modify (hnodup : (busyPairs calls).Nodup) (hi : calls[i]? = some c)
    (hbusy : c.Busy) (hdone : ¬(f c).Busy) : c.pair ∉ busyPairs (calls.modify i f) := by
  obtain ⟨before, c', behind, hcalls, hlength, hmodify⟩ :=
    List.exists_of_modify f (List.getElem?_eq_some_iff.1 hi).1
  obtain rfl : c' = c := by
    rw [hcalls, ← hlength] at hi
    simpa using hi
  rw [hcalls, busyPairs_append, busyPairs_cons, if_pos hbusy, List.singleton_append,
    List.nodup_middle, List.nodup_cons] at hnodup
  rw [hmodify, busyPairs_append, busyPairs_cons, if_neg hdone, List.nil_append]
  exact hnodup.1

end BusyPairs

/-! ## Live orders of a trader -/

namespace FastWorld

variable (cfg : FastConfig) (s : FastWorld F)

/-- How many orders of the trader are in flight, at rest or unresolved. -/
def liveOrders (traderId : String) : ℕ :=
  s.calls.countP fun c => c.signal.traderId = traderId ∧ c.live

/-- No call for the intent is busy. -/
def IntentIdle (rec : Json F) : Prop := ∀ pair ∈ recoverPair rec, pair ∉ busyPairs s.calls

instance (rec : Json F) : Decidable (s.IntentIdle rec) :=
  inferInstanceAs (Decidable (∀ pair ∈ recoverPair rec, pair ∉ busyPairs s.calls))

/-- The condition on a move: the ids are there, and no intent is closed while its call is busy. -/
def Accounted : Move F → Prop
  | .enter signal => signal.traderId ≠ "" ∧ signal.signalId ≠ ""
  | .close i _ => ∀ c ∈ s.calls[i]?, c.isPersisted = true → c.live = false
  | .recoverLook k _ => ∀ p ∈ s.passes[k]?, ∀ rec ∈ p.todo.head?,
      isLiveKeyed cfg.lower rec = false → s.IntentIdle rec
  | .recoverHand k _ => ∀ p ∈ s.passes[k]?, p.found ≠ none → ∀ rec ∈ p.todo.head?,
      s.IntentIdle rec
  | _ => True

instance : ∀ m : Move F, Decidable (s.Accounted cfg m)
  | .enter _ => inferInstanceAs (Decidable (_ ∧ _))
  | .close _ _ => inferInstanceAs (Decidable (∀ c ∈ _, _ → _))
  | .recoverLook k _ => inferInstanceAs (Decidable (∀ p ∈ s.passes[k]?, ∀ rec ∈ p.todo.head?,
      isLiveKeyed cfg.lower rec = false → s.IntentIdle rec))
  | .recoverHand k _ =>
    haveI : ∀ p : Pass F, Decidable (p.found ≠ none) := fun p =>
      decidable_of_iff (p.found.isSome = true) Option.isSome_iff_ne_none
    inferInstanceAs (Decidable (∀ p ∈ s.passes[k]?, p.found ≠ none → ∀ rec ∈ p.todo.head?,
      s.IntentIdle rec))
  | .abandon _ | .submit _ | .answer _ _ _ | .commit _ _ | .resolve _ | .recoverStart
  | .recoverCommit _ _ | .recoverAbort _ => inferInstanceAs (Decidable True)

end FastWorld

/-! ## What a move does to the busy calls -/

section Moved

variable (cfg : FastConfig) (s : FastWorld F) (m : Move F)

/-- A signal that comes in is busy; otherwise no pair becomes busy. -/
lemma busyPairs_moved : (busyPairs (s.moved cfg m).calls).Sublist (busyPairs s.calls) ∨
    ∃ signal j, m = .enter signal ∧ s.process = some j ∧ ¬s.refuses cfg j signal ∧
      busyPairs (s.moved cfg m).calls = busyPairs s.calls ++ [signal.pair] := by
  cases m with
  | enter signal =>
    unfold FastWorld.moved
    cases hj : s.process with
    | none => exact .inl (List.Sublist.refl _)
    | some j =>
      dsimp only
      split_ifs with hrefuses
      · exact .inl (List.Sublist.refl _)
      · refine .inr ⟨signal, j, rfl, rfl, hrefuses, ?_⟩
        rw [busyPairs_append]
        rfl
  | abandon i =>
    exact .inl (busyPairs_modify Call.pair_abandon fun c => Call.busy_of_step fun c hc h => by
      simpa [Call.abandon, Call.Busy, Call.Running, hc] using h)
  | submit i =>
    exact .inl (busyPairs_modify Call.pair_submit fun c => Call.busy_of_step fun c hc h => by
      simpa [Call.submit, Call.Busy, Call.Running, hc] using h)
  | answer i outcome ts =>
    exact .inl (busyPairs_modify (fun c => c.pair_answer outcome) fun c =>
      Call.busy_of_step fun c hc h => by
        simpa [Call.answer, Call.Busy, Call.Running, hc] using h)
  | commit i outcome =>
    exact .inl (busyPairs_modify (fun c => c.pair_commit outcome) fun c =>
      Call.busy_of_step fun c hc h => by
        simpa [Call.commit, Call.Busy, Call.Running, hc] using h)
  | close i ts =>
    exact .inl (busyPairs_modify Call.pair_close fun c => Call.busy_of_step fun c hc h => by
      simpa [Call.close, Call.Busy, Call.Running, hc] using h)
  | resolve i =>
    exact .inl (busyPairs_modify Call.pair_resolve fun c => Call.busy_of_step fun c hc h => by
      simp [Call.resolve, Call.Busy, Call.Running, hc] at h)
  | recoverStart =>
    refine .inl ?_
    simp only [FastWorld.moved]
    split <;> exact List.Sublist.refl _
  | recoverCommit k outcome =>
    refine .inl ?_
    simp only [FastWorld.moved]
    split
    · split <;> exact List.Sublist.refl _
    · exact List.Sublist.refl _
  | _ => exact .inl (List.Sublist.refl _)

variable {cfg s m}

/-- A pair whose intent is closed is not busy behind the move. -/
lemma notMem_busyPairs_of_settles {pair : Pair} (hm : s.Accounted cfg m)
    (hnodup : (busyPairs s.calls).Nodup) (h : Settles cfg s pair m) :
    pair ∉ busyPairs (s.moved cfg m).calls := by
  cases h with
  | answer hi hphase hskipped hpair =>
    rw [← hpair]
    refine notMem_busyPairs_modify hnodup hi (.inl (by simp [Call.Running, hphase])) ?_
    simp [Call.answer, hphase, hskipped, Call.Busy, Call.Running]
  | @close i ts c a hi hphase hpair =>
    have hlive : c.live = false := hm c hi (by simp [Call.isPersisted, hphase])
    rw [← hpair]
    refine notMem_busyPairs_modify hnodup hi (.inl (by simp [Call.Running, hphase])) ?_
    simp [Call.close, hphase, Call.Busy, Call.Running, hlive]
  | look hk hrec hpair hlive => exact hm _ hk _ hrec hlive pair hpair
  | hand hk hfound hrec hpair => exact hm _ hk hfound _ hrec pair hpair

end Moved

/-! ## The invariant -/

/-- Every busy call has an open intent of its own, and there are no more of a trader than its cap.
-/
structure Capped (cfg : FastConfig) (s : FastWorld F) : Prop where
  indexed : ∀ j, s.process = some j → j.Indexed
  opened : ∀ j, s.process = some j → ∀ pair ∈ busyPairs s.calls, j.Opens pair
  down : s.process = none → busyPairs s.calls = []
  nodup : (busyPairs s.calls).Nodup
  cap : ∀ traderId n, cfg.maxOpenOrders traderId = some n → 0 < n →
    ((busyPairs s.calls).countP fun pair => pair.1 = traderId) ≤ n

/-- Pairs that are open, each once, are among those that are counted. -/
lemma countP_le_openIntentCount {j : IntentJournal F} {pairs : List Pair} (hnodup : pairs.Nodup)
    (hopen : ∀ pair ∈ pairs, j.Opens pair) (traderId : String) :
    (pairs.countP fun pair => pair.1 = traderId) ≤ j.openIntentCount traderId :=
  (hnodup.subperm fun pair hpair => Dict.mem_keys.2 (hopen pair hpair)).countP_le _

namespace Capped

variable {cfg : FastConfig} {s : FastWorld F} {m : Move F}

/-- A move after which the busy calls are fewer, and none of them is the one whose intent it
closes. -/
lemma shrink (h : Capped cfg s) {t : FastWorld F}
    (hsub : (busyPairs t.calls).Sublist (busyPairs s.calls))
    (hdown : t.process = none → s.process = none)
    (hjournal : ∀ j', t.process = some j' → ∃ j, s.process = some j ∧ j'.Indexed ∧
      ∀ pair ∈ busyPairs t.calls, j.Opens pair → j'.Opens pair) : Capped cfg t where
  indexed j' hj' := by
    obtain ⟨j, -, hindexed, -⟩ := hjournal j' hj'
    exact hindexed
  opened := by
    intro j' hj' pair hpair
    obtain ⟨j, hj, -, hopens⟩ := hjournal j' hj'
    exact hopens pair hpair (h.opened j hj pair (hsub.subset hpair))
  down hnone := by
    have hnil := h.down (hdown hnone)
    rw [hnil] at hsub
    exact List.sublist_nil.1 hsub
  nodup := h.nodup.sublist hsub
  cap traderId n hcap hn := by
    have hle := hsub.countP_le (p := fun pair => decide (pair.1 = traderId))
    have hold := h.cap traderId n hcap hn
    omega

/-- A signal comes in below the cap. -/
lemma enter (h : Capped cfg s) {signal : FastSignal F} {j : IntentJournal F}
    (hj : s.process = some j) (hrefuses : ¬s.refuses cfg j signal) (hsignal : signal.signalId ≠ "")
    {t : FastWorld F} (hbusy : busyPairs t.calls = busyPairs s.calls ++ [signal.pair])
    {j' : IntentJournal F} (hj' : t.process = some j') (hindexed : j'.Indexed)
    (hopens : ∀ pair, j.Opens pair → j'.Opens pair) (hnew : j'.Opens signal.pair) :
    Capped cfg t := by
  obtain ⟨hknown, hbelow⟩ := not_or.1 hrefuses
  have hfresh : signal.pair ∉ busyPairs s.calls := by
    intro hmem
    have hopen : j.Opens signal.pair := h.opened j hj signal.pair hmem
    exact hknown ⟨hsignal, (h.indexed j hj).hasIntent hopen⟩
  constructor
  · intro j₁ hj₁
    rw [hj'] at hj₁
    cases hj₁
    exact hindexed
  · intro j₁ hj₁
    rw [hj'] at hj₁
    cases hj₁
    rw [hbusy, List.forall_mem_append]
    exact ⟨fun pair hpair => hopens pair (h.opened j hj pair hpair),
      List.forall_mem_singleton.2 hnew⟩
  · intro hnone
    rw [hj'] at hnone
    cases hnone
  · rw [hbusy, ← List.concat_eq_append]
    exact h.nodup.concat hfresh
  · intro traderId n hcap hn
    rw [hbusy, List.countP_append]
    by_cases htrader : signal.traderId = traderId
    · subst htrader
      have hle := countP_le_openIntentCount h.nodup (h.opened j hj) signal.traderId
      have hroom : s.getOpenOrderCount signal.traderId + j.openIntentCount signal.traderId < n := by
        by_contra hnot
        exact hbelow ⟨n, hcap, hn, not_lt.1 hnot⟩
      have hone : ([signal.pair].countP fun pair => pair.1 = signal.traderId) ≤ 1 :=
        List.countP_le_length
      omega
    · have hnone : ([signal.pair].countP fun pair => pair.1 = traderId) = 0 := by
        simp [FastSignal.pair, htrader]
      have hold := h.cap traderId n hcap hn
      omega

/-- The orders of a trader that are in flight, at rest or unresolved are busy. -/
lemma liveOrders_le (h : Capped cfg s) {traderId : String} {n : ℤ}
    (hcap : cfg.maxOpenOrders traderId = some n) (hn : 0 < n) : s.liveOrders traderId ≤ n := by
  have hle : s.liveOrders traderId ≤
      (busyPairs s.calls).countP fun pair => pair.1 = traderId := by
    rw [busyPairs, List.countP_map, List.countP_filter, FastWorld.liveOrders]
    refine List.countP_mono_left fun c _ hc => ?_
    simp only [decide_eq_true_eq] at hc
    simp only [Function.comp, Bool.and_eq_true, decide_eq_true_eq]
    exact ⟨hc.1, .inr hc.2⟩
  have hbusy := h.cap traderId n hcap hn
  omega

end Capped

/-! ## Runs -/

variable [PyFloat F]

/-- A process that has started on a log. -/
def FastWorld.started (cfg : FastConfig) (log : List Char) (rows : List Row)
    (hot : List TrackedOrder) : FastWorld F :=
  ⟨⟨(⟨log, [], none⟩ : World F).reload cfg.lower, ⟨[], [], []⟩⟩, rows, [], [], hot⟩

namespace Capped

variable {cfg : FastConfig} {s : FastWorld F} {m : Move F}

lemma started (cfg : FastConfig) (log : List Char) (rows : List Row) (hot : List TrackedOrder) :
    Capped cfg (FastWorld.started cfg log rows hot : FastWorld F) where
  indexed := by
    intro j hj
    exact indexed_load cfg.lower hj
  opened := by rintro j - pair ⟨⟩
  down _ := rfl
  nodup := List.nodup_nil
  cap traderId n _ hn := hn.le

lemma enterStep (h : Capped cfg s) {signal : FastSignal F} {j : IntentJournal F}
    (hj : s.process = some j) (hrefuses : ¬s.refuses cfg j signal)
    (hids : signal.traderId ≠ "" ∧ signal.signalId ≠ "") :
    Capped cfg ((s.moved cfg (.enter signal)).after cfg
      (.recordIntent (FastWorld.intentArgs cfg signal))) := by
  obtain ⟨j', hj', hindexed, hopens, hnew⟩ :=
    opens_append cfg.lower hj (h.indexed j hj) (FastWorld.intentArgs cfg signal).record
      rfl true
  refine h.enter hj hrefuses hids.2 ?_ ?_ hindexed (fun pair hopen => hopens pair hopen ?_)
    (hnew _ (pairOf_intent hids.1 hids.2) rfl)
  · show busyPairs (s.moved cfg (.enter signal)).calls = _
    simp only [FastWorld.moved, hj, if_neg hrefuses, busyPairs_append]
    rfl
  · rw [FastWorld.process, FastWorld.after, moved_journal]
    exact hj'
  · exact not_resolves_of_isIntent cfg.lower rfl

/-- The result of a pair is recorded whose call is not busy any more. -/
lemma settleStep (h : Capped cfg s) (hm : s.Accounted cfg m) {args : ResultArgs F}
    (hsettles : Settles cfg s (args.traderId, args.signalId) m) :
    Capped cfg ((s.moved cfg m).after cfg (.recordResult args)) := by
  have hgone := notMem_busyPairs_of_settles hm h.nodup hsettles
  have hprocess : ((s.moved cfg m).after cfg (.recordResult args)).process =
      (s.journal.world.append cfg.lower (args.record cfg.lower) false).journal := by
    rw [FastWorld.process, FastWorld.after, moved_journal]
    rfl
  rcases busyPairs_moved cfg s m with
    hsub | ⟨signal, j, rfl, hj, hrefuses, -⟩
  · refine h.shrink hsub (fun hnone => ?_) fun j' hj' => ?_
    · rw [hprocess] at hnone
      cases hj : s.process with
      | none => rfl
      | some j =>
        obtain ⟨j', hj', -⟩ := journal_append cfg.lower hj (args.record cfg.lower) false
        rw [hj'] at hnone
        cases hnone
    · rw [hprocess] at hj'
      cases hj : s.process with
      | none =>
        rw [World.append, show s.journal.world.journal = none from hj] at hj'
        rw [show s.journal.world.journal = none from hj] at hj'
        cases hj'
      | some j =>
        obtain ⟨j₁, hj₁, hindexed, hopens, -⟩ :=
          opens_append cfg.lower hj (h.indexed j hj) (args.record cfg.lower) rfl false
        rw [hj₁] at hj'
        cases hj'
        refine ⟨j, rfl, hindexed, fun pair hpair hopen => hopens pair hopen ?_⟩
        rintro ⟨hres, -, -⟩
        exact hgone (pairOf_eq_some rfl rfl hres ▸ hpair)
  · cases hsettles

/-- A move that meets its condition keeps every busy call counted. -/
lemma step (h : Capped cfg s) (hm : s.Accounted cfg m) : Capped cfg (s.step cfg (.move m)) := by
  have hjournal := moved_journal cfg s m
  cases he : s.eventOf cfg m with
  | none =>
    simp only [FastWorld.step, he]
    rcases busyPairs_moved cfg s m with
      hsub | ⟨signal, j, rfl, hj, hrefuses, -⟩
    · refine h.shrink hsub (fun hnone => ?_) fun j' hj' => ?_
      · rwa [FastWorld.process, hjournal] at hnone
      · rw [FastWorld.process, hjournal] at hj'
        exact ⟨j', hj', h.indexed j' hj', fun _ _ hopen => hopen⟩
    · rw [eventOf_enter hj hrefuses hm.2] at he
      cases he
  | some e =>
    simp only [FastWorld.step, he]
    rcases eventOf_cases he with ⟨signal, j, rfl, hj, hrefuses, -, rfl⟩ | ⟨args, rfl, hsettles⟩
    · exact h.enterStep hj hrefuses hm
    · exact h.settleStep hm hsettles

end Capped

/-- In every run of one process in which no intent is closed while its call is busy, the orders of a
trader that are in flight, at rest or unresolved are never more than its cap. -/
theorem liveOrders_le_cap (cfg : FastConfig) (log : List Char) (rows : List Row)
    (hot : List TrackedOrder) (moves : List (Move F))
    (h : EveryStep (fun s m => FastWorld.step cfg s (.move m)) (FastWorld.Accounted cfg)
      (FastWorld.started cfg log rows hot) moves) :
    ∀ reached, reached <+: moves → ∀ traderId n, cfg.maxOpenOrders traderId = some n → 0 < n →
      (reached.foldl (fun s m => FastWorld.step cfg s (.move m))
        (FastWorld.started cfg log rows hot)).liveOrders traderId ≤ n := by
  intro reached hreached traderId n hcap hn
  have hcapped : Capped cfg (reached.foldl (fun s m => FastWorld.step cfg s (.move m))
      (FastWorld.started cfg log rows hot)) :=
    (h.of_prefix hreached).invariant (Capped.started cfg log rows hot) fun s m hs hm => hs.step hm
  exact hcapped.liveOrders_le hcap hn

section Examples

/-- An order that is filled, and one whose call times out; the cap turns the next signal away. -/
def oneAtATime : List (Move Unit) :=
  [.enter (buySignal "s1" strip_s1), .submit 0,
    .answer 0 (.returned ⟨.executed, some "0xc1", none⟩) (), .commit 0 .committed, .close 0 (),
    .enter (buySignal "s2" strip_s2), .submit 1, .answer 1 (.ambiguous true) (),
    .enter (buySignal "s1" strip_s1), .submit 2]

set_option maxRecDepth 100000 in
theorem oneAtATime_within_cap :
    (oneAtATime.foldl (fun s m => FastWorld.step plainConfig s (.move m))
      (FastWorld.started plainConfig [] [] [])).liveOrders "t1" ≤ (1 : ℤ) :=
  liveOrders_le_cap plainConfig [] [] [] oneAtATime (by decide +kernel) oneAtATime
    (List.prefix_refl _) "t1" 1 rfl (by decide)

/-- The first order rests at the venue, and the second is in flight. -/
def twoOrders : List (Move Unit) :=
  [.enter (buySignal "s1" strip_s1), .submit 0,
    .answer 0 (.returned ⟨.opened, some "0xc1", none⟩) (), .commit 0 .committed, .close 0 (),
    .enter (buySignal "s2" strip_s2), .submit 1]

set_option maxRecDepth 100000 in
/-- The intent of an order that rests is closed without a word to the hot state. -/
theorem restingOrder_exceeds_cap : plainConfig.maxOpenOrders "t1" = some 1 ∧
    (twoOrders.foldl (fun s m => FastWorld.step plainConfig s (.move m))
      (FastWorld.started plainConfig [] [] [])).liveOrders "t1" = 2 := by
  decide +kernel

end Examples

end Evosport.Orchestrator
