/-
How the runs of the queue change hands.

The code checks nothing when it commits, so who writes to a run rests on how the sessions interleave
(`Orderly`): only the run of a dead worker is requeued, no claim or cancel that has read a run as
queued is pending while it is claimed, and of the final write of `run_job` and the write that the
unified runner has scheduled for the same claim only one lands.

In every run in order the holder of a run is the claim at work on it, in its session or in a
scheduled write, and the run is running until that claim has written (`RunGuarded`).  From there on
a step changes no run that has ended, and notes final statuses of the holder alone (`Advances`).
-/
import Evosport.Jobs.JobRunner
import Evosport.Lib.Run
import Mathlib.Data.Fintype.Basic

namespace Evosport.Jobs

open Lib

namespace Session

variable {β : Type*}

/-- The run that a session works on, and its claim: from the claim to the final write. -/
def worksOn : Session β → Option (String × ℕ)
  | claimed runId claim | running runId claim | ended runId claim _ | finishing runId claim _ _ =>
    some (runId, claim)
  | _ => none

/-- The session has read `runId` as queued, and is about to claim it. -/
def Claims (s : Session β) (runId : String) : Prop :=
  match s with
  | claiming _ runId' _ => runId' = runId
  | _ => False

/-- The session has read `runId` as queued, and is about to cancel it. -/
def Cancels (s : Session β) (runId : String) : Prop :=
  match s with
  | cancelling runId' read => runId' = runId ∧ read.status = .queued
  | _ => False

/-- The session has read `runId` as orphaned, and is about to requeue it. -/
def Requeues (s : Session β) (runId : String) : Prop :=
  match s with
  | requeueing reads => runId ∈ reads.map Prod.fst
  | _ => False

instance (s : Session β) (runId : String) : Decidable (s.Claims runId) := by
  unfold Claims
  split <;> infer_instance

instance (s : Session β) (runId : String) : Decidable (s.Cancels runId) := by
  unfold Cancels
  split <;> infer_instance

instance (s : Session β) (runId : String) : Decidable (s.Requeues runId) := by
  unfold Requeues
  split <;> infer_instance

end Session

namespace JobQueue

variable {ι β : Type*}

/-! ## The condition -/

/-- The status of a run, if its row is there. -/
def statusOf (w : JobQueue ι β) (runId : String) : Option RunStatus :=
  (w.table.get? runId).map BacktestRun.status

/-- The claim is at work on the run, in its session or in a write that is scheduled for it. -/
def Works (w : JobQueue ι β) (runId : String) (claim : ℕ) : Prop :=
  (∃ i, (w.sessions i).worksOn = some (runId, claim)) ∨
    ∃ task ∈ w.tasks, task.runId = runId ∧ task.claim = claim

/-- Some claim is at work on the run: its worker is alive. -/
def Manned (w : JobQueue ι β) (runId : String) : Prop :=
  (∃ i, (w.sessions i).worksOn.map Prod.fst = some runId) ∨ ∃ task ∈ w.tasks, task.runId = runId

/-- The claim has written a final status. -/
def Written (w : JobQueue ι β) (claim : ℕ) : Prop := ∃ write ∈ w.log, write.writer = some claim

/-- No session that has read `runId` as queued is about to claim or to cancel it. -/
def Unread (w : JobQueue ι β) (runId : String) : Prop :=
  ∀ j, ¬ (w.sessions j).Claims runId ∧ ¬ (w.sessions j).Cancels runId

/-- What the code leaves to the order of the steps.

* A run is claimed, or read for a claim, with no other claim or cancel of it pending, and read for a
  cancel with no claim of it pending.
* A requeue takes runs whose worker is dead, and that no other requeue has read.
* Of the two final writes of a claim, the one of `run_job` and the scheduled one, the second does
  not land. -/
def Orderly (w : JobQueue ι β) : Event ι β → Prop
  | .claim _ _ _ locked => ∀ e ∈ nextQueued w.table locked, w.Unread e.1
  | .claimRead _ _ => ∀ e ∈ nextQueued w.table [], w.Unread e.1
  | .cancelRead _ runId =>
    w.statusOf runId = some .queued → ∀ j, ¬ (w.sessions j).Claims runId
  | .requeueRead _ me pidAlive now =>
    ∀ e ∈ orphans w.table me pidAlive now,
      ¬ w.Manned e.1 ∧ ∀ j, ¬ (w.sessions j).Requeues e.1
  | .finalCommit i =>
    match w.sessions i with
    | .finishing _ claim _ _ => ¬ w.Written claim
    | _ => True
  | .persist n _ => ∀ task ∈ w.tasks[n]?, ¬ w.Written task.claim
  | _ => True

section Decidable

variable [Fintype ι]

instance (w : JobQueue ι β) (runId : String) : Decidable (w.Manned runId) :=
  inferInstanceAs (Decidable (_ ∨ _))

instance (w : JobQueue ι β) (claim : ℕ) : Decidable (w.Written claim) :=
  inferInstanceAs (Decidable (∃ write ∈ w.log, _))

instance (w : JobQueue ι β) (runId : String) : Decidable (w.Unread runId) :=
  inferInstanceAs (Decidable (∀ _, _))

instance (w : JobQueue ι β) (e : Event ι β) : Decidable (w.Orderly e) := by
  cases e <;> dsimp only [Orderly] <;> (try split) <;> infer_instance

end Decidable

/-! ## Frames -/

section Frames

variable {w : JobQueue ι β} {runId : String}

/-- A change of a row leaves everything but the table alone. -/
lemma modifyRow_eq (w : JobQueue ι β) (runId : String) (f : BacktestRun β → BacktestRun β) :
    w.modifyRow runId f = { w with table := (w.modifyRow runId f).table } := by
  rw [modifyRow]
  split <;> rfl

lemma get?_modifyRow (f : BacktestRun β → BacktestRun β) (runId' : String) :
    (w.modifyRow runId f).table.get? runId' =
      if runId = runId' then (w.table.get? runId').map f else w.table.get? runId' := by
  rw [modifyRow]
  split
  · next row hrow =>
    by_cases hid : runId = runId'
    · subst hid
      simp [hrow]
    · simp [hid, Dict.get?_set_of_ne _ _ hid]
  · next hnone =>
    by_cases hid : runId = runId'
    · subst hid
      simp [hnone]
    · simp [hid]

lemma statusOf_modifyRow {row : BacktestRun β} (hrow : w.table.get? runId = some row)
    (f : BacktestRun β → BacktestRun β) :
    (w.modifyRow runId f).statusOf runId = some (f row).status := by
  rw [statusOf, get?_modifyRow, if_pos rfl, hrow]
  rfl

lemma statusOf_modifyRow_of_ne {runId' : String} (hid : runId' ≠ runId)
    (f : BacktestRun β → BacktestRun β) :
    (w.modifyRow runId f).statusOf runId' = w.statusOf runId' := by
  rw [statusOf, get?_modifyRow, if_neg (Ne.symm hid)]
  rfl

lemma statusOf_eq_some {status : RunStatus} (h : w.statusOf runId = some status) :
    ∃ row, w.table.get? runId = some row ∧ row.status = status :=
  Option.map_eq_some_iff.1 h

lemma Works.manned {claim : ℕ} (h : w.Works runId claim) : w.Manned runId := by
  rcases h with ⟨i, hi⟩ | ⟨task, htask, hrun, -⟩
  · exact .inl ⟨i, by rw [hi]; rfl⟩
  · exact .inr ⟨task, htask, hrun⟩

end Frames

/-! ## The invariant -/

/-- Who is at work on the run holds it, and it is running until that claim has written; what a
session has read of it for a claim, a cancel or a requeue is still so. -/
structure RunGuarded (w : JobQueue ι β) (runId : String) : Prop where
  /-- The holder of the run is the claim at work on it. -/
  holds : ∀ claim, w.Works runId claim → w.holder runId = some claim
  running : ∀ claim, w.Works runId claim → ¬ w.Written claim → w.statusOf runId = some .running
  /-- A run that is queued, or not there yet, is held by nobody. -/
  queued : w.statusOf runId = none ∨ w.statusOf runId = some .queued → w.holder runId = none
  claiming : ∀ i, (w.sessions i).Claims runId → w.statusOf runId = some .queued
  cancelling : ∀ i, (w.sessions i).Cancels runId → w.holder runId = none ∧
    (w.statusOf runId = some .queued ∨ w.statusOf runId = some .cancelled)
  requeueing : ∀ i, (w.sessions i).Requeues runId → w.statusOf runId = some .running ∧
    ∀ claim, ¬ w.Works runId claim
  /-- Who is about to claim the run is alone with it. -/
  claimAlone : ∀ i j, (w.sessions i).Claims runId →
    (w.sessions j).Claims runId ∨ (w.sessions j).Cancels runId → j = i
  requeueAlone : ∀ i j, (w.sessions i).Requeues runId → (w.sessions j).Requeues runId → j = i

/-- The invariant of the queue, run by run. -/
def Guarded (w : JobQueue ι β) : Prop := ∀ runId, w.RunGuarded runId

/-- Every run that has ended keeps its status. -/
def Keeps (w w' : JobQueue ι β) : Prop :=
  ∀ runId status, w.statusOf runId = some status → status.isTerminal = true →
    w'.statusOf runId = some status

/-- What a step in order does: the invariant is kept, no run that has ended changes its status, and
a final status is noted by the holder. -/
structure Advances (w w' : JobQueue ι β) : Prop where
  guarded : w'.Guarded
  keeps : Keeps w w'
  log : ∀ write ∈ w'.log, write ∈ w.log ∨ write.writer = write.holder

/-- No session and no scheduled write takes the run up: whoever works on it, claims, cancels or
requeues it in `w'` did so in `w`. -/
structure Fewer (w w' : JobQueue ι β) (runId : String) : Prop where
  works : ∀ claim, w'.Works runId claim → w.Works runId claim
  claims : ∀ i, (w'.sessions i).Claims runId → (w.sessions i).Claims runId
  cancels : ∀ i, (w'.sessions i).Cancels runId → (w.sessions i).Cancels runId
  requeues : ∀ i, (w'.sessions i).Requeues runId → (w.sessions i).Requeues runId

section Invariant

variable {w w' : JobQueue ι β} {runId : String}

lemma Fewer.of_eq (hsessions : w'.sessions = w.sessions) (htasks : w'.tasks ⊆ w.tasks) :
    Fewer w w' runId where
  works := by
    rintro claim (⟨i, hi⟩ | ⟨task, htask, hsame⟩)
    · exact .inl ⟨i, hsessions ▸ hi⟩
    · exact .inr ⟨task, htasks htask, hsame⟩
  claims := fun i h => hsessions ▸ h
  cancels := fun i h => hsessions ▸ h
  requeues := fun i h => hsessions ▸ h

/-- Nothing is taken up of a run that stays as it is. -/
lemma RunGuarded.fewer (h : w.RunGuarded runId) (hfewer : Fewer w w' runId)
    (hstatus : w'.statusOf runId = w.statusOf runId) (hholder : w'.holder runId = w.holder runId)
    (hwritten : ∀ claim, w.Written claim → w'.Written claim) : w'.RunGuarded runId where
  holds := fun claim hw => hholder.trans (h.holds claim (hfewer.works claim hw))
  running := fun claim hw hnot =>
    hstatus.trans (h.running claim (hfewer.works claim hw) (mt (hwritten claim) hnot))
  queued := fun hqueued => hholder.trans (h.queued (hstatus ▸ hqueued))
  claiming := fun i hi => hstatus.trans (h.claiming i (hfewer.claims i hi))
  cancelling := by
    intro i hi
    rw [hstatus, hholder]
    exact h.cancelling i (hfewer.cancels i hi)
  requeueing := by
    intro i hi
    obtain ⟨hrunning, hidle⟩ := h.requeueing i (hfewer.requeues i hi)
    exact ⟨hstatus.trans hrunning, fun claim hw => hidle claim (hfewer.works claim hw)⟩
  claimAlone := fun i j hi hj =>
    h.claimAlone i j (hfewer.claims i hi) (hj.imp (hfewer.claims j) (hfewer.cancels j))
  requeueAlone := fun i j hi hj =>
    h.requeueAlone i j (hfewer.requeues i hi) (hfewer.requeues j hj)

/-- Nothing is taken up, and the runs stay as they are. -/
lemma Guarded.fewer (h : w.Guarded) (hfewer : ∀ runId, Fewer w w' runId)
    (hstatus : ∀ runId, w'.statusOf runId = w.statusOf runId) (hholder : w'.holder = w.holder)
    (hlog : w'.log = w.log) : Advances w w' where
  guarded := by
    have hwritten : w'.Written = w.Written := by
      ext claim
      simp only [Written, hlog]
    exact fun runId => (h runId).fewer (hfewer runId) (hstatus runId) (congrFun hholder runId)
      fun claim hw => hwritten ▸ hw
  keeps := fun runId status hs _ => (hstatus runId).trans hs
  log := fun write hwrite => .inl (hlog ▸ hwrite)

/-- A queued run is claimed, with nobody else about to claim or to cancel it. -/
lemma Guarded.take (h : w.Guarded) (hqueued : w.statusOf runId = some .queued)
    (hstatus : w'.statusOf runId = some .running)
    (hothers : ∀ runId' ≠ runId, w'.statusOf runId' = w.statusOf runId')
    (hholder : w'.holder = Function.update w.holder runId (some w.nextClaim))
    (hlog : w'.log = w.log)
    (hfewer : ∀ runId' ≠ runId, Fewer w w' runId')
    (hworks : ∀ claim, w'.Works runId claim → w.Works runId claim ∨ claim = w.nextClaim)
    (hunread : w'.Unread runId)
    (hrequeues : ∀ i, (w'.sessions i).Requeues runId → (w.sessions i).Requeues runId) :
    Advances w w' := by
  have hrun := h runId
  have hnone : w.holder runId = none := hrun.queued (.inr hqueued)
  have hself : w'.holder runId = some w.nextClaim := by rw [hholder, Function.update_self]
  have hother : ∀ runId' ≠ runId, w'.holder runId' = w.holder runId' := fun runId' hid => by
    rw [hholder, Function.update_of_ne hid]
  have hwritten : w'.Written = w.Written := by
    ext claim
    simp only [Written, hlog]
  have hnew : ∀ claim, w'.Works runId claim → claim = w.nextClaim := by
    intro claim hw
    refine (hworks claim hw).resolve_left fun hold => ?_
    rw [hrun.holds claim hold] at hnone
    cases hnone
  have hunrequeued : ∀ i, ¬ (w'.sessions i).Requeues runId := by
    intro i hi
    have hrunning := (hrun.requeueing i (hrequeues i hi)).1
    rw [hqueued] at hrunning
    cases hrunning
  have hself_run : w'.RunGuarded runId :=
    { holds := fun claim hw => by rw [hself, hnew claim hw]
      running := fun _ _ _ => hstatus
      queued := fun hqueued' => by simp [hstatus] at hqueued'
      claiming := fun i hi => absurd hi (hunread i).1
      cancelling := fun i hi => absurd hi (hunread i).2
      requeueing := fun i hi => absurd hi (hunrequeued i)
      claimAlone := fun i _ hi => absurd hi (hunread i).1
      requeueAlone := fun i _ hi => absurd hi (hunrequeued i) }
  refine ⟨fun runId' => ?_, fun runId' status hs hended => ?_,
    fun write hwrite => .inl (hlog ▸ hwrite)⟩
  · by_cases hid : runId' = runId
    · exact hid ▸ hself_run
    · exact (h runId').fewer (hfewer runId' hid) (hothers runId' hid) (hother runId' hid)
        fun claim hw => hwritten ▸ hw
  · have hid : runId' ≠ runId := by
      rintro rfl
      rw [hqueued] at hs
      cases hs
      cases hended
    exact (hothers runId' hid).trans hs

/-- One run gets a final status, by its holder or, if it has none, by nobody. -/
lemma Guarded.note {writer : Option ℕ} (h : w.Guarded) (hwriter : writer = w.holder runId)
    (hself : w'.RunGuarded runId)
    (hkeeps : ∀ status, w.statusOf runId = some status → status.isTerminal = true →
      w'.statusOf runId = some status)
    (hfewer : ∀ runId', Fewer w w' runId')
    (hothers : ∀ runId' ≠ runId, w'.statusOf runId' = w.statusOf runId')
    (hholder : w'.holder = w.holder) (hlog : w'.log = w.log ++ [⟨runId, writer, w.holder runId⟩]) :
    Advances w w' where
  guarded := by
    have hwritten : ∀ claim, w.Written claim → w'.Written claim := by
      rintro claim ⟨write, hwrite, hclaim⟩
      exact ⟨write, hlog ▸ List.mem_append_left _ hwrite, hclaim⟩
    intro runId'
    by_cases hid : runId' = runId
    · exact hid ▸ hself
    · exact (h runId').fewer (hfewer runId') (hothers runId' hid) (congrFun hholder runId') hwritten
  keeps := by
    intro runId' status hs hended
    by_cases hid : runId' = runId
    · exact hid ▸ hkeeps status (hid ▸ hs) hended
    · exact (hothers runId' hid).trans hs
  log := by
    intro write hwrite
    rw [hlog] at hwrite
    rcases List.mem_append.1 hwrite with hold | hnew
    · exact .inl hold
    · rw [List.mem_singleton.1 hnew]
      exact .inr hwriter

/-- A claim at work writes its first final status. -/
lemma Guarded.write {claim : ℕ} {status : RunStatus} (h : w.Guarded)
    (hworks : w.Works runId claim) (hnot : ¬ w.Written claim) (hfewer : ∀ runId', Fewer w w' runId')
    (hstatus : w'.statusOf runId = some status) (hne : status ≠ .queued)
    (hothers : ∀ runId' ≠ runId, w'.statusOf runId' = w.statusOf runId')
    (hholder : w'.holder = w.holder)
    (hlog : w'.log = w.log ++ [⟨runId, some claim, w.holder runId⟩]) : Advances w w' := by
  have hrun := h runId
  have hrunning := hrun.running claim hworks hnot
  have hholds := hrun.holds claim hworks
  refine h.note hholds.symm ?_ (fun status' hs hended => ?_) hfewer hothers hholder hlog
  · have hwritten : ∀ claim', w'.Works runId claim' → w'.Written claim' := by
      intro claim' hw
      -- two claims at work on a run both hold it
      have hsame := hrun.holds claim' ((hfewer runId).works claim' hw)
      rw [hholds] at hsame
      exact ⟨_, by rw [hlog]; exact List.mem_append_right _ List.mem_cons_self, hsame⟩
    have hunclaimed : ∀ i, ¬ (w'.sessions i).Claims runId := by
      intro i hi
      have hqueued := hrun.claiming i ((hfewer runId).claims i hi)
      rw [hrunning] at hqueued
      cases hqueued
    have huncancelled : ∀ i, ¬ (w'.sessions i).Cancels runId := by
      intro i hi
      have hnone := (hrun.cancelling i ((hfewer runId).cancels i hi)).1
      rw [hholds] at hnone
      cases hnone
    have hunrequeued : ∀ i, ¬ (w'.sessions i).Requeues runId := fun i hi =>
      (hrun.requeueing i ((hfewer runId).requeues i hi)).2 claim hworks
    exact
      { holds := fun claim' hw => by
          rw [hholder]
          exact hrun.holds claim' ((hfewer runId).works claim' hw)
        running := fun claim' hw hnot' => absurd (hwritten claim' hw) hnot'
        queued := fun hqueued => by simp [hstatus, hne] at hqueued
        claiming := fun i hi => absurd hi (hunclaimed i)
        cancelling := fun i hi => absurd hi (huncancelled i)
        requeueing := fun i hi => absurd hi (hunrequeued i)
        claimAlone := fun i _ hi => absurd hi (hunclaimed i)
        requeueAlone := fun i _ hi => absurd hi (hunrequeued i) }
  · rw [hrunning] at hs
    cases hs
    cases hended

/-- A run that nobody holds and nobody is about to claim is cancelled. -/
lemma Guarded.cancel (h : w.Guarded) (hnone : w.holder runId = none)
    (hopen : w.statusOf runId = some .queued ∨ w.statusOf runId = some .cancelled)
    (hfewer : ∀ runId', Fewer w w' runId') (hfree : ∀ i, ¬ (w'.sessions i).Claims runId)
    (hstatus : w'.statusOf runId = some .cancelled)
    (hothers : ∀ runId' ≠ runId, w'.statusOf runId' = w.statusOf runId')
    (hholder : w'.holder = w.holder) (hlog : w'.log = w.log ++ [⟨runId, none, w.holder runId⟩]) :
    Advances w w' := by
  have hrun := h runId
  have hunmanned : ∀ claim, ¬ w'.Works runId claim := by
    intro claim hw
    have hholds := hrun.holds claim ((hfewer runId).works claim hw)
    rw [hnone] at hholds
    cases hholds
  have hunrequeued : ∀ i, ¬ (w'.sessions i).Requeues runId := by
    intro i hi
    have hrunning := (hrun.requeueing i ((hfewer runId).requeues i hi)).1
    rw [hrunning] at hopen
    simp at hopen
  refine h.note hnone.symm ?_ (fun status hs hended => ?_) hfewer hothers hholder hlog
  · exact
      { holds := fun claim hw => absurd hw (hunmanned claim)
        running := fun claim hw => absurd hw (hunmanned claim)
        queued := fun hqueued => by simp [hstatus] at hqueued
        claiming := fun i hi => absurd hi (hfree i)
        cancelling := fun i _ => ⟨by rw [hholder, hnone], .inr hstatus⟩
        requeueing := fun i hi => absurd hi (hunrequeued i)
        claimAlone := fun i _ hi => absurd hi (hfree i)
        requeueAlone := fun i _ hi => absurd hi (hunrequeued i) }
  · rcases hopen with hopen | hopen
    · rw [hopen] at hs
      cases hs
      cases hended
    · exact hstatus.trans (hopen.symm.trans hs)

/-- The runs of dead workers are queued again. -/
lemma Guarded.release {i : ι} (h : w.Guarded) (ids : List String)
    (hread : ∀ runId ∈ ids, (w.sessions i).Requeues runId)
    (hstatus : ∀ runId, w'.statusOf runId =
      if runId ∈ ids then (w.statusOf runId).map fun _ => .queued else w.statusOf runId)
    (hholder : ∀ runId, w'.holder runId = if runId ∈ ids then none else w.holder runId)
    (hlog : w'.log = w.log)
    (hfewer : ∀ runId, Fewer w w' runId) (hdone : ∀ runId, ¬ (w'.sessions i).Requeues runId) :
    Advances w w' := by
  have hwritten : w'.Written = w.Written := by
    ext claim
    simp only [Written, hlog]
  refine ⟨fun runId => ?_, fun runId status hs hended => ?_,
    fun write hwrite => .inl (hlog ▸ hwrite)⟩
  · have hrun := h runId
    by_cases hid : runId ∈ ids
    · obtain ⟨hrunning, hidle⟩ := hrun.requeueing i (hread runId hid)
      have hqueued : w'.statusOf runId = some .queued := by rw [hstatus, if_pos hid, hrunning]; rfl
      have hnone : w'.holder runId = none := by rw [hholder, if_pos hid]
      have hunmanned : ∀ claim, ¬ w'.Works runId claim := fun claim hw =>
        hidle claim ((hfewer runId).works claim hw)
      have hunclaimed : ∀ j, ¬ (w'.sessions j).Claims runId := by
        intro j hj
        have hqueued' := hrun.claiming j ((hfewer runId).claims j hj)
        rw [hrunning] at hqueued'
        cases hqueued'
      -- any other session that has read the run for a requeue would be this one
      have hunrequeued : ∀ j, ¬ (w'.sessions j).Requeues runId := by
        intro j hj
        obtain rfl := hrun.requeueAlone i j (hread runId hid) ((hfewer runId).requeues j hj)
        exact hdone runId hj
      exact
        { holds := fun claim hw => absurd hw (hunmanned claim)
          running := fun claim hw => absurd hw (hunmanned claim)
          queued := fun _ => hnone
          claiming := fun _ _ => hqueued
          cancelling := fun _ _ => ⟨hnone, .inl hqueued⟩
          requeueing := fun j hj => absurd hj (hunrequeued j)
          claimAlone := fun j _ hj => absurd hj (hunclaimed j)
          requeueAlone := fun j _ hj => absurd hj (hunrequeued j) }
    · refine hrun.fewer (hfewer runId) ?_ ?_ fun claim hw => hwritten ▸ hw
      · rw [hstatus, if_neg hid]
      · rw [hholder, if_neg hid]
  · rw [hstatus]
    split
    · next hid =>
      rw [((h runId).requeueing i (hread runId hid)).1] at hs
      cases hs
      cases hended
    · exact hs

lemma Advances.refl (h : w.Guarded) : Advances w w := ⟨h, fun _ _ hs _ => hs, fun _ => .inl⟩

lemma Advances.trans {w'' : JobQueue ι β} (h : Advances w w') (h' : Advances w' w'') :
    Advances w w'' where
  guarded := h'.guarded
  keeps := fun runId status hs hended =>
    h'.keeps runId status (h.keeps runId status hs hended) hended
  log := fun write hwrite => (h'.log write hwrite).elim (h.log write) .inr

end Invariant

/-! ## Steps -/

section Steps

variable {w w' : JobQueue ι β} {runId : String} {i : ι}

section Goto

variable [DecidableEq ι]

/-- A session goes where it takes nothing up, and what is scheduled was at work before. -/
lemma Fewer.goto {s : Session β} (hsessions : w'.sessions = Function.update w.sessions i s)
    (htasks : ∀ task ∈ w'.tasks, task ∈ w.tasks ∨ w.Works task.runId task.claim)
    (hworks : ∀ claim, s.worksOn = some (runId, claim) → w.Works runId claim)
    (hclaims : ¬ s.Claims runId) (hcancels : ¬ s.Cancels runId) (hrequeues : ¬ s.Requeues runId) :
    Fewer w w' runId where
  works := by
    rintro claim (⟨j, hj⟩ | ⟨task, htask, hrun, hclaim⟩)
    · rw [hsessions, Function.update_apply] at hj
      split at hj
      · exact hworks claim hj
      · exact .inl ⟨j, hj⟩
    · rcases htasks task htask with hold | hw
      · exact .inr ⟨task, hold, hrun, hclaim⟩
      · exact hrun ▸ hclaim ▸ hw
  claims := by
    intro j hj
    rw [hsessions, Function.update_apply] at hj
    split at hj
    · exact absurd hj hclaims
    · exact hj
  cancels := by
    intro j hj
    rw [hsessions, Function.update_apply] at hj
    split at hj
    · exact absurd hj hcancels
    · exact hj
  requeues := by
    intro j hj
    rw [hsessions, Function.update_apply] at hj
    split at hj
    · exact absurd hj hrequeues
    · exact hj

/-- A session lets go of what it had. -/
lemma Fewer.idle (hsessions : w'.sessions = Function.update w.sessions i .idle)
    (htasks : w'.tasks ⊆ w.tasks) : Fewer w w' runId :=
  Fewer.goto hsessions (fun _ htask => .inl (htasks htask)) (fun _ h => by cases h) id id id

lemma goto_idle_advances (h : w.Guarded) (i : ι) : Advances w (w.goto i .idle) :=
  h.fewer (fun _ => Fewer.idle rfl fun _ => id) (fun _ => rfl) rfl rfl

/-- A session goes on with its work. -/
lemma goto_work_advances (h : w.Guarded) {s : Session β} {claim : ℕ}
    (hold : (w.sessions i).worksOn = some (runId, claim)) (hs : s.worksOn = some (runId, claim)) :
    Advances w (w.goto i s) := by
  have hreads : ∀ runId', ¬ s.Claims runId' ∧ ¬ s.Cancels runId' ∧ ¬ s.Requeues runId' := by
    intro runId'
    cases s <;> first | exact ⟨id, id, id⟩ | cases hs
  refine h.fewer (fun runId' => ?_) (fun _ => rfl) rfl rfl
  refine Fewer.goto rfl (fun _ => .inl) (fun claim' hclaim => ?_) (hreads runId').1
    (hreads runId').2.1 (hreads runId').2.2
  exact .inl ⟨i, hold.trans (hs.symm.trans hclaim)⟩

/-- A session reads runs for a claim, a cancel or a requeue. -/
lemma goto_read_advances (h : w.Guarded) {s : Session β} (hworks : s.worksOn = none)
    (hclaims : ∀ runId, s.Claims runId → w.statusOf runId = some .queued ∧ w.Unread runId)
    (hcancels : ∀ runId, s.Cancels runId →
      w.statusOf runId = some .queued ∧ ∀ j, ¬ (w.sessions j).Claims runId)
    (hrequeues : ∀ runId, s.Requeues runId → w.statusOf runId = some .running ∧
      (∀ claim, ¬ w.Works runId claim) ∧ ∀ j, ¬ (w.sessions j).Requeues runId) :
    Advances w (w.goto i s) where
  guarded := by
    intro runId
    have hrun := h runId
    have hsession : ∀ j, (w.goto i s).sessions j = if j = i then s else w.sessions j :=
      Function.update_apply w.sessions i s
    have hfewer : ∀ claim, (w.goto i s).Works runId claim → w.Works runId claim := by
      rintro claim (⟨j, hj⟩ | hscheduled)
      · rw [hsession] at hj
        split at hj
        · rw [hworks] at hj
          cases hj
        · exact .inl ⟨j, hj⟩
      · exact .inr hscheduled
    exact
      { holds := fun claim hw => hrun.holds claim (hfewer claim hw)
        running := fun claim hw => hrun.running claim (hfewer claim hw)
        queued := hrun.queued
        claiming := by
          intro j hj
          rw [hsession] at hj
          split at hj
          · exact (hclaims runId hj).1
          · exact hrun.claiming j hj
        cancelling := by
          intro j hj
          rw [hsession] at hj
          split at hj
          · have hqueued := (hcancels runId hj).1
            exact ⟨hrun.queued (.inr hqueued), .inl hqueued⟩
          · exact hrun.cancelling j hj
        requeueing := by
          intro j hj
          rw [hsession] at hj
          split at hj
          · obtain ⟨hrunning, hidle, -⟩ := hrequeues runId hj
            exact ⟨hrunning, fun claim hw => hidle claim (hfewer claim hw)⟩
          · obtain ⟨hrunning, hidle⟩ := hrun.requeueing j hj
            exact ⟨hrunning, fun claim hw => hidle claim (hfewer claim hw)⟩
        claimAlone := by
          intro j k hj hk
          rw [hsession] at hj hk
          split at hj <;> split at hk
          · next hji hki => exact hki.trans hji.symm
          · exact hk.elim (fun hk => absurd hk ((hclaims runId hj).2 k).1)
              fun hk => absurd hk ((hclaims runId hj).2 k).2
          · exact hk.elim (fun hk => absurd hj ((hclaims runId hk).2 j).1)
              fun hk => absurd hj ((hcancels runId hk).2 j)
          · exact hrun.claimAlone j k hj hk
        requeueAlone := by
          intro j k hj hk
          rw [hsession] at hj hk
          split at hj <;> split at hk
          · next hji hki => exact hki.trans hji.symm
          · exact absurd hk ((hrequeues runId hj).2.2 k)
          · exact absurd hj ((hrequeues runId hk).2.2 j)
          · exact hrun.requeueAlone j k hj hk }
  keeps := fun _ _ hs _ => hs
  log := fun _ => .inl

end Goto

lemma nextQueued_spec {table : RunTable β} {locked : List String} {row : BacktestRun β}
    (h : nextQueued table locked = some (runId, row)) :
    table.get? runId = some row ∧ row.status = .queued := by
  have hmem := List.mem_filter.1 (List.argmin_mem h)
  simp only [Bool.and_eq_true, beq_iff_eq] at hmem
  exact ⟨Dict.mem_entries.1 hmem.1, hmem.2.1⟩

private lemma enqueue_advances (h : w.Guarded) (now : ℤ) :
    Advances w { w with table := enqueueRun w.table runId now } := by
  rw [enqueueRun]
  split
  · exact Advances.refl h
  · next hnone =>
    have habsent : w.statusOf runId = none := by rw [statusOf, hnone]; rfl
    have hrun := h runId
    have hholder : w.holder runId = none := hrun.queued (.inl habsent)
    have hself : ∀ row, ({ w with table := w.table.set runId row } : JobQueue ι β).statusOf runId =
        some row.status := fun row => by
      rw [statusOf, Dict.get?_set_self]
      rfl
    have hothers : ∀ row, ∀ runId' ≠ runId, ({ w with table := w.table.set runId row } :
        JobQueue ι β).statusOf runId' = w.statusOf runId' := fun row runId' hid => by
      rw [statusOf, Dict.get?_set_of_ne _ _ (Ne.symm hid)]
      rfl
    refine ⟨fun runId' => ?_, fun runId' status hs hended => ?_, fun _ => .inl⟩
    · by_cases hid : runId' = runId
      · subst hid
        -- nobody works on a run that is not there, and nobody has read it
        exact
          { holds := hrun.holds
            running := fun claim hw => by
              have hheld := hrun.holds claim hw
              rw [hholder] at hheld
              cases hheld
            queued := fun _ => hholder
            claiming := fun i hi => by simpa [habsent] using hrun.claiming i hi
            cancelling := fun i hi => by simpa [habsent] using hrun.cancelling i hi
            requeueing := fun i hi => by simpa [habsent] using hrun.requeueing i hi
            claimAlone := hrun.claimAlone
            requeueAlone := hrun.requeueAlone }
      · exact (h runId').fewer (Fewer.of_eq rfl fun _ => id) (hothers _ runId' hid) rfl
          fun _ => id
    · have hid : runId' ≠ runId := by
        rintro rfl
        rw [habsent] at hs
        cases hs
      exact (hothers _ runId' hid).trans hs

section Claims

variable [DecidableEq ι]

/-- A queued run with nobody else about to claim or to cancel it goes to a claim of session `i`. -/
private lemma claimed_advances (h : w.Guarded) {row : BacktestRun β}
    (hrow : w.table.get? runId = some row) (hqueued : w.statusOf runId = some .queued)
    {f : BacktestRun β → BacktestRun β} (hf : (f row).status = .running)
    (hunread : ∀ j ≠ i, ¬ (w.sessions j).Claims runId ∧ ¬ (w.sessions j).Cancels runId) :
    Advances w (((w.modifyRow runId f).hold runId (some w.nextClaim)).goto i
      (.claimed runId w.nextClaim)) := by
  have hsame := modifyRow_eq w runId f
  have hsession : ∀ j, (((w.modifyRow runId f).hold runId (some w.nextClaim)).goto i
      (.claimed runId w.nextClaim)).sessions j =
        if j = i then .claimed runId w.nextClaim else w.sessions j := by
    intro j
    rw [hsame]
    exact Function.update_apply w.sessions i _ j
  refine h.take hqueued ?_ (fun runId' hid => ?_) ?_ ?_ (fun runId' hid => ?_)
    (fun claim hw => ?_) (fun j => ?_) fun j hj => ?_
  · exact (statusOf_modifyRow hrow f).trans (congrArg some hf)
  · exact statusOf_modifyRow_of_ne hid f
  · rw [hsame]
    rfl
  · rw [hsame]
    rfl
  · refine Fewer.goto (i := i) (s := .claimed runId w.nextClaim) (by rw [hsame]; rfl)
      (fun task htask => .inl ?_) (fun claim hclaim => ?_) id id id
    · rw [hsame] at htask
      exact htask
    · simp only [Session.worksOn, Option.some.injEq, Prod.mk.injEq] at hclaim
      exact absurd hclaim.1.symm hid
  · rcases hw with ⟨j, hj⟩ | ⟨task, htask, hrun, hclaim⟩
    · rw [hsession] at hj
      split at hj
      · simp only [Session.worksOn, Option.some.injEq, Prod.mk.injEq] at hj
        exact .inr hj.2.symm
      · exact .inl (.inl ⟨j, hj⟩)
    · rw [hsame] at htask
      exact .inl (.inr ⟨task, htask, hrun, hclaim⟩)
  · rw [hsession]
    split
    · exact ⟨id, id⟩
    · next hj => exact hunread j hj
  · rw [hsession] at hj
    split at hj
    · exact absurd hj id
    · exact hj

end Claims

/-! ### Requeues -/

section Requeues

lemma requeueAll_frame (reads : List (String × BacktestRun β)) :
    (w.requeueAll reads).sessions = w.sessions ∧ (w.requeueAll reads).tasks = w.tasks ∧
      (w.requeueAll reads).log = w.log := by
  induction reads generalizing w with
  | nil => exact ⟨rfl, rfl, rfl⟩
  | cons e reads ih =>
    obtain ⟨hsessions, htasks, hlog⟩ :=
      ih (w := (w.modifyRow e.1 (requeued e.2)).hold e.1 none)
    have hsame := modifyRow_eq w e.1 (requeued e.2)
    refine ⟨hsessions.trans ?_, htasks.trans ?_, hlog.trans ?_⟩
    · rw [hsame]
      rfl
    · rw [hsame]
      rfl
    · rw [hsame]
      rfl

lemma holder_requeueAll (reads : List (String × BacktestRun β)) :
    (w.requeueAll reads).holder runId =
      if runId ∈ reads.map Prod.fst then none else w.holder runId := by
  induction reads generalizing w with
  | nil => simp [requeueAll]
  | cons e reads ih =>
    have hsame := modifyRow_eq w e.1 (requeued e.2)
    have hrest := ih (w := (w.modifyRow e.1 (requeued e.2)).hold e.1 none)
    refine hrest.trans ?_
    rw [hsame]
    simp only [hold, Function.update_apply, List.map_cons, List.mem_cons]
    by_cases hid : runId = e.1
    · simp only [hid, if_true, true_or, ite_self]
    · simp only [hid, if_false, false_or]

lemma statusOf_requeueAll (reads : List (String × BacktestRun β)) :
    (w.requeueAll reads).statusOf runId =
      if runId ∈ reads.map Prod.fst then (w.statusOf runId).map fun _ => .queued
      else w.statusOf runId := by
  induction reads generalizing w with
  | nil => simp [requeueAll]
  | cons e reads ih =>
    have hrest := ih (w := (w.modifyRow e.1 (requeued e.2)).hold e.1 none)
    have hfirst : ((w.modifyRow e.1 (requeued e.2)).hold e.1 none).statusOf runId =
        if runId = e.1 then (w.statusOf runId).map fun _ => .queued else w.statusOf runId := by
      by_cases hid : runId = e.1
      · subst hid
        rw [if_pos rfl]
        show ((w.modifyRow e.1 (requeued e.2)).table.get? e.1).map BacktestRun.status = _
        rw [get?_modifyRow, if_pos rfl, statusOf, Option.map_map, Option.map_map]
        rfl
      · rw [if_neg hid]
        exact statusOf_modifyRow_of_ne hid _
    refine hrest.trans ?_
    rw [hfirst]
    simp only [List.map_cons, List.mem_cons]
    by_cases hid : runId = e.1
    · rw [if_pos hid, if_pos (Or.inl hid)]
      split
      · rw [Option.map_map]
        rfl
      · rfl
    · rw [if_neg hid]
      simp only [hid, false_or]

private lemma requeueCommit_advances [DecidableEq ι] (h : w.Guarded)
    {reads : List (String × BacktestRun β)} (hs : w.sessions i = .requeueing reads) :
    Advances w ((w.requeueAll reads).goto i .idle) := by
  obtain ⟨hsessions, htasks, hlog⟩ := requeueAll_frame (w := w) reads
  have hupdate : ((w.requeueAll reads).goto i .idle).sessions =
      Function.update w.sessions i .idle := congrArg (Function.update · i _) hsessions
  refine h.release (i := i) (reads.map Prod.fst) (fun runId hid => ?_)
    (fun runId => statusOf_requeueAll reads) (fun runId => holder_requeueAll reads) hlog
    (fun runId => Fewer.idle hupdate fun task htask => ?_) fun runId hdone => ?_
  · rw [hs]
    exact hid
  · exact htasks ▸ htask
  · rw [hupdate, Function.update_self] at hdone
    exact hdone

lemma mem_orphans {table : RunTable β} {me : Worker} {pidAlive : ℕ → Bool} {now : ℤ}
    {e : String × BacktestRun β} (h : e ∈ orphans table me pidAlive now) :
    table.get? e.1 = some e.2 ∧ e.2.status = .running := by
  obtain ⟨hmem, hrunning⟩ := List.mem_filter.1 h
  rw [Bool.and_eq_true, beq_iff_eq] at hrunning
  exact ⟨Dict.mem_entries.1 hmem, hrunning.1⟩

end Requeues

/-! ### Final writes -/

section FinalWrites

variable [DecidableEq ι]

private lemma cancelCommit_advances (h : w.Guarded) {read : BacktestRun β}
    (hs : w.sessions i = .cancelling runId read) :
    Advances w (w.cancelCommit i runId read) := by
  have hsame := modifyRow_eq w runId (cancelledRow read)
  have hidle : ∀ runId', Fewer w (w.cancelCommit i runId read) runId' := by
    intro runId'
    refine Fewer.idle (i := i) ?_ fun task htask => ?_
    · rw [cancelCommit]
      split <;> (rw [hsame]; rfl)
    · rw [cancelCommit] at htask
      split at htask <;> (rw [hsame] at htask; exact htask)
  by_cases hread : read.status = .queued
  · have hcancels : (w.sessions i).Cancels runId := by
      rw [hs]
      exact ⟨rfl, hread⟩
    obtain ⟨hnone, hopen⟩ := (h runId).cancelling i hcancels
    obtain ⟨row, hrow⟩ : ∃ row, w.table.get? runId = some row := by
      rcases hopen with hopen | hopen
      · exact (statusOf_eq_some hopen).imp fun _ => And.left
      · exact (statusOf_eq_some hopen).imp fun _ => And.left
    have hcommit : w.cancelCommit i runId read =
        ((w.modifyRow runId (cancelledRow read)).note runId none).goto i .idle := if_pos hread
    refine h.cancel hnone hopen hidle (fun j hj => ?_) ?_ (fun runId' hid => ?_) ?_ ?_
    · -- whoever is about to claim the run is alone with it, and this session is not that one
      have hj := (hidle runId).claims j hj
      obtain rfl := (h runId).claimAlone j i hj (.inr hcancels)
      rw [hs] at hj
      exact hj
    · rw [hcommit]
      refine (statusOf_modifyRow hrow _).trans ?_
      rw [cancelledRow, if_pos hread]
    · rw [hcommit]
      exact statusOf_modifyRow_of_ne hid _
    · rw [hcommit, hsame]
      rfl
    · rw [hcommit, hsame]
      rfl
  -- a session that did not read the run as queued only raises the flag
  · have hcommit : w.cancelCommit i runId read =
        (w.modifyRow runId (cancelledRow read)).goto i .idle := if_neg hread
    refine h.fewer hidle (fun runId' => ?_) ?_ ?_
    · rw [hcommit]
      by_cases hid : runId' = runId
      · subst hid
        show ((w.modifyRow runId' _).table.get? runId').map BacktestRun.status = _
        rw [get?_modifyRow, if_pos rfl, statusOf, Option.map_map]
        refine congrArg (Option.map · (w.table.get? runId')) (funext fun row => ?_)
        simp [cancelledRow, hread]
      · exact statusOf_modifyRow_of_ne hid _
    · rw [hcommit, hsame]
      rfl
    · rw [hcommit, hsame]
      rfl

lemma writeBack_ne {α : Type*} [DecidableEq α] {read new current x : α} (hnew : new ≠ x)
    (hcurrent : current ≠ x) : writeBack read new current ≠ x := by
  rw [writeBack]
  split
  · exact hcurrent
  · exact hnew

private lemma finalCommit_advances [DecidableEq β] (h : w.Guarded) {claim : ℕ}
    {outcome : EngineOutcome β} {read : BacktestRun β}
    (hs : w.sessions i = .finishing runId claim outcome read) (hnot : ¬ w.Written claim) :
    Advances w
      (((w.modifyRow runId (finalRow outcome read)).note runId (some claim)).goto i .idle) := by
  have hsame := modifyRow_eq w runId (finalRow outcome read)
  have hworks : w.Works runId claim := .inl ⟨i, by rw [hs]; rfl⟩
  obtain ⟨row, hrow, hrunning⟩ := statusOf_eq_some ((h runId).running claim hworks hnot)
  refine h.write hworks hnot (fun runId' => Fewer.idle (i := i) ?_ fun task htask => ?_)
    (statusOf_modifyRow hrow _) ?_ (fun runId' hid => statusOf_modifyRow_of_ne hid _) ?_ ?_
  · rw [hsame]
    rfl
  · rw [hsame] at htask
    exact htask
  · refine writeBack_ne ?_ (by rw [hrunning]; simp)
    cases outcome <;> simp [EngineOutcome.finalStatus]
  · rw [hsame]
    rfl
  · rw [hsame]
    rfl

omit [DecidableEq ι] in
private lemma persist_advances (h : w.Guarded) {n : ℕ} {task : PersistTask ι β} (now : ℤ)
    (ht : w.tasks[n]? = some task) (hnot : ¬ w.Written task.claim) :
    Advances w (({ w with
      table := persistRun w.table task.runId task.blob now
      tasks := w.tasks.eraseIdx n } : JobQueue ι β).note task.runId (some task.claim)) := by
  have hworks : w.Works task.runId task.claim :=
    .inr ⟨task, List.mem_of_getElem? ht, rfl, rfl⟩
  have hstatus : ({ w with
      table := persistRun w.table task.runId task.blob now
      tasks := w.tasks.eraseIdx n } : JobQueue ι β).statusOf task.runId = some task.blob.status := by
    show ((w.table.set task.runId _).get? task.runId).map BacktestRun.status = _
    rw [Dict.get?_set_self]
    rfl
  refine h.write hworks hnot (fun runId' => Fewer.of_eq rfl (List.eraseIdx_subset ..)) hstatus ?_
    (fun runId' hid => ?_) rfl rfl
  · rw [RunBlob.status]
    split <;> simp
  · show ((w.table.set task.runId _).get? runId').map BacktestRun.status = _
    rw [Dict.get?_set_of_ne _ _ (Ne.symm hid)]
    rfl

private lemma engineEnds_advances (h : w.Guarded) {claim : ℕ}
    (hs : w.sessions i = .running runId claim) (outcome : EngineOutcome β) :
    Advances w (w.engineEnds i runId claim outcome) := by
  have hold : (w.sessions i).worksOn = some (runId, claim) := by rw [hs]; rfl
  cases outcome with
  | returned blob =>
    refine h.fewer (fun runId' => ?_) (fun _ => rfl) rfl rfl
    refine Fewer.goto (i := i) (s := .ended runId claim (.returned blob)) rfl (fun task htask => ?_)
      (fun claim' hclaim => .inl ⟨i, hold.trans hclaim⟩) id id id
    rcases List.mem_append.1 htask with htask | htask
    · exact .inl htask
    · -- the write that is scheduled is of the claim of the session
      rw [List.mem_singleton.1 htask]
      exact .inr (.inl ⟨i, hold⟩)
  | cancelled => exact goto_work_advances h hold rfl
  | raised error traceback => exact goto_work_advances h hold rfl

end FinalWrites

variable [DecidableEq ι] [DecidableEq β]

/-- One case for each event. -/
lemma step_advances (h : w.Guarded) {e : Event ι β} (he : w.Orderly e) : Advances w (w.step e) := by
  cases e with
  | enqueue runId now => exact enqueue_advances h now
  | claim i worker now locked =>
    dsimp only [step]
    split
    · rw [claimNext]
      split
      · exact Advances.refl h
      · next runId row hnext =>
        -- the row is locked: read and claim are one step
        obtain ⟨hrow, hqueued⟩ := nextQueued_spec hnext
        refine claimed_advances h hrow ?_ rfl fun j _ => he (runId, row) hnext j
        rw [statusOf, hrow, Option.map_some, hqueued]
    · exact Advances.refl h
  | claimRead i worker =>
    dsimp only [step]
    split
    · next runId row _ hnext =>
      obtain ⟨hrow, hqueued⟩ := nextQueued_spec hnext
      refine goto_read_advances h rfl (fun runId' hclaims => ?_) (fun _ => False.elim)
        fun _ => False.elim
      obtain rfl : runId = runId' := hclaims
      refine ⟨?_, he (runId, row) hnext⟩
      rw [statusOf, hrow, Option.map_some, hqueued]
    · exact Advances.refl h
  | claimCommit i now =>
    dsimp only [step]
    split
    · next worker runId read hs =>
      have hclaims : (w.sessions i).Claims runId := by
        rw [hs]
        exact rfl
      rw [claimCommit]
      split
      -- since the row was read nobody else may claim it or cancel it, so it is still queued
      · exact goto_idle_advances h i
      · next row hrow =>
        refine claimed_advances h hrow ((h runId).claiming i hclaims) rfl fun j hj => ?_
        have halone := (h runId).claimAlone i j hclaims
        exact ⟨fun hclaim => hj (halone (.inl hclaim)), fun hcancel => hj (halone (.inr hcancel))⟩
    · exact Advances.refl h
  | start i =>
    dsimp only [step]
    split
    · next runId claim hs =>
      have hold : (w.sessions i).worksOn = some (runId, claim) := by
        rw [hs]
        rfl
      split
      · split
        · exact goto_work_advances h hold rfl
        · exact goto_idle_advances h i
      · exact goto_idle_advances h i
    · exact Advances.refl h
  | progress i =>
    dsimp only [step]
    split
    · next runId claim hs =>
      split
      · split
        · exact engineEnds_advances h hs _
        · exact Advances.refl h
      · exact Advances.refl h
    · exact Advances.refl h
  | engine i outcome =>
    dsimp only [step]
    split
    · next runId claim hs =>
      split
      · exact Advances.refl h
      · exact engineEnds_advances h hs _
    · exact Advances.refl h
  | finalRead i =>
    dsimp only [step]
    split
    · next runId claim outcome hs =>
      have hold : (w.sessions i).worksOn = some (runId, claim) := by
        rw [hs]
        rfl
      split
      · exact goto_work_advances h hold rfl
      · exact goto_idle_advances h i
    · exact Advances.refl h
  | finalCommit i =>
    dsimp only [step]
    split
    · next runId claim outcome read hs =>
      rw [Orderly, hs] at he
      exact finalCommit_advances h hs he
    · exact Advances.refl h
  | cancelRead i runId =>
    dsimp only [step]
    split
    · next row _ hrow =>
      split
      · exact Advances.refl h
      · refine goto_read_advances h rfl (fun _ => False.elim) (fun runId' hcancels => ?_)
          fun _ => False.elim
        obtain ⟨rfl, hqueued⟩ := hcancels
        have hstatus : w.statusOf runId = some .queued := by
          rw [statusOf, hrow, Option.map_some, hqueued]
        exact ⟨hstatus, he hstatus⟩
    · exact Advances.refl h
  | cancelCommit i =>
    dsimp only [step]
    split
    · next runId read hs => exact cancelCommit_advances h hs
    · exact Advances.refl h
  | requeueRead i me pidAlive now =>
    dsimp only [step]
    split
    · refine goto_read_advances h rfl (fun _ => False.elim) (fun _ => False.elim)
        fun runId hrequeues => ?_
      obtain ⟨entry, hentry, rfl⟩ := List.mem_map.1 hrequeues
      obtain ⟨hrow, hrunning⟩ := mem_orphans hentry
      obtain ⟨hdead, halone⟩ := he entry hentry
      refine ⟨?_, fun claim hworks => hdead hworks.manned, halone⟩
      rw [statusOf, hrow, Option.map_some, hrunning]
    · exact Advances.refl h
  | requeueCommit i =>
    dsimp only [step]
    split
    · next reads hs => exact requeueCommit_advances h hs
    · exact Advances.refl h
  | persist n now =>
    dsimp only [step]
    split
    · next task ht => exact persist_advances h now ht (he task ht)
    · exact Advances.refl h
  | persistFails n =>
    exact h.fewer (fun _ => Fewer.of_eq rfl (List.eraseIdx_subset ..)) (fun _ => rfl) rfl rfl
  | abort i => exact goto_idle_advances h i
  | crash i =>
    exact h.fewer (fun _ => Fewer.idle (i := i) rfl (List.filter_subset_self _)) (fun _ => rfl) rfl
      rfl

/-! ## Runs -/

/-- A run starts with any rows, and with nobody at work: every session is idle, no write is
scheduled, no claim is held, and nothing was written. -/
structure Starts (w : JobQueue ι β) : Prop where
  idle : ∀ i, w.sessions i = .idle
  unscheduled : w.tasks = []
  unheld : ∀ runId, w.holder runId = none
  log : w.log = []

omit [DecidableEq ι] [DecidableEq β] in
lemma Starts.guarded (h : w.Starts) : w.Guarded := by
  have hunmanned : ∀ runId claim, ¬ w.Works runId claim := by
    rintro runId claim (⟨i, hi⟩ | ⟨task, htask, -⟩)
    · rw [h.idle] at hi
      cases hi
    · rw [h.unscheduled] at htask
      cases htask
  intro runId
  constructor
  · exact fun claim hw => absurd hw (hunmanned runId claim)
  · exact fun claim hw => absurd hw (hunmanned runId claim)
  · exact fun _ => h.unheld runId
  all_goals
    intro i
    rw [h.idle i]
  · exact False.elim
  · exact False.elim
  · exact False.elim
  · exact fun _ => False.elim
  · exact fun _ => False.elim

lemma run_advances (hw : w.Guarded) {es : List (Event ι β)} (h : EveryStep step Orderly w es) :
    Advances w (es.foldl step w) := by
  induction es generalizing w with
  | nil => exact Advances.refl hw
  | cons e es ih =>
    have hstep := step_advances hw h.1
    exact hstep.trans (ih hstep.guarded h.2)

/-- In a run in order, whoever is at work on a run of the queue holds it. -/
lemma holder_of_works (hstart : w.Starts) {es : List (Event ι β)} (h : EveryStep step Orderly w es)
    {claim : ℕ} (hworks : (es.foldl step w).Works runId claim) :
    (es.foldl step w).holder runId = some claim :=
  ((run_advances hstart.guarded h).guarded runId).holds claim hworks

end Steps

end JobQueue

end Evosport.Jobs
