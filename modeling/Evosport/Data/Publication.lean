/-
Publishing a frozen dataset is atomic.

At most one call is between taking and releasing the lock, and it holds the lock then, so that
nobody else touches the output root (`Inv`).  Until its rename the target is absent, and what it
renames is the folder of its own that it has verified (`Phase.Ok`).  A crash leaves the lock behind
and with it every later call outside.  So the target is absent or holds the manifest alone,
protected, and is never touched again.
-/
import Evosport.Data.Freeze
import Evosport.Lib.Run

namespace Evosport.Data

open Lib

variable {ι M : Type*}

/-! ## What holds at each phase -/

/-- The folder that has the manifest alone. -/
def single (f : File) : Dict String File := Dict.empty.set manifestName f

/-- A published folder: the manifest alone, protected, which is read back as the manifest. -/
def Publication.IsPublished (pub : Publication M) (n : Node) : Prop :=
  ∃ f, n = .folder (single f) ∧ f.mode = 0o444 ∧
    pub.format.validateJson f.bytes = some pub.manifest

/-- Between taking and releasing the lock. -/
def Phase.Inside : Phase M → Prop
  | .idle | .done _ | .crashed => False
  | _ => True

/-- A call returns the manifest, and only once it is there. -/
def Outcome.Ok (pub : Publication M) (root : Folder) : Outcome M → Prop
  | .returned m => m = pub.manifest ∧ ∃ n, root.get? pub.targetName = some n
  | .raised _ => True

/-- What a check has read is what the manifest file `f` says. -/
def Check.Reads (pub : Publication M) (f : File) : Check M → Prop
  | .capture => True
  | .listing _ m | .payloads _ m | .restat _ m => pub.format.validateJson f.bytes = some m

/-- The name of a staging folder. -/
structure Publication.Staged (pub : Publication M) (name : String) : Prop where
  ne_target : name ≠ pub.targetName
  ne_lock : name ≠ pub.lockName

/-- What a call relies on at a phase: whether the publication is there, and what its staged
directory holds.  Only the holder of the lock changes either, so it stays true while others move. -/
def Phase.Ok (pub : Publication M) (root : Folder) : Phase M → Prop
  | .idle | .locked | .looking | .crashed => True
  | .adopting _ => ∃ n, root.get? pub.targetName = some n
  | .making => root.get? pub.targetName = none
  | .creating s =>
    root.get? pub.targetName = none ∧ pub.Staged s ∧ root.get? s = some (.folder Dict.empty)
  | .writing s _ | .protecting s =>
    root.get? pub.targetName = none ∧ pub.Staged s ∧ ∃ f, root.get? s = some (.folder (single f))
  | .verifying s check =>
    root.get? pub.targetName = none ∧ pub.Staged s ∧
      ∃ f, root.get? s = some (.folder (single f)) ∧ f.mode = 0o444 ∧ check.Reads pub f
  | .moving s =>
    root.get? pub.targetName = none ∧ pub.Staged s ∧
      ∃ n, root.get? s = some n ∧ pub.IsPublished n
  | .cleaning s outcome => pub.Staged s ∧ outcome.Ok pub root
  | .unlocking outcome | .done outcome => outcome.Ok pub root

/-- Every node that bears the name of the manifest is published. -/
def TargetOk (pub : Publication M) (root : Folder) : Prop :=
  ∀ n, root.get? pub.targetName = some n → pub.IsPublished n

/-! ## Names -/

section Names

variable (pub : Publication M)

lemma lockName_ne_targetName : pub.lockName ≠ pub.targetName := by
  intro h
  have hlen := congrArg (fun s : String => s.toList.length) h
  simp [Publication.lockName] at hlen
  omega

lemma stagingName_ne_targetName (random : String) :
    pub.stagingName random ≠ pub.targetName := by
  intro h
  have hlen := congrArg (fun s : String => s.toList.length) h
  simp [Publication.stagingName] at hlen
  omega

end Names

lemma get?_single (f : File) : (single f).get? manifestName = some f := by
  simp [single]

lemma single_set (f f' : File) : (single f).set manifestName f' = single f' :=
  Dict.set_set _ _ _ _

lemma fileIn_single {root : Folder} {s : String} {f : File}
    (h : root.get? s = some (.folder (single f))) : root.fileIn s manifestName = some f := by
  rw [Folder.fileIn, Folder.filesOf_eq_some.2 h]
  exact get?_single f

/-! ## One step of one call -/

section Steps

variable {pub : Publication M} {root : Folder} {payloads : Dict String ByteArray}
  {now : ℕ} {answer : Answer} {p : Phase M}

/-- What a step of a call at phase `p` may do to the output root: it keeps what is published, and
only the call that holds the lock changes anything under the names of the publication. -/
structure StepOk (pub : Publication M) (root : Folder) (p : Phase M) (next : Folder × Phase M) :
    Prop where
  /-- What bears the name of the manifest stays as it is. -/
  keeps : ∀ n, root.get? pub.targetName = some n → next.1.get? pub.targetName = some n
  target : TargetOk pub next.1
  ok : next.2.Ok pub next.1
  lock : next.2.Inside → next.1.get? pub.lockName ≠ none
  enters : next.2.Inside → p.Inside ∨ root.get? pub.lockName = none
  /-- A call that is outside and stays there does nothing. -/
  quiet : ¬ p.Inside → root.get? pub.lockName ≠ none → next.1 = root

lemma StepOk.refl (htarget : TargetOk pub root) (hlock : p.Inside → root.get? pub.lockName ≠ none)
    {p' : Phase M} (hin : p'.Inside → p.Inside) (hok : p'.Ok pub root) :
    StepOk pub root p (root, p') where
  keeps := fun _ hn => hn
  target := htarget
  ok := hok
  lock := fun h => hlock (hin h)
  enters := fun h => .inl (hin h)
  quiet := fun _ _ => rfl

/-- A step between the lock and its release that leaves the target and the lock alone. -/
lemma StepOk.aside (htarget : TargetOk pub root) (hlock : root.get? pub.lockName ≠ none)
    (hin : p.Inside) {root' : Folder} {p' : Phase M}
    (htarget' : root'.get? pub.targetName = root.get? pub.targetName)
    (hlock' : root'.get? pub.lockName = root.get? pub.lockName) (hok : p'.Ok pub root') :
    StepOk pub root p (root', p') where
  keeps := fun _ hn => htarget'.trans hn
  target := fun n hn => htarget n (htarget'.symm.trans hn)
  ok := hok
  lock := fun _ => hlock' ▸ hlock
  enters := fun _ => .inl hin
  quiet := fun hout => absurd hin hout

/-- A step that writes into a staging folder. -/
lemma StepOk.stage (htarget : TargetOk pub root) (hlock : root.get? pub.lockName ≠ none)
    (hin : p.Inside) {s : String} (hs : pub.Staged s) {files : Dict String File} {p' : Phase M}
    (hok : p'.Ok pub (root.set s (.folder files))) :
    StepOk pub root p (root.set s (.folder files), p') :=
  StepOk.aside htarget hlock hin (root.get?_set_of_ne _ hs.ne_target)
    (root.get?_set_of_ne _ hs.ne_lock) hok

lemma Outcome.Ok.mono {outcome : Outcome M} {root' : Folder}
    (hkeeps : ∀ n, root.get? pub.targetName = some n → root'.get? pub.targetName = some n)
    (h : outcome.Ok pub root) : outcome.Ok pub root' := by
  cases outcome with
  | returned m =>
    obtain ⟨hm, n, hn⟩ := h
    exact ⟨hm, n, hkeeps n hn⟩
  | raised failure => trivial

/-- A call that is outside relies on nothing but that the target stays. -/
lemma Phase.Ok.outside {root' : Folder}
    (hkeeps : ∀ n, root.get? pub.targetName = some n → root'.get? pub.targetName = some n)
    (hout : ¬ p.Inside) (h : p.Ok pub root) : p.Ok pub root' := by
  cases p with
  | idle => trivial
  | done outcome => exact Outcome.Ok.mono hkeeps h
  | crashed => trivial
  | _ => exact absurd trivial hout

/-- A step that changes the manifest in its staging folder. -/
private lemma modify_ok {s : String} {change : File → File} {root' : Folder} {f : File}
    (h : root.modifyIn s manifestName change = some root')
    (hf : root.get? s = some (.folder (single f))) :
    root' = root.set s (.folder (single (change f))) := by
  obtain ⟨files, f', hfiles, hf', rfl⟩ := Folder.modifyIn_eq_some.1 h
  obtain rfl : single f = files := by simpa [hf] using hfiles
  obtain rfl : f = f' := by simpa [get?_single] using hf'
  rw [single_set]

/-- The checks read the manifest that is there. -/
lemma checkStep_reads {s : String} {check : Check M} {f : File} {r : Check M ⊕ M}
    (hf : root.get? s = some (.folder (single f))) (hreads : check.Reads pub f)
    (h : checkStep pub root payloads s check = .ok r) :
    r.elim (fun check' => check'.Reads pub f)
      fun m => pub.format.validateJson f.bytes = some m := by
  cases check with
  | capture =>
    rw [checkStep, fileIn_single hf] at h
    dsimp only at h
    split at h
    · cases h
    · next m hm =>
      cases h
      exact hm
  | listing captured m =>
    rw [checkStep] at h
    split at h
    · cases h
    · split at h <;> cases h
      exact hreads
  | payloads captured m =>
    rw [checkStep] at h
    split at h <;> cases h
    exact hreads
  | restat captured m =>
    rw [checkStep, fileIn_single hf] at h
    dsimp only at h
    split at h <;> cases h
    exact hreads

/-- A step that raises leaves the output root alone. -/
lemma failStep_ok (htarget : TargetOk pub root) (hok : p.Ok pub root)
    (hlock : p.Inside → root.get? pub.lockName ≠ none) :
    StepOk pub root p (root, failStep pub p) := by
  refine StepOk.refl htarget hlock (fun h => ?_) ?_
  · cases p <;> trivial
  · cases p with
    | creating s => exact ⟨hok.2.1, trivial⟩
    | writing s written => exact ⟨hok.2.1, trivial⟩
    | protecting s => exact ⟨hok.2.1, trivial⟩
    | verifying s check => exact ⟨hok.2.1, trivial⟩
    | moving s => exact ⟨hok.2.1, trivial⟩
    | cleaning s outcome => exact hok.2
    | done outcome => exact hok
    | _ => trivial

variable [DecidableEq M]

/-- A call takes the lock, or is refused. -/
private lemma idle_ok (htarget : TargetOk pub root) :
    StepOk pub root .idle (nextStep pub root payloads now answer .idle) := by
  rw [nextStep]
  split
  · next root' h =>
    obtain ⟨hnone, rfl⟩ := Folder.createExclusive_eq_some.1 h
    have hframe := root.get?_set_of_ne (.file (File.new 0o600 now)) (lockName_ne_targetName pub)
    exact {
      keeps := fun n hn => hframe.trans hn
      target := fun n hn => htarget n (hframe.symm.trans hn)
      ok := trivial
      lock := fun _ => by simp
      enters := fun _ => .inr hnone
      quiet := fun _ hlock => absurd hnone hlock }
  · exact StepOk.refl htarget False.elim False.elim trivial

/-- The process id is written into the lock. -/
private lemma locked_ok (htarget : TargetOk pub root) (hlock : root.get? pub.lockName ≠ none) :
    StepOk pub root .locked (nextStep pub root payloads now answer .locked) := by
  rw [nextStep]
  split
  · have hframe := fun n => root.get?_set_of_ne n (lockName_ne_targetName pub)
    exact {
      keeps := fun n hn => (hframe _).trans hn
      target := fun n hn => htarget n ((hframe _).symm.trans hn)
      ok := trivial
      lock := fun _ => by simp
      enters := fun _ => .inl trivial
      quiet := fun hout => absurd trivial hout }
  · exact StepOk.refl htarget (fun _ => hlock) (fun _ => trivial) trivial

private lemma looking_ok (htarget : TargetOk pub root) (hlock : root.get? pub.lockName ≠ none) :
    StepOk pub root .looking (nextStep pub root payloads now answer .looking) := by
  refine StepOk.refl htarget (fun _ => hlock) (fun _ => trivial) ?_
  rw [Dict.contains]
  split
  · next h => exact Option.isSome_iff_exists.1 h
  · next h => simpa [Phase.Ok] using h

private lemma adopting_ok {check : Check M} (htarget : TargetOk pub root)
    (hlock : root.get? pub.lockName ≠ none) (hok : (Phase.adopting check).Ok pub root) :
    StepOk pub root (.adopting check)
      (nextStep pub root payloads now answer (.adopting check)) := by
  rw [nextStep]
  split
  · exact StepOk.refl htarget (fun _ => hlock) (fun _ => trivial) trivial
  · exact StepOk.refl htarget (fun _ => hlock) (fun _ => trivial) hok
  · refine StepOk.refl htarget (fun _ => hlock) (fun _ => trivial) ?_
    split
    · trivial
    · next hsame => exact ⟨not_not.1 hsame, hok⟩

/-- A staging folder is made. -/
private lemma making_ok (htarget : TargetOk pub root) (hlock : root.get? pub.lockName ≠ none)
    (hok : (Phase.making : Phase M).Ok pub root) :
    StepOk pub root .making (nextStep pub root payloads now answer .making) := by
  rw [nextStep]
  split
  · next root' h =>
    obtain ⟨hnone, rfl⟩ := Folder.mkdir_eq_some.1 h
    have hs : pub.Staged (pub.stagingName answer.random) :=
      ⟨stagingName_ne_targetName pub _, fun heq => hlock (heq ▸ hnone)⟩
    refine StepOk.stage htarget hlock (by trivial) hs ⟨?_, hs, by simp⟩
    exact (root.get?_set_of_ne _ hs.ne_target).trans hok
  · exact StepOk.refl htarget (fun _ => hlock) (fun _ => trivial) hok

private lemma creating_ok {s : String} (htarget : TargetOk pub root)
    (hlock : root.get? pub.lockName ≠ none) (hok : (Phase.creating s : Phase M).Ok pub root) :
    StepOk pub root (.creating s) (nextStep pub root payloads now answer (.creating s)) := by
  obtain ⟨habsent, hs, hempty⟩ := hok
  rw [nextStep]
  split
  · next root' h =>
    obtain ⟨files, hfiles, rfl⟩ := Folder.createIn_eq_some.1 h
    obtain rfl : Dict.empty = files := by simpa [hempty] using hfiles
    refine StepOk.stage htarget hlock (by trivial) hs ⟨?_, hs, _, root.get?_set_self s _⟩
    exact (root.get?_set_of_ne _ hs.ne_target).trans habsent
  · exact StepOk.refl htarget (fun _ => hlock) (fun _ => trivial) ⟨hs, trivial⟩

private lemma writing_ok {s : String} {written : ℕ} (htarget : TargetOk pub root)
    (hlock : root.get? pub.lockName ≠ none)
    (hok : (Phase.writing s written : Phase M).Ok pub root) :
    StepOk pub root (.writing s written)
      (nextStep pub root payloads now answer (.writing s written)) := by
  rw [nextStep]
  split
  · obtain ⟨habsent, hs, f, hf⟩ := hok
    dsimp only
    split
    · next root' h =>
      obtain rfl := modify_ok h hf
      refine StepOk.stage htarget hlock (by trivial) hs ⟨?_, hs, _, root.get?_set_self s _⟩
      exact (root.get?_set_of_ne _ hs.ne_target).trans habsent
    · exact StepOk.refl htarget (fun _ => hlock) (fun _ => trivial) ⟨hs, trivial⟩
  · exact StepOk.refl htarget (fun _ => hlock) (fun _ => trivial) hok

private lemma protecting_ok {s : String} (htarget : TargetOk pub root)
    (hlock : root.get? pub.lockName ≠ none) (hok : (Phase.protecting s : Phase M).Ok pub root) :
    StepOk pub root (.protecting s) (nextStep pub root payloads now answer (.protecting s)) := by
  obtain ⟨habsent, hs, f, hf⟩ := hok
  rw [nextStep]
  split
  · next root' h =>
    obtain rfl := modify_ok h hf
    refine StepOk.stage htarget hlock (by trivial) hs
      ⟨?_, hs, _, root.get?_set_self s _, rfl, trivial⟩
    exact (root.get?_set_of_ne _ hs.ne_target).trans habsent
  · exact StepOk.refl htarget (fun _ => hlock) (fun _ => trivial) ⟨hs, trivial⟩

private lemma verifying_ok {s : String} {check : Check M} (htarget : TargetOk pub root)
    (hlock : root.get? pub.lockName ≠ none) (hok : (Phase.verifying s check).Ok pub root) :
    StepOk pub root (.verifying s check)
      (nextStep pub root payloads now answer (.verifying s check)) := by
  obtain ⟨habsent, hs, f, hf, hmode, hreads⟩ := hok
  rw [nextStep]
  split
  · exact StepOk.refl htarget (fun _ => hlock) (fun _ => trivial) ⟨hs, trivial⟩
  · next check' h =>
    refine StepOk.refl htarget (fun _ => hlock) (fun _ => trivial) ⟨habsent, hs, f, hf, hmode, ?_⟩
    exact checkStep_reads hf hreads h
  · next m h =>
    have hm : pub.format.validateJson f.bytes = some m := checkStep_reads hf hreads h
    split
    · exact StepOk.refl htarget (fun _ => hlock) (fun _ => trivial) ⟨hs, trivial⟩
    · next hsame =>
      rw [not_not.1 hsame] at hm
      exact StepOk.refl htarget (fun _ => hlock) (fun _ => trivial)
        ⟨habsent, hs, _, hf, f, rfl, hmode, hm⟩

/-- What is verified takes the name of the manifest. -/
private lemma moving_ok {s : String} (htarget : TargetOk pub root)
    (hlock : root.get? pub.lockName ≠ none) (hok : (Phase.moving s : Phase M).Ok pub root) :
    StepOk pub root (.moving s) (nextStep pub root payloads now answer (.moving s)) := by
  obtain ⟨habsent, hs, n, hn, hpublished⟩ := hok
  rw [nextStep]
  split
  · next root' h =>
    obtain ⟨files, hfiles, -, rfl⟩ := (Folder.rename_eq_some hs.ne_target).1 h
    obtain rfl : n = .folder files := by simpa [hn] using hfiles
    have hnew := (root.erase s).get?_set_self pub.targetName (.folder files)
    exact {
      keeps := fun n' hn' => by simp [habsent] at hn'
      target := fun n' hn' => by
        rw [hnew] at hn'
        exact Option.some.inj hn' ▸ hpublished
      ok := ⟨hs, rfl, _, hnew⟩
      lock := fun _ => by
        rw [Dict.get?_set_of_ne _ _ (lockName_ne_targetName pub).symm,
          Dict.get?_erase_of_ne _ hs.ne_lock]
        exact hlock
      enters := fun _ => .inl trivial
      quiet := fun hout => absurd trivial hout }
  · exact StepOk.refl htarget (fun _ => hlock) (fun _ => trivial) ⟨hs, trivial⟩

private lemma cleaning_ok {s : String} {outcome : Outcome M} (htarget : TargetOk pub root)
    (hlock : root.get? pub.lockName ≠ none) (hok : (Phase.cleaning s outcome).Ok pub root) :
    StepOk pub root (.cleaning s outcome)
      (nextStep pub root payloads now answer (.cleaning s outcome)) := by
  obtain ⟨hs, hout⟩ := hok
  rw [nextStep]
  split
  · have hframe : (root.removeOne s).get? pub.targetName = root.get? pub.targetName :=
      Folder.get?_removeOne_of_ne hs.ne_target
    exact StepOk.aside htarget hlock (by trivial) hframe (Folder.get?_removeOne_of_ne hs.ne_lock)
      ⟨hs, hout.mono fun n hn => hframe.trans hn⟩
  · exact StepOk.refl htarget (fun _ => hlock) (fun _ => trivial) hout

/-- The lock is released. -/
private lemma unlocking_ok {outcome : Outcome M} (htarget : TargetOk pub root)
    (hok : (Phase.unlocking outcome).Ok pub root) :
    StepOk pub root (.unlocking outcome)
      (nextStep pub root payloads now answer (.unlocking outcome)) := by
  have hframe : (root.erase pub.lockName).get? pub.targetName = root.get? pub.targetName :=
    root.get?_erase_of_ne (lockName_ne_targetName pub)
  have hout : outcome.Ok pub (root.erase pub.lockName) :=
    Outcome.Ok.mono (fun n hn => hframe.trans hn) hok
  exact {
    keeps := fun n hn => hframe.trans hn
    target := fun n hn => htarget n (hframe.symm.trans hn)
    ok := hout
    lock := False.elim
    enters := False.elim
    quiet := fun hout => absurd trivial hout }

/-- One case for each phase of the call. -/
lemma nextStep_ok (htarget : TargetOk pub root) (hok : p.Ok pub root)
    (hlock : p.Inside → root.get? pub.lockName ≠ none) :
    StepOk pub root p (nextStep pub root payloads now answer p) := by
  cases p with
  | idle => exact idle_ok htarget
  | locked => exact locked_ok htarget (hlock trivial)
  | looking => exact looking_ok htarget (hlock trivial)
  | adopting check => exact adopting_ok htarget (hlock trivial) hok
  | making => exact making_ok htarget (hlock trivial) hok
  | creating s => exact creating_ok htarget (hlock trivial) hok
  | writing s written => exact writing_ok htarget (hlock trivial) hok
  | protecting s => exact protecting_ok htarget (hlock trivial) hok
  | verifying s check => exact verifying_ok htarget (hlock trivial) hok
  | moving s => exact moving_ok htarget (hlock trivial) hok
  | cleaning s outcome => exact cleaning_ok htarget (hlock trivial) hok
  | unlocking outcome => exact unlocking_ok htarget hok
  | done outcome => exact StepOk.refl htarget hlock (fun h => h) hok
  | crashed => exact StepOk.refl htarget hlock (fun h => h) hok

lemma actStep_ok (htarget : TargetOk pub root) (hok : p.Ok pub root)
    (hlock : p.Inside → root.get? pub.lockName ≠ none) (action : Action) :
    StepOk pub root p (actStep pub root payloads now p action) := by
  cases action with
  | proceed answer => exact nextStep_ok htarget hok hlock
  | fail => exact failStep_ok htarget hok hlock
  | crash => exact StepOk.refl htarget hlock False.elim trivial

end Steps

/-! ## Runs -/

namespace Freeze

/-- A run starts with an output root in which the manifest is absent or published, whatever earlier
calls have left there besides. -/
structure Starts (pub : Publication M) (w : Freeze ι M) : Prop where
  target : TargetOk pub w.root
  idle : ∀ i, w.calls i = .idle

/-- At most one call is inside, and it holds the lock; what is under the name of the publication is
the whole publication or nothing. -/
structure Inv (pub : Publication M) (w : Freeze ι M) : Prop where
  target : TargetOk pub w.root
  ok : ∀ i, (w.calls i).Ok pub w.root
  lock : ∀ i, (w.calls i).Inside → w.root.get? pub.lockName ≠ none
  one : ∀ i j, (w.calls i).Inside → (w.calls j).Inside → i = j

variable {pub : Publication M} {w : Freeze ι M}

lemma Starts.inv (h : w.Starts pub) : w.Inv pub where
  target := h.target
  ok := fun i => by rw [h.idle i]; trivial
  lock := fun i hin => by rw [h.idle i] at hin; exact hin.elim
  one := fun i _ hin => by rw [h.idle i] at hin; exact hin.elim

variable [DecidableEq ι] [DecidableEq M]

/-- The other calls do not notice a step. -/
private lemma Inv.call (h : w.Inv pub) (i : ι) (action : Action) :
    (w.step pub (.call i action)).Inv pub := by
  have hact : StepOk pub w.root (w.calls i)
      (actStep pub w.root w.payloads w.now (w.calls i) action) :=
    actStep_ok h.target (h.ok i) (h.lock i) action
  generalize hnext : actStep pub w.root w.payloads w.now (w.calls i) action = next at hact
  have hstep : w.step pub (.call i action) =
      { w with root := next.1, now := w.now + 1, calls := Function.update w.calls i next.2 } := by
    rw [← hnext]
    rfl
  -- while another call is inside, this one is refused
  have hquiet : ∀ j, j ≠ i → (w.calls j).Inside → next.1 = w.root ∧ ¬ next.2.Inside := by
    intro j hj hin
    have hlock := h.lock j hin
    have hout : ¬ (w.calls i).Inside := fun hi => hj (h.one j i hin hi)
    refine ⟨hact.quiet hout hlock, fun hnew => ?_⟩
    rcases hact.enters hnew with hi | hfree
    · exact hout hi
    · exact hlock hfree
  rw [hstep]
  refine ⟨hact.target, fun j => ?_, fun j hin => ?_, fun j k hj hk => ?_⟩
  · by_cases hj : j = i
    · subst hj
      simpa using hact.ok
    · simp only [Function.update_of_ne hj]
      by_cases hin : (w.calls j).Inside
      · rw [(hquiet j hj hin).1]
        exact h.ok j
      · exact (h.ok j).outside hact.keeps hin
  · by_cases hj : j = i
    · subst hj
      exact hact.lock (by simpa using hin)
    · simp only [Function.update_of_ne hj] at hin
      rw [(hquiet j hj hin).1]
      exact h.lock j hin
  · by_cases hji : j = i
    · by_cases hki : k = i
      · rw [hji, hki]
      · subst hji
        simp only [Function.update_of_ne hki, Function.update_self] at hj hk
        exact absurd hj (hquiet k hki hk).2
    · simp only [Function.update_of_ne hji] at hj
      by_cases hki : k = i
      · subst hki
        simp only [Function.update_self] at hk
        exact absurd hk (hquiet j hji hj).2
      · simp only [Function.update_of_ne hki] at hk
        exact h.one j k hj hk

lemma Inv.next (h : w.Inv pub) (e : Event ι) : (w.step pub e).Inv pub := by
  cases e with
  | call i action => exact h.call i action
  | payloads payloads => exact ⟨h.target, h.ok, h.lock, h.one⟩

lemma Inv.run (h : w.Inv pub) (es : List (Event ι)) : (es.foldl (step pub) w).Inv pub :=
  foldl_invariant (I := Inv pub) (fun _ e hw => hw.next e) h es

/-- No step touches what bears the name of the manifest. -/
lemma Inv.keeps (h : w.Inv pub) (es : List (Event ι)) {n : Node}
    (hn : w.root.get? pub.targetName = some n) :
    (es.foldl (step pub) w).root.get? pub.targetName = some n := by
  refine (foldl_invariant
    (I := fun w : Freeze ι M => w.Inv pub ∧ w.root.get? pub.targetName = some n)
    (fun _ e hw => ⟨hw.1.next e, ?_⟩) ⟨h, hn⟩ es).2
  cases e with
  | call i action => exact (actStep_ok hw.1.target (hw.1.ok i) (hw.1.lock i) action).keeps n hw.2
  | payloads payloads => exact hw.2

/-- In every run of any number of calls, with any of them raising or crashing at any step, the
target is absent or published, a call has returned only the manifest and only with the target
published, and what bears the name of the target stays as it is. -/
theorem publication_atomic (hstart : w.Starts pub) (es : List (Event ι)) :
    (∀ n, (es.foldl (step pub) w).root.get? pub.targetName = some n → pub.IsPublished n) ∧
    (∀ i m, (es.foldl (step pub) w).calls i = .done (.returned m) → m = pub.manifest ∧
      ∃ n, (es.foldl (step pub) w).root.get? pub.targetName = some n ∧ pub.IsPublished n) ∧
    ∀ before after n, es = before ++ after →
      (before.foldl (step pub) w).root.get? pub.targetName = some n →
        (es.foldl (step pub) w).root.get? pub.targetName = some n := by
  have hinv := hstart.inv.run es
  refine ⟨hinv.target, fun i m hdone => ?_, fun before after n hes hn => ?_⟩
  · have hok := hinv.ok i
    rw [hdone] at hok
    obtain ⟨hm, n, hn⟩ := hok
    exact ⟨hm, n, hn, hinv.target n hn⟩
  · subst hes
    rw [List.foldl_append]
    exact (hstart.inv.run before).keeps after hn

section Examples

/-- Manifests that are their own texts. -/
def plainFormat : ManifestFormat String where
  manifestId := fun _ => "m"
  files := fun _ => []
  dumpJson := id
  validateJson := String.fromUTF8?

/-- The publication of a manifest whose text is its own format, into `/out`. -/
def plainPublication : Publication String := ⟨plainFormat, "manifest", "/out", 0o022⟩

/-- An output root that holds nothing, with every publication idle. -/
def emptyRoot : Freeze ℕ String := ⟨Dict.empty, Dict.empty, 0, fun _ => .idle⟩

/-- The first call publishes, the second one is refused, and the third one adopts. -/
def threeCalls : List (Event ℕ) :=
  let go := Action.proceed ⟨1, "x", 5⟩
  [.call 0 go, .call 1 go] ++ List.replicate 17 (.call 0 go) ++ List.replicate 9 (.call 2 go)

theorem publication_atomic_of_threeCalls :
    emptyRoot.Starts plainPublication ∧
      ∀ n, (threeCalls.foldl (step plainPublication) emptyRoot).root.get? "m" = some n →
        plainPublication.IsPublished n := by
  have hstart : emptyRoot.Starts plainPublication :=
    ⟨(fun n hn => by cases hn), fun _ => rfl⟩
  exact ⟨hstart, (publication_atomic hstart threeCalls).1⟩

example : (threeCalls.foldl (step plainPublication) emptyRoot).calls 0 =
    .done (.returned "manifest") := by decide +kernel

example : (threeCalls.foldl (step plainPublication) emptyRoot).calls 2 =
    .done (.returned "manifest") := by decide +kernel

end Examples

end Freeze

end Evosport.Data
