/-
Runs of a state machine whose steps can fail.

A run from `s` over the inputs `is` is `is.foldlM step s`: it stops at the first step that
fails.  `EveryAttempt step C s is` says that every step that is attempted meets `C`, and
`emitted step out s is` collects what the attempted steps emit.  When the emissions are
themselves inputs of a second machine that follows a projection of the state, the second
machine can be reasoned about alone (`EveryAttempt.emitted`, `foldl_emitted`).

`Agree R` compares the outcomes of two runs: both fail with the same error, or both succeed
in related states.  Its rules follow the program text (`Agree.bind`, `Agree.foldlM`).
-/
import Evosport.Lib.Run

namespace Lib

universe u

variable {σ τ ι ω : Type u} {ε : Type*}

/-! ## One run -/

/-- Every step that the run of `step` from `s` attempts meets `C`. -/
def EveryAttempt (step : σ → ι → Except ε σ) (C : σ → ι → Prop) : σ → List ι → Prop
  | _, [] => True
  | s, i :: is => C s i ∧
    match step s i with
    | .ok s' => EveryAttempt step C s' is
    | .error _ => True

/-- What the attempted steps emit. -/
def emitted (step : σ → ι → Except ε σ) (out : σ → ι → List ω) : σ → List ι → List ω
  | _, [] => []
  | s, i :: is => out s i ++
    match step s i with
    | .ok s' => emitted step out s' is
    | .error _ => []

lemma except_bind_eq_ok {α β : Type u} {x : Except ε α} {f : α → Except ε β} {b : β} :
    x >>= f = .ok b ↔ ∃ a, x = .ok a ∧ f a = .ok b := by
  cases x with
  | error err =>
    constructor
    · rintro ⟨⟩
    · rintro ⟨a, ⟨⟩, -⟩
  | ok a =>
    constructor
    · exact fun h => ⟨a, rfl, h⟩
    · rintro ⟨_, ⟨⟩, h⟩
      exact h

lemma except_map_eq_ok {α β : Type u} {x : Except ε α} {f : α → β} {b : β} :
    x.map f = .ok b ↔ ∃ a, x = .ok a ∧ f a = b := by
  cases x with
  | error err =>
    constructor
    · rintro ⟨⟩
    · rintro ⟨a, ⟨⟩, -⟩
  | ok a =>
    constructor
    · rintro ⟨⟩
      exact ⟨a, rfl, rfl⟩
    · rintro ⟨_, ⟨⟩, rfl⟩
      rfl

/-- An invariant of the steps that succeed holds where a successful run ends. -/
lemma foldlM_invariant {step : σ → ι → Except ε σ} {I : σ → Prop} {is : List ι}
    (hstep : ∀ s i s', i ∈ is → I s → step s i = .ok s' → I s') {s s' : σ} (hs : I s)
    (hrun : is.foldlM step s = .ok s') : I s' := by
  induction is generalizing s with
  | nil =>
    cases hrun
    exact hs
  | cons i is ih =>
    rw [List.foldlM_cons, except_bind_eq_ok] at hrun
    obtain ⟨s₁, hs₁, hrun⟩ := hrun
    exact ih (fun s j s' hj => hstep s j s' (List.mem_cons_of_mem i hj))
      (hstep s i s₁ List.mem_cons_self hs hs₁) hrun

/-- A loop none of whose steps does anything. -/
lemma foldlM_idle {step : σ → ι → Except ε σ} {s : σ} {is : List ι}
    (h : ∀ i ∈ is, step s i = .ok s) : is.foldlM step s = .ok s := by
  induction is with
  | nil => rfl
  | cons i is ih =>
    rw [List.foldlM_cons, h i List.mem_cons_self]
    exact ih fun j hj => h j (List.mem_cons_of_mem i hj)

/-- A traversal that fails nowhere. -/
lemma mapM_eq_ok_map {α β : Type u} {f : α → Except ε β} {g : α → β} {xs : List α}
    (h : ∀ x ∈ xs, f x = .ok (g x)) : xs.mapM f = .ok (xs.map g) := by
  induction xs with
  | nil => rfl
  | cons x xs ih =>
    rw [List.mapM_cons, h x List.mem_cons_self, ih fun y hy => h y (List.mem_cons_of_mem x hy)]
    rfl

/-- A traversal by a function that can only return `g`. -/
lemma mapM_eq_ok_iff {α β : Type u} {f : α → Except ε β} {g : α → β} {xs : List α}
    (hg : ∀ x ∈ xs, ∀ y, f x = .ok y → y = g x) {ys : List β} :
    xs.mapM f = .ok ys ↔ (∀ x ∈ xs, f x = .ok (g x)) ∧ ys = xs.map g := by
  refine ⟨fun h => ?_, fun ⟨h, hys⟩ => by rw [mapM_eq_ok_map h, hys]⟩
  induction xs generalizing ys with
  | nil =>
    cases h
    exact ⟨fun x hx => absurd hx List.not_mem_nil, rfl⟩
  | cons x xs ih =>
    rw [List.mapM_cons, except_bind_eq_ok] at h
    obtain ⟨y, hy, h⟩ := h
    obtain ⟨rest, hrest, h⟩ := except_bind_eq_ok.1 h
    cases h
    obtain ⟨hall, rfl⟩ := ih (fun x hx => hg x (List.mem_cons_of_mem _ hx)) hrest
    obtain rfl := hg x List.mem_cons_self y hy
    exact ⟨List.forall_mem_cons.2 ⟨hy, hall⟩, rfl⟩

/-- What a traversal returns comes from what it went through. -/
lemma exists_of_mem_mapM {α β : Type u} {f : α → Except ε β} {xs : List α} {ys : List β}
    (h : xs.mapM f = .ok ys) {y : β} (hy : y ∈ ys) : ∃ x ∈ xs, f x = .ok y := by
  induction xs generalizing ys with
  | nil =>
    cases h
    exact absurd hy List.not_mem_nil
  | cons x xs ih =>
    rw [List.mapM_cons, except_bind_eq_ok] at h
    obtain ⟨z, hz, h⟩ := h
    obtain ⟨zs, hzs, h⟩ := except_bind_eq_ok.1 h
    cases h
    rcases List.mem_cons.1 hy with rfl | hy
    · exact ⟨x, List.mem_cons_self, hz⟩
    · obtain ⟨x', hx', hfx⟩ := ih hzs hy
      exact ⟨x', List.mem_cons_of_mem x hx', hfx⟩

/-- A loop of checks succeeds where every check does. -/
lemma forM_eq_ok {α : Type*} {f : α → Except ε PUnit.{u + 1}} {xs : List α} :
    xs.forM f = .ok ⟨⟩ ↔ ∀ x ∈ xs, f x = .ok ⟨⟩ := by
  induction xs with
  | nil => exact ⟨fun _ x hx => absurd hx List.not_mem_nil, fun _ => rfl⟩
  | cons x xs ih =>
    rw [List.forM, except_bind_eq_ok, List.forall_mem_cons, ← ih]
    exact ⟨fun ⟨_, hx, hxs⟩ => ⟨hx, hxs⟩, fun ⟨hx, hxs⟩ => ⟨_, hx, hxs⟩⟩

namespace EveryAttempt

variable {step : σ → ι → Except ε σ} {C : σ → ι → Prop}

instance instDecidable [∀ s i, Decidable (C s i)] :
    ∀ (s : σ) (is : List ι), Decidable (EveryAttempt step C s is)
  | _, [] => inferInstanceAs (Decidable True)
  | s, i :: is =>
    haveI : Decidable (match step s i with
        | .ok s' => EveryAttempt step C s' is
        | .error _ => True) :=
      match step s i with
      | .ok s' => instDecidable s' is
      | .error _ => inferInstanceAs (Decidable True)
    inferInstanceAs (Decidable (_ ∧ _))

lemma of_forall (h : ∀ s i, C s i) {s : σ} {is : List ι} : EveryAttempt step C s is := by
  induction is generalizing s with
  | nil => trivial
  | cons i is ih =>
    refine ⟨h s i, ?_⟩
    split
    · exact ih
    · trivial

/-- When the emissions of each attempted step are a run of a second machine all of whose
steps meet `D`, from the projection of the state and, if the step succeeds, to the
projection of its successor, then so are the emissions of the whole run. -/
lemma emitted {out : σ → ι → List ω} {π : σ → τ} {next : τ → ω → τ} {D : τ → ω → Prop}
    {I : σ → Prop} {s : σ} {is : List ι} (h : EveryAttempt step C s is) (hs : I s)
    (hout : ∀ s i, I s → C s i → EveryStep next D (π s) (out s i))
    (hstep : ∀ s i s', I s → C s i → step s i = .ok s' →
      I s' ∧ π s' = (out s i).foldl next (π s)) :
    EveryStep next D (π s) (emitted step out s is) := by
  induction is generalizing s with
  | nil => trivial
  | cons i is ih =>
    obtain ⟨hi, hrest⟩ := h
    rw [Lib.emitted, EveryStep.append]
    refine ⟨hout s i hs hi, ?_⟩
    cases hs' : step s i with
    | error err => trivial
    | ok s' =>
      rw [hs'] at hrest
      obtain ⟨hI, hπ⟩ := hstep s i s' hs hi hs'
      rw [← hπ]
      exact ih hrest hI

end EveryAttempt

/-- When each successful step moves the projection as its emissions move the second machine,
so does a successful run. -/
lemma foldl_emitted {step : σ → ι → Except ε σ} {out : σ → ι → List ω} (π : σ → τ)
    (next : τ → ω → τ) (hstep : ∀ s i s', step s i = .ok s' → π s' = (out s i).foldl next (π s))
    {s s' : σ} {is : List ι} (hrun : is.foldlM step s = .ok s') :
    π s' = (emitted step out s is).foldl next (π s) := by
  induction is generalizing s with
  | nil =>
    cases hrun
    rfl
  | cons i is ih =>
    rw [List.foldlM_cons, except_bind_eq_ok] at hrun
    obtain ⟨s₁, hs₁, hrun⟩ := hrun
    rw [emitted, List.foldl_append, hs₁, ← hstep s i s₁ hs₁]
    exact ih hrun

/-! ## Two runs -/

/-- Two outcomes agree: the same error, or related states. -/
def Agree (R : σ → τ → Prop) : Except ε σ → Except ε τ → Prop
  | .ok s, .ok t => R s t
  | .error x, .error y => x = y
  | _, _ => False

namespace Agree

variable {σ' τ' : Type u} {R : σ → τ → Prop} {Q : σ' → τ' → Prop}

lemma mono {R' : σ → τ → Prop} {x : Except ε σ} {y : Except ε τ} (h : Agree R x y)
    (hR : ∀ s t, R s t → R' s t) : Agree R' x y := by
  cases x <;> cases y <;> first | exact h | exact hR _ _ h

lemma bind {x : Except ε σ} {y : Except ε τ} {f : σ → Except ε σ'} {g : τ → Except ε τ'}
    (h : Agree R x y) (hfg : ∀ s t, R s t → Agree Q (f s) (g t)) :
    Agree Q (x >>= f) (y >>= g) := by
  cases x <;> cases y
  · exact h
  · exact h.elim
  · exact h.elim
  · exact hfg _ _ h

lemma map {x : Except ε σ} {y : Except ε τ} {f : σ → σ'} {g : τ → τ'} (h : Agree R x y)
    (hfg : ∀ s t, R s t → Q (f s) (g t)) : Agree Q (x.map f) (y.map g) := by
  cases x <;> cases y
  · exact h
  · exact h.elim
  · exact h.elim
  · exact hfg _ _ h

/-- Two loops over the same inputs agree when their bodies do. -/
lemma foldlM {f : σ → ι → Except ε σ} {g : τ → ι → Except ε τ} {is : List ι}
    (hfg : ∀ s t i, i ∈ is → R s t → Agree R (f s i) (g t i)) {s : σ} {t : τ} (h : R s t) :
    Agree R (is.foldlM f s) (is.foldlM g t) := by
  induction is generalizing s t with
  | nil => exact h
  | cons i is ih =>
    rw [List.foldlM_cons, List.foldlM_cons]
    exact (hfg s t i List.mem_cons_self h).bind fun s' t' h' =>
      ih (fun s t j hj => hfg s t j (List.mem_cons_of_mem i hj)) h'

/-- The outcomes of one run agree with themselves. -/
lemma refl {R : σ → σ → Prop} (hR : ∀ s, R s s) (x : Except ε σ) : Agree R x x := by
  cases x with
  | error err => rfl
  | ok s => exact hR s

end Agree

end Lib
