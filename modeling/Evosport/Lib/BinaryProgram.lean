/-
Linear programs over 0/1 selections.

A selection switches each of `n` variables on or off; a row asks for `A z ≥ b`, or for
`A z = b` when it is an equality.  `Cheapest` is the minimum of a linear cost over the
selections that all rows admit.  A solver is a function that may report such a selection;
`Exact` says that what it reports as optimal is cheapest, and that it reports something as
soon as the rows admit something.  `enumerate` tries the selections by their binary codes,
and finds the cheapest one with the smallest code.
-/
import Mathlib.Algebra.BigOperators.Fin
import Mathlib.Algebra.Order.Ring.Rat
import Mathlib.Data.Finset.Max
import Mathlib.Data.Fintype.Pi
import Mathlib.Data.Nat.Init

namespace Lib.BinaryProgram

variable {n : ℕ}

/-- Which variables are one. -/
abbrev Selection (n : ℕ) := Fin n → Bool

/-- One constraint on a selection: the sum of the coefficients of what is selected is at least the
bound, or equal to it. -/
structure Row (n : ℕ) where
  coeff : Fin n → ℚ
  bound : ℚ
  isEquality : Bool

namespace Row

/-- The left-hand side of the constraint. -/
def lhs (r : Row n) (z : Selection n) : ℚ := ∑ i, if z i then r.coeff i else 0

/-- The selection meets the constraint: with equality where that is asked for, else from above. -/
def Admits (r : Row n) (z : Selection n) : Prop :=
  if r.isEquality then r.lhs z = r.bound else r.bound ≤ r.lhs z

instance (r : Row n) (z : Selection n) : Decidable (r.Admits z) :=
  inferInstanceAs
    (Decidable (if r.isEquality then r.lhs z = r.bound else r.bound ≤ r.lhs z))

/-- The row with its equality weakened to `≥`. -/
def relax (r : Row n) : Row n := { r with isEquality := false }

end Row

/-- The selection meets every row. -/
def Admissible (rows : List (Row n)) (z : Selection n) : Prop := ∀ r ∈ rows, r.Admits z

instance (rows : List (Row n)) (z : Selection n) : Decidable (Admissible rows z) :=
  inferInstanceAs (Decidable (∀ r ∈ rows, r.Admits z))

lemma Row.Admits.relax {r : Row n} {z : Selection n} (h : r.Admits z) : r.relax.Admits z := by
  unfold Row.Admits at h
  split at h
  · exact h.ge
  · exact h

/-- Weakening the equalities loses no admissible selection. -/
lemma Admissible.relax {rows : List (Row n)} {z : Selection n} (h : Admissible rows z) :
    Admissible (rows.map Row.relax) z := by
  intro r hr
  obtain ⟨r', hr', rfl⟩ := List.mem_map.1 hr
  exact (h r' hr').relax

/-- The price of the selected variables. -/
def cost (prices : Fin n → ℚ) (z : Selection n) : ℚ := ∑ i, if z i then prices i else 0

/-- The selection is admissible, and none that is admissible costs less. -/
def Cheapest (prices : Fin n → ℚ) (rows : List (Row n)) (z : Selection n) : Prop :=
  Admissible rows z ∧ ∀ z', Admissible rows z' → cost prices z ≤ cost prices z'

/-! ## Solvers -/

/-- What a solver answers: an optimal selection, that there is none, or an exception. -/
inductive SolverAnswer (n : ℕ) where
  | optimal (z : Selection n) (status : String)
  | noOptimum (status : String)
  | raised (text : String)

/-- A solver is given the prices and the constraints. -/
abbrev Solver (n : ℕ) := (Fin n → ℚ) → List (Row n) → SolverAnswer n

/-- What a solver calls optimal is a cheapest admissible selection, and it finds one where there is
any. -/
structure Exact (solve : Solver n) : Prop where
  sound : ∀ prices rows z status, solve prices rows = .optimal z status →
    Cheapest prices rows z
  complete : ∀ prices rows, (∃ z, Admissible rows z) →
    ∃ z status, solve prices rows = .optimal z status

/-! ## Enumeration -/

/-- The selection whose variables are the lowest bits of `code`. -/
def bits (n code : ℕ) : Selection n := fun i => code.testBit i

lemma exists_bits (z : Selection n) : ∃ code < 2 ^ n, bits n code = z := by
  refine ⟨Nat.ofBits z, Nat.ofBits_lt_two_pow z, funext fun i => ?_⟩
  exact Nat.testBit_ofBits_lt z i i.isLt

variable (prices : Fin n → ℚ) (rows : List (Row n))

/-- One round of the enumeration: an admissible selection that is strictly cheaper than the
best one so far replaces it. -/
def improve (best : Option (Selection n)) (z : Selection n) : Option (Selection n) :=
  if Admissible rows z then
    match best with
    | none => some z
    | some b => if cost prices z < cost prices b then some z else some b
  else best

/-- The best of the selections with a code below `k`. -/
def bestBelow (k : ℕ) : Option (Selection n) :=
  (List.range k).foldl (fun best code => improve prices rows best (bits n code)) none

/-- Enumerate all selections. -/
def enumerate : Option (Selection n) := bestBelow prices rows (2 ^ n)

/-- What the enumeration knows of the codes below `k`. -/
def BestBelow (k : ℕ) : Option (Selection n) → Prop
  | none => ∀ code < k, ¬ Admissible rows (bits n code)
  | some b => ∃ first < k, b = bits n first ∧ Admissible rows b ∧
      (∀ code < k, Admissible rows (bits n code) → cost prices b ≤ cost prices (bits n code)) ∧
      ∀ code < first, Admissible rows (bits n code) → cost prices b < cost prices (bits n code)

variable {prices rows}

lemma BestBelow.improve {k : ℕ} {best : Option (Selection n)}
    (h : BestBelow prices rows k best) :
    BestBelow prices rows (k + 1) (improve prices rows best (bits n k)) := by
  unfold BinaryProgram.improve
  by_cases hadm : Admissible rows (bits n k)
  · rw [if_pos hadm]
    cases best with
    | none =>
      -- the first admissible selection
      refine ⟨k, Nat.lt_succ_self k, rfl, hadm, fun code hcode hcadm => ?_,
        fun code hcode hcadm => absurd hcadm (h code hcode)⟩
      rcases Nat.lt_succ_iff_lt_or_eq.1 hcode with hlt | rfl
      · exact absurd hcadm (h code hlt)
      · exact le_rfl
    | some b =>
      obtain ⟨first, hfirst, hb, hbadm, hmin, hstrict⟩ := h
      dsimp only
      split
      · next hless =>
        refine ⟨k, Nat.lt_succ_self k, rfl, hadm, fun code hcode hcadm => ?_,
          fun code hcode hcadm => hless.trans_le (hmin code hcode hcadm)⟩
        rcases Nat.lt_succ_iff_lt_or_eq.1 hcode with hlt | rfl
        · exact hless.le.trans (hmin code hlt hcadm)
        · exact le_rfl
      · next hless =>
        refine ⟨first, by omega, hb, hbadm, fun code hcode hcadm => ?_, hstrict⟩
        rcases Nat.lt_succ_iff_lt_or_eq.1 hcode with hlt | rfl
        · exact hmin code hlt hcadm
        · exact not_lt.1 hless
  · rw [if_neg hadm]
    cases best with
    | none =>
      intro code hcode
      rcases Nat.lt_succ_iff_lt_or_eq.1 hcode with hlt | rfl
      · exact h code hlt
      · exact hadm
    | some b =>
      obtain ⟨first, hfirst, hb, hbadm, hmin, hstrict⟩ := h
      refine ⟨first, by omega, hb, hbadm, fun code hcode hcadm => ?_, hstrict⟩
      rcases Nat.lt_succ_iff_lt_or_eq.1 hcode with hlt | rfl
      · exact hmin code hlt hcadm
      · exact absurd hcadm hadm

lemma bestBelow_spec (k : ℕ) : BestBelow prices rows k (bestBelow prices rows k) := by
  induction k with
  | zero => simp [bestBelow, BestBelow]
  | succ k ih =>
    simp only [bestBelow, List.range_succ, List.foldl_append, List.foldl_cons, List.foldl_nil]
    exact ih.improve

/-- The cheapest selection of the smallest code. -/
def FirstCheapest (prices : Fin n → ℚ) (rows : List (Row n)) (z : Selection n) : Prop :=
  ∃ first < 2 ^ n, z = bits n first ∧ Cheapest prices rows z ∧
    ∀ code < first, ¬ Cheapest prices rows (bits n code)

lemma FirstCheapest.unique {z z' : Selection n} (h : FirstCheapest prices rows z)
    (h' : FirstCheapest prices rows z') : z = z' := by
  obtain ⟨i, -, rfl, hz, hi⟩ := h
  obtain ⟨j, -, rfl, hz', hj⟩ := h'
  rcases lt_trichotomy i j with hlt | rfl | hlt
  · exact absurd hz (hj i hlt)
  · rfl
  · exact absurd hz' (hi j hlt)

/-- The enumeration finds the cheapest selection of the smallest code. -/
theorem enumerate_eq_some {z : Selection n} :
    enumerate prices rows = some z ↔ FirstCheapest prices rows z := by
  have hspec : BestBelow prices rows (2 ^ n) (enumerate prices rows) := bestBelow_spec _
  have hsome : ∀ b, enumerate prices rows = some b → FirstCheapest prices rows b := by
    intro b hb
    rw [hb] at hspec
    obtain ⟨first, hfirst, rfl, hadm, hmin, hstrict⟩ := hspec
    refine ⟨first, hfirst, rfl, ⟨hadm, fun z' hz' => ?_⟩, fun code hcode hcheap => ?_⟩
    · obtain ⟨code, hcode, rfl⟩ := exists_bits z'
      exact hmin code hcode hz'
    · exact absurd (hcheap.2 _ hadm) (not_le.2 (hstrict code hcode hcheap.1))
  refine ⟨hsome z, fun hz => ?_⟩
  cases hb : enumerate prices rows with
  | none =>
    rw [hb] at hspec
    obtain ⟨first, hfirst, rfl, hcheap, -⟩ := hz
    exact absurd hcheap.1 (hspec first hfirst)
  | some b => exact congrArg some ((hsome b hb).unique hz)

/-- The enumeration as a solver. -/
def enumerated : Solver n := fun prices rows =>
  match enumerate prices rows with
  | some z => .optimal z "optimal"
  | none => .noOptimum "infeasible"

lemma exact_enumerated : Exact (enumerated (n := n)) where
  sound := by
    intro prices rows z status h
    unfold enumerated at h
    split at h
    · next b hb =>
      obtain ⟨rfl, -⟩ := by simpa using h
      obtain ⟨first, -, -, hcheap, -⟩ := enumerate_eq_some.1 hb
      exact hcheap
    · cases h
  complete := by
    rintro prices rows ⟨z, hz⟩
    unfold enumerated
    cases hb : enumerate prices rows with
    | some b => exact ⟨b, "optimal", rfl⟩
    | none =>
      have hspec : BestBelow prices rows (2 ^ n) (enumerate prices rows) := bestBelow_spec _
      rw [hb] at hspec
      obtain ⟨code, hcode, rfl⟩ := exists_bits z
      exact absurd hz (hspec code hcode)

/-- Rows that admit a selection have a cheapest one. -/
lemma exists_cheapest (prices : Fin n → ℚ) (h : ∃ z, Admissible rows z) :
    ∃ z, Cheapest prices rows z := by
  obtain ⟨z, status, hz⟩ := exact_enumerated.complete prices rows h
  exact ⟨z, exact_enumerated.sound prices rows z status hz⟩

/-- Cheapest selections cost the same. -/
lemma Cheapest.cost_eq {z z' : Selection n} (h : Cheapest prices rows z)
    (h' : Cheapest prices rows z') : cost prices z = cost prices z' :=
  le_antisymm (h.2 z' h'.1) (h'.2 z h.1)

/-- Every cheapest selection is what some exact solver reports. -/
lemma Cheapest.exists_exact {z : Selection n} (h : Cheapest prices rows z) (status : String) :
    ∃ solve : Solver n, Exact solve ∧ solve prices rows = .optimal z status := by
  classical
  refine ⟨fun p r => if p = prices ∧ r = rows then .optimal z status else enumerated p r,
    ⟨fun p r z' status' heq => ?_, fun p r hadm => ?_⟩, if_pos ⟨rfl, rfl⟩⟩
  · split at heq
    · next hpr =>
      obtain ⟨rfl, rfl⟩ := hpr
      obtain ⟨rfl, -⟩ := by simpa using heq
      exact h
    · exact exact_enumerated.sound p r z' status' heq
  · split
    · exact ⟨z, status, rfl⟩
    · exact exact_enumerated.complete p r hadm

end Lib.BinaryProgram
