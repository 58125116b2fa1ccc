/-
The cap on what a trader spends in a day (`services/daily_spend_tracker.py` and its two callers in
`submit_execution_leg`).

The gate of a leg reads the counter of the day; a detached task adds to the counter, after the leg
has returned, what was filled until then.  Between the two other legs may pass the gate, the size of
the leg is raised to the minimum of the venue after its gate, and what is filled later is never
added at all.
-/
import Evosport.Execution.LegSubmit
import Evosport.Lib.Run
import Mathlib.Algebra.Order.BigOperators.Group.List
import Mathlib.Tactic.Linarith

namespace Evosport.Execution

open Lib Backtest

/-! ## The legs of a day -/

/-- A trader with a cap on the spend of a day; a cap that is not positive is no cap, so it is
positive here. -/
structure SpendCap where
  traderId : String
  named : traderId ≠ ""
  capUsd : ℚ
  positive : 0 < capUsd

/-- A leg that has passed its gates: how it was submitted, whether `submit_execution_leg` has
returned, whether the venue is through with its orders, what is still to be added to the counter,
and what the venue has reported as filled. -/
structure SubmittedLeg where
  ctx : LegContext
  leg : Leg
  params : StrategyParams
  limits : RiskLimits
  order : SizedLeg
  returned : Bool := false
  settled : Bool := false
  unrecorded : ℚ := 0
  filledShares : ℚ := 0
  filledNotional : ℚ := 0

/-- The counter of the day, and the legs of the day. -/
structure SpendDay where
  counter : ℚ := 0
  legs : List SubmittedLeg := []

/-- What can happen: a leg comes to its gates; its execution returns; the venue reports shares that
were filled later; the venue is through with its orders; and the detached task of the leg runs. -/
inductive SpendStep where
  | submit (ctx : LegContext) (leg : Leg) (params : StrategyParams) (limits : RiskLimits)
      (notionalUsd : ℚ)
  | finish (i : ℕ) (env : Surroundings)
  | fill (i : ℕ) (size price : ℚ)
  | settle (i : ℕ)
  | record (i : ℕ)

/-- What `record_spend_usd` is called with once a leg has returned. -/
def spendToRecord (out : LiveOrderExecution) : ℚ :=
  if out.status = .executed ∧ 0 < out.filledSize then
    max 0 (out.filledSize * out.effectivePrice.getD 0)
  else 0

namespace SubmittedLeg

/-- The execution of the leg. -/
def execution (l : SubmittedLeg) (env : Surroundings) : LiveOrderExecution :=
  (executeLeg env l.ctx l.leg l.limits (liveOrderRequest l.ctx l.leg l.params l.limits l.order) {}).1

/-- Shares of the leg are filled at a price. -/
def addFill (l : SubmittedLeg) (size price : ℚ) : SubmittedLeg :=
  { l with filledShares := l.filledShares + size, filledNotional := l.filledNotional + size * price }

/-- The order call of the leg returns.  What it reports as filled is spent, and what the caller will
record is taken from the same report. -/
def finish (env : Surroundings) (l : SubmittedLeg) : SubmittedLeg :=
  if l.returned then l
  else
    let out := l.execution env
    { l.addFill out.filledSize (out.effectivePrice.getD 0) with
      returned := true, unrecorded := spendToRecord out }

/-- The venue fills more of an order that has returned, as long as it rests. -/
def fill (size price : ℚ) (l : SubmittedLeg) : SubmittedLeg :=
  if l.returned ∧ !l.settled then l.addFill size price else l

/-- The order of the leg does not rest any longer. -/
def settle (l : SubmittedLeg) : SubmittedLeg := { l with settled := l.returned }

/-- The caller has recorded the spend of the leg. -/
def record (l : SubmittedLeg) : SubmittedLeg := { l with unrecorded := 0 }

end SubmittedLeg

namespace SpendCap

variable (t : SpendCap)

/-- The gates of a leg of the trader, with the counter as it is. -/
def gates (s : SpendDay) (ctx : LegContext) (leg : Leg) (limits : RiskLimits) (notionalUsd : ℚ) :
    Except LegSubmitResult SizedLeg :=
  passGates { ctx with traderId := t.traderId, dailySpend := some s.counter } leg
    { limits with maxDailySpendUsd := some t.capUsd } notionalUsd

/-- One event of the day.  A leg is submitted only where the gates let it, with the counter as it
stands at that moment. -/
def step (s : SpendDay) : SpendStep → SpendDay
  | .submit ctx leg params limits notionalUsd =>
    match t.gates s ctx leg limits notionalUsd with
    | .ok order => { s with legs := s.legs ++ [{ ctx, leg, params, limits, order }] }
    | .error _ => s
  | .finish i env => { s with legs := s.legs.modify i (SubmittedLeg.finish env) }
  | .fill i size price => { s with legs := s.legs.modify i (SubmittedLeg.fill size price) }
  | .settle i => { s with legs := s.legs.modify i SubmittedLeg.settle }
  | .record i =>
    { counter := s.counter + (s.legs[i]?.map SubmittedLeg.unrecorded).getD 0
      legs := s.legs.modify i SubmittedLeg.record }

end SpendCap

/-- The notional that the venue has filled for the legs of the day. -/
def SpendDay.filledNotional (s : SpendDay) : ℚ := (s.legs.map SubmittedLeg.filledNotional).sum

/-! ## The condition -/

/-- The venue is through with the legs of the day, and the counter has all that was filled. -/
def SpendDay.Recorded (s : SpendDay) : Prop :=
  (∀ l ∈ s.legs, l.settled) ∧ s.filledNotional ≤ s.counter

/-- The venue fills so many shares of the leg at the price: no more than the leg has left, and at no
more than its price. -/
def SubmittedLeg.Takes (l : SubmittedLeg) (size price : ℚ) : Prop :=
  0 ≤ size ∧ l.filledShares + size ≤ l.order.shares ∧ price ≤ l.order.price

/-- A leg passes its gates only after those before it are settled and recorded, and with a notional
that buys the minimum of the venue; it is filled at no more than its size and price. -/
def SpendCap.Careful (t : SpendCap) (s : SpendDay) : SpendStep → Prop
  | .submit ctx leg _ limits notionalUsd =>
    match t.gates s ctx leg limits notionalUsd with
    | .ok order => s.Recorded ∧ minLiveShares * order.price ≤ order.notional
    | .error _ => True
  | .finish i env => ∀ l ∈ s.legs[i]?, ¬l.returned →
      l.Takes (l.execution env).filledSize ((l.execution env).effectivePrice.getD 0)
  | .fill i size price => ∀ l ∈ s.legs[i]?, l.returned → ¬l.settled → l.Takes size price
  | .settle _ => True
  | .record _ => True

instance (s : SpendDay) : Decidable s.Recorded := inferInstanceAs (Decidable (_ ∧ _))

instance (l : SubmittedLeg) (size price : ℚ) : Decidable (l.Takes size price) :=
  inferInstanceAs (Decidable (_ ∧ _))

instance (t : SpendCap) (s : SpendDay) : (e : SpendStep) → Decidable (t.Careful s e)
  | .submit ctx leg params limits notionalUsd =>
    match h : t.gates s ctx leg limits notionalUsd with
    | .ok order => decidable_of_iff (s.Recorded ∧ minLiveShares * order.price ≤ order.notional)
        (by rw [SpendCap.Careful, h])
    | .error _ => isTrue (by rw [SpendCap.Careful, h]; trivial)
  | .finish i env => inferInstanceAs (Decidable (∀ l ∈ s.legs[i]?, _ → _))
  | .fill i size price => inferInstanceAs (Decidable (∀ l ∈ s.legs[i]?, _ → _ → _))
  | .settle _ => inferInstanceAs (Decidable True)
  | .record _ => inferInstanceAs (Decidable True)

/-! ## The invariant -/

section Modify

variable {α : Type*} {f : α → α}

lemma forall_mem_modify {P : α → Prop} {l : List α} {i : ℕ} (h : ∀ x ∈ l, P x)
    (hf : ∀ x, l[i]? = some x → P x → P (f x)) : ∀ x ∈ l.modify i f, P x := by
  intro x hx
  obtain ⟨j, hj⟩ := List.mem_iff_getElem?.1 hx
  rw [List.getElem?_modify] at hj
  obtain ⟨y, hy, rfl⟩ := Option.map_eq_some_iff.1 hj
  have hmem : P y := h y (List.mem_of_getElem? hy)
  split_ifs with hij
  · exact hf y (hij ▸ hy) hmem
  · exact hmem

lemma sum_map_modify_le {g : α → ℚ} {l : List α} {i : ℕ}
    (hf : ∀ x, l[i]? = some x → g (f x) ≤ g x) : ((l.modify i f).map g).sum ≤ (l.map g).sum := by
  induction l generalizing i with
  | nil => simp
  | cons x l ih =>
    cases i with
    | zero => simpa using hf x rfl
    | succ i => simpa using ih fun y hy => hf y (by simpa using hy)

end Modify

namespace SubmittedLeg

/-- What the leg may yet come to: its notional, until the venue is through with it. -/
def weight (l : SubmittedLeg) : ℚ := if l.settled then l.filledNotional else l.order.notional

/-- The leg has the size that its notional buys, and is filled within its size and price. -/
structure Sound (l : SubmittedLeg) : Prop where
  returned_of_settled : l.settled → l.returned
  price_nonneg : 0 ≤ l.order.price
  notional : l.order.shares * l.order.price = l.order.notional
  shares : l.filledShares ≤ l.order.shares
  filled : l.filledNotional ≤ l.filledShares * l.order.price

namespace Sound

variable {l : SubmittedLeg}

lemma filledNotional_le (h : l.Sound) : l.filledNotional ≤ l.order.notional :=
  calc l.filledNotional ≤ l.filledShares * l.order.price := h.filled
    _ ≤ l.order.shares * l.order.price := mul_le_mul_of_nonneg_right h.shares h.price_nonneg
    _ = l.order.notional := h.notional

lemma filledNotional_le_weight (h : l.Sound) : l.filledNotional ≤ l.weight := by
  unfold weight
  split_ifs
  · exact le_rfl
  · exact h.filledNotional_le

lemma addFill (h : l.Sound) {size price : ℚ} (htakes : l.Takes size price) :
    (l.addFill size price).Sound := by
  obtain ⟨hsize, hshares, hprice⟩ := htakes
  refine ⟨h.returned_of_settled, h.price_nonneg, h.notional, hshares, ?_⟩
  have hfill : size * price ≤ size * l.order.price := mul_le_mul_of_nonneg_left hprice hsize
  have hbefore := h.filled
  show l.filledNotional + size * price ≤ (l.filledShares + size) * l.order.price
  linarith

end Sound

end SubmittedLeg

namespace SpendCap

variable {t : SpendCap} {s : SpendDay}

/-- The legs are sound, and what they may come to fits the cap. -/
structure Within (t : SpendCap) (s : SpendDay) : Prop where
  sound : ∀ l ∈ s.legs, l.Sound
  weight : (s.legs.map SubmittedLeg.weight).sum ≤ t.capUsd

lemma Within.filledNotional_le (h : t.Within s) : s.filledNotional ≤ t.capUsd :=
  (List.sum_le_sum fun l hl => (h.sound l hl).filledNotional_le_weight).trans h.weight

/-- A change of one leg that leaves it sound and does not add to what it may come to. -/
lemma Within.modify (h : t.Within s) {i : ℕ} {f : SubmittedLeg → SubmittedLeg} {counter : ℚ}
    (hsound : ∀ l, s.legs[i]? = some l → l.Sound → (f l).Sound)
    (hweight : ∀ l, s.legs[i]? = some l → l.Sound → (f l).weight ≤ l.weight) :
    t.Within { counter := counter, legs := s.legs.modify i f } where
  sound := forall_mem_modify h.sound hsound
  weight := (sum_map_modify_le fun l hl =>
    hweight l hl (h.sound l (List.mem_of_getElem? hl))).trans h.weight

/-- A leg that passes its gates with enough for the minimum of the venue. -/
lemma sound_of_gates {ctx : LegContext} {leg : Leg} {params : StrategyParams} {limits : RiskLimits}
    {notionalUsd : ℚ} {order : SizedLeg} (h : t.gates s ctx leg limits notionalUsd = .ok order)
    (hmin : minLiveShares * order.price ≤ order.notional) :
    SubmittedLeg.Sound { ctx, leg, params, limits, order } := by
  obtain ⟨-, hlow, -, -, hshares⟩ := passGates_ok h
  have hprice : 0 < order.price := lt_of_lt_of_le (by norm_num [minExecutionPrice]) hlow
  have hnotMin : minLiveShares ≤ order.notional / order.price := (le_div_iff₀ hprice).2 hmin
  rw [max_eq_right hnotMin] at hshares
  refine ⟨by simp, hprice.le, ?_, ?_, by simp⟩
  · show order.shares * order.price = order.notional
    rw [hshares, div_mul_cancel₀ _ hprice.ne']
  · exact le_trans (by norm_num [minLiveShares]) (hshares ▸ hnotMin)

lemma Within.submit (h : t.Within s) {ctx : LegContext} {leg : Leg} {params : StrategyParams}
    {limits : RiskLimits} {notionalUsd : ℚ} {order : SizedLeg}
    (hgates : t.gates s ctx leg limits notionalUsd = .ok order) (hrecorded : s.Recorded)
    (hmin : minLiveShares * order.price ≤ order.notional) :
    t.Within { s with legs := s.legs ++ [{ ctx, leg, params, limits, order }] } := by
  have hsound : SubmittedLeg.Sound { ctx, leg, params, limits, order } := sound_of_gates hgates hmin
  refine ⟨fun l hl => ?_, ?_⟩
  · rcases List.mem_append.1 hl with hl | hl
    · exact h.sound l hl
    · rw [List.mem_singleton.1 hl]
      exact hsound
  · -- the legs before weigh what was filled for them, and the counter has that
    have hbefore : (s.legs.map SubmittedLeg.weight).sum = s.filledNotional :=
      congrArg List.sum (List.map_congr_left fun l hl => if_pos (hrecorded.1 l hl))
    have hgate : s.counter + max 0 order.notional ≤ t.capUsd :=
      dailySpendGate_ok rfl t.positive t.named rfl (passGates_dailySpend hgates)
    have hnotional : order.notional ≤ max 0 order.notional := le_max_right _ _
    have hcounter := hrecorded.2
    rw [List.map_append, List.sum_append, hbefore]
    show s.filledNotional + (order.notional + 0) ≤ t.capUsd
    linarith

/-- What one step does to a day within the cap. -/
lemma Within.step (h : t.Within s) {e : SpendStep} (he : t.Careful s e) : t.Within (t.step s e) := by
  cases e with
  | submit ctx leg params limits notionalUsd =>
    rw [SpendCap.step]
    rw [SpendCap.Careful] at he
    cases hgates : t.gates s ctx leg limits notionalUsd with
    | error refused => exact h
    | ok order =>
      rw [hgates] at he
      obtain ⟨hrecorded, hmin⟩ := he
      exact h.submit hgates hrecorded hmin
  | finish i env =>
    refine h.modify (fun l hl hsound => ?_) (fun l hl hsound => ?_)
    · unfold SubmittedLeg.finish
      split_ifs with hreturned
      · exact hsound
      · have hfilled := hsound.addFill (he l hl hreturned)
        exact ⟨fun _ => rfl, hfilled.price_nonneg, hfilled.notional, hfilled.shares, hfilled.filled⟩
    · unfold SubmittedLeg.finish
      split_ifs with hreturned
      · exact le_rfl
      · -- a leg that has not returned is not settled
        have hsettled : ¬l.settled := fun hsettled => hreturned (hsound.returned_of_settled hsettled)
        simp [SubmittedLeg.weight, SubmittedLeg.addFill, hsettled]
  | fill i size price =>
    refine h.modify (fun l hl hsound => ?_) (fun l hl hsound => ?_)
    · unfold SubmittedLeg.fill
      split_ifs with hopen
      · exact hsound.addFill (he l hl hopen.1 (by simpa using hopen.2))
      · exact hsound
    · unfold SubmittedLeg.fill
      split_ifs with hopen
      · have hsettled : l.settled = false := by simpa using hopen.2
        simp [SubmittedLeg.weight, SubmittedLeg.addFill, hsettled]
      · exact le_rfl
  | settle i =>
    refine h.modify (fun l _ hsound => ?_) (fun l _ hsound => ?_)
    · exact ⟨id, hsound.price_nonneg, hsound.notional, hsound.shares, hsound.filled⟩
    · show (if l.returned then l.filledNotional else l.order.notional) ≤ l.weight
      split_ifs with hreturned
      · exact hsound.filledNotional_le_weight
      · have hsettled : ¬l.settled := fun hsettled => hreturned (hsound.returned_of_settled hsettled)
        exact (if_neg hsettled).ge
  | record i =>
    exact h.modify
      (fun l _ hsound => ⟨hsound.returned_of_settled, hsound.price_nonneg, hsound.notional,
        hsound.shares, hsound.filled⟩)
      (fun l _ _ => le_rfl)

/-- In a run in which every leg passes its gates after those before it are settled and recorded,
with a notional that buys the minimum, and is filled within its size and price, the notional filled
in the day stays within the cap. -/
theorem filledNotional_le_cap (t : SpendCap) (steps : List SpendStep)
    (hrun : EveryStep t.step t.Careful {} steps) :
    ∀ reached, reached <+: steps → (reached.foldl t.step {}).filledNotional ≤ t.capUsd := by
  intro reached hreached
  have hinitial : t.Within {} := ⟨by simp, by simpa using t.positive.le⟩
  have hwithin : t.Within (reached.foldl t.step {}) :=
    (hrun.of_prefix hreached).invariant hinitial fun s e hs he => hs.step he
  exact hwithin.filledNotional_le

/-! ### Two legs of ten dollars under a cap of fifteen -/

/-- A trader who may spend fifteen dollars a day. -/
def fifteenDollars : SpendCap := ⟨"t", by decide, 15, by norm_num⟩

/-- A market without quotes, where every order is filled at once. -/
def fillingMarket : Surroundings where
  view := fun _ => ⟨none, true, none, none, none⟩
  venue := fun _ call =>
    { answer := .ok ⟨"o", "c", .filled, none, call.size, none⟩
      kept := some (max 0 call.size)
      kept_of_active := fun _ _ _ => rfl
      kept_bounds := fun f hf => by cases hf; exact ⟨le_max_left _ _, le_rfl⟩ }

/-- A purchase at half a dollar comes to the gates. -/
def submitDollars (notionalUsd : ℚ) : SpendStep :=
  .submit plainContext { limitPrice := some (1 / 2) } {} {} notionalUsd

theorem oneAfterTheOther_within_cap :
    let steps := [submitDollars 10, .finish 0 fillingMarket, .settle 0, .record 0,
      submitDollars 5, .finish 1 fillingMarket]
    EveryStep fifteenDollars.step fifteenDollars.Careful {} steps ∧
      ∀ reached, reached <+: steps →
        (reached.foldl fifteenDollars.step {}).filledNotional ≤ fifteenDollars.capUsd :=
  ⟨by decide +kernel, filledNotional_le_cap fifteenDollars _ (by decide +kernel)⟩

/-- Both legs pass their gates before either of them has been recorded. -/
theorem sideBySide_exceed_cap :
    fifteenDollars.capUsd < ([submitDollars 10, submitDollars 10, .finish 0 fillingMarket,
      .finish 1 fillingMarket].foldl fifteenDollars.step {}).filledNotional := by
  decide +kernel

end SpendCap

end Evosport.Execution
