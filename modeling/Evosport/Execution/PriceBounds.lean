/-
The prices of the live orders of a leg, and the bounds it gives for them.

The bounds are resolved by `submit_execution_leg` and kept by every step of `execute_live_order` but
one: the clamp to the prices of a binary market.  A purchase whose cap lies below 0.01 is placed at
0.01, and a sale whose floor lies above 0.99 at 0.99.
-/
import Evosport.Execution.LegSubmit

namespace Evosport.Execution

open Lib Backtest

/-! ## Prices on the right side of a bound -/

/-- An order of the side at the price keeps the bound. -/
def Keeps : Side → ℚ → ℚ → Prop
  | .buy => fun price bound => price ≤ bound
  | .sell => fun price bound => bound ≤ price

instance (side : Side) (price bound : ℚ) : Decidable (Keeps side price bound) := by
  cases side <;> unfold Keeps <;> infer_instance

/-- The end of the range of a binary market at which a purchase is lifted and a sale lowered. -/
def clampEnd : Side → ℚ
  | .buy => 1 / 100
  | .sell => 99 / 100

/-- The price lies beyond that end, so close to it that the last clamp leaves it alone. -/
def BarelyBeyond : Side → ℚ → Prop
  | .buy => fun price => 1 / 100 - e9 < price ∧ price < 1 / 100
  | .sell => fun price => 99 / 100 < price ∧ price < 99 / 100 + e9

namespace BarelyBeyond

variable {side : Side} {r : ℚ}

lemma close (h : BarelyBeyond side r) : |clampEnd side - r| < e9 := by
  have he := e9_pos
  cases side <;> obtain ⟨hlow, hhigh⟩ := h <;> rw [clampEnd, abs_lt] <;> constructor <;> linarith

lemma ne (h : BarelyBeyond side r) : r ≠ clampEnd side := by
  cases side with
  | buy => exact h.2.ne
  | sell => exact h.1.ne'

end BarelyBeyond

namespace Keeps

variable {side : Side} {p q b c : ℚ}

@[simp] lemma self : Keeps side p p := by cases side <;> exact le_rfl

lemma trans (h : Keeps side p b) (h' : Keeps side b c) : Keeps side p c := by
  cases side with
  | buy => exact le_trans h h'
  | sell => exact le_trans h' h

lemma total (side : Side) (p q : ℚ) : Keeps side p q ∨ Keeps side q p := by
  cases side with
  | buy => exact le_total p q
  | sell => exact le_total q p

lemma tighter_left (h : Keeps side p b) : Keeps side (tighter side p q) b := by
  cases side with
  | buy => exact (min_le_left p q).trans h
  | sell => exact le_trans h (le_max_left p q)

lemma tighter_right (h : Keeps side q b) : Keeps side (tighter side p q) b := by
  cases side with
  | buy => exact (min_le_right p q).trans h
  | sell => exact le_trans h (le_max_right p q)

/-- The clamp keeps a bound within the range. -/
lemma clamp (h : Keeps side p b) (hb : Keeps side (clampEnd side) b) :
    Keeps side (clampBinaryPrice p) b := by
  cases side with
  | buy => exact max_le hb ((min_le_right _ _).trans h)
  | sell => exact le_max_of_le_right (le_min hb h)

/-- A bound beyond the range does not survive the clamp. -/
lemma clamp_eq (h : Keeps side p b) (hb : ¬Keeps side (clampEnd side) b) :
    clampBinaryPrice p = clampEnd side := by
  cases side with
  | buy =>
    have hlow : p ≤ 1 / 100 := le_trans h (not_le.1 hb).le
    exact max_eq_left ((min_le_right _ _).trans hlow)
  | sell =>
    have hhigh : 99 / 100 ≤ p := le_trans (not_le.1 hb).le h
    rw [clampBinaryPrice, min_eq_left hhigh]
    exact max_eq_right (by norm_num [postOnlyRepriceTick])

end Keeps

lemma clampBinaryPrice_clampEnd (side : Side) :
    clampBinaryPrice (clampEnd side) = clampEnd side := by
  cases side <;> norm_num [clampBinaryPrice, clampEnd, postOnlyRepriceTick]

/-! ## The price of an execution -/

namespace LiveOrderRequest

variable {req : LiveOrderRequest} {view : MarketView} {B r : ℚ}

lemma fallback_keeps (hB : req.bound = some B) {f : ℚ} (hf : req.fallback = some f) :
    Keeps req.side f B := by
  rw [fallback, hB] at hf
  cases hf
  cases positive req.fallbackPrice with
  | none => exact .self
  | some price => exact .tighter_right .self

/-- The bound survives until the last clamp, but for the clamp within it. -/
lemma resolvedPrice_keeps (hB : req.bound = some B) (hr : positive (req.resolvedPrice view) = some r) :
    Keeps req.side r B ∨ ¬Keeps req.side (clampEnd req.side) B ∧ r = clampEnd req.side := by
  have hr : req.resolvedPrice view = some r := (Option.filter_eq_some_iff.1 hr).1
  have hlive (quote : ℚ) : Keeps req.side (req.boundedQuote quote) B ∨
      ¬Keeps req.side (clampEnd req.side) B ∧ req.boundedQuote quote = clampEnd req.side := by
    have hbounded : Keeps req.side (boundedBy req.side req.bound quote) B := by
      rw [hB]
      exact .tighter_right .self
    unfold boundedQuote
    dsimp only
    split_ifs with hclamps
    · cases hf : positive req.fallback with
      | none => exact .inl hbounded
      | some f =>
        by_cases hend : Keeps req.side (clampEnd req.side) B
        · exact .inl (hbounded.tighter_left.clamp hend)
        · exact .inr ⟨hend, hbounded.tighter_left.clamp_eq hend⟩
    · exact .inl hbounded
  unfold resolvedPrice at hr
  split at hr
  · split at hr
    · exact .inl (fallback_keeps hB hr)
    · next quote hquote =>
      dsimp only at hr
      split at hr
      · next f hf =>
        split_ifs at hr
        · cases hr
          exact .inl (fallback_keeps hB (Option.filter_eq_some_iff.1 hf).1)
        · cases hr
          exact hlive quote
      · cases hr
        exact hlive quote
  · exact .inl (fallback_keeps hB hr)

/-- A price at which an execution of the request calls `place_order`. -/
def Prices (req : LiveOrderRequest) (view : MarketView) (price : ℚ) : Prop :=
  ∃ r, positive (req.resolvedPrice view) = some r ∧
    (price = submittedPrice r ∨
      e9 ≤ |req.repricedOneTick (submittedPrice r) - submittedPrice r| ∧
        price = req.repricedOneTick (submittedPrice r))

/-- Neither the token nor the metadata has a part in the price. -/
lemma Makes.prices {tokenId : String} {metadata : Option String} {c : Placed}
    (h : (req.withToken tokenId metadata).Makes view c) : req.Prices view c.call.price := by
  obtain ⟨-, r, hr, hcall | ⟨hmoved, hcall⟩⟩ := h
  · exact ⟨r, hr, .inl (congrArg PlaceOrder.price hcall)⟩
  · exact ⟨r, hr, .inr ⟨hmoved, congrArg PlaceOrder.price hcall⟩⟩

/-- Within the range, every price of the execution keeps the bound. -/
lemma keeps_of_inside (hB : req.bound = some B) (hend : Keeps req.side (clampEnd req.side) B)
    {price : ℚ} (hprice : req.Prices view price) : Keeps req.side price B := by
  obtain ⟨r, hr, hprice⟩ := hprice
  have hr : Keeps req.side r B := by
    rcases resolvedPrice_keeps hB hr with hr | ⟨hbeyond, -⟩
    · exact hr
    · exact absurd hend hbeyond
  have hsubmitted : Keeps req.side (submittedPrice r) B := by
    unfold submittedPrice
    split_ifs
    · exact hr.clamp hend
    · exact hr
  rcases hprice with rfl | ⟨-, rfl⟩
  · exact hsubmitted
  · have htick : (0 : ℚ) < postOnlyRepriceTick := by norm_num [postOnlyRepriceTick]
    unfold repricedOneTick
    cases hside : req.side with
    | buy =>
      rw [hside] at hend hsubmitted
      exact Keeps.clamp (le_trans (sub_le_self _ htick.le) hsubmitted) hend
    | sell =>
      rw [hside] at hend hsubmitted
      exact Keeps.clamp (le_trans hsubmitted (le_add_of_nonneg_right htick.le)) hend

/-- Beyond the range, the last clamp moves every price to its end that it does not leave alone. -/
lemma submittedPrice_beyond {side : Side} (hend : ¬Keeps side (clampEnd side) B)
    (hr : Keeps side r B ∨ r = clampEnd side) :
    (BarelyBeyond side r ∧ submittedPrice r = r) ∨
      (¬BarelyBeyond side r ∧ submittedPrice r = clampEnd side) := by
  have hclamp : clampBinaryPrice r = clampEnd side := by
    rcases hr with hr | rfl
    · exact hr.clamp_eq hend
    · exact clampBinaryPrice_clampEnd side
  unfold submittedPrice
  rw [hclamp]
  by_cases hbarely : BarelyBeyond side r
  · exact .inl ⟨hbarely, if_neg (not_le.2 hbarely.close)⟩
  · refine .inr ⟨hbarely, ?_⟩
    split_ifs with hmoved
    · rfl
    · -- a price that is not moved and not barely beyond the end is the end
      rcases hr with hr | hr
      · refine absurd ?_ hbarely
        have hclose := abs_lt.1 (not_le.1 hmoved)
        cases side <;> simp only [BarelyBeyond, clampEnd, Keeps] at hclose hr hend ⊢ <;>
          constructor <;> linarith
      · exact hr

lemma repricedOneTick_beyond (hend : ¬Keeps req.side (clampEnd req.side) B) {p : ℚ}
    (hp : Keeps req.side p B ∨ p = clampEnd req.side) :
    req.repricedOneTick p = clampEnd req.side := by
  unfold repricedOneTick
  generalize req.side = side at *
  cases side with
  | buy =>
    have hlow : p ≤ 1 / 100 := by
      rcases hp with hp | rfl
      · exact le_trans hp (not_le.1 hend).le
      · exact le_rfl
    refine max_eq_left ((min_le_right _ _).trans ?_)
    linarith [show postOnlyRepriceTick = 1 / 100 from rfl]
  | sell =>
    have hhigh : 99 / 100 ≤ p := by
      rcases hp with hp | rfl
      · exact le_trans (not_le.1 hend).le hp
      · exact le_rfl
    dsimp only
    rw [clampBinaryPrice, min_eq_left (by linarith [show postOnlyRepriceTick = 1 / 100 from rfl])]
    exact max_eq_right (by norm_num [postOnlyRepriceTick])

/-- Beyond the range, a price keeps the bound only where the last clamp leaves it alone. -/
lemma keeps_beyond_iff (hB : req.bound = some B) (hend : ¬Keeps req.side (clampEnd req.side) B)
    {price : ℚ} (hprice : req.Prices view price) :
    Keeps req.side price B ↔
      ∃ r, positive (req.resolvedPrice view) = some r ∧ BarelyBeyond req.side r := by
  obtain ⟨r, hr, hprice⟩ := hprice
  have hkeeps : Keeps req.side r B ∨ r = clampEnd req.side :=
    (resolvedPrice_keeps hB hr).imp_right And.right
  have hsubmitted := submittedPrice_beyond hend hkeeps
  -- a second try would be at the end of the range, from where it is not a tick away
  have hprice : price = submittedPrice r := by
    rcases hprice with hprice | ⟨hmoved, -⟩
    · exact hprice
    · rcases hsubmitted with ⟨hbarely, heq⟩ | ⟨-, heq⟩
      · rw [heq, repricedOneTick_beyond hend hkeeps] at hmoved
        exact absurd hmoved (not_le.2 hbarely.close)
      · rw [heq, repricedOneTick_beyond hend (.inr rfl), sub_self, abs_zero] at hmoved
        exact absurd hmoved (not_le.2 e9_pos)
  rw [hprice]
  constructor
  · intro hprice
    rcases hsubmitted with ⟨hbarely, -⟩ | ⟨-, heq⟩
    · exact ⟨r, hr, hbarely⟩
    · rw [heq] at hprice
      exact absurd hprice hend
  · rintro ⟨r', hr', hbarely⟩
    obtain rfl : r = r' := Option.some.inj (hr.symm.trans hr')
    rcases hsubmitted with ⟨-, heq⟩ | ⟨hnot, -⟩
    · rw [heq]
      exact hkeeps.resolve_right hbarely.ne
    · exact absurd hbarely hnot

end LiveOrderRequest

/-! ## The bounds of a leg -/

/-- The bounds that the orders of a leg are to keep: those of the leg, of its metadata and of the
strategy and, for a leg at a taker's limit that may not pay up, its own price. -/
def legBounds (leg : Leg) (params : StrategyParams) (limits : RiskLimits) (price : ℚ) : List ℚ :=
  match leg.side with
  | .buy => chaseUpExecutionCaps leg params ++
      if leg.takerLimit ∧ !allowTakerLimitBuyAboveSignal leg params limits then [price] else []
  | .sell => executionFloors leg params ++ if leg.takerLimit then [price] else []

/-- `b` is the tightest of the bounds. -/
def IsTightest (side : Side) (b : ℚ) (bounds : List ℚ) : Prop :=
  b ∈ bounds ∧ ∀ b' ∈ bounds, Keeps side b b'

section Leg

variable {ctx : LegContext} {leg : Leg} {params : StrategyParams} {limits : RiskLimits}
  {notionalUsd : ℚ} {o : SizedLeg}

lemma valid_price (h : passGates ctx leg limits notionalUsd = .ok o) :
    validExecutionBound (some o.price) = some o.price := by
  obtain ⟨-, hlow, hhigh, -⟩ := passGates_ok h
  have hpos : 0 < o.price := lt_of_lt_of_le (by norm_num [minExecutionPrice]) hlow
  simp [validExecutionBound, Option.filter, hpos, hhigh]

lemma pos_of_mem_legBounds (h : passGates ctx leg limits notionalUsd = .ok o) {b : ℚ}
    (hb : b ∈ legBounds leg params limits o.price) : 0 < b := by
  have hvalid {values : List (Option ℚ)} (hb : b ∈ values.filterMap validExecutionBound) : 0 < b := by
    obtain ⟨value, -, hvalue⟩ := List.mem_filterMap.1 hb
    exact (of_decide_eq_true (Option.filter_eq_some_iff.1 hvalue).2).1
  have hprice : 0 < o.price :=
    (of_decide_eq_true (Option.filter_eq_some_iff.1 (valid_price h)).2).1
  unfold legBounds at hb
  cases hside : leg.side <;> simp only [hside, List.mem_append] at hb
  all_goals
    rcases hb with hb | hb
    · exact hvalid hb
    · split_ifs at hb
      · rwa [List.mem_singleton.1 hb]
      · exact absurd hb List.not_mem_nil

/-- The request carries the tightest of the bounds. -/
lemma bound_isTightest (h : passGates ctx leg limits notionalUsd = .ok o)
    (hne : legBounds leg params limits o.price ≠ []) :
    ∃ B, (liveOrderRequest ctx leg params limits o).bound = some B ∧
      IsTightest leg.side B (legBounds leg params limits o.price) := by
  have hpos {B : ℚ} (hB : B ∈ legBounds leg params limits o.price) : positive (some B) = some B := by
    simp [positive, Option.filter, pos_of_mem_legBounds h hB]
  cases hside : leg.side with
  | buy =>
    have hbounds : (resolveExecutionPriceBounds leg params o.price
        (allowTakerLimitBuyAboveSignal leg params limits)).1 =
        (legBounds leg params limits o.price).min? := by
      simp only [legBounds, hside] at hne ⊢
      simp only [resolveExecutionPriceBounds, hside, valid_price h, Option.toList_some]
      cases hallow : allowTakerLimitBuyAboveSignal leg params limits with
      | false => simp
      | true =>
        simp only [hallow, Bool.not_true, Bool.false_eq_true, and_false, if_false,
          List.append_nil] at hne ⊢
        rw [if_pos ⟨trivial, hne⟩]
    obtain ⟨B, hB⟩ := Option.isSome_iff_exists.1 (List.isSome_min?_of_ne_nil hne)
    have htightest := List.min?_eq_some_iff.1 hB
    refine ⟨B, ?_, htightest.1, htightest.2⟩
    simp only [LiveOrderRequest.bound, liveOrderRequest, hside, hbounds, hB]
    exact hpos htightest.1
  | sell =>
    have hbounds : (resolveExecutionPriceBounds leg params o.price
        (allowTakerLimitBuyAboveSignal leg params limits)).2 =
        (legBounds leg params limits o.price).max? := by
      simp [legBounds, resolveExecutionPriceBounds, hside, valid_price h]
    obtain ⟨B, hB⟩ := Option.isSome_iff_exists.1 (List.isSome_max?_of_ne_nil hne)
    have htightest := List.max?_eq_some_iff.1 hB
    refine ⟨B, ?_, htightest.1, htightest.2⟩
    simp only [LiveOrderRequest.bound, liveOrderRequest, hside, hbounds, hB]
    exact hpos htightest.1

end Leg

/-! ## The orders of a leg -/

section Orders

variable (env : Surroundings) (ctx : LegContext) (leg : Leg) (params : StrategyParams)
  (limits : RiskLimits) (notionalUsd : ℚ)

/-- No order of the leg is priced beyond one of its bounds. -/
def WithinBounds : Prop :=
  ∀ c ∈ (submitExecutionLeg env ctx leg params limits notionalUsd).2.placed,
    ∀ price, resolveLegPrice ctx leg = some price →
      ∀ b ∈ legBounds leg params limits price, Keeps c.call.side c.call.price b

/-- The clamp to the prices of a binary market does no harm: no bound lies beyond its range, or each
order was priced so barely beyond the range that the clamp left its price alone. -/
def SparedByClamp : Prop :=
  (∀ price, resolveLegPrice ctx leg = some price →
    ∀ b ∈ legBounds leg params limits price, Keeps leg.side (clampEnd leg.side) b) ∨
  ∀ o, passGates ctx leg limits notionalUsd = .ok o →
    ∀ c ∈ (submitExecutionLeg env ctx leg params limits notionalUsd).2.placed, ∃ r,
      positive ((liveOrderRequest ctx leg params limits o).resolvedPrice c.view) = some r ∧
        BarelyBeyond leg.side r

/-- The orders of a leg keep its bounds exactly when the clamp does no harm. -/
theorem withinBounds_iff_sparedByClamp :
    WithinBounds env ctx leg params limits notionalUsd ↔
      SparedByClamp env ctx leg params limits notionalUsd := by
  unfold WithinBounds SparedByClamp submitExecutionLeg
  cases hgates : passGates ctx leg limits notionalUsd with
  | error refused => simp
  | ok o =>
    obtain ⟨hprice, -⟩ := passGates_ok hgates
    obtain ⟨calls, hplaced, hmakes, -⟩ :=
      executeLeg_runs env ctx leg limits (liveOrderRequest ctx leg params limits o) {}
    rw [List.nil_append] at hplaced
    simp only [hplaced, hprice, Option.some.injEq, forall_eq', Except.ok.injEq]
    have hside (c : Placed) (hc : c ∈ calls) : c.call.side = leg.side := by
      obtain ⟨_, _, -, r, -, hcall | ⟨-, hcall⟩⟩ := hmakes c hc <;> rw [hcall] <;> rfl
    rcases eq_or_ne (legBounds leg params limits o.price) [] with hnil | hne
    · simp [hnil]
    obtain ⟨B, hB, hmem, htightest⟩ := bound_isTightest hgates hne
    by_cases hend : Keeps leg.side (clampEnd leg.side) B
    · -- every bound lies within the range
      refine iff_of_true (fun c hc b hb => ?_) (.inl fun b hb => hend.trans (htightest b hb))
      obtain ⟨tokenId, metadata, hc'⟩ := hmakes c hc
      rw [hside c hc]
      exact Keeps.trans (LiveOrderRequest.keeps_of_inside hB hend hc'.prices) (htightest b hb)
    · constructor
      · intro hwithin
        refine .inr fun c hc => ?_
        obtain ⟨tokenId, metadata, hc'⟩ := hmakes c hc
        have hkeeps := hwithin c hc B hmem
        rw [hside c hc] at hkeeps
        exact (LiveOrderRequest.keeps_beyond_iff hB hend hc'.prices).1 hkeeps
      · rintro (hinside | hbarely)
        · exact absurd (hinside B hmem) hend
        · intro c hc b hb
          obtain ⟨tokenId, metadata, hc'⟩ := hmakes c hc
          rw [hside c hc]
          exact Keeps.trans ((LiveOrderRequest.keeps_beyond_iff hB hend hc'.prices).2 (hbarely c hc))
            (htightest b hb)

end Orders

/-! ### A cap below a cent -/

/-- A purchase at half a cent, with a cap of half a cent. -/
def cheapLeg : Leg where
  limitPrice := some (1 / 200)
  maxExecutionPrice := some (1 / 200)

/-- A market without quotes, where every order rests. -/
def quietMarket : Surroundings where
  view := fun _ => ⟨none, true, none, none, none⟩
  venue := fun _ _ => .accepted ⟨"o", "c", .opened, none, 0, none⟩

/-- The order is placed at a cent, twice the cap. -/
theorem cheapLeg_exceeds_its_cap : ¬WithinBounds quietMarket plainContext cheapLeg {} {} 10 := by
  intro h
  have hprice : ((submitExecutionLeg quietMarket plainContext cheapLeg {} {} 10).2.placed.map
      fun c => (c.call.side, c.call.price)) = [(.buy, 1 / 100)] := by decide +kernel
  obtain ⟨c, hc, hcall⟩ := List.mem_map.1 (hprice ▸ List.mem_singleton_self _)
  have hkeeps := h c hc (1 / 200) (by decide +kernel) (1 / 200) (by decide +kernel)
  obtain ⟨hside, hprice⟩ := Prod.mk.inj hcall
  rw [hside, hprice] at hkeeps
  revert hkeeps
  decide +kernel

end Evosport.Execution
