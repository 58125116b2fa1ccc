/-
The planner of laddered exits (`services/trader_orchestrator/exit_executor.py`).

`planChildren` turns the size of an exit and its policy into a list of child orders.  The
phases of the source are definitions of their own: the price ladder, the distribution
weights, the two sizing regimes (fixed-size chunks, or one child a level) and the final
pass that enforces the minimum notional.
-/
import Evosport.Backtest.Venue
import Mathlib.Data.List.Sort

namespace Evosport.Backtest

/-- How the target size is spread over the levels of a ladder. -/
inductive Distribution where
  | uniform
  | frontLoaded
  | backLoaded
deriving DecidableEq, Repr

/-- The price ladder of an exit: how many levels it has, the ticks between two of them and before
the first, and how the size is spread over them. -/
structure LadderSpec where
  levels : ℤ := 5
  stepTicks : ℤ := 1
  offsetTicks : ℤ := 0
  distribution : Distribution := .uniform
deriving DecidableEq, Repr

/-- The part of an `ExitPolicy` that the planner reads: the ladder, the chunking of a level, the mix
of order types and the least notional of a chunk. -/
structure ExitPolicy where
  ladder : Option LadderSpec := none
  chunkSize : Option ℚ := none
  maxChunks : ℤ := 50
  orderTypeMix : List (Tif × ℚ) := []
  minChunkNotionalUsd : ℚ := 1
deriving DecidableEq, Repr

/-- The bucket of a level of the ladder, as its children carry it. -/
def levelBucket (levelIdx : ℕ) : String := "lvl" ++ toString levelIdx

/-- A planned child order: its place in the plan, its price and size, its time in force, and the
bucket of its level. -/
structure ChildPlan where
  index : ℕ
  price : ℚ
  size : ℚ
  tif : Tif
  postOnly : Bool
  distributionBucket : String
deriving DecidableEq, Repr

namespace ExitPlan

/-- `DEFAULT_TICK_SIZE`. -/
def defaultTickSize : ℚ := 1 / 100

/-- `_round_down_to_tick`. -/
def roundDownToTick (price tick : ℚ) : ℚ :=
  if tick ≤ 0 then price else max tick (⌊price / tick + e9⌋ * tick)

/-- `_clamp_binary_price`. -/
def clampBinaryPrice (price tick : ℚ) : ℚ :=
  roundDownToTick (max tick (min (99 / 100) price)) tick

/-- The raw price of every rung, inside-most first. -/
def rawPrices (levels : ℕ) (offsetTicks stepTicks : ℤ) (tickSize triggerPrice : ℚ)
    (side : Side) : List ℚ :=
  (List.range levels).map fun i =>
    let offset := ((offsetTicks + i * stepTicks : ℤ) : ℚ) * tickSize
    clampBinaryPrice
      (match side with
        | .sell => triggerPrice - offset
        | .buy => triggerPrice + offset)
      tickSize

/-- Keep the first occurrence of every price not in `seen`. -/
def uniquePrices (seen : List ℚ) : List ℚ → List ℚ
  | [] => []
  | p :: ps => if p ∈ seen then uniquePrices seen ps else p :: uniquePrices (p :: seen) ps

/-- `_distribution_weights`. -/
def distributionWeights (levels : ℕ) (distribution : Distribution) : List ℚ :=
  let n := max 1 levels
  let raw : List ℚ := match distribution with
    | .frontLoaded => (List.range n).map fun i => ((n - i : ℕ) : ℚ)
    | .backLoaded => (List.range n).map fun i => ((i + 1 : ℕ) : ℚ)
    | .uniform => List.replicate n 1
  let total := raw.sum
  if total ≤ 0 then List.replicate n (1 / n) else raw.map (· / total)

/-- The index of the first maximum of a list of counts, an empty count counting as one. -/
def indexOfLargest (counts : List ℤ) : ℕ :=
  let keyed := counts.map fun c => if c = 0 then 1 else c
  keyed.idxOf (keyed.foldl max (keyed.headD 0))

/-- The aggression rank of a time in force. -/
def aggressionRank : Tif → ℕ
  | .fok => 0
  | .ioc => 1
  | .fak => 1
  | .gtc => 2
  | .gtd => 3

/-- `_resolve_order_type_for_index`: the most aggressive types come first. -/
def resolveOrderTypeForIndex (index total : ℤ) (mix : List (Tif × ℚ)) (defaultTif : Tif)
    (defaultPostOnly : Bool) : Tif × Bool :=
  let totalWeight := (mix.map fun m => max 0 m.2).sum
  if mix = [] ∨ totalWeight ≤ 0 ∨ total ≤ 0 then (defaultTif, defaultPostOnly)
  else
    let rounded := mix.map fun m => (m.1, roundHalfEven (total * (max 0 m.2 / totalWeight)))
    let assigned := (rounded.map Prod.snd).sum
    let largest := indexOfLargest (rounded.map Prod.snd)
    let counts :=
      if assigned < total then
        rounded.modify largest fun c => (c.1, c.2 + (total - assigned))
      else if assigned > total then
        rounded.modify largest fun c => (c.1, max 0 (c.2 - (assigned - total)))
      else rounded
    let sorted := counts.insertionSort fun a b => aggressionRank a.1 ≤ aggressionRank b.1
    let rec pick : ℤ → List (Tif × ℤ) → Tif × Bool
      | _, [] => (defaultTif, defaultPostOnly)
      | cursor, (tif, n) :: rest =>
        if index < cursor + n then (tif, if tif.isTaker then false else defaultPostOnly)
        else pick (cursor + n) rest
    pick 0 sorted

/-! ### Fixed-size chunks -/

/-- The number of chunks and the chunk size of every level; a level too small for one
chunk of minimum notional rolls its size forward.  The last component is what rolls out of
the last level. -/
def chunksPerLevel (minNotional nominalChunkSize : ℚ) :
    ℚ → List (ℚ × ℚ) → List (ℕ × ℚ) × ℚ
  | rollForward, [] => ([], rollForward)
  | rollForward, (price, alloc) :: rest =>
    let levelSize := alloc + rollForward
    let minChunkForPrice := if price > 0 then minNotional / price else nominalChunkSize
    let effectiveChunk := max nominalChunkSize minChunkForPrice
    if levelSize + e9 < minChunkForPrice then
      let r := chunksPerLevel minNotional nominalChunkSize levelSize rest
      ((0, 0) :: r.1, r.2)
    else
      let nChunks := max 1 ⌊levelSize / effectiveChunk⌋.toNat
      let r := chunksPerLevel minNotional nominalChunkSize 0 rest
      ((nChunks, effectiveChunk) :: r.1, r.2)

/-- Credit what rolled out of the last level to the last level that has chunks. -/
def creditTrailing (rollForward : ℚ) (perLevel : List (ℕ × ℚ)) : List (ℕ × ℚ) :=
  if rollForward > 0 then
    match (perLevel.reverse.findIdx? fun l => decide (0 < l.1)) with
    | none => perLevel
    | some k =>
      perLevel.modify (perLevel.length - 1 - k) fun l =>
        (l.1 + max 1 ⌊rollForward / l.2⌋.toNat, l.2)
  else perLevel

/-- The level to take a chunk from: the lowest weight, then the most chunks, then the
first. -/
def peelCandidate (weights : List ℚ) (perLevel : List (ℕ × ℚ)) : Option ℕ :=
  let candidates := (List.range perLevel.length).filter fun i =>
    decide (0 < (perLevel.getD i (0, 0)).1)
  let better (i j : ℕ) : Bool :=
    decide (weights.getD i 0 < weights.getD j 0 ∨
      (weights.getD i 0 = weights.getD j 0 ∧
        (perLevel.getD j (0, 0)).1 < (perLevel.getD i (0, 0)).1))
  candidates.foldl (fun acc i => match acc with
    | none => some i
    | some j => if better i j then some i else some j) none

/-- Take chunks away until the cap is met; `excess` is the number of chunks above it. -/
def peel (weights : List ℚ) : ℕ → List (ℕ × ℚ) → List (ℕ × ℚ)
  | 0, perLevel => perLevel
  | excess + 1, perLevel =>
    match peelCandidate weights perLevel with
    | none => perLevel
    | some k => peel weights excess (perLevel.modify k fun l => (l.1 - 1, l.2))

/-- Emit the chunks until the target is used up: price, size and level of each, and what
is left of the target. -/
def emitChunks : ℚ → List (ℚ × ℚ × ℕ) → List (ℚ × ℚ × ℕ) × ℚ
  | remaining, [] => ([], remaining)
  | remaining, (price, chunk, level) :: rest =>
    if remaining ≤ 0 then ([], remaining)
    else
      let sz := min chunk remaining
      let r := emitChunks (remaining - sz) rest
      ((price, sz, level) :: r.1, r.2)

/-! ### The planner -/

/-- The parameters that a child takes from the caller: the time in force, whether it is post-only,
and the mix of order types by levels. -/
structure ChildDefaults where
  tif : Tif
  postOnly : Bool
  mix : List (Tif × ℚ)

/-- Number the children and give each its order type. -/
def toPlans (d : ChildDefaults) (total : ℤ) (children : List (ℚ × ℚ × ℕ)) : List ChildPlan :=
  children.mapIdx fun i c =>
    let kind := resolveOrderTypeForIndex i total d.mix d.tif d.postOnly
    { index := i, price := c.1, size := c.2.1, tif := kind.1, postOnly := kind.2,
      distributionBucket := levelBucket c.2.2 }

/-- Add size to the first child. -/
def growFirst (extra : ℚ) : List ChildPlan → List ChildPlan
  | [] => []
  | c :: cs => { c with size := c.size + extra } :: cs

/-- The children of the chunked regime: each level is cut into chunks, what rolls out of the last
level is credited back, chunks above the cap are peeled off, and what is left of the target goes to
the first child. -/
def chunkedPlans (d : ChildDefaults) (policy : ExitPolicy) (nominalChunkSize minNotional
    targetSize : ℚ) (prices weights : List ℚ) : List ChildPlan :=
  let nominalChunks := max 1 ⌈targetSize / nominalChunkSize⌉
  let totalChunksCap := min policy.maxChunks nominalChunks
  let raw := chunksPerLevel minNotional nominalChunkSize 0
    (prices.zip (weights.map (· * targetSize)))
  let credited := creditTrailing raw.2 raw.1
  let totalChunks : ℤ := ((credited.map Prod.fst).sum : ℕ)
  let perLevel := peel weights (totalChunks - totalChunksCap).toNat credited
  let sumChunks : ℤ := ((perLevel.map Prod.fst).sum : ℕ)
  let slots := ((prices.zip perLevel).mapIdx fun i l =>
    if l.2.2 ≤ 0 then [] else List.replicate l.2.1 (l.1, l.2.2, i)).flatten
  let emitted := emitChunks targetSize slots
  let plans := toPlans d sumChunks emitted.1
  if emitted.2 > e9 then growFirst emitted.2 plans else plans

/-- The children of the regime without chunks: one for each level. -/
def levelPlans (d : ChildDefaults) (targetSize : ℚ) (prices weights : List ℚ) :
    List ChildPlan :=
  toPlans d prices.length
    ((prices.zip weights).mapIdx fun i l => (l.1, l.2 * targetSize, i))

/-- The final pass: a child below the minimum notional is promoted to it, when that fits
the target, and dropped otherwise.  The second component is the size dropped. -/
def enforceMinNotional (minNotional targetSize : ℚ) : List ChildPlan → List ChildPlan × ℚ
  | [] => ([], 0)
  | c :: cs =>
    let r := enforceMinNotional minNotional targetSize cs
    if c.price ≤ 0 ∨ c.size ≤ 0 then (r.1, c.size + r.2)
    else if c.price * c.size + e9 < minNotional then
      let minSizeAtPrice := minNotional / c.price
      if minSizeAtPrice ≤ targetSize + e9 then
        ({ c with size := minSizeAtPrice } :: r.1, r.2)
      else (r.1, c.size + r.2)
    else (c :: r.1, r.2)

end ExitPlan

open ExitPlan in
/-- `plan_children`.  An empty plan makes the caller fall back to a single order. -/
def planChildren (targetSize triggerPrice : ℚ) (side : Side) (policy : ExitPolicy)
    (tickSize : ℚ) (defaultTif : Tif) (defaultPostOnly : Bool) : List ChildPlan :=
  if targetSize ≤ 0 ∨ triggerPrice ≤ 0 then []
  else
    let minNotional := policy.minChunkNotionalUsd
    let levels := (max 1 (min policy.maxChunks (policy.ladder.elim 1 LadderSpec.levels))).toNat
    let stepTicks := policy.ladder.elim 0 fun l => max 0 l.stepTicks
    let offsetTicks := policy.ladder.elim 0 fun l => max 0 l.offsetTicks
    let distribution := policy.ladder.elim .uniform LadderSpec.distribution
    let prices := uniquePrices []
      (rawPrices levels offsetTicks stepTicks tickSize triggerPrice side)
    let weights := distributionWeights prices.length distribution
    let d : ChildDefaults := ⟨defaultTif, defaultPostOnly, policy.orderTypeMix⟩
    let plans := match policy.chunkSize with
      | some chunkSize =>
        if chunkSize > 0 then
          chunkedPlans d policy chunkSize minNotional targetSize prices weights
        else levelPlans d targetSize prices weights
      | none => levelPlans d targetSize prices weights
    let enforced := enforceMinNotional minNotional targetSize plans
    match enforced.1 with
    | [] =>
      let basePrice := prices.headD 0
      if basePrice * targetSize + e9 < minNotional then []
      else
        [{ index := 0, price := basePrice, size := targetSize, tif := defaultTif
           postOnly := defaultPostOnly, distributionBucket := levelBucket 0 }]
    | survivors =>
      let grown := if enforced.2 > 0 then growFirst enforced.2 survivors else survivors
      grown.mapIdx fun i c => { c with index := i }

end Evosport.Backtest
