import AlphaMonitor.Trade.Requests
import AlphaMonitor.Trade.Risk
import AlphaMonitor.Trade.Signals
import Mathlib.Data.Rat.Floor

/-!
# Placing an entry

`maybe_enter` turns a ranked signal into an order: a budget, a quantity, a ladder
of post-only candidate prices, and the profit gate.  The decision itself is a
pure function of the bar, the budget and the configuration (`entryDecision`);
the rest books the reservation and queues the placement.

Quantities and prices are computed in floats, in the order of the source: which ticks and which
points of the grid they come to depends on the last digit.
-/

namespace AlphaMonitor.Trade

open Lib

/-- The parts of the engine that the per-pair functions read and write. -/
structure Desk where
  req : Requests
  books : Books
  /-- Exit calls made by the engine itself, in order. -/
  exitCalls : List (PairKey × Submission)

/-! ## Gas -/

/-- `gas_est_usd`. -/
def gasEstUsd (cfg : TradeConfig) (env : Env) : ℚ :=
  -- the configured estimate is a lower bound of the measured one
  let estimate := max cfg.gasEstUsd (env.gasP90.getD cfg.gasEstUsd)
  if cfg.gasIncludeCancelAllowance ∧ cfg.gasCancelAllowanceFactor > 1 then
    estimate * cfg.gasCancelAllowanceFactor
  else estimate

/-! ## Quantity -/

/-- `f64::clamp`. -/
def clamp (x lo hi : ℚ) : ℚ := min (max x lo) hi

/-- The factor for a wide spread; `none` when a wide spread blocks the entry. -/
def spreadScale (cfg : TradeConfig) (bestBid bestAsk : ℚ) : Option ℚ :=
  let spread := F64.sub bestAsk bestBid
  let mid := F64.div (F64.add bestBid bestAsk) 2
  -- the spread in whole ticks
  let gate := max (roundHalfAway (F64.div spread cfg.tick)) 0
  let spreadPct := if mid > 0 then F64.div spread mid else 0
  -- a limit of zero is switched off
  if (cfg.entrySpreadMaxTicks > 0 ∧ gate > cfg.entrySpreadMaxTicks) ∨
      (cfg.entrySpreadMaxPct > 0 ∧ spreadPct > f64 cfg.entrySpreadMaxPct) then
    if cfg.entrySpreadSizeScale > 0 then some (clamp cfg.entrySpreadSizeScale 0 1) else none
  else some 1

/-- The quantity before the ladder is built. -/
def entryQty (entry : PendingEntry) (notional priceRef shapeScale spreadScale : ℚ) : ℚ :=
  let qty₁ := F64.mul (F64.div notional priceRef) shapeScale
  let qty₂ :=
    match entry.cModifier with
    -- the lagging signal scales by one and its modifier
    | some modifier => F64.mul qty₁ (clamp (F64.add 1 modifier) (1 / 5) (3 / 2))
    | none => qty₁
  -- a scale that is not set is zero
  let qty₃ := if entry.staleScale > 0 then F64.mul qty₂ (clamp entry.staleScale 0 1) else qty₂
  if spreadScale < 1 then F64.mul qty₃ spreadScale else qty₃

/-! ## Candidate prices -/

/-- `entry_aggressiveness`. -/
def entryAggressiveness (cfg : TradeConfig) (entry : PendingEntry) (now : ℤ) : ℚ :=
  match entry.alphaType with
  | .shockA =>
    let gHigh := cfg.entryAggrShockMax
    let gLow := cfg.entryAggrShockMin
    let earlyRatio := clamp (f64 cfg.entryAggrShockEarlyRatio) 0 1
    let horizonS := entry.horizonS.getD 0
    -- without a horizon the entry is as aggressive as it gets
    if horizonS ≤ 0 then clamp gHigh 0 1
    else
      -- seconds since the second of the bar, as a share of the horizon
      let dtS := F64.div (max (now - entry.bar.barSecond * 1000) 0 : ℤ) 1000
      let ratio := clamp (F64.div dtS horizonS) 0 1
      if earlyRatio ≥ 1 ∨ ratio ≤ earlyRatio then clamp gHigh 0 1
      else
        -- past the early part the aggressiveness falls to the lower bound
        let t := clamp (F64.div (F64.sub ratio earlyRatio) (F64.sub 1 earlyRatio)) 0 1
        clamp (F64.add gHigh (F64.mul (F64.sub gLow gHigh) t)) 0 1
  | .gapB => clamp cfg.entryAggrGap 0 1
  | .lagC => clamp cfg.entryAggrDefault 0 1

/-- How many ticks inside the spread the ladder starts. -/
def entryStartTicks (cfg : TradeConfig) (entry : PendingEntry) (now : ℤ) (spread : ℚ) : ℤ :=
  let spreadTicks := max ⌊F64.div spread cfg.tick⌋ 1
  let wanted :=
    if cfg.entryAggrEnabled then
      -- a spread of one or two ticks leaves no choice
      if spreadTicks ≤ 1 then 0
      else if spreadTicks = 2 then 1
      else
        let span := max (spreadTicks - 1) 1
        min (max (roundHalfAway (F64.mul (entryAggressiveness cfg entry now) span)) 0) span
    else max cfg.entryTickOffset 0
  -- never beyond the last tick inside the spread
  min wanted (max (spreadTicks - 1) 0)

/-- `round_price_for_side`: to the 0.001 grid, down for a buy and up for a sell. -/
def roundPriceForSide (price : ℚ) (side : OrderSide) : ℚ :=
  match side with
  | .buy => F64.div ⌊F64.mul price 1000⌋ 1000
  | .sell => F64.div ⌈F64.mul price 1000⌉ 1000

/-- The price respects the limit of its side. -/
def withinLimit (side : OrderSide) (price limit : ℚ) : Bool :=
  match side with
  | .buy => decide (price ≤ f64 limit)
  | .sell => decide (price ≥ f64 limit)

/-- The price would take liquidity. -/
def isTaker (side : OrderSide) (price bestBid bestAsk : ℚ) : Bool :=
  match side with
  | .buy => decide (price ≥ f64 bestAsk)
  | .sell => decide (price ≤ f64 bestBid)

/-- The loop over the ladder's steps: `n` steps are left, the next one is `idx`. -/
def ladderLoop (side : OrderSide) (price₀ limit bestBid bestAsk tick : ℚ) (stepTicks : ℤ) :
    ℕ → ℤ → List ℚ → List ℚ
  | 0, _, acc => acc
  | n + 1, idx, acc =>
    -- the step away from the start price, in ticks
    let offset := F64.mul tick (stepTicks * idx : ℤ)
    let raw := match side with
      | .buy => F64.sub price₀ offset
      | .sell => F64.add price₀ offset
    let price := roundPriceForSide raw side
    -- `break`: the ladder is below the grid
    if price ≤ 0 then acc
    -- `continue`: over the limit, taking, or the same price again
    else if withinLimit side price limit = false ∨ isTaker side price bestBid bestAsk = true ∨
        acc.getLast? = some price then
      ladderLoop side price₀ limit bestBid bestAsk tick stepTicks n (idx + 1) acc
    else
      ladderLoop side price₀ limit bestBid bestAsk tick stepTicks n (idx + 1) (acc ++ [price])

/-- The side of an order that opens a position in a direction. -/
def entrySide (direction : ℤ) : OrderSide := if direction > 0 then .buy else .sell

/-- `candidate_prices` of `maybe_enter`. -/
def entryCandidates (cfg : TradeConfig) (entry : PendingEntry) (now : ℤ)
    (bestBid bestAsk limit : ℚ) : List ℚ :=
  let side := entrySide entry.direction
  let start := F64.mul cfg.tick (entryStartTicks cfg entry now (F64.sub bestAsk bestBid))
  let price₀ :=
    -- no better than the limit
    match side with
    | .buy => min (F64.add bestBid start) (f64 limit)
    | .sell => max (F64.sub bestAsk start) (f64 limit)
  ladderLoop side price₀ limit bestBid bestAsk cfg.tick (max cfg.chaseStepTicks 1)
    -- one more candidate than there are chase ticks
    ((max cfg.maxChaseTicks 0).toNat + 1) 0 []

/-- The ladder only ever adds positive prices. -/
theorem ladderLoop_pos {side : OrderSide} {price₀ limit bestBid bestAsk tick : ℚ} {stepTicks : ℤ}
    {n : ℕ} {idx : ℤ} {acc : List ℚ} (hacc : ∀ price ∈ acc, 0 < price) :
    ∀ price ∈ ladderLoop side price₀ limit bestBid bestAsk tick stepTicks n idx acc,
      0 < price := by
  induction n generalizing idx acc with
  | zero => exact hacc
  | succ n ih =>
    -- the loop stops, leaves the price out, or adds it
    simp only [ladderLoop]
    generalize roundPriceForSide _ side = next
    split
    · exact hacc
    · rename_i hpos
      split
      · exact ih hacc
      · apply ih
        intro price hmem
        rcases List.mem_append.mp hmem with hmem | hmem
        · exact hacc price hmem
        · rw [List.mem_singleton.mp hmem]
          exact not_le.mp hpos

theorem entryCandidates_pos (cfg : TradeConfig) (entry : PendingEntry) (now : ℤ)
    (bestBid bestAsk limit : ℚ) :
    ∀ price ∈ entryCandidates cfg entry now bestBid bestAsk limit, 0 < price := by
  unfold entryCandidates
  apply ladderLoop_pos
  simp

/-! ## The decision -/

/-- What `maybe_enter` decides once it has a budget. -/
inductive EntryDecision where
  /-- Return without an order. -/
  | skip
  /-- No candidate price is left: wait. -/
  | noCandidate
  /-- Place the quantity at the first candidate that is not rejected. -/
  | place (qty : ℚ) (first : ℚ) (rest : List ℚ)
  deriving DecidableEq, Repr

/-- `opi_edge_band_px`. -/
def opiEdgeBandPx (cfg : TradeConfig) (bar : Bars1sPair) : ℚ :=
  let spread : ℚ :=
    match opiBestBidFromBar bar, opiBestAskFromBar bar with
    -- a crossed or empty book has no spread
    | some bid, some ask => if ask > bid ∧ bid > 0 then F64.sub ask bid else 0
    | _, _ => 0
  F64.add spread (F64.mul 2 (max cfg.tick 0))

/-- `theo_price`. -/
def theoPrice (cfg : TradeConfig) (entry : PendingEntry) (priceRef : ℚ) : ℚ :=
  let shock := (entry.shock.map (·.magnitude)).getD 0
  let edgeGain := F64.mul cfg.kEdge entry.edgeRaw
  let momGain := F64.mul cfg.kMom (F64.mul entry.pmMom entry.basePm)
  let shockGain := F64.mul cfg.kShock shock
  -- the gains are on the side of the direction
  if entry.direction > 0 then F64.add (F64.add (F64.add priceRef edgeGain) momGain) shockGain
  else F64.sub (F64.sub (F64.sub priceRef edgeGain) momGain) shockGain

/-- What a quantity has to bring in: gas, buffer and the fees of entry and exit, times the required
multiple. -/
def profitThreshold (cfg : TradeConfig) (env : Env) (entry : PendingEntry) (priceRef qty : ℚ) : ℚ :=
  let feeEst := F64.mul (F64.mul (F64.mul (F64.div env.feeBps 10000) priceRef) qty) 2
  let minProfitUsd :=
    F64.add (F64.add (F64.mul (gasEstUsd cfg env) cfg.gasMult) cfg.gasBufferUsd) feeEst
  F64.mul minProfitUsd (max entry.costMult 1)

/-- `expected_edge_per_unit`. -/
def expectedEdgePerUnit (cfg : TradeConfig) (entry : PendingEntry) (priceRef : ℚ) : ℚ :=
  match entry.alphaType with
  -- only a shock is weighed against the book's edge
  | .shockA =>
    F64.sub (F64.mul entry.direction (F64.sub (theoPrice cfg entry priceRef) priceRef))
      (opiEdgeBandPx cfg entry.bar)
  | _ => entry.edgeRaw

/-- `price_limit`: what the order may pay and still earn the least profit. -/
def priceLimit (cfg : TradeConfig) (env : Env) (entry : PendingEntry) (priceRef qty : ℚ) : ℚ :=
  let minProfitPerUnit := F64.div (profitThreshold cfg env entry priceRef qty) qty
  if entry.direction > 0 then F64.sub (theoPrice cfg entry priceRef) minProfitPerUnit
  else F64.add (theoPrice cfg entry priceRef) minProfitPerUnit

/-- The quantity that is placed at the first candidate: raised to the venue's
minimum notional if the budget allows it. -/
def bumpQty (cfg : TradeConfig) (notional entryPrice qty : ℚ) : Option ℚ :=
  let minNotional := cfg.minOrderNotionalUsd
  -- an order below the minimum is raised to it
  if minNotional > 0 ∧ F64.mul entryPrice qty < f64 minNotional then
    let minQty := F64.div minNotional entryPrice
    -- unless the budget does not reach that far
    if minQty > 0 ∧ minQty ≤ F64.div notional entryPrice then some minQty else none
  else some qty

/-- `maybe_enter` from the budget on, up to the profit gate. -/
def entryDecision (cfg : TradeConfig) (env : Env) (entry : PendingEntry) (shape : BookShape)
    (notional : ℚ) : EntryDecision :=
  let bar := entry.bar
  let gasEst := gasEstUsd cfg env
  match opiBestBidFromBar bar, opiBestAskFromBar bar with
  | some bestBid, some bestAsk =>
    -- an empty or crossed book
    if bestBid ≤ 0 ∨ bestAsk ≤ 0 ∨ F64.sub bestAsk bestBid ≤ 0 then .skip
    else
      match spreadScale cfg bestBid bestAsk with
      | none => .skip
      | some spreadScale =>
        -- the best price of the own side
        let priceRef := if entry.direction > 0 then bestBid else bestAsk
        let qty := entryQty entry notional priceRef shape.scale spreadScale
        if qty ≤ 0 then .skip
        -- the gas is too expensive to trade at all
        else if cfg.gasEmergencyPauseEnabled ∧ cfg.gasEmergencyMaxUsd > 0 ∧
            f64 gasEst ≥ f64 cfg.gasEmergencyMaxUsd then .skip
        else
          -- `min_profit_usd * min_profit_mult`
          let minProfit := profitThreshold cfg env entry priceRef qty
          let edgePerUnit := expectedEdgePerUnit cfg entry priceRef
          let limit := priceLimit cfg env entry priceRef qty
          match entryCandidates cfg entry env.now bestBid bestAsk limit with
          | [] => .noCandidate
          | first :: rest =>
            match bumpQty cfg notional first qty with
            | none => .skip
            | some qty =>
              -- `min_profit` is that of the quantity before the bump
              if F64.mul edgePerUnit qty < minProfit then .skip else .place qty first rest
  | _, _ => .skip

/-- The quantity is only raised, and only to a positive one. -/
theorem bumpQty_pos {cfg : TradeConfig} {notional entryPrice qty qty' : ℚ} (hqty : 0 < qty)
    (h : bumpQty cfg notional entryPrice qty = some qty') : 0 < qty' := by
  simp only [bumpQty] at h
  split at h
  · split at h
    · rename_i hmin
      cases h
      exact hmin.1
    · cases h
  · cases h
    exact hqty

/-- What is placed has a positive quantity and positive prices. -/
theorem entryDecision_place {cfg : TradeConfig} {env : Env} {entry : PendingEntry}
    {shape : BookShape} {notional qty first : ℚ} {rest : List ℚ}
    (h : entryDecision cfg env entry shape notional = .place qty first rest) :
    0 < qty ∧ ∀ price ∈ first :: rest, 0 < price := by
  simp only [entryDecision] at h
  split at h
  · split at h
    · cases h
    · split at h
      · cases h
      · generalize (if entry.direction > 0 then _ else _ : ℚ) = priceRef at h
        split at h
        · cases h
        · rename_i hqty
          split at h
          · cases h
          · split at h
            · cases h
            · rename_i hcand
              split at h
              · cases h
              · rename_i hbump
                -- whatever the edge is, what is placed was built before
                split at h
                · cases h
                · cases h
                  refine ⟨bumpQty_pos (not_le.mp hqty) hbump, ?_⟩
                  intro price hmem
                  apply entryCandidates_pos cfg entry env.now
                  rw [hcand]
                  exact hmem
  · cases h

/-- The order part after an entry has been decided on, before it is sent. -/
def OrderState.placing (o : OrderState) (entry : PendingEntry) (qty price : ℚ) : OrderState :=
  { o with
    state := .entryPlacing
    direction := entry.direction
    entryPrice := some price
    entryQty := some qty
    entryNotional := some (price * qty)
    alphaType := some entry.alphaType
    pendingEntry := some entry }

/-- The order part of a dry-run entry. -/
def OrderState.workingDry (o : OrderState) (entry : PendingEntry) (qty price : ℚ) (now : ℤ) :
    OrderState :=
  { o with
    state := .entryWorking
    direction := entry.direction
    entryPrice := some price
    entryQty := some qty
    entryNotional := some (price * qty)
    entryTsMs := some now
    alphaType := some entry.alphaType }

/-- The signal fields that an entry sets. -/
def PairTradeState.markEntry (st : PairTradeState) (entry : PendingEntry) : PairTradeState :=
  { st with
    entryBarSecond := some entry.bar.barSecond
    pmMoveEntry := some entry.pmMove
    pmPeak := some entry.pmMove
    shock := entry.shock
    entryTtlOverrideMs := entry.entryTtlOverrideMs }

/-- The end of `maybe_enter`: reserve the pool, then place or work the order. -/
def placeEntry (setup : Setup) (env : Env) (desk : Desk) (st : PairTradeState)
    (entry : PendingEntry) (qty first : ℚ) (rest : List ℚ) : Desk × PairTradeState :=
  let cfg := setup.cfg
  let second := entry.bar.barSecond
  let reserved := first * qty
  -- the pool is reserved before the order is sent
  let risk := desk.books.risk.reserveEntryPool cfg second reserved
  if setup.isLive then
    let st :=
      { st.markEntry entry with toOrderState := st.toOrderState.placing entry qty first }
    match desk.req.enqueuePlaceChase setup env entry.key (entrySide entry.direction) qty
        (first :: rest) "E" with
    | (req, some id) =>
      ({ desk with req := req, books := { desk.books with risk := risk } },
        { st with entryPlaceReqId := some id })
    | (req, none) =>
      -- the executor is gone: the pool is given back
      ({ desk with
          req := req
          books := { desk.books with risk := risk.releaseEntryPool cfg second reserved } },
        st.enterCooldown second cfg.cooldownAfterPostonlyRejectMs)
  else
    -- a dry run works the entry at once
    ({ desk with
        books := ({ desk.books with risk := risk } : Books).addExposure
          (entry.bar.pairId, entry.bar.tokenSide, entry.direction) reserved entry.alphaType },
      { st.markEntry entry with
        toOrderState := st.toOrderState.workingDry entry qty first env.now })

/-- `maybe_enter`. -/
def maybeEnter (setup : Setup) (env : Env) (desk : Desk) (st : PairTradeState)
    (entry : PendingEntry) (poolOverride : Option ℚ) : Desk × PairTradeState :=
  let cfg := setup.cfg
  let bar := entry.bar
  -- `per_pair_min_interval_ms`
  let tooSoon : Bool :=
    decide (cfg.perPairMinIntervalMs > 0) &&
      ((st.lastEntryAttemptMs.map fun last =>
        decide (env.now - last < cfg.perPairMinIntervalMs)).getD false)
  if tooSoon then (desk, st)
  else
    -- the attempt counts, whatever becomes of it
    let st := { st with lastEntryAttemptMs := some env.now }
    let opiMidOk := (entry.opiMid.map fun v => decide (v > 0)).getD false
    if entry.direction = 0 ∨ opiMidOk = false then (desk, st)
    else
      match (bookShape cfg bar entry.direction).filter fun shape => decide (shape.scale > 0) with
      | none => (desk, st)
      | some shape =>
        match desk.books.budgetForEntry cfg (bar.pairId, bar.tokenSide, entry.direction)
            bar.barSecond poolOverride entry.alphaType with
        -- asking for the budget may reset the pool
        | (books, none) => ({ desk with books := books }, st)
        | (books, some notional) =>
          let desk := { desk with books := books }
          match entryDecision cfg env entry shape notional with
          | .skip => (desk, st)
          | .noCandidate =>
            (desk, st.enterCooldown bar.barSecond cfg.cooldownAfterPostonlyRejectMs)
          | .place qty first rest => placeEntry setup env desk st entry qty first rest

end AlphaMonitor.Trade
