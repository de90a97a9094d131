import AlphaMonitor.Trade.Entry

/-!
# Working an exit

`check_exit` runs on every bar of an open position and after every entry fill.
It computes the price it wants (`exitPlan`), starts a cancel when the resting
order has to be repriced, and places an exit order when there is none.  In a
live engine the placement is made on the spot, through the exit chase.
-/

namespace AlphaMonitor.Trade

open Lib

/-! ## Target and price -/

/-- `compute_exit_target`: the target price, once price and quantity are known. -/
def computeExitTarget (setup : Setup) (env : Env) (books : Books) (st : PairTradeState)
    (flow : PmFlow) (basePm entryPrice entryQty : ℚ) : ℚ :=
  let cfg := setup.cfg
  -- peak and entry move stand for the present move where they are unset
  let pmPeak := st.pmPeak.getD flow.pmMove
  let pmMoveEntry := st.pmMoveEntry.getD flow.pmMove
  let shockEdge : ℚ :=
    match st.alphaType, st.shock with
    | some .shockA, some shock => cfg.tpA4Shock * shock.magnitude
    | _, _ => 0
  let baseEdge := cfg.tpA1 * flow.pmMove + cfg.tpA2 * (pmPeak - pmMoveEntry) +
    cfg.tpA3 * flow.pmMom + shockEdge
  let feeEst := env.feeBps / 10000 * entryPrice * entryQty * 2
  let minProfitUsd := gasEstUsd cfg env * cfg.gasMult + cfg.gasBufferUsd + feeEst
  let minProfitPerUnit := if entryQty > 0 then minProfitUsd / entryQty else 0
  -- the worth of the moves is turned to the side of the position
  let edge₀ := baseEdge * basePm * st.direction
  -- `max` by size, with the sign of the direction
  let edge := if |edge₀| < minProfitPerUnit then minProfitPerUnit * st.direction else edge₀
  let holdingMs := (st.entryTsMs.map fun ts => max (env.now - ts) 0).getD 0
  let decayPerSec := (st.alphaType.map cfg.alphaDecayPerSec).getD cfg.targetDecayPerSec
  -- at least a tenth of the edge stays
  let decayFactor := max (1 - decayPerSec * (holdingMs / 1000)) (1 / 10)
  let globalCap := max cfg.balanceTotalUsd 1 * cfg.maxGlobalExposureFrac
  let invRatio :=
    if globalCap > 0 then clamp (books.risk.exposureUsed / globalCap) 0 1 else 0
  -- and at least half of it at full inventory
  let invFactor := clamp (1 - cfg.invK * invRatio) (1 / 2) 1
  let targetEdge := edge * decayFactor * invFactor
  let floorEdge := minProfitPerUnit * cfg.targetFloorGasMult * st.direction
  -- the floor where time and inventory have left less
  entryPrice + (if |targetEdge| < |floorEdge| then floorEdge else targetEdge)

/-- What `check_exit` works out before it acts. -/
structure ExitPlan where
  exitPriceTarget : ℚ
  exitReason : Option CancelReason
  exitPrice : ℚ
  (repriceNeeded canReprice : Bool)
  deriving DecidableEq, Repr

/-- The price closest to the target that does not cross the book, in floats. -/
def exitPriceFor (cfg : TradeConfig) (bar : Bars1sPair) (direction : ℤ) (target : ℚ) : ℚ :=
  let target := f64 target
  let offset := F64.mul (max cfg.exitTickOffset 0 : ℤ) cfg.tick
  -- a long position sells just below the best ask
  if direction > 0 then
    let candidate := ((opiBestAskFromBar bar).map (F64.sub · offset)).getD target
    let candidate :=
      match opiBestBidFromBar bar with
      -- but not at the bid or below it
      | some bid => if candidate ≤ f64 bid then F64.add bid cfg.tick else candidate
      | none => candidate
    max candidate target
  -- a short one buys just above the best bid
  else
    let candidate := ((opiBestBidFromBar bar).map (F64.add · offset)).getD target
    let candidate :=
      match opiBestAskFromBar bar with
      | some ask => if candidate ≥ f64 ask then F64.sub ask cfg.tick else candidate
      | none => candidate
    min candidate target

/-- The target that the exit is priced at: any reason but the time to live brings it closer to the
entry. -/
def hurriedTarget (entryPrice target : ℚ) (reason : Option CancelReason) : ℚ :=
  if reason.isSome ∧ reason ≠ some .ttl then
    F64.add entryPrice (F64.mul (F64.sub target entryPrice) (7 / 10))
  else target

/-- The first part of `check_exit`: target, reason, price and whether to reprice. -/
def exitPlan (setup : Setup) (env : Env) (books : Books) (signals : List ShockSignal)
    (st : PairTradeState) (bar : Bars1sPair) (flow : PmFlow) (basePm entryPrice qty : ℚ) :
    ExitPlan :=
  let cfg := setup.cfg
  let target := computeExitTarget setup env books st flow basePm entryPrice qty
  -- a time to live of zero is switched off
  let ttlExpired : Bool :=
    decide (cfg.exitTtlMs > 0) &&
      ((st.lastExitPlaceMs.map fun last => decide (env.now - last ≥ cfg.exitTtlMs)).getD false)
  let reason := exitReason cfg signals st bar flow ttlExpired
  let exitPrice := exitPriceFor cfg bar st.direction (hurriedTarget entryPrice target reason)
  { exitPriceTarget := target
    exitReason := reason
    exitPrice := exitPrice
    repriceNeeded :=
      -- a price that was never placed has to be
      ((st.exitPrice.map fun prev => decide (|F64.sub prev exitPrice| ≥ f64 cfg.tick)).getD true) ||
        ttlExpired
    canReprice :=
      -- not more often than the orders are polled
      (st.lastExitPlaceMs.map fun last =>
        decide (env.now - last ≥ setup.orderPollIntervalMs)).getD true }

/-! ## Placing the exit order -/

/-- The price would rest in the book. -/
def exitMakerOk (bar : Bars1sPair) (direction : ℤ) (price : ℚ) : Bool :=
  if direction > 0 then
    -- an empty side of the book lets every price rest
    ((opiBestBidFromBar bar).map fun bid => decide (price > f64 bid)).getD true
  else ((opiBestAskFromBar bar).map fun ask => decide (price < f64 ask)).getD true

/-- The loop of `exit_candidate_prices`: `n` steps are left, the next one is `idx`. -/
def exitCandidateLoop (bar : Bars1sPair) (direction : ℤ) (basePrice tick : ℚ) (stepTicks : ℤ) :
    ℕ → ℤ → List ℚ
  | 0, _ => []
  | n + 1, idx =>
    let offset := F64.mul tick (stepTicks * idx : ℤ)
    let price := if direction > 0 then F64.add basePrice offset else F64.sub basePrice offset
    -- `break`
    if price ≤ 0 then []
    -- prices that would take are left out
    else if exitMakerOk bar direction price then
      price :: exitCandidateLoop bar direction basePrice tick stepTicks n (idx + 1)
    else exitCandidateLoop bar direction basePrice tick stepTicks n (idx + 1)

/-- `exit_candidate_prices`. -/
def exitCandidatePrices (cfg : TradeConfig) (bar : Bars1sPair) (direction : ℤ) (basePrice : ℚ) :
    List ℚ :=
  if basePrice ≤ 0 then []
  else
    exitCandidateLoop bar direction basePrice cfg.tick (max cfg.chaseStepTicks 1)
      ((max cfg.maxChaseTicks 0).toNat + 1) 0

theorem exitCandidateLoop_pos (bar : Bars1sPair) (direction : ℤ) (basePrice tick : ℚ)
    (stepTicks : ℤ) (n : ℕ) (idx : ℤ) :
    ∀ price ∈ exitCandidateLoop bar direction basePrice tick stepTicks n idx, 0 < price := by
  induction n generalizing idx with
  | zero => simp [exitCandidateLoop]
  | succ n ih =>
    intro price hmem
    simp only [exitCandidateLoop] at hmem
    generalize (if direction > 0 then _ else _ : ℚ) = next at hmem
    split at hmem
    · simp at hmem
    · rename_i hpos
      split at hmem
      · rcases List.mem_cons.mp hmem with rfl | hmem
        · exact not_le.mp hpos
        · exact ih _ price hmem
      · exact ih _ price hmem

theorem exitCandidatePrices_pos (cfg : TradeConfig) (bar : Bars1sPair) (direction : ℤ)
    (basePrice : ℚ) : ∀ price ∈ exitCandidatePrices cfg bar direction basePrice, 0 < price := by
  unfold exitCandidatePrices
  split
  · simp
  · exact exitCandidateLoop_pos bar direction basePrice cfg.tick _ _ _

/-- The side of an order that closes a position held in a direction. -/
def exitSide (direction : ℤ) : OrderSide := if direction > 0 then .sell else .buy

/-- Place the exit order: `last_exit_place_ms` is set either way; the ids and the
price only if the chase reports an order. -/
def placeExit (setup : Setup) (env : Env) (desk : Desk) (st : PairTradeState) (bar : Bars1sPair)
    (pairKey : PairKey) (exitPrice qty : ℚ) : Desk × PairTradeState :=
  -- the time of the attempt counts, even if nothing is placed
  let st := { st with lastExitPlaceMs := some env.now }
  -- the orders go out from the engine itself
  let (result, calls) := placeExitWithChase env.lower (setup.orderTargets pairKey).isSome
    setup.opinionClient (bar.pairId, bar.tokenSide) (exitSide st.direction) qty
    setup.cfg.orderClientPrefix env.clock (env.exitReplies pairKey)
    (exitCandidatePrices setup.cfg bar st.direction exitPrice)
  let desk := { desk with exitCalls := desk.exitCalls ++ calls.map fun call => (pairKey, call) }
  -- the chase reports the order that stands
  match result.order with
  | some order =>
    (desk, { st with
      exitOrderId := some order.orderId
      exitClientId := order.clientOrderId.or result.clientIdUsed
      exitPrice := result.priceUsed.or st.exitPrice })
  | none => (desk, st)

/-! ## Closing -/

/-- The exposure key of the pair for a direction. -/
def exposureKey (pairKey : PairKey) (direction : ℤ) : ExposureKey :=
  (pairKey.1, pairKey.2, direction)

/-- Take `entry_notional` and release it. -/
def releaseEntryNotional (books : Books) (st : PairTradeState) (key : ExposureKey) :
    Books × PairTradeState :=
  match st.entryNotional with
  | some notional =>
    -- the exposure is released under the alpha type of the entry
    (books.releaseExposure key notional (st.alphaType.getD .gapB), { st with entryNotional := none })
  | none => (books, st)

/-- Release the position and wait: the end of every exit fill. -/
def closePosition (cfg : TradeConfig) (desk : Desk) (st : PairTradeState) (bar : Bars1sPair)
    (key : ExposureKey) : Desk × PairTradeState :=
  let (books, st) := releaseEntryNotional desk.books st key
  ({ desk with books := books }, st.enterCooldown bar.barSecond cfg.cooldownAfterExitMs)

/-- The dry-run fill of `check_exit`. -/
def paperExitFilled (bar : Bars1sPair) (direction : ℤ) (exitPrice : ℚ) : Bool :=
  -- a sale is filled at the bid, a purchase at the ask
  let fillPrice :=
    if direction > 0 then
      ((opiBestBidFromBar bar).or bar.opiLastPrice).or (opiMidFromBar bar)
    else ((opiBestAskFromBar bar).or bar.opiLastPrice).or (opiMidFromBar bar)
  match fillPrice with
  | some price =>
    (decide (direction = 1) && decide (price ≥ exitPrice)) ||
      (decide (direction = -1) && decide (price ≤ exitPrice))
  | none => false

/-! ## `check_exit` -/

/-- The live branch of `check_exit` while an exit cancel is pending. -/
def exitAwaitCancel (setup : Setup) (env : Env) (desk : Desk) (st : PairTradeState)
    (pairKey : PairKey) : Desk × PairTradeState :=
  let (req, st) := desk.req.maybeEnqueueExitCancel env st
  if st.exitPlaceReqId.isSome then ({ desk with req := req }, st)
  else
    -- a fill may still come before the cancel
    let (req, st) := req.maybeEnqueueFillPoll setup env st pairKey .exit
    ({ desk with req := req }, st)

/-- The live branch that asks for the resting exit order to be cancelled. -/
def exitStartCancel (setup : Setup) (env : Env) (desk : Desk) (st : PairTradeState)
    (pairKey : PairKey) (reason : CancelReason) : Desk × PairTradeState :=
  let st :=
    -- the first reason stays
    if st.exitCancelPending then st
    else { st with exitCancelPending := true, exitCancelReason := some reason }
  let (req, st) := desk.req.maybeEnqueueExitCancel env st
  let (req, st) := req.maybeEnqueueFillPoll setup env st pairKey .exit
  ({ desk with req := req }, st)

/-- The live end of `check_exit`. -/
def exitPoll (setup : Setup) (env : Env) (desk : Desk) (st : PairTradeState)
    (pairKey : PairKey) : Desk × PairTradeState :=
  if st.exitPlaceReqId.isSome then (desk, st)
  else
    let (req, st) := desk.req.maybeEnqueueFillPoll setup env st pairKey .exit
    ({ desk with req := req }, st)

/-- The placements of `check_exit`: once for a working exit without an order,
once when the position starts to be worked. -/
def exitPlacements (setup : Setup) (env : Env) (desk : Desk) (st : PairTradeState)
    (bar : Bars1sPair) (pairKey : PairKey) (plan : ExitPlan) (qty : ℚ) : Desk × PairTradeState :=
  let live := setup.isLive
  -- a working exit without an order: it was refused or cancelled
  let needsExitOrder : Bool :=
    decide (st.state = .exitWorking) && st.exitOrderId.isNone && st.exitClientId.isNone
  let (desk, st) :=
    if live = true ∧ needsExitOrder = true ∧ plan.canReprice = true then
      placeExit setup env desk st bar pairKey plan.exitPrice qty
    else (desk, st)
  -- the position is worked from now on
  if st.state = .exitWorking then (desk, st)
  else
    let st := { st with state := .exitWorking }
    if live then placeExit setup env desk st bar pairKey plan.exitPrice qty else (desk, st)

/-- `check_exit`. -/
def checkExit (setup : Setup) (env : Env) (signals : List ShockSignal) (desk : Desk)
    (st : PairTradeState) (bar : Bars1sPair) (flow : PmFlow) (basePm : ℚ) (pairKey : PairKey) :
    Desk × PairTradeState :=
  match st.entryPrice, st.entryQty with
  | some entryPrice, some qty =>
    let plan := exitPlan setup env desk.books signals st bar flow basePm entryPrice qty
    -- target and price are noted whatever happens next
    let st :=
      { st with exitPriceTarget := some plan.exitPriceTarget, exitPrice := some plan.exitPrice }
    -- wait for the response before anything is placed
    if setup.isLive ∧ st.exitCancelPending = true then exitAwaitCancel setup env desk st pairKey
    else if setup.isLive ∧ st.state = .exitWorking ∧ plan.repriceNeeded = true ∧
        plan.canReprice = true ∧ st.exitPlaceReqId = none ∧
        (st.exitOrderId.isSome ∨ st.exitClientId.isSome) then
      -- a price change alone is the reason `reprice`
      exitStartCancel setup env desk st pairKey (plan.exitReason.getD .reprice)
    else
      let (desk, st) := exitPlacements setup env desk st bar pairKey plan qty
      -- live positions are closed by fills, dry ones by the bar
      if setup.isLive then exitPoll setup env desk st pairKey
      else if paperExitFilled bar st.direction plan.exitPrice then
        closePosition setup.cfg desk st bar (exposureKey pairKey st.direction)
      else (desk, st)
  | _, _ => (desk, st)

end AlphaMonitor.Trade
