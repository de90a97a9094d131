import AlphaMonitor.Trade.State
import Mathlib.Algebra.Order.Field.Rat

/-!
# Signals of a bar

What the engine reads off a pair bar: prices with their fallbacks, the shape of
the Opinion book, shocks, and from these the reason to cancel a working entry or
to hurry an exit.
-/

namespace AlphaMonitor.Trade

/-! ## Prices -/

/-- `opi_best_bid_from_bar`. -/
-- the carried-over price comes before the bar's own
def opiBestBidFromBar (bar : Bars1sPair) : Option ℚ := bar.opiBestBidState.or bar.opiBestBid

/-- `opi_best_ask_from_bar`. -/
def opiBestAskFromBar (bar : Bars1sPair) : Option ℚ := bar.opiBestAskState.or bar.opiBestAsk

/-- `pm_mid_from_bar`. -/
def pmMidFromBar (bar : Bars1sPair) : Option ℚ := bar.polyMidState.or bar.polyMid

/-- The mid of two positive prices. -/
def midOf (bid ask : Option ℚ) : Option ℚ :=
  match bid, ask with
  | some bid, some ask => if bid > 0 ∧ ask > 0 then some ((bid + ask) / 2) else none
  | _, _ => none

/-- `opi_mid_from_bar`. -/
def opiMidFromBar (bar : Bars1sPair) : Option ℚ :=
  -- then the middle of the book, then the last trade
  ((bar.opiMidState.or bar.opiMid).or
    (midOf (opiBestBidFromBar bar) (opiBestAskFromBar bar))).or bar.opiLastPrice

/-- `opi_spread_bps_from_bar`. -/
def opiSpreadBpsFromBar (bar : Bars1sPair) (opiMid : Option ℚ) : Option ℚ :=
  match opiMid, opiBestBidFromBar bar, opiBestAskFromBar bar with
  | some mid, some bid, some ask =>
    if mid ≤ 0 then none
    else if bid ≤ 0 ∨ ask ≤ 0 then none
    else some ((ask - bid) / mid * 10000)
  | _, _, _ => none

/-- The first three levels of one side of the book. -/
-- without a first level nothing is known of the others
def topThree (l1 l2 l3 : Option ℚ) : Option ℚ := l1.map fun v => v + l2.getD 0 + l3.getD 0

def opiBidL3 (bar : Bars1sPair) : Option ℚ :=
  topThree bar.opiBidL1Notional bar.opiBidL2Notional bar.opiBidL3Notional

def opiAskL3 (bar : Bars1sPair) : Option ℚ :=
  topThree bar.opiAskL1Notional bar.opiAskL2Notional bar.opiAskL3Notional

/-- Relative difference of two amounts with a positive sum. -/
def imbalanceOf (bid ask : Option ℚ) : Option ℚ :=
  match bid, ask with
  | some bid, some ask => if bid + ask > 0 then some ((bid - ask) / (bid + ask)) else none
  | _, _ => none

/-! ## Opinion signals -/

/-- The fields of `OpiDerived` that the cancel rules read. -/
structure OpiDerived where
  (mid spreadBps midRetBps1s bidDelta askDelta : Option ℚ)
  (imbalanceL1 imbalanceL3 : Option ℚ)
  (takerBuyNotional1s takerSellNotional1s tradeImbalance1s : Option ℚ)
  deriving DecidableEq, Repr

/-- `derive_opi_signals`. -/
def deriveOpiSignals (st : PairTradeState) (bar : Bars1sPair) : OpiDerived :=
  let mid := opiMidFromBar bar
  -- changes only count between neighbouring seconds without a gap
  let deltaOk : Bool := bar.barGapFlag = 0 ∧ bar.opiBarGapFlag = 0 ∧
    st.lastOpiBarSecond = some (bar.barSecond - 1)
  let delta (prev cur : Option ℚ) : Option ℚ :=
    match prev, cur with
    | some prev, some cur => if deltaOk then some (cur - prev) else none
    | _, _ => none
  { mid := mid
    spreadBps := opiSpreadBpsFromBar bar mid
    midRetBps1s :=
      match st.lastOpiMid, mid with
      | some prev, some cur =>
        if deltaOk ∧ prev > 0 then some ((cur - prev) / prev * 10000) else none
      | _, _ => none
    bidDelta := delta st.lastOpiBidL3 (opiBidL3 bar)
    askDelta := delta st.lastOpiAskL3 (opiAskL3 bar)
    imbalanceL1 := imbalanceOf bar.opiBidL1Notional bar.opiAskL1Notional
    imbalanceL3 := imbalanceOf (opiBidL3 bar) (opiAskL3 bar)
    takerBuyNotional1s := bar.opiTakerBuyNotional1s
    takerSellNotional1s := bar.opiTakerSellNotional1s
    tradeImbalance1s := imbalanceOf bar.opiTakerBuyNotional1s bar.opiTakerSellNotional1s }

/-- `update_opi_snapshot`. -/
def PairTradeState.updateOpiSnapshot (st : PairTradeState) (bar : Bars1sPair) : PairTradeState :=
  let mid := opiMidFromBar bar
  let spreadBps := opiSpreadBpsFromBar bar mid
  let updated : Bool := mid.isSome ∨ spreadBps.isSome ∨ bar.opiBidL1Notional.isSome ∨
    bar.opiAskL1Notional.isSome ∨ (opiBidL3 bar).isSome ∨ (opiAskL3 bar).isSome
  -- an absent value leaves the last one in place
  { st with
    lastOpiMid := mid.or st.lastOpiMid
    lastOpiSpreadBps := spreadBps.or st.lastOpiSpreadBps
    lastOpiBidL1 := bar.opiBidL1Notional.or st.lastOpiBidL1
    lastOpiAskL1 := bar.opiAskL1Notional.or st.lastOpiAskL1
    lastOpiBidL3 := (opiBidL3 bar).or st.lastOpiBidL3
    lastOpiAskL3 := (opiAskL3 bar).or st.lastOpiAskL3
    lastOpiBarSecond := if updated then some bar.barSecond else st.lastOpiBarSecond }

@[simp] theorem PairTradeState.updateOpiSnapshot_toOrderState (st : PairTradeState)
    (bar : Bars1sPair) : (st.updateOpiSnapshot bar).toOrderState = st.toOrderState := rfl

@[simp] theorem PairTradeState.updateOpiSnapshot_lastBar (st : PairTradeState)
    (bar : Bars1sPair) : (st.updateOpiSnapshot bar).lastBar = st.lastBar := rfl

/-! ## Book shape -/

structure BookShape where
  (decay support scale : ℚ)
  deriving DecidableEq, Repr

/-- `book_shape`. -/
def bookShape (cfg : TradeConfig) (bar : Bars1sPair) (direction : ℤ) : Option BookShape :=
  -- the own side of the book
  let levels :=
    if direction > 0 then (bar.opiBidL1Notional, bar.opiBidL2Notional, bar.opiBidL3Notional)
    else (bar.opiAskL1Notional, bar.opiAskL2Notional, bar.opiAskL3Notional)
  levels.1.bind fun n1 =>
    let n2 := levels.2.1.getD 0
    let n3 := levels.2.2.getD 0
    if n1 ≤ 0 then none
    else
      -- how far the second level falls off, and what stands behind the first
      let decay := max ((n1 - n2) / n1) 0
      let support := max ((n2 + n3) / n1) 0
      -- blocked: the shape is known, its scale is zero
      if decay > cfg.bookDecayBlock ∨ support < cfg.bookSupportBlock then
        some ⟨decay, support, 0⟩
      else
        let scale₁ : ℚ :=
          if decay > cfg.bookDecayScale then min 1 (1 - 2 * (decay - cfg.bookDecayScale)) else 1
        let scale₂ :=
          if support < cfg.bookSupportScale then min scale₁ (support / cfg.bookSupportScale)
          else scale₁
        let scale₃ := if scale₂ < cfg.bookScaleMin then cfg.bookScaleMin else scale₂
        -- never more than the full quantity
        some ⟨decay, support, if scale₃ > 1 then 1 else scale₃⟩

/-- The book is unknown or blocked. -/
def bookBad (cfg : TradeConfig) (bar : Bars1sPair) (direction : ℤ) : Bool :=
  match bookShape cfg bar direction with
  | some shape => decide (shape.scale ≤ 0)
  | none => true

/-! ## Shocks -/

/-- `shock_allowed`. -/
def shockAllowed (cfg : TradeConfig) (s : ShockSignal) : Bool :=
  !(cfg.alphaARequireNoiseZero && s.noiseFlag != 0) &&
    (cfg.alphaAAllowedShockTypes.isEmpty || cfg.alphaAAllowedShockTypes.contains s.shockType)

/-- `reverse_shock_active` on the shocks of the pair. -/
def reverseShockActive (cfg : TradeConfig) (signals : List ShockSignal) (barSecond : ℤ)
    (direction : ℤ) : Bool :=
  -- a shock that is recent, allowed and against the position
  signals.any fun s =>
    decide (barSecond - s.triggerBarSecond ≤ max cfg.alphaAMaxAgeS 0) && shockAllowed cfg s &&
      decide (s.direction = -direction)

/-- `handle_shock` on the shocks of the pair. -/
def recordShock (cfg : TradeConfig) (signals : List ShockSignal) (s : ShockSignal) :
    List ShockSignal :=
  -- recorded with the new one, those too old for it dropped
  let kept := (signals ++ [s]).filter fun old =>
    decide (s.triggerBarSecond - old.triggerBarSecond ≤ max cfg.alphaAMaxAgeS 0)
  -- at most the last 50
  kept.drop (kept.length - 50)

/-! ## Polymarket flow against a direction -/

/-- `retrace_ratio`. -/
def retraceRatio (pmMove : ℚ) (peak : Option ℚ) (direction : ℤ) : Option ℚ :=
  peak.bind fun peak =>
    -- without a peak there is nothing to retrace
    if |peak| ≤ 1 / 1000000000 then none
    else some (if direction > 0 then (peak - pmMove) / |peak| else (pmMove - peak) / |peak|)

/-- The move of the Polymarket book that `check_entry` and `check_exit` both watch. -/
structure PmFlow where
  (pmMove pmMom ofiValue : ℚ)
  deriving DecidableEq, Repr

/-- `ofi_low_trigger` and `ofi_med_trigger`. -/
def ofiTrigger (level ofiValue : ℚ) (direction : ℤ) : Bool :=
  if direction > 0 then decide (ofiValue ≤ level) else decide (ofiValue ≥ -level)

/-- `aggressive_flow`. -/
def aggressiveFlow (cfg : TradeConfig) (bar : Bars1sPair) (flow : PmFlow) (direction : ℤ) : Bool :=
  let buyNotional := bar.polyBuyNotional250ms.getD 0
  let sellNotional := bar.polySellNotional250ms.getD 0
  let maxTrade := bar.polyMaxTradeNotional250ms.getD 0
  let bidDelta := bar.polyBidDeltaNotional250ms.getD 0
  let askDelta := bar.polyAskDeltaNotional250ms.getD 0
  let midSlope := bar.polyMidSlope250ms.getD 0
  let ofiLow := ofiTrigger cfg.ofiCancelLow flow.ofiValue direction
  let momBad := if direction > 0 then decide (flow.pmMom < 0) else decide (flow.pmMom > 0)
  let slopeAgainst := if direction > 0 then decide (midSlope < 0) else decide (midSlope > 0)
  -- what was added on the side against the position
  let added := if direction > 0 then askDelta else bidDelta
  decide (maxTrade ≥ cfg.tradeCancelUsd) ||
    (decide (direction > 0) && decide (sellNotional ≥ cfg.tradeCancelUsd)) ||
    (decide (direction < 0) && decide (buyNotional ≥ cfg.tradeCancelUsd)) ||
    (ofiLow && (momBad || slopeAgainst)) ||
    (decide (added ≥ cfg.askAddUsd) && ofiLow)

/-- `bid_withdraw`. -/
def bidWithdraw (cfg : TradeConfig) (bar : Bars1sPair) (flow : PmFlow) (direction : ℤ) : Bool :=
  let bidDelta := bar.polyBidDeltaNotional250ms.getD 0
  let askDelta := bar.polyAskDeltaNotional250ms.getD 0
  -- what was taken from the side that supports it
  let withdrawn := if direction > 0 then bidDelta else askDelta
  decide (withdrawn ≤ -cfg.bidWithdrawUsd) && ofiTrigger cfg.ofiCancelMed flow.ofiValue direction

/-! ## Reasons to cancel a working entry -/

/-- The value lies on the wrong side of a bound for the direction. -/
-- both signs matter, a direction of zero has no side
def against (direction : ℤ) (value bound : ℚ) : Bool :=
  (decide (direction > 0) && decide (value ≤ -bound)) ||
    (decide (direction < 0) && decide (value ≥ bound))

/-- `opi_cancel_reason`: the first of the Opinion rules that holds. -/
def opiCancelReason (cfg : TradeConfig) (entryPrice : Option ℚ) (sig : OpiDerived)
    (direction : ℤ) : Option CancelReason :=
  let holds (value : Option ℚ) (p : ℚ → Bool) : Bool := (value.map p).getD false
  let edgeBps : Option ℚ :=
    match entryPrice, sig.mid with
    | some entry, some mid =>
      if mid > 0 then
        some (if direction > 0 then (mid - entry) / mid * 10000 else (entry - mid) / mid * 10000)
      else none
    | _, _ => none
  if holds sig.midRetBps1s (against direction · cfg.opiMidRetCancelBps) then some .opiMidRet
  else if holds sig.spreadBps (fun v => decide (v ≤ cfg.opiSpreadBpsMin)) then some .opiSpread
  else if holds edgeBps (fun v => decide (v ≤ cfg.opiEdgeMinBps)) then some .opiEdge
  else if holds (sig.imbalanceL1.or sig.imbalanceL3)
      (against direction · cfg.opiImbalanceCancel) then some .opiImbalance
  else if
      -- the book's two sides change places with the direction
      (if direction > 0 then
        holds sig.bidDelta (fun v => decide (v ≤ -cfg.opiBidWithdrawUsd)) ||
          holds sig.askDelta (fun v => decide (v ≥ cfg.opiAskAddUsd))
      else
        holds sig.bidDelta (fun v => decide (v ≥ cfg.opiAskAddUsd)) ||
          holds sig.askDelta (fun v => decide (v ≤ -cfg.opiBidWithdrawUsd))) then
    some .opiDepthFlow
  else if
      (if direction > 0 then
        decide (sig.takerSellNotional1s.getD 0 ≥ cfg.opiTakerSellCancelUsd) ||
          holds sig.tradeImbalance1s (fun v => decide (v ≤ -cfg.opiTradeImbalanceCancel))
      else
        decide (sig.takerBuyNotional1s.getD 0 ≥ cfg.opiTakerBuyCancelUsd) ||
          holds sig.tradeImbalance1s (fun v => decide (v ≥ cfg.opiTradeImbalanceCancel))) then
    some .opiTakerFlow
  else none

/-- `alpha_decay_reason`. -/
def alphaDecayReason (cfg : TradeConfig) (st : PairTradeState) (pmMom : ℚ) :
    Option CancelReason :=
  let tiny : ℚ := 1 / 1000000000000
  let overShock : Bool :=
    match st.shock with
    | some shock =>
      -- the momentum is measured against the shock
      decide (st.alphaType = some .shockA) && decide (cfg.entryCancelShockMomRatioMin > 0) &&
        decide (max |pmMom| (max cfg.entryCancelMomFloor tiny) /
          max |shock.magnitude| (max cfg.entryCancelShockFloor tiny) <
            cfg.entryCancelShockMomRatioMin)
    | none => false
  let decayed : Bool :=
    match st.pmMomEntry with
    | some entryMom =>
      -- or against the momentum of the entry
      let momFloor := max cfg.entryCancelMomFloor tiny
      decide (cfg.entryCancelMomDecayMin > 0) &&
        decide (max |pmMom| momFloor / max |entryMom| momFloor < cfg.entryCancelMomDecayMin)
    | none => false
  if overShock then some .alphaDecayMomOverShock
  else if decayed then some .alphaDecayMomEntry
  else none

/-- `opi_fresh`. -/
def opiFresh (cfg : TradeConfig) (bar : Bars1sPair) : Bool :=
  decide (bar.opiBarGapFlag = 0) &&
    ((bar.opiStalenessMs.map fun s => decide (s ≤ cfg.opiCancelStalenessMs)).getD false)

/-- `cancel_reason` of `check_entry`: the rules in the order of their priority. -/
def entryCancelReason (cfg : TradeConfig) (signals : List ShockSignal) (st : PairTradeState)
    (bar : Bars1sPair) (flow : PmFlow) : Option CancelReason :=
  let direction := st.direction
  let retraced :=
    ((retraceRatio flow.pmMove st.pmPeak direction).map
      fun ratio => decide (ratio ≥ cfg.retraceCancel)).getD false
  -- only an entry on a shock fears the reverse one
  if st.alphaType = some .shockA ∧
      reverseShockActive cfg signals bar.barSecond direction = true then some .reverseShock
  else
    (alphaDecayReason cfg st flow.pmMom).or <|
      if aggressiveFlow cfg bar flow direction then some .aggressiveFlow
      else if retraced then some .retraceCancel
      else if bidWithdraw cfg bar flow direction then some .bidWithdraw
      else
        -- the Opinion rules need a fresh Opinion bar
        (if opiFresh cfg bar then
          opiCancelReason cfg st.entryPrice (deriveOpiSignals st bar) direction
        else none).or <|
          if bookBad cfg bar direction then some .bookShapeDeterioration else none

/-- `exit_reason` of `check_exit`. -/
def exitReason (cfg : TradeConfig) (signals : List ShockSignal) (st : PairTradeState)
    (bar : Bars1sPair) (flow : PmFlow) (ttlExpired : Bool) : Option CancelReason :=
  let direction := st.direction
  let retraceHit :=
    ((retraceRatio flow.pmMove st.pmPeak direction).map
      fun ratio => decide (ratio ≥ cfg.retraceExit)).getD false
  if st.alphaType = some .shockA ∧
      reverseShockActive cfg signals bar.barSecond direction = true then some .reverseShock
  else if aggressiveFlow cfg bar flow direction then some .aggressiveFlow
  else if retraceHit then some .retraceExit
  else if bidWithdraw cfg bar flow direction then some .bidWithdraw
  else if bookBad cfg bar direction then some .bookShapeDeterioration
  -- the time to live comes last
  else if ttlExpired then some .ttl
  else none

/-- `is_bar_fresh`. -/
def isBarFresh (cfg : TradeConfig) (bar : Bars1sPair) : Bool :=
  -- the widest of the staleness bounds
  let maxOpiStale := max (max cfg.alphaAOpiStaleMaxMs cfg.alphaBOpiStaleMaxMs) cfg.signalStalenessMs
  ((bar.polyStalenessMs.map fun s => decide (s ≤ cfg.signalStalenessMs)).getD false) &&
    ((bar.opiStalenessMs.map fun s => decide (s ≤ maxOpiStale)).getD false)

end AlphaMonitor.Trade
