import AlphaMonitor.Models
import Mathlib.Algebra.Order.Field.Rat

/-!
# Building a pair bar

`build_bar_with_context` turns the two halves of a bucket into a row.  The raw
columns are copied from the halves; the other columns combine them with the fee
and gas context and with the pair's rolling statistics.

The rolling statistics (windowed sums, correlations of log returns and the lag
estimate) are an input here: they come from earlier bars of the pair and no raw
column depends on them.
-/

namespace AlphaMonitor.Pair

/-- The halves of one second that have arrived so far. -/
structure PairBucket where
  pm : Option PairInput
  opi : Option PairInput
  deriving DecidableEq, Repr

def PairBucket.empty : PairBucket := ⟨none, none⟩

/-- Fees and gas at the bar's second. -/
structure BuildContext where
  (feeBpsPolymarket feeBpsOpinion : ℤ)
  gasCost : Option ℚ
  congestionFlag : ℤ
  deriving DecidableEq, Repr

/-- What the pair's history contributes to a bar. -/
structure RollingStats where
  (polyCvd30s buy30 sell30 : Option ℚ)
  rollingCorr5m : Option ℚ
  corrSamples5m : ℤ
  beta1m : Option ℚ
  estimatedLagS : Option ℤ
  lagConfidence : Option ℚ
  deriving DecidableEq, Repr

/-! ## Raw columns -/

/-- The columns that `build_bar_with_context` copies from the halves. -/
def rawColumns (pm opi : Option PairInput) : RawColumns where
  polyStalenessMs := pm.bind (·.stalenessMs)
  opiStalenessMs := opi.bind (·.stalenessMs)
  polyBestBid := pm.bind (·.bestBid)
  polyBestAsk := pm.bind (·.bestAsk)
  polyMid := pm.bind (·.mid)
  polyMicro := pm.bind (·.micro)
  polyBestBidState := pm.bind fun v => v.bestBidState.or v.bestBid
  polyBestAskState := pm.bind fun v => v.bestAskState.or v.bestAsk
  polyMidState := pm.bind fun v => v.midState.or v.mid
  opiBestBid := opi.bind (·.bestBid)
  opiBestAsk := opi.bind (·.bestAsk)
  opiMid := opi.bind (·.mid)
  opiBestBidState := opi.bind fun v => v.bestBidState.or v.bestBid
  opiBestAskState := opi.bind fun v => v.bestAskState.or v.bestAsk
  opiMidState := opi.bind fun v => v.midState.or v.mid
  opiLastPrice := opi.bind (·.lastPrice)
  opiTakerBuyNotional1s := opi.map (·.buyNotional1s)
  opiTakerSellNotional1s := opi.map (·.sellNotional1s)
  opiMicro := opi.bind (·.micro)
  opiBidL1Notional := opi.bind (·.bidL1Notional)
  opiBidL2Notional := opi.bind (·.bidL2Notional)
  opiBidL3Notional := opi.bind (·.bidL3Notional)
  opiAskL1Notional := opi.bind (·.askL1Notional)
  opiAskL2Notional := opi.bind (·.askL2Notional)
  opiAskL3Notional := opi.bind (·.askL3Notional)
  polyOfi250ms := pm.map (·.ofi250ms)
  polyBuyNotional1s := pm.map (·.buyNotional1s)
  polySellNotional1s := pm.map (·.sellNotional1s)
  polyMaxTradeNotional1s := pm.map (·.maxTradeNotional1s)
  polyBuyNotional250ms := pm.map (·.buyNotional250ms)
  polySellNotional250ms := pm.map (·.sellNotional250ms)
  polyMaxTradeNotional250ms := pm.map (·.maxTradeNotional250ms)
  polyBidDeltaNotional250ms := pm.map (·.bidDeltaNotional250ms)
  polyAskDeltaNotional250ms := pm.map (·.askDeltaNotional250ms)
  polyMidSlope250ms := pm.bind (·.midSlope250ms)
  polyObsLatencyP99Ms := pm.bind (·.obsLatencyP99Ms)
  opiObsLatencyP99Ms := opi.bind (·.obsLatencyP99Ms)

/-! ## Spreads and flags -/

/-- Difference of two optional prices. -/
def gap (bid ask : Option ℚ) : Option ℚ :=
  match bid, ask with
  | some bid, some ask => some (bid - ask)
  | _, _ => none

/-- Net result of selling at `bid` and buying at `ask`, each with its fee. -/
def netSpread (bid ask : Option ℚ) (bidFee askFee gas : ℚ) : Option ℚ :=
  match bid, ask with
  | some bid, some ask => some (bid * (1 - bidFee) - ask * (1 + askFee) - gas)
  | _, _ => none

/-- A Boolean column. -/
def flag (b : Bool) : ℤ := if b then 1 else 0

/-- The gap flag of the Opinion half: a half still missing at bootstrap is no gap. -/
def opiGap (opi : Option PairInput) (opiReady : Bool) : Bool :=
  if opi.isNone ∧ opiReady = false then false else (opi.map (·.barGapFlag)).getD true

def opiStale (opi : Option PairInput) (opiReady : Bool) : Bool :=
  if opi.isNone ∧ opiReady = false then true else (opi.map (·.barStaleFlag)).getD false

/-! ## Book pressure and follow scores -/

/-- The depth of one side: ten levels if known, else the first level. -/
def pmDepthBid (pm : Option PairInput) : Option ℚ :=
  pm.bind fun v => v.top10DepthBid.or v.bidL1Notional

def pmDepthAsk (pm : Option PairInput) : Option ℚ :=
  pm.bind fun v => v.top10DepthAsk.or v.askL1Notional

def pmDepth (pm : Option PairInput) : Option ℚ :=
  match pmDepthBid pm, pmDepthAsk pm with
  | some bid, some ask => some (bid + ask)
  | some bid, none => some bid
  | none, some ask => some ask
  | none, none => none

def pmDepthImbalance (pm : Option PairInput) : Option ℚ :=
  match pmDepthBid pm, pmDepthAsk pm with
  | some bid, some ask => if bid + ask > 0 then some ((bid - ask) / (bid + ask)) else none
  | _, _ => none

def pmPressure250ms (pm : Option PairInput) : Option ℚ :=
  pm.bind fun v =>
    match pmDepth pm with
    | some depth =>
      if depth > 0 then some ((v.bidDeltaNotional250ms - v.askDeltaNotional250ms) / depth) else none
    | none => none

/-- A price difference relative to the mid, in basis points. -/
def bpsOfMid (hi lo mid : Option ℚ) : Option ℚ :=
  match hi, lo, mid with
  | some hi, some lo, some mid => if mid > 0 then some ((hi - lo) / mid * 10000) else none
  | _, _, _ => none

def bookAlphaRaw (pressure imbalance : Option ℚ) : Option ℚ :=
  match pressure, imbalance with
  | some pressure, some imbalance => some (3 / 5 * pressure + 2 / 5 * imbalance)
  | some pressure, none => some pressure
  | none, some imbalance => some imbalance
  | none, none => none

def arbProximity (buy sell : Option ℚ) : Option ℚ :=
  match buy, sell with
  | some buy, some sell => some (-min |buy| |sell|)
  | some buy, none => some (-|buy|)
  | none, some sell => some (-|sell|)
  | none, none => none

/-! ## The row -/

/-- `build_bar_with_context`. -/
def buildBarWithContext (key : BarKey) (bucket : PairBucket) (ctx : BuildContext)
    (stats : RollingStats) (opiReady : Bool) : Bars1sPair :=
  let pm := bucket.pm
  let opi := bucket.opi
  let raw := rawColumns pm opi
  let polyFee : ℚ := ctx.feeBpsPolymarket / 10000
  let opiFee : ℚ := ctx.feeBpsOpinion / 10000
  let gasCostValue := ctx.gasCost.getD 0
  let buyOpinion := netSpread raw.polyBestBidState raw.opiBestAskState polyFee opiFee gasCostValue
  let sellOpinion := netSpread raw.opiBestBidState raw.polyBestAskState opiFee polyFee gasCostValue
  let arbModeFlag := flag (buyOpinion.getD 0 > 0 || sellOpinion.getD 0 > 0)
  let polyGap := (pm.map (·.barGapFlag)).getD true
  let polyStale := (pm.map (·.barStaleFlag)).getD false
  let polyBuySellRatio30s :=
    match stats.buy30, stats.sell30 with
    | some buy, some sell => if sell > 0 then some (buy / sell) else none
    | _, _ => none
  let pricePressureIndex :=
    match stats.polyCvd30s, opi.bind (·.top10DepthAsk) with
    | some cvd, some depth => if depth > 0 then some (cvd / depth) else none
    | _, _ => none
  let stalenessFactor : ℚ :=
    ((opi.bind (·.stalenessMs)).map fun v => min ((v : ℚ) / 1000) 5 / 5).getD 0
  let pmStalenessFactor : ℚ :=
    ((pm.bind (·.stalenessMs)).map fun v => min ((v : ℚ) / 10000) 1).getD 0
  let lagScore := |stats.lagConfidence.getD 0|
  let pressureScore := |pricePressureIndex.getD 0|
  let followScoreRaw := (arbProximity buyOpinion sellOpinion).map fun arb =>
    |arb| * (1 + stalenessFactor) * (1 + pressureScore) * lagScore
  let pmLat : ℚ := (pm.bind (·.obsLatencyP99Ms)).getD 0
  let opiLat : ℚ := (opi.bind (·.obsLatencyP99Ms)).getD 0
  let latencyPenalty := min (max pmLat opiLat / 5000) 1
  let liquidityPenalty : ℚ := (opi.map fun v => if v.liquidityPullFlag = 1 then 1 else 0).getD 0
  let gasPenalty : ℚ := if ctx.congestionFlag = 1 then 1 else 0
  let alphaRaw := bookAlphaRaw (pmPressure250ms pm) (pmDepthImbalance pm)
  { toRawColumns := raw
    pairId := key.1
    tokenSide := key.2.1
    barSecond := key.2.2
    polyBarGapFlag := flag polyGap
    opiBarGapFlag := flag (opiGap opi opiReady)
    barGapFlag := flag (polyGap || opiGap opi opiReady)
    polyBarStaleFlag := flag polyStale
    opiBarStaleFlag := flag (opiStale opi opiReady)
    barStaleFlag := flag (polyStale || opiStale opi opiReady)
    polyFeeBps := some ctx.feeBpsPolymarket
    opiFeeBps := some ctx.feeBpsOpinion
    gasCost := ctx.gasCost
    networkCongestionFlag := ctx.congestionFlag
    grossSpreadBuy := gap raw.polyBestBidState raw.opiBestAskState
    grossSpreadSell := gap raw.opiBestBidState raw.polyBestAskState
    trueNetSpreadBuyOpinion := buyOpinion
    trueNetSpreadSellOpinion := sellOpinion
    arbModeFlag := arbModeFlag
    directionalModeFlag := 1 - arbModeFlag
    polyCvd30s := stats.polyCvd30s
    polyBuySellRatio30s := polyBuySellRatio30s
    pricePressureIndex := pricePressureIndex
    rollingCorr5m := stats.rollingCorr5m
    rollingCorrSamples5m := some stats.corrSamples5m
    estimatedLagS := stats.estimatedLagS
    lagConfidence := stats.lagConfidence
    beta1m := stats.beta1m
    followScoreRaw := followScoreRaw
    followScoreAdj := followScoreRaw.map fun raw =>
      raw * (1 - latencyPenalty) * (1 - liquidityPenalty) * (1 - gasPenalty)
    polyDepthImbalanceTop10 := pmDepthImbalance pm
    polyBookPressure250ms := pmPressure250ms pm
    polySpreadBps := bpsOfMid raw.polyBestAskState raw.polyBestBidState raw.polyMidState
    polyMicroBiasBps := bpsOfMid (pm.bind (·.micro)) raw.polyMidState raw.polyMidState
    bookAlphaRaw := alphaRaw
    bookAlphaAdj := alphaRaw.map fun raw =>
      raw * (1 - pmStalenessFactor) * (1 - latencyPenalty) }

@[simp] theorem buildBarWithContext_key (key : BarKey) (bucket : PairBucket) (ctx : BuildContext)
    (stats : RollingStats) (opiReady : Bool) :
    (buildBarWithContext key bucket ctx stats opiReady).key = key := rfl

/-- The raw columns depend on the two halves alone. -/
@[simp] theorem buildBarWithContext_raw (key : BarKey) (bucket : PairBucket) (ctx : BuildContext)
    (stats : RollingStats) (opiReady : Bool) :
    (buildBarWithContext key bucket ctx stats opiReady).toRawColumns =
      rawColumns bucket.pm bucket.opi := rfl

end AlphaMonitor.Pair
