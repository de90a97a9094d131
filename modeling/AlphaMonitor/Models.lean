import Mathlib.Data.Rat.Defs
import Mathlib.Data.Rat.Floor

/-!
# Shared data types

The types that the pair aggregator, the writer and the trade engine exchange.
Prices and sizes are rationals, times are integers in the unit of the source
field (`…Ms` in milliseconds, `barSecond` in seconds).
-/

namespace AlphaMonitor

/-- The side of a pair's market that a token belongs to. -/
inductive TokenSide where
  | yes
  | no
  | unknown
  deriving DecidableEq, Repr, Inhabited

/-- The text that the source prints for a side. -/
def TokenSide.asStr : TokenSide → String
  | .yes => "YES"
  | .no => "NO"
  | .unknown => "UNKNOWN"

/-- The two venues of a pair. -/
inductive Venue where
  | polymarket
  | opinion
  deriving DecidableEq, Repr

/-- `f64::round` to an integer: halves go away from zero. -/
def roundHalfAway (q : ℚ) : ℤ := if 0 ≤ q then ⌊q + 1 / 2⌋ else -⌊-q + 1 / 2⌋

/-- The key of every per-pair map: pair id and token side. -/
abbrev PairKey := ℤ × TokenSide

/-! ## Token bars as the pair aggregator receives them -/

/-- One second of one venue's token, for one pair. -/
structure PairInput where
  pairId : ℤ
  tokenSide : TokenSide
  barSecond : ℤ
  venue : Venue
  tokenKey : String
  (bestBid bestAsk mid : Option ℚ)
  (bestBidState bestAskState midState : Option ℚ)
  (lastPrice micro : Option ℚ)
  stalenessMs : Option ℤ
  (barGapFlag barStaleFlag : Bool)
  (top10DepthBid top10DepthAsk : Option ℚ)
  (bidL1Notional bidL2Notional bidL3Notional : Option ℚ)
  (askL1Notional askL2Notional askL3Notional : Option ℚ)
  (buyNotional1s sellNotional1s ofi250ms : ℚ)
  (bidDeltaNotional250ms askDeltaNotional250ms : ℚ)
  midSlope250ms : Option ℚ
  (buyNotional250ms sellNotional250ms : ℚ)
  (maxTradeNotional250ms maxTradeNotional1s : ℚ)
  liquidityPullFlag : ℤ
  obsLatencyP99Ms : Option ℤ
  deriving DecidableEq, Repr

/-! ## Pair bars -/

/-- The columns of a pair bar that are copied from one venue's half. -/
structure RawColumns where
  (polyStalenessMs opiStalenessMs : Option ℤ)
  (polyBestBid polyBestAsk polyMid polyMicro polyBestBidState polyBestAskState : Option ℚ)
  (polyMidState opiBestBid opiBestAsk opiMid opiBestBidState opiBestAskState : Option ℚ)
  (opiMidState opiLastPrice opiTakerBuyNotional1s opiTakerSellNotional1s opiMicro : Option ℚ)
  (opiBidL1Notional opiBidL2Notional opiBidL3Notional opiAskL1Notional : Option ℚ)
  (opiAskL2Notional opiAskL3Notional polyOfi250ms polyBuyNotional1s polySellNotional1s : Option ℚ)
  (polyMaxTradeNotional1s polyBuyNotional250ms polySellNotional250ms : Option ℚ)
  (polyMaxTradeNotional250ms polyBidDeltaNotional250ms polyAskDeltaNotional250ms : Option ℚ)
  polyMidSlope250ms : Option ℚ
  (polyObsLatencyP99Ms opiObsLatencyP99Ms : Option ℤ)
  deriving DecidableEq, Repr, Inhabited

/-- A row of `bars_1s_pair`. -/
structure Bars1sPair extends RawColumns where
  pairId : ℤ
  tokenSide : TokenSide
  (barSecond polyBarGapFlag opiBarGapFlag barGapFlag polyBarStaleFlag opiBarStaleFlag : ℤ)
  barStaleFlag : ℤ
  (polyFeeBps opiFeeBps : Option ℤ)
  gasCost : Option ℚ
  networkCongestionFlag : ℤ
  (grossSpreadBuy grossSpreadSell trueNetSpreadBuyOpinion trueNetSpreadSellOpinion : Option ℚ)
  (arbModeFlag directionalModeFlag : ℤ)
  (polyCvd30s polyBuySellRatio30s pricePressureIndex rollingCorr5m : Option ℚ)
  (rollingCorrSamples5m estimatedLagS : Option ℤ)
  (lagConfidence beta1m followScoreRaw followScoreAdj polyDepthImbalanceTop10 : Option ℚ)
  (polyBookPressure250ms polySpreadBps polyMicroBiasBps bookAlphaRaw bookAlphaAdj : Option ℚ)
  deriving DecidableEq, Repr, Inhabited

/-- The primary key of `bars_1s_pair`. -/
abbrev BarKey := ℤ × TokenSide × ℤ

def Bars1sPair.key (bar : Bars1sPair) : BarKey :=
  (bar.pairId, bar.tokenSide, bar.barSecond)

def PairInput.key (input : PairInput) : BarKey :=
  (input.pairId, input.tokenSide, input.barSecond)

end AlphaMonitor
