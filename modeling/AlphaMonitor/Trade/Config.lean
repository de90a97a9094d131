import AlphaMonitor.Models

/-!
# Trade configuration

The fields of `TradeConfig` that the modelled functions read, under the names
of the source, and what the engine is set up with besides them.
-/

namespace AlphaMonitor.Trade

/-- The strategy that produced an entry. -/
inductive AlphaType where
  | shockA
  | gapB
  | lagC
  deriving DecidableEq, Repr

/-- `TradeConfig`. -/
structure TradeConfig where
  dryRun : Bool
  /- signal freshness -/
  (signalStalenessMs alphaAOpiStaleMaxMs alphaBOpiStaleMaxMs opiCancelStalenessMs : ℤ)
  baseAlpha : ℚ
  /- shocks -/
  alphaAMaxAgeS : ℤ
  alphaARequireNoiseZero : Bool
  alphaAAllowedShockTypes : List String
  /- balances and caps -/
  (balanceTotalUsd balanceFreeUsd : ℚ)
  (entryPoolFrac entryFraction entryFractionFree : ℚ)
  (maxGlobalExposureFrac maxPerPairExposureFrac : ℚ)
  maxOpenPositions : ℕ
  (strategyCapA strategyCapB strategyCapC : ℚ)
  (perTradeCapA perTradeCapB perTradeCapC : ℚ)
  minOrderNotionalUsd : ℚ
  (rankTopKA rankTopKB : ℕ)
  /- book shape -/
  (bookDecayBlock bookSupportBlock bookDecayScale bookSupportScale bookScaleMin : ℚ)
  /- gas and profit -/
  gasLookbackMs : ℤ
  (gasEstUsd gasMult gasBufferUsd : ℚ)
  gasIncludeCancelAllowance : Bool
  gasCancelAllowanceFactor : ℚ
  gasEmergencyPauseEnabled : Bool
  gasEmergencyMaxUsd : ℚ
  /- entry ladder -/
  perPairMinIntervalMs : ℤ
  tickPx : ℚ
  entrySpreadMaxTicks : ℤ
  (entrySpreadMaxPct entrySpreadSizeScale : ℚ)
  (kEdge kMom kShock : ℚ)
  entryAggrEnabled : Bool
  (entryAggrDefault entryAggrGap entryAggrShockMax entryAggrShockMin : ℚ)
  entryAggrShockEarlyRatio : ℚ
  (entryTickOffset chaseStepTicks maxChaseTicks : ℤ)
  orderClientPrefix : String
  /- cooldowns -/
  (cooldownAfterPostonlyRejectMs cooldownAfterCancelMs cooldownAfterExitMs : ℤ)
  /- entry cancellation -/
  (entryTtlMs alphaAEntryTtlMs : ℤ)
  (ofiCancelLow ofiCancelMed askAddUsd tradeCancelUsd bidWithdrawUsd : ℚ)
  (opiMidRetCancelBps opiSpreadBpsMin opiEdgeMinBps opiImbalanceCancel : ℚ)
  (opiBidWithdrawUsd opiAskAddUsd : ℚ)
  (opiTakerSellCancelUsd opiTakerBuyCancelUsd opiTradeImbalanceCancel : ℚ)
  (entryCancelShockMomRatioMin entryCancelMomFloor entryCancelShockFloor : ℚ)
  (entryCancelMomDecayMin retraceCancel : ℚ)
  /- exit target -/
  (retraceExit tpA1 tpA2 tpA3 tpA4Shock : ℚ)
  (targetDecayPerSec alphaADecayPerSec alphaBDecayPerSec : ℚ)
  (invK targetFloorGasMult : ℚ)
  (exitTtlMs exitTickOffset : ℤ)
  /- user channels -/
  wsUserChannelsEnabled : Bool
  wsUserChannelStaleMs : ℤ
  deriving Repr, Inhabited

/-- The Opinion market and token that a pair side is traded in. -/
structure OpinionOrderTarget where
  marketId : ℤ
  tokenId : String
  deriving DecidableEq, Repr

/-- What a `TradeEngine` is built with and never changes. -/
structure Setup where
  cfg : TradeConfig
  /-- An `OpinionPrivateClient` is configured. -/
  opinionClient : Bool
  orderTargets : PairKey → Option OpinionOrderTarget
  /-- Already at least 250, as `TradeEngine::new` makes it. -/
  orderPollIntervalMs : ℤ

/-- `is_live`. -/
def Setup.isLive (setup : Setup) : Bool := setup.opinionClient && !setup.cfg.dryRun

namespace TradeConfig

variable (cfg : TradeConfig)

/-- `strategy_cap`. -/
def strategyCap : AlphaType → ℚ
  | .shockA => cfg.strategyCapA
  | .gapB => cfg.strategyCapB
  | .lagC => cfg.strategyCapC

/-- `per_trade_cap`. -/
def perTradeCap : AlphaType → ℚ
  | .shockA => cfg.perTradeCapA
  | .gapB => cfg.perTradeCapB
  | .lagC => cfg.perTradeCapC

/-- `alpha_decay_per_sec`. -/
def alphaDecayPerSec : AlphaType → ℚ
  | .shockA => cfg.alphaADecayPerSec
  | .gapB => cfg.alphaBDecayPerSec
  | .lagC => cfg.targetDecayPerSec

/-- `entry_ttl_ms_for`. -/
def entryTtlMsFor (alphaType : Option AlphaType) : ℤ :=
  if alphaType = some .shockA ∧ cfg.alphaAEntryTtlMs > 0 then cfg.alphaAEntryTtlMs
  else cfg.entryTtlMs

/-- The tick size, with the default of the source. -/
def tick : ℚ := if cfg.tickPx > 0 then cfg.tickPx else 1 / 10000

end TradeConfig

end AlphaMonitor.Trade
