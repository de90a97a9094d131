import AlphaMonitor.Shard.TokenState

/-!
# Messages for the database

What the program's tasks hand to the database queue, row by row as the tables take it.
-/

namespace AlphaMonitor.Store

open Shard (Bars1sToken ResyncLog)

/-! ## Rows -/

/-- `ClockOffsetSample`. -/
structure ClockOffsetSample where
  venue : Venue
  (localTsMs exchangeTsMs sampleOffsetMs smoothedOffsetMs deltaClampedMs : ℤ)
  deriving DecidableEq, Repr

/-- `TokenRegistration`. -/
structure TokenRegistration where
  tokenKey : String
  venue : Venue
  (externalTokenId marketId : Option String)
  outcomeSide : Option ℤ
  tokenSide : TokenSide
  pairIds : List ℤ
  deriving DecidableEq, Repr

/-- `ConnectionHealthRow`. -/
structure ConnectionHealthRow where
  venue : Venue
  (barSecond wsState reconnectCount : ℤ)
  (lastMsgAgeMs heartbeatSent heartbeatFail : Option ℤ)
  droppedEvents : ℤ
  notes : Option String
  deriving DecidableEq, Repr

/-- `ChainMetricsRow`. -/
structure ChainMetricsRow where
  chain : String
  localTsMs : ℤ
  (baseFee priorityFee gasUsedEst txCostEst : Option ℚ)
  congestionFlag : ℤ
  deriving DecidableEq, Repr

/-- `ShockStatus`. -/
inductive ShockStatus where
  | pending
  | final
  deriving DecidableEq, Repr

/-- `ShockEvent`. -/
structure ShockEvent where
  shockId : ℤ
  tokenKey : String
  pairId : Option ℤ
  tokenSide : TokenSide
  shockType : String
  (direction noiseFlag startTsMs triggerTsMs peakTsMs : ℤ)
  magnitude : ℚ
  contextJson : Option String
  obsLatencyMs : Option ℤ
  connectionHealthFlags : ℤ
  status : ShockStatus
  peakFinalized : ℤ
  deriving DecidableEq, Repr

/-- `ShockEventUpdate`. -/
structure ShockEventUpdate where
  (shockId startTsMs peakTsMs : ℤ)
  magnitude : ℚ
  contextJson : Option String
  (direction noiseFlag : ℤ)
  status : ShockStatus
  peakFinalized : ℤ
  deriving DecidableEq, Repr

/-- `OpinionResponseRow`. -/
structure OpinionResponseRow where
  (shockId horizonS sampleValidFlag moveFlag : ℤ)
  firstMoveLagS : Option ℤ
  (opiReturn opiPriceDelta opiVolumeSum opiCvdSum opiSpreadChange opiDepthChange : Option ℚ)
  (opiStalenessAtT0Ms opiLiquidityPullFlagAtT0 : Option ℤ)
  trueNetSpreadAtT0 : Option ℚ
  (arbModeFlagAtT0 estimatedLagSAtT0 : Option ℤ)
  lagConfidenceAtT0 : Option ℚ
  (obsLatencyPolyP99AtT0 obsLatencyOpiP99AtT0 : Option ℤ)
  deriving DecidableEq, Repr

/-- `TradeAuditRow`. -/
structure TradeAuditRow where
  (eventTsMs pairId : ℤ)
  tokenSide : TokenSide
  phase : String
  direction : ℤ
  reason : Option String
  (pmMove pmMom ofi250ms edgeRaw edgeNorm entryPrice entryQty : Option ℚ)
  (exitPriceTarget exitPrice gasEstUsd minProfitUsd : Option ℚ)
  (bookDecay bookSupport bookScale retraceRatio invRatio invFactor decayFactor : Option ℚ)
  pnlUsdNet : Option ℚ
  holdingMs : Option ℤ
  (mae mfe : Option ℚ)
  (obsLatencyPolyP99Ms obsLatencyOpiP99Ms barGapFlag polyBarGapFlag opiBarGapFlag : Option ℤ)
  (polyStalenessMs opiStalenessMs : Option ℤ)
  detailJson : Option String
  deriving DecidableEq, Repr

/-- `CancelTriggerSnapshotRow`. -/
structure CancelTriggerSnapshotRow where
  (eventTsMs pairId : ℤ)
  tokenSide : TokenSide
  direction : ℤ
  orderRole : String
  (orderId clientId : Option String)
  cancelReason : String
  cancelPriority : ℤ
  (ofi250ms pmSellTradeNotional250ms pmRetraceRatio : Option ℚ)
  (deltaBidNotional250ms deltaAskNotional250ms opiBookDecay opiBookSupport : Option ℚ)
  opiSpreadTicks : Option ℤ
  deriving DecidableEq, Repr

/-! ## Messages -/

/-- `DbMessage`. -/
inductive DbMessage where
  | rawEvent (evt : Event)
  | bars1sToken (bar : Bars1sToken)
  | bars1sPair (bar : Bars1sPair)
  | clockOffset (sample : ClockOffsetSample)
  | tokenRegistryUpsert (token : TokenRegistration)
  | pairTokenOverride (pairId : ℤ) (tokenSide : TokenSide) (tokenId : String)
  | resyncLog (log : ResyncLog)
  | connectionHealth (row : ConnectionHealthRow)
  | chainMetrics (row : ChainMetricsRow)
  | shockEvent (event : ShockEvent)
  | shockEventUpdate (event : ShockEventUpdate)
  | opinionResponse (row : OpinionResponseRow)
  | tradeAudit (row : TradeAuditRow)
  | cancelTriggerSnapshot (row : CancelTriggerSnapshotRow)
  deriving DecidableEq, Repr

/-- `DbEnvelope`: a message and the id of its row in the queue. -/
structure DbEnvelope where
  id : ℤ
  msg : DbMessage
  deriving DecidableEq, Repr

/-- The messages that the writer takes only while alpha capture is enabled. -/
def DbMessage.captureOnly : DbMessage → Bool
  | .rawEvent _ | .bars1sToken _ | .bars1sPair _ | .resyncLog _ => true
  | .shockEvent _ | .shockEventUpdate _ | .opinionResponse _ => true
  | .clockOffset _ | .tokenRegistryUpsert _ | .pairTokenOverride .. => false
  | .connectionHealth _ | .chainMetrics _ | .tradeAudit _ | .cancelTriggerSnapshot _ => false

/-- The primary key of `bars_1s_token`. -/
abbrev TokenBarKey := Venue × String × ℤ

def tokenBarKey (bar : Bars1sToken) : TokenBarKey :=
  (bar.venue, bar.tokenKey, bar.barSecond)

/-! ## The writer's buffers -/

/-- The buffers of `run_db_writer`, each row with its id in the queue. -/
structure WriterBuffers where
  rawBuf : List (ℤ × Event)
  tokenBuf : List (ℤ × Bars1sToken)
  pairBuf : List (ℤ × Bars1sPair)
  clockBuf : List (ℤ × ClockOffsetSample)
  tokenRegistryBuf : List (ℤ × TokenRegistration)
  overrideBuf : List (ℤ × ℤ × TokenSide × String)
  resyncBuf : List (ℤ × ResyncLog)
  healthBuf : List (ℤ × ConnectionHealthRow)
  chainBuf : List (ℤ × ChainMetricsRow)
  shockBuf : List (ℤ × ShockEvent)
  shockUpdateBuf : List (ℤ × ShockEventUpdate)
  responseBuf : List (ℤ × OpinionResponseRow)
  tradeAuditBuf : List (ℤ × TradeAuditRow)
  cancelSnapshotBuf : List (ℤ × CancelTriggerSnapshotRow)
  deriving DecidableEq, Repr

namespace WriterBuffers

def empty : WriterBuffers :=
  ⟨[], [], [], [], [], [], [], [], [], [], [], [], [], []⟩

/-- Append a message to the buffer of its kind. -/
def push (b : WriterBuffers) (id : ℤ) : DbMessage → WriterBuffers
  | .rawEvent evt => { b with rawBuf := b.rawBuf ++ [(id, evt)] }
  | .bars1sToken bar => { b with tokenBuf := b.tokenBuf ++ [(id, bar)] }
  | .bars1sPair bar => { b with pairBuf := b.pairBuf ++ [(id, bar)] }
  | .clockOffset sample => { b with clockBuf := b.clockBuf ++ [(id, sample)] }
  | .tokenRegistryUpsert token =>
    { b with tokenRegistryBuf := b.tokenRegistryBuf ++ [(id, token)] }
  | .pairTokenOverride pairId tokenSide tokenId =>
    { b with overrideBuf := b.overrideBuf ++ [(id, pairId, tokenSide, tokenId)] }
  | .resyncLog log => { b with resyncBuf := b.resyncBuf ++ [(id, log)] }
  | .connectionHealth row => { b with healthBuf := b.healthBuf ++ [(id, row)] }
  | .chainMetrics row => { b with chainBuf := b.chainBuf ++ [(id, row)] }
  | .shockEvent event => { b with shockBuf := b.shockBuf ++ [(id, event)] }
  | .shockEventUpdate event => { b with shockUpdateBuf := b.shockUpdateBuf ++ [(id, event)] }
  | .opinionResponse row => { b with responseBuf := b.responseBuf ++ [(id, row)] }
  | .tradeAudit row => { b with tradeAuditBuf := b.tradeAuditBuf ++ [(id, row)] }
  | .cancelTriggerSnapshot row =>
    { b with cancelSnapshotBuf := b.cancelSnapshotBuf ++ [(id, row)] }

/-- Put staged rows back behind those of the buffers. -/
def extend (b stage : WriterBuffers) : WriterBuffers where
  rawBuf := b.rawBuf ++ stage.rawBuf
  tokenBuf := b.tokenBuf ++ stage.tokenBuf
  pairBuf := b.pairBuf ++ stage.pairBuf
  clockBuf := b.clockBuf ++ stage.clockBuf
  tokenRegistryBuf := b.tokenRegistryBuf ++ stage.tokenRegistryBuf
  overrideBuf := b.overrideBuf ++ stage.overrideBuf
  resyncBuf := b.resyncBuf ++ stage.resyncBuf
  healthBuf := b.healthBuf ++ stage.healthBuf
  chainBuf := b.chainBuf ++ stage.chainBuf
  shockBuf := b.shockBuf ++ stage.shockBuf
  shockUpdateBuf := b.shockUpdateBuf ++ stage.shockUpdateBuf
  responseBuf := b.responseBuf ++ stage.responseBuf
  tradeAuditBuf := b.tradeAuditBuf ++ stage.tradeAuditBuf
  cancelSnapshotBuf := b.cancelSnapshotBuf ++ stage.cancelSnapshotBuf

/-- The first test of `flush_buffers`. -/
def isEmpty (b : WriterBuffers) : Bool :=
  b.rawBuf.isEmpty && b.tokenBuf.isEmpty && b.pairBuf.isEmpty && b.clockBuf.isEmpty &&
    b.tokenRegistryBuf.isEmpty && b.overrideBuf.isEmpty && b.resyncBuf.isEmpty &&
    b.healthBuf.isEmpty && b.chainBuf.isEmpty && b.shockBuf.isEmpty &&
    b.shockUpdateBuf.isEmpty && b.responseBuf.isEmpty && b.tradeAuditBuf.isEmpty &&
    b.cancelSnapshotBuf.isEmpty

/-- Everything in the buffers, in the order in which a committed flush acknowledges it. -/
def entries (b : WriterBuffers) : List DbEnvelope :=
  b.rawBuf.map (fun (id, evt) => ⟨id, .rawEvent evt⟩) ++
  b.tokenBuf.map (fun (id, bar) => ⟨id, .bars1sToken bar⟩) ++
  b.pairBuf.map (fun (id, bar) => ⟨id, .bars1sPair bar⟩) ++
  b.clockBuf.map (fun (id, sample) => ⟨id, .clockOffset sample⟩) ++
  b.tokenRegistryBuf.map (fun (id, token) => ⟨id, .tokenRegistryUpsert token⟩) ++
  b.overrideBuf.map (fun (id, pairId, tokenSide, tokenId) =>
    ⟨id, .pairTokenOverride pairId tokenSide tokenId⟩) ++
  b.resyncBuf.map (fun (id, log) => ⟨id, .resyncLog log⟩) ++
  b.healthBuf.map (fun (id, row) => ⟨id, .connectionHealth row⟩) ++
  b.chainBuf.map (fun (id, row) => ⟨id, .chainMetrics row⟩) ++
  b.shockBuf.map (fun (id, event) => ⟨id, .shockEvent event⟩) ++
  b.shockUpdateBuf.map (fun (id, event) => ⟨id, .shockEventUpdate event⟩) ++
  b.responseBuf.map (fun (id, row) => ⟨id, .opinionResponse row⟩) ++
  b.tradeAuditBuf.map (fun (id, row) => ⟨id, .tradeAudit row⟩) ++
  b.cancelSnapshotBuf.map (fun (id, row) => ⟨id, .cancelTriggerSnapshot row⟩)

@[simp] theorem entries_empty : empty.entries = [] := rfl

/-- What a failed flush puts back is what it took. -/
@[simp] theorem empty_extend (stage : WriterBuffers) : empty.extend stage = stage := rfl

theorem isEmpty_iff {b : WriterBuffers} : b.isEmpty ↔ b = empty := by
  cases b
  simp [isEmpty, empty, and_assoc]

/-- A push adds its message and nothing else. -/
theorem entries_push (b : WriterBuffers) (id : ℤ) (msg : DbMessage) :
    (b.push id msg).entries.Perm (⟨id, msg⟩ :: b.entries) := by
  rw [List.perm_iff_count]
  intro e
  cases msg with
  | _ =>
    simp only [push, entries, List.map_append, List.map_cons, List.map_nil, List.count_append,
      List.count_cons, List.count_nil]
    omega

-- Proofs about where messages go need nothing else of it.
attribute [irreducible] entries

end WriterBuffers

end AlphaMonitor.Store
