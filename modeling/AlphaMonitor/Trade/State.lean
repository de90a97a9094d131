import AlphaMonitor.Trade.Config

/-!
# State of one pair side

`PairTradeState` is split into the part that follows the orders of the pair
(`OrderState`) and the part that follows its signals.  A function that only
looks at prices and signals leaves the order part alone by construction.
-/

namespace AlphaMonitor.Trade

/-- `TradeState`. -/
inductive TradeState where
  | idle
  | entryReady
  | entryPlacing
  | entryWorking
  | positionOpen
  | exitWorking
  | cooldown
  deriving DecidableEq, Repr

/-- Why an entry or exit order is cancelled. -/
inductive CancelReason where
  | ttl
  | reverseShock
  | alphaDecayMomOverShock
  | alphaDecayMomEntry
  | aggressiveFlow
  | retraceCancel
  | retraceExit
  | bidWithdraw
  | opiMidRet
  | opiSpread
  | opiEdge
  | opiImbalance
  | opiDepthFlow
  | opiTakerFlow
  | bookShapeDeterioration
  | reprice
  deriving DecidableEq, Repr

/-- `ShockSignal`. -/
structure ShockSignal where
  shockId : ℤ
  shockType : String
  direction : ℤ
  magnitude : ℚ
  noiseFlag : ℤ
  triggerBarSecond : ℤ
  deriving DecidableEq, Repr

/-- `PendingEntry`: a signal that passed the gates of `build_candidate`. -/
structure PendingEntry where
  key : PairKey
  bar : Bars1sPair
  (pmMove pmMom : ℚ)
  direction : ℤ
  alphaType : AlphaType
  shock : Option ShockSignal
  opiMid : Option ℚ
  (basePm edgeRaw confScore costMult : ℚ)
  horizonS : Option ℤ
  staleScale : ℚ
  entryTtlOverrideMs : Option ℤ
  cModifier : Option ℚ
  deriving DecidableEq, Repr

/-! ## The state -/

/-- The fields of `PairTradeState` that follow the pair's orders. -/
structure OrderState where
  state : TradeState
  (entryPrice entryQty entryNotional : Option ℚ)
  entryTsMs : Option ℤ
  (entryOrderId entryClientId exitOrderId exitClientId : Option String)
  entryCancelPending : Bool
  entryCancelReason : Option CancelReason
  entryCancelReqId : Option ℕ
  exitCancelPending : Bool
  exitCancelReason : Option CancelReason
  exitCancelReqId : Option ℕ
  direction : ℤ
  alphaType : Option AlphaType
  (entryPlaceReqId exitPlaceReqId : Option ℕ)
  pendingEntry : Option PendingEntry
  deriving DecidableEq, Repr

/-- `PairTradeState`. -/
structure PairTradeState extends OrderState where
  (basePm lastPmMove lastPmMom lastBasePm : Option ℚ)
  (pmPeak pmMoveEntry pmMomEntry : Option ℚ)
  entryBarSecond : Option ℤ
  (exitPriceTarget exitPrice : Option ℚ)
  (lastFillPollMs lastExitPlaceMs cooldownUntil : Option ℤ)
  (lastOpiMid lastOpiSpreadBps : Option ℚ)
  (lastOpiBidL1 lastOpiAskL1 lastOpiBidL3 lastOpiAskL3 : Option ℚ)
  lastOpiBarSecond : Option ℤ
  lastOfi250ms : Option ℚ
  shock : Option ShockSignal
  entryTtlOverrideMs : Option ℤ
  lastEntryAttemptMs : Option ℤ
  lastBar : Option Bars1sPair
  fillPollReqId : Option ℕ
  deriving DecidableEq, Repr

/-- The order part of the default state. -/
def OrderState.idle : OrderState where
  state := .idle
  entryPrice := none
  entryQty := none
  entryNotional := none
  entryTsMs := none
  entryOrderId := none
  entryClientId := none
  exitOrderId := none
  exitClientId := none
  entryCancelPending := false
  entryCancelReason := none
  entryCancelReqId := none
  exitCancelPending := false
  exitCancelReason := none
  exitCancelReqId := none
  direction := 0
  alphaType := none
  entryPlaceReqId := none
  exitPlaceReqId := none
  pendingEntry := none

/-- `PairTradeState::default`. -/
def PairTradeState.default : PairTradeState where
  toOrderState := OrderState.idle
  basePm := none
  lastPmMove := none
  lastPmMom := none
  lastBasePm := none
  pmPeak := none
  pmMoveEntry := none
  pmMomEntry := none
  entryBarSecond := none
  exitPriceTarget := none
  exitPrice := none
  lastFillPollMs := none
  lastExitPlaceMs := none
  cooldownUntil := none
  lastOpiMid := none
  lastOpiSpreadBps := none
  lastOpiBidL1 := none
  lastOpiAskL1 := none
  lastOpiBidL3 := none
  lastOpiAskL3 := none
  lastOpiBarSecond := none
  lastOfi250ms := none
  shock := none
  entryTtlOverrideMs := none
  lastEntryAttemptMs := none
  lastBar := none
  fillPollReqId := none

/-- `enter_cooldown`, order part: ids, flags and requests go; what was bought stays. -/
def OrderState.cooldown (o : OrderState) : OrderState :=
  -- direction and sizes are not cleared
  { o with
    state := .cooldown
    entryOrderId := none
    entryClientId := none
    exitOrderId := none
    exitClientId := none
    entryCancelPending := false
    entryCancelReason := none
    entryCancelReqId := none
    exitCancelPending := false
    exitCancelReason := none
    exitCancelReqId := none
    entryPlaceReqId := none
    exitPlaceReqId := none
    pendingEntry := none }

namespace PairTradeState

variable (st : PairTradeState)

/-- `reset_for_idle`. -/
def resetForIdle : PairTradeState :=
  -- the prices of the last bars and the base price stay
  { st with
    toOrderState := OrderState.idle
    entryBarSecond := none
    exitPriceTarget := none
    exitPrice := none
    lastFillPollMs := none
    lastExitPlaceMs := none
    pmPeak := none
    pmMoveEntry := none
    pmMomEntry := none
    lastOpiMid := none
    lastOpiSpreadBps := none
    lastOpiBidL1 := none
    lastOpiAskL1 := none
    lastOpiBidL3 := none
    lastOpiAskL3 := none
    lastOpiBarSecond := none
    shock := none
    entryTtlOverrideMs := none
    fillPollReqId := none }

/-- `enter_cooldown`. -/
def enterCooldown (barSecond cooldownMs : ℤ) : PairTradeState :=
  { st with
    toOrderState := st.toOrderState.cooldown
    -- milliseconds are rounded up to seconds
    cooldownUntil := some (barSecond + (max cooldownMs 0 + 999) / 1000)
    lastExitPlaceMs := none
    fillPollReqId := none
    pmMomEntry := none }

/-- `check_cooldown`. -/
def checkCooldown (barSecond : ℤ) : PairTradeState :=
  if st.state = .cooldown then
    match st.cooldownUntil with
    | some until_ =>
      if barSecond ≥ until_ then { st.resetForIdle with cooldownUntil := none } else st
    -- without an end a cooldown lasts
    | none => st
  else st

/-- `update_peak`. -/
def updatePeak (pmMove : ℚ) (direction : ℤ) : PairTradeState :=
  -- a pair without a direction has no peak
  if direction = 0 then st
  else
    { st with pmPeak := some (match st.pmPeak with
        -- the peak is the best move in the direction
        | some prev => if direction > 0 then max prev pmMove else min prev pmMove
        | none => pmMove) }

@[simp] theorem resetForIdle_toOrderState : st.resetForIdle.toOrderState = OrderState.idle := rfl

@[simp] theorem enterCooldown_toOrderState (barSecond cooldownMs : ℤ) :
    (st.enterCooldown barSecond cooldownMs).toOrderState = st.toOrderState.cooldown := rfl

@[simp] theorem enterCooldown_lastBar (barSecond cooldownMs : ℤ) :
    (st.enterCooldown barSecond cooldownMs).lastBar = st.lastBar := rfl

@[simp] theorem resetForIdle_lastBar : st.resetForIdle.lastBar = st.lastBar := rfl

@[simp] theorem updatePeak_toOrderState (pmMove : ℚ) (direction : ℤ) :
    (st.updatePeak pmMove direction).toOrderState = st.toOrderState := by
  unfold updatePeak
  split <;> rfl

@[simp] theorem updatePeak_lastBar (pmMove : ℚ) (direction : ℤ) :
    (st.updatePeak pmMove direction).lastBar = st.lastBar := by
  unfold updatePeak
  split <;> rfl

@[simp] theorem checkCooldown_lastBar (barSecond : ℤ) :
    (st.checkCooldown barSecond).lastBar = st.lastBar := by
  unfold checkCooldown
  split
  · split
    · split <;> rfl
    · rfl
  · rfl

/-- A cooldown that is over leaves the idle order state; otherwise nothing changes. -/
theorem checkCooldown_cases (barSecond : ℤ) :
    (st.checkCooldown barSecond).toOrderState = st.toOrderState ∨
      (st.state = .cooldown ∧ (st.checkCooldown barSecond).toOrderState = OrderState.idle) := by
  unfold checkCooldown
  split
  · rename_i hcool
    split
    · split
      · exact Or.inr ⟨hcool, rfl⟩
      · exact Or.inl rfl
    · exact Or.inl rfl
  · exact Or.inl rfl

end PairTradeState

end AlphaMonitor.Trade
