import AlphaMonitor.Trade.Exit

/-!
# Fills and cancellations

What a fill or a confirmed cancellation does to a pair: `apply_entry_fills`,
`apply_exit_fills`, `apply_ws_fills`, `finalize_entry_cancel`, and the check of a
working entry on every bar.
-/

namespace AlphaMonitor.Trade

/-- `TradeFill`. -/
structure TradeFill where
  (orderId clientOrderId side : Option String)
  (price size : Option ℚ)
  tsMs : Option ℤ
  deriving DecidableEq, Repr

/-! ## Matching -/

/-- `eq_ignore_ascii_case`. -/
def eqIgnoreAsciiCase (a b : String) : Bool := a.toList.map Char.toLower = b.toList.map Char.toLower

/-- `fill_side_matches`: an absent or unknown side matches no direction. -/
def fillSideMatches (direction : ℤ) (side : Option String) : Bool :=
  let wantBuy := decide (direction > 0)
  match side with
  | some raw =>
    if eqIgnoreAsciiCase raw "BUY" then wantBuy
    else if eqIgnoreAsciiCase raw "SELL" then !wantBuy
    -- the venue also numbers the sides
    else if raw = "0" then wantBuy
    else if raw = "1" then !wantBuy
    else false
  | none => false

/-- The fill names the order by its id or by the client id. -/
def fillMatchesOrder (orderId clientId : Option String) (fill : TradeFill) : Bool :=
  -- an id that is unset matches nothing
  (orderId.isSome && decide (fill.orderId = orderId)) ||
    (clientId.isSome && decide (fill.clientOrderId = clientId))

/-- The fill that `apply_entry_fills` stops at. -/
def entryFill? (st : PairTradeState) (fills : List TradeFill) : Option TradeFill :=
  fills.find? fun fill => fillMatchesOrder st.entryOrderId st.entryClientId fill &&
    fillSideMatches st.direction fill.side

/-- The fill that `apply_exit_fills` stops at. -/
def exitFill? (st : PairTradeState) (fills : List TradeFill) : Option TradeFill :=
  fills.find? fun fill => fillMatchesOrder st.exitOrderId st.exitClientId fill &&
    fillSideMatches (-st.direction) fill.side

/-! ## Entry fills -/

/-- The order part after an entry fill. -/
def OrderState.entryFilled (o : OrderState) (fill : TradeFill) (now : ℤ) : OrderState :=
  -- price and size of the fill, where it brings them
  let entryPrice := fill.price.or o.entryPrice
  { o with
    -- the fill settles the cancellation
    entryCancelPending := false
    entryCancelReason := none
    entryCancelReqId := none
    state := .positionOpen
    entryPrice := entryPrice
    entryQty := fill.size.or o.entryQty
    entryNotional :=
      match fill.size with
      | some size => entryPrice.map (· * size)
      | none => o.entryNotional
    entryTsMs := fill.tsMs.or (some now) }

/-- `apply_entry_fills`: the new state, and whether a fill was applied. -/
def applyEntryFills (env : Env) (st : PairTradeState) (pmMove : ℚ) (fills : List TradeFill) :
    PairTradeState × Bool :=
  -- without an order there is nothing to look for
  if st.entryOrderId = none ∧ st.entryClientId = none then (st, false)
  else
    match entryFill? st fills with
    | some fill =>
      ({ st with
        toOrderState := st.toOrderState.entryFilled fill env.now
        pmMoveEntry := some pmMove }, true)
    | none => (st, false)

/-- `apply_entry_fills` followed by `check_exit`, as the fill handlers run them. -/
def applyEntryFillsAndCheck (setup : Setup) (env : Env) (signals : List ShockSignal) (desk : Desk)
    (st : PairTradeState) (bar : Bars1sPair) (flow : PmFlow) (fills : List TradeFill)
    (pairKey : PairKey) : Desk × PairTradeState :=
  match applyEntryFills env st flow.pmMove fills with
  | (st, filled) =>
    -- the fill is worked at once where the base price is known
    let basePm := (st.lastBasePm.or st.basePm).getD 0
    if filled = true ∧ setup.isLive = true ∧ basePm > 0 then
      checkExit setup env signals desk st bar flow basePm pairKey
    else (desk, st)

/-! ## Exit fills -/

/-- The exit cancel flags are dropped. -/
def OrderState.dropExitCancel (o : OrderState) : OrderState :=
  { o with exitCancelPending := false, exitCancelReason := none, exitCancelReqId := none }

/-- `apply_exit_fills`: the first fill of the exit order closes the position. -/
def applyExitFills (cfg : TradeConfig) (desk : Desk) (st : PairTradeState) (bar : Bars1sPair)
    (fills : List TradeFill) : Desk × PairTradeState :=
  if st.exitOrderId = none ∧ st.exitClientId = none then (desk, st)
  else
    match exitFill? st fills with
    | some _ =>
      -- the cancel flags go even if the position has no price
      let st := { st with toOrderState := st.toOrderState.dropExitCancel }
      if st.entryPrice.isSome ∧ st.entryQty.isSome then
        closePosition cfg desk st bar (bar.pairId, bar.tokenSide, st.direction)
      else (desk, st)
    | none => (desk, st)

/-! ## Fills from the user channel -/

/-- The Polymarket move that the handlers keep from the last bar. -/
def PairTradeState.lastFlow (st : PairTradeState) : PmFlow :=
  ⟨st.lastPmMove.getD 0, st.lastPmMom.getD 0, st.lastOfi250ms.getD 0⟩

/-- `apply_ws_fills`. -/
def applyWsFills (setup : Setup) (env : Env) (signals : List ShockSignal) (desk : Desk)
    (st : PairTradeState) (pairKey : PairKey) (matchesEntry matchesExit : Bool)
    (fills : List TradeFill) : Desk × PairTradeState :=
  -- without a bar the pair has no order
  match st.lastBar with
  | none => (desk, st)
  | some bar =>
    if fills = [] then (desk, st)
    else
      let flow := st.lastFlow
      -- the channel was faster than the poll
      let st := { st with fillPollReqId := none, lastFillPollMs := some env.now }
      let desk :=
        { desk with
          req := { desk.req with fillPollBackoffMs := 0, fillPollBackoffUntilMs := none } }
      let (desk, st) :=
        if matchesEntry then applyEntryFillsAndCheck setup env signals desk st bar flow fills pairKey
        else (desk, st)
      if matchesExit then applyExitFills setup.cfg desk st bar fills else (desk, st)

/-! ## Cancelling an entry -/

/-- `finalize_entry_cancel`. -/
def finalizeEntryCancel (cfg : TradeConfig) (desk : Desk) (st : PairTradeState) (bar : Bars1sPair)
    (pairKey : PairKey) : Desk × PairTradeState :=
  let (books, st) := releaseEntryNotional desk.books st (exposureKey pairKey st.direction)
  ({ desk with books := books }, st.enterCooldown bar.barSecond cfg.cooldownAfterCancelMs)

/-- `request_entry_cancel`. -/
def requestEntryCancel (setup : Setup) (env : Env) (desk : Desk) (st : PairTradeState)
    (bar : Bars1sPair) (reason : CancelReason) (pairKey : PairKey) : Desk × PairTradeState :=
  let st :=
    -- the first reason stays
    if st.entryCancelPending then
      { st with entryCancelReason := st.entryCancelReason.or (some reason) }
    else { st with entryCancelPending := true, entryCancelReason := some reason }
  -- live, the cancel has to be acknowledged; dry, it is final
  if setup.isLive then
    let (req, st) := desk.req.maybeEnqueueEntryCancel env st
    ({ desk with req := req }, st)
  else finalizeEntryCancel setup.cfg desk st bar pairKey

/-! ## `check_entry` -/

/-- The dry-run fill of `check_entry`: the price, if the bar trades through ours. -/
def paperEntryFill (bar : Bars1sPair) (direction : ℤ) (entryPrice : ℚ) : Option ℚ :=
  let fillPrice :=
    if direction > 0 then
      -- the last trade, else the opposite side, else the middle
      (bar.opiLastPrice.or (opiBestAskFromBar bar)).or (opiMidFromBar bar)
    else (bar.opiLastPrice.or (opiBestBidFromBar bar)).or (opiMidFromBar bar)
  fillPrice.filter fun price =>
    (decide (direction = 1) && decide (price ≤ entryPrice)) ||
      (decide (direction = -1) && decide (price ≥ entryPrice))

/-- The time to live of the working entry is over. -/
def entryTtlExpired (cfg : TradeConfig) (env : Env) (st : PairTradeState) : Bool :=
  -- the entry's own time to live comes before the configured one
  let ttl := st.entryTtlOverrideMs.getD (cfg.entryTtlMsFor st.alphaType)
  decide (ttl > 0) && ((st.entryTsMs.map fun ts => decide (env.now - ts ≥ ttl)).getD false)

/-- The rules of `check_entry` after the pending requests: cancel, or fill on paper. -/
def checkWorkingEntry (setup : Setup) (env : Env) (signals : List ShockSignal) (desk : Desk)
    (st : PairTradeState) (bar : Bars1sPair) (flow : PmFlow) (pairKey : PairKey) :
    Desk × PairTradeState :=
  -- the time to live is checked before the signal
  if entryTtlExpired setup.cfg env st then
    requestEntryCancel setup env desk st bar .ttl pairKey
  else
    match entryCancelReason setup.cfg signals st bar flow with
    | some reason => requestEntryCancel setup env desk st bar reason pairKey
    | none =>
      if setup.isLive then (desk, st)
      else
        match st.entryPrice.bind (paperEntryFill bar st.direction) with
        | some price =>
          (desk, { st with
            state := .positionOpen
            entryPrice := some price
            entryTsMs := some env.now
            pmMoveEntry := some flow.pmMove })
        | none => (desk, st)

/-- `check_entry`. -/
def checkEntry (setup : Setup) (env : Env) (signals : List ShockSignal) (desk : Desk)
    (st : PairTradeState) (bar : Bars1sPair) (flow : PmFlow) (pairKey : PairKey) :
    Desk × PairTradeState :=
  -- the pair entered nothing
  if st.direction = 0 then (desk, st.resetForIdle)
  else if setup.isLive then
    -- wait for the response to the placement
    if st.entryPlaceReqId.isSome then (desk, st)
    else
      let (req, st) := desk.req.maybeEnqueueFillPoll setup env st pairKey .entry
      let desk := { desk with req := req }
      -- a cancel that is pending is sent again when it is due
      if st.entryCancelPending then
        let (req, st) := desk.req.maybeEnqueueEntryCancel env st
        ({ desk with req := req }, st)
      else checkWorkingEntry setup env signals desk st bar flow pairKey
  else if st.entryCancelPending then finalizeEntryCancel setup.cfg desk st bar pairKey
  else checkWorkingEntry setup env signals desk st bar flow pairKey

end AlphaMonitor.Trade
