import AlphaMonitor.Trade.Fills
import Mathlib.Data.List.AList
import Mathlib.Data.List.Sort

/-!
# The trade engine

`TradeEngine` keeps one `PairTradeState` for each pair side.  Every handler takes
the state of its pair out of the map, works on it together with the desk, and
puts it back; handlers run to their end one after another.

## Main definitions

- `handleBar`, `cancelCheckTick`: the periodic checks
- `handleOrderResponse`: what the executor reports back
- `handleOpinionOrderUpdate`, `handleOpinionTradeRecord`: the user channel
- `TradeEngine.handle`: one message of any kind
-/

namespace AlphaMonitor.Trade

/-! ## Messages -/

/-- What `build_candidate` found in a bar of an idle pair. -/
structure EntrySignal where
  direction : ℤ
  alphaType : AlphaType
  shock : Option ShockSignal
  opiMid : Option ℚ
  (edgeRaw confScore costMult : ℚ)
  horizonS : Option ℤ
  staleScale : ℚ
  entryTtlOverrideMs : Option ℤ
  cModifier : Option ℚ
  deriving DecidableEq, Repr

/-- `OpinionUserOrderUpdate`. -/
structure OpinionUserOrderUpdate where
  pairId : ℤ
  tokenSide : TokenSide
  orderId : String
  orderUpdateType : Option String
  status : Option ℤ
  side : Option String
  (price shares amount filledShares filledAmount : Option ℚ)
  tsMs : Option ℤ
  deriving DecidableEq, Repr

/-- `OpinionUserTradeRecord`. -/
structure OpinionUserTradeRecord where
  pairId : ℤ
  tokenSide : TokenSide
  orderId : String
  side : Option String
  (price shares amount : Option ℚ)
  tsMs : Option ℤ
  deriving DecidableEq, Repr

/-- `FillPollResult`. -/
structure FillPollResult where
  fills : List TradeFill
  rateLimited : Bool
  error : Option String
  deriving DecidableEq, Repr

/-- `OrderResponse`. -/
inductive OrderResponse where
  | placeChase (id : ℕ) (pairKey : PairKey) (result : PlaceResult)
  | cancelOrder (id : ℕ) (orderId : String) (result : CancelResult)
  | fetchFills (id : ℕ) (pairKey : PairKey) (kind : FillKind) (result : FillPollResult)
  deriving DecidableEq, Repr

/-- Everything the engine's loop reacts to. -/
inductive TradeMessage where
  | pairBar (bar : Bars1sPair) (signal : Option EntrySignal)
  | shock (pairKey : PairKey) (signal : ShockSignal)
  /-- The periodic check, which visits the pairs in some order. -/
  | cancelCheckTick (order : List PairKey)
  | orderUpdate (update : OpinionUserOrderUpdate)
  | tradeRecord (record : OpinionUserTradeRecord)
  | orderResponse (response : OrderResponse)
  deriving DecidableEq, Repr

/-! ## Reading the user channel -/

namespace OpinionUserOrderUpdate

variable (update : OpinionUserOrderUpdate)

/-- `update_type`, lower-cased. -/
def updateType : String :=
  String.ofList ((update.orderUpdateType.getD "").toList.map Char.toLower)

/-- `is_cancel`. -/
def isCancel : Bool :=
  -- with each of these statuses the order is gone
  decide (update.updateType = "ordercancel") || decide (update.status.getD 0 = 3) ||
    decide (update.status.getD 0 = 4) || decide (update.status.getD 0 = 5)

/-- `is_fill_update`. -/
def isFillUpdate : Bool :=
  decide (update.updateType = "orderfill") || decide (update.updateType = "orderconfirm")

/-- The shares that an amount buys at a price. -/
def sharesOf (price amount : Option ℚ) : Option ℚ :=
  -- a price of zero buys nothing
  match price, amount with
  | some price, some amount => if price > 0 then some (amount / price) else none
  | _, _ => none

/-- `filled_shares`, with the fallbacks of the handler. -/
def filled : Option ℚ :=
  let shares :=
    -- for a fill the order's own shares stand in for the filled ones
    if update.isFillUpdate = true ∨ update.status.getD 0 = 2 then
      update.filledShares.or update.shares
    else update.filledShares
  shares.or (sharesOf update.price (update.filledAmount.or update.amount))

/-- The fill that the update announces. -/
def fill (now : ℤ) : TradeFill where
  orderId := some update.orderId
  clientOrderId := none
  side := update.side.map fun value => String.ofList (value.toList.map Char.toUpper)
  price := update.price
  size := update.filled
  tsMs := update.tsMs.or (some now)

end OpinionUserOrderUpdate

/-- The fill that the record announces. -/
def OpinionUserTradeRecord.fill (record : OpinionUserTradeRecord) (now : ℤ) : TradeFill where
  orderId := some record.orderId
  clientOrderId := none
  side := record.side.map fun value => String.ofList (value.toList.map Char.toUpper)
  price := record.price
  size := record.shares.or (OpinionUserOrderUpdate.sharesOf record.price record.amount)
  tsMs := record.tsMs.or (some now)

/-! ## Steps of the order state -/

namespace OrderState

/-- The order part after an accepted entry placement. -/
def working (o : OrderState) (price qty : ℚ) (now : ℤ) (orderId clientId : Option String) :
    OrderState :=
  { o with
    state := .entryWorking
    entryPrice := some price
    entryQty := some qty
    entryNotional := some (price * qty)
    entryTsMs := some now
    entryOrderId := orderId
    entryClientId := clientId }

/-- The entry cancel flags are dropped. -/
def dropEntryCancel (o : OrderState) : OrderState :=
  { o with entryCancelPending := false, entryCancelReason := none, entryCancelReqId := none }

/-- The order part after the exit order is known to be cancelled. -/
def exitCancelled (o : OrderState) : OrderState :=
  { o with
    exitOrderId := none
    exitClientId := none
    exitCancelPending := false
    exitCancelReason := none }

end OrderState

/-! ## The engine -/

structure TradeEngine where
  desk : Desk
  states : AList (fun _ : PairKey => PairTradeState)
  shockSignals : PairKey → List ShockSignal
  pendingSecond : Option ℤ
  pendingEntries : List PendingEntry
  pendingKeys : Finset PairKey

def TradeEngine.start (now : ℤ) : TradeEngine where
  desk := ⟨Requests.start now, Books.start, []⟩
  states := ∅
  shockSignals := fun _ => []
  pendingSecond := none
  pendingEntries := []
  pendingKeys := ∅

namespace TradeEngine

variable (setup : Setup) (env : Env) (eng : TradeEngine)

/-- The state of a pair side, or the default one. -/
def stateOf (key : PairKey) : PairTradeState := (eng.states.lookup key).getD PairTradeState.default

/-- Run a per-pair function and put the state back. -/
def putBack (key : PairKey) (result : Desk × PairTradeState) : TradeEngine :=
  { eng with desk := result.1, states := eng.states.insert key result.2 }

/-- Run a per-pair function on a pair that is known to the engine. -/
def onKnown (key : PairKey) (f : PairTradeState → Desk × PairTradeState) : TradeEngine :=
  match eng.states.lookup key with
  | some st => eng.putBack key (f st)
  | none => eng

/-! ### Ranking and flushing signals -/

/-- `queue_entry`. -/
def queueEntry (entry : PendingEntry) : TradeEngine :=
  let second := entry.bar.barSecond
  let eng :=
    if eng.pendingSecond = some second then eng
    else
      match eng.pendingSecond with
      -- the candidates of the other second are given up
      | some _ => { eng with pendingEntries := [], pendingKeys := ∅, pendingSecond := some second }
      | none => { eng with pendingSecond := some second }
  -- one candidate for each pair side
  if entry.key ∈ eng.pendingKeys then eng
  else
    { eng with
      pendingKeys := insert entry.key eng.pendingKeys
      pendingEntries := eng.pendingEntries ++ [entry] }

/-- The best entries of one strategy, by falling confidence. -/
def rankEntries (alphaType : AlphaType) (topK : ℕ) (entries : List PendingEntry) :
    List PendingEntry :=
  -- a stable sort: ties stay in the order of their arrival
  let ranked := (entries.filter fun e => e.alphaType = alphaType).insertionSort
    fun a b => b.confScore ≤ a.confScore
  -- a limit of zero ranks all
  if topK > 0 then ranked.take topK else ranked

/-- The loop of `flush_pending_entries` over the ranked entries. -/
def flushLoop (second : ℤ) : List PendingEntry → TradeEngine → TradeEngine
  | [], eng => eng
  | entry :: rest, eng =>
    let cfg := setup.cfg
    -- without a balance there is no pool
    let (risk, available) :=
      if cfg.balanceTotalUsd > 0 then eng.desk.books.risk.entryPoolAvailable cfg second
      else (eng.desk.books.risk, 0)
    let desk := { eng.desk with books := { eng.desk.books with risk := risk } }
    let eng := { eng with desk := desk }
    -- the pool is used up: the rest of the ranking is dropped
    if cfg.minOrderNotionalUsd > 0 ∧ available < cfg.minOrderNotionalUsd then eng
    else
      let st := eng.stateOf entry.key
      -- the pair may have entered since it was queued
      if st.state = .idle then
        flushLoop second rest (eng.putBack entry.key
          (maybeEnter setup env desk st entry (if available > 0 then some available else none)))
      else flushLoop second rest (eng.putBack entry.key (desk, st))

/-- `flush_pending_entries`. -/
def flushPendingEntries (currentBarSecond : ℤ) : TradeEngine :=
  match eng.pendingSecond with
  | none => eng
  | some second =>
    -- a set of this second or a later one waits
    if second ≥ currentBarSecond then eng
    else
      let entries := eng.pendingEntries
      -- the set is taken out, whatever the ranking makes of it
      let eng := { eng with pendingEntries := [], pendingKeys := ∅, pendingSecond := none }
      if entries = [] then eng
      else
        -- candidates of the third strategy are never ranked
        let ranked := rankEntries .shockA setup.cfg.rankTopKA entries ++
          rankEntries .gapB setup.cfg.rankTopKB entries
        let eng :=
          if setup.cfg.balanceTotalUsd > 0 then
            { eng with
              desk := { eng.desk with
                books := { eng.desk.books with
                  risk := eng.desk.books.risk.resetEntryPool setup.cfg second } } }
          else eng
        flushLoop setup env second ranked eng

/-! ### Bars -/

/-- `base_pm` after a bar. -/
def updateBasePm (cfg : TradeConfig) (st : PairTradeState) (bar : Bars1sPair) : PairTradeState :=
  match pmMidFromBar bar with
  | some pmMid =>
    -- an exponential average, which starts with the first mid
    { st with basePm := some (match st.basePm with
        | some base => base * (1 - cfg.baseAlpha) + pmMid * cfg.baseAlpha
        | none => pmMid) }
  | none => st

/-- The entry that an idle pair queues for a signal. -/
def pendingEntryOf (bar : Bars1sPair) (flow : PmFlow) (basePm : ℚ) (signal : EntrySignal) :
    PendingEntry where
  key := (bar.pairId, bar.tokenSide)
  bar := bar
  pmMove := flow.pmMove
  pmMom := flow.pmMom
  direction := signal.direction
  alphaType := signal.alphaType
  shock := signal.shock
  opiMid := signal.opiMid
  basePm := basePm
  edgeRaw := signal.edgeRaw
  confScore := signal.confScore
  costMult := signal.costMult
  horizonS := signal.horizonS
  staleScale := signal.staleScale
  entryTtlOverrideMs := signal.entryTtlOverrideMs
  cModifier := signal.cModifier

/-- The state-dependent part of `handle_bar`. -/
def barCheck (signals : List ShockSignal) (desk : Desk) (st : PairTradeState) (bar : Bars1sPair)
    (flow : PmFlow) (basePm : ℚ) (pairKey : PairKey) : Desk × PairTradeState :=
  match st.state with
  | .idle => (desk, st)
  | .entryReady | .entryPlacing | .entryWorking =>
    checkEntry setup env signals desk (st.updatePeak flow.pmMove st.direction) bar flow pairKey
  | .positionOpen | .exitWorking =>
    checkExit setup env signals desk (st.updatePeak flow.pmMove st.direction) bar flow basePm
      pairKey
  | .cooldown => (desk, st.checkCooldown bar.barSecond)

/-- What a bar is worth to the pair: the Polymarket mid and the base, if the bar
is fresh and both are positive. -/
def barPrices (cfg : TradeConfig) (st : PairTradeState) (bar : Bars1sPair) : Option (ℚ × ℚ) :=
  match pmMidFromBar bar, st.basePm with
  | some pmMid, some basePm =>
    if isBarFresh cfg bar = true ∧ pmMid > 0 ∧ basePm > 0 then some (pmMid, basePm) else none
  | _, _ => none

/-- The fields that a usable bar leaves in the state before the check. -/
def recordBar (st : PairTradeState) (bar : Bars1sPair) (flow : PmFlow) (basePm : ℚ) :
    PairTradeState :=
  let st :=
    { st with
      lastBar := some bar
      lastPmMove := some flow.pmMove
      lastPmMom := some flow.pmMom
      lastOfi250ms := some flow.ofiValue
      lastBasePm := some basePm }
  -- the peak of an idle pair follows the sign of the move
  if st.state = .idle then st.updatePeak flow.pmMove (if flow.pmMove ≥ 0 then 1 else -1) else st

/-- `handle_bar`. -/
def handleBar (bar : Bars1sPair) (signal : Option EntrySignal) : TradeEngine :=
  -- the flush comes first, so that the second before is closed
  let eng := flushPendingEntries setup env eng bar.barSecond
  let key : PairKey := (bar.pairId, bar.tokenSide)
  let st := updateBasePm setup.cfg (eng.stateOf key) bar
  match barPrices setup.cfg st bar with
  -- a bar that is not usable only counts down the cooldown
  | none => eng.putBack key (eng.desk, st.checkCooldown bar.barSecond)
  | some (pmMid, basePm) =>
    let pmMove := (pmMid - basePm) / basePm
    let pmMom := (st.lastPmMove.map (pmMove - ·)).getD 0
    let flow : PmFlow := ⟨pmMove, pmMom, bar.polyOfi250ms.getD 0⟩
    let st := recordBar st bar flow basePm
    let (desk, st') := barCheck setup env (eng.shockSignals key) eng.desk st bar flow basePm key
    let done := eng.putBack key (desk, st'.updateOpiSnapshot bar)
    -- an idle pair may queue a candidate after its check
    match st.state, signal with
    | .idle, some signal => done.queueEntry (pendingEntryOf bar flow basePm signal)
    | _, _ => done

/-- One pair of `cancel_check_tick`. -/
def tickPair (key : PairKey) : TradeEngine :=
  eng.onKnown key fun st =>
    -- a pair that has seen no bar has nothing to check
    match st.lastBar with
    | none => (eng.desk, st)
    | some bar =>
      match st.state with
      | .entryWorking =>
        checkEntry setup env (eng.shockSignals key) eng.desk st bar st.lastFlow key
      | .exitWorking =>
        -- the base price of the last bar, or the running one
        let basePm := (st.lastBasePm.or st.basePm).getD 0
        if basePm > 0 then
          checkExit setup env (eng.shockSignals key) eng.desk st bar st.lastFlow basePm key
        else (eng.desk, st)
      | _ => (eng.desk, st)

/-- `cancel_check_tick`. -/
def cancelCheckTick (order : List PairKey) : TradeEngine :=
  order.foldl (fun eng key => tickPair setup env eng key) eng

/-! ### Responses of the executor -/

/-- `handle_entry_place_result`, once the request id has matched. -/
def applyPlaceResult (st : PairTradeState) (entry : PendingEntry) (pairKey : PairKey)
    (result : PlaceResult) : Desk × PairTradeState :=
  let cfg := setup.cfg
  let second := entry.bar.barSecond
  let qty := st.entryQty.getD 0
  let orderId := result.order.map (·.orderId)
  let clientId := (result.order.bind (·.clientOrderId)).or result.clientIdUsed
  -- an order without an id stands too, and can only be polled by its client id
  if orderId.isSome ∨ result.lastErr = some "order_id_missing" then
    let price := (result.priceUsed.or st.entryPrice).getD 0
    ({ eng.desk with
        books := eng.desk.books.addExposure (exposureKey pairKey entry.direction) (price * qty)
          (st.alphaType.getD entry.alphaType) },
      { st with
        toOrderState := st.toOrderState.working price qty env.now orderId clientId
        entryBarSecond := some second
        pmMomEntry := some entry.pmMom })
  else
    -- nothing was accepted: pool and notional are given back
    let risk := eng.desk.books.risk.releaseEntryPool cfg second (st.entryNotional.getD 0)
    ({ eng.desk with books := { eng.desk.books with risk := risk } },
      PairTradeState.enterCooldown { st with entryNotional := none } second
        cfg.cooldownAfterPostonlyRejectMs)

/-- `handle_entry_place_result`. -/
def handleEntryPlaceResult (pairKey : PairKey) (reqId : ℕ) (result : PlaceResult) : TradeEngine :=
  eng.onKnown pairKey fun st =>
    -- the response to another request
    if st.entryPlaceReqId ≠ some reqId then (eng.desk, st)
    else
      let st' := { st with entryPlaceReqId := none, pendingEntry := none }
      match st.pendingEntry with
      | none => (eng.desk, st')
      | some entry => applyPlaceResult setup env eng st' entry pairKey result

/-- `handle_fill_response`. -/
def handleFillResponse (pairKey : PairKey) (reqId : ℕ) (kind : FillKind)
    (result : FillPollResult) : TradeEngine :=
  eng.onKnown pairKey fun st =>
    -- the answer to another poll
    if st.fillPollReqId ≠ some reqId then (eng.desk, st)
    else
      let st := { st with fillPollReqId := none }
      let req := eng.desk.req.updateFillPollBackoff setup env result.rateLimited result.error.isNone
      let desk := { eng.desk with req := req }
      match st.lastBar with
      | none => (desk, st)
      | some bar =>
        -- an empty answer leaves the pair alone
        if result.fills = [] then (desk, st)
        else
          match kind with
          | .entry =>
            applyEntryFillsAndCheck setup env (eng.shockSignals pairKey) desk st bar st.lastFlow
              result.fills pairKey
          | .exit => applyExitFills setup.cfg desk st bar result.fills

/-- What a confirmed cancellation of the entry order does. -/
def entryCancelled (desk : Desk) (st : PairTradeState) (pairKey : PairKey) :
    Desk × PairTradeState :=
  match st.lastBar with
  | some bar => finalizeEntryCancel setup.cfg desk st bar pairKey
  | none =>
    -- without a bar the cooldown counts from the second of the entry
    (desk, st.enterCooldown (st.entryBarSecond.getD 0) setup.cfg.cooldownAfterCancelMs)

/-- The pair whose cancel request has this id. -/
def cancelOwner (reqId : ℕ) : Option PairKey :=
  -- the first pair in the order of the map
  (eng.states.entries.find? fun e =>
    decide (e.2.entryCancelReqId = some reqId) || decide (e.2.exitCancelReqId = some reqId)).map
      (·.1)

/-- The open-orders check of `handle_cancel_response`: made only after a rate
limit or a server error, and only while the user channel is silent. -/
def verifyCancel (pairKey : PairKey) (orderId : String) (result : CancelResult) :
    Requests × Bool :=
  if result.ok = false ∧ (result.rateLimited = true ∨ result.serverError = true) ∧
      eng.desk.req.wsUserChannelActive setup env = false then
    match eng.desk.req.isOrderOpenForCancel setup env pairKey orderId with
    | (req, verdict) => (req, decide (verdict = some false))
  else (eng.desk.req, false)

/-- The bookkeeping of a cancel response that does not depend on the pair's state. -/
def noteCancel (req : Requests) (pairKey : PairKey) (orderId : String) (result : CancelResult)
    (cancelOk : Bool) : Requests :=
  let req := req.updateCancelBackoff setup env result
  -- the backoff looks at the response, the retry at the outcome
  if cancelOk then
    let req := req.clearCancelRetry orderId
    match setup.orderTargets pairKey with
    | some target => req.evictOpenOrderCache target.marketId orderId
    | none => req
  else req.recordCancelFailure env orderId

/-- `handle_cancel_response`. -/
def handleCancelResponse (reqId : ℕ) (orderId : String) (result : CancelResult) : TradeEngine :=
  -- no pair waits for this request
  match eng.cancelOwner reqId with
  | none => eng
  | some pairKey =>
    let (req, verified) := verifyCancel setup env eng pairKey orderId result
    let cancelOk := result.ok || verified
    let desk := { eng.desk with req := noteCancel setup env req pairKey orderId result cancelOk }
    eng.onKnown pairKey fun st =>
      -- otherwise the request was for the exit order
      if st.entryCancelReqId = some reqId then
        let st := { st with entryCancelReqId := none }
        if cancelOk then entryCancelled setup desk st pairKey else (desk, st)
      else
        let st := { st with exitCancelReqId := none }
        if cancelOk then (desk, { st with toOrderState := st.toOrderState.exitCancelled })
        else (desk, st)

/-- `handle_order_response`. -/
def handleOrderResponse : OrderResponse → TradeEngine
  | .placeChase id pairKey result => handleEntryPlaceResult setup env eng pairKey id result
  | .cancelOrder id orderId result => handleCancelResponse setup env eng id orderId result
  | .fetchFills id pairKey kind result => handleFillResponse setup env eng pairKey id kind result

/-! ### The user channel -/

/-- The time of the last message on the user channel is kept, also when the
message is dropped. -/
def noteUserMessage : TradeEngine :=
  { eng with
    desk := { eng.desk with req := { eng.desk.req with lastWsUserMsgMs := some env.now } } }

/-- `handle_opinion_order_update`, for an order of the pair. -/
def applyOrderUpdate (update : OpinionUserOrderUpdate) (pairKey : PairKey) (desk : Desk)
    (st : PairTradeState) (matchesEntry matchesExit : Bool) : Desk × PairTradeState :=
  if update.isCancel then
    -- the order is gone, so it needs no retry
    let desk := { desk with req := desk.req.clearCancelRetry update.orderId }
    if matchesEntry then
      entryCancelled setup desk { st with toOrderState := st.toOrderState.dropEntryCancel } pairKey
    else (desk, { st with toOrderState := st.toOrderState.exitCancelled.dropExitCancel })
  -- a fill is read off the type or off the filled shares
  else if update.isFillUpdate = true ∨ update.filled.getD 0 > 0 then
    applyWsFills setup env (eng.shockSignals pairKey) desk st pairKey matchesEntry matchesExit
      [update.fill env.now]
  -- filled, but no word of how much: ask for it
  else if update.status.getD 0 = 2 then
    let (req, st) := desk.req.maybeEnqueueFillPoll setup env st pairKey
      (if matchesEntry then .entry else .exit)
    ({ desk with req := req }, st)
  else (desk, st)

/-- `handle_opinion_order_update`. -/
def handleOpinionOrderUpdate (update : OpinionUserOrderUpdate) : TradeEngine :=
  let eng := noteUserMessage env eng
  let pairKey : PairKey := (update.pairId, update.tokenSide)
  eng.onKnown pairKey fun st =>
    let matchesEntry := decide (st.entryOrderId = some update.orderId)
    let matchesExit := decide (st.exitOrderId = some update.orderId)
    -- the update names an order that the pair works
    if matchesEntry || matchesExit then
      applyOrderUpdate setup env eng update pairKey eng.desk st matchesEntry matchesExit
    else (eng.desk, st)

/-- `handle_opinion_trade_record`. -/
def handleOpinionTradeRecord (record : OpinionUserTradeRecord) : TradeEngine :=
  let eng := noteUserMessage env eng
  let pairKey : PairKey := (record.pairId, record.tokenSide)
  eng.onKnown pairKey fun st =>
    let matchesEntry := decide (st.entryOrderId = some record.orderId)
    let matchesExit := decide (st.exitOrderId = some record.orderId)
    if matchesEntry || matchesExit then
      applyWsFills setup env (eng.shockSignals pairKey) eng.desk st pairKey matchesEntry matchesExit
        [record.fill env.now]
    else (eng.desk, st)

/-! ### One message -/

/-- `handle_shock`. -/
def handleShock (pairKey : PairKey) (signal : ShockSignal) : TradeEngine :=
  { eng with
    shockSignals := Function.update eng.shockSignals pairKey
      (recordShock setup.cfg (eng.shockSignals pairKey) signal) }

/-- One round of the engine's loop. -/
def handle : TradeMessage → TradeEngine
  | .pairBar bar signal => handleBar setup env eng bar signal
  | .shock pairKey signal => handleShock setup eng pairKey signal
  | .cancelCheckTick order => cancelCheckTick setup env eng order
  | .orderUpdate update => handleOpinionOrderUpdate setup env eng update
  | .tradeRecord record => handleOpinionTradeRecord setup env eng record
  | .orderResponse response => handleOrderResponse setup env eng response

end TradeEngine

end AlphaMonitor.Trade
