import AlphaMonitor.Lib.Chain
import AlphaMonitor.Trade.Engine

/-!
# What the handlers can do to a pair

Every handler of the engine changes the orders of a pair, the exposure counters
and the requests in a few small moves.  This file lists the moves (`Move`), on
the part of the engine that they are about (`Slot`); `Trade.Handlers` shows that
the handlers make no others.  Invariants of whole runs are then proved one move
at a time.

## Main definitions

- `Slot`: the orders of one pair, the counters, the exit calls and the requests
- `Upkeep`: moves that fill, release and place nothing
- `Move`: all moves, each with a label (`Act`) that says what it does
- `Steps`: a chain of moves with allowed labels
-/

namespace AlphaMonitor.Trade

/-! ## Slots -/

/-- What the handlers of all pairs share. -/
structure DeskView where
  counters : Counters
  /-- Exit calls made so far, in order. -/
  calls : List (PairKey × Submission)
  nextId : ℕ
  queue : List OrderRequest

/-- One pair as the moves see it. -/
structure Slot where
  order : OrderState
  lastBar : Option Bars1sPair
  desk : DeskView

/-- A usable bar has been seen. -/
def Slot.hasBar (s : Slot) : Bool := s.lastBar.isSome

def Desk.view (desk : Desk) : DeskView where
  counters := desk.books.counters
  calls := desk.exitCalls
  nextId := desk.req.nextOrderReqId
  queue := desk.req.orderExec

/-- The slot of a per-pair function's arguments or results. -/
def slotOf (r : Desk × PairTradeState) : Slot where
  order := r.2.toOrderState
  lastBar := r.2.lastBar
  desk := r.1.view

@[simp] theorem view_counters (desk : Desk) : desk.view.counters = desk.books.counters := rfl

@[simp] theorem view_calls (desk : Desk) : desk.view.calls = desk.exitCalls := rfl

@[simp] theorem view_nextId (desk : Desk) : desk.view.nextId = desk.req.nextOrderReqId := rfl

@[simp] theorem view_queue (desk : Desk) : desk.view.queue = desk.req.orderExec := rfl

@[simp] theorem slotOf_order (r : Desk × PairTradeState) :
    (slotOf r).order = r.2.toOrderState := rfl

@[simp] theorem slotOf_lastBar (r : Desk × PairTradeState) :
    (slotOf r).lastBar = r.2.lastBar := rfl

@[simp] theorem slotOf_hasBar (r : Desk × PairTradeState) :
    (slotOf r).hasBar = r.2.lastBar.isSome := rfl

@[simp] theorem slotOf_desk (r : Desk × PairTradeState) : (slotOf r).desk = r.1.view := rfl

/-- Send a request. -/
def DeskView.send (desk : DeskView) (kind : OrderRequestKind) : DeskView :=
  { desk with nextId := desk.nextId + 1, queue := desk.queue ++ [⟨desk.nextId + 1, kind⟩] }

/-- Add the calls of an exit chase. -/
def DeskView.call (desk : DeskView) (key : PairKey) (calls : List Submission) : DeskView :=
  { desk with calls := desk.calls ++ calls.map fun call => (key, call) }

/-- Release what the pair holds, as `releaseEntryNotional` does. -/
def Counters.releaseOf (c : Counters) (key : PairKey) (o : OrderState) : Counters :=
  -- the same default as in the source
  match o.entryNotional with
  | some notional => c.release (exposureKey key o.direction) notional (o.alphaType.getD .gapB)
  | none => c

/-! ## Classes of states -/

namespace OrderState

variable (o : OrderState)

/-- An entry is being placed or worked. -/
def Entering : Prop :=
  o.state = .entryReady ∨ o.state = .entryPlacing ∨ o.state = .entryWorking

/-- A position is held. -/
def Open : Prop := o.state = .positionOpen ∨ o.state = .exitWorking

/-- An order or a position is held. -/
def Holding : Prop := o.state = .entryWorking ∨ o.Open

instance : Decidable o.Entering := inferInstanceAs (Decidable (_ ∨ _ ∨ _))

instance : Decidable o.Open := inferInstanceAs (Decidable (_ ∨ _))

instance : Decidable o.Holding := inferInstanceAs (Decidable (_ ∨ _))

/-- The notional is given up and the pair waits: the end of a position and of a
cancelled entry. -/
def closed : OrderState := { o with entryNotional := none }.cooldown

/-- The exit ids after a chase. -/
def exitPlaced (result : PlaceResult) : OrderState :=
  match result.order with
  | some order =>
    -- a chase without an order leaves the ids as they are
    { o with
      exitOrderId := some order.orderId
      exitClientId := order.clientOrderId.or result.clientIdUsed }
  | none => o

/-- The fill is one that `apply_entry_fills` takes. -/
def TakesEntryFill (fill : TradeFill) : Prop :=
  fillMatchesOrder o.entryOrderId o.entryClientId fill = true ∧
    fillSideMatches o.direction fill.side = true

/-- The fill is one that `apply_exit_fills` takes. -/
def TakesExitFill (fill : TradeFill) : Prop :=
  fillMatchesOrder o.exitOrderId o.exitClientId fill = true ∧
    fillSideMatches (-o.direction) fill.side = true

end OrderState

/-! ## Moves -/

/-- Moves that fill, release and place nothing. -/
inductive Upkeep (key : PairKey) (s : Slot) : Slot → Prop
  /-- A usable bar arrives. -/
  | sawBar (bar : Bars1sPair) (hkey : key = (bar.pairId, bar.tokenSide)) :
      Upkeep key s { s with lastBar := some bar }
  /-- The cooldown is over. -/
  | expire (hstate : s.order.state = .cooldown) :
      Upkeep key s { s with order := OrderState.idle }
  /-- `check_entry` finds no direction. -/
  | forget (hstate : s.order.Entering) (hdir : s.order.direction = 0) :
      Upkeep key s { s with order := OrderState.idle }
  /-- `maybe_enter` finds no price. -/
  | giveUp (hstate : s.order.state = .idle) (hbar : s.hasBar = true) :
      Upkeep key s { s with order := s.order.cooldown }
  /-- `maybe_enter` cannot send its placement. -/
  | giveUpSending (entry : PendingEntry) (qty price : ℚ) (hstate : s.order.state = .idle)
      (hbar : s.hasBar = true) :
      Upkeep key s { s with order := (s.order.placing entry qty price).cooldown }
  /-- A placement response finds no pending entry. -/
  | stray (reqId : ℕ) (hreq : s.order.entryPlaceReqId = some reqId)
      (hnone : s.order.pendingEntry = none) :
      Upkeep key s { s with order := { s.order with entryPlaceReqId := none } }
  | askEntryCancel (reason : Option CancelReason) (hstate : s.order.Entering)
      (hreq : s.order.entryPlaceReqId = none) :
      Upkeep key s
        { s with order := { s.order with
            entryCancelPending := true, entryCancelReason := reason } }
  | sendEntryCancel (orderId : String) (hstate : s.order.Entering)
      (hreq : s.order.entryPlaceReqId = none) (hpend : s.order.entryCancelPending = true)
      (hid : s.order.entryOrderId = some orderId) :
      Upkeep key s
        { s with
          order := { s.order with entryCancelReqId := some (s.desk.nextId + 1) }
          desk := s.desk.send (.cancelOrder orderId) }
  | entryCancelFailed :
      Upkeep key s { s with order := { s.order with entryCancelReqId := none } }
  | askExitCancel (reason : Option CancelReason) (hstate : s.order.state = .exitWorking)
      (hid : s.order.exitOrderId.isSome ∨ s.order.exitClientId.isSome) :
      Upkeep key s
        { s with order := { s.order with exitCancelPending := true, exitCancelReason := reason } }
  | sendExitCancel (orderId : String) (hstate : s.order.Open)
      (hpend : s.order.exitCancelPending = true) (hid : s.order.exitOrderId = some orderId) :
      Upkeep key s
        { s with
          order := { s.order with exitCancelReqId := some (s.desk.nextId + 1) }
          desk := s.desk.send (.cancelOrder orderId) }
  | exitCancelFailed :
      Upkeep key s { s with order := { s.order with exitCancelReqId := none } }
  /-- An exit fill finds no entry price or quantity. -/
  | dropExitCancel (hnone : ¬ (s.order.entryPrice.isSome ∧ s.order.entryQty.isSome)) :
      Upkeep key s { s with order := s.order.dropExitCancel }
  /-- A request id is used but the executor is gone. -/
  | burnId : Upkeep key s { s with desk := { s.desk with nextId := s.desk.nextId + 1 } }
  /-- A fill poll is queued. -/
  | poll (kind : FillKind) (target : OpinionOrderTarget) (since : Option ℤ) :
      Upkeep key s { s with desk := s.desk.send (.fetchFills key kind target since) }

/-- Who says that an order is cancelled. -/
inductive Cause where
  /-- The response to the cancel request with this id. -/
  | ack (reqId : ℕ)
  /-- An update of the user channel for this order. -/
  | update (orderId : String)
  /-- A dry run needs nobody. -/
  | paper
  deriving DecidableEq, Repr

/-- The cause is about the entry order of the pair. -/
def Cause.OfEntry (o : OrderState) : Cause → Prop
  | .ack reqId => o.entryCancelReqId = some reqId
  | .update orderId => o.entryOrderId = some orderId
  | .paper => o.Entering

/-- The cause is about the exit order of the pair. -/
def Cause.OfExit (o : OrderState) : Cause → Prop
  | .ack reqId => o.exitCancelReqId = some reqId
  | .update orderId => o.exitOrderId = some orderId
  | .paper => False

/-- What a move does. -/
inductive Act where
  | upkeep
  | queueEntry (entry : PendingEntry) (qty : ℚ) (prices : List ℚ)
  | enterPaper (entry : PendingEntry) (qty price : ℚ)
  | placed (reqId : ℕ) (result : PlaceResult)
  | refused (reqId : ℕ)
  | entryFill (fill : TradeFill)
  | callExit (calls : List Submission)
  | exitFill (fill : TradeFill)
  | cancelEntry (cause : Cause)
  | cancelExit (cause : Cause)
  | fillPaper

/-- The budget that the counters leave gave the entry its quantity and prices. -/
def EntrySized (cfg : TradeConfig) (counters : Counters) (entry : PendingEntry) (qty : ℚ)
    (prices : List ℚ) : Prop :=
  ∃ (env : Env) (books : Books) (pool : Option ℚ) (notional : ℚ) (shape : BookShape) (first : ℚ)
    (rest : List ℚ),
    books.counters = counters ∧ bookShape cfg entry.bar entry.direction = some shape ∧
      (books.budgetForEntry cfg (exposureKey entry.key entry.direction) entry.bar.barSecond pool
        entry.alphaType).2 = some notional ∧
      entryDecision cfg env entry shape notional = .place qty first rest ∧ prices = first :: rest

/-- One move on the slot of the pair `key`. -/
inductive Move (setup : Setup) (key : PairKey) (s : Slot) : Act → Slot → Prop
  | upkeep {t : Slot} (h : Upkeep key s t) : Move setup key s .upkeep t
  | queueEntry (entry : PendingEntry) (qty first : ℚ) (rest : List ℚ)
      (target : OpinionOrderTarget) (hlive : setup.isLive = true)
      (hstate : s.order.state = .idle) (hbar : s.hasBar = true) (hkey : entry.key = key)
      (hdir : entry.direction ≠ 0)
      (hsized : EntrySized setup.cfg s.desk.counters entry qty (first :: rest)) :
      Move setup key s (.queueEntry entry qty (first :: rest))
        { s with
          order := { s.order.placing entry qty first with
            entryPlaceReqId := some (s.desk.nextId + 1) }
          desk := s.desk.send
            (.placeChase key target (entrySide entry.direction) qty (first :: rest) "E") }
  | enterPaper (entry : PendingEntry) (qty price : ℚ) (rest : List ℚ) (now : ℤ)
      (hlive : setup.isLive = false) (hstate : s.order.state = .idle) (hbar : s.hasBar = true)
      (hkey : entry.key = key) (hdir : entry.direction ≠ 0)
      (hsized : EntrySized setup.cfg s.desk.counters entry qty (price :: rest)) :
      Move setup key s (.enterPaper entry qty price)
        { s with
          order := s.order.workingDry entry qty price now
          desk := { s.desk with
            counters := s.desk.counters.add (exposureKey key entry.direction) (price * qty)
              entry.alphaType } }
  | placed (reqId : ℕ) (result : PlaceResult) (entry : PendingEntry) (price qty : ℚ) (now : ℤ)
      (hreq : s.order.entryPlaceReqId = some reqId) (hentry : s.order.pendingEntry = some entry)
      (hok : result.order.isSome ∨ result.lastErr = some "order_id_missing")
      (hprice : price = (result.priceUsed.or s.order.entryPrice).getD 0)
      (hqty : qty = s.order.entryQty.getD 0) :
      Move setup key s (.placed reqId result)
        { s with
          order := OrderState.working
            { s.order with entryPlaceReqId := none, pendingEntry := none } price qty
            now (result.order.map (·.orderId))
            ((result.order.bind (·.clientOrderId)).or result.clientIdUsed)
          desk := { s.desk with
            counters := s.desk.counters.add (exposureKey key entry.direction) (price * qty)
              (s.order.alphaType.getD entry.alphaType) } }
  | refused (reqId : ℕ) (hreq : s.order.entryPlaceReqId = some reqId) :
      Move setup key s (.refused reqId) { s with order := s.order.closed }
  | entryFill (fill : TradeFill) (now : ℤ) (hbar : s.hasBar = true)
      (htakes : s.order.TakesEntryFill fill) :
      Move setup key s (.entryFill fill) { s with order := s.order.entryFilled fill now }
  /-- The open position starts to be worked. -/
  | openExit (qty : ℚ) (prices : List ℚ) (result : PlaceResult) (calls : List Submission)
      (hlive : setup.isLive = true) (hstate : s.order.state = .positionOpen)
      (hqty : s.order.entryQty = some qty) (hcancel : s.order.exitCancelPending = false)
      (hpos : ∀ price ∈ prices, 0 < price)
      (hcalls : ChaseOutcome (exitSide s.order.direction) qty prices result calls) :
      Move setup key s (.callExit calls)
        { s with
          order := { s.order with state := .exitWorking }.exitPlaced result
          desk := s.desk.call key calls }
  /-- A worked position has no exit order and gets one. -/
  | retryExit (qty : ℚ) (prices : List ℚ) (result : PlaceResult) (calls : List Submission)
      (hlive : setup.isLive = true) (hstate : s.order.state = .exitWorking)
      (hqty : s.order.entryQty = some qty) (hcancel : s.order.exitCancelPending = false)
      (hid : s.order.exitOrderId = none) (hclient : s.order.exitClientId = none)
      (hpos : ∀ price ∈ prices, 0 < price)
      (hcalls : ChaseOutcome (exitSide s.order.direction) qty prices result calls) :
      Move setup key s (.callExit calls)
        { s with order := s.order.exitPlaced result, desk := s.desk.call key calls }
  | exitFill (fill : TradeFill) (hbar : s.hasBar = true) (htakes : s.order.TakesExitFill fill)
      (hsome : s.order.entryPrice.isSome ∧ s.order.entryQty.isSome) :
      Move setup key s (.exitFill fill)
        { s with
          order := s.order.closed
          desk := { s.desk with counters := s.desk.counters.releaseOf key s.order } }
  | cancelEntry (cause : Cause) (hcause : cause.OfEntry s.order)
      (hpaper : cause = .paper → setup.isLive = false) (hbar : s.hasBar = true) :
      Move setup key s (.cancelEntry cause)
        { s with
          order := s.order.closed
          desk := { s.desk with counters := s.desk.counters.releaseOf key s.order } }
  /-- Before the first bar an entry is dropped without a release. -/
  | abandonEntry (cause : Cause) (hcause : cause.OfEntry s.order) (hbar : s.hasBar = false) :
      Move setup key s (.cancelEntry cause) { s with order := s.order.cooldown }
  | cancelExit (cause : Cause) (hcause : cause.OfExit s.order) :
      Move setup key s (.cancelExit cause)
        { s with order := s.order.exitCancelled.dropExitCancel }
  /-- A dry run fills the entry on paper. -/
  | entryPaper (price : ℚ) (now : ℤ) (hlive : setup.isLive = false) (hstate : s.order.Entering)
      (hcancel : s.order.entryCancelPending = false) :
      Move setup key s .fillPaper
        { s with order := { s.order with
            state := .positionOpen, entryPrice := some price, entryTsMs := some now } }
  /-- A dry run starts to work the exit on paper. -/
  | openPaper (hlive : setup.isLive = false) (hstate : s.order.state = .positionOpen)
      (hqty : s.order.entryQty.isSome) :
      Move setup key s .fillPaper { s with order := { s.order with state := .exitWorking } }
  /-- A dry run fills the exit on paper. -/
  | exitPaper (hlive : setup.isLive = false) (hstate : s.order.state = .exitWorking) :
      Move setup key s .fillPaper
        { s with
          order := s.order.closed
          desk := { s.desk with counters := s.desk.counters.releaseOf key s.order } }

/-- A chain of moves of one pair whose labels are allowed. -/
abbrev Steps (setup : Setup) (key : PairKey) (allow : Slot → Act → Prop) : Slot → Slot → Prop :=
  Lib.Chain (Move setup key) allow

end AlphaMonitor.Trade
