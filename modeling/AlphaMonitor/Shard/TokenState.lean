import AlphaMonitor.Shard.Book

/-!
# The state of one token

A token's events change its book at once, while their counts go to the
accumulator of the second they belong to.  A second is barred when the watermark
is `lateEventBufferSecs` ahead of it.

Latency histograms and the shock engine, which only read what is modelled here,
are left out.

## Main definitions

- `TokenState.handleEvent`: what one event does to the token
- `TokenState.flush`: the bar of one second
- `TokenState.flushReady`: the bars of all seconds that are due
-/

namespace AlphaMonitor.Shard

def ofiFastWindowMs : ℤ := 250
def healthWsConnected : ℕ := 1
def healthHeartbeatOk : ℕ := 2
def healthResyncRecent : ℕ := 4
def healthEventDrop : ℕ := 8
def opiResyncDepthRatio : ℚ := 5 / 100
def lateEventBufferSecs : ℤ := 2
def cancelRatioWindowLen : ℕ := 21600

/-- `ShardConfig`. -/
structure ShardConfig where
  (pmStalenessMs otherStalenessMs hardClearMs : ℤ)
  alphaCaptureEnabled : Bool
  deriving DecidableEq, Repr

/-- `ResyncLog`. -/
structure ResyncLog where
  venue : Venue
  tokenKey : String
  reason : String
  (triggerLocalTsMs triggerExchangeTsMs : ℤ)
  (venueHashBefore venueHashAfter localTopnHashBefore localTopnHashAfter : Option String)
  deriving DecidableEq, Repr

/-! ## Bars -/

/-- `Bars1sToken`. -/
structure Bars1sToken where
  venue : Venue
  tokenKey : String
  tokenSide : TokenSide
  barSecond : ℤ
  exchangeTsSource : ExchangeTsSource
  connectionHealthFlags : ℕ
  (barGapFlag barStaleFlag : ℤ)
  stalenessMs : Option ℤ
  (eventCount1s tsMissingCount1s tsAnomalyCount1s bookResyncFlag : ℤ)
  (bestBidPx bestAskPx midPx : Option ℚ)
  (bestBidPxState bestAskPxState midPxState : Option ℚ)
  (lastPrice microPx spreadPx tickPx : Option ℚ)
  spreadTicks : Option ℤ
  (top3DepthBidNotional top3DepthAskNotional : Option ℚ)
  (bidL1Notional bidL2Notional bidL3Notional : Option ℚ)
  (askL1Notional askL2Notional askL3Notional : Option ℚ)
  (top10DepthBidNotional top10DepthAskNotional : Option ℚ)
  (depth1pctBidNotional depth1pctAskNotional imbalanceTop10 : Option ℚ)
  (airPocketBidTicks airPocketAskTicks : Option ℤ)
  (bookUpdates1s addUpdates1s cancelUpdates1s matchUpdates1s removeUnknownUpdates1s : ℤ)
  tradeCount1s : ℤ
  (volumeShares1s volumeNotional1s : ℚ)
  vwap1s : Option ℚ
  (buyNotional1s sellNotional1s cvdDelta1s : ℚ)
  tradeSideMissingCount1s : ℤ
  (ofi1s ofi250ms bidDeltaNotional250ms askDeltaNotional250ms : ℚ)
  midSlope250ms : Option ℚ
  ofi10s : Option ℚ
  levelsCrossed1s : ℤ
  (maxTradeNotional1s buyNotional250ms sellNotional250ms maxTradeNotional250ms : ℚ)
  depthWithdrawalRatio : Option ℚ
  liquidityPullFlag : ℤ
  (venueBookHash localTopnHash : Option String)
  deriving DecidableEq, Repr

/-! ## Accumulators -/

/-- `SecondAccumulator`. -/
structure SecondAccumulator where
  (eventCount criticalEventCount bookUpdates1s addUpdates1s cancelUpdates1s : ℤ)
  (matchUpdates1s removeUnknownUpdates1s tradeCount1s : ℤ)
  (volumeShares1s volumeNotional1s buyNotional1s sellNotional1s cvdDelta1s : ℚ)
  tradeSideMissingCount1s : ℤ
  (ofi1s ofi250ms bidDeltaNotional250ms askDeltaNotional250ms : ℚ)
  midSlope250ms : Option ℚ
  levelsCrossed1s : ℤ
  (maxTradeNotional1s buyNotional250ms sellNotional250ms maxTradeNotional250ms : ℚ)
  wallPullSignal : Option DenseBook.WallPullSignal
  (tsMissingCount1s tsAnomalyCount1s : ℤ)
  (venueWsCount venueRestCount estCount fallbackCount : ℤ)
  deriving DecidableEq, Repr

namespace SecondAccumulator

/-- `SecondAccumulator::default`. -/
def default : SecondAccumulator where
  eventCount := 0
  criticalEventCount := 0
  bookUpdates1s := 0
  addUpdates1s := 0
  cancelUpdates1s := 0
  matchUpdates1s := 0
  removeUnknownUpdates1s := 0
  tradeCount1s := 0
  volumeShares1s := 0
  volumeNotional1s := 0
  buyNotional1s := 0
  sellNotional1s := 0
  cvdDelta1s := 0
  tradeSideMissingCount1s := 0
  ofi1s := 0
  ofi250ms := 0
  bidDeltaNotional250ms := 0
  askDeltaNotional250ms := 0
  midSlope250ms := none
  levelsCrossed1s := 0
  maxTradeNotional1s := 0
  buyNotional250ms := 0
  sellNotional250ms := 0
  maxTradeNotional250ms := 0
  wallPullSignal := none
  tsMissingCount1s := 0
  tsAnomalyCount1s := 0
  venueWsCount := 0
  venueRestCount := 0
  estCount := 0
  fallbackCount := 0

variable (acc : SecondAccumulator)

/-- `record_latency`, without the histograms. -/
def recordLatency (source : ExchangeTsSource) : SecondAccumulator :=
  let acc := { acc with eventCount := acc.eventCount + 1 }
  match source with
  | .venueWs => { acc with venueWsCount := acc.venueWsCount + 1 }
  | .venueRest => { acc with venueRestCount := acc.venueRestCount + 1 }
  | .estimated => { acc with estCount := acc.estCount + 1 }
  | .localFallback => { acc with fallbackCount := acc.fallbackCount + 1 }

/-- `vwap`. -/
def vwap : Option ℚ :=
  if acc.volumeShares1s ≤ 0 then none else some (acc.volumeNotional1s / acc.volumeShares1s)

/-- `dominant_source`. -/
def dominantSource : ExchangeTsSource :=
  -- ties go to the source that is asked first, from the fallback up
  let (best, count) : ExchangeTsSource × ℤ := (.localFallback, acc.fallbackCount)
  let (best, count) := if acc.estCount > count then (.estimated, acc.estCount) else (best, count)
  let (best, count) :=
    if acc.venueRestCount > count then (.venueRest, acc.venueRestCount) else (best, count)
  if acc.venueWsCount > count then .venueWs else best

/-- A book event is counted. -/
def bookEvent : SecondAccumulator :=
  { acc with
    bookUpdates1s := acc.bookUpdates1s + 1
    criticalEventCount := acc.criticalEventCount + 1 }

/-- A level update is counted by its type. -/
def levelUpdate : DeltaType → SecondAccumulator
  | .add | .addOrUpdate => { acc with addUpdates1s := acc.addUpdates1s + 1 }
  | .cancel => { acc with cancelUpdates1s := acc.cancelUpdates1s + 1 }
  | .match_ => { acc with matchUpdates1s := acc.matchUpdates1s + 1 }
  | .unknown => { acc with removeUnknownUpdates1s := acc.removeUnknownUpdates1s + 1 }

/-- A trade is counted. -/
def tradeEvent (payload : EventPayload) (sideMissing : Bool) : SecondAccumulator :=
  let acc := { acc with tradeCount1s := acc.tradeCount1s + 1 }
  let acc :=
    match payload.price, payload.size with
    | some price, some size =>
      { acc with
        volumeShares1s := acc.volumeShares1s + size
        volumeNotional1s := acc.volumeNotional1s + size * price
        maxTradeNotional1s :=
          if size * price > acc.maxTradeNotional1s then size * price else acc.maxTradeNotional1s }
    | _, _ => acc
  let acc :=
    { acc with
      matchUpdates1s := acc.matchUpdates1s + 1
      criticalEventCount := acc.criticalEventCount + 1 }
  let notional := payload.price.getD 0 * payload.size.getD 0
  match payload.side with
  | some .bid =>
    { acc with
      buyNotional1s := acc.buyNotional1s + notional, cvdDelta1s := acc.cvdDelta1s + notional }
  | some .ask =>
    { acc with
      sellNotional1s := acc.sellNotional1s + notional, cvdDelta1s := acc.cvdDelta1s - notional }
  | none =>
    -- only a trade that the feed has marked as lacking a side is counted as such
    if sideMissing then { acc with tradeSideMissingCount1s := acc.tradeSideMissingCount1s + 1 }
    else acc

end SecondAccumulator

/-! ## The state -/

/-- What the flows of the last 250 ms are computed from. -/
structure FlowWindows where
  (prevBestBid prevBestAsk : Option (ℚ × ℚ))
  (bidDeltaWindow askDeltaWindow midWindow ofiWindow : List (ℤ × ℚ))
  tradeWindow : List (ℤ × ℚ × BookSide)
  deriving DecidableEq, Repr

/-- What a bar takes over from the bars before it. -/
structure BarHistory where
  (prevTop10Bid prevTop10Ask : Option ℚ)
  lastLocalTopnHash : Option String
  (cancelRatioWindow ofiHistory : List ℚ)
  deriving DecidableEq, Repr

/-- The fields of `TokenState` that the prices and the resync flags of a bar are read from. -/
structure QuoteState where
  orderbook : DenseBook
  lastPrice : Option ℚ
  (lastBboBidPx lastBboAskPx : Option ℚ)
  bookInitialized : Bool
  lastResyncBarSecond : Option ℤ
  lastVenueHash : Option String
  resyncNeeded : Bool

/-- `TokenState`. -/
structure TokenState extends QuoteState where
  venue : Venue
  tokenSide : TokenSide
  accumulators : ℤ → Option SecondAccumulator
  (watermarkSecond lastFlushedSecond lastEventLocalTsMs : ℤ)
  flow : FlowWindows
  history : BarHistory
  lastDropCount : ℤ

/-- `TokenState::new`. -/
def TokenState.new (venue : Venue) (tokenSide : TokenSide) (initialBarSecond now : ℤ) :
    TokenState where
  orderbook := DenseBook.empty
  lastPrice := none
  lastBboBidPx := none
  lastBboAskPx := none
  bookInitialized := false
  lastResyncBarSecond := none
  lastVenueHash := none
  resyncNeeded := false
  venue := venue
  tokenSide := tokenSide
  accumulators := fun _ => none
  watermarkSecond := max initialBarSecond 0
  lastFlushedSecond := max initialBarSecond 0 - 1
  -- a negative second counts as zero, where the clock does not run yet
  lastEventLocalTsMs := now
  flow := ⟨none, none, [], [], [], [], []⟩
  history := ⟨none, none, none, [], []⟩
  lastDropCount := 0

namespace QuoteState

variable (q : QuoteState)

/-- The new value of a best price, if it is on the grid. -/
def validBbo (price previous : Option ℚ) : Option ℚ :=
  match price with
  -- a price off the grid does not replace the one that was reported last
  | some price => if (priceToIdx price).isSome then some price else previous
  | none => previous

/-- `update_bbo`. -/
def updateBbo (bestBid bestAsk : Option ℚ) : QuoteState :=
  { q with
    lastBboBidPx := validBbo bestBid q.lastBboBidPx
    lastBboAskPx := validBbo bestAsk q.lastBboAskPx }

/-- `mark_resync`. -/
def markResync (barSecond : ℤ) : QuoteState := { q with lastResyncBarSecond := some barSecond }

/-- The best levels or the depths of book and snapshot differ. -/
def driftMismatch (snap : SnapshotMetrics) : Bool :=
  let book := q.orderbook
  let localDepth := (book.depthTopN .bid 10).getD 0 + (book.depthTopN .ask 10).getD 0
  decide (book.bids.best ≠ snap.bestBidIdx) || decide (book.asks.best ≠ snap.bestAskIdx) ||
    -- both depths known: a relative difference; one of them empty: always a mismatch
    (if localDepth > 0 ∧ snap.depthTop10 > 0 then
      decide (|snap.depthTop10 - localDepth| / max localDepth (1 / 1000000000) ≥
        opiResyncDepthRatio)
    else decide ((localDepth > 0) ≠ (snap.depthTop10 > 0))) ||
    -- hashes are compared only where both sides have one
    (match book.topnHash 20, snap.topnHash with
      | some localHash, some snapHash => decide (localHash ≠ snapHash)
      | _, _ => false)

/-- `check_opinion_snapshot_drift`. -/
def checkOpinionSnapshotDrift (event : Event) : Option ResyncLog :=
  event.payload.bids.bind fun bids =>
    event.payload.asks.bind fun asks =>
      let snap := snapshotMetrics bids asks
      if q.driftMismatch snap = false then none
      else
        some
          { venue := event.venue
            tokenKey := event.tokenKey
            reason := "rest_mismatch"
            triggerLocalTsMs := event.localTsMs
            triggerExchangeTsMs := event.exchangeTsMs
            venueHashBefore := none
            venueHashAfter := none
            localTopnHashBefore := q.orderbook.topnHash 20
            localTopnHashAfter := snap.topnHash }

/-- The venue's best prices are not those of the book. -/
def bboMismatch (bestBid bestAsk : ℚ) : Bool :=
  match q.orderbook.bestBidAsk with
  | (some localBid, some localAsk) =>
    (priceToIdx localBid).isNone || (priceToIdx localAsk).isNone || (priceToIdx bestBid).isNone ||
      (priceToIdx bestAsk).isNone || decide (priceToIdx localBid ≠ priceToIdx bestBid) ||
      decide (priceToIdx localAsk ≠ priceToIdx bestAsk)
  -- a book with a side missing cannot agree with two reported prices
  | _ => true

/-- The best bid is not below the best ask. -/
def isCrossed : Bool :=
  match q.orderbook.bestBidAsk with
  | (some bid, some ask) => decide (bid ≥ ask)
  | _ => false

/-- A snapshot's venue hash is not the hash of the book. -/
def hashMismatch (event : Event) : Bool :=
  decide (event.kind = .bookSnapshot) &&
    (match event.payload.hash, q.orderbook.topnHash 20 with
      | some venueHash, some localHash => decide (venueHash ≠ localHash)
      | _, _ => false)

/-- The best prices that a Polymarket level update reports are not those of the book. -/
def reportedBboMismatch (event : Event) : Bool :=
  decide (event.venue = .polymarket) && decide (event.kind = .bookDelta) &&
    !decide (event.channel = some "best_bid_ask") &&
    (match event.payload.bestBid, event.payload.bestAsk with
      | some bestBid, some bestAsk => q.bboMismatch bestBid bestAsk
      | _, _ => false)

/-- The reason for which `check_resync` asks for a new snapshot. -/
def resyncReason (event : Event) (barSecond : ℤ) : Option String :=
  if q.lastResyncBarSecond = some barSecond then none
  else if event.flags.outOfOrder then some "out_of_order"
  else if q.isCrossed then some "impossible_state"
  else if q.hashMismatch event then some "hash_mismatch"
  else if q.reportedBboMismatch event then some "best_bid_ask_mismatch"
  else none

/-- `check_resync`. -/
def checkResync (event : Event) (barSecond : ℤ) (lastLocalTopnHash : Option String) :
    QuoteState × Option ResyncLog :=
  match q.resyncReason event barSecond with
  | none => (q, none)
  | some reason =>
    (q.markResync barSecond,
      some
        { venue := event.venue
          tokenKey := event.tokenKey
          reason := reason
          triggerLocalTsMs := event.localTsMs
          triggerExchangeTsMs := event.exchangeTsMs
          venueHashBefore := q.lastVenueHash
          venueHashAfter := event.payload.hash
          localTopnHashBefore := lastLocalTopnHash
          localTopnHashAfter := q.orderbook.topnHash 20 })

end QuoteState

namespace TokenState

variable (st : TokenState)

/-! ## Accumulators and windows -/

/-- `accumulator_mut`, followed by an update. -/
def withAcc (second : ℤ) (f : SecondAccumulator → SecondAccumulator) : TokenState :=
  { st with
    accumulators := Function.update st.accumulators second
      (some (f ((st.accumulators second).getD SecondAccumulator.default))) }

/-- An update of the accumulator of the event's own second, unless that is barred. -/
def onAcc (second : Option ℤ) (f : SecondAccumulator → SecondAccumulator) : TokenState :=
  match second with
  | some second => st.withAcc second f
  | none => st

/-- The entries of a window that are not too old. -/
def trimWindow {α : Type} (ts : α → ℤ) (eventTsMs : ℤ) (window : List α) : List α :=
  window.dropWhile fun entry => decide (ts entry < eventTsMs - ofiFastWindowMs)

/-- What a change of the best level adds to the order flow. -/
def flowComponent (better : Bool) (worse : Bool) (size prevSize : ℚ) : ℚ :=
  if better then size else if worse then -prevSize else size - prevSize

/-- `update_ofi_and_levels`. -/
def updateOfiAndLevels (second eventTsMs : ℤ) : TokenState :=
  match st.orderbook.bestBidAskSize with
  | (some (bidPx, bidSz), some (askPx, askSz)) =>
    let st :=
      match st.flow.prevBestBid, st.flow.prevBestAsk with
      | some (prevBidPx, prevBidSz), some (prevAskPx, prevAskSz) =>
        let bidPart :=
          flowComponent (decide (bidPx > prevBidPx)) (decide (bidPx < prevBidPx)) bidSz prevBidSz
        let askPart :=
          flowComponent (decide (askPx < prevAskPx)) (decide (askPx > prevAskPx)) askSz prevAskSz
        let ofiDelta := bidPart * bidPx - askPart * askPx
        let pushed :=
          -- the window takes changes only, but is trimmed by every update
          if |ofiDelta| > 0 then st.flow.ofiWindow ++ [(eventTsMs, ofiDelta)] else st.flow.ofiWindow
        let window := trimWindow Prod.fst eventTsMs pushed
        let crossed :=
          match st.orderbook.tickPx with
          | some tick =>
            if tick > 0 then
              max ⌊|(bidPx - prevBidPx) / tick|⌋ ⌊|(askPx - prevAskPx) / tick|⌋
            else 0
          | none => 0
        withAcc { st with flow := { st.flow with ofiWindow := window } } second fun acc =>
          { acc with
            ofi1s := acc.ofi1s + ofiDelta
            ofi250ms := (window.map Prod.snd).sum
            levelsCrossed1s := acc.levelsCrossed1s + crossed }
      | _, _ => st
    let mid := (bidPx + askPx) * (1 / 2)
    let window := trimWindow Prod.fst eventTsMs (st.flow.midWindow ++ [(eventTsMs, mid)])
    -- the slope is taken from the oldest mid of the window, in seconds
    let slope :=
      match window with
      | (ts, midThen) :: _ =>
        if eventTsMs > ts then some ((mid - midThen) / ((max (eventTsMs - ts) 1 : ℤ) / 1000))
        else none
      | [] => none
    withAcc
      { st with
        flow := { st.flow with
          midWindow := window
          prevBestBid := some (bidPx, bidSz)
          prevBestAsk := some (askPx, askSz) } }
      second fun acc => { acc with midSlope250ms := slope }
  -- a one-sided book keeps the best levels that were seen last
  | _ => st

/-- What a level update of this type adds to the depth. -/
def signedNotional (deltaType : DeltaType) (notional : ℚ) : ℚ :=
  match deltaType with
  | .add | .addOrUpdate => notional
  | .cancel | .match_ => -notional
  -- an update of unknown type does not say which way the size went
  | .unknown => 0

/-- `update_bid_ask_delta`. -/
def updateBidAskDelta (second eventTsMs : ℤ) (side : BookSide) (deltaType : DeltaType)
    (price size : ℚ) : TokenState :=
  if price ≤ 0 ∨ size ≤ 0 then st
  else
    let signed := signedNotional deltaType (price * size)
    -- such an update does not trim the window either
    if |signed| ≤ 0 then st
    else
      let push (window : List (ℤ × ℚ)) :=
        trimWindow Prod.fst eventTsMs (window ++ [(eventTsMs, signed)])
      let flow :=
        match side with
        | .bid => { st.flow with bidDeltaWindow := push st.flow.bidDeltaWindow }
        | .ask => { st.flow with askDeltaWindow := push st.flow.askDeltaWindow }
      withAcc { st with flow := flow } second fun acc =>
        { acc with
          bidDeltaNotional250ms := (flow.bidDeltaWindow.map Prod.snd).sum
          askDeltaNotional250ms := (flow.askDeltaWindow.map Prod.snd).sum }

/-- `update_trade_window`. -/
def updateTradeWindow (second eventTsMs : ℤ) (side : BookSide) (notional : ℚ) : TokenState :=
  if notional ≤ 0 then st
  else
    let window :=
      trimWindow Prod.fst eventTsMs (st.flow.tradeWindow ++ [(eventTsMs, notional, side)])
    let sideSum (side : BookSide) : ℚ :=
      ((window.filter fun entry => decide (entry.2.2 = side)).map (·.2.1)).sum
    withAcc { st with flow := { st.flow with tradeWindow := window } } second fun acc =>
      { acc with
        buyNotional250ms := sideSum .bid
        sellNotional250ms := sideSum .ask
        maxTradeNotional250ms := (window.map (·.2.1)).foldl max 0 }

/-! ## Events -/

/-- The quote part of the state changes, nothing else. -/
def withQuote (q : QuoteState) : TokenState := { st with toQuoteState := q }

/-- The start of `handle_event`: the watermark moves, and the event is given the
second that its counts go to; it has none if its second is barred already. -/
def admitEvent (event : Event) : TokenState × Option ℤ :=
  let second := event.barSecond
  let st :=
    if st.watermarkSecond ≤ 0 then
      { st with watermarkSecond := second, lastFlushedSecond := second - 1 }
    else if second > st.watermarkSecond then { st with watermarkSecond := second }
    else st
  -- a barred second gets no counts, but the event still changes the book
  (st, if second ≤ st.lastFlushedSecond then none else some second)

/-- The counts that every event adds. -/
def countEvent (event : Event) (second : Option ℤ) : TokenState :=
  onAcc { st with lastEventLocalTsMs := event.localTsMs } second fun acc =>
    let acc := acc.recordLatency event.exchangeTsSource
    { acc with
      tsMissingCount1s :=
        if event.flags.tsMissing then acc.tsMissingCount1s + 1 else acc.tsMissingCount1s
      tsAnomalyCount1s :=
        if event.flags.tsAnomaly then acc.tsAnomalyCount1s + 1 else acc.tsAnomalyCount1s }

/-- The levels of a snapshot replace those of the book. -/
def loadSnapshot (event : Event) (second : Option ℤ) : TokenState :=
  let payload := event.payload
  -- a snapshot without either side loads nothing
  if payload.bids.isSome ∨ payload.asks.isSome then
    let (book, invalid) := st.orderbook.applySnapshot payload.bids payload.asks event.localTsMs
    let st := st.withQuote { st.toQuoteState with orderbook := book }
    let st :=
      if invalid > 0 then
        st.onAcc second fun acc => { acc with tsAnomalyCount1s := acc.tsAnomalyCount1s + invalid }
      else st
    let (bid, ask) := book.bestBidAsk
    st.withQuote (QuoteState.updateBbo { st.toQuoteState with bookInitialized := true } bid ask)
  else st

/-- The venue's hash is kept, if the event has one. -/
def noteHash (event : Event) : TokenState :=
  match event.payload.hash with
  | some hash => st.withQuote { st.toQuoteState with lastVenueHash := some hash }
  | none => st

/-- The flow of the best levels is updated in the event's own second. -/
def noteFlow (event : Event) (second : Option ℤ) : TokenState :=
  match second with
  | some second => st.updateOfiAndLevels second event.localTsMs
  | none => st

/-- `check_opinion_snapshot_drift`, made for REST snapshots of Opinion before they are loaded. -/
def snapshotDrift (event : Event) : Option ResyncLog :=
  if event.venue = .opinion ∧ event.exchangeTsSource = .venueRest then
    st.checkOpinionSnapshotDrift event
  else none

/-- What a snapshot does to the book and the counts, up to the resync check. -/
def applySnapshot (event : Event) (second : Option ℤ) : TokenState :=
  let st := st.loadSnapshot event second
  let st := st.withQuote { st.toQuoteState with resyncNeeded := false }
  let st := st.onAcc second SecondAccumulator.bookEvent
  (st.noteHash event).noteFlow event second

/-- The resync check after a snapshot: a drift that was found stands, otherwise
`check_resync` is asked, and what it finds asks for a new snapshot. -/
def resyncAfterSnapshot (event : Event) (drift : Option ResyncLog) :
    TokenState × Option ResyncLog :=
  let barSecond := event.barSecond
  let (q, log) :=
    match drift with
    | some log => (st.toQuoteState, some log)
    | none => st.checkResync event barSecond st.history.lastLocalTopnHash
  match log with
  | none => (st.withQuote q, none)
  | some log =>
    let q := q.markResync barSecond
    -- a drift stands for itself: only the check's own reasons ask for another snapshot
    (st.withQuote (if log.reason ≠ "rest_mismatch" then { q with resyncNeeded := true } else q),
      some log)

/-- `handle_event`, for a book snapshot. -/
def handleSnapshot (event : Event) (second : Option ℤ) : TokenState × Option ResyncLog :=
  let drift := st.snapshotDrift event
  let st := if drift.isSome then st.withQuote (st.markResync event.barSecond) else st
  (st.applySnapshot event second).resyncAfterSnapshot event drift

/-- A level update is applied to the book, if the book follows the venue. -/
def applyLevel (event : Event) (second : Option ℤ) (allowApply : Bool) (side : BookSide)
    (price size : ℚ) : TokenState :=
  if allowApply = true ∧ st.resyncNeeded = false then
    let st' :=
      -- the pull is looked for in the book before the update is applied
      match st.orderbook.checkWallPull side price size with
      | some signal => st.onAcc second fun acc => { acc with wallPullSignal := some signal }
      | none => st
    let (book, offGrid) := st.orderbook.applyDelta side price size event.localTsMs
    let st' := st'.withQuote { st.toQuoteState with orderbook := book }
    if offGrid then
      st'.onAcc second fun acc => { acc with tsAnomalyCount1s := acc.tsAnomalyCount1s + 1 }
    else st'
  else st

/-- The level update of an event, with its counts, if the event has one. -/
def noteLevel (event : Event) (second : Option ℤ) (allowApply : Bool) : TokenState :=
  let deltaType := event.payload.deltaType.getD .unknown
  match event.payload.side, event.payload.price, event.payload.size with
  | some side, some price, some size =>
    let st := st.applyLevel event second allowApply side price size
    let st := st.onAcc second fun acc => acc.levelUpdate deltaType
    match second with
    | some second => st.updateBidAskDelta second event.localTsMs side deltaType price size
    | none => st
  | _, _, _ => st

/-- What a level update does to the book and the counts, up to the resync check. -/
def applyDelta (event : Event) (second : Option ℤ) (allowApply : Bool) : TokenState :=
  let st := st.withQuote (st.updateBbo event.payload.bestBid event.payload.bestAsk)
  let st := st.noteLevel event second allowApply
  let st := st.onAcc second SecondAccumulator.bookEvent
  let st :=
    -- the flow windows are only kept while the book is in sync
    if allowApply = true ∧ st.resyncNeeded = false then st.noteFlow event second else st
  st.noteHash event

/-- The resync check after a level update. -/
def resyncAfterDelta (event : Event) (allowApply : Bool) : TokenState × Option ResyncLog :=
  if allowApply then
    match st.checkResync event event.barSecond st.history.lastLocalTopnHash with
    | (q, some log) =>
      (st.withQuote { q.markResync event.barSecond with resyncNeeded := true }, some log)
    | (q, none) => (st.withQuote q, none)
  else (st, none)

/-- `allow_apply`: an Opinion book takes level updates only once it has been loaded. -/
def allowApply (event : Event) : Bool :=
  !(decide (event.venue = .opinion) && !st.bookInitialized)

/-- `handle_event`, for a level update. -/
def handleDelta (event : Event) (second : Option ℤ) : TokenState × Option ResyncLog :=
  (st.applyDelta event second (st.allowApply event)).resyncAfterDelta event (st.allowApply event)

/-- The last traded price, if the event has one. -/
def notePrice (event : Event) : TokenState :=
  match event.payload.price with
  | some price => st.withQuote { st.toQuoteState with lastPrice := some price }
  | none => st

/-- `handle_event`, for a trade. -/
def handleTrade (event : Event) (second : Option ℤ) : TokenState :=
  let payload := event.payload
  let st := st.notePrice event
  let st := st.onAcc second fun acc => acc.tradeEvent payload event.flags.tradeSideMissing
  match second, payload.side with
  | some second, some side =>
    st.updateTradeWindow second event.localTsMs side
      (payload.price.getD 0 * payload.size.getD 0)
  | _, _ => st

/-- `handle_event`, by the kind of the event. -/
def dispatch (event : Event) (second : Option ℤ) : TokenState × Option ResyncLog :=
  match event.kind with
  | .bookSnapshot => st.handleSnapshot event second
  | .bookDelta => st.handleDelta event second
  | .trade => (st.handleTrade event second, none)
  | .lastPrice =>
    ((st.notePrice event).onAcc second fun acc =>
      { acc with criticalEventCount := acc.criticalEventCount + 1 }, none)
  | .tickSizeChange =>
    match event.payload.tickSize with
    | some tick =>
      (st.withQuote { st.toQuoteState with orderbook := { st.orderbook with tickPx := some tick } },
        none)
    | none => (st, none)
  | .health => (st, none)

/-- The event as it is handed on: without a second to count it in, it is out of order. -/
def classify (event : Event) (second : Option ℤ) : Event :=
  if second = none then { event with flags := { event.flags with outOfOrder := true } } else event

/-- What an event did to its token. -/
structure Handled where
  state : TokenState
  event : Event
  /-- `metrics_second`: the second that the event is counted in. -/
  second : Option ℤ
  log : Option ResyncLog

/-- `handle_event`, up to the flush. -/
def handleEvent (event : Event) : Handled :=
  let (st, second) := st.admitEvent event
  let event := classify event second
  let (st, log) := (st.countEvent event second).dispatch event second
  ⟨st, event, second, log⟩

/-! ## Bars -/

/-- The prices of a bar. -/
structure BarQuote where
  (bestBid bestAsk mid : Option ℚ)
  deriving DecidableEq, Repr

/-- Best prices and mid: of the book, or of the last reported best prices where the
book has only one side. -/
def barQuote (q : QuoteState) : BarQuote :=
  match q.orderbook.bestBidAsk with
  | (some bid, some ask) => ⟨some bid, some ask, some ((bid + ask) / 2)⟩
  | (bookBid, bookAsk) =>
    -- a one-sided book: the missing side is what the venue reported last
    let bid := bookBid.or q.lastBboBidPx
    let ask := bookAsk.or q.lastBboAskPx
    ⟨bid, ask, bid.bind fun bid => ask.map fun ask => (bid + ask) / 2⟩

/-- The value, unless the bar is in a gap. -/
def unlessGap {α : Type} (gap : Bool) (value : Option α) : Option α := if gap then none else value

/-- The `i`-th of the best levels, if it is worth something. -/
def levelWorth (levels : List ℚ) (i : ℕ) : Option ℚ :=
  levels[i]?.filter fun worth => decide (worth > 0)

/-- `imbalance_top10`. -/
def imbalanceTop10 (bid ask : Option ℚ) : Option ℚ :=
  match bid, ask with
  | some bid, some ask => if bid + ask > 0 then some ((bid - ask) / (bid + ask)) else none
  | _, _ => none

/-- `RollingWindow::push`. -/
def pushRolling (maxLen : ℕ) (values : List ℚ) (value : ℚ) : List ℚ :=
  -- the oldest value makes room
  (if values.length ≥ maxLen then values.tail else values) ++ [value]

/-- `RollingWindow::quantile` of 9/10. -/
def quantileP90 (values : List ℚ) : Option ℚ :=
  let data := values.insertionSort (· ≤ ·)
  data[(roundHalfAway (((data.length : ℚ) - 1) * (9 / 10))).toNat]?

/-- The change of the top-10 depth of an Opinion book, and whether it is a pull. -/
def depthChange (venue : Venue) (history : BarHistory) (acc : SecondAccumulator)
    (top10Bid top10Ask : Option ℚ) : Option ℚ × ℤ × List ℚ :=
  match venue, history.prevTop10Bid, history.prevTop10Ask, top10Bid, top10Ask with
  | .opinion, some prevBid, some prevAsk, some bid, some ask =>
    let prevSum := prevBid + prevAsk
    if prevSum > 0 then
      let ratio := (bid + ask - prevSum) / prevSum
      let updates := acc.addUpdates1s + acc.cancelUpdates1s + acc.matchUpdates1s
      let cancelRatio : ℚ := if updates > 0 then acc.cancelUpdates1s / updates else 0
      let window := pushRolling cancelRatioWindowLen history.cancelRatioWindow cancelRatio
      (some ratio,
        if ratio ≤ -(1 / 2) ∧ cancelRatio ≥ (quantileP90 window).getD 1 then 1 else 0, window)
    else (none, 0, history.cancelRatioWindow)
  -- other venues, and the first bar of a token, have no change to speak of
  | _, _, _, _, _ => (none, 0, history.cancelRatioWindow)

/-- `staleness_ms`: from the last event handled to the start of the bar's second. -/
def stalenessMs (barSecond : ℤ) : ℤ := max (barSecond * 1000 - st.lastEventLocalTsMs) 0

/-- `gap_flag`. -/
def gapFlag (cfg : ShardConfig) (barSecond : ℤ) : Bool :=
  decide (st.stalenessMs barSecond > cfg.hardClearMs)

/-- `stale_flag`. -/
def staleFlag (cfg : ShardConfig) (barSecond : ℤ) : Bool :=
  match st.venue with
  | .polymarket => decide (st.stalenessMs barSecond > cfg.pmStalenessMs)
  | .opinion => decide (st.stalenessMs barSecond > cfg.otherStalenessMs)

/-- The second of the last resync is at most ten seconds back. -/
def resyncRecent (barSecond : ℤ) : Bool :=
  match st.lastResyncBarSecond with
  | some last => decide (barSecond - last ≤ 10)
  | none => false

/-- `flush`: the bar of a second, from the book as it is and from the second's counts. -/
def flush (cfg : ShardConfig) (tokenKey : String) (barSecond : ℤ) (acc : SecondAccumulator) :
    TokenState × Bars1sToken :=
  let book := st.orderbook
  let quote := barQuote st.toQuoteState
  let spread := quote.bestBid.bind fun bid => quote.bestAsk.map fun ask => ask - bid
  let tickPx := book.tickPx.or (spread.filter fun v => decide (v > 0))
  let spreadTicks := spread.bind fun spread =>
    (tickPx.filter fun tick => decide (tick > 0)).map fun tick => roundHalfAway (spread / tick)
  let bidLevels := book.topLevelsNotional .bid 3
  let askLevels := book.topLevelsNotional .ask 3
  let top10Bid := book.depthTopN .bid 10
  let top10Ask := book.depthTopN .ask 10
  let (airBid, airAsk) := book.airPocketTicks tickPx
  let topnHash := book.topnHash 20
  let (withdrawal, pull, cancelWindow) := depthChange st.venue st.history acc top10Bid top10Ask
  let gap := st.gapFlag cfg barSecond
  let ofiPushed := st.history.ofiHistory ++ [acc.ofi1s]
  -- a short history is enough: a bar sums up its last ten values
  let ofiHistory := if ofiPushed.length > 32 then ofiPushed.tail else ofiPushed
  let hasBboUpdate := decide (acc.bookUpdates1s > 0)
  let source := acc.dominantSource
  -- in a gap the reported prices are forgotten as well
  ({ st with
      orderbook := { book with tickPx := tickPx }
      lastBboBidPx := unlessGap gap st.lastBboBidPx
      lastBboAskPx := unlessGap gap st.lastBboAskPx
      history :=
        { prevTop10Bid := top10Bid
          prevTop10Ask := top10Ask
          lastLocalTopnHash := topnHash
          cancelRatioWindow := cancelWindow
          ofiHistory := ofiHistory } },
    { venue := st.venue
      tokenKey := tokenKey
      tokenSide := st.tokenSide
      barSecond := barSecond
      exchangeTsSource :=
        if st.venue = .opinion ∧ source = .localFallback then .estimated else source
      connectionHealthFlags :=
        (if st.resyncRecent barSecond then healthResyncRecent else 0) |||
          (if gap then healthEventDrop else 0)
      barGapFlag := if gap then 1 else 0
      barStaleFlag := if st.staleFlag cfg barSecond then 1 else 0
      stalenessMs := some (st.stalenessMs barSecond)
      eventCount1s := acc.eventCount
      tsMissingCount1s := acc.tsMissingCount1s
      tsAnomalyCount1s := acc.tsAnomalyCount1s
      bookResyncFlag := if st.lastResyncBarSecond = some barSecond then 1 else 0
      bestBidPx := if hasBboUpdate then unlessGap gap quote.bestBid else none
      bestAskPx := if hasBboUpdate then unlessGap gap quote.bestAsk else none
      midPx := if hasBboUpdate then unlessGap gap quote.mid else none
      bestBidPxState := unlessGap gap quote.bestBid
      bestAskPxState := unlessGap gap quote.bestAsk
      midPxState := unlessGap gap quote.mid
      lastPrice := unlessGap gap st.lastPrice
      microPx := unlessGap gap book.microprice
      spreadPx := unlessGap gap spread
      tickPx := unlessGap gap tickPx
      spreadTicks := spreadTicks
      top3DepthBidNotional := unlessGap gap (book.depthTopN .bid 3)
      top3DepthAskNotional := unlessGap gap (book.depthTopN .ask 3)
      bidL1Notional := levelWorth bidLevels 0
      bidL2Notional := levelWorth bidLevels 1
      bidL3Notional := levelWorth bidLevels 2
      askL1Notional := levelWorth askLevels 0
      askL2Notional := levelWorth askLevels 1
      askL3Notional := levelWorth askLevels 2
      top10DepthBidNotional := unlessGap gap top10Bid
      top10DepthAskNotional := unlessGap gap top10Ask
      depth1pctBidNotional := unlessGap gap (book.depth1pct .bid quote.mid)
      depth1pctAskNotional := unlessGap gap (book.depth1pct .ask quote.mid)
      imbalanceTop10 := unlessGap gap (imbalanceTop10 top10Bid top10Ask)
      airPocketBidTicks := unlessGap gap airBid
      airPocketAskTicks := unlessGap gap airAsk
      bookUpdates1s := acc.bookUpdates1s
      addUpdates1s := acc.addUpdates1s
      cancelUpdates1s := acc.cancelUpdates1s
      matchUpdates1s := acc.matchUpdates1s
      removeUnknownUpdates1s := acc.removeUnknownUpdates1s
      tradeCount1s := acc.tradeCount1s
      volumeShares1s := acc.volumeShares1s
      volumeNotional1s := acc.volumeNotional1s
      vwap1s := acc.vwap
      buyNotional1s := acc.buyNotional1s
      sellNotional1s := acc.sellNotional1s
      cvdDelta1s := acc.cvdDelta1s
      tradeSideMissingCount1s := acc.tradeSideMissingCount1s
      ofi1s := acc.ofi1s
      ofi250ms := acc.ofi250ms
      bidDeltaNotional250ms := acc.bidDeltaNotional250ms
      askDeltaNotional250ms := acc.askDeltaNotional250ms
      midSlope250ms := acc.midSlope250ms
      ofi10s := some ((ofiHistory.drop (ofiHistory.length - 10)).sum)
      levelsCrossed1s := acc.levelsCrossed1s
      maxTradeNotional1s := acc.maxTradeNotional1s
      buyNotional250ms := acc.buyNotional250ms
      sellNotional250ms := acc.sellNotional250ms
      maxTradeNotional250ms := acc.maxTradeNotional250ms
      depthWithdrawalRatio := unlessGap gap withdrawal
      liquidityPullFlag := if gap then 0 else pull
      venueBookHash := unlessGap gap st.lastVenueHash
      localTopnHash := unlessGap gap topnHash })

/-- The loop of `flush_ready`: `n` seconds from `current` on. -/
def flushLoop (cfg : ShardConfig) (tokenKey : String) :
    ℕ → ℤ → TokenState → TokenState × List Bars1sToken
  | 0, _, st => (st, [])
  | n + 1, current, st =>
    -- a second without events still has its bar, with every count zero
    let acc := (st.accumulators current).getD SecondAccumulator.default
    let (st, bar) :=
      flush { st with accumulators := Function.update st.accumulators current none } cfg tokenKey
        current acc
    let (st, bars) := flushLoop cfg tokenKey n (current + 1) st
    (st, bar :: bars)

/-- `flush_ready`. -/
def flushReady (cfg : ShardConfig) (tokenKey : String) : TokenState × List Bars1sToken :=
  let cutoff := st.watermarkSecond - lateEventBufferSecs
  -- no event yet, or no second is far enough behind the watermark
  if st.watermarkSecond ≤ 0 ∨ cutoff ≤ st.lastFlushedSecond then (st, [])
  else
    let (st', bars) := flushLoop cfg tokenKey (cutoff - st.lastFlushedSecond).toNat
      (st.lastFlushedSecond + 1) st
    ({ st' with lastFlushedSecond := cutoff }, bars)

/-- The token's part of `handle_tick`, before the flush. -/
def advance (barSecond : ℤ) : TokenState :=
  -- a tick never sets the watermark of a token that has seen no event
  if st.watermarkSecond > 0 ∧ barSecond > st.watermarkSecond then
    { st with watermarkSecond := barSecond }
  else st

end TokenState

end AlphaMonitor.Shard
