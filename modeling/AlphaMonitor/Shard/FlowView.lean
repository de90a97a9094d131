import AlphaMonitor.Shard.Levels

/-!
# What an event does to the flows

The flows of the last 250 ms are kept in windows, and the sums over them are written to the
second of the event.  Each kind of event touches its own windows; everything else that an event
does leaves windows and sums alone.

## Main definitions

- `FlowView`: the windows, and the sums that a second has
- `FlowView.takeLevel`, `FlowView.takeBest`, `FlowView.takeTrade`: the three updates

## Main results

- `handleEvent_flowView`: an event does the updates of its kind
-/

namespace AlphaMonitor.Shard

/-- The sums over the windows that a second has. -/
structure FlowTotals where
  (ofi bidDelta askDelta buy sell maxTrade : ℚ)
  deriving DecidableEq, Repr

def SecondAccumulator.flows (acc : SecondAccumulator) : FlowTotals where
  ofi := acc.ofi250ms
  bidDelta := acc.bidDeltaNotional250ms
  askDelta := acc.askDeltaNotional250ms
  buy := acc.buyNotional250ms
  sell := acc.sellNotional250ms
  maxTrade := acc.maxTradeNotional250ms

/-- The windows without that of the mids, and the sums of one second. -/
structure FlowView where
  (prevBestBid prevBestAsk : Option (ℚ × ℚ))
  (bids asks ofis : List (ℤ × ℚ))
  trades : List (ℤ × ℚ × BookSide)
  totals : FlowTotals
  deriving DecidableEq, Repr

/-- The best levels of a book with their sizes. -/
abbrev BestLevels := Option (ℚ × ℚ) × Option (ℚ × ℚ)

/-- What a level update adds to the depth, where it counts. -/
def levelFlow (deltaType : DeltaType) (price size : ℚ) : Option ℚ :=
  if price ≤ 0 ∨ size ≤ 0 then none
  else if |TokenState.signedNotional deltaType (price * size)| ≤ 0 then none
  else some (TokenState.signedNotional deltaType (price * size))

/-- What a trade adds to the flow of its side, where it counts. -/
def tradeFlow (notional : ℚ) : Option ℚ := if notional ≤ 0 then none else some notional

/-- What the best levels add to the order flow, where they and the last ones are known. -/
def bestFlow (prevBid prevAsk : Option (ℚ × ℚ)) (best : BestLevels) : Option ℚ :=
  match best, prevBid, prevAsk with
  | (some (bidPx, bidSz), some (askPx, askSz)), some (prevBidPx, prevBidSz),
      some (prevAskPx, prevAskSz) =>
    let bidPart := TokenState.flowComponent (decide (bidPx > prevBidPx)) (decide (bidPx < prevBidPx))
      bidSz prevBidSz
    let askPart := TokenState.flowComponent (decide (askPx < prevAskPx)) (decide (askPx > prevAskPx))
      askSz prevAskSz
    some (bidPart * bidPx - askPart * askPx)
  | _, _, _ => none

/-- The sum of a window. -/
def windowTotal (window : List (ℤ × ℚ)) : ℚ := (window.map Prod.snd).sum

/-- The sum of a side's trades in a window. -/
def tradeTotal (side : BookSide) (window : List (ℤ × ℚ × BookSide)) : ℚ :=
  ((window.filter fun entry => decide (entry.2.2 = side)).map (·.2.1)).sum

/-- The largest trade in a window. -/
def largestTrade (window : List (ℤ × ℚ × BookSide)) : ℚ := (window.map (·.2.1)).foldl max 0

namespace FlowView

variable (view : FlowView) (t : ℤ)

/-- The depth window of a side. -/
def depth : BookSide → List (ℤ × ℚ)
  | .bid => view.bids
  | .ask => view.asks

/-- A depth change is recorded; both sums are written. -/
def pushLevel (side : BookSide) (signed : ℚ) : FlowView :=
  let push (window : List (ℤ × ℚ)) := TokenState.trimWindow Prod.fst t (window ++ [(t, signed)])
  let bids := if side = .bid then push view.bids else view.bids
  let asks := if side = .ask then push view.asks else view.asks
  { view with
    bids := bids
    asks := asks
    totals := { view.totals with bidDelta := windowTotal bids, askDelta := windowTotal asks } }

/-- `update_bid_ask_delta`. -/
def takeLevel (side : BookSide) (deltaType : DeltaType) (price size : ℚ) : FlowView :=
  (levelFlow deltaType price size).elim view (view.pushLevel t side)

/-- A change of the best levels is recorded; the sum is written. -/
def pushBest (ofiDelta : ℚ) : FlowView :=
  let ofis := TokenState.trimWindow Prod.fst t
    (if |ofiDelta| > 0 then view.ofis ++ [(t, ofiDelta)] else view.ofis)
  { view with ofis := ofis, totals := { view.totals with ofi := windowTotal ofis } }

/-- `update_ofi_and_levels`. -/
def takeBest (best : BestLevels) : FlowView :=
  let pushed := (bestFlow view.prevBestBid view.prevBestAsk best).elim view (view.pushBest t)
  match best with
  | (some bid, some ask) => { pushed with prevBestBid := some bid, prevBestAsk := some ask }
  | _ => pushed

/-- A trade is recorded; the sums of both sides are written. -/
def pushTrade (side : BookSide) (notional : ℚ) : FlowView :=
  let trades := TokenState.trimWindow Prod.fst t (view.trades ++ [(t, notional, side)])
  { view with
    trades := trades
    totals := { view.totals with
      buy := tradeTotal .bid trades
      sell := tradeTotal .ask trades
      maxTrade := largestTrade trades } }

/-- `update_trade_window`. -/
def takeTrade (side : BookSide) (notional : ℚ) : FlowView :=
  (tradeFlow notional).elim view (view.pushTrade t side)

end FlowView

namespace TokenState

variable (st : TokenState) (s : ℤ)

/-- The windows, and the sums that the second has. -/
def flowView : FlowView where
  prevBestBid := st.flow.prevBestBid
  prevBestAsk := st.flow.prevBestAsk
  bids := st.flow.bidDeltaWindow
  asks := st.flow.askDeltaWindow
  ofis := st.flow.ofiWindow
  trades := st.flow.tradeWindow
  totals := ((st.accumulators s).getD SecondAccumulator.default).flows

/-! ## What leaves them alone -/

@[simp] theorem withQuote_flowView (q : QuoteState) : (st.withQuote q).flowView s = st.flowView s := rfl

theorem withAcc_flowView {f : SecondAccumulator → SecondAccumulator}
    (hf : ∀ acc, (f acc).flows = acc.flows) : (st.withAcc s f).flowView s = st.flowView s := by
  simp [flowView, withAcc, hf]

theorem onAcc_flowView {f : SecondAccumulator → SecondAccumulator}
    (hf : ∀ acc, (f acc).flows = acc.flows) : (st.onAcc (some s) f).flowView s = st.flowView s :=
  st.withAcc_flowView s hf

theorem flows_levelUpdate (acc : SecondAccumulator) (deltaType : DeltaType) :
    (acc.levelUpdate deltaType).flows = acc.flows := by
  cases deltaType <;> rfl

theorem flows_recordLatency (acc : SecondAccumulator) (source : ExchangeTsSource) :
    (acc.recordLatency source).flows = acc.flows := by
  cases source <;> rfl

theorem flows_tradeEvent (acc : SecondAccumulator) (payload : EventPayload) (sideMissing : Bool) :
    (acc.tradeEvent payload sideMissing).flows = acc.flows := by
  unfold SecondAccumulator.tradeEvent
  cases payload.price <;> cases payload.size <;> cases payload.side with
  | none => cases sideMissing <;> rfl
  | some side => cases side <;> rfl

/-! ## The three updates -/

theorem updateBidAskDelta_flowView (t : ℤ) (side : BookSide) (deltaType : DeltaType)
    (price size : ℚ) :
    (st.updateBidAskDelta s t side deltaType price size).flowView s =
      (st.flowView s).takeLevel t side deltaType price size := by
  unfold updateBidAskDelta FlowView.takeLevel levelFlow
  dsimp only
  by_cases hnone : price ≤ 0 ∨ size ≤ 0
  · rw [if_pos hnone, if_pos hnone]
    rfl
  · rw [if_neg hnone, if_neg hnone]
    by_cases hzero : |signedNotional deltaType (price * size)| ≤ 0
    · rw [if_pos hzero, if_pos hzero]
      rfl
    · rw [if_neg hzero, if_neg hzero]
      cases side <;>
        simp [flowView, withAcc, FlowView.pushLevel, SecondAccumulator.flows, windowTotal]

theorem updateTradeWindow_flowView (t : ℤ) (side : BookSide) (notional : ℚ) :
    (st.updateTradeWindow s t side notional).flowView s =
      (st.flowView s).takeTrade t side notional := by
  unfold updateTradeWindow FlowView.takeTrade tradeFlow
  dsimp only
  by_cases hnone : notional ≤ 0
  · rw [if_pos hnone, if_pos hnone]
    rfl
  · rw [if_neg hnone, if_neg hnone]
    simp [flowView, withAcc, FlowView.pushTrade, SecondAccumulator.flows, tradeTotal, largestTrade]

theorem updateOfiAndLevels_flowView (t : ℤ) :
    (st.updateOfiAndLevels s t).flowView s =
      (st.flowView s).takeBest t st.orderbook.bestBidAskSize := by
  unfold updateOfiAndLevels FlowView.takeBest
  obtain ⟨bid, ask⟩ := st.orderbook.bestBidAskSize
  cases bid with
  | none => rfl
  | some bid =>
    cases ask with
    | none => rfl
    | some ask =>
      -- Only where the last best levels are known does the order flow change.
      cases hprevBid : st.flow.prevBestBid with
      | none => simp [flowView, withAcc, bestFlow, hprevBid, SecondAccumulator.flows]
      | some prevBid =>
        cases hprevAsk : st.flow.prevBestAsk with
        | none => simp [flowView, withAcc, bestFlow, hprevAsk, SecondAccumulator.flows]
        | some prevAsk =>
          simp [flowView, withAcc, bestFlow, hprevBid, hprevAsk, FlowView.pushBest,
            SecondAccumulator.flows, windowTotal]

/-! ## By the kind of the event -/

variable (event : Event)

@[simp] theorem admitEvent_flowView : (st.admitEvent event).1.flowView s = st.flowView s := by
  unfold admitEvent
  dsimp only
  split
  · rfl
  · split <;> rfl

@[simp] theorem countEvent_flowView :
    (st.countEvent event (some s)).flowView s = st.flowView s := by
  unfold countEvent
  rw [onAcc_flowView]
  · rfl
  · exact fun acc => flows_recordLatency acc event.exchangeTsSource

@[simp] theorem noteHash_flowView : (st.noteHash event).flowView s = st.flowView s := by
  unfold noteHash
  cases event.payload.hash <;> rfl

@[simp] theorem notePrice_flowView : (st.notePrice event).flowView s = st.flowView s := by
  unfold notePrice
  cases event.payload.price <;> rfl

@[simp] theorem bookEvent_flowView :
    (st.onAcc (some s) SecondAccumulator.bookEvent).flowView s = st.flowView s :=
  st.onAcc_flowView s fun _ => rfl

@[simp] theorem noteFlow_flowView :
    (st.noteFlow event (some s)).flowView s =
      (st.flowView s).takeBest event.localTsMs st.orderbook.bestBidAskSize :=
  st.updateOfiAndLevels_flowView s event.localTsMs

@[simp] theorem loadSnapshot_flowView :
    (st.loadSnapshot event (some s)).flowView s = st.flowView s := by
  unfold loadSnapshot
  dsimp only
  split
  · split
    · rw [withQuote_flowView, onAcc_flowView]
      · rfl
      · exact fun _ => rfl
    · rfl
  · rfl

/-- A resync check changes flags only. -/
theorem checkResync_orderbook (q : QuoteState) (barSecond : ℤ) (hash : Option String) :
    (q.checkResync event barSecond hash).1.orderbook = q.orderbook := by
  unfold QuoteState.checkResync
  cases q.resyncReason event barSecond <;> rfl

theorem resyncAfterSnapshot_frame (drift : Option ResyncLog) :
    (st.resyncAfterSnapshot event drift).1.flowView s = st.flowView s ∧
      (st.resyncAfterSnapshot event drift).1.orderbook = st.orderbook := by
  unfold resyncAfterSnapshot
  cases drift with
  | some log =>
    refine ⟨rfl, ?_⟩
    dsimp only
    split <;> rfl
  | none =>
    have hbook := checkResync_orderbook event st.toQuoteState event.barSecond
      st.history.lastLocalTopnHash
    dsimp only
    cases hcheck : st.checkResync event event.barSecond st.history.lastLocalTopnHash with
    | mk q log =>
      rw [hcheck] at hbook
      cases log with
      | none => exact ⟨rfl, hbook⟩
      | some log =>
        refine ⟨rfl, ?_⟩
        dsimp only
        split <;> exact hbook

theorem handleSnapshot_flowView :
    (st.handleSnapshot event (some s)).1.flowView s =
      (st.flowView s).takeBest event.localTsMs
        (st.handleSnapshot event (some s)).1.orderbook.bestBidAskSize := by
  unfold handleSnapshot
  dsimp only
  generalize hmarked : (if (st.snapshotDrift event).isSome then
    st.withQuote (st.markResync event.barSecond) else st) = marked
  have hview : marked.flowView s = st.flowView s := by
    rw [← hmarked]
    split <;> rfl
  obtain ⟨hframe, hbook⟩ :=
    (marked.applySnapshot event (some s)).resyncAfterSnapshot_frame s event (st.snapshotDrift event)
  rw [hframe, hbook, ← hview]
  unfold applySnapshot
  dsimp only
  rw [noteFlow_flowView, noteHash_flowView, bookEvent_flowView, withQuote_flowView,
    loadSnapshot_flowView, noteFlow_quote]

theorem applyLevel_flowView (allowed : Bool) (side : BookSide) (price size : ℚ) :
    (st.applyLevel event (some s) allowed side price size).flowView s = st.flowView s := by
  have hanomaly : ∀ st : TokenState,
      (st.onAcc (some s) fun acc => { acc with tsAnomalyCount1s := acc.tsAnomalyCount1s + 1 }).flowView
        s = st.flowView s := fun st => st.onAcc_flowView s fun _ => rfl
  have hpull : ∀ signal, (st.onAcc (some s) fun acc =>
      { acc with wallPullSignal := some signal }).flowView s = st.flowView s :=
    fun signal => st.onAcc_flowView s fun _ => rfl
  unfold applyLevel
  dsimp only
  split
  · cases st.orderbook.checkWallPull side price size with
    | none =>
      dsimp only
      split
      · exact hanomaly _
      · rfl
    | some signal =>
      dsimp only
      split
      · rw [hanomaly, withQuote_flowView, hpull]
      · rw [withQuote_flowView, hpull]
  · rfl

end TokenState

/-- The level update of an event, if it has one. -/
def FlowView.takeLevelOf (view : FlowView) (event : Event) : FlowView :=
  match event.payload.side, event.payload.price, event.payload.size with
  | some side, some price, some size =>
    view.takeLevel event.localTsMs side (event.payload.deltaType.getD .unknown) price size
  | _, _, _ => view

/-- What an event does to windows and sums, where `best` is what it leaves of the best levels. -/
def FlowView.afterEvent (view : FlowView) (q : QuoteState) (event : Event) (best : BestLevels) :
    FlowView :=
  match event.kind with
  | .bookSnapshot => view.takeBest event.localTsMs best
  | .bookDelta =>
    if q.allows event = true ∧ q.resyncNeeded = false then
      (view.takeLevelOf event).takeBest event.localTsMs best
    else view.takeLevelOf event
  | .trade =>
    event.payload.side.elim view fun side =>
      view.takeTrade event.localTsMs side
        (event.payload.price.getD 0 * event.payload.size.getD 0)
  | .lastPrice => view
  | .tickSizeChange => view
  | .health => view

namespace TokenState

variable (st : TokenState) (s : ℤ) (event : Event)

theorem noteLevel_flowView (allowed : Bool) :
    (st.noteLevel event (some s) allowed).flowView s = (st.flowView s).takeLevelOf event := by
  unfold noteLevel FlowView.takeLevelOf
  dsimp only
  cases event.payload.side with
  | none => rfl
  | some side =>
    cases event.payload.price with
    | none => rfl
    | some price =>
      cases event.payload.size with
      | none => rfl
      | some size =>
        dsimp only
        rw [updateBidAskDelta_flowView, onAcc_flowView, applyLevel_flowView]
        exact fun acc => flows_levelUpdate acc _

theorem takeLevel_resyncNeeded (q : QuoteState) (allowed : Bool) :
    (q.takeLevel event allowed).resyncNeeded = q.resyncNeeded := by
  unfold QuoteState.takeLevel
  cases event.payload.side with
  | none => rfl
  | some side =>
    cases event.payload.price with
    | none => rfl
    | some price =>
      cases event.payload.size with
      | none => rfl
      | some size =>
        dsimp only
        split <;> rfl

theorem resyncAfterDelta_frame (allowed : Bool) :
    (st.resyncAfterDelta event allowed).1.flowView s = st.flowView s ∧
      (st.resyncAfterDelta event allowed).1.orderbook = st.orderbook := by
  unfold resyncAfterDelta
  have hbook := checkResync_orderbook event st.toQuoteState event.barSecond
    st.history.lastLocalTopnHash
  cases allowed with
  | false => exact ⟨rfl, rfl⟩
  | true =>
    rw [if_pos rfl]
    cases hcheck : st.checkResync event event.barSecond st.history.lastLocalTopnHash with
    | mk q log =>
      rw [hcheck] at hbook
      cases log with
      | none => exact ⟨rfl, hbook⟩
      | some log => exact ⟨rfl, hbook⟩

theorem handleDelta_flowView :
    (st.handleDelta event (some s)).1.flowView s =
      if st.toQuoteState.allows event = true ∧ st.resyncNeeded = false then
        ((st.flowView s).takeLevelOf event).takeBest event.localTsMs
          (st.handleDelta event (some s)).1.orderbook.bestBidAskSize
      else (st.flowView s).takeLevelOf event := by
  have hallows : st.allowApply event = st.toQuoteState.allows event := rfl
  unfold handleDelta
  obtain ⟨hframe, hbook⟩ := (st.applyDelta event (some s) (st.allowApply event)).resyncAfterDelta_frame
    s event (st.allowApply event)
  rw [hframe, hbook, hallows]
  unfold applyDelta
  dsimp only
  rw [noteHash_flowView]
  have hneeded : (((st.withQuote (st.updateBbo event.payload.bestBid event.payload.bestAsk)).noteLevel
      event (some s) (st.toQuoteState.allows event)).onAcc (some s)
        SecondAccumulator.bookEvent).resyncNeeded = st.resyncNeeded := by
    show (((st.withQuote (st.updateBbo event.payload.bestBid event.payload.bestAsk)).noteLevel
      event (some s) (st.toQuoteState.allows event)).onAcc (some s)
        SecondAccumulator.bookEvent).toQuoteState.resyncNeeded = st.resyncNeeded
    rw [onAcc_quote, noteLevel_quote, takeLevel_resyncNeeded]
    rfl
  rw [hneeded]
  split
  · rw [noteFlow_flowView, bookEvent_flowView, noteLevel_flowView, withQuote_flowView]
    congr 2
    rw [noteHash_quote, QuoteState.keepHash_orderbook, noteFlow_quote]
  · rw [bookEvent_flowView, noteLevel_flowView, withQuote_flowView]

theorem handleTrade_flowView :
    (st.handleTrade event (some s)).flowView s =
      event.payload.side.elim (st.flowView s) fun side =>
        (st.flowView s).takeTrade event.localTsMs side
          (event.payload.price.getD 0 * event.payload.size.getD 0) := by
  have hcount : ((st.notePrice event).onAcc (some s) fun acc =>
      acc.tradeEvent event.payload event.flags.tradeSideMissing).flowView s = st.flowView s := by
    rw [onAcc_flowView, notePrice_flowView]
    exact fun acc => flows_tradeEvent acc event.payload event.flags.tradeSideMissing
  unfold handleTrade
  dsimp only
  cases event.payload.side with
  | none => exact hcount
  | some side =>
    dsimp only
    rw [updateTradeWindow_flowView, hcount]
    rfl

theorem dispatch_flowView :
    (st.dispatch event (some s)).1.flowView s =
      (st.flowView s).afterEvent st.toQuoteState event
        (st.dispatch event (some s)).1.orderbook.bestBidAskSize := by
  unfold dispatch FlowView.afterEvent
  cases event.kind with
  | bookSnapshot => exact st.handleSnapshot_flowView s event
  | bookDelta => exact st.handleDelta_flowView s event
  | trade => exact st.handleTrade_flowView s event
  | lastPrice =>
    show ((st.notePrice event).onAcc (some s) _).flowView s = _
    rw [onAcc_flowView, notePrice_flowView]
    exact fun _ => rfl
  | tickSizeChange =>
    dsimp only
    cases event.payload.tickSize <;> rfl
  | health => rfl

/-- An event that is counted does to windows and sums what its kind says. -/
theorem handleEvent_flowView (hs : (st.admitEvent event).2 = some s) :
    (st.handleEvent event).state.flowView s =
      (st.flowView s).afterEvent st.toQuoteState event
        (st.handleEvent event).state.orderbook.bestBidAskSize := by
  rw [handleEvent_eq, hs]
  have hsame : classify event (some s) = event := rfl
  rw [hsame]
  dsimp only
  rw [dispatch_flowView, countEvent_flowView, admitEvent_flowView, countEvent_quote,
    admitEvent_quote]

/-! ## Events that are too late -/

theorem applySnapshot_flowView_late : (st.applySnapshot event none).flowView s = st.flowView s := by
  have hload : (st.loadSnapshot event none).flowView s = st.flowView s := by
    unfold loadSnapshot
    dsimp only
    split
    · split <;> rfl
    · rfl
  show ((((st.loadSnapshot event none).withQuote _).noteHash event)).flowView s = st.flowView s
  rw [noteHash_flowView, withQuote_flowView, hload]

theorem applyDelta_flowView_late (allowed : Bool) :
    (st.applyDelta event none allowed).flowView s = st.flowView s := by
  have hlevel : ∀ st : TokenState,
      (st.noteLevel event none allowed).flowView s = st.flowView s := by
    intro st
    unfold noteLevel applyLevel
    cases event.payload.side with
    | none => rfl
    | some side =>
      cases event.payload.price with
      | none => rfl
      | some price =>
        cases event.payload.size with
        | none => rfl
        | some size =>
          dsimp only
          split
          · cases st.orderbook.checkWallPull side price size <;>
              cases (st.orderbook.applyDelta side price size event.localTsMs).2 <;> rfl
          · rfl
  unfold applyDelta
  dsimp only
  rw [noteHash_flowView]
  split
  · show ((st.withQuote _).noteLevel event none allowed).flowView s = st.flowView s
    rw [hlevel, withQuote_flowView]
  · show ((st.withQuote _).noteLevel event none allowed).flowView s = st.flowView s
    rw [hlevel, withQuote_flowView]

theorem dispatch_flowView_late : (st.dispatch event none).1.flowView s = st.flowView s := by
  unfold dispatch
  cases event.kind with
  | bookSnapshot =>
    show (st.handleSnapshot event none).1.flowView s = st.flowView s
    unfold handleSnapshot
    dsimp only
    rw [(resyncAfterSnapshot_frame _ s event _).1, applySnapshot_flowView_late]
    split <;> rfl
  | bookDelta =>
    show (st.handleDelta event none).1.flowView s = st.flowView s
    unfold handleDelta
    rw [(resyncAfterDelta_frame _ s event _).1, applyDelta_flowView_late]
  | trade => exact st.notePrice_flowView s event
  | lastPrice => exact st.notePrice_flowView s event
  | tickSizeChange =>
    dsimp only
    cases event.payload.tickSize <;> rfl
  | health => rfl

/-- A late event leaves windows and sums alone. -/
theorem handleEvent_flowView_late (hlate : (st.admitEvent event).2 = none) :
    (st.handleEvent event).state.flowView s = st.flowView s := by
  rw [handleEvent_eq, hlate]
  dsimp only
  rw [dispatch_flowView_late]
  exact st.admitEvent_flowView s event

end TokenState

end AlphaMonitor.Shard
