import AlphaMonitor.Shard.Grid
import AlphaMonitor.Shard.Tracks

/-!
# What an event does to the quote

Book, best prices, last price and resync state of a token evolve on their own: what
an event does to them depends on them and on the event alone, not on accumulators
or windows.  A flush leaves them as they are, up to the tick and the last best prices.

## Main results

- `handleEvent_quote`: an event acts on the quote as `QuoteState.afterEvent`
- `send_sameBook`: sending bars leaves the book and its resync state alone
-/

namespace AlphaMonitor.Shard

open Lib (writeAll)

namespace QuoteState

variable (q : QuoteState) (event : Event)

/-! ## The quote as a machine of its own -/

/-- The levels of a snapshot, if it has any. -/
def loadLevels : QuoteState :=
  if event.payload.bids.isSome ∨ event.payload.asks.isSome then
    let book := (q.orderbook.applySnapshot event.payload.bids event.payload.asks event.localTsMs).1
    { q with orderbook := book, bookInitialized := true }.updateBbo book.bestBidAsk.1
      book.bestBidAsk.2
  else q

/-- The venue's hash, if the event has one. -/
def keepHash : QuoteState :=
  match event.payload.hash with
  | some hash => { q with lastVenueHash := some hash }
  | none => q

/-- The last price, if the event has one. -/
def keepPrice : QuoteState :=
  match event.payload.price with
  | some price => { q with lastPrice := some price }
  | none => q

/-- A REST snapshot of Opinion does not have the levels of the book. -/
def drifted : Bool :=
  decide (event.venue = .opinion ∧ event.exchangeTsSource = .venueRest) &&
    (q.checkOpinionSnapshotDrift event).isSome

/-- The quote after a snapshot, before the resync check. -/
def loaded : QuoteState :=
  ({ (if q.drifted event then q.markResync event.barSecond else q).loadLevels event with
      resyncNeeded := false }).keepHash event

/-- The resync check: what it finds asks for a new snapshot. -/
def judged : QuoteState :=
  if (q.resyncReason event event.barSecond).isSome then
    { q.markResync event.barSecond with resyncNeeded := true }
  else q

/-- A drift that was found takes the place of the resync check. -/
def afterSnapshot : QuoteState :=
  if q.drifted event then (q.loaded event).markResync event.barSecond
  else (q.loaded event).judged event

/-- An Opinion book takes level updates only once it has been loaded. -/
def allows : Bool := !(decide (event.venue = .opinion) && !q.bookInitialized)

/-- The level update of an event. -/
def takeLevel (allowed : Bool) : QuoteState :=
  match event.payload.side, event.payload.price, event.payload.size with
  | some side, some price, some size =>
    if allowed = true ∧ q.resyncNeeded = false then
      { q with orderbook := (q.orderbook.applyDelta side price size event.localTsMs).1 }
    else q
  | _, _, _ => q

/-- The quote after a level update, before the resync check. -/
def updated : QuoteState :=
  ((q.updateBbo event.payload.bestBid event.payload.bestAsk).takeLevel event
    (q.allows event)).keepHash event

def afterDelta : QuoteState :=
  if q.allows event then (q.updated event).judged event else q.updated event

/-- What an event does to the quote. -/
def afterEvent : QuoteState :=
  match event.kind with
  | .bookSnapshot => q.afterSnapshot event
  | .bookDelta => q.afterDelta event
  | .trade => q.keepPrice event
  | .lastPrice => q.keepPrice event
  | .tickSizeChange =>
    match event.payload.tickSize with
    | some tick => { q with orderbook := { q.orderbook with tickPx := some tick } }
    | none => q
  | .health => q

end QuoteState

namespace TokenState

variable (st : TokenState) (event : Event) (second : Option ℤ)

/-! ## The token does the same -/

@[simp] theorem withQuote_quote (q : QuoteState) : (st.withQuote q).toQuoteState = q := rfl

@[simp] theorem withAcc_quote (s : ℤ) (f : SecondAccumulator → SecondAccumulator) :
    (st.withAcc s f).toQuoteState = st.toQuoteState := rfl

@[simp] theorem onAcc_quote (f : SecondAccumulator → SecondAccumulator) :
    (st.onAcc second f).toQuoteState = st.toQuoteState := by
  cases second <;> rfl

@[simp] theorem updateOfiAndLevels_quote (s eventTsMs : ℤ) :
    (st.updateOfiAndLevels s eventTsMs).toQuoteState = st.toQuoteState := by
  unfold updateOfiAndLevels
  simp only
  split
  · split <;> rfl
  · rfl

@[simp] theorem updateBidAskDelta_quote (s eventTsMs : ℤ) (side : BookSide)
    (deltaType : DeltaType) (price size : ℚ) :
    (st.updateBidAskDelta s eventTsMs side deltaType price size).toQuoteState =
      st.toQuoteState := by
  unfold updateBidAskDelta
  simp only
  split
  · rfl
  · split <;> rfl

@[simp] theorem updateTradeWindow_quote (s eventTsMs : ℤ) (side : BookSide) (notional : ℚ) :
    (st.updateTradeWindow s eventTsMs side notional).toQuoteState = st.toQuoteState := by
  unfold updateTradeWindow
  split <;> rfl

@[simp] theorem noteFlow_quote : (st.noteFlow event second).toQuoteState = st.toQuoteState := by
  cases second with
  | none => rfl
  | some s => exact updateOfiAndLevels_quote st s event.localTsMs

@[simp] theorem noteHash_quote :
    (st.noteHash event).toQuoteState = st.toQuoteState.keepHash event := by
  unfold noteHash QuoteState.keepHash
  cases event.payload.hash <;> rfl

@[simp] theorem notePrice_quote :
    (st.notePrice event).toQuoteState = st.toQuoteState.keepPrice event := by
  unfold notePrice QuoteState.keepPrice
  cases event.payload.price <;> rfl

@[simp] theorem loadSnapshot_quote :
    (st.loadSnapshot event second).toQuoteState = st.toQuoteState.loadLevels event := by
  unfold loadSnapshot QuoteState.loadLevels
  simp only
  by_cases hlevels : event.payload.bids.isSome = true ∨ event.payload.asks.isSome = true
  · rw [if_pos hlevels, if_pos hlevels]
    split
    · cases second <;> rfl
    · rfl
  · rw [if_neg hlevels, if_neg hlevels]

@[simp] theorem applySnapshot_quote :
    (st.applySnapshot event second).toQuoteState =
      ({ st.toQuoteState.loadLevels event with resyncNeeded := false }).keepHash event := by
  unfold applySnapshot
  simp only [noteFlow_quote, noteHash_quote, onAcc_quote, withQuote_quote, loadSnapshot_quote]

theorem snapshotDrift_isSome :
    (st.snapshotDrift event).isSome = st.toQuoteState.drifted event := by
  unfold snapshotDrift QuoteState.drifted
  split
  · rename_i hrest
    rw [decide_eq_true hrest, Bool.true_and]
  · rename_i hrest
    rw [decide_eq_false hrest, Bool.false_and]
    rfl

theorem snapshotDrift_reason {log : ResyncLog} (h : st.snapshotDrift event = some log) :
    log.reason = "rest_mismatch" := by
  unfold snapshotDrift at h
  split at h
  · unfold QuoteState.checkOpinionSnapshotDrift at h
    simp only [Option.bind_eq_some_iff] at h
    obtain ⟨bids, _, asks, _, hlog⟩ := h
    split at hlog
    · cases hlog
    · rw [← Option.some.inj hlog]
  · cases h

theorem resyncReason_ne (q : QuoteState) {reason : String}
    (h : q.resyncReason event event.barSecond = some reason) : reason ≠ "rest_mismatch" := by
  unfold QuoteState.resyncReason at h
  split at h
  · cases h
  · split at h
    · cases h
      decide
    · split at h
      · cases h
        decide
      · split at h
        · cases h
          decide
        · split at h
          · cases h
            decide
          · cases h

/-- `check_resync` as a verdict on the quote. -/
theorem checkResync_spec (q : QuoteState) (lastLocalTopnHash : Option String) :
    (q.resyncReason event event.barSecond = none ∧
        q.checkResync event event.barSecond lastLocalTopnHash = (q, none)) ∨
      ∃ log : ResyncLog, q.resyncReason event event.barSecond = some log.reason ∧
        q.checkResync event event.barSecond lastLocalTopnHash =
          (q.markResync event.barSecond, some log) := by
  unfold QuoteState.checkResync
  cases hreason : q.resyncReason event event.barSecond with
  | none => exact Or.inl ⟨rfl, rfl⟩
  | some reason => exact Or.inr ⟨_, rfl, rfl⟩

theorem handleSnapshot_quote :
    (st.handleSnapshot event second).1.toQuoteState = st.toQuoteState.afterSnapshot event := by
  have hsome := st.snapshotDrift_isSome event
  unfold handleSnapshot QuoteState.afterSnapshot QuoteState.loaded
  simp only
  rw [← hsome]
  cases hdrift : st.snapshotDrift event with
  | some log =>
    have hreason := st.snapshotDrift_reason event hdrift
    simp [resyncAfterSnapshot, hreason]
  | none =>
    simp only [Option.isSome_none, Bool.false_eq_true, if_false]
    have hloaded := applySnapshot_quote st event second
    generalize st.applySnapshot event second = st₁ at hloaded
    rw [← hloaded]
    unfold resyncAfterSnapshot QuoteState.judged
    simp only
    rcases checkResync_spec event st₁.toQuoteState st₁.history.lastLocalTopnHash with
      ⟨hnone, hcheck⟩ | ⟨log, hreason, hcheck⟩
    · simp [hnone, hcheck]
    · have hne := resyncReason_ne event st₁.toQuoteState hreason
      simp [hreason, hcheck, hne, QuoteState.markResync]

@[simp] theorem applyLevel_quote (allowed : Bool) (side : BookSide) (price size : ℚ) :
    (st.applyLevel event second allowed side price size).toQuoteState =
      if allowed = true ∧ st.resyncNeeded = false then
        { st.toQuoteState with
          orderbook := (st.orderbook.applyDelta side price size event.localTsMs).1 }
      else st.toQuoteState := by
  unfold applyLevel
  simp only
  split
  · split
    · simp only [onAcc_quote, withQuote_quote]
    · simp only [withQuote_quote]
  · rfl

theorem noteLevel_quote (allowed : Bool) :
    (st.noteLevel event second allowed).toQuoteState = st.toQuoteState.takeLevel event allowed := by
  unfold noteLevel QuoteState.takeLevel
  cases event.payload.side with
  | none => rfl
  | some side =>
    cases event.payload.price with
    | none => rfl
    | some price =>
      cases event.payload.size with
      | none => rfl
      | some size =>
        cases second with
        | none => simp only [onAcc_quote, applyLevel_quote]
        | some s => simp only [updateBidAskDelta_quote, onAcc_quote, applyLevel_quote]

theorem applyDelta_quote :
    (st.applyDelta event second (st.allowApply event)).toQuoteState =
      st.toQuoteState.updated event := by
  unfold applyDelta QuoteState.updated
  simp only [noteHash_quote]
  congr 1
  split
  · rw [noteFlow_quote, onAcc_quote, noteLevel_quote]
    rfl
  · rw [onAcc_quote, noteLevel_quote]
    rfl

theorem handleDelta_quote :
    (st.handleDelta event second).1.toQuoteState = st.toQuoteState.afterDelta event := by
  have hupdated := applyDelta_quote st event second
  have hallows : st.allowApply event = st.toQuoteState.allows event := rfl
  unfold handleDelta QuoteState.afterDelta
  rw [hallows] at hupdated ⊢
  generalize st.applyDelta event second (st.toQuoteState.allows event) = st₁ at hupdated
  rw [← hupdated]
  unfold resyncAfterDelta QuoteState.judged
  split
  · rcases checkResync_spec event st₁.toQuoteState st₁.history.lastLocalTopnHash with
      ⟨hnone, hcheck⟩ | ⟨log, hreason, hcheck⟩
    · simp [hnone, hcheck]
    · simp [hreason, hcheck, QuoteState.markResync]
  · rfl

/-- What an event does to the quote depends on the quote and the event alone. -/
theorem dispatch_quote :
    (st.dispatch event second).1.toQuoteState = st.toQuoteState.afterEvent event := by
  unfold dispatch QuoteState.afterEvent
  cases event.kind with
  | bookSnapshot => exact handleSnapshot_quote st event second
  | bookDelta => exact handleDelta_quote st event second
  | trade =>
    unfold handleTrade
    simp only
    split
    · rw [updateTradeWindow_quote, onAcc_quote, notePrice_quote]
    · rw [onAcc_quote, notePrice_quote]
  | lastPrice => simp only [onAcc_quote, notePrice_quote]
  | tickSizeChange =>
    simp only
    cases event.payload.tickSize <;> rfl
  | health => rfl

/-- Watermark and counts are no part of the quote. -/
@[simp] theorem admitEvent_quote : (st.admitEvent event).1.toQuoteState = st.toQuoteState := by
  unfold admitEvent
  simp only
  split
  · rfl
  · split <;> rfl

@[simp] theorem countEvent_quote : (st.countEvent event second).toQuoteState = st.toQuoteState := by
  cases second <;> rfl

theorem handleEvent_quote :
    (st.handleEvent event).state.toQuoteState =
      st.toQuoteState.afterEvent (st.handleEvent event).event := by
  rw [handleEvent_eq]
  simp only
  rw [dispatch_quote, countEvent_quote, admitEvent_quote]

end TokenState

/-! ## Flushes -/

/-- The same book with the same verdicts; the tick and the last best prices may differ. -/
structure SameBook (q q' : QuoteState) : Prop where
  bids : q'.orderbook.bids = q.orderbook.bids
  asks : q'.orderbook.asks = q.orderbook.asks
  initialized : q'.bookInitialized = q.bookInitialized
  lastResync : q'.lastResyncBarSecond = q.lastResyncBarSecond
  lastPrice : q'.lastPrice = q.lastPrice
  resyncNeeded : q'.resyncNeeded = q.resyncNeeded

namespace SameBook

variable {q q' q'' : QuoteState}

theorem refl (q : QuoteState) : SameBook q q := ⟨rfl, rfl, rfl, rfl, rfl, rfl⟩

theorem trans (h : SameBook q q') (h' : SameBook q' q'') : SameBook q q'' where
  bids := h'.bids.trans h.bids
  asks := h'.asks.trans h.asks
  initialized := h'.initialized.trans h.initialized
  lastResync := h'.lastResync.trans h.lastResync
  lastPrice := h'.lastPrice.trans h.lastPrice
  resyncNeeded := h'.resyncNeeded.trans h.resyncNeeded

theorem grid (h : SameBook q q') : q'.orderbook.grid = q.orderbook.grid := by
  funext ⟨side, idx⟩
  cases side with
  | bid =>
    show q'.orderbook.bids.sizes idx = q.orderbook.bids.sizes idx
    rw [h.bids]
  | ask =>
    show q'.orderbook.asks.sizes idx = q.orderbook.asks.sizes idx
    rw [h.asks]

end SameBook

theorem TokenState.flushLoop_sameBook (cfg : ShardConfig) (tokenKey : String) (n : ℕ)
    (current : ℤ) (st : TokenState) :
    SameBook st.toQuoteState (flushLoop cfg tokenKey n current st).1.toQuoteState := by
  induction n generalizing current st with
  | zero => exact SameBook.refl _
  | succ n ih =>
    set st₁ := (flush { st with accumulators := Function.update st.accumulators current none }
      cfg tokenKey current ((st.accumulators current).getD SecondAccumulator.default)).1
    have hfirst : SameBook st.toQuoteState st₁.toQuoteState := ⟨rfl, rfl, rfl, rfl, rfl, rfl⟩
    exact hfirst.trans (ih (current + 1) st₁)

theorem TokenState.flushReady_sameBook (cfg : ShardConfig) (tokenKey : String) (st : TokenState) :
    SameBook st.toQuoteState (st.flushReady cfg tokenKey).1.toQuoteState := by
  have hloop := flushLoop_sameBook cfg tokenKey
    (st.watermarkSecond - lateEventBufferSecs - st.lastFlushedSecond).toNat
    (st.lastFlushedSecond + 1) st
  unfold flushReady
  simp only
  split
  · exact SameBook.refl _
  · exact hloop

namespace TokenTrack

variable (cfg : ShardConfig) (env : ShardEnv) (tokenKey : String) (track : TokenTrack)

/-- Sending bars leaves the book and its resync state alone. -/
theorem send_sameBook (st : TokenState) :
    ∃ sent, (track.send cfg env tokenKey st).state = some sent ∧
      SameBook st.toQuoteState sent.toQuoteState := by
  have hsame := (ShardWorker.emitAll_spec env (st.flushReady cfg tokenKey).1
    (st.flushReady cfg tokenKey).2).1.quote
  refine ⟨_, rfl, ?_⟩
  rw [hsame]
  exact st.flushReady_sameBook cfg tokenKey

/-- What an event does to the quote of its token. -/
theorem takeEvent_quote (event : Event) :
    ∃ sent, (track.takeEvent cfg env tokenKey event).state = some sent ∧
      SameBook
        ((track.stateFor env tokenKey event).toQuoteState.afterEvent
          ((track.stateFor env tokenKey event).handleEvent event).event)
        sent.toQuoteState := by
  obtain ⟨sent, hsent, hsame⟩ := send_sameBook cfg env tokenKey
    { track with
      dirty := true
      handled := track.handled ++
        [(((track.stateFor env tokenKey event).handleEvent event).event,
          ((track.stateFor env tokenKey event).handleEvent event).second)] }
    ((track.stateFor env tokenKey event).handleEvent event).state
  refine ⟨sent, hsent, ?_⟩
  rw [← TokenState.handleEvent_quote]
  exact hsame

/-- A tick leaves book and resync state alone. -/
theorem takeTick_quote {st : TokenState} (hstate : track.state = some st) (barSecond : ℤ) :
    ∃ sent, (track.takeTick cfg env tokenKey barSecond).state = some sent ∧
      SameBook st.toQuoteState sent.toQuoteState := by
  rw [takeTick_of_state cfg env tokenKey track barSecond hstate]
  obtain ⟨sent, hsent, hsame⟩ := send_sameBook cfg env tokenKey { track with dirty := false }
    (st.advance barSecond)
  have hadvance : (st.advance barSecond).toQuoteState = st.toQuoteState := by
    unfold TokenState.advance
    split <;> rfl
  rw [hadvance] at hsame
  exact ⟨sent, hsent, hsame⟩

end TokenTrack

end AlphaMonitor.Shard
