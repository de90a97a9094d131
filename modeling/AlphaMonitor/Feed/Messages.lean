import AlphaMonitor.Events

/-!
# What the Opinion tasks send

The WebSocket task turns a market message into an event for the shards and a note of
the activity for the snapshotter.  The snapshotter turns an order book that it fetched
into a snapshot event.  Both stamp the event with the time of its arrival here.
-/

namespace AlphaMonitor.Feed

/-! ## Market messages -/

/-- The market messages that the task handles. -/
inductive MarketMsgType where
  | depthDiff
  | lastPrice
  | lastTrade
  deriving DecidableEq, Repr

/-- The `msgType` of a message on the wire. -/
def MarketMsgType.asStr : MarketMsgType → String
  | .depthDiff => "market.depth.diff"
  | .lastPrice => "market.last.price"
  | .lastTrade => "market.last.trade"

/-- A market message of a token, with the fields that its type reads. -/
structure MarketMessage where
  msgType : MarketMsgType
  tsRaw : Option ℤ
  side : Option BookSide
  (price size : Option ℚ)
  isSplitMerge : Bool
  deriving DecidableEq, Repr

/-- `normalize_ts_ms`: seconds, milliseconds, microseconds or nanoseconds, by magnitude. -/
def normalizeTsMs (tsRaw : ℤ) : Option ℤ :=
  if tsRaw < 0 then none
  else if tsRaw < 100000000000 then some (tsRaw * 1000)
  else if tsRaw < 100000000000000 then some tsRaw
  else if tsRaw < 100000000000000000 then some (tsRaw.tdiv 1000)
  else some (tsRaw.tdiv 1000000)

/-- What the WebSocket task knows when a message arrives. -/
structure Arrival where
  (localTsMs clockOffset opinionTsMaxSkewMs : ℤ)
  deriving DecidableEq, Repr

/-- `SnapshotCommand`. -/
inductive SnapshotCommand where
  | triggerAll (reason : String)
  | triggerInactive (reason : String) (cutoffMs : ℤ)
  | wsActivity (tokenKey : String) (lastPrice bookUpdate : Bool) (payloadTsMs : Option ℤ)
  | triggerToken (tokenKey reason : String)
  deriving DecidableEq, Repr

namespace MarketMessage

variable (arrival : Arrival) (tokenKey : String) (message : MarketMessage)

/-- The time on the message, if it has one that can be read. -/
def payloadTsMs : Option ℤ := message.tsRaw.bind normalizeTsMs

/-- The flags before the message itself is read. -/
def arrivalFlags : EventFlags :=
  match message.tsRaw with
  | none => { EventFlags.none with tsMissing := true }
  | some _ =>
    match message.payloadTsMs with
    | none => { EventFlags.none with tsAnomaly := true }
    | some tsMs =>
      { EventFlags.none with
        tsAnomaly := decide (arrival.opinionTsMaxSkewMs < |arrival.localTsMs - tsMs|) }

/-- The event before the message itself is read. -/
def blankEvent : Event where
  venue := .opinion
  tokenKey := tokenKey
  kind := .health
  channel := some message.msgType.asStr
  exchangeTsMs := arrival.localTsMs - arrival.clockOffset
  localTsMs := arrival.localTsMs
  exchangeTsSource := .estimated
  flags := message.arrivalFlags arrival
  payload := EventPayload.empty

/-- `handle_message`: the event of the message, and whether it counts as a last price and as an
update of the book.  A message that cannot be read is passed on as a health event. -/
def parse : Event × Bool × Bool :=
  let event := message.blankEvent arrival tokenKey
  match message.msgType with
  | .depthDiff =>
    match message.side, message.price with
    | some side, some price =>
      let size := message.size.getD 0
      let deltaType := if size ≤ 0 then DeltaType.cancel else .addOrUpdate
      ({ event with
          kind := .bookDelta
          payload := { event.payload with
            side := some side, price := some price, size := some size
            deltaType := some deltaType } },
        false, true)
    | _, _ => (event, false, false)
  | .lastPrice =>
    match message.price with
    | some price =>
      ({ event with
          kind := .lastPrice
          payload := { event.payload with price := some price } },
        true, false)
    | none => (event, false, false)
  | .lastTrade =>
    match message.price with
    | some price =>
      let side := if message.isSplitMerge then none else message.side
      ({ event with
          kind := .trade
          flags := { event.flags with
            tradeSideMissing := event.flags.tradeSideMissing || side.isNone }
          payload := { event.payload with
            price := some price, size := some (message.size.getD 0), side := side } },
        true, false)
    | none => (event, false, false)

/-- The event that goes to the dispatcher. -/
def event : Event := (message.parse arrival tokenKey).1

/-- The note that goes to the snapshotter. -/
def activity : SnapshotCommand :=
  let parsed := message.parse arrival tokenKey
  .wsActivity tokenKey parsed.2.1 parsed.2.2 message.payloadTsMs

/-- The message changes a level of the book. -/
def isBookUpdate : Bool :=
  decide (message.msgType = .depthDiff) && message.side.isSome && message.price.isSome

/-! ### Its event -/

theorem event_frame :
    (message.event arrival tokenKey).tokenKey = tokenKey ∧
      (message.event arrival tokenKey).venue = .opinion ∧
      (message.event arrival tokenKey).kind ≠ .bookSnapshot ∧
      ((message.event arrival tokenKey).kind = .bookDelta ↔ message.isBookUpdate = true) := by
  unfold event parse isBookUpdate
  cases message.msgType with
  | depthDiff =>
    cases message.side <;> cases message.price <;> simp [blankEvent]
  | lastPrice =>
    cases message.price <;> simp [blankEvent]
  | lastTrade =>
    cases message.price <;> simp [blankEvent]

/-- The snapshotter is told of an update of the book just in case the shard gets one. -/
theorem activity_eq :
    ∃ lastPrice, message.activity arrival tokenKey =
      .wsActivity tokenKey lastPrice message.isBookUpdate message.payloadTsMs := by
  unfold activity parse isBookUpdate
  cases message.msgType with
  | depthDiff =>
    cases message.side <;> cases message.price <;> exact ⟨_, rfl⟩
  | lastPrice =>
    cases message.price <;> exact ⟨_, rfl⟩
  | lastTrade =>
    cases message.price <;> exact ⟨_, rfl⟩

end MarketMessage

/-! ## Fetched order books -/

/-- An order book as the venue answers it. -/
structure RestBook where
  (bids asks : List BookLevel)
  tsRaw : Option ℤ
  deriving DecidableEq, Repr

/-- `normalize_ts_ms` of the snapshotter, for which zero is no time either. -/
def RestBook.payloadTsMs (book : RestBook) : Option ℤ :=
  book.tsRaw.bind fun tsRaw => if tsRaw ≤ 0 then none else normalizeTsMs tsRaw

/-- `fetch_and_emit`: the event of a book that arrived. -/
def RestBook.event (book : RestBook) (arrival : Arrival) (tokenKey : String) : Event where
  venue := .opinion
  tokenKey := tokenKey
  kind := .bookSnapshot
  channel := some "rest.orderbook"
  exchangeTsMs := arrival.localTsMs - arrival.clockOffset
  localTsMs := arrival.localTsMs
  exchangeTsSource := .estimated
  flags :=
    match book.payloadTsMs with
    | none => { EventFlags.none with tsMissing := true }
    | some tsMs =>
      { EventFlags.none with
        tsAnomaly := decide (arrival.opinionTsMaxSkewMs < arrival.localTsMs - tsMs) }
  payload := { EventPayload.empty with bids := some book.bids, asks := some book.asks }

end AlphaMonitor.Feed
