import AlphaMonitor.Exchange.OrderIdRecovery
import AlphaMonitor.Trade.Executor

/-!
# Polling for fills

The engine asks for the trades of a market since the time that the pair's entry carries, and the
client reads one page of them.  A record whose own time lies before is dropped; the time is taken
as it is written.  The entry carries the time at which the response to its placement was handled,
for as long as the pair works it.

## Main definitions

- `fetchTrades`: the trades that the client returns
- `WorksEntry`: the pair works its entry throughout some messages

## Main results

- `handle_entryTsMs`: a message leaves the time of a working entry alone
- `fill_polled_iff`: the trades that a poll of the working entry returns
-/

namespace AlphaMonitor.Exchange

open Feed (Json)
open Trade

/-! ## The client -/

/-- The text behind the first `errno=`. -/
def afterErrno : List Char → Option (List Char)
  | [] => none
  | c :: cs =>
    if "errno=".toList.isPrefixOf (c :: cs) then some ((c :: cs).drop 6) else afterErrno cs

/-- `is_errno`. -/
def isErrno (message : String) (code : ℤ) : Bool :=
  match afterErrno message.toList with
  | none => false
  | some rest => Feed.parseI64 (String.ofList (rest.takeWhile Char.isDigit)) == some code

/-- `extract_ts_ms`: the time as it is written, whatever its unit. -/
def extractTsMs (value : Json) : Option ℤ :=
  ["ts_ms", "timestamp", "time"].findSome? fun key => (value.get? key).bind Json.asI64

/-- The fill that a record of the exchange is read as. -/
def tradeFillOf (entry : Json) : TradeFill where
  orderId := extractString entry ["orderId", "order_id", "id"]
  clientOrderId := extractString entry ["clientOrderId", "client_order_id"]
  side := extractString entry ["side", "orderSide"]
  price := extractF64FromValue entry ["price", "orderPrice", "matchedPrice"]
  size :=
    extractF64FromValue entry ["size", "makerAmount", "filledSize", "matchedAmount", "fillSize"]
  tsMs := extractTsMs entry

/-- The record is older than the time that was asked for. -/
def tooOld (sinceMs : Option ℤ) (entry : Json) : Bool :=
  match sinceMs, extractTsMs entry with
  | some since, some ts => decide (ts < since)
  | _, _ => false

/-- `fetch_trades`; `request` is what the exchange answers for a page and a limit. -/
def fetchTrades (request : ℕ → ℕ → Except String Json) (sinceMs : Option ℤ) :
    Except String (List TradeFill) :=
  let response : Except String Json :=
    match request 1 50 with
    | .ok value => .ok value
    -- the exchange has no trades of the market
    | .error err => if isErrno err 10207 then .ok (.obj [("list", .arr [])]) else .error err
  response.map fun value =>
    let list := ((value.get? "list").bind jsonArray).getD []
    (list.filter fun entry => !tooOld sinceMs entry).map tradeFillOf

/-- The fills of `fetch_fills`: none where the request fails. -/
def fetchFills (request : ℕ → ℕ → Except String Json) (sinceMs : Option ℤ) : List TradeFill :=
  match fetchTrades request sinceMs with
  | .ok fills => fills
  | .error _ => []

/-- The exchange serves the trades of the market page by page. -/
def ServesPages (request : ℕ → ℕ → Except String Json) (trades : List Json) : Prop :=
  ∀ page limit, ∃ value, request (page + 1) limit = .ok value ∧
    value.get? "list" = some (.arr ((trades.drop (page * limit)).take limit))

/-- The fills that are returned are those of the first fifty trades that are not too old. -/
theorem mem_fetchFills {request : ℕ → ℕ → Except String Json} {trades : List Json}
    (hserves : ServesPages request trades) {sinceMs : Option ℤ} {fill : TradeFill} :
    fill ∈ fetchFills request sinceMs ↔
      ∃ entry ∈ trades.take 50, tradeFillOf entry = fill ∧ tooOld sinceMs entry = false := by
  obtain ⟨value, hvalue, hlist⟩ := hserves 0 50
  have hfetch : fetchFills request sinceMs =
      ((trades.take 50).filter fun entry => !tooOld sinceMs entry).map tradeFillOf := by
    unfold fetchFills fetchTrades
    simp [hvalue, hlist, jsonArray, Except.map]
  rw [hfetch, List.mem_map]
  constructor
  · rintro ⟨entry, hmem, rfl⟩
    obtain ⟨htaken, hnew⟩ := List.mem_filter.mp hmem
    exact ⟨entry, htaken, rfl, by simpa using hnew⟩
  · rintro ⟨entry, htaken, rfl, hnew⟩
    exact ⟨entry, List.mem_filter.mpr ⟨htaken, by simpa using hnew⟩, rfl⟩

/-! ## The time of a working entry -/

variable {setup : Setup} {env : Env} {key : PairKey}

/-- A move that places nothing leaves the time of a working entry alone. -/
theorem Move.entryTsMs {s t : Slot} {a : Act} (hlive : setup.isLive = true)
    (hplaced : ∀ reqId result, a ≠ .placed reqId result) (h : Move setup key s a t)
    (ht : t.order.state = .entryWorking) :
    s.order.state = .entryWorking ∧ t.order.entryTsMs = s.order.entryTsMs := by
  cases h with
  | upkeep h =>
    cases h <;> simp_all [OrderState.idle, OrderState.cooldown, OrderState.dropExitCancel]
  | placed reqId result => exact absurd rfl (hplaced reqId result)
  | openExit qty prices result calls hlive hstate =>
    rw [OrderState.exitPlaced_state] at ht
    cases ht
  | retryExit qty prices result calls hlive hstate =>
    rw [OrderState.exitPlaced_state, hstate] at ht
    cases ht
  | entryFill fill now =>
    cases ht
  | openPaper hnotLive =>
    rw [hlive] at hnotLive
    cases hnotLive
  | entryPaper price now hnotLive =>
    rw [hlive] at hnotLive
    cases hnotLive
  | enterPaper entry qty price rest now hnotLive =>
    rw [hlive] at hnotLive
    cases hnotLive
  | cancelExit cause => exact ⟨ht, rfl⟩
  -- The other moves end the entry, or start one.
  | _ => cases ht

/-- A working entry has this time. -/
def TimedAt (ts : Option ℤ) (o : OrderState) : Prop := o.state = .entryWorking → o.entryTsMs = ts

/-- While the entry is worked, a message leaves its time alone. -/
theorem handle_entryTsMs {eng : TradeEngine} (hinv : eng.Inv setup) (hlive : setup.isLive = true)
    (message : TradeMessage) (hbefore : (eng.stateOf key).state = .entryWorking)
    (hafter : ((TradeEngine.handle setup env eng message).stateOf key).state = .entryWorking) :
    ((TradeEngine.handle setup env eng message).stateOf key).entryTsMs =
      (eng.stateOf key).entryTsMs := by
  by_cases hresponse : ∃ reqId result, message = .orderResponse (.placeChase reqId key result)
  · -- A pair that works its entry waits for no response to a placement.
    obtain ⟨reqId, result, rfl⟩ := hresponse
    have hnone : (eng.stateOf key).entryPlaceReqId ≠ some reqId := by
      intro hreq
      have hplacing := (hinv.wf key).placing.mpr (by simp [TradeEngine.view, hreq])
      simp [TradeEngine.view, hbefore] at hplacing
    rw [eng.placement_ignored result hnone]
  · have hsteps := @TradeEngine.handle_steps setup env eng message hinv
    -- A time that is set stays as long as the state does, through every move of the message.
    have htimed : TimedAt (eng.stateOf key).entryTsMs
        ((TradeEngine.handle setup env eng message).view.order key) := by
      apply hsteps.keyInv ⟨hinv.wf, hinv.bars⟩ ?_ fun _ => rfl
      intro v a t _ hallow hv hmove hworking
      have hplaced : ∀ reqId result, a ≠ .placed reqId result := by
        rintro reqId result rfl
        exact hresponse ⟨reqId, result, MessageAllow.placed_message hallow⟩
      obtain ⟨hstate, hts⟩ := Move.entryTsMs hlive hplaced hmove hworking
      exact hts.trans (hv hstate)
    exact htimed hafter

/-- The pair works its entry before and after each of the messages. -/
def WorksEntry (setup : Setup) (key : PairKey) :
    TradeEngine → List (Env × TradeMessage) → Prop
  | eng, [] => (eng.stateOf key).state = .entryWorking
  | eng, e :: rest => (eng.stateOf key).state = .entryWorking ∧
      WorksEntry setup key (TradeEngine.handle setup e.1 eng e.2) rest

theorem WorksEntry.state {eng : TradeEngine} {messages : List (Env × TradeMessage)}
    (h : WorksEntry setup key eng messages) : (eng.stateOf key).state = .entryWorking := by
  cases messages with
  | nil => exact h
  | cons e rest => exact h.1

/-- While the entry is worked, a run leaves its time alone. -/
theorem handleAll_entryTsMs {eng : TradeEngine} (hinv : eng.Inv setup)
    (hlive : setup.isLive = true) {messages : List (Env × TradeMessage)}
    (hworks : WorksEntry setup key eng messages) :
    ((eng.handleAll setup messages).stateOf key).entryTsMs = (eng.stateOf key).entryTsMs := by
  induction messages generalizing eng with
  | nil => rfl
  | cons e rest ih =>
    have htail := ih (TradeEngine.handle_inv eng e.2 hinv) hworks.2
    exact htail.trans (handle_entryTsMs hinv hlive e.2 hworks.1 hworks.2.state)

/-- The response to its placement makes the pair work its entry from the time it is handled. -/
theorem placement_entryTsMs {eng : TradeEngine} {reqId : ℕ} {entry : PendingEntry}
    {result : PlaceResult} (hreq : (eng.stateOf key).entryPlaceReqId = some reqId)
    (hentry : (eng.stateOf key).pendingEntry = some entry)
    (hok : result.order.isSome ∨ result.lastErr = some "order_id_missing") :
    ((TradeEngine.handle setup env eng (.orderResponse (.placeChase reqId key result))).stateOf
      key).entryTsMs = some env.now := by
  rw [eng.handle_placement result hreq hentry, TradeEngine.stateOf_putBack, if_pos rfl]
  unfold TradeEngine.applyPlaceResult
  simp only
  rw [if_pos (by simpa using hok)]
  rfl

/-! ## What a poll returns -/

/-- The engine after the response to a placement and further messages. -/
def afterPlacement (setup : Setup) (key : PairKey) (eng : TradeEngine) (placed : Env) (reqId : ℕ)
    (result : PlaceResult) (messages : List (Env × TradeMessage)) : TradeEngine :=
  (TradeEngine.handle setup placed eng (.orderResponse (.placeChase reqId key result))).handleAll
    setup messages

/-- A poll that the engine builds for an entry: it was placed by the response handled in `placed`,
and the pair has worked it since then. -/
structure EntryPoll (setup : Setup) (key : PairKey) (eng : TradeEngine) (placed : Env) (reqId : ℕ)
    (result : PlaceResult) (messages : List (Env × TradeMessage)) (sinceMs : Option ℤ) :
    Prop where
  reachable : (engineMachine setup).Reachable eng
  waits : (eng.stateOf key).entryPlaceReqId = some reqId
  accepted : result.order.isSome ∨ result.lastErr = some "order_id_missing"
  works : WorksEntry setup key
    (TradeEngine.handle setup placed eng (.orderResponse (.placeChase reqId key result))) messages
  built : ∃ env target,
    (afterPlacement setup key eng placed reqId result messages).desk.req.Queues
      ((afterPlacement setup key eng placed reqId result messages).desk.req.maybeEnqueueFillPoll
        setup env ((afterPlacement setup key eng placed reqId result messages).stateOf key) key
        .entry).1
      (.fetchFills key .entry target sinceMs)

/-- It asks for the trades since the response was handled. -/
theorem EntryPoll.sinceMs_eq {eng : TradeEngine} {placed : Env} {reqId : ℕ} {result : PlaceResult}
    {messages : List (Env × TradeMessage)} {sinceMs : Option ℤ}
    (h : EntryPoll setup key eng placed reqId result messages sinceMs) :
    sinceMs = some placed.now := by
  obtain ⟨hreach, hreq, hok, hworks, env, target, hqueue, -⟩ := h
  have hinv := inv_of_reachable hreach
  obtain ⟨entry, hentry, -⟩ := (hinv.wf key).pending reqId hreq
  -- A pair that waits for a response to a placement trades live.
  have hlive : setup.isLive = true := by
    by_contra hdry
    have hnone := (hinv.wf key).dry (by simpa using hdry)
    exact nomatch hreq.symm.trans hnone
  have htime : ((afterPlacement setup key eng placed reqId result messages).stateOf
      key).entryTsMs = some placed.now :=
    (handleAll_entryTsMs (TradeEngine.handle_inv eng _ hinv) hlive hworks).trans
      (placement_entryTsMs hreq hentry hok)
  generalize afterPlacement setup key eng placed reqId result messages = eng' at hqueue htime
  rw [← htime]
  cases hbuilt : eng'.desk.req.maybeEnqueueFillPoll setup env (eng'.stateOf key) key .entry with
  | mk req st =>
    rw [hbuilt] at hqueue
    obtain ⟨-, -, hnothing | ⟨target', hqueue', -⟩⟩ :=
      Requests.maybeEnqueueFillPoll_cases setup env _ _ _ _ hbuilt
    · -- A poll that is suppressed queues nothing.
      have hempty := hqueue.symm.trans hnothing.1
      simp at hempty
    · have hsame := List.append_cancel_left (hqueue.symm.trans hqueue')
      simp only [List.cons.injEq, OrderRequest.mk.injEq, OrderRequestKind.fetchFills.injEq,
        true_and, and_true] at hsame
      exact hsame.2

/-- A poll of the working entry returns the trades among the first fifty that carry no time, or one
that is not below the time at which the response to the placement was handled. -/
theorem fill_polled_iff {eng : TradeEngine} {placed : Env} {reqId : ℕ} {result : PlaceResult}
    {messages : List (Env × TradeMessage)} {sinceMs : Option ℤ}
    (hpoll : EntryPoll setup key eng placed reqId result messages sinceMs)
    {request : ℕ → ℕ → Except String Json} {trades : List Json}
    (hserves : ServesPages request trades) (entry : Json) :
    tradeFillOf entry ∈ fetchFills request sinceMs ↔
      ∃ other ∈ trades.take 50, tradeFillOf other = tradeFillOf entry ∧
        ∀ ts, extractTsMs other = some ts → placed.now ≤ ts := by
  rw [mem_fetchFills hserves, hpoll.sinceMs_eq]
  -- A record without a time is never too old.
  have hnew : ∀ other, tooOld (some placed.now) other = false ↔
      ∀ ts, extractTsMs other = some ts → placed.now ≤ ts := by
    intro other
    unfold tooOld
    cases extractTsMs other <;> simp
  simp only [hnew]

/-! ## A trade before the response -/

/-- The result of the sample placement. -/
def sampleResult : PlaceResult :=
  ⟨some ⟨"e1", some "client"⟩, some "client", some (1 / 2), 1, 0, none⟩

/-- The order `e1` is submitted at 1000 ms; the response is handled at 1100 ms, and the poll is
built after that. -/
theorem sample_poll :
    EntryPoll sampleSetup sampleKey (sampleEngine (sampleEntering.take 2)) (sampleEnv 1100 "x") 1
      sampleResult [] (some 1100) := by
  constructor
  · exact reachable_sampleEngine _
  · decide +kernel
  · exact .inl rfl
  · show ((TradeEngine.handle sampleSetup (sampleEnv 1100 "x") _ _).stateOf sampleKey).state =
      .entryWorking
    decide +kernel
  · exact ⟨sampleEnv 1200 "x", ⟨7, "token"⟩, by decide +kernel, by decide +kernel⟩

/-- An exchange with these trades. -/
def servePages (trades : List Json) (page limit : ℕ) : Except String Json :=
  .ok (.obj [("list", .arr ((trades.drop ((page - 1) * limit)).take limit))])

theorem servePages_serves (trades : List Json) : ServesPages (servePages trades) trades :=
  fun _ _ => ⟨_, rfl, rfl⟩

/-- A trade of the order `e1`, at a time. -/
def tradeOfE1 (tsMs : ℤ) : Json :=
  .obj [("orderId", .str "e1"), ("side", .str "BUY"), ("price", .str "0.5"), ("size", .str "20"),
    ("ts_ms", .int tsMs)]

/-- The poll returns a trade after the response. -/
theorem late_trade_polled :
    tradeFillOf (tradeOfE1 1150) ∈ fetchFills (servePages [tradeOfE1 1150]) (some 1100) :=
  (fill_polled_iff sample_poll (servePages_serves _) (tradeOfE1 1150)).mpr
    ⟨tradeOfE1 1150, List.mem_singleton_self _, rfl, fun ts hts => by
      rw [show extractTsMs (tradeOfE1 1150) = some 1150 by decide +kernel] at hts
      cases hts
      decide⟩

/-- A trade between the submission and the response is listed, and is not returned. -/
theorem early_trade_missed :
    EntryPoll sampleSetup sampleKey (sampleEngine (sampleEntering.take 2)) (sampleEnv 1100 "x") 1
        sampleResult [] (some 1100) ∧
      ServesPages (servePages [tradeOfE1 1050]) [tradeOfE1 1050] ∧
      (tradeFillOf (tradeOfE1 1050)).orderId = some "e1" ∧
      extractTsMs (tradeOfE1 1050) = some 1050 ∧
      tradeFillOf (tradeOfE1 1050) ∉ fetchFills (servePages [tradeOfE1 1050]) (some 1100) :=
  ⟨sample_poll, servePages_serves _, by decide +kernel, by decide +kernel, by decide +kernel⟩

end AlphaMonitor.Exchange
