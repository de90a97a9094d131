import AlphaMonitor.Lib.Binary
import AlphaMonitor.Trade.Chase
import AlphaMonitor.Trade.State
import Mathlib.Data.Rat.Floor
import Mathlib.Data.Finset.Basic

/-!
# Requests to the order executor

The engine does not talk to the exchange while it handles an event, except for
exit orders: it queues requests and is told the outcome later.  This file models
the queue and everything that decides whether a cancel or a fill poll is queued:
deduplication, the rate limiter, retries, backoffs and the open-orders cache.
-/

namespace AlphaMonitor.Trade

/-! ## What the environment supplies -/

/-- The clock and the outside world during one handler call. -/
structure Env where
  /-- `now_ts_ms`. -/
  now : ℤ
  /-- The recent gas quantile, if the chain state could be read. -/
  gasP90 : Option ℚ
  /-- The Opinion fee at this time. -/
  feeBps : ℚ
  /-- The executor still receives requests. -/
  execOpen : Bool
  lower : LowerTable
  /-- How the `i`-th exit call of a pair side ends. -/
  exitReplies : PairKey → ℕ → PlaceReply
  /-- The time put into the `i`-th client id. -/
  clock : ℕ → ℤ
  (cancelJitter retryJitter : ℚ)
  /-- The open orders of a market as the exchange lists them, if it answers. -/
  openOrders : ℤ → Option (List String)

/-! ## Requests -/

inductive FillKind where
  | entry
  | exit
  deriving DecidableEq, Repr

/-- `OrderRequestKind`; a `PlaceChase` is only ever queued for an entry. -/
inductive OrderRequestKind where
  | placeChase (pairKey : PairKey) (target : OpinionOrderTarget) (side : OrderSide) (qty : ℚ)
      (candidatePrices : List ℚ) (clientTag : String)
  | cancelOrder (orderId : String)
  | fetchFills (pairKey : PairKey) (kind : FillKind) (target : OpinionOrderTarget)
      (sinceMs : Option ℤ)
  deriving DecidableEq, Repr

structure OrderRequest where
  id : ℕ
  kind : OrderRequestKind
  deriving DecidableEq, Repr

/-- `CancelResult`. -/
structure CancelResult where
  (ok rateLimited serverError : Bool)
  error : Option String
  deriving DecidableEq, Repr

/-- `CancelRateLimiter`. -/
structure CancelRateLimiter where
  tokens : ℚ
  lastRefillMs : ℤ
  deriving DecidableEq, Repr

/-- `CancelRetryState`. -/
structure CancelRetryState where
  failures : ℕ
  nextAllowedMs : ℤ
  deriving DecidableEq, Repr

/-- `OpenOrdersCache`. -/
structure OpenOrdersCache where
  fetchedMs : ℤ
  orderIds : Finset String
  complete : Bool
  deriving DecidableEq

/-- The fields of `TradeEngine` that decide what is requested. -/
structure Requests where
  nextOrderReqId : ℕ
  /-- Requests sent to the executor and not taken by it yet. -/
  orderExec : List OrderRequest
  lastWsUserMsgMs : Option ℤ
  fillPollBackoffUntilMs : Option ℤ
  fillPollBackoffMs : ℤ
  cancelBackoffUntilMs : Option ℤ
  cancelBackoffMs : ℤ
  cancelConsecutiveFailures : ℤ
  cancelLastFailureMs : Option ℤ
  cancelDedupRecent : String → Option ℤ
  cancelDedupQueue : List (ℤ × String)
  cancelRateLimiter : CancelRateLimiter
  cancelRetry : String → Option CancelRetryState
  openOrdersCache : ℤ → Option OpenOrdersCache

def fillPollBackoffMinMs : ℤ := 2000
def fillPollBackoffMaxMs : ℤ := 60000
def cancelBackoffMinMs : ℤ := 2000
def cancelBackoffMaxMs : ℤ := 60000
def cancelDedupWindowMs : ℤ := 1000
def cancelRetryBaseMs : ℤ := 5000
def cancelRetryMaxMs : ℤ := 120000
def cancelRetryMaxFailures : ℕ := 8
def cancelCircuitFails : ℤ := 5
def cancelCircuitOpenMs : ℤ := 30000
def cancelFailResetMs : ℤ := 60000
def cancelRateLimitRps : ℚ := 5
def cancelRateLimitBurst : ℚ := 10
def cancelRateExitReserve : ℚ := 1
def cancelVerifyCacheTtlMs : ℤ := 5000
def cancelVerifyPageLimit : ℕ := 20
def cancelVerifyMaxPages : ℕ := 5

def Requests.start (now : ℤ) : Requests where
  nextOrderReqId := 0
  orderExec := []
  lastWsUserMsgMs := none
  fillPollBackoffUntilMs := none
  fillPollBackoffMs := 0
  cancelBackoffUntilMs := none
  cancelBackoffMs := 0
  cancelConsecutiveFailures := 0
  cancelLastFailureMs := none
  cancelDedupRecent := fun _ => none
  cancelDedupQueue := []
  cancelRateLimiter := ⟨cancelRateLimitBurst, now⟩
  cancelRetry := fun _ => none
  openOrdersCache := fun _ => none

namespace CancelRateLimiter

/-- `refill`. -/
def refill (lim : CancelRateLimiter) (now : ℤ) : CancelRateLimiter :=
  -- a clock that steps back refills nothing
  if now - lim.lastRefillMs ≤ 0 then lim
  else
    let refill := Lib.F64.mul (Lib.F64.div (now - lim.lastRefillMs : ℤ) 1000) cancelRateLimitRps
    { tokens := min (Lib.F64.add lim.tokens refill) cancelRateLimitBurst
      lastRefillMs := now }

/-- `allow`; what is left of the tokens is not rounded. -/
def allow (lim : CancelRateLimiter) (now : ℤ) (isExit : Bool) : CancelRateLimiter × Bool :=
  let lim := lim.refill now
  -- the last tokens are reserved for exits
  if isExit then
    if lim.tokens ≥ 1 then ({ lim with tokens := lim.tokens - 1 }, true) else (lim, false)
  else if lim.tokens - 1 ≥ cancelRateExitReserve then
    ({ lim with tokens := lim.tokens - 1 }, true)
  else (lim, false)

end CancelRateLimiter

namespace Requests

variable (setup : Setup) (env : Env) (req : Requests)

/-- `next_order_req_id` and `enqueue_order_request`: the id used, if the executor
still receives. -/
def enqueueOrderRequest (kind : OrderRequestKind) : Requests × Option ℕ :=
  -- the id is used up even if the request cannot be sent
  let id := req.nextOrderReqId + 1
  let req := { req with nextOrderReqId := id }
  if env.execOpen then ({ req with orderExec := req.orderExec ++ [⟨id, kind⟩] }, some id)
  else (req, none)

/-- `enqueue_place_chase`. -/
def enqueuePlaceChase (pairKey : PairKey) (side : OrderSide) (qty : ℚ)
    (candidatePrices : List ℚ) (clientTag : String) : Requests × Option ℕ :=
  -- a pair without an order target is never traded
  match setup.orderTargets pairKey with
  | none => (req, none)
  | some target =>
    req.enqueueOrderRequest env (.placeChase pairKey target side qty candidatePrices clientTag)

/-! ### Cancel requests -/

/-- The loop of `evict_cancel_dedup` over the queue. -/
def evictLoop (now : ℤ) : List (ℤ × String) → (String → Option ℤ) →
    List (ℤ × String) × (String → Option ℤ)
  | [], recent => ([], recent)
  | (ts, orderId) :: rest, recent =>
    -- an entry of the queue only removes the mark that it made itself
    if now - ts ≥ cancelDedupWindowMs then
      evictLoop now rest
        (if recent orderId = some ts then Function.update recent orderId none else recent)
    else ((ts, orderId) :: rest, recent)

/-- `evict_cancel_dedup`. -/
def evictCancelDedup (now : ℤ) : Requests :=
  let (queue, recent) := evictLoop now req.cancelDedupQueue req.cancelDedupRecent
  { req with cancelDedupQueue := queue, cancelDedupRecent := recent }

/-- A cancel of this order was queued within the deduplication window. -/
def cancelledRecently (orderId : String) : Bool :=
  match req.cancelDedupRecent orderId with
  | some last => decide (env.now - last < cancelDedupWindowMs)
  | none => false

/-- `enqueue_cancel_order`. -/
def enqueueCancelOrder (orderId : String) : Requests × Option ℕ :=
  -- old marks go first
  let req := req.evictCancelDedup env.now
  if req.cancelledRecently env orderId then (req, none)
  else
    -- the order is marked before the request is sent
    let marked :=
      { req with
        cancelDedupRecent := Function.update req.cancelDedupRecent orderId (some env.now)
        cancelDedupQueue := req.cancelDedupQueue ++ [(env.now, orderId)] }
    match marked.enqueueOrderRequest env (.cancelOrder orderId) with
    | (req', some id) => (req', some id)
    | (req', none) =>
      -- the executor is gone: the mark is taken back
      ({ req' with
        cancelDedupRecent := Function.update req'.cancelDedupRecent orderId none
        cancelDedupQueue := req'.cancelDedupQueue.dropLast }, none)

/-- `cancel_backoff_active`. -/
def cancelBackoffActive : Bool :=
  match req.cancelBackoffUntilMs with
  | some until_ => decide (env.now < until_)
  | none => false

/-- `cancel_retry_allowed`. -/
def cancelRetryAllowed (orderId : String) : Bool :=
  match req.cancelRetry orderId with
  | some retry => decide (env.now ≥ retry.nextAllowedMs)
  | none => true

/-- What `maybe_enqueue_entry_cancel` and `maybe_enqueue_exit_cancel` share: the
request id if a cancel is queued now. -/
def maybeEnqueueCancel (isExit : Bool) (pending : Bool) (reqId : Option ℕ)
    (orderId : Option String) : Requests × Option ℕ :=
  -- nothing to cancel, cancelled already, or all cancels wait
  if pending = false ∨ reqId.isSome ∨ req.cancelBackoffActive env = true then (req, none)
  else
    let (limiter, allowed) := req.cancelRateLimiter.allow env.now isExit
    let req := { req with cancelRateLimiter := limiter }
    -- the token is spent before the order's id is looked at
    if allowed = false then (req, none)
    else
      match orderId with
      | none => (req, none)
      | some orderId =>
        if req.cancelRetryAllowed env orderId then req.enqueueCancelOrder env orderId
        else (req, none)

/-- `maybe_enqueue_entry_cancel`. -/
def maybeEnqueueEntryCancel (st : PairTradeState) : Requests × PairTradeState :=
  let (req, id) := req.maybeEnqueueCancel env false st.entryCancelPending st.entryCancelReqId
    st.entryOrderId
  (req, { st with entryCancelReqId := id.or st.entryCancelReqId })

/-- `maybe_enqueue_exit_cancel`. -/
def maybeEnqueueExitCancel (st : PairTradeState) : Requests × PairTradeState :=
  let (req, id) := req.maybeEnqueueCancel env true st.exitCancelPending st.exitCancelReqId
    st.exitOrderId
  (req, { st with exitCancelReqId := id.or st.exitCancelReqId })

/-! ### Fill polls -/

/-- `ws_user_channel_active`. -/
def wsUserChannelActive : Bool :=
  -- a stale time of zero switches the channel off
  if setup.cfg.wsUserChannelsEnabled = false ∨ setup.cfg.wsUserChannelStaleMs ≤ 0 then false
  else
    match req.lastWsUserMsgMs with
    | some last => decide (env.now - last ≤ setup.cfg.wsUserChannelStaleMs)
    | none => false

/-- The conditions under which `maybe_enqueue_fill_poll` returns early. -/
def fillPollBlocked (st : PairTradeState) (kind : FillKind) : Bool :=
  -- an order that is only known by its client id is polled too
  let noOrder :=
    match kind with
    | .entry => st.entryOrderId.isNone && st.entryClientId.isNone
    | .exit => st.exitOrderId.isNone && st.exitClientId.isNone
  noOrder || st.fillPollReqId.isSome || req.wsUserChannelActive setup env ||
    ((req.fillPollBackoffUntilMs.map fun until_ => decide (env.now < until_)).getD false) ||
    ((st.lastFillPollMs.map fun last =>
      decide (env.now - last < setup.orderPollIntervalMs)).getD false)

/-- `maybe_enqueue_fill_poll`. -/
def maybeEnqueueFillPoll (st : PairTradeState) (pairKey : PairKey) (kind : FillKind) :
    Requests × PairTradeState :=
  if req.fillPollBlocked setup env st kind then (req, st)
  else
    match setup.orderTargets pairKey with
    | none => (req, st)
    | some target =>
      let (req, id) := req.enqueueOrderRequest env (.fetchFills pairKey kind target st.entryTsMs)
      -- the id stays empty where the executor is gone
      (req, { st with lastFillPollMs := some env.now, fillPollReqId := id })

/-- `update_fill_poll_backoff`. -/
def updateFillPollBackoff (rateLimited success : Bool) : Requests :=
  -- the backoff doubles with each rate limit, up to a bound
  if rateLimited then
    let next :=
      if req.fillPollBackoffMs > 0 then min (req.fillPollBackoffMs * 2) fillPollBackoffMaxMs
      else max (setup.orderPollIntervalMs * 2) fillPollBackoffMinMs
    { req with fillPollBackoffMs := next, fillPollBackoffUntilMs := some (env.now + next) }
  -- only a success ends it
  else if success ∧ req.fillPollBackoffMs > 0 then
    { req with fillPollBackoffMs := 0, fillPollBackoffUntilMs := none }
  else req

/-! ### Cancel outcomes -/

/-- `update_cancel_backoff`. -/
def updateCancelBackoff (result : CancelResult) : Requests :=
  if result.ok then
    -- a success closes the backoff and the circuit
    if req.cancelBackoffMs > 0 ∨ req.cancelConsecutiveFailures > 0 then
      { req with
        cancelBackoffMs := 0
        cancelBackoffUntilMs := none
        cancelConsecutiveFailures := 0
        cancelLastFailureMs := none }
    else req
  else
    -- failures that lie too far apart are not counted together
    let lapsed : Bool :=
      match req.cancelLastFailureMs with
      | some last => decide (env.now - last > cancelFailResetMs)
      | none => false
    let failures := (if lapsed then 0 else req.cancelConsecutiveFailures) + 1
    let next :=
      if req.cancelBackoffMs > 0 then min (req.cancelBackoffMs * 2) cancelBackoffMaxMs
      else max (setup.orderPollIntervalMs * 2) cancelBackoffMinMs
    let jittered :=
      min (max (roundHalfAway (next * env.cancelJitter)) cancelBackoffMinMs) cancelBackoffMaxMs
    -- only rate limits and server errors make all cancels wait
    let (backoff, until_) :=
      if result.rateLimited ∨ result.serverError then (next, some (env.now + jittered))
      else (req.cancelBackoffMs, req.cancelBackoffUntilMs)
    let circuit := env.now + cancelCircuitOpenMs
    { req with
      cancelLastFailureMs := some env.now
      cancelConsecutiveFailures := failures
      cancelBackoffMs := backoff
      -- after several failures in a row no cancel is sent for a while
      cancelBackoffUntilMs :=
        if failures ≥ cancelCircuitFails ∧ ((until_.map fun u => decide (u < circuit)).getD true)
        then some circuit else until_ }

/-- `record_cancel_failure`. -/
def recordCancelFailure (orderId : String) : Requests :=
  let failures := ((req.cancelRetry orderId).map (·.failures)).getD 0 + 1
  -- doubled once for every failure of this order
  let backoff := (fun b => min (b * 2) cancelRetryMaxMs)^[failures - 1] cancelRetryBaseMs
  let jittered := max (roundHalfAway (backoff * env.retryJitter)) cancelRetryBaseMs
  let delay := if failures ≥ cancelRetryMaxFailures then cancelRetryMaxMs else jittered
  { req with
    cancelRetry := Function.update req.cancelRetry orderId (some ⟨failures, env.now + delay⟩) }

/-- `clear_cancel_retry`. -/
def clearCancelRetry (orderId : String) : Requests :=
  { req with cancelRetry := Function.update req.cancelRetry orderId none }

/-- `evict_open_order_cache`. -/
def evictOpenOrderCache (marketId : ℤ) (orderId : String) : Requests :=
  { req with
    openOrdersCache := Function.update req.openOrdersCache marketId
      ((req.openOrdersCache marketId).map fun cache =>
        { cache with orderIds := cache.orderIds.erase orderId }) }

/-! ### The open-orders check -/

/-- The pages that `fetch_open_order_ids` reads from a listing, from `page` on:
the ids found and whether the listing was read to its end. -/
def fetchPages (listing : List String) (acc : Finset String) : ℕ → ℕ → Finset String × Bool
  | 0, _ => (acc, true)
  | left + 1, page =>
    let list := (listing.drop (page * cancelVerifyPageLimit)).take cancelVerifyPageLimit
    let acc := acc ∪ list.toFinset
    -- a short page ends the listing
    if list.length < cancelVerifyPageLimit then (acc, true)
    -- the page limit is reached, and more orders may be open
    else if left = 0 then (acc, false)
    else fetchPages listing acc left (page + 1)

/-- `fetch_open_order_ids` with the limits that the engine passes. -/
def fetchOpenOrderIds (listing : List String) : Finset String × Bool :=
  fetchPages listing ∅ cancelVerifyMaxPages 0

/-- The answer read off a set of open ids. -/
def openVerdict (orderIds : Finset String) (complete : Bool) (orderId : String) : Option Bool :=
  -- an id that is missing only counts on a complete listing
  if orderId ∈ orderIds then some true else if complete then some false else none

/-- `is_order_open_for_cancel`. -/
def isOrderOpenForCancel (pairKey : PairKey) (orderId : String) : Requests × Option Bool :=
  match setup.opinionClient, setup.orderTargets pairKey with
  | true, some target =>
    -- a recent listing of the market is used again
    match (req.openOrdersCache target.marketId).filter
        fun cache => decide (env.now - cache.fetchedMs ≤ cancelVerifyCacheTtlMs) with
    | some cache => (req, openVerdict cache.orderIds cache.complete orderId)
    | none =>
      match env.openOrders target.marketId with
      | none => (req, none)
      | some listing =>
        let (orderIds, complete) := fetchOpenOrderIds listing
        ({ req with
          openOrdersCache := Function.update req.openOrdersCache target.marketId
            (some ⟨env.now, orderIds, complete⟩) }, openVerdict orderIds complete orderId)
  | _, _ => (req, none)

/-! ### What is queued -/

/-- Nothing is queued; at most a request id is used up. -/
def QueuesNothing (req req' : Requests) : Prop :=
  req'.orderExec = req.orderExec ∧
    (req'.nextOrderReqId = req.nextOrderReqId ∨ req'.nextOrderReqId = req.nextOrderReqId + 1)

/-- One request is queued under the next id. -/
def Queues (req req' : Requests) (kind : OrderRequestKind) : Prop :=
  req'.orderExec = req.orderExec ++ [⟨req.nextOrderReqId + 1, kind⟩] ∧
    req'.nextOrderReqId = req.nextOrderReqId + 1

theorem enqueueOrderRequest_cases (kind : OrderRequestKind) {req' : Requests} {id : Option ℕ}
    (h : req.enqueueOrderRequest env kind = (req', id)) :
    (id = none ∧ req.QueuesNothing req') ∨
      (id = some (req.nextOrderReqId + 1) ∧ req.Queues req' kind) := by
  unfold enqueueOrderRequest at h
  simp only at h
  split at h
  · cases h
    exact Or.inr ⟨rfl, rfl, rfl⟩
  · cases h
    exact Or.inl ⟨rfl, rfl, Or.inr rfl⟩

theorem enqueuePlaceChase_cases (pairKey : PairKey) (side : OrderSide) (qty : ℚ)
    (candidatePrices : List ℚ) (clientTag : String) {req' : Requests} {id : Option ℕ}
    (h : req.enqueuePlaceChase setup env pairKey side qty candidatePrices clientTag =
      (req', id)) :
    (id = none ∧ req.QueuesNothing req') ∨
      ∃ target, id = some (req.nextOrderReqId + 1) ∧
        req.Queues req' (.placeChase pairKey target side qty candidatePrices clientTag) := by
  unfold enqueuePlaceChase at h
  split at h
  · cases h
    exact Or.inl ⟨rfl, rfl, Or.inl rfl⟩
  · rename_i target _
    rcases enqueueOrderRequest_cases env req _ h with hnone | hsome
    · exact Or.inl hnone
    · exact Or.inr ⟨target, hsome⟩

theorem enqueueCancelOrder_cases (orderId : String) {req' : Requests} {id : Option ℕ}
    (h : req.enqueueCancelOrder env orderId = (req', id)) :
    (id = none ∧ req.QueuesNothing req') ∨
      (id = some (req.nextOrderReqId + 1) ∧ req.Queues req' (.cancelOrder orderId)) := by
  unfold enqueueCancelOrder at h
  simp only at h
  split at h
  · cases h
    exact Or.inl ⟨rfl, rfl, Or.inl rfl⟩
  · split at h
    · rename_i req₁ id₁ hsend
      cases h
      have hcases := enqueueOrderRequest_cases env _ _ hsend
      exact hcases
    · rename_i req₁ hsend
      cases h
      have hcases := enqueueOrderRequest_cases env _ _ hsend
      rcases hcases with ⟨_, hqueue, hnext⟩ | ⟨hid, _⟩
      · exact Or.inl ⟨rfl, hqueue, hnext⟩
      · cases hid

/-- A cancel is queued only while it is pending, not requested, and the order id
is known. -/
theorem maybeEnqueueCancel_cases (isExit pending : Bool) (reqId : Option ℕ)
    (orderId : Option String) {req' : Requests} {id : Option ℕ}
    (h : req.maybeEnqueueCancel env isExit pending reqId orderId = (req', id)) :
    (id = none ∧ req.QueuesNothing req') ∨
      ∃ oid, orderId = some oid ∧ pending = true ∧ reqId = none ∧
        id = some (req.nextOrderReqId + 1) ∧ req.Queues req' (.cancelOrder oid) := by
  unfold maybeEnqueueCancel at h
  simp only at h
  split at h
  · cases h
    exact Or.inl ⟨rfl, rfl, Or.inl rfl⟩
  · rename_i hfree
    simp only [not_or, Bool.not_eq_false, Bool.not_eq_true, Option.isSome_eq_false_iff,
      Option.isNone_iff_eq_none] at hfree
    split at h
    · cases h
      exact Or.inl ⟨rfl, rfl, Or.inl rfl⟩
    · split at h
      · cases h
        exact Or.inl ⟨rfl, rfl, Or.inl rfl⟩
      · rename_i oid
        split at h
        · rcases enqueueCancelOrder_cases env _ oid h with hnone | ⟨hid, hqueue⟩
          · exact Or.inl hnone
          · exact Or.inr ⟨oid, rfl, hfree.1, hfree.2.1, hid, hqueue⟩
        · cases h
          exact Or.inl ⟨rfl, rfl, Or.inl rfl⟩

/-- A fill poll changes two fields of the state that follow no order. -/
theorem maybeEnqueueFillPoll_cases (st : PairTradeState) (pairKey : PairKey) (kind : FillKind)
    {req' : Requests} {st' : PairTradeState}
    (h : req.maybeEnqueueFillPoll setup env st pairKey kind = (req', st')) :
    st'.toOrderState = st.toOrderState ∧ st'.lastBar = st.lastBar ∧
      (req.QueuesNothing req' ∨
        ∃ target, req.Queues req' (.fetchFills pairKey kind target st.entryTsMs)) := by
  unfold maybeEnqueueFillPoll at h
  split at h
  · cases h
    exact ⟨rfl, rfl, Or.inl ⟨rfl, Or.inl rfl⟩⟩
  · split at h
    · cases h
      exact ⟨rfl, rfl, Or.inl ⟨rfl, Or.inl rfl⟩⟩
    · rename_i target _
      simp only at h
      cases hsend : req.enqueueOrderRequest env
        (.fetchFills pairKey kind target st.entryTsMs) with
      | mk req₁ id =>
        rw [hsend] at h
        cases h
        rcases enqueueOrderRequest_cases env req _ hsend with ⟨_, hnone⟩ | ⟨_, hqueue⟩
        · exact ⟨rfl, rfl, Or.inl hnone⟩
        · exact ⟨rfl, rfl, Or.inr ⟨target, hqueue⟩⟩

/-! ### What leaves the queue alone -/

theorem updateFillPollBackoff_queue (rateLimited success : Bool) :
    (req.updateFillPollBackoff setup env rateLimited success).orderExec = req.orderExec ∧
      (req.updateFillPollBackoff setup env rateLimited success).nextOrderReqId =
        req.nextOrderReqId := by
  unfold updateFillPollBackoff
  split
  · exact ⟨rfl, rfl⟩
  · split <;> exact ⟨rfl, rfl⟩

theorem updateCancelBackoff_queue (result : CancelResult) :
    (req.updateCancelBackoff setup env result).orderExec = req.orderExec ∧
      (req.updateCancelBackoff setup env result).nextOrderReqId = req.nextOrderReqId := by
  unfold updateCancelBackoff
  split
  · split <;> exact ⟨rfl, rfl⟩
  · exact ⟨rfl, rfl⟩

theorem isOrderOpenForCancel_queue (pairKey : PairKey) (orderId : String) :
    (req.isOrderOpenForCancel setup env pairKey orderId).1.orderExec = req.orderExec ∧
      (req.isOrderOpenForCancel setup env pairKey orderId).1.nextOrderReqId =
        req.nextOrderReqId := by
  unfold isOrderOpenForCancel
  split
  · split
    · exact ⟨rfl, rfl⟩
    · split <;> exact ⟨rfl, rfl⟩
  · exact ⟨rfl, rfl⟩

end Requests

end AlphaMonitor.Trade
