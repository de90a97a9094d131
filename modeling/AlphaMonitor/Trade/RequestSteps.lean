import AlphaMonitor.Lib.Chain
import AlphaMonitor.Trade.Refinement

/-!
# What a message does to the requests

Whatever a handler does, it changes the requests through a few functions only, one after another.
Two of them, the check of an unclear cancel and the bookkeeping of its response, are called for
cancel responses alone.

## Main definitions

- `RequestAct`, `RequestAct.apply`: the functions
- `RequestSteps`: changes of the requests by these functions

## Main results

- `TradeEngine.handleCancelResponse_req`: a cancel response
- `TradeEngine.handle_requests`: every other message
-/

namespace AlphaMonitor.Trade

/-! ## Steps -/

/-- A function that changes the requests, with its arguments. -/
inductive RequestAct where
  /-- `maybe_enqueue_entry_cancel` or `maybe_enqueue_exit_cancel`. -/
  | cancel (st : PairTradeState) (isExit : Bool)
  /-- `enqueue_place_chase`. -/
  | place (key : PairKey) (side : OrderSide) (qty : ℚ) (candidatePrices : List ℚ)
    (clientTag : String)
  /-- `maybe_enqueue_fill_poll`. -/
  | poll (st : PairTradeState) (key : PairKey) (kind : FillKind)
  /-- `update_fill_poll_backoff`. -/
  | polled (rateLimited success : Bool)
  /-- Fills of the user channel end the wait of the fill polls. -/
  | filled
  /-- A message of the user channel has come. -/
  | heard
  /-- `clear_cancel_retry`. -/
  | cancelled (orderId : String)
  /-- `is_order_open_for_cancel`. -/
  | verify (key : PairKey) (orderId : String)
  /-- The bookkeeping of a cancel response. -/
  | note (key : PairKey) (orderId : String) (result : CancelResult) (cancelOk : Bool)

namespace RequestAct

def apply (setup : Setup) (env : Env) (req : Requests) : RequestAct → Requests
  | .cancel st isExit =>
    if isExit then (req.maybeEnqueueExitCancel env st).1
    else (req.maybeEnqueueEntryCancel env st).1
  | .place key side qty candidatePrices clientTag =>
    (req.enqueuePlaceChase setup env key side qty candidatePrices clientTag).1
  | .poll st key kind => (req.maybeEnqueueFillPoll setup env st key kind).1
  | .polled rateLimited success => req.updateFillPollBackoff setup env rateLimited success
  | .filled => { req with fillPollBackoffMs := 0, fillPollBackoffUntilMs := none }
  | .heard => { req with lastWsUserMsgMs := some env.now }
  | .cancelled orderId => req.clearCancelRetry orderId
  | .verify key orderId => (req.isOrderOpenForCancel setup env key orderId).1
  | .note key orderId result cancelOk =>
    TradeEngine.noteCancel setup env req key orderId result cancelOk

/-- The function is called for cancel responses only. -/
def ofCancelResponse : RequestAct → Bool
  | .verify _ _ => true
  | .note _ _ _ _ => true
  | _ => false

end RequestAct

/-- Changes of the requests by allowed functions, one after another. -/
def RequestSteps (setup : Setup) (env : Env) (allow : RequestAct → Prop) :
    Requests → Requests → Prop :=
  Lib.Chain (fun req act req' => req' = act.apply setup env req) fun _ act => allow act

/-- No function of these is called for cancel responses only. -/
abbrev QuietSteps (setup : Setup) (env : Env) : Requests → Requests → Prop :=
  RequestSteps setup env fun act => act.ofCancelResponse = false

section

variable {setup : Setup} {env : Env} {req req' : Requests}

theorem RequestSteps.single {allow : RequestAct → Prop} (act : RequestAct) (h : allow act)
    (heq : req' = act.apply setup env req) : RequestSteps setup env allow req req' :=
  Lib.Chain.single h heq

/-- What every allowed function keeps, the steps keep. -/
theorem RequestSteps.keeps {allow : RequestAct → Prop} {β : Type*} (f : Requests → β)
    (hact : ∀ req act, allow act → f (act.apply setup env req) = f req)
    (h : RequestSteps setup env allow req req') : f req' = f req := by
  apply Lib.Chain.inv (fun r => f r = f req) _ h rfl
  rintro r act r' hr hallow rfl
  exact (hact r act hallow).trans hr

theorem maybeEnqueueEntryCancel_requests (st : PairTradeState) :
    QuietSteps setup env req (req.maybeEnqueueEntryCancel env st).1 :=
  .single (.cancel st false) rfl rfl

theorem maybeEnqueueExitCancel_requests (st : PairTradeState) :
    QuietSteps setup env req (req.maybeEnqueueExitCancel env st).1 :=
  .single (.cancel st true) rfl rfl

theorem maybeEnqueueFillPoll_requests (st : PairTradeState) (pairKey : PairKey)
    (kind : FillKind) :
    QuietSteps setup env req (req.maybeEnqueueFillPoll setup env st pairKey kind).1 :=
  .single (.poll st pairKey kind) rfl rfl

/-! ## The functions of one pair -/

variable (desk : Desk) (st : PairTradeState) (bar : Bars1sPair) (pairKey : PairKey)

theorem maybeEnter_requests (entry : PendingEntry) (poolOverride : Option ℚ) :
    QuietSteps setup env desk.req (maybeEnter setup env desk st entry poolOverride).1.req := by
  unfold maybeEnter
  simp only
  split
  · exact Lib.Chain.refl _
  split
  · exact Lib.Chain.refl _
  split
  · exact Lib.Chain.refl _
  split
  · exact Lib.Chain.refl _
  split
  · exact Lib.Chain.refl _
  · exact Lib.Chain.refl _
  · -- Only the placement itself queues anything.
    rename_i qty first rest _
    have hplace : QuietSteps setup env desk.req (desk.req.enqueuePlaceChase setup env entry.key
        (entrySide entry.direction) qty (first :: rest) "E").1 :=
      .single (.place entry.key (entrySide entry.direction) qty (first :: rest) "E") rfl rfl
    unfold placeEntry
    simp only
    split
    · split
      · rename_i req id hqueue
        rw [hqueue] at hplace
        exact hplace
      · rename_i req hqueue
        rw [hqueue] at hplace
        exact hplace
    · exact Lib.Chain.refl _

theorem requestEntryCancel_requests (reason : CancelReason) :
    QuietSteps setup env desk.req (requestEntryCancel setup env desk st bar reason pairKey).1.req := by
  unfold requestEntryCancel
  simp only
  split
  · exact maybeEnqueueEntryCancel_requests _
  · exact Lib.Chain.refl _

theorem checkWorkingEntry_requests (signals : List ShockSignal) (flow : PmFlow) :
    QuietSteps setup env desk.req
      (checkWorkingEntry setup env signals desk st bar flow pairKey).1.req := by
  unfold checkWorkingEntry
  split
  · exact requestEntryCancel_requests desk st bar pairKey _
  split
  · exact requestEntryCancel_requests desk st bar pairKey _
  split
  · exact Lib.Chain.refl _
  split
  · exact Lib.Chain.refl _
  · exact Lib.Chain.refl _

theorem checkEntry_requests (signals : List ShockSignal) (flow : PmFlow) :
    QuietSteps setup env desk.req (checkEntry setup env signals desk st bar flow pairKey).1.req := by
  unfold checkEntry
  split
  · exact Lib.Chain.refl _
  split
  · -- While a cancel is pending the fills are polled, and the cancel is tried again.
    split
    · exact Lib.Chain.refl _
    · apply (maybeEnqueueFillPoll_requests st pairKey .entry).trans
      simp only
      split
      · exact maybeEnqueueEntryCancel_requests _
      · exact checkWorkingEntry_requests
          { desk with req := (desk.req.maybeEnqueueFillPoll setup env st pairKey .entry).1 } _ bar
          pairKey signals flow
  split
  · exact Lib.Chain.refl _
  · exact checkWorkingEntry_requests desk st bar pairKey signals flow

theorem exitPlacements_req (plan : ExitPlan) (qty : ℚ) :
    (exitPlacements setup env desk st bar pairKey plan qty).1.req = desk.req := by
  have hplace : ∀ (desk : Desk) (st : PairTradeState),
      (placeExit setup env desk st bar pairKey plan.exitPrice qty).1.req = desk.req := by
    intro desk st
    unfold placeExit
    simp only
    split
    · rfl
    · rfl
  unfold exitPlacements
  simp only
  split
  · split
    · simp only [hplace]
    · split
      · simp only [hplace]
      · simp only [hplace]
  · split
    · rfl
    · split
      · simp only [hplace]
      · rfl

theorem checkExit_requests (signals : List ShockSignal) (flow : PmFlow) (basePm : ℚ) :
    QuietSteps setup env desk.req
      (checkExit setup env signals desk st bar flow basePm pairKey).1.req := by
  unfold checkExit
  split
  · simp only
    split
    · -- A cancel that is pending is tried again, and the fills are polled.
      unfold exitAwaitCancel
      simp only
      split
      · exact maybeEnqueueExitCancel_requests _
      · exact (maybeEnqueueExitCancel_requests _).trans (maybeEnqueueFillPoll_requests _ _ _)
    · split
      · -- A reprice starts with the cancel.
        unfold exitStartCancel
        exact (maybeEnqueueExitCancel_requests _).trans (maybeEnqueueFillPoll_requests _ _ _)
      · have hplaced := @exitPlacements_req setup env desk
        split
        · unfold exitPoll
          split
          · rw [hplaced]
            exact Lib.Chain.refl _
          · simp only [hplaced]
            exact maybeEnqueueFillPoll_requests _ _ _
        · split
          · unfold closePosition
            rw [hplaced]
            exact Lib.Chain.refl _
          · rw [hplaced]
            exact Lib.Chain.refl _
  · exact Lib.Chain.refl _

theorem applyEntryFillsAndCheck_requests (signals : List ShockSignal) (flow : PmFlow)
    (fills : List TradeFill) :
    QuietSteps setup env desk.req
      (applyEntryFillsAndCheck setup env signals desk st bar flow fills pairKey).1.req := by
  unfold applyEntryFillsAndCheck
  simp only
  split
  · exact checkExit_requests desk _ bar pairKey signals flow _
  · exact Lib.Chain.refl _

theorem applyExitFills_req (fills : List TradeFill) :
    (applyExitFills setup.cfg desk st bar fills).1.req = desk.req := by
  unfold applyExitFills
  split
  · rfl
  split
  · simp only
    split
    · rfl
    · rfl
  · rfl

theorem applyWsFills_requests (signals : List ShockSignal) (matchesEntry matchesExit : Bool)
    (fills : List TradeFill) :
    QuietSteps setup env desk.req
      (applyWsFills setup env signals desk st pairKey matchesEntry matchesExit fills).1.req := by
  unfold applyWsFills
  split
  · exact Lib.Chain.refl _
  split
  · exact Lib.Chain.refl _
  have hreset : QuietSteps setup env desk.req
      { desk.req with fillPollBackoffMs := 0, fillPollBackoffUntilMs := none } :=
    .single .filled rfl rfl
  -- Fills that arrive end the wait of the fill polls, and are applied like polled ones.
  apply hreset.trans
  simp only
  cases matchesEntry with
  | true =>
    split
    · rw [applyExitFills_req]
      exact applyEntryFillsAndCheck_requests
        { desk with
          req := { desk.req with fillPollBackoffMs := 0, fillPollBackoffUntilMs := none } }
        _ _ pairKey signals _ fills
    · exact applyEntryFillsAndCheck_requests
        { desk with
          req := { desk.req with fillPollBackoffMs := 0, fillPollBackoffUntilMs := none } }
        _ _ pairKey signals _ fills
  | false =>
    split
    · rw [applyExitFills_req]
      exact Lib.Chain.refl _
    · exact Lib.Chain.refl _

/-! ## The engine -/

variable (eng : TradeEngine)

theorem onKnown_requests {key : PairKey} {f : PairTradeState → Desk × PairTradeState}
    (h : ∀ st, QuietSteps setup env eng.desk.req (f st).1.req) :
    QuietSteps setup env eng.desk.req (eng.onKnown key f).desk.req := by
  unfold TradeEngine.onKnown
  split
  · exact h _
  · exact Lib.Chain.refl _

theorem flushLoop_requests (second : ℤ) (entries : List PendingEntry) :
    QuietSteps setup env eng.desk.req
      (TradeEngine.flushLoop setup env second entries eng).desk.req := by
  induction entries generalizing eng with
  | nil => exact Lib.Chain.refl _
  | cons entry rest ih =>
    unfold TradeEngine.flushLoop
    simp only
    generalize (if setup.cfg.balanceTotalUsd > 0 then
      eng.desk.books.risk.entryPoolAvailable setup.cfg second
      else (eng.desk.books.risk, 0)) = pool
    split
    · exact Lib.Chain.refl _
    · split
      · generalize hnext : TradeEngine.putBack _ _ _ = next
        have hstep : QuietSteps setup env eng.desk.req next.desk.req := by
          rw [← hnext]
          exact maybeEnter_requests
            { eng.desk with books := { eng.desk.books with risk := pool.1 } } _ entry _
        exact hstep.trans (ih next)
      · -- The pair is not idle: its entry is dropped.
        generalize hnext : TradeEngine.putBack _ _ _ = next
        have hstep : QuietSteps setup env eng.desk.req next.desk.req := by
          rw [← hnext]
          exact Lib.Chain.refl _
        exact hstep.trans (ih next)

theorem flushPendingEntries_requests (second : ℤ) :
    QuietSteps setup env eng.desk.req
      (TradeEngine.flushPendingEntries setup env eng second).desk.req := by
  unfold TradeEngine.flushPendingEntries
  split
  · exact Lib.Chain.refl _
  split
  · exact Lib.Chain.refl _
  simp only
  split
  · exact Lib.Chain.refl _
  · generalize hstart : (if setup.cfg.balanceTotalUsd > 0 then _ else _ : TradeEngine) = start
    have hreq : start.desk.req = eng.desk.req := by
      rw [← hstart]
      split
      · rfl
      · rfl
    rw [← hreq]
    exact flushLoop_requests start _ _

theorem handleBar_requests (signal : Option EntrySignal) :
    QuietSteps setup env eng.desk.req (TradeEngine.handleBar setup env eng bar signal).desk.req := by
  have hflush : QuietSteps setup env eng.desk.req
      (TradeEngine.flushPendingEntries setup env eng bar.barSecond).desk.req :=
    flushPendingEntries_requests eng bar.barSecond
  -- First the entries of the second before, then the bar itself.
  apply hflush.trans
  unfold TradeEngine.handleBar
  simp only
  generalize TradeEngine.flushPendingEntries setup env eng bar.barSecond = flushed
  split
  · exact Lib.Chain.refl _
  · rename_i pmMid basePm _
    generalize hcheck : TradeEngine.barCheck setup env _ _ _ _ _ _ _ = checked
    have hbar : QuietSteps setup env flushed.desk.req checked.1.req := by
      rw [← hcheck]
      unfold TradeEngine.barCheck
      split
      · exact Lib.Chain.refl _
      · exact checkEntry_requests flushed.desk _ bar _ _ _
      · exact checkEntry_requests flushed.desk _ bar _ _ _
      · exact checkEntry_requests flushed.desk _ bar _ _ _
      · exact checkExit_requests flushed.desk _ bar _ _ _ _
      · exact checkExit_requests flushed.desk _ bar _ _ _ _
      · exact Lib.Chain.refl _
    have hqueue : ∀ (eng : TradeEngine) (entry : PendingEntry),
        (eng.queueEntry entry).desk.req = eng.desk.req := by
      intro eng entry
      unfold TradeEngine.queueEntry
      simp only
      split
      · split
        · rfl
        · rfl
      · split
        · split
          · rfl
          · rfl
        · split
          · rfl
          · rfl
    split
    · rw [hqueue]
      exact hbar
    · exact hbar

theorem cancelCheckTick_requests (order : List PairKey) :
    QuietSteps setup env eng.desk.req (TradeEngine.cancelCheckTick setup env eng order).desk.req := by
  unfold TradeEngine.cancelCheckTick
  induction order generalizing eng with
  | nil => exact Lib.Chain.refl _
  | cons key rest ih =>
    -- The pairs share the limiter, so the calls of one follow those of the one before.
    rw [List.foldl_cons]
    apply Lib.Chain.trans ?_ (ih _)
    apply onKnown_requests
    intro st
    split
    · exact Lib.Chain.refl _
    split
    · exact checkEntry_requests eng.desk st _ key _ _
    · simp only
      split
      · exact checkExit_requests eng.desk st _ key _ _ _
      · exact Lib.Chain.refl _
    · exact Lib.Chain.refl _

theorem handleEntryPlaceResult_requests (reqId : ℕ) (result : PlaceResult) :
    QuietSteps setup env eng.desk.req
      (TradeEngine.handleEntryPlaceResult setup env eng pairKey reqId result).desk.req := by
  apply onKnown_requests
  intro st
  split
  · exact Lib.Chain.refl _
  simp only
  split
  · exact Lib.Chain.refl _
  · unfold TradeEngine.applyPlaceResult
    simp only
    split
    · exact Lib.Chain.refl _
    · exact Lib.Chain.refl _

theorem handleFillResponse_requests (reqId : ℕ) (kind : FillKind) (result : FillPollResult) :
    QuietSteps setup env eng.desk.req
      (TradeEngine.handleFillResponse setup env eng pairKey reqId kind result).desk.req := by
  apply onKnown_requests
  intro st
  split
  · exact Lib.Chain.refl _
  have hbackoff : QuietSteps setup env eng.desk.req (eng.desk.req.updateFillPollBackoff setup env
      result.rateLimited result.error.isNone) :=
    .single (.polled result.rateLimited result.error.isNone) rfl rfl
  apply hbackoff.trans
  simp only
  split
  · exact Lib.Chain.refl _
  split
  · exact Lib.Chain.refl _
  split
  · exact applyEntryFillsAndCheck_requests
      { eng.desk with
        req := eng.desk.req.updateFillPollBackoff setup env result.rateLimited
          result.error.isNone } _ _ pairKey _ _ _
  · rw [applyExitFills_req]
    exact Lib.Chain.refl _

theorem entryCancelled_req :
    (TradeEngine.entryCancelled setup desk st pairKey).1.req = desk.req := by
  unfold TradeEngine.entryCancelled
  split
  · rfl
  · rfl

theorem TradeEngine.cancelOwner_known {key : PairKey} {reqId : ℕ}
    (howner : eng.cancelOwner reqId = some key) :
    eng.states.lookup key = some (eng.stateOf key) := by
  unfold TradeEngine.cancelOwner at howner
  simp only [Option.map_eq_some_iff] at howner
  obtain ⟨e, hfind, rfl⟩ := howner
  have hlookup : eng.states.lookup e.1 = some e.2 :=
    AList.mem_lookup_iff.mpr (List.mem_of_find?_eq_some hfind)
  rw [hlookup, eng.stateOf_of_lookup hlookup]

/-- A cancel response is checked and noted; the pair's reaction changes nothing more. -/
theorem TradeEngine.handleCancelResponse_req {key : PairKey} {reqId : ℕ}
    (howner : eng.cancelOwner reqId = some key) (orderId : String) (result : CancelResult) :
    (TradeEngine.handleCancelResponse setup env eng reqId orderId result).desk.req =
      TradeEngine.noteCancel setup env
        (TradeEngine.verifyCancel setup env eng key orderId result).1 key orderId result
        (result.ok || (TradeEngine.verifyCancel setup env eng key orderId result).2) := by
  unfold TradeEngine.handleCancelResponse TradeEngine.onKnown
  rw [howner]
  simp only [eng.cancelOwner_known howner]
  split
  · split
    · exact entryCancelled_req _ _ _
    · rfl
  · split
    · rfl
    · rfl

theorem noteUserMessage_requests :
    QuietSteps setup env eng.desk.req (TradeEngine.noteUserMessage env eng).desk.req :=
  .single .heard rfl rfl

theorem handleOpinionOrderUpdate_requests (update : OpinionUserOrderUpdate) :
    QuietSteps setup env eng.desk.req
      (TradeEngine.handleOpinionOrderUpdate setup env eng update).desk.req := by
  apply (noteUserMessage_requests eng).trans
  apply onKnown_requests
  intro st
  simp only
  split
  · unfold TradeEngine.applyOrderUpdate
    split
    · have hclear : QuietSteps setup env (TradeEngine.noteUserMessage env eng).desk.req
          ((TradeEngine.noteUserMessage env eng).desk.req.clearCancelRetry update.orderId) :=
        .single (.cancelled update.orderId) rfl rfl
      apply hclear.trans
      simp only
      split
      · rw [entryCancelled_req]
        exact Lib.Chain.refl _
      · exact Lib.Chain.refl _
    split
    · exact applyWsFills_requests _ st _ _ _ _ _
    split
    · exact maybeEnqueueFillPoll_requests st _ _
    · exact Lib.Chain.refl _
  · exact Lib.Chain.refl _

theorem handleOpinionTradeRecord_requests (record : OpinionUserTradeRecord) :
    QuietSteps setup env eng.desk.req
      (TradeEngine.handleOpinionTradeRecord setup env eng record).desk.req := by
  apply (noteUserMessage_requests eng).trans
  apply onKnown_requests
  intro st
  simp only
  split
  · exact applyWsFills_requests _ st _ _ _ _ _
  · exact Lib.Chain.refl _

/-- A message that is no response to a cancel of some pair. -/
theorem TradeEngine.handle_requests {message : TradeMessage}
    (h : ∀ reqId orderId result,
      message = .orderResponse (.cancelOrder reqId orderId result) →
        eng.cancelOwner reqId = none) :
    QuietSteps setup env eng.desk.req (TradeEngine.handle setup env eng message).desk.req := by
  cases message with
  | pairBar bar signal => exact handleBar_requests bar eng signal
  | shock pairKey signal => exact Lib.Chain.refl _
  | cancelCheckTick order => exact cancelCheckTick_requests eng order
  | orderUpdate update => exact handleOpinionOrderUpdate_requests eng update
  | tradeRecord record => exact handleOpinionTradeRecord_requests eng record
  | orderResponse response =>
    cases response with
    | placeChase id pairKey result => exact handleEntryPlaceResult_requests pairKey eng id result
    | cancelOrder id orderId result =>
      simp only [TradeEngine.handle, TradeEngine.handleOrderResponse,
        TradeEngine.handleCancelResponse, h id orderId result rfl]
      exact Lib.Chain.refl _
    | fetchFills id pairKey kind result =>
      exact handleFillResponse_requests pairKey eng id kind result

/-- Every message changes the requests by these functions. -/
theorem TradeEngine.handle_requestSteps (message : TradeMessage) :
    RequestSteps setup env (fun _ => True) eng.desk.req
      (TradeEngine.handle setup env eng message).desk.req := by
  by_cases hquiet : ∀ reqId orderId result,
      message = .orderResponse (.cancelOrder reqId orderId result) → eng.cancelOwner reqId = none
  · exact (eng.handle_requests hquiet).mono fun _ _ _ => trivial
  · push Not at hquiet
    obtain ⟨reqId, orderId, result, rfl, howner⟩ := hquiet
    obtain ⟨key, howner⟩ := Option.ne_none_iff_exists'.mp howner
    have hreq := @TradeEngine.handleCancelResponse_req setup env eng key reqId howner orderId result
    simp only [TradeEngine.handle, TradeEngine.handleOrderResponse]
    rw [hreq]
    refine Lib.Chain.trans ?_ (RequestSteps.single (.note key orderId result _) trivial rfl)
    unfold TradeEngine.verifyCancel
    split
    · exact RequestSteps.single (.verify key orderId) trivial rfl
    · exact Lib.Chain.refl _

end

end AlphaMonitor.Trade
