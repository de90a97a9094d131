import AlphaMonitor.Trade.CancelLimiter
import AlphaMonitor.Trade.CancelTargets
import AlphaMonitor.Trade.RequestSteps
import Mathlib.Data.List.Count

/-!
# What the rate limiter charges for

A cancel takes its token from the rate limiter before the order's id, the time of its next
retry, the deduplication and the executor are looked at.  An attempt that ends at one of
these has paid for nothing, and the pairs share the limiter.

## Main definitions

- `CancelCall`: a call of the source that may queue a cancel
- `CancelCall.Granted`, `CancelCall.CanSend`: what it asks of the limiter, and of the rest
- `CancelRun`: what a handler does to the limiter and to the queued cancels
- `ChargesSent`: the tokens that are taken are those of the cancels that are queued

## Main results

- `CancelCall.charged_iff`: one call
- `handle_calls`: the engine changes limiter and queued cancels by such calls only
- `charges_sent_iff`: runs of the engine
-/

namespace AlphaMonitor.Trade

/-! ## Calls -/

def OrderRequestKind.isCancel : OrderRequestKind → Bool
  | .cancelOrder _ => true
  | _ => false

namespace Requests

/-- The tokens that the limiter would find at this time. -/
def tokensAt (req : Requests) (now : ℤ) : ℚ := (req.cancelRateLimiter.refill now).tokens

/-- The cancels among the queued requests. -/
def queuedCancels (req : Requests) : List OrderRequest :=
  req.orderExec.filter fun r => r.kind.isCancel

end Requests

/-- A call of `maybe_enqueue_entry_cancel` or `maybe_enqueue_exit_cancel`, with the requests and
the pair's state that it finds. -/
structure CancelCall where
  req : Requests
  st : PairTradeState
  isExit : Bool

namespace CancelCall

variable (env : Env) (call : CancelCall)

def orderId : Option String :=
  if call.isExit then call.st.exitOrderId else call.st.entryOrderId

def pending : Bool := if call.isExit then call.st.exitCancelPending else call.st.entryCancelPending

def reqId : Option ℕ := if call.isExit then call.st.exitCancelReqId else call.st.entryCancelReqId

/-- The requests after the call. -/
def after : Requests :=
  if call.isExit then (call.req.maybeEnqueueExitCancel env call.st).1
  else (call.req.maybeEnqueueEntryCancel env call.st).1

/-- The call gets as far as the limiter. -/
def Asks : Prop :=
  call.pending = true ∧ call.reqId = none ∧ call.req.cancelBackoffActive env = false

/-- The call asks the limiter for a token and gets one. -/
def Granted : Prop :=
  call.Asks env ∧ (call.req.cancelRateLimiter.allow env.now call.isExit).2 = true

/-- The rest of the way to the executor is free. -/
def CanSend : Prop :=
  ∃ orderId ∈ call.orderId, call.req.cancelRetryAllowed env orderId = true ∧
    (call.req.evictCancelDedup env.now).cancelledRecently env orderId = false ∧
    env.execOpen = true

instance : Decidable (call.Asks env) := inferInstanceAs (Decidable (_ ∧ _))

instance : Decidable (call.Granted env) := inferInstanceAs (Decidable (_ ∧ _))

instance : Decidable (call.CanSend env) := inferInstanceAs (Decidable (∃ _ ∈ call.orderId, _))

theorem after_eq :
    call.after env = (call.req.maybeEnqueueCancel env call.isExit call.pending call.reqId
      call.orderId).1 := by
  unfold after pending reqId orderId Requests.maybeEnqueueExitCancel
    Requests.maybeEnqueueEntryCancel
  cases call.isExit with
  | true => rfl
  | false => rfl

end CancelCall

/-- The tokens taken between two states of the requests are those of the cancels queued. -/
def ChargesSent (now : ℤ) (req req' : Requests) : Prop :=
  req.tokensAt now - req'.tokensAt now =
    (req'.queuedCancels.length : ℚ) - (req.queuedCancels.length : ℚ)

/-! ## One call -/

namespace CancelRateLimiter

variable (lim : CancelRateLimiter) (now : ℤ)

theorem refill_elapsed : now - (lim.refill now).lastRefillMs ≤ 0 := by
  unfold refill
  split
  · rename_i hlate
    exact hlate
  · exact le_of_eq (sub_self now)

/-- The limiter is refilled once at one time. -/
theorem refill_allow (isExit : Bool) :
    ((lim.allow now isExit).1.refill now).tokens =
      (lim.refill now).tokens - (if (lim.allow now isExit).2 then 1 else 0) := by
  have helapsed := lim.refill_elapsed now
  have hstays : ∀ tokens, (⟨tokens, (lim.refill now).lastRefillMs⟩ : CancelRateLimiter).refill now =
      ⟨tokens, (lim.refill now).lastRefillMs⟩ := fun tokens => if_pos helapsed
  have hsame : (lim.refill now).refill now = lim.refill now := if_pos helapsed
  -- An entry cancel has to leave a token, an exit cancel does not; both take one.
  cases isExit with
  | true =>
    simp only [allow, if_true]
    split
    · rw [hstays]
      rfl
    · simp [hsame]
  | false =>
    simp only [allow, Bool.false_eq_true, if_false]
    split
    · rw [hstays]
      rfl
    · simp [hsame]

end CancelRateLimiter

section

variable {env : Env} {req : Requests}

theorem enqueueCancelOrder_limiter (orderId : String) :
    (req.enqueueCancelOrder env orderId).1.cancelRateLimiter = req.cancelRateLimiter := by
  unfold Requests.enqueueCancelOrder
  simp only
  split
  · rfl
  · unfold Requests.enqueueOrderRequest
    cases env.execOpen with
    | true => rfl
    | false => rfl

/-- A cancel is queued where it is not suppressed and the executor is there. -/
theorem enqueueCancelOrder_queued (orderId : String) :
    (req.enqueueCancelOrder env orderId).1.queuedCancels.length = req.queuedCancels.length +
      (if (req.evictCancelDedup env.now).cancelledRecently env orderId = false ∧
        env.execOpen = true then 1 else 0) := by
  unfold Requests.enqueueCancelOrder
  simp only
  split
  · rename_i hrecent
    rw [hrecent, if_neg (by simp)]
    rfl
  · -- The mark of the cancel is taken back where the executor is gone.
    rename_i hfresh
    rw [Bool.not_eq_true] at hfresh
    simp only [hfresh, true_and]
    unfold Requests.enqueueOrderRequest
    cases env.execOpen with
    | true =>
      have hqueued : ∀ id, ((req.evictCancelDedup env.now).orderExec ++
          [(⟨id, .cancelOrder orderId⟩ : OrderRequest)]).filter (fun r => r.kind.isCancel) =
          req.queuedCancels ++ [⟨id, .cancelOrder orderId⟩] := fun id => List.filter_append _ _
      simp [Requests.queuedCancels, hqueued]
    | false => rfl

end

namespace CancelCall

variable {env : Env} (call : CancelCall)

/-- The requests once the limiter has been asked. -/
def paid (env : Env) : Requests :=
  { call.req with
    cancelRateLimiter := (call.req.cancelRateLimiter.allow env.now call.isExit).1 }

/-- What follows once the token is paid. -/
def proceed (env : Env) : Requests :=
  match call.orderId with
  | none => call.paid env
  | some orderId =>
    if call.req.cancelRetryAllowed env orderId then
      ((call.paid env).enqueueCancelOrder env orderId).1
    else call.paid env

theorem after_of_not_asks (h : ¬call.Asks env) : call.after env = call.req := by
  have hblocked : call.pending = false ∨ call.reqId.isSome = true ∨
      call.req.cancelBackoffActive env = true := by
    by_contra hfree
    apply h
    unfold Asks
    simpa only [not_or, Bool.not_eq_false, Bool.not_eq_true, Option.isSome_eq_false_iff,
      Option.isNone_iff_eq_none] using hfree
  rw [after_eq, Requests.maybeEnqueueCancel, if_pos hblocked]

theorem after_of_asks (h : call.Asks env) :
    call.after env =
      if (call.req.cancelRateLimiter.allow env.now call.isExit).2 = true then call.proceed env
      else call.paid env := by
  obtain ⟨hpending, hreqId, hactive⟩ := h
  have hfree : ¬(call.pending = false ∨ call.reqId.isSome = true ∨
      call.req.cancelBackoffActive env = true) := by
    simp [hpending, hreqId, hactive]
  rw [after_eq, Requests.maybeEnqueueCancel, if_neg hfree]
  unfold proceed
  -- The source tests the id and the retry in one match after the limiter.
  cases hallowed : (call.req.cancelRateLimiter.allow env.now call.isExit).2 with
  | false => simp [hallowed, paid]
  | true =>
    cases call.orderId with
    | none => simp [hallowed, paid]
    | some orderId =>
      simp only [hallowed, Bool.true_eq_false, if_false, if_true]
      split
      · rename_i hretry
        have hretry : call.req.cancelRetryAllowed env orderId = true := hretry
        rw [if_pos hretry]
        rfl
      · rename_i hwaits
        have hwaits : ¬call.req.cancelRetryAllowed env orderId = true := hwaits
        rw [if_neg hwaits]
        rfl

/-- Whatever ends the attempt once the token is paid leaves the limiter alone. -/
theorem proceed_limiter :
    (call.proceed env).cancelRateLimiter = (call.paid env).cancelRateLimiter := by
  unfold proceed
  cases call.orderId with
  | none => rfl
  | some orderId =>
    simp only
    split
    · exact enqueueCancelOrder_limiter orderId
    · rfl

theorem proceed_queued :
    (call.proceed env).queuedCancels.length = call.req.queuedCancels.length +
      if call.CanSend env then 1 else 0 := by
  unfold proceed
  cases horder : call.orderId with
  | none =>
    -- The token is paid, and there is no order to cancel.
    have hnot : ¬call.CanSend env := by
      rintro ⟨orderId, hmem, -⟩
      rw [horder] at hmem
      cases hmem
    rw [if_neg hnot]
    rfl
  | some orderId =>
    have hsend : call.CanSend env ↔ call.req.cancelRetryAllowed env orderId = true ∧
        (call.req.evictCancelDedup env.now).cancelledRecently env orderId = false ∧
        env.execOpen = true := by
      unfold CanSend
      rw [horder]
      simp
    simp only [hsend]
    split
    · rename_i hretry
      rw [enqueueCancelOrder_queued]
      simp only [hretry, true_and]
      rfl
    · -- The token is paid, and the order still has to wait.
      rename_i hwaits
      rw [if_neg fun hsend => hwaits hsend.1]
      rfl

/-- A call changes the tokens just in case it is granted one. -/
theorem tokens_after :
    call.req.tokensAt env.now - (call.after env).tokensAt env.now =
      if call.Granted env then 1 else 0 := by
  have hrefill := call.req.cancelRateLimiter.refill_allow env.now call.isExit
  by_cases hasks : call.Asks env
  · -- Granted or not, what follows leaves the limiter as `allow` did.
    rw [call.after_of_asks hasks]
    by_cases hallowed : (call.req.cancelRateLimiter.allow env.now call.isExit).2 = true
    · rw [if_pos hallowed] at hrefill
      rw [if_pos hallowed, if_pos ⟨hasks, hallowed⟩, Requests.tokensAt, Requests.tokensAt,
        proceed_limiter, paid, hrefill, sub_sub_cancel]
    · rw [if_neg hallowed, sub_zero] at hrefill
      rw [if_neg hallowed, if_neg fun hgranted => hallowed hgranted.2, Requests.tokensAt,
        Requests.tokensAt, paid, hrefill, sub_self]
  · rw [call.after_of_not_asks hasks, if_neg fun hgranted => hasks hgranted.1, sub_self]

/-- A call queues a cancel just in case it is granted a token and can send. -/
theorem queued_after :
    (call.after env).queuedCancels.length = call.req.queuedCancels.length +
      if call.Granted env ∧ call.CanSend env then 1 else 0 := by
  by_cases hasks : call.Asks env
  · rw [call.after_of_asks hasks]
    by_cases hallowed : (call.req.cancelRateLimiter.allow env.now call.isExit).2 = true
    · have hgranted : call.Granted env := ⟨hasks, hallowed⟩
      rw [if_pos hallowed, proceed_queued]
      simp only [hgranted, true_and]
    · rw [if_neg hallowed, if_neg fun h => hallowed h.1.2]
      rfl
  · rw [call.after_of_not_asks hasks, if_neg fun h => hasks h.1.1, Nat.add_zero]

/-- A call is charged for what it sends just in case a call that is granted a token can send. -/
theorem charged_iff :
    ChargesSent env.now call.req (call.after env) ↔ (call.Granted env → call.CanSend env) := by
  unfold ChargesSent
  rw [tokens_after, queued_after]
  by_cases hgranted : call.Granted env
  · by_cases hsend : call.CanSend env
    · simp [hgranted, hsend]
    · -- A token is taken, and no cancel is queued.
      simp [hgranted, hsend]
  · simp [hgranted]

end CancelCall

/-! ## What the handlers do -/

/-- Neither the limiter nor the queued cancels have changed. -/
def Uncharged (req req' : Requests) : Prop :=
  req'.cancelRateLimiter = req.cancelRateLimiter ∧ req'.queuedCancels = req.queuedCancels

/-- Limiter and queued cancels have changed by these calls, one after another. -/
inductive CancelRun (env : Env) : Requests → List CancelCall → Requests → Prop
  | uncharged {req req' : Requests} (h : Uncharged req req') : CancelRun env req [] req'
  | call (call : CancelCall) : CancelRun env call.req [call] (call.after env)
  | trans {req₁ req₂ req₃ : Requests} {calls calls' : List CancelCall}
      (h : CancelRun env req₁ calls req₂) (h' : CancelRun env req₂ calls' req₃) :
      CancelRun env req₁ (calls ++ calls') req₃

/-- Limiter and queued cancels have changed by calls only. -/
def ByCalls (env : Env) (req req' : Requests) : Prop := ∃ calls, CancelRun env req calls req'

section

variable {setup : Setup} {env : Env} {req req' : Requests}

theorem Uncharged.refl (req : Requests) : Uncharged req req := ⟨rfl, rfl⟩

theorem Uncharged.byCalls (h : Uncharged req req') : ByCalls env req req' := ⟨[], .uncharged h⟩

theorem ByCalls.refl (req : Requests) : ByCalls env req req := (Uncharged.refl req).byCalls

theorem ByCalls.trans {req₁ req₂ req₃ : Requests} (h : ByCalls env req₁ req₂)
    (h' : ByCalls env req₂ req₃) : ByCalls env req₁ req₃ := by
  obtain ⟨calls, hrun⟩ := h
  obtain ⟨calls', hrun'⟩ := h'
  exact ⟨calls ++ calls', hrun.trans hrun'⟩

theorem maybeEnqueueEntryCancel_byCalls (st : PairTradeState) :
    ByCalls env req (req.maybeEnqueueEntryCancel env st).1 :=
  ⟨_, .call ⟨req, st, false⟩⟩

theorem maybeEnqueueExitCancel_byCalls (st : PairTradeState) :
    ByCalls env req (req.maybeEnqueueExitCancel env st).1 :=
  ⟨_, .call ⟨req, st, true⟩⟩

/-! ### The requests -/

theorem enqueueOrderRequest_uncharged {kind : OrderRequestKind} (h : kind.isCancel = false) :
    Uncharged req (req.enqueueOrderRequest env kind).1 := by
  unfold Requests.enqueueOrderRequest
  simp only
  split
  · exact ⟨rfl, by simp [Requests.queuedCancels, h]⟩
  · exact ⟨rfl, rfl⟩

theorem enqueuePlaceChase_uncharged (pairKey : PairKey) (side : OrderSide) (qty : ℚ)
    (candidatePrices : List ℚ) (clientTag : String) :
    Uncharged req (req.enqueuePlaceChase setup env pairKey side qty candidatePrices clientTag).1 := by
  unfold Requests.enqueuePlaceChase
  split
  · exact Uncharged.refl req
  · exact enqueueOrderRequest_uncharged rfl

theorem maybeEnqueueFillPoll_uncharged (st : PairTradeState) (pairKey : PairKey) (kind : FillKind) :
    Uncharged req (req.maybeEnqueueFillPoll setup env st pairKey kind).1 := by
  unfold Requests.maybeEnqueueFillPoll
  split
  · exact Uncharged.refl req
  · split
    · exact Uncharged.refl req
    · exact enqueueOrderRequest_uncharged rfl

theorem updateFillPollBackoff_uncharged (rateLimited success : Bool) :
    Uncharged req (req.updateFillPollBackoff setup env rateLimited success) := by
  unfold Requests.updateFillPollBackoff
  split
  · exact ⟨rfl, rfl⟩
  · split
    · exact ⟨rfl, rfl⟩
    · exact ⟨rfl, rfl⟩

theorem noteCancel_uncharged (pairKey : PairKey) (orderId : String) (result : CancelResult)
    (cancelOk : Bool) :
    Uncharged req (TradeEngine.noteCancel setup env req pairKey orderId result cancelOk) := by
  have hbackoff : Uncharged req (req.updateCancelBackoff setup env result) := by
    unfold Requests.updateCancelBackoff
    split
    · split
      · exact ⟨rfl, rfl⟩
      · exact ⟨rfl, rfl⟩
    · exact ⟨rfl, rfl⟩
  unfold TradeEngine.noteCancel
  simp only
  split
  · split
    · exact hbackoff
    · exact hbackoff
  · exact hbackoff

theorem isOrderOpenForCancel_uncharged (pairKey : PairKey) (orderId : String) :
    Uncharged req (req.isOrderOpenForCancel setup env pairKey orderId).1 := by
  unfold Requests.isOrderOpenForCancel
  split
  · split
    · exact Uncharged.refl req
    · split
      · exact Uncharged.refl req
      · exact ⟨rfl, rfl⟩
  · exact Uncharged.refl req

/-! ### The engine -/

/-- Every function of the requests is a call, or leaves limiter and queued cancels alone. -/
theorem RequestAct.apply_byCalls (act : RequestAct) : ByCalls env req (act.apply setup env req) := by
  cases act with
  | cancel st isExit =>
    cases isExit with
    | true => exact maybeEnqueueExitCancel_byCalls st
    | false => exact maybeEnqueueEntryCancel_byCalls st
  | place key side qty candidatePrices clientTag =>
    exact (enqueuePlaceChase_uncharged key side qty candidatePrices clientTag).byCalls
  | poll st key kind => exact (maybeEnqueueFillPoll_uncharged st key kind).byCalls
  | polled rateLimited success => exact (updateFillPollBackoff_uncharged rateLimited success).byCalls
  | filled => exact Uncharged.byCalls ⟨rfl, rfl⟩
  | heard => exact Uncharged.byCalls ⟨rfl, rfl⟩
  | cancelled orderId => exact Uncharged.byCalls ⟨rfl, rfl⟩
  | verify key orderId => exact (isOrderOpenForCancel_uncharged key orderId).byCalls
  | note key orderId result cancelOk =>
    exact (noteCancel_uncharged key orderId result cancelOk).byCalls

/-- The engine changes the limiter and the queued cancels by calls only. -/
theorem handle_calls (eng : TradeEngine) (message : TradeMessage) :
    ∃ calls, CancelRun env eng.desk.req calls
      (TradeEngine.handle setup env eng message).desk.req := by
  apply Lib.Chain.inv (ByCalls env eng.desk.req) _ (eng.handle_requestSteps message)
    (ByCalls.refl _)
  rintro req act req' hcalls - rfl
  exact hcalls.trans (RequestAct.apply_byCalls act)

end

/-! ## Runs of the engine -/

/-- Every element with the one property has the other, too, just in case as many have both. -/
theorem countP_eq_iff {α : Type*} {xs : List α} {p q : α → Prop} [DecidablePred p]
    [DecidablePred q] :
    xs.countP (fun x => decide (p x)) = xs.countP (fun x => decide (p x ∧ q x)) ↔
      ∀ x ∈ xs, p x → q x := by
  induction xs with
  | nil => simp
  | cons x rest ih =>
    -- Without the bound the two counts of the rest could make up for the head.
    have hle : rest.countP (fun x => decide (p x ∧ q x)) ≤ rest.countP (fun x => decide (p x)) := by
      apply List.countP_mono_left
      intro x _ hboth
      exact decide_eq_true (of_decide_eq_true hboth).1
    rw [List.forall_mem_cons, ← ih, List.countP_cons, List.countP_cons]
    by_cases hp : p x
    · by_cases hq : q x
      · simp [hp, hq]
      · simp only [hp, hq, decide_true, if_true, and_false, decide_false, Bool.false_eq_true,
          if_false, Nat.add_zero, forall_const, false_and, iff_false]
        omega
    · simp [hp]

variable {setup : Setup} {env : Env}

/-- The calls of a run take one token for each grant, and queue a cancel for each that can send. -/
theorem CancelRun.balance {req req' : Requests} {calls : List CancelCall}
    (h : CancelRun env req calls req') :
    req.tokensAt env.now - req'.tokensAt env.now =
        (calls.countP fun call => decide (call.Granted env) : ℕ) ∧
      req'.queuedCancels.length = req.queuedCancels.length +
        calls.countP fun call => decide (call.Granted env ∧ call.CanSend env) := by
  induction h with
  | uncharged hsame =>
    unfold Requests.tokensAt
    rw [hsame.1, hsame.2]
    exact ⟨by simp, rfl⟩
  | call call =>
    rw [call.tokens_after, call.queued_after]
    simp only [List.countP_singleton, decide_eq_true_eq]
    refine ⟨?_, trivial⟩
    split
    · rfl
    · rfl
  | trans _ _ ih ih' =>
    -- Both balances add up over the calls.
    obtain ⟨htokens, hqueued⟩ := ih
    obtain ⟨htokens', hqueued'⟩ := ih'
    rw [List.countP_append, List.countP_append, hqueued', hqueued]
    refine ⟨?_, by omega⟩
    push_cast
    rw [← htokens, ← htokens']
    ring

/-- The calls of a run are charged for what they send just in case every call that is granted a
token can send. -/
theorem CancelRun.chargesSent_iff {req req' : Requests} {calls : List CancelCall}
    (h : CancelRun env req calls req') :
    ChargesSent env.now req req' ↔ ∀ call ∈ calls, call.Granted env → call.CanSend env := by
  obtain ⟨htokens, hqueued⟩ := h.balance
  rw [← countP_eq_iff, ChargesSent, htokens, hqueued]
  push_cast
  rw [add_sub_cancel_left]
  exact Nat.cast_inj

/-- The message takes a token for every cancel that it queues, and no other. -/
def ChargesSentBy (setup : Setup) (eng : TradeEngine) (e : Env × TradeMessage) : Prop :=
  ChargesSent e.1.now eng.desk.req (TradeEngine.handle setup e.1 eng e.2).desk.req

/-- The calls that the message makes are free to send whenever they are granted a token. -/
def GrantsCanSend (setup : Setup) (eng : TradeEngine) (e : Env × TradeMessage) : Prop :=
  ∃ calls, CancelRun e.1 eng.desk.req calls (TradeEngine.handle setup e.1 eng e.2).desk.req ∧
    ∀ call ∈ calls, call.Granted e.1 → call.CanSend e.1

theorem chargesSentBy_iff (eng : TradeEngine) (e : Env × TradeMessage) :
    ChargesSentBy setup eng e ↔ GrantsCanSend setup eng e := by
  constructor
  · intro hcharges
    obtain ⟨calls, hrun⟩ := @handle_calls setup e.1 eng e.2
    exact ⟨calls, hrun, hrun.chargesSent_iff.mp hcharges⟩
  · rintro ⟨calls, hrun, hsend⟩
    exact hrun.chargesSent_iff.mpr hsend

/-- A single attempt, and any run of the engine from any state, takes tokens for the cancels it
queues and for nothing else just in case no attempt is granted a token whose order is unknown, has
to wait for its retry, was cancelled within the window or finds the executor gone. -/
theorem charges_sent_iff (setup : Setup) :
    (∀ (env : Env) (call : CancelCall),
      ChargesSent env.now call.req (call.after env) ↔ (call.Granted env → call.CanSend env)) ∧
    ∀ (eng : TradeEngine) (messages : List (Env × TradeMessage)),
      (engineMachine setup).RunMeets (ChargesSentBy setup) eng messages ↔
        (engineMachine setup).RunMeets (GrantsCanSend setup) eng messages := by
  refine ⟨fun env call => call.charged_iff, fun eng messages => ?_⟩
  apply (engineMachine setup).runMeets_congr (fun _ => True)
  · exact fun _ _ _ _ _ _ => trivial
  · exact fun eng e _ _ _ => chargesSentBy_iff eng e
  · trivial
  · exact run_engineMachine eng messages

/-- The cancel of an entry without an id takes a token, and nothing is queued for it. -/
theorem unnamed_cancel_charged :
    ¬(engineMachine ttlSetup).RunMeets (ChargesSentBy ttlSetup) (TradeEngine.start 0)
      unnamedRun := by
  intro hall
  have hsplit : unnamedRun =
      unnamedRun.take 3 ++ (sampleEnv 2000 "x", .pairBar (sampleBar 2) none) :: [] := rfl
  rw [hsplit] at hall
  -- The bar is the last message; the three before it made the entry work without an id.
  have hlast := hall.at_step (engineMachine ttlSetup)
    (run_engineMachine (TradeEngine.start 0) (unnamedRun.take 3))
  revert hlast
  unfold ChargesSentBy ChargesSent
  decide +kernel

end AlphaMonitor.Trade
