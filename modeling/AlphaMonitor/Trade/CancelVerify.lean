import AlphaMonitor.Trade.CancelTargets
import AlphaMonitor.Trade.OpenOrders

/-!
# Is a cancelled order gone?

`handle_cancel_response` takes a cancel for done if the call succeeded, or if after
an unclear failure a list of open orders does not name the order.  A list that
does not name an order does not say that the order was cancelled: it may have been
filled, or placed after the list was fetched.

## Main results

- `listsSound_of_run`: a complete list names the orders that were open when it was
  fetched, in every run over an exchange that lists its open orders
- `release_sound_iff`: when the entry that is released is really gone
-/

namespace AlphaMonitor.Trade

variable {setup : Setup} {env : Env} {key : PairKey}

/-! ## Orders on the exchange -/

/-- What becomes of an order on the exchange. -/
structure ExchangeOrder where
  marketId : ℤ
  placedMs : ℤ
  qty : ℚ
  /-- Time and size of each trade. -/
  trades : List (ℤ × ℚ)
  cancelledMs : Option ℤ
  qty_pos : 0 < qty

namespace ExchangeOrder

variable (order : ExchangeOrder)

/-- The size that was traded by `t`. -/
def tradedBy (t : ℤ) : ℚ := ((order.trades.filter fun trade => trade.1 ≤ t).map Prod.snd).sum

def UntradedBy (t : ℤ) : Prop := ∀ trade ∈ order.trades, t < trade.1

def CancelledBy (t : ℤ) : Prop := ∃ ms ∈ order.cancelledMs, ms ≤ t

/-- The order rests on the book at `t`. -/
structure OpenAt (t : ℤ) : Prop where
  placed : order.placedMs ≤ t
  uncancelled : ¬ order.CancelledBy t
  unfilled : order.tradedBy t < order.qty

variable {order} {t t' : ℤ}

theorem UntradedBy.mono (h : order.UntradedBy t') (hle : t ≤ t') : order.UntradedBy t :=
  fun trade htrade => lt_of_le_of_lt hle (h trade htrade)

theorem CancelledBy.mono (h : order.CancelledBy t) (hle : t ≤ t') : order.CancelledBy t' := by
  obtain ⟨ms, hms, hcancel⟩ := h
  exact ⟨ms, hms, le_trans hcancel hle⟩

theorem tradedBy_of_untradedBy (h : order.UntradedBy t) : order.tradedBy t = 0 := by
  have hnil : (order.trades.filter fun trade => trade.1 ≤ t) = [] := by
    apply List.filter_eq_nil_iff.mpr
    intro trade htrade
    simpa using h trade htrade
  unfold tradedBy
  rw [hnil]
  rfl

/-- A placed order that did not trade is open until it is cancelled. -/
theorem openAt_iff_of_untradedBy (h : order.UntradedBy t) (hplaced : order.placedMs ≤ t) :
    order.OpenAt t ↔ ¬ order.CancelledBy t := by
  constructor
  · exact fun hopen => hopen.uncancelled
  · intro hcancel
    refine ⟨hplaced, hcancel, ?_⟩
    rw [tradedBy_of_untradedBy h]
    exact order.qty_pos

end ExchangeOrder

/-- The orders of an exchange, by their ids. -/
abbrev Exchange := String → Option ExchangeOrder

/-- The listings are the open orders of the markets at this time. -/
def Exchange.Lists (exchange : Exchange) (env : Env) : Prop :=
  ∀ marketId listing, env.openOrders marketId = some listing → ∀ orderId, orderId ∈ listing ↔
    ∃ order, exchange orderId = some order ∧ order.marketId = marketId ∧ order.OpenAt env.now

/-! ## Complete lists -/

namespace Requests

/-- A listing that was read to its end is in the result. -/
theorem mem_fetchPages_of_complete {listing : List String} {orderId : String} :
    ∀ {acc : Finset String} {left page : ℕ}, (fetchPages listing acc left page).2 = true →
      0 < left → orderId ∈ acc ∨ orderId ∈ listing.drop (page * cancelVerifyPageLimit) →
        orderId ∈ (fetchPages listing acc left page).1
  | _, 0, _, _, hleft, _ => absurd hleft (lt_irrefl 0)
  | acc, left + 1, page, hcomplete, _, hmem => by
    unfold fetchPages at hcomplete ⊢
    simp only at hcomplete ⊢
    set rest := listing.drop (page * cancelVerifyPageLimit) with hrest
    split at hcomplete
    · rename_i hshort
      rw [if_pos hshort]
      -- a short page is the last one
      have hall : rest.take cancelVerifyPageLimit = rest := by
        apply List.take_of_length_le
        rw [List.length_take] at hshort
        omega
      rw [hall]
      simpa using hmem
    · rename_i hshort
      rw [if_neg hshort]
      split at hcomplete
      · cases hcomplete
      · rename_i hleft
        rw [if_neg hleft]
        refine mem_fetchPages_of_complete hcomplete (Nat.pos_of_ne_zero hleft) ?_
        rcases hmem with hacc | hlist
        · exact Or.inl (Finset.mem_union_left _ hacc)
        · rw [← List.take_append_drop cancelVerifyPageLimit rest, List.mem_append] at hlist
          rcases hlist with hpage | hlater
          · exact Or.inl (Finset.mem_union_right _ (List.mem_toFinset.mpr hpage))
          · right
            rw [hrest, List.drop_drop] at hlater
            rw [Nat.add_mul, Nat.one_mul]
            exact hlater

theorem mem_fetchOpenOrderIds {listing : List String} {orderId : String}
    (hcomplete : (fetchOpenOrderIds listing).2 = true) (hmem : orderId ∈ listing) :
    orderId ∈ (fetchOpenOrderIds listing).1 := by
  refine mem_fetchPages_of_complete hcomplete (by decide) (Or.inr ?_)
  simpa using hmem

end Requests

/-- The list names the orders that were open when it was fetched, but for those in
`settled`. -/
def OpenOrdersCache.Sound (cache : OpenOrdersCache) (exchange : Exchange) (marketId : ℤ)
    (settled : String → Prop) : Prop :=
  cache.complete = true → ∀ orderId order, exchange orderId = some order →
    order.marketId = marketId → order.OpenAt cache.fetchedMs →
      orderId ∈ cache.orderIds ∨ settled orderId

namespace OpenOrdersCache.Sound

variable {cache : OpenOrdersCache} {exchange : Exchange} {marketId : ℤ}
  {settled settled' : String → Prop}

theorem mono (h : cache.Sound exchange marketId settled)
    (hsettled : ∀ orderId, settled orderId → settled' orderId) :
    cache.Sound exchange marketId settled' := by
  intro hcomplete orderId order horder hmarket hopen
  exact (h hcomplete orderId order horder hmarket hopen).imp id (hsettled orderId)

/-- An order may be struck once it is settled. -/
theorem erase (h : cache.Sound exchange marketId settled) {orderId : String}
    (hsettled : settled orderId) :
    OpenOrdersCache.Sound { cache with orderIds := cache.orderIds.erase orderId } exchange
      marketId settled := by
  intro hcomplete other order horder hmarket hopen
  by_cases hother : other = orderId
  · exact Or.inr (hother ▸ hsettled)
  · rcases h hcomplete other order horder hmarket hopen with hmem | hdone
    · exact Or.inl (Finset.mem_erase.mpr ⟨hother, hmem⟩)
    · exact Or.inr hdone

theorem listed {listing : List String} (hlists : exchange.Lists env)
    (hlisting : env.openOrders marketId = some listing) :
    (env.listed listing).Sound exchange marketId settled := by
  intro hcomplete orderId order horder hmarket hopen
  left
  apply Requests.mem_fetchOpenOrderIds hcomplete
  exact (hlists marketId listing hlisting orderId).mpr ⟨order, horder, hmarket, hopen⟩

end OpenOrdersCache.Sound

/-! ## The lists of a run -/

namespace TradeEngine

/-- The response is taken for the cancellation of the order. -/
def TakesForDone (setup : Setup) (env : Env) (eng : TradeEngine) (orderId : String) :
    TradeMessage → Prop
  | .orderResponse (.cancelOrder reqId cancelled result) =>
    cancelled = orderId ∧ ∃ key, eng.cancelOwner reqId = some key ∧
      (result.ok || (verifyCancel setup env eng key cancelled result).2) = true
  | _ => False

/-- Some response of the run was taken for the cancellation of the order. -/
def SettledIn (setup : Setup) (start : ℤ) (past : List (Env × TradeMessage))
    (orderId : String) : Prop :=
  ∃ before e rest, past = before ++ e :: rest ∧
    TakesForDone setup e.1 ((TradeEngine.start start).handleAll setup before) orderId e.2

theorem SettledIn.append {start : ℤ} {past : List (Env × TradeMessage)} {orderId : String}
    (h : SettledIn setup start past orderId) (later : List (Env × TradeMessage)) :
    SettledIn setup start (past ++ later) orderId := by
  obtain ⟨before, e, rest, rfl, hdone⟩ := h
  exact ⟨before, e, rest ++ later, by simp, hdone⟩

/-- Every list that the engine keeps is sound. -/
def ListsSound (eng : TradeEngine) (exchange : Exchange) (settled : String → Prop) : Prop :=
  ∀ marketId cache, eng.lists marketId = some cache → cache.Sound exchange marketId settled

/-- One message keeps the lists sound. -/
theorem ListsSound.handle {eng : TradeEngine} {exchange : Exchange} {settled : String → Prop}
    (h : eng.ListsSound exchange settled) (hlists : exchange.Lists env) {message : TradeMessage}
    (hdone : ∀ orderId, TakesForDone setup env eng orderId message → settled orderId) :
    (TradeEngine.handle setup env eng message).ListsSound exchange settled := by
  intro marketId cache hcache
  by_cases hcancel : ∃ reqId orderId result key,
      message = .orderResponse (.cancelOrder reqId orderId result) ∧
        eng.cancelOwner reqId = some key
  · obtain ⟨reqId, orderId, result, key, rfl, howner⟩ := hcancel
    simp only [TradeEngine.handle, handleOrderResponse] at hcache
    rw [eng.handleCancelResponse_lists howner] at hcache
    -- first the list is fetched, then the order may be struck from it
    have hfetched : ∀ fetched,
        (verifyCancel setup env eng key orderId result).1.openOrdersCache marketId =
          some fetched → fetched.Sound exchange marketId settled := by
      intro fetched hfetched
      rcases @verifyCancel_lists setup env key eng orderId result marketId with
        hkeep | ⟨listing, hlisting, hnew⟩
      · exact h marketId fetched (hkeep ▸ hfetched)
      · obtain rfl := Option.some.inj (hnew.symm.trans hfetched)
        exact .listed hlists hlisting
    rcases noteCancel_lists (verifyCancel setup env eng key orderId result).1 orderId result
        (result.ok || (verifyCancel setup env eng key orderId result).2) marketId with
      hkeep | ⟨hok, hstruck⟩
    · exact hfetched cache (hkeep ▸ hcache)
    · obtain ⟨fetched, hlist, rfl⟩ := Option.map_eq_some_iff.mp (hstruck.symm.trans hcache)
      exact (hfetched fetched hlist).erase (hdone orderId ⟨rfl, key, howner, hok⟩)
  · -- nothing else writes a list
    have hkeep : (TradeEngine.handle setup env eng message).lists = eng.lists := by
      apply handle_lists
      rintro reqId orderId result rfl
      by_contra howner
      obtain ⟨key, hkey⟩ := Option.ne_none_iff_exists'.mp howner
      exact hcancel ⟨reqId, orderId, result, key, rfl, hkey⟩
    exact h marketId cache (hkeep ▸ hcache)

/-- The lists are sound all along a run. -/
theorem listsSound_of_run {exchange : Exchange} {start : ℤ} {past : List (Env × TradeMessage)}
    (hlists : ∀ e ∈ past, exchange.Lists e.1) :
    ((TradeEngine.start start).handleAll setup past).ListsSound exchange
      (SettledIn setup start past) := by
  induction past using List.reverseRecOn with
  | nil =>
    intro marketId cache hcache
    cases hcache
  | append_singleton past e ih =>
    have hpast := ih fun e' he' => hlists e' (List.mem_append_left _ he')
    have hlast : exchange.Lists e.1 :=
      hlists e (List.mem_append_right _ (List.mem_singleton_self e))
    unfold handleAll at hpast ⊢
    rw [List.foldl_append]
    refine ListsSound.handle (fun marketId cache hcache => ?_) hlast ?_
    · exact (hpast marketId cache hcache).mono fun orderId hdone => hdone.append [e]
    · exact fun orderId hdone => ⟨past, e, [], rfl, hdone⟩

/-! ## Releasing the entry -/

/-- The list that an unclear response is checked against: one of the last five seconds,
or else a new one. -/
def checkedList (setup : Setup) (env : Env) (eng : TradeEngine) (key : PairKey) :
    Option OpenOrdersCache :=
  match setup.opinionClient, setup.orderTargets key with
  | true, some target =>
    match (eng.lists target.marketId).filter
        fun cache => decide (env.now - cache.fetchedMs ≤ cancelVerifyCacheTtlMs) with
    | some cache => some cache
    | none => (env.openOrders target.marketId).map env.listed
  | _, _ => none

/-- The response leaves open whether the order was cancelled, and the user channel cannot
tell. -/
structure Unclear (setup : Setup) (env : Env) (eng : TradeEngine) (result : CancelResult) :
    Prop where
  failed : result.ok = false
  retryable : result.rateLimited = true ∨ result.serverError = true
  silent : eng.desk.req.wsUserChannelActive setup env = false

variable {eng : TradeEngine}

theorem isOrderOpenForCancel_verdict (orderId : String) :
    (eng.desk.req.isOrderOpenForCancel setup env key orderId).2 =
      (checkedList setup env eng key).bind fun list =>
        Requests.openVerdict list.orderIds list.complete orderId := by
  unfold Requests.isOrderOpenForCancel checkedList
  cases setup.opinionClient with
  | false => rfl
  | true =>
    cases setup.orderTargets key with
    | none => rfl
    | some target =>
      simp only
      cases (eng.lists target.marketId).filter
          fun cache => decide (env.now - cache.fetchedMs ≤ cancelVerifyCacheTtlMs) with
      | some cache => rfl
      | none =>
        cases env.openOrders target.marketId with
        | none => rfl
        | some listing => rfl

/-- An unclear cancel is taken for done if the list was read to its end and does not name
the order. -/
theorem verifyCancel_iff {orderId : String} {result : CancelResult} :
    (verifyCancel setup env eng key orderId result).2 = true ↔
      Unclear setup env eng result ∧ ∃ list ∈ checkedList setup env eng key,
        list.complete = true ∧ orderId ∉ list.orderIds := by
  have hverdict : ∀ list : OpenOrdersCache,
      Requests.openVerdict list.orderIds list.complete orderId = some false ↔
        list.complete = true ∧ orderId ∉ list.orderIds := by
    intro list
    unfold Requests.openVerdict
    split
    · simp_all
    · split <;> simp_all
  unfold verifyCancel
  split
  · rename_i h
    simp only [decide_eq_true_eq, isOrderOpenForCancel_verdict, Option.bind_eq_some_iff, hverdict]
    exact ⟨fun hlist => ⟨⟨h.1, h.2.1, h.2.2⟩, hlist⟩, fun hlist => hlist.2⟩
  · rename_i h
    simp only [Bool.false_eq_true, false_iff]
    exact fun hunclear => h ⟨hunclear.1.failed, hunclear.1.retryable, hunclear.1.silent⟩

/-- The pair holds nothing and waits for nothing. -/
def Released (eng : TradeEngine) (key : PairKey) : Prop :=
  (eng.stateOf key).state = .idle ∨ (eng.stateOf key).state = .cooldown

/-- A response to the cancel of an entry order releases the pair just in case it is taken
for the cancellation of the order. -/
theorem cancelResponse_released_iff (hreach : (engineMachine setup).Reachable eng) {reqId : ℕ}
    (howner : eng.cancelOwner reqId = some key)
    (hentry : (eng.stateOf key).entryCancelReqId = some reqId) (orderId : String)
    (result : CancelResult) :
    (TradeEngine.handle setup env eng
        (.orderResponse (.cancelOrder reqId orderId result))).Released key ↔
      result.ok = true ∨ (verifyCancel setup env eng key orderId result).2 = true := by
  have hwf := (inv_of_reachable hreach).wf key
  have hwork : (eng.stateOf key).state = .entryWorking := by
    have hcause : (Cause.ack reqId).OfEntry (eng.stateOf key).toOrderState := hentry
    have hhold := hwf.holding_of_cause hcause nofun
    rcases hhold with hs | hopen
    · exact hs
    · have hnone := (hwf.openEntry hopen).2
      exact absurd (hentry.symm.trans hnone) nofun
  have hknown := eng.cancelOwner_known howner
  have hslot : (TradeEngine.handle setup env eng
      (.orderResponse (.cancelOrder reqId orderId result))).Released key ↔
      (((TradeEngine.handle setup env eng
        (.orderResponse (.cancelOrder reqId orderId result))).view.slot key).order.state = .idle ∨
      ((TradeEngine.handle setup env eng
        (.orderResponse (.cancelOrder reqId orderId result))).view.slot key).order.state =
          .cooldown) :=
    Iff.rfl
  rw [hslot]
  simp only [handle, handleOrderResponse, handleCancelResponse, howner]
  rw [slot_onKnown eng hknown]
  simp only [hentry, if_true, ← Bool.or_eq_true]
  split
  · rename_i hok
    simp only [slotOf_order, hok, iff_true]
    exact Or.inr (entryCancelled_state _ _)
  · rename_i hno
    simp [slotOf_order, hno, hwork]

/-- The list that is checked is one of the sound lists, or fetched now. -/
theorem checkedList_sound {exchange : Exchange} {settled : String → Prop}
    (hsound : eng.ListsSound exchange settled) (hlists : exchange.Lists env)
    {list : OpenOrdersCache} (hlist : list ∈ checkedList setup env eng key) :
    ∃ target, setup.orderTargets key = some target ∧
      list.Sound exchange target.marketId settled := by
  unfold checkedList at hlist
  cases hclient : setup.opinionClient with
  | false =>
    rw [hclient] at hlist
    cases hlist
  | true =>
    rw [hclient] at hlist
    cases htarget : setup.orderTargets key with
    | none =>
      rw [htarget] at hlist
      cases hlist
    | some target =>
      rw [htarget] at hlist
      refine ⟨target, rfl, ?_⟩
      simp only at hlist
      split at hlist
      · rename_i hfresh
        cases hlist
        exact hsound target.marketId list (Option.filter_eq_some_iff.mp hfresh).1
      · obtain ⟨listing, hlisting, rfl⟩ := Option.map_eq_some_iff.mp hlist
        exact .listed hlists hlisting

/-- What makes it right to release the entry.  A cancel that succeeded must have found an
order without trades.  Where a list does not name the order, the order must be without
trades as well, and be cancelled unless the list is the younger of the two. -/
structure ReleaseJustified (setup : Setup) (start : ℤ) (past : List (Env × TradeMessage))
    (env : Env) (key : PairKey) (orderId : String) (result : CancelResult)
    (order : ExchangeOrder) : Prop where
  acknowledged : result.ok = true → order.UntradedBy env.now ∧ order.CancelledBy env.now
  unlisted : Unclear setup env ((TradeEngine.start start).handleAll setup past) result →
    ∀ list ∈ checkedList setup env ((TradeEngine.start start).handleAll setup past) key,
      list.complete = true → orderId ∉ list.orderIds →
        order.UntradedBy env.now ∧ (order.CancelledBy env.now ∨
          order.placedMs ≤ list.fetchedMs ∧ list.fetchedMs ≤ env.now ∧
            ¬ SettledIn setup start past orderId)

/-- When a response to the cancel of an entry order releases the pair only if the order is
neither open nor filled: just in case the release would be justified. -/
theorem release_sound_iff {exchange : Exchange} {start : ℤ} {past : List (Env × TradeMessage)}
    (hpast : ∀ e ∈ past, exchange.Lists e.1) (hlists : exchange.Lists env) {reqId : ℕ}
    (howner : ((TradeEngine.start start).handleAll setup past).cancelOwner reqId = some key)
    (hentry : (((TradeEngine.start start).handleAll setup past).stateOf key).entryCancelReqId =
      some reqId)
    {orderId : String} {order : ExchangeOrder} (horder : exchange orderId = some order)
    (hmarket : ∀ target, setup.orderTargets key = some target →
      order.marketId = target.marketId)
    (hplaced : order.placedMs ≤ env.now) (result : CancelResult) :
    ((TradeEngine.handle setup env ((TradeEngine.start start).handleAll setup past)
        (.orderResponse (.cancelOrder reqId orderId result))).Released key →
      ¬ order.OpenAt env.now ∧ order.UntradedBy env.now) ↔
    ReleaseJustified setup start past env key orderId result order := by
  have hsound := @listsSound_of_run setup exchange start past hpast
  rw [cancelResponse_released_iff (reachable_handleAll start past) howner hentry]
  constructor
  · intro hgone
    -- without trades, an order that is not open was cancelled
    have hcancelled : result.ok = true ∨ (verifyCancel setup env
        ((TradeEngine.start start).handleAll setup past) key orderId result).2 = true →
        order.UntradedBy env.now ∧ order.CancelledBy env.now := by
      intro hdone
      obtain ⟨hclosed, huntraded⟩ := hgone hdone
      rw [ExchangeOrder.openAt_iff_of_untradedBy huntraded hplaced, not_not] at hclosed
      exact ⟨huntraded, hclosed⟩
    constructor
    · exact fun hok => hcancelled (Or.inl hok)
    · intro hunclear list hlist hcomplete hunlisted
      have hdone := hcancelled (Or.inr
        (verifyCancel_iff.mpr ⟨hunclear, list, hlist, hcomplete, hunlisted⟩))
      exact ⟨hdone.1, Or.inl hdone.2⟩
  · intro hjust hdone
    have hcancelled : order.UntradedBy env.now ∧ order.CancelledBy env.now := by
      rcases hdone with hok | hverified
      · exact hjust.acknowledged hok
      · obtain ⟨hunclear, list, hlist, hcomplete, hunlisted⟩ := verifyCancel_iff.mp hverified
        obtain ⟨huntraded, hcancel⟩ := hjust.unlisted hunclear list hlist hcomplete hunlisted
        refine ⟨huntraded, ?_⟩
        rcases hcancel with hcancel | ⟨hyounger, hpastfetch, hunsettled⟩
        · exact hcancel
        · -- the list would name the order if it had been open
          obtain ⟨target, htarget, hlistsound⟩ := checkedList_sound hsound hlists hlist
          have hclosed : ¬ order.OpenAt list.fetchedMs := by
            intro hopen
            rcases hlistsound hcomplete orderId order horder (hmarket target htarget) hopen with
              hmem | hsettled
            · exact hunlisted hmem
            · exact hunsettled hsettled
          rw [ExchangeOrder.openAt_iff_of_untradedBy (huntraded.mono hpastfetch) hyounger,
            not_not] at hclosed
          exact hclosed.mono hpastfetch
    refine ⟨?_, hcancelled.1⟩
    exact fun hopen => hopen.uncancelled hcancelled.2

end TradeEngine

/-! ### A cancel that the gateway answers with an error -/

/-- The order `e1` of twenty shares. -/
def restingOrder (trades : List (ℤ × ℚ)) (cancelledMs : Option ℤ) : ExchangeOrder where
  marketId := 7
  placedMs := 1050
  qty := 20
  trades := trades
  cancelledMs := cancelledMs
  qty_pos := by decide

def restingExchange (order : ExchangeOrder) : Exchange :=
  fun orderId => if orderId = "e1" then some order else none

/-- The entry order outlives its time to live, and its cancel is requested. -/
def cancellingRun : List (Env × TradeMessage) :=
  sampleEntering ++ [(sampleEnv 2000 "x", .pairBar (sampleBar 2) none)]

/-- The exchange lists no open order. -/
def nothingOpen : Env := { sampleEnv 2100 "x" with openOrders := fun _ => some [] }

/-- The cancel call failed with a server error. -/
def gatewayError : CancelResult := ⟨false, false, true, some "502"⟩

theorem lists_cancellingRun (exchange : Exchange) :
    ∀ e ∈ cancellingRun, exchange.Lists e.1 := by
  intro e he marketId listing hlisting
  simp only [cancellingRun, sampleEntering, List.cons_append, List.nil_append, List.mem_cons,
    List.not_mem_nil, or_false] at he
  rcases he with rfl | rfl | rfl | rfl <;> cases hlisting

theorem lists_nothingOpen {order : ExchangeOrder} (hclosed : ¬ order.OpenAt 2100) :
    (restingExchange order).Lists nothingOpen := by
  intro marketId listing hlisting orderId
  obtain rfl := Option.some.inj hlisting
  simp only [List.not_mem_nil, false_iff, not_exists, not_and, restingExchange]
  intro order' horder _ hopen
  split at horder
  · cases horder
    exact hclosed hopen
  · cases horder

/-- The order was cancelled before it traded: the release is right. -/
theorem release_sound_cancelled :
    (TradeEngine.handle ttlSetup nothingOpen
        ((TradeEngine.start 0).handleAll ttlSetup cancellingRun)
          (.orderResponse (.cancelOrder 3 "e1" gatewayError))).Released sampleKey ∧
      ¬ (restingOrder [] (some 2050)).OpenAt 2100 ∧
      (restingOrder [] (some 2050)).UntradedBy 2100 := by
  have huntraded : (restingOrder [] (some 2050)).UntradedBy nothingOpen.now := nofun
  have hcancelled : (restingOrder [] (some 2050)).CancelledBy nothingOpen.now :=
    ⟨2050, rfl, by decide⟩
  have hreleased : (TradeEngine.handle ttlSetup nothingOpen
      ((TradeEngine.start 0).handleAll ttlSetup cancellingRun)
        (.orderResponse (.cancelOrder 3 "e1" gatewayError))).Released sampleKey :=
    Or.inr (by decide +kernel)
  refine ⟨hreleased, (TradeEngine.release_sound_iff
    (lists_cancellingRun (restingExchange (restingOrder [] (some 2050))))
    (lists_nothingOpen fun hopen => hopen.uncancelled hcancelled)
    (by decide +kernel) (by decide +kernel) (if_pos rfl) ?_ (by decide) gatewayError).mpr
    ⟨nofun, fun _ _ _ _ _ => ⟨huntraded, Or.inl hcancelled⟩⟩ hreleased⟩
  intro target htarget
  cases htarget
  rfl

/-- The order was filled while its cancel was on its way: no list names it, and the entry
is released although twenty shares were bought. -/
theorem filled_order_released :
    (∀ e ∈ cancellingRun, (restingExchange (restingOrder [(1500, 20)] none)).Lists e.1) ∧
      (restingExchange (restingOrder [(1500, 20)] none)).Lists nothingOpen ∧
      ((TradeEngine.start 0).handleAll ttlSetup cancellingRun).cancelOwner 3 = some sampleKey ∧
      (((TradeEngine.start 0).handleAll ttlSetup cancellingRun).stateOf
        sampleKey).entryCancelReqId = some 3 ∧
      (((TradeEngine.start 0).handleAll ttlSetup cancellingRun).stateOf
        sampleKey).entryOrderId = some "e1" ∧
      (TradeEngine.handle ttlSetup nothingOpen
        ((TradeEngine.start 0).handleAll ttlSetup cancellingRun)
          (.orderResponse (.cancelOrder 3 "e1" gatewayError))).Released sampleKey ∧
      ¬ (restingOrder [(1500, 20)] none).UntradedBy 2100 := by
  refine ⟨lists_cancellingRun _, lists_nothingOpen fun hopen => ?_, by decide +kernel,
    by decide +kernel, by decide +kernel, Or.inr (by decide +kernel), fun huntraded => ?_⟩
  · exact absurd hopen.unfilled (by decide +kernel)
  · exact absurd (huntraded (1500, 20) List.mem_cons_self) (by decide)

end AlphaMonitor.Trade
