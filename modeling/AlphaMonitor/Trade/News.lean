import AlphaMonitor.Trade.OrderUpdates

/-!
# What a pair takes a message for

Order updates, trade records, fill polls and cancel responses reach a pair through
different checks, but there are only four things that it can take them for.

## Main results

- `TradeMessage.news`: what a pair takes a message for
- `TradeEngine.handle_told`: what the message then does to the pair
-/

namespace AlphaMonitor.Trade

variable {setup : Setup} {env : Env} {key : PairKey}

/-! ## News -/

/-- What a message tells a pair about its orders. -/
inductive News where
  | entryFill (fill : TradeFill)
  | exitFill
  | entryCancelled
  | exitCancelled
  deriving DecidableEq, Repr

namespace PairTradeState

variable (st : PairTradeState)

/-- A fill that the user channel reports for an order. -/
def fillNews (orderId : String) (fill : TradeFill) : Option News :=
  -- the entry order is asked first, and a fill that it takes never reaches the exit order
  if st.entryOrderId = some orderId ∧ (entryFill? st [fill]).isSome = true then
    some (.entryFill fill)
  else if st.exitOrderId = some orderId ∧ (exitFill? st [fill]).isSome = true then some .exitFill
  else none

/-- An update of an order. -/
def updateNews (update : OpinionUserOrderUpdate) (now : ℤ) : Option News :=
  if update.isCancel = true then
    if st.entryOrderId = some update.orderId then some .entryCancelled
    else if st.exitOrderId = some update.orderId then some .exitCancelled
    else none
  else if update.isFillUpdate = true ∨ update.filled.getD 0 > 0 then
    st.fillNews update.orderId (update.fill now)
  else none

/-- The answer to a fill poll. -/
def pollNews (reqId : ℕ) (kind : FillKind) (fills : List TradeFill) : Option News :=
  if st.fillPollReqId = some reqId then
    -- the poll takes the first fill of the batch that fits
    match kind with
    | .entry => (entryFill? st fills).map .entryFill
    | .exit => (exitFill? st fills).map fun _ => .exitFill
  else none

end PairTradeState

/-- The response to a cancel request. -/
def TradeEngine.cancelNews (setup : Setup) (env : Env) (eng : TradeEngine) (key : PairKey)
    (reqId : ℕ) (orderId : String) (result : CancelResult) : Option News :=
  -- a cancel that failed counts where the venue's lists show that the order is gone
  if eng.cancelOwner reqId = some key ∧
      (result.ok || (verifyCancel setup env eng key orderId result).2) = true then
    if (eng.stateOf key).entryCancelReqId = some reqId then some .entryCancelled
    else some .exitCancelled
  else none

/-- What the pair `key` takes a message for. -/
def TradeMessage.news (setup : Setup) (env : Env) (eng : TradeEngine) (key : PairKey) :
    TradeMessage → Option News
  | .orderUpdate update =>
    if key = (update.pairId, update.tokenSide) then (eng.stateOf key).updateNews update env.now
    else none
  | .tradeRecord record =>
    if key = (record.pairId, record.tokenSide) then
      (eng.stateOf key).fillNews record.orderId (record.fill env.now)
    else none
  | .orderResponse (.fetchFills id pairKey kind result) =>
    if key = pairKey then (eng.stateOf key).pollNews id kind result.fills else none
  | .orderResponse (.cancelOrder id orderId result) =>
    eng.cancelNews setup env key id orderId result
  | _ => none

/-- Labels of the moves that settle a placement, or nothing. -/
def Act.Settles : Act → Prop
  | .upkeep => True
  | .placed _ _ => True
  | .refused _ => True
  | _ => False

/-- What a message does to the slot of a pair that takes it for `news`. -/
inductive Told (setup : Setup) (key : PairKey) (s : Slot) : Option News → Slot → Prop
  | nothing {t : Slot} (h : Steps setup key (fun _ a => a.Settles) s t) : Told setup key s none t
  /-- The fill is taken over, and the position it makes is worked. -/
  | entryFill {fill : TradeFill} {u t : Slot} (h : Move setup key s (.entryFill fill) u)
      (hwork : WorkingSteps setup key u t) : Told setup key s (some (.entryFill fill)) t
  | exitFill {fill : TradeFill} {t : Slot} (h : Move setup key s (.exitFill fill) t) :
      Told setup key s (some .exitFill) t
  | entryCancelled {cause : Cause} {t : Slot} (h : Move setup key s (.cancelEntry cause) t) :
      Told setup key s (some .entryCancelled) t
  | exitCancelled {cause : Cause} {t : Slot} (h : Move setup key s (.cancelExit cause) t) :
      Told setup key s (some .exitCancelled) t

theorem Told.refl (s : Slot) : Told setup key s none s := .nothing (Lib.Chain.refl s)

theorem Told.of_quiet {s t : Slot} (h : Steps setup key Quiet s t) : Told setup key s none t :=
  .nothing (Steps.ofQuiet (fun _ => trivial) h)

/-! ## No news -/

/-- Labels of the moves that are no news. -/
def Act.Plain (a : Act) : Prop := a.Routine ∨ a.Settles

/-- The exit calls that a move makes. -/
def Act.calls : Act → List Submission
  | .callExit calls => calls
  | _ => []

theorem OrderState.not_open_idle : ¬ OrderState.idle.Open := by
  simp [OrderState.Open, OrderState.idle]

theorem OrderState.not_open_cooldown (o : OrderState) : ¬ o.cooldown.Open := by
  simp [OrderState.Open, OrderState.cooldown]

theorem OrderState.not_open_of_state {o : OrderState} {state : TradeState} (h : o.state = state)
    (hne : state ≠ .positionOpen ∧ state ≠ .exitWorking) : ¬ o.Open := by
  rintro (hs | hs)
  · exact hne.1 (h.symm.trans hs)
  · exact hne.2 (h.symm.trans hs)

/-- What a move of a live engine does to a position when it is no news. -/
inductive PlainEffect (s t : Slot) (a : Act) : Prop
  /-- There is no position before and after. -/
  | closed (hs : ¬ s.order.Open) (ht : ¬ t.order.Open) (hcalls : a.calls = [])
  /-- Only a cancellation of the exit order may be asked for. -/
  | kept (hstate : t.order.state = s.order.state) (hqty : t.order.entryQty = s.order.entryQty)
      (hid : t.order.exitOrderId = s.order.exitOrderId)
      (hpending : s.order.exitCancelPending = true → t.order.exitCancelPending = true)
      (hcalls : a.calls = [])
  /-- An exit order for the whole position is placed. -/
  | exitPlaced (qty : ℚ) (prices : List ℚ) (result : PlaceResult) (hopen : s.order.Open)
      (hfree : (s.order.state = .positionOpen ∧ s.order.exitCancelPending = false) ∨
        s.order.exitOrderId = none)
      (hqty : s.order.entryQty = some qty) (hpos : ∀ price ∈ prices, 0 < price)
      (hcalls : ChaseOutcome (exitSide s.order.direction) qty prices result a.calls)
      (ht : t.order = ({ s.order with state := .exitWorking } : OrderState).exitPlaced result)

theorem Upkeep.plainEffect {s t : Slot} (h : Upkeep key s t) {live : Bool}
    (hwf : s.order.Wf live s.hasBar) : PlainEffect s t .upkeep := by
  cases h with
  | expire hstate =>
    exact .closed (OrderState.not_open_of_state hstate (by simp)) OrderState.not_open_idle rfl
  | forget hstate _ =>
    exact .closed (fun hopen => OrderState.not_entering_of_open hopen hstate)
      OrderState.not_open_idle rfl
  | giveUp hstate _ =>
    exact .closed (OrderState.not_open_of_state hstate (by simp)) (OrderState.not_open_cooldown _)
      rfl
  | giveUpSending _ _ _ hstate _ =>
    exact .closed (OrderState.not_open_of_state hstate (by simp)) (OrderState.not_open_cooldown _)
      rfl
  -- the only upkeep that touches the exit order of a position
  | askExitCancel => exact .kept rfl rfl rfl (fun _ => rfl) rfl
  | dropExitCancel hnone =>
    -- an open position has a price and a quantity
    have hno : ¬ s.order.Open := by
      intro hopen
      obtain ⟨hprice, hqty, -⟩ := hwf.held (Or.inr hopen)
      exact hnone ⟨hprice, hqty⟩
    exact .closed hno hno rfl
  | _ => exact .kept rfl rfl rfl id rfl

theorem Move.plainEffect (hlive : setup.isLive = true) {s t : Slot} {a : Act}
    (h : Move setup key s a t) (ha : a.Plain) (hwf : s.order.Wf setup.isLive s.hasBar) :
    PlainEffect s t a := by
  have hdry : setup.isLive = false → PlainEffect s t a := by
    intro hfalse
    rw [hlive] at hfalse
    cases hfalse
  cases h with
  | upkeep hup => exact hup.plainEffect hwf
  | queueEntry _ _ _ _ _ _ hstate =>
    exact .closed (OrderState.not_open_of_state hstate (by simp))
      (@OrderState.not_open_of_state _ .entryPlacing rfl (by simp)) rfl
  -- paper fills need no message, but a live engine never makes them
  | enterPaper _ _ _ _ _ hpaper => exact hdry hpaper
  | placed reqId _ _ _ _ _ hreq =>
    -- a pair that waits for a response has no position yet
    have hstate : s.order.state = .entryPlacing := hwf.placing.mpr (by simp [hreq])
    exact .closed (OrderState.not_open_of_state hstate (by simp))
      (@OrderState.not_open_of_state _ .entryWorking rfl (by simp)) rfl
  | refused reqId hreq =>
    have hstate : s.order.state = .entryPlacing := hwf.placing.mpr (by simp [hreq])
    exact .closed (OrderState.not_open_of_state hstate (by simp)) (OrderState.not_open_cooldown _)
      rfl
  | openExit qty prices result calls _ hstate hqty hcancel hpos hcalls =>
    exact .exitPlaced qty prices result (Or.inl hstate) (Or.inl ⟨hstate, hcancel⟩) hqty hpos hcalls
      rfl
  | retryExit qty prices result calls _ hstate hqty hcancel hid _ hpos hcalls =>
    refine .exitPlaced qty prices result (Or.inr hstate) (Or.inr hid) hqty hpos hcalls ?_
    have hsame : ({ s.order with state := .exitWorking } : OrderState) = s.order := by
      rw [← hstate]
    rw [hsame]
  | cancelEntry cause _ hpaper =>
    rcases ha with ha | ha
    · exact hdry (hpaper ha)
    · exact ha.elim
  | abandonEntry cause hcause hbar =>
    -- an entry given up without a bar: a pair that works an order has seen one
    have hbar' := hwf.bar (hwf.not_idle_of_cause hcause)
    rw [hbar] at hbar'
    cases hbar'
  | entryPaper _ _ hpaper => exact hdry hpaper
  | openPaper hpaper => exact hdry hpaper
  | exitPaper hpaper => exact hdry hpaper
  | entryFill => exact (ha.elim id id).elim
  | exitFill => exact (ha.elim id id).elim
  | cancelExit => exact (ha.elim id id).elim

/-! ## Fills -/

section Fills

variable (signals : List ShockSignal) (desk : Desk) {st : PairTradeState} {orderId : String}
  {fill : TradeFill}

theorem entryFill?_singleton {taken : TradeFill} (h : entryFill? st [fill] = some taken) :
    taken = fill :=
  List.mem_singleton.mp (List.mem_of_find?_eq_some h)

/-- A fill that the entry order takes is none of the exit order. -/
theorem exitFill?_of_entryFill? (hdir : st.direction ≠ 0)
    (h : (entryFill? st [fill]).isSome = true) {st' : PairTradeState}
    (hsame : st'.direction = st.direction) : exitFill? st' [fill] = none := by
  obtain ⟨taken, htaken⟩ := Option.isSome_iff_exists.mp h
  have hside := (find?_takes htaken).2
  rw [entryFill?_singleton htaken] at hside
  -- the exit order takes the other side
  have hopposite := fillSideMatches_neg hdir hside
  unfold exitFill?
  rw [List.find?_eq_none]
  intro other hother
  rw [List.mem_singleton.mp hother, hsame]
  simp [hopposite]

/-- An entry fill of the user channel, and the work on the position it makes. -/
theorem applyWsFills_entryTold (hlive : setup.isLive = true)
    (hwf : st.toOrderState.Wf setup.isLive st.lastBar.isSome) (matchesExit : Bool)
    (htaken : (entryFill? st [fill]).isSome = true) :
    Told setup key (slotOf (desk, st)) (some (.entryFill fill))
      (slotOf (applyWsFills setup env signals desk st key true matchesExit [fill])) := by
  obtain ⟨taken, hfill⟩ := Option.isSome_iff_exists.mp htaken
  obtain rfl := entryFill?_singleton hfill
  have htakes := find?_takes hfill
  have hhold := hwf.holding_of_takesEntryFill htakes
  have hdir := (hwf.held hhold).2.2.2.2.2
  have hbar : st.lastBar.isSome = true := by
    apply hwf.bar
    -- a pair that works an order has left the idle state
    intro hidle
    rcases hhold with hs | hs | hs <;> cases hidle.symm.trans hs
  unfold applyWsFills
  split
  · rename_i hlast
    rw [hlast] at hbar
    cases hbar
  · rename_i bar hlast
    simp only [if_neg (List.cons_ne_nil _ _), if_true]
    -- the poll bookkeeping is no part of the slot
    set desk' : Desk := { desk with req := { desk.req with
      fillPollBackoffMs := 0, fillPollBackoffUntilMs := none } }
    set st' : PairTradeState := { st with fillPollReqId := none, lastFillPollMs := some env.now }
    have hwork := @applyEntryFillsAndCheck_some setup env key signals desk' st' bar st.lastFlow
      [taken] taken hfill
    -- the checks after the fill do not touch the entry
    have hframe := hwork.frame hlive (Or.inl rfl)
    generalize applyEntryFillsAndCheck setup env signals desk' st' bar st.lastFlow [taken] key = mid
      at hwork hframe ⊢
    obtain ⟨desk₂, st₂⟩ := mid
    -- so the fill that the entry took is not sold again
    have hexit := exitFill?_of_entryFill? hdir htaken hframe.entry.direction
    have hsame := applyExitFills_none setup.cfg desk₂ st₂ bar hexit
    simp only [hsame, ite_self]
    exact .entryFill (Move.entryFill (s := slotOf (desk', st')) taken env.now hbar htakes) hwork

theorem applyEntryFillsAndCheck_told (bar : Bars1sPair) (flow : PmFlow) (fills : List TradeFill)
    (hbar : st.lastBar.isSome = true) :
    Told setup key (slotOf (desk, st)) ((entryFill? st fills).map .entryFill)
      (slotOf (applyEntryFillsAndCheck setup env signals desk st bar flow fills key)) := by
  cases htaken : entryFill? st fills with
  | none =>
    rw [applyEntryFillsAndCheck_none signals desk st bar flow htaken]
    exact Told.refl _
  | some fill =>
    exact .entryFill (Move.entryFill (s := slotOf (desk, st)) fill env.now hbar
      (find?_takes htaken)) (applyEntryFillsAndCheck_some signals desk st bar flow htaken)

theorem applyExitFills_told (bar : Bars1sPair) (fills : List TradeFill)
    (hbar : st.lastBar.isSome = true) (hkey : key = (bar.pairId, bar.tokenSide))
    (hsome : st.entryPrice.isSome ∧ st.entryQty.isSome) :
    Told setup key (slotOf (desk, st)) ((exitFill? st fills).map fun _ => .exitFill)
      (slotOf (applyExitFills setup.cfg desk st bar fills)) := by
  cases htaken : exitFill? st fills with
  | none =>
    rw [applyExitFills_none setup.cfg desk st bar htaken]
    exact Told.refl _
  | some taken => exact .exitFill (applyExitFills_move desk st bar htaken hbar hkey hsome)

/-- A fill of the exit order that the user channel reports. -/
theorem applyWsFills_exitTold (hwf : st.toOrderState.Wf setup.isLive st.lastBar.isSome)
    (hbars : ∀ bar, st.lastBar = some bar → key = (bar.pairId, bar.tokenSide))
    (hid : st.exitOrderId = some orderId) :
    Told setup key (slotOf (desk, st)) ((exitFill? st [fill]).map fun _ => .exitFill)
      (slotOf (applyWsFills setup env signals desk st key false true [fill])) := by
  -- an exit order belongs to a position, and a position to a bar
  have hopen := hwf.open_of_exitId (Or.inl (by rw [hid]; exact Option.some_ne_none _))
  obtain ⟨hprice, hqty, -⟩ := hwf.held (Or.inr hopen)
  have hbar : st.lastBar.isSome = true := by
    apply hwf.bar
    intro hidle
    rcases hopen with hs | hs <;> cases hidle.symm.trans hs
  unfold applyWsFills
  split
  · rename_i hlast
    rw [hlast] at hbar
    cases hbar
  · rename_i bar hlast
    simp only [if_neg (List.cons_ne_nil _ _), Bool.false_eq_true, if_false, if_true]
    set desk' : Desk := { desk with req := { desk.req with
      fillPollBackoffMs := 0, fillPollBackoffUntilMs := none } }
    set st' : PairTradeState := { st with fillPollReqId := none, lastFillPollMs := some env.now }
    exact @applyExitFills_told setup key desk' st' bar [fill] hbar (hbars bar hlast)
      ⟨hprice, hqty⟩

/-- A fill that the user channel reports for an order of the pair. -/
theorem applyWsFills_told (hlive : setup.isLive = true)
    (hwf : st.toOrderState.Wf setup.isLive st.lastBar.isSome)
    (hbars : ∀ bar, st.lastBar = some bar → key = (bar.pairId, bar.tokenSide)) :
    Told setup key (slotOf (desk, st)) (st.fillNews orderId fill)
      (slotOf (applyWsFills setup env signals desk st key
        (decide (st.entryOrderId = some orderId)) (decide (st.exitOrderId = some orderId))
        [fill])) := by
  -- where the entry order does not take the fill, only the exit order is left
  have hrest : Told setup key (slotOf (desk, st))
      (if st.exitOrderId = some orderId ∧ (exitFill? st [fill]).isSome = true then
        some .exitFill else none)
      (slotOf (applyWsFills setup env signals desk st key false
        (decide (st.exitOrderId = some orderId)) [fill])) := by
    by_cases hexit : st.exitOrderId = some orderId
    · have htold := @applyWsFills_exitTold setup env key signals desk st orderId fill hwf hbars
        hexit
      rw [decide_eq_true hexit]
      cases htaken : exitFill? st [fill] with
      | none => simpa [htaken] using htold
      | some taken => simpa [hexit, htaken] using htold
    · -- the fill names neither order: nothing is applied
      simp only [hexit, decide_false, false_and, if_false]
      unfold applyWsFills
      split
      · exact Told.refl _
      · split
        · exact Told.refl _
        · exact Told.refl _
  unfold PairTradeState.fillNews
  by_cases hid : st.entryOrderId = some orderId
  · by_cases htaken : (entryFill? st [fill]).isSome = true
    · simp only [hid, htaken, true_and, decide_true, if_true]
      exact applyWsFills_entryTold signals desk hlive hwf _ htaken
    · -- it names the entry order but is not taken for it
      have hnone : entryFill? st [fill] = none := by simpa using htaken
      rw [if_neg (fun h => htaken h.2), decide_eq_true hid,
        applyWsFills_not_entry signals desk _ hnone]
      exact hrest
  · rw [if_neg (fun h => hid h.1), decide_eq_false hid]
    exact hrest

end Fills

/-! ## One message -/

/-- A cancellation that an update reports. -/
theorem applyOrderUpdate_cancelTold (eng : TradeEngine) (update : OpinionUserOrderUpdate)
    (desk : Desk) (st : PairTradeState) (hcancel : update.isCancel = true)
    (hmatch : st.entryOrderId = some update.orderId ∨ st.exitOrderId = some update.orderId) :
    Told setup key (slotOf (desk, st)) (st.updateNews update env.now)
      (slotOf (TradeEngine.applyOrderUpdate setup env eng update key desk st
        (decide (st.entryOrderId = some update.orderId))
        (decide (st.exitOrderId = some update.orderId)))) := by
  unfold TradeEngine.applyOrderUpdate PairTradeState.updateNews
  simp only [if_pos hcancel]
  by_cases hentry : st.entryOrderId = some update.orderId
  · -- the handler clears the retry of this order before it cancels the entry
    simp only [hentry, decide_true, if_true]
    exact .entryCancelled (@entryCancelled_move setup key
      { desk with req := desk.req.clearCancelRetry update.orderId } st
      { st with toOrderState := st.toOrderState.dropEntryCancel } (.update update.orderId) hentry
      (by simp) rfl rfl rfl (fun _ => rfl))
  · have hexit := hmatch.resolve_left hentry
    simp only [hexit, hentry, decide_false, Bool.false_eq_true, if_false, if_true]
    exact .exitCancelled (Move.cancelExit (s := slotOf (desk, st)) (.update update.orderId) hexit)

theorem applyOrderUpdate_told (hlive : setup.isLive = true) (eng : TradeEngine)
    (update : OpinionUserOrderUpdate) (desk : Desk) (st : PairTradeState)
    (hwf : st.toOrderState.Wf setup.isLive st.lastBar.isSome)
    (hbars : ∀ bar, st.lastBar = some bar → key = (bar.pairId, bar.tokenSide))
    (hmatch : st.entryOrderId = some update.orderId ∨ st.exitOrderId = some update.orderId) :
    Told setup key (slotOf (desk, st)) (st.updateNews update env.now)
      (slotOf (TradeEngine.applyOrderUpdate setup env eng update key desk st
        (decide (st.entryOrderId = some update.orderId))
        (decide (st.exitOrderId = some update.orderId)))) := by
  by_cases hcancel : update.isCancel = true
  · exact applyOrderUpdate_cancelTold eng update desk st hcancel hmatch
  unfold TradeEngine.applyOrderUpdate PairTradeState.updateNews
  simp only [if_neg hcancel]
  by_cases hfill : update.isFillUpdate = true ∨ update.filled.getD 0 > 0
  · simp only [if_pos hfill]
    exact applyWsFills_told _ desk hlive hwf hbars
  · simp only [if_neg hfill]
    split
    · -- an update without a fill only asks for a poll
      generalize hpoll : Requests.maybeEnqueueFillPoll _ _ _ _ _ _ = r
      obtain ⟨req, st'⟩ := r
      exact Told.of_quiet (maybeEnqueueFillPoll_steps desk st _ hpoll).1
    · exact Told.refl _

/-- Without an order of this id a pair takes nothing from the user channel. -/
theorem fillNews_of_no_match {st : PairTradeState} {orderId : String} (fill : TradeFill)
    (h : ¬ (st.entryOrderId = some orderId ∨ st.exitOrderId = some orderId)) :
    st.fillNews orderId fill = none := by
  unfold PairTradeState.fillNews
  rw [if_neg fun hentry => h (Or.inl hentry.1), if_neg fun hexit => h (Or.inr hexit.1)]

theorem updateNews_of_no_match {st : PairTradeState} {update : OpinionUserOrderUpdate} (now : ℤ)
    (h : ¬ (st.entryOrderId = some update.orderId ∨ st.exitOrderId = some update.orderId)) :
    st.updateNews update now = none := by
  unfold PairTradeState.updateNews
  rw [fillNews_of_no_match _ h, if_neg fun hentry => h (Or.inl hentry),
    if_neg fun hexit => h (Or.inr hexit), ite_self, ite_self]

namespace TradeEngine

/-- What a function does to a known pair, and to an unknown one, which takes no news. -/
theorem onKnown_told (eng : TradeEngine) {f : PairTradeState → Desk × PairTradeState}
    {news : Option News} (hunknown : eng.stateOf key = PairTradeState.default → news = none)
    (h : Told setup key (eng.view.slot key) news (slotOf (f (eng.stateOf key)))) :
    ∃ t, Told setup key (eng.view.slot key) news t ∧ (eng.onKnown key f).view = eng.view.put key t := by
  unfold onKnown
  cases hst : eng.states.lookup key with
  | none =>
    have hdefault : eng.stateOf key = PairTradeState.default := by
      simp only [stateOf, hst, Option.getD_none]
    -- a pair without a state has its defaults, and no order to match
    rw [hunknown hdefault]
    exact ⟨_, Told.refl _, (View.put_slot_self _ _).symm⟩
  | some st =>
    have hof := eng.stateOf_of_lookup hst
    rw [hof] at h
    exact ⟨_, h, view_putBack eng key (f st)⟩

/-- A function on the pair whose order has this id. -/
theorem onOrder_told (eng : TradeEngine) {orderId : String} {news : PairTradeState → Option News}
    {f : PairTradeState → Bool → Bool → Desk × PairTradeState}
    (hno : ∀ st : PairTradeState,
      ¬ (st.entryOrderId = some orderId ∨ st.exitOrderId = some orderId) → news st = none)
    (h : (eng.stateOf key).entryOrderId = some orderId ∨
        (eng.stateOf key).exitOrderId = some orderId →
      Told setup key (eng.view.slot key) (news (eng.stateOf key))
        (slotOf (f (eng.stateOf key) (decide ((eng.stateOf key).entryOrderId = some orderId))
          (decide ((eng.stateOf key).exitOrderId = some orderId))))) :
    ∃ t, Told setup key (eng.view.slot key) (news (eng.stateOf key)) t ∧
      (eng.onKnown key fun st =>
        if (decide (st.entryOrderId = some orderId) || decide (st.exitOrderId = some orderId)) = true
        then f st (decide (st.entryOrderId = some orderId)) (decide (st.exitOrderId = some orderId))
        else (eng.desk, st)).view = eng.view.put key t := by
  apply onKnown_told eng
  · intro hdefault
    apply hno
    rw [hdefault]
    simp [PairTradeState.default, OrderState.idle]
  · by_cases hmatch : (eng.stateOf key).entryOrderId = some orderId ∨
        (eng.stateOf key).exitOrderId = some orderId
    · rw [if_pos (by simpa only [Bool.or_eq_true, decide_eq_true_eq] using hmatch)]
      exact h hmatch
    · rw [if_neg (by simpa only [Bool.or_eq_true, decide_eq_true_eq] using hmatch),
        hno _ hmatch]
      exact Told.refl _

theorem orderUpdate_told (hlive : setup.isLive = true) (eng : TradeEngine) (hinv : eng.Inv setup)
    (update : OpinionUserOrderUpdate) (hkey : key = (update.pairId, update.tokenSide)) :
    ∃ t, Told setup key (eng.view.slot key) ((eng.stateOf key).updateNews update env.now) t ∧
      (handle setup env eng (.orderUpdate update)).view = eng.view.put key t := by
  subst hkey
  refine @onOrder_told setup _ (noteUserMessage env eng) update.orderId
    (fun st => st.updateNews update env.now)
    (applyOrderUpdate setup env (noteUserMessage env eng) update (update.pairId, update.tokenSide)
      (noteUserMessage env eng).desk)
    (fun _ hno => updateNews_of_no_match _ hno) ?_
  intro hmatch
  -- the handler has noted the message before it looks up the pair
  exact applyOrderUpdate_told hlive (noteUserMessage env eng) update (noteUserMessage env eng).desk
    _ (hinv.wf _) (hinv.bars _) hmatch

theorem tradeRecord_told (hlive : setup.isLive = true) (eng : TradeEngine) (hinv : eng.Inv setup)
    (record : OpinionUserTradeRecord) (hkey : key = (record.pairId, record.tokenSide)) :
    ∃ t, Told setup key (eng.view.slot key)
        ((eng.stateOf key).fillNews record.orderId (record.fill env.now)) t ∧
      (handle setup env eng (.tradeRecord record)).view = eng.view.put key t := by
  subst hkey
  refine @onOrder_told setup _ (noteUserMessage env eng) record.orderId
    (fun st => st.fillNews record.orderId (record.fill env.now))
    (fun st matchesEntry matchesExit => applyWsFills setup env
      ((noteUserMessage env eng).shockSignals (record.pairId, record.tokenSide))
      (noteUserMessage env eng).desk st (record.pairId, record.tokenSide) matchesEntry matchesExit
      [record.fill env.now])
    (fun _ hno => fillNews_of_no_match _ hno) ?_
  intro _
  exact applyWsFills_told _ (noteUserMessage env eng).desk hlive (hinv.wf _) (hinv.bars _)

/-- A pair without a bar waits for no fill. -/
theorem pollNews_of_noBar {live : Bool} {st : PairTradeState}
    (hwf : st.toOrderState.Wf live st.lastBar.isSome) (hbar : st.lastBar = none) (reqId : ℕ)
    (kind : FillKind) (fills : List TradeFill) : st.pollNews reqId kind fills = none := by
  -- every other state was reached through a bar
  have hidle : st.state = .idle := by
    by_contra hne
    have hsome := hwf.bar hne
    rw [hbar] at hsome
    cases hsome
  have hholds : ¬ st.toOrderState.Holding := by
    rintro (hs | hs | hs) <;> cases hidle.symm.trans hs
  unfold PairTradeState.pollNews
  split
  · cases kind with
    | entry =>
      cases htaken : entryFill? st fills with
      | none => rfl
      | some fill => exact absurd (hwf.holding_of_takesEntryFill (find?_takes htaken)) hholds
    | exit =>
      cases htaken : exitFill? st fills with
      | none => rfl
      | some fill =>
        exact absurd (Or.inr (hwf.open_of_takesExitFill (find?_takes htaken))) hholds
  · rfl

theorem fetchFills_told (eng : TradeEngine) (hinv : eng.Inv setup) (reqId : ℕ) (kind : FillKind)
    (result : FillPollResult) :
    ∃ t, Told setup key (eng.view.slot key)
        ((eng.stateOf key).pollNews reqId kind result.fills) t ∧
      (handle setup env eng (.orderResponse (.fetchFills reqId key kind result))).view =
        eng.view.put key t := by
  have hwf := hinv.wf key
  simp only [handle, handleOrderResponse, handleFillResponse]
  apply onKnown_told eng
  · intro hdefault
    unfold PairTradeState.pollNews
    rw [hdefault, if_neg (by simp [PairTradeState.default])]
  by_cases hreq : (eng.stateOf key).fillPollReqId = some reqId
  · simp only [hreq, ne_eq, not_true_eq_false, if_false]
    have hback := Requests.updateFillPollBackoff_queue setup env eng.desk.req result.rateLimited
      result.error.isNone
    set desk : Desk := { eng.desk with
      req := eng.desk.req.updateFillPollBackoff setup env result.rateLimited result.error.isNone }
    set st : PairTradeState := { eng.stateOf key with fillPollReqId := none }
    -- the poll id and the backoff are no part of the slot
    have hslot : slotOf (desk, st) = eng.view.slot key := by
      simp only [desk, st, slot_view, slotOf, Desk.view, hback.1, hback.2]
    rw [← hslot]
    split
    · rename_i hnone
      rw [pollNews_of_noBar hwf hnone]
      exact Told.refl _
    · rename_i bar hbar
      have hseen : st.lastBar.isSome = true := by rw [hbar]; rfl
      simp only [PairTradeState.pollNews, if_pos hreq]
      by_cases hempty : result.fills = []
      · rw [if_pos hempty, hempty]
        cases kind with
        | entry => exact Told.refl _
        | exit => exact Told.refl _
      · rw [if_neg hempty]
        cases kind with
        | entry =>
          exact applyEntryFillsAndCheck_told _ desk bar st.lastFlow result.fills hseen
        | exit =>
          cases htaken : exitFill? (eng.stateOf key) result.fills with
          | none =>
            have hsame := applyExitFills_none setup.cfg desk st bar htaken
            simp only [hsame]
            exact Told.refl _
          | some fill =>
            have hopen := hwf.open_of_takesExitFill (find?_takes htaken)
            obtain ⟨hprice, hqty, -⟩ := hwf.held (Or.inr hopen)
            exact .exitFill (applyExitFills_move desk st bar htaken hseen
              (hinv.bars key bar hbar) ⟨hprice, hqty⟩)
  · -- the answer to a poll that the pair does not wait for any more
    simp only [ne_eq, hreq, not_false_eq_true, if_true, PairTradeState.pollNews, if_false]
    exact Told.refl _

theorem cancelOrder_told (eng : TradeEngine) {reqId : ℕ} (orderId : String)
    (result : CancelResult) (howner : eng.cancelOwner reqId = some key) :
    ∃ t, Told setup key (eng.view.slot key) (eng.cancelNews setup env key reqId orderId result) t ∧
      (handle setup env eng (.orderResponse (.cancelOrder reqId orderId result))).view =
        eng.view.put key t := by
  -- the owner is the pair whose entry or exit waits for this request
  have hspec := cancelOwner_spec eng howner
  simp only [handle, handleOrderResponse, handleCancelResponse, howner, cancelNews, true_and]
  have hverify := @verifyCancel_queue setup env eng key orderId result
  cases hv : verifyCancel setup env eng key orderId result with
  | mk req verified =>
    rw [hv] at hverify
    simp only at hverify
    have hnote := @noteCancel_queue setup env req key orderId result (result.ok || verified)
    simp only
    apply onKnown_told eng
    · intro hdefault
      rw [hdefault] at hspec
      rcases hspec with h | h <;> cases h
    -- the bookkeeping of cancels is no part of the slot
    set desk : Desk := { eng.desk with
      req := noteCancel setup env req key orderId result (result.ok || verified) }
    have hdesk : desk.view = eng.desk.view := by
      simp only [desk, Desk.view, hnote.1, hnote.2, hverify.1, hverify.2]
    have hslot : slotOf (desk, eng.stateOf key) = eng.view.slot key := by
      simp only [slot_view, slotOf, hdesk]
    rw [← hslot]
    by_cases hreq : (eng.stateOf key).entryCancelReqId = some reqId
    · simp only [if_pos hreq]
      split
      · exact .entryCancelled (entryCancelled_move desk (eng.stateOf key)
          { eng.stateOf key with entryCancelReqId := none } (.ack reqId) hreq (by simp) rfl rfl rfl
          (fun _ => rfl))
      · exact Told.of_quiet
          (Upkeep.entryCancelFailed (s := slotOf (desk, eng.stateOf key))).steps
    · simp only [if_neg hreq]
      -- the request was not for the entry, so it was for the exit
      have hexit := hspec.resolve_left hreq
      split
      · exact .exitCancelled
          (Move.cancelExit (s := slotOf (desk, eng.stateOf key)) (.ack reqId) hexit)
      · exact Told.of_quiet (Upkeep.exitCancelFailed (s := slotOf (desk, eng.stateOf key))).steps

/-- A response to a placement is news about no order yet. -/
theorem placeChase_told (eng : TradeEngine) (reqId : ℕ) (result : PlaceResult) :
    ∃ t, Told setup key (eng.view.slot key) none t ∧
      (handle setup env eng (.orderResponse (.placeChase reqId key result))).view =
        eng.view.put key t := by
  simp only [handle, handleOrderResponse, handleEntryPlaceResult]
  apply onKnown_told eng (fun _ => rfl)
  split
  · exact Told.refl _
  · rename_i hreq
    -- the response is the one that the pair waits for
    simp only [ne_eq, not_not] at hreq
    split
    · rename_i hnone
      apply Told.of_quiet
      have hquiet := @Upkeep.steps setup key _ _
        (Upkeep.stray (s := slotOf (eng.desk, eng.stateOf key)) reqId hreq hnone)
      simpa only [slot_view, slotOf, hnone] using hquiet
    · rename_i entry hentry
      refine .nothing (Lib.Chain.mono ?_ (applyPlaceResult_steps eng (eng.stateOf key) entry reqId
        result hreq hentry))
      -- it settles the placement: placed, refused, or neither
      rintro _ _ (rfl | rfl | rfl) <;> exact trivial

end TradeEngine

/-- The chain of a pair that is told something. -/
theorem Told.steps {s t : Slot} {news : Option News} (h : Told setup key s news t) :
    Steps setup key (fun _ _ => True) s t := by
  cases h with
  | nothing h => exact Lib.Chain.mono (fun _ _ _ => trivial) h
  | entryFill h hwork =>
    exact (Lib.Chain.single trivial h).trans (Lib.Chain.mono (fun _ _ _ => trivial) hwork)
  | exitFill h => exact Lib.Chain.single trivial h
  | entryCancelled h => exact Lib.Chain.single trivial h
  | exitCancelled h => exact Lib.Chain.single trivial h

/-- What one message does to a pair: it tells the pair something, or it is news for nobody
or another pair, and no more than a bar or a periodic check for this one. -/
theorem TradeEngine.handle_told (hlive : setup.isLive = true) (eng : TradeEngine)
    (hinv : eng.Inv setup) (message : TradeMessage) :
    (∃ t, Told setup key (eng.view.slot key) (message.news setup env eng key) t ∧
      (handle setup env eng message).view = eng.view.put key t) ∨
    (message.news setup env eng key = none ∧
      EngineSteps setup (fun _ a => a.1 = key → a.2.Routine) eng.view
        (handle setup env eng message).view) := by
  -- a message about another pair
  have hother : ∀ {key' : PairKey} {news : Option News}, key ≠ key' →
      (∃ t, Told setup key' (eng.view.slot key') news t ∧
        (handle setup env eng message).view = eng.view.put key' t) →
      EngineSteps setup (fun _ a => a.1 = key → a.2.Routine) eng.view
        (handle setup env eng message).view := by
    rintro key' news hne ⟨t, htold, hview⟩
    rw [hview]
    exact Steps.lift rfl (fun _ _ _ heq => absurd heq.symm hne) htold.steps
  -- bars, shocks and ticks are routine for every pair
  have hroutine : message.IsRoutine → EngineSteps setup (fun _ a => a.1 = key → a.2.Routine)
      eng.view (handle setup env eng message).view := by
    intro hmessage
    apply Lib.Chain.mono ?_ (@handle_steps setup env eng message hinv)
    intro _ a ha _
    exact ha.routine hmessage
  cases message with
  | pairBar bar signal => exact Or.inr ⟨rfl, hroutine trivial⟩
  | shock pairKey signal => exact Or.inr ⟨rfl, hroutine trivial⟩
  | cancelCheckTick order => exact Or.inr ⟨rfl, hroutine trivial⟩
  | orderUpdate update =>
    by_cases hkey : key = (update.pairId, update.tokenSide)
    · left
      simp only [TradeMessage.news, if_pos hkey]
      exact orderUpdate_told hlive eng hinv update hkey
    · right
      simp only [TradeMessage.news, if_neg hkey, true_and]
      exact hother hkey (orderUpdate_told hlive eng hinv update rfl)
  | tradeRecord record =>
    by_cases hkey : key = (record.pairId, record.tokenSide)
    · left
      simp only [TradeMessage.news, if_pos hkey]
      exact tradeRecord_told hlive eng hinv record hkey
    · right
      simp only [TradeMessage.news, if_neg hkey, true_and]
      exact hother hkey (tradeRecord_told hlive eng hinv record rfl)
  | orderResponse response =>
    cases response with
    | placeChase id pairKey result =>
      by_cases hkey : key = pairKey
      · subst hkey
        exact Or.inl (placeChase_told eng id result)
      · exact Or.inr ⟨rfl, hother hkey (placeChase_told eng id result)⟩
    | fetchFills id pairKey kind result =>
      by_cases hkey : key = pairKey
      · subst hkey
        left
        simp only [TradeMessage.news, if_true]
        exact fetchFills_told eng hinv id kind result
      · right
        simp only [TradeMessage.news, if_neg hkey, true_and]
        exact hother hkey (fetchFills_told eng hinv id kind result)
    | cancelOrder id orderId result =>
      by_cases hkey : eng.cancelOwner id = some key
      · exact Or.inl (cancelOrder_told eng orderId result hkey)
      · right
        have hnone : eng.cancelNews setup env key id orderId result = none := by
          unfold cancelNews
          rw [if_neg fun h => hkey h.1]
        refine ⟨hnone, ?_⟩
        -- a request without an owner is dropped, and one of another pair is its affair
        cases howner : eng.cancelOwner id with
        | none =>
          have hsame : handle setup env eng (.orderResponse (.cancelOrder id orderId result)) =
              eng := by
            simp only [handle, handleOrderResponse, handleCancelResponse, howner]
          rw [hsame]
          exact Lib.Chain.refl _
        | some key' =>
          refine hother ?_ (cancelOrder_told eng orderId result howner)
          rintro rfl
          exact hkey howner

end AlphaMonitor.Trade
