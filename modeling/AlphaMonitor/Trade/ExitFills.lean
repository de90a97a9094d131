import AlphaMonitor.Trade.EntryFills

/-!
# What closes a position

The trades of an exit order reach the engine like those of an entry order.
`apply_exit_fills` closes the position at the first fill that it takes, whatever
the size of the fill.

## Main results

- `TradeEngine.Tracks.delivery`: messages without a trade leave the position as it is, the first
  one with a trade closes it
- `tracked_until_exited_iff`: when a position is closed only after its whole exit
-/

namespace AlphaMonitor.Trade

variable {setup : Setup} {env : Env} {key : PairKey} {exitId : String}

/-! ## Moves of a worked position -/

/-- The position of `o` is worked in `o'` by the same exit order. -/
structure OrderState.Worked (o o' : OrderState) : Prop where
  state : o'.state = .exitWorking
  entry : o.SameEntry o'
  exitId : o'.exitOrderId = o.exitOrderId
  exitClientId : o'.exitClientId = o.exitClientId

theorem OrderState.Worked.refl {o : OrderState} (h : o.state = .exitWorking) : o.Worked o :=
  ⟨h, OrderState.SameEntry.refl o, rfl, rfl⟩

theorem OrderState.Worked.trans {o₁ o₂ o₃ : OrderState} (h : o₁.Worked o₂) (h' : o₂.Worked o₃) :
    o₁.Worked o₃ :=
  ⟨h'.state, h.entry.trans h'.entry, h'.exitId.trans h.exitId,
    h'.exitClientId.trans h.exitClientId⟩

theorem Upkeep.worked {s t : Slot} (h : Upkeep key s t) (hstate : s.order.state = .exitWorking) :
    s.order.Worked t.order := by
  have hstill := h.stillOpen (Or.inr hstate)
  cases h with
  | expire hs =>
    rw [hstate] at hs
    cases hs
  | forget hs hdir => simp [OrderState.Entering, hstate] at hs
  | giveUp hs hbar =>
    rw [hstate] at hs
    cases hs
  | giveUpSending entry qty price hs hbar =>
    rw [hstate] at hs
    cases hs
  | _ => exact ⟨hstate, hstill.entry, rfl, rfl⟩

/-- Bars and periodic checks leave a worked position with its exit order. -/
theorem Move.worked {s t : Slot} {a : Act} (hlive : setup.isLive = true)
    (h : Move setup key s a t) (ha : a.Routine) (hwf : s.order.Wf setup.isLive s.hasBar)
    (hstate : s.order.state = .exitWorking) (hid : s.order.exitOrderId.isSome = true) :
    s.order.Worked t.order := by
  have hkept := h.kept hlive ha hwf (Or.inr (Or.inr hstate))
  cases h with
  | upkeep hup => exact hup.worked hstate
  | retryExit qty prices result calls _ _ _ _ hnone =>
    rw [hnone] at hid
    cases hid
  | openExit qty prices result calls _ hs =>
    rw [hstate] at hs
    cases hs
  | entryPaper price now hdry =>
    rw [hlive] at hdry
    cases hdry
  | openPaper hdry =>
    rw [hlive] at hdry
    cases hdry
  | exitPaper hdry =>
    rw [hlive] at hdry
    cases hdry
  | queueEntry entry qty first rest target _ hs =>
    rw [hstate] at hs
    cases hs
  | enterPaper entry qty price rest now _ hs =>
    rw [hstate] at hs
    cases hs
  | cancelEntry cause hcause hpaper =>
    have hdry := hpaper ha
    rw [hlive] at hdry
    cases hdry
  | abandonEntry cause hcause hbar =>
    have hbar' := hwf.bar (by simp [hstate])
    rw [hbar] at hbar'
    cases hbar'
  | _ => exact ha.elim

/-- Bars and periodic checks of a live engine neither add nor release exposure. -/
theorem Move.counters_of_routine {s t : Slot} {a : Act} (hlive : setup.isLive = true)
    (h : Move setup key s a t) (ha : a.Routine) : t.desk.counters = s.desk.counters := by
  cases h with
  | upkeep hup => cases hup <;> rfl
  | enterPaper entry qty price rest now hdry =>
    rw [hlive] at hdry
    cases hdry
  | exitPaper hdry =>
    rw [hlive] at hdry
    cases hdry
  | cancelEntry cause hcause hpaper =>
    have hdry := hpaper ha
    rw [hlive] at hdry
    cases hdry
  | placed => exact ha.elim
  | exitFill => exact ha.elim
  | _ => rfl

/-- A position is tracked: it is worked as before and its exposure is still counted. -/
structure TradeEngine.Tracks (eng : TradeEngine) (key : PairKey) (s : Slot) : Prop where
  worked : s.order.Worked (eng.stateOf key).toOrderState
  counters : eng.desk.view.counters = s.desk.counters

/-- A bar or a periodic check. -/
theorem TradeEngine.Tracks.routine (hlive : setup.isLive = true) {eng : TradeEngine} {s : Slot}
    (h : eng.Tracks key s) (hinv : eng.Inv setup) (hid : s.order.exitOrderId.isSome = true)
    {message : TradeMessage} (hmessage : message.IsRoutine) :
    (TradeEngine.handle setup env eng message).Tracks key s := by
  have hsteps := @TradeEngine.handle_steps setup env eng message hinv
  constructor
  · refine hsteps.keyInv (P := s.order.Worked) ⟨hinv.wf, hinv.bars⟩ ?_ h.worked
    intro v a t hv ha hworked hmove
    have hsome : (v.order key).exitOrderId.isSome = true := by
      rw [hworked.exitId]
      exact hid
    exact hworked.trans
      (hmove.worked hlive (ha.routine hmessage) (hv.wf key) hworked.state hsome)
  · have hcounters := Lib.Chain.inv (fun v : View => v.desk.counters = s.desk.counters) ?_ hsteps
      h.counters
    · exact hcounters
    rintro v ⟨key', a⟩ w hv ha ⟨t, hmove, rfl⟩
    rw [View.put_desk, hmove.counters_of_routine hlive (ha.routine hmessage)]
    exact hv

/-! ## What a message does to the exit -/

/-- What a message that may bring an exit fill does to an open pair. -/
structure ExitEffect (s t : Slot) (taken : Option TradeFill) : Prop where
  untaken : taken = none → t.order = s.order ∧ t.desk.counters = s.desk.counters
  taken : taken.isSome = true → t.order.state = .cooldown

theorem ExitEffect.of_order {s t : Slot} (horder : t.order = s.order)
    (hcounters : t.desk.counters = s.desk.counters) : ExitEffect s t none :=
  ⟨fun _ => ⟨horder, hcounters⟩, fun h => by cases h⟩

theorem applyExitFills_effect (desk : Desk) (st : PairTradeState) (bar : Bars1sPair)
    (fills : List TradeFill) (hsome : st.entryPrice.isSome ∧ st.entryQty.isSome) :
    ExitEffect (slotOf (desk, st)) (slotOf (applyExitFills setup.cfg desk st bar fills))
      (exitFill? st fills) := by
  cases htaken : exitFill? st fills with
  | none =>
    rw [applyExitFills_none setup.cfg desk st bar htaken]
    exact ExitEffect.of_order rfl rfl
  | some fill =>
    have hid : ¬ (st.exitOrderId = none ∧ st.exitClientId = none) := by
      rintro ⟨h₁, h₂⟩
      have hmatch := (find?_takes htaken).1
      simp [fillMatchesOrder, h₁, h₂] at hmatch
    have hsome' : st.toOrderState.dropExitCancel.entryPrice.isSome = true ∧
        st.toOrderState.dropExitCancel.entryQty.isSome = true := hsome
    refine ⟨fun h => (by cases h), fun _ => ?_⟩
    unfold applyExitFills
    simp only [if_neg hid, htaken, if_pos hsome']
    rfl

/-- Fills from the user channel that are no fills of the entry order. -/
theorem applyWsFills_exitEffect (signals : List ShockSignal) (desk : Desk) (st : PairTradeState)
    (fills : List TradeFill) (hbar : st.lastBar.isSome = true) (hne : fills ≠ [])
    (hsome : st.entryPrice.isSome ∧ st.entryQty.isSome) :
    ExitEffect (slotOf (desk, st))
      (slotOf (applyWsFills setup env signals desk st key false true fills))
      (exitFill? st fills) := by
  unfold applyWsFills
  split
  · rename_i hlast
    rw [hlast] at hbar
    cases hbar
  · rename_i bar hlast
    simp only [if_neg hne, Bool.false_eq_true, if_false, if_true]
    set desk' : Desk := { desk with req := { desk.req with
      fillPollBackoffMs := 0, fillPollBackoffUntilMs := none } }
    set st' : PairTradeState := { st with fillPollReqId := none, lastFillPollMs := some env.now }
    have heffect := @applyExitFills_effect setup desk' st' bar fills hsome
    exact ⟨heffect.untaken, heffect.taken⟩

/-- The exit fills that the engine hears of in a message. -/
def TradeMessage.exitFills (env : Env) (st : PairTradeState) : TradeMessage → List TradeFill
  | .orderUpdate update =>
    if update.isFillUpdate = true ∨ update.filled.getD 0 > 0 then [update.fill env.now] else []
  | .tradeRecord record => [record.fill env.now]
  | .orderResponse (.fetchFills id _ _ result) =>
    if st.fillPollReqId = some id then result.fills else []
  | _ => []

/-- Messages of a delivery: order updates, trade records and polls of the exit order
`exitId`, and bars and periodic checks between them. -/
def TalksOfExit (key : PairKey) (exitId : String) : TradeMessage → Prop
  | .orderUpdate update =>
    key = (update.pairId, update.tokenSide) ∧ update.orderId = exitId ∧ update.isCancel = false
  | .tradeRecord record => key = (record.pairId, record.tokenSide) ∧ record.orderId = exitId
  | .orderResponse (.fetchFills _ pairKey kind _) => key = pairKey ∧ kind = .exit
  | message => message.IsRoutine

instance (key : PairKey) (exitId : String) :
    (message : TradeMessage) → Decidable (TalksOfExit key exitId message)
  | .pairBar _ _ => inferInstanceAs (Decidable True)
  | .shock _ _ => inferInstanceAs (Decidable True)
  | .cancelCheckTick _ => inferInstanceAs (Decidable True)
  | .orderUpdate _ => inferInstanceAs (Decidable (_ ∧ _ ∧ _))
  | .tradeRecord _ => inferInstanceAs (Decidable (_ ∧ _))
  | .orderResponse (.fetchFills _ _ _ _) => inferInstanceAs (Decidable (_ ∧ _))
  | .orderResponse (.placeChase _ _ _) => inferInstanceAs (Decidable False)
  | .orderResponse (.cancelOrder _ _ _) => inferInstanceAs (Decidable False)

theorem exitEffect_orderUpdate (eng : TradeEngine) (update : OpinionUserOrderUpdate)
    (htalk : TalksOfExit key exitId (.orderUpdate update))
    (hknown : eng.states.lookup key = some (eng.stateOf key))
    (hid : (eng.stateOf key).exitOrderId = some exitId)
    (hother : (eng.stateOf key).entryOrderId ≠ some exitId)
    (hbar : (eng.stateOf key).lastBar.isSome = true)
    (hsome : (eng.stateOf key).entryPrice.isSome ∧ (eng.stateOf key).entryQty.isSome) :
    ExitEffect (eng.view.slot key)
      ((TradeEngine.handle setup env eng (.orderUpdate update)).view.slot key)
      (exitFill? (eng.stateOf key)
        ((TradeMessage.orderUpdate update).exitFills env (eng.stateOf key))) := by
  obtain ⟨rfl, rfl, hcancel⟩ := htalk
  simp only [TradeEngine.handle, TradeEngine.handleOpinionOrderUpdate, TradeMessage.exitFills]
  rw [TradeEngine.slot_onKnown (TradeEngine.noteUserMessage env eng) hknown]
  have hsame : (TradeEngine.noteUserMessage env eng).stateOf (update.pairId, update.tokenSide) =
      eng.stateOf (update.pairId, update.tokenSide) := rfl
  simp only [hsame, hid, hother, decide_true, decide_false, Bool.or_true, if_true,
    TradeEngine.applyOrderUpdate, hcancel, Bool.false_eq_true, if_false]
  set desk : Desk := (TradeEngine.noteUserMessage env eng).desk
  by_cases hfill : update.isFillUpdate = true ∨ update.filled.getD 0 > 0
  · simp only [if_pos hfill]
    have heffect := @applyWsFills_exitEffect setup env (update.pairId, update.tokenSide)
      ((TradeEngine.noteUserMessage env eng).shockSignals (update.pairId, update.tokenSide)) desk
      (eng.stateOf (update.pairId, update.tokenSide)) [update.fill env.now] hbar
      (List.cons_ne_nil _ _) hsome
    exact ⟨heffect.untaken, heffect.taken⟩
  · simp only [if_neg hfill]
    have hnone : exitFill? (eng.stateOf (update.pairId, update.tokenSide)) [] = none := rfl
    rw [hnone]
    split
    · generalize hpoll : desk.req.maybeEnqueueFillPoll setup env
        (eng.stateOf (update.pairId, update.tokenSide)) (update.pairId, update.tokenSide)
        .exit = r
      obtain ⟨req, st'⟩ := r
      obtain ⟨horder, _⟩ := Requests.maybeEnqueueFillPoll_cases setup env _ _ _ _ hpoll
      exact ExitEffect.of_order horder rfl
    · exact ExitEffect.of_order rfl rfl

theorem exitEffect_tradeRecord (eng : TradeEngine) (record : OpinionUserTradeRecord)
    (htalk : TalksOfExit key exitId (.tradeRecord record))
    (hknown : eng.states.lookup key = some (eng.stateOf key))
    (hid : (eng.stateOf key).exitOrderId = some exitId)
    (hother : (eng.stateOf key).entryOrderId ≠ some exitId)
    (hbar : (eng.stateOf key).lastBar.isSome = true)
    (hsome : (eng.stateOf key).entryPrice.isSome ∧ (eng.stateOf key).entryQty.isSome) :
    ExitEffect (eng.view.slot key)
      ((TradeEngine.handle setup env eng (.tradeRecord record)).view.slot key)
      (exitFill? (eng.stateOf key)
        ((TradeMessage.tradeRecord record).exitFills env (eng.stateOf key))) := by
  obtain ⟨rfl, rfl⟩ := htalk
  simp only [TradeEngine.handle, TradeEngine.handleOpinionTradeRecord, TradeMessage.exitFills]
  rw [TradeEngine.slot_onKnown (TradeEngine.noteUserMessage env eng) hknown]
  have hsame : (TradeEngine.noteUserMessage env eng).stateOf (record.pairId, record.tokenSide) =
      eng.stateOf (record.pairId, record.tokenSide) := rfl
  simp only [hsame, hid, hother, decide_true, decide_false, Bool.or_true, if_true]
  have heffect := @applyWsFills_exitEffect setup env (record.pairId, record.tokenSide)
    ((TradeEngine.noteUserMessage env eng).shockSignals (record.pairId, record.tokenSide))
    (TradeEngine.noteUserMessage env eng).desk
    (eng.stateOf (record.pairId, record.tokenSide)) [record.fill env.now] hbar
    (List.cons_ne_nil _ _) hsome
  exact ⟨heffect.untaken, heffect.taken⟩

theorem exitEffect_fetchFills (eng : TradeEngine) (reqId : ℕ) (result : FillPollResult)
    (hknown : eng.states.lookup key = some (eng.stateOf key))
    (hbar : (eng.stateOf key).lastBar.isSome = true)
    (hsome : (eng.stateOf key).entryPrice.isSome ∧ (eng.stateOf key).entryQty.isSome) :
    ExitEffect (eng.view.slot key)
      ((TradeEngine.handle setup env eng
        (.orderResponse (.fetchFills reqId key .exit result))).view.slot key)
      (exitFill? (eng.stateOf key)
        ((TradeMessage.orderResponse (.fetchFills reqId key .exit result)).exitFills env
          (eng.stateOf key))) := by
  simp only [TradeEngine.handle, TradeEngine.handleOrderResponse, TradeEngine.handleFillResponse,
    TradeMessage.exitFills]
  rw [TradeEngine.slot_onKnown eng hknown]
  have hnone : exitFill? (eng.stateOf key) [] = none := rfl
  by_cases hreq : (eng.stateOf key).fillPollReqId = some reqId
  · simp only [hreq, ne_eq, not_true_eq_false, if_false, if_true]
    set desk : Desk := { eng.desk with
      req := eng.desk.req.updateFillPollBackoff setup env result.rateLimited result.error.isNone }
    set st : PairTradeState := { eng.stateOf key with fillPollReqId := none }
    split
    · rename_i hlast
      rw [hlast] at hbar
      cases hbar
    · rename_i bar _
      split
      · rename_i hempty
        rw [hempty, hnone]
        exact ExitEffect.of_order rfl rfl
      · have heffect := @applyExitFills_effect setup desk st bar result.fills hsome
        exact ⟨heffect.untaken, heffect.taken⟩
  · simp only [ne_eq, hreq, not_false_eq_true, if_true, if_false, hnone]
    exact ExitEffect.of_order rfl rfl

/-! ## Deliveries of an exit order -/

/-- The trades of the exit order `exitId` of `o` reach the pair. -/
abbrev DeliversExit (setup : Setup) (key : PairKey) (exitId : String) (o : OrderState) :
    TradeEngine → List Delivery → Prop :=
  Delivers setup key (fun _ => TalksOfExit key exitId) TradeMessage.exitFills
    fun _ => o.TakesExitFill

/-- The exit order of a pair, with an id that is not the id of its entry order. -/
structure OrderState.ExitsBy (o : OrderState) (exitId : String) : Prop where
  exitOrder : o.exitOrderId = some exitId
  entryOrder : o.entryOrderId ≠ some exitId

theorem exitFill?_reported {o : OrderState} {st : PairTradeState} (h : o.Worked st.toOrderState)
    {trades : List OrderTrade} {fills : List TradeFill}
    (hreport : List.Forall₂ (OrderTrade.ReportedBy o.TakesExitFill) trades fills) :
    (exitFill? st fills).isSome = true ↔ trades ≠ [] := by
  cases hreport with
  | nil => simp [exitFill?]
  | @cons trade fill trades fills hfirst _ =>
    obtain ⟨⟨hmatch, hside⟩, _⟩ := hfirst
    rw [← h.exitId, ← h.exitClientId] at hmatch
    rw [← h.entry.direction] at hside
    simp [exitFill?, hmatch, hside]

theorem TradeEngine.Tracks.exitEffect {eng eng' : TradeEngine} {s : Slot} {fills : List TradeFill}
    {trades : List OrderTrade} (h : eng.Tracks key s)
    (heffect : ExitEffect (eng.view.slot key) (eng'.view.slot key)
      (exitFill? (eng.stateOf key) fills))
    (hreport : List.Forall₂ (OrderTrade.ReportedBy s.order.TakesExitFill) trades fills) :
    (trades = [] → eng'.Tracks key s) ∧
      (trades ≠ [] → (eng'.stateOf key).state = .cooldown) := by
  have hreported := exitFill?_reported h.worked hreport
  constructor
  · intro hnone
    have huntaken : exitFill? (eng.stateOf key) fills = none := by
      rw [← Option.not_isSome_iff_eq_none, hreported]
      simpa using hnone
    obtain ⟨horder, hcounters⟩ := heffect.untaken huntaken
    have horder' : (eng'.stateOf key).toOrderState = (eng.stateOf key).toOrderState := horder
    refine ⟨?_, hcounters.trans h.counters⟩
    rw [horder']
    exact h.worked
  · intro hsome
    exact heffect.taken (hreported.mpr hsome)

/-- One message of a delivery: without a trade the position stays as it is, with a
trade it is closed. -/
theorem TradeEngine.Tracks.delivery (hlive : setup.isLive = true) {eng : TradeEngine} {s : Slot}
    (h : eng.Tracks key s) (hinv : eng.Inv setup) (hexits : s.order.ExitsBy exitId)
    {message : TradeMessage} (htalk : TalksOfExit key exitId message) {trades : List OrderTrade}
    (hreport : List.Forall₂ (OrderTrade.ReportedBy s.order.TakesExitFill) trades
      (message.exitFills env (eng.stateOf key))) :
    (trades = [] → (TradeEngine.handle setup env eng message).Tracks key s) ∧
      (trades ≠ [] →
        ((TradeEngine.handle setup env eng message).stateOf key).state = .cooldown) := by
  have hwf := hinv.wf key
  have hstate := h.worked.state
  have hne : (eng.stateOf key).state ≠ .idle := by simp [hstate]
  have hbar := hwf.bar hne
  have hknown := eng.lookup_of_ne_idle (fun h => hne (congrArg OrderState.state h))
  obtain ⟨hprice, hqty, _⟩ := hwf.held (Or.inr (Or.inr hstate))
  have hid : (eng.stateOf key).exitOrderId = some exitId := h.worked.exitId.trans hexits.exitOrder
  have hother : (eng.stateOf key).entryOrderId ≠ some exitId := by
    rw [h.worked.entry.orderId]
    exact hexits.entryOrder
  have hroutine : message.exitFills env (eng.stateOf key) = [] → message.IsRoutine →
      (trades = [] → (TradeEngine.handle setup env eng message).Tracks key s) ∧
        (trades ≠ [] →
          ((TradeEngine.handle setup env eng message).stateOf key).state = .cooldown) := by
    intro hnone hmessage
    rw [hnone] at hreport
    cases hreport
    refine ⟨fun _ => ?_, fun hsome => absurd rfl hsome⟩
    exact h.routine hlive hinv (by rw [hexits.exitOrder]; rfl) hmessage
  cases message with
  | pairBar bar signal => exact hroutine rfl htalk
  | shock pairKey signal => exact hroutine rfl htalk
  | cancelCheckTick order => exact hroutine rfl htalk
  | orderUpdate update =>
    exact h.exitEffect (exitEffect_orderUpdate eng update htalk hknown hid hother hbar
      ⟨hprice, hqty⟩) hreport
  | tradeRecord record =>
    exact h.exitEffect (exitEffect_tradeRecord eng record htalk hknown hid hother hbar
      ⟨hprice, hqty⟩) hreport
  | orderResponse response =>
    cases response with
    | fetchFills reqId pairKey kind result =>
      obtain ⟨rfl, rfl⟩ := htalk
      exact h.exitEffect (exitEffect_fetchFills eng reqId result hknown hbar ⟨hprice, hqty⟩)
        hreport
    | placeChase => exact htalk.elim
    | cancelOrder => exact htalk.elim

/-! ## Closed only after the whole exit -/

/-- As long as less than the position was received, the position is tracked. -/
def TrackedUntilExited (setup : Setup) (key : PairKey) (held : ℚ) (s : Slot) (eng : TradeEngine)
    (deliveries : List Delivery) : Prop :=
  ∀ n, deliveredSize (deliveries.take n) < held →
    (eng.afterAll setup (deliveries.take n)).Tracks key s

/-- The first message that brings a trade brings the whole exit. -/
def FirstBringsAll (held : ℚ) (deliveries : List Delivery) : Prop :=
  ∀ d ∈ deliveries.find? (fun d => decide (d.trades ≠ [])), held ≤ deliveredSize [d]

instance (held : ℚ) (deliveries : List Delivery) : Decidable (FirstBringsAll held deliveries) :=
  inferInstanceAs (Decidable (∀ d ∈ deliveries.find? _, held ≤ deliveredSize [d]))

theorem deliveredSize_cons_nil {d : Delivery} (h : d.trades = []) (deliveries : List Delivery) :
    deliveredSize (d :: deliveries) = deliveredSize deliveries := by
  simp [deliveredSize, h]

theorem deliveredSize_le_cons (d : Delivery) (deliveries : List Delivery) :
    deliveredSize [d] ≤ deliveredSize (d :: deliveries) := by
  apply Finset.sum_le_sum_of_subset_of_nonneg
  · intro trade htrade
    simp only [List.mem_toFinset, List.mem_flatMap, List.mem_cons] at htrade ⊢
    obtain ⟨d', hd', hmem⟩ := htrade
    rcases hd' with rfl | hd'
    · exact ⟨d', Or.inl rfl, hmem⟩
    · cases hd'
  · intro trade _ _
    exact trade.size_pos.le

theorem trackedUntilExited_iff (hlive : setup.isLive = true) {s : Slot} {held : ℚ}
    (hexits : s.order.ExitsBy exitId) {eng : TradeEngine} {deliveries : List Delivery}
    (h : DeliversExit setup key exitId s.order eng deliveries) (hinv : eng.Inv setup)
    (htracks : eng.Tracks key s) :
    TrackedUntilExited setup key held s eng deliveries ↔ FirstBringsAll held deliveries := by
  induction deliveries generalizing eng with
  | nil =>
    refine ⟨fun _ d hd => (by cases hd), fun _ n _ => ?_⟩
    rw [List.take_nil]
    exact htracks
  | cons d rest ih =>
    obtain ⟨htalk, hreport, hrest⟩ := h
    obtain ⟨hempty, hsome⟩ := @TradeEngine.Tracks.delivery setup d.env key exitId hlive eng s
      htracks hinv hexits _ htalk _ hreport
    by_cases hd : d.trades = []
    · -- the message changes nothing that counts
      have hih := ih hrest (TradeEngine.handle_inv _ _ hinv) (hempty hd)
      have hfirst : FirstBringsAll held (d :: rest) ↔ FirstBringsAll held rest := by
        simp [FirstBringsAll, hd]
      rw [hfirst, ← hih]
      constructor
      · intro hall n hn
        refine hall (n + 1) ?_
        rwa [List.take_succ_cons, deliveredSize_cons_nil hd]
      · intro hall n hn
        cases n with
        | zero => exact htracks
        | succ n =>
          rw [List.take_succ_cons, deliveredSize_cons_nil hd] at hn
          exact hall n hn
    · -- the message closes the position
      have hfirst : FirstBringsAll held (d :: rest) ↔ held ≤ deliveredSize [d] := by
        simp [FirstBringsAll, hd]
      rw [hfirst]
      constructor
      · intro hall
        by_contra hlt
        have hstill := hall 1 (not_le.mp hlt)
        have hworking : ((TradeEngine.handle setup d.env eng d.message).stateOf key).state =
            .exitWorking := hstill.worked.state
        rw [hsome hd] at hworking
        cases hworking
      · intro hle n hn
        cases n with
        | zero => exact htracks
        | succ n =>
          rw [List.take_succ_cons] at hn
          exact absurd (hle.trans (deliveredSize_le_cons d _)) (not_le.mpr hn)

/-- When a worked position is closed only after its whole exit was received: the first
message that brings an exit trade must bring as much as is held. -/
theorem tracked_until_exited_iff (hlive : setup.isLive = true) {eng : TradeEngine}
    (hreach : (engineMachine setup).Reachable eng)
    (hstate : (eng.stateOf key).state = .exitWorking)
    (hexits : (eng.stateOf key).ExitsBy exitId) {deliveries : List Delivery}
    (hdelivers : DeliversExit setup key exitId (eng.stateOf key).toOrderState eng deliveries) :
    TrackedUntilExited setup key ((eng.stateOf key).entryQty.getD 0) (eng.view.slot key) eng
        deliveries ↔
      FirstBringsAll ((eng.stateOf key).entryQty.getD 0) deliveries :=
  trackedUntilExited_iff hlive hexits hdelivers (inv_of_reachable hreach)
    ⟨OrderState.Worked.refl hstate, rfl⟩

/-- The whole entry of 20 shares was traded, and the exit order `x1` works. -/
def sampleExiting : TradeEngine :=
  sampleEngine (sampleEntering ++ [(sampleEnv 1200 "x1", sampleTrade "e1" "BUY" (1 / 2) 20)])

/-- A trade of the exit order over the user channel. -/
def sampleExitRecord (id : ℕ) (size : ℚ) (h : 0 < size) : Delivery where
  env := sampleEnv 1300 "x2"
  message := sampleTrade "x1" "SELL" (3 / 5) size
  trades := [⟨id, 3 / 5, size, h⟩]

/-- One trade of 20 shares: closed after it, and not before. -/
theorem tracked_until_whole_trade :
    TrackedUntilExited sampleSetup sampleKey ((sampleExiting.stateOf sampleKey).entryQty.getD 0)
      (sampleExiting.view.slot sampleKey) sampleExiting
      [sampleExitRecord 1 20 (by decide)] := by
  have hstate : (sampleExiting.stateOf sampleKey).state = .exitWorking := by decide +kernel
  have hexits : (sampleExiting.stateOf sampleKey).ExitsBy "x1" :=
    ⟨by decide +kernel, by decide +kernel⟩
  have hdelivers : DeliversExit sampleSetup sampleKey "x1"
      (sampleExiting.stateOf sampleKey).toOrderState sampleExiting
      [sampleExitRecord 1 20 (by decide)] := by
    decide +kernel
  refine (tracked_until_exited_iff isLive_sampleSetup (reachable_sampleEngine _) hstate hexits
    hdelivers).mpr ?_
  decide +kernel

/-- A first trade of 1 of 20 shares closes the position and releases its exposure. -/
theorem not_tracked_after_partial_exit :
    (engineMachine sampleSetup).Reachable sampleExiting ∧
      (sampleExiting.stateOf sampleKey).state = .exitWorking ∧
      (sampleExiting.stateOf sampleKey).entryQty = some 20 ∧
      DeliversExit sampleSetup sampleKey "x1" (sampleExiting.stateOf sampleKey).toOrderState
        sampleExiting [sampleExitRecord 1 1 (by decide)] ∧
      deliveredSize [sampleExitRecord 1 1 (by decide)] < 20 ∧
      sampleExiting.desk.books.risk.exposureUsed = 10 ∧
      ((sampleExiting.afterAll sampleSetup [sampleExitRecord 1 1 (by decide)]).stateOf
        sampleKey).state = .cooldown ∧
      (sampleExiting.afterAll sampleSetup
        [sampleExitRecord 1 1 (by decide)]).desk.books.risk.exposureUsed = 0 ∧
      ¬ TrackedUntilExited sampleSetup sampleKey 20 (sampleExiting.view.slot sampleKey)
        sampleExiting [sampleExitRecord 1 1 (by decide)] := by
  have hless : deliveredSize [sampleExitRecord 1 1 (by decide)] < 20 := by decide +kernel
  have hcool : ((sampleExiting.afterAll sampleSetup
      [sampleExitRecord 1 1 (by decide)]).stateOf sampleKey).state = .cooldown := by
    decide +kernel
  refine ⟨reachable_sampleEngine _, by decide +kernel, by decide +kernel, by decide +kernel,
    hless, by decide +kernel, hcool, by decide +kernel, ?_⟩
  intro hall
  have hworking := (hall 1 hless).worked.state
  rw [show ((sampleExiting.afterAll sampleSetup
    (List.take 1 [sampleExitRecord 1 1 (by decide)])).stateOf sampleKey).state = .cooldown
    from hcool] at hworking
  cases hworking

end AlphaMonitor.Trade
