import AlphaMonitor.Trade.Position
import Mathlib.Algebra.Order.BigOperators.Group.Finset

/-!
# What is held after the entry order was filled

The trades of an entry order reach the engine one by one over the user channel or
as lists over polls.  `apply_entry_fills` stops at the first fill that matches and
writes its size over the quantity, so the last message heard decides.

## Main results

- `Delivers.entry`: the quantity held is the size of one of the trades
- `accounted_iff_one_trade`: it is the sum of the trades only if there is one
-/

namespace AlphaMonitor.Trade

variable {setup : Setup} {env : Env} {key : PairKey}

/-! ## Delivering the trades of an entry order -/

/-- The fills of the entry order that the engine hears of in a message.  The response
to a poll is heard if the pair still waits for it. -/
def TradeMessage.entryFills (env : Env) (st : PairTradeState) :
    TradeMessage → List TradeFill
  | .tradeRecord record => [record.fill env.now]
  | .orderResponse (.fetchFills id _ _ result) =>
    if st.fillPollReqId = some id then result.fills else []
  | _ => []

/-- Messages of a delivery: trade records and polls of the entry order, and bars and
periodic checks between them. -/
def TalksOfEntry (key : PairKey) (st : PairTradeState) : TradeMessage → Prop
  | .tradeRecord record =>
    key = (record.pairId, record.tokenSide) ∧ st.entryOrderId = some record.orderId ∧
      st.exitOrderId ≠ some record.orderId
  | .orderResponse (.fetchFills _ pairKey kind _) => key = pairKey ∧ kind = .entry
  | message => message.IsRoutine

instance (key : PairKey) (st : PairTradeState) :
    (message : TradeMessage) → Decidable (TalksOfEntry key st message)
  | .pairBar _ _ => inferInstanceAs (Decidable True)
  | .shock _ _ => inferInstanceAs (Decidable True)
  | .cancelCheckTick _ => inferInstanceAs (Decidable True)
  | .orderUpdate _ => inferInstanceAs (Decidable False)
  | .tradeRecord _ => inferInstanceAs (Decidable (_ ∧ _ ∧ _))
  | .orderResponse (.fetchFills _ _ _ _) => inferInstanceAs (Decidable (_ ∧ _))
  | .orderResponse (.placeChase _ _ _) => inferInstanceAs (Decidable False)
  | .orderResponse (.cancelOrder _ _ _) => inferInstanceAs (Decidable False)

/-- The trades of the entry order reach the pair. -/
abbrev DeliversEntry (setup : Setup) (key : PairKey) : TradeEngine → List Delivery → Prop :=
  Delivers setup key (TalksOfEntry key) TradeMessage.entryFills
    fun st => st.toOrderState.TakesEntryFill

/-- One of the trades is what `o'` holds, or there is none and nothing changed. -/
def OrderState.HoldsOneOf (o o' : OrderState) (trades : List OrderTrade) : Prop :=
  (trades = [] ∧ o.SameEntry o') ∨
    ∃ trade ∈ trades, o'.entryQty = some trade.size ∧
      o'.entryNotional = some (trade.price * trade.size)

theorem OrderState.HoldsOneOf.append {o₁ o₂ o₃ : OrderState} {trades trades' : List OrderTrade}
    (h : o₁.HoldsOneOf o₂ trades) (h' : o₂.HoldsOneOf o₃ trades') :
    o₁.HoldsOneOf o₃ (trades ++ trades') := by
  rcases h' with ⟨rfl, hsame'⟩ | ⟨trade, hmem, hqty, hnotional⟩
  · rcases h with ⟨rfl, hsame⟩ | ⟨trade, hmem, hqty, hnotional⟩
    · exact Or.inl ⟨rfl, hsame.trans hsame'⟩
    · refine Or.inr ⟨trade, by simpa using hmem, ?_, ?_⟩
      · rw [hsame'.qty, hqty]
      · rw [hsame'.notional, hnotional]
  · exact Or.inr ⟨trade, List.mem_append_right _ hmem, hqty, hnotional⟩

/-- The engine stops at the first of the trades that a message reports. -/
theorem EntryEffect.holdsOneOf {s t : Slot} {st : PairTradeState} {fills : List TradeFill}
    {now : ℤ} (h : EntryEffect s t (entryFill? st fills) now)
    {trades : List OrderTrade}
    (hreport : List.Forall₂ (OrderTrade.ReportedBy st.TakesEntryFill) trades fills) :
    s.order.HoldsOneOf t.order trades := by
  cases hreport with
  | nil => exact Or.inl ⟨rfl, h.entry⟩
  | @cons trade fill trades fills hfirst _ =>
    obtain ⟨⟨hmatch, hside⟩, hprice, hsize⟩ := hfirst
    have htaken : entryFill? st (fill :: fills) = some fill := by
      simp only [entryFill?, List.find?_cons, hmatch, hside, Bool.and_self]
    rw [htaken] at h
    refine Or.inr ⟨trade, List.mem_cons_self, ?_, ?_⟩
    · rw [h.entry.qty]
      simp [OrderState.afterEntry, OrderState.entryFilled, hsize]
    · rw [h.entry.notional]
      simp [OrderState.afterEntry, OrderState.entryFilled, hsize, hprice]

theorem EntryEffect.holding {s t : Slot} {taken : Option TradeFill} {now : ℤ}
    (h : EntryEffect s t taken now) (hs : s.order.Holding) : t.order.Holding := by
  cases taken with
  | none =>
    rw [h.untaken rfl]
    exact hs
  | some fill => exact Or.inr (h.taken rfl)

/-- One message of a delivery. -/
theorem TalksOfEntry.holdsOneOf (hlive : setup.isLive = true) {eng : TradeEngine}
    (hinv : eng.Inv setup) (hhold : (eng.stateOf key).Holding) {message : TradeMessage}
    (htalk : TalksOfEntry key (eng.stateOf key) message) {trades : List OrderTrade}
    (hreport : List.Forall₂ (OrderTrade.ReportedBy (eng.stateOf key).TakesEntryFill) trades
      (message.entryFills env (eng.stateOf key))) :
    ((TradeEngine.handle setup env eng message).stateOf key).Holding ∧
      (eng.stateOf key).HoldsOneOf
        ((TradeEngine.handle setup env eng message).stateOf key).toOrderState trades := by
  have hwf := hinv.wf key
  have hne : (eng.stateOf key).state ≠ .idle := by
    rcases hhold with hs | hs | hs
    · simp [hs]
    · simp [hs]
    · simp [hs]
  have hbar := hwf.bar hne
  -- bars and periodic checks are chains of routine moves
  have hroutine : message.entryFills env (eng.stateOf key) = [] → message.IsRoutine →
      ((TradeEngine.handle setup env eng message).stateOf key).Holding ∧
        (eng.stateOf key).HoldsOneOf
          ((TradeEngine.handle setup env eng message).stateOf key).toOrderState trades := by
    intro hnone hmessage
    rw [hnone] at hreport
    cases hreport
    have hsteps := @TradeEngine.handle_steps setup env eng message hinv
    have hkept : (eng.stateOf key).Kept
        ((TradeEngine.handle setup env eng message).stateOf key).toOrderState := by
      refine hsteps.keyInv (P := (eng.stateOf key).Kept) ⟨hinv.wf, hinv.bars⟩ ?_
        (OrderState.Kept.refl hhold)
      intro v a t hv ha hkept hmove
      exact hkept.trans (hmove.kept hlive (ha.routine hmessage) (hv.wf key) hkept.holding)
    exact ⟨hkept.holding, Or.inl ⟨rfl, hkept.entry⟩⟩
  cases message with
  | pairBar bar signal => exact hroutine rfl htalk
  | shock pairKey signal => exact hroutine rfl htalk
  | cancelCheckTick order => exact hroutine rfl htalk
  | tradeRecord record =>
    obtain ⟨hkey, hid, hother⟩ := htalk
    have heffect := @tradeRecord_effect setup env key hlive eng record hkey hid hother hbar
    exact ⟨heffect.holding hhold, heffect.holdsOneOf hreport⟩
  | orderResponse response =>
    cases response with
    | fetchFills reqId pairKey kind result =>
      obtain ⟨rfl, rfl⟩ := htalk
      have hknown := eng.lookup_of_ne_idle (fun h => hne (congrArg OrderState.state h))
      have heffect := @fetchFills_effect setup env key hlive eng reqId result hknown hbar
      refine ⟨heffect.holding hhold, ?_⟩
      simp only [TradeMessage.entryFills] at hreport
      split at hreport
      · rename_i hreq
        simp only [TradeMessage.entryFill?, hreq, and_true, if_true] at heffect
        exact heffect.holdsOneOf hreport
      · rename_i hreq
        simp only [TradeMessage.entryFill?, hreq, false_and, if_false] at heffect
        cases hreport
        exact Or.inl ⟨rfl, heffect.entry⟩
    | placeChase => exact htalk.elim
    | cancelOrder => exact htalk.elim
  | orderUpdate => exact htalk.elim

/-- A whole delivery: what is held is one of the trades. -/
theorem DeliversEntry.holdsOneOf (hlive : setup.isLive = true) {eng : TradeEngine}
    {deliveries : List Delivery} (h : DeliversEntry setup key eng deliveries)
    (hinv : eng.Inv setup) (hhold : (eng.stateOf key).Holding) :
    (eng.stateOf key).HoldsOneOf ((eng.afterAll setup deliveries).stateOf key).toOrderState
      (deliveries.flatMap (·.trades)) := by
  induction deliveries generalizing eng with
  | nil => exact Or.inl ⟨rfl, OrderState.SameEntry.refl _⟩
  | cons d rest ih =>
    obtain ⟨htalk, hreport, hrest⟩ := h
    obtain ⟨hhold', hfirst⟩ := htalk.holdsOneOf hlive hinv hhold hreport
    rw [List.flatMap_cons]
    exact hfirst.append (ih hrest (TradeEngine.handle_inv _ _ hinv) hhold')

/-! ## The sum of the trades -/

/-- The pair accounts for these trades and no others. -/
structure PairTradeState.Accounted (st : PairTradeState) (trades : Finset OrderTrade) : Prop where
  qty : st.entryQty = some (∑ trade ∈ trades, trade.size)
  notional : st.entryNotional = some (∑ trade ∈ trades, trade.price * trade.size)

theorem PairTradeState.accounted_single {st : PairTradeState} {trade : OrderTrade}
    (hqty : st.entryQty = some trade.size)
    (hnotional : st.entryNotional = some (trade.price * trade.size)) : st.Accounted {trade} := by
  constructor
  · rw [hqty, Finset.sum_singleton]
  · rw [hnotional, Finset.sum_singleton]

/-- A pair that holds one of the trades accounts for all only if there is one. -/
theorem accounted_iff_of_holdsOneOf {o : OrderState} {st : PairTradeState}
    {order : List OrderTrade} (h : o.HoldsOneOf st.toOrderState order) (hwork : o.Entering)
    (hplanned : o.Planned) : st.Accounted order.toFinset ↔ order.toFinset.card = 1 := by
  constructor
  · intro hacc
    rcases h with ⟨rfl, hsame⟩ | ⟨trade, hmem, hqty, _⟩
    · -- nothing was reported, but a positive quantity is planned
      obtain ⟨qty, hqty, hpos⟩ := hplanned.qty hwork
      have hzero := hacc.qty
      rw [hsame.qty, hqty] at hzero
      simp only [List.toFinset_nil, Finset.sum_empty, Option.some.injEq] at hzero
      exact absurd hzero hpos.ne'
    · have hsum := hacc.qty
      rw [hqty, Option.some.injEq] at hsum
      rw [Finset.card_eq_one]
      refine ⟨trade, Finset.eq_singleton_iff_unique_mem.mpr ⟨by simpa using hmem, ?_⟩⟩
      intro other hother
      -- another trade would make the sum larger than the one that is held
      by_contra hne
      have hlt : trade.size < ∑ t ∈ order.toFinset, t.size :=
        Finset.single_lt_sum hne (by simpa using hmem) hother other.size_pos
          (fun t _ _ => t.size_pos.le)
      exact absurd hsum hlt.ne
  · intro hcard
    obtain ⟨trade, htrade⟩ := Finset.card_eq_one.mp hcard
    rw [htrade]
    rcases h with ⟨rfl, _⟩ | ⟨held, hmem, hqty, hnotional⟩
    · simp at hcard
    · have hheld : held ∈ order.toFinset := by simpa using hmem
      rw [htrade, Finset.mem_singleton] at hheld
      subst hheld
      exact PairTradeState.accounted_single hqty hnotional

/-- Two deliveries of the same trades of a working entry order, in any order and over
any messages: both account for the trades exactly if there is one trade. -/
theorem accounted_iff_one_trade (hlive : setup.isLive = true) {eng : TradeEngine}
    (hreach : (engineMachine setup).Reachable eng)
    (hwork : (eng.stateOf key).state = .entryWorking) {trades : Finset OrderTrade}
    {deliveries₁ deliveries₂ : List Delivery} (h₁ : DeliversEntry setup key eng deliveries₁)
    (hall₁ : (deliveries₁.flatMap (·.trades)).toFinset = trades)
    (h₂ : DeliversEntry setup key eng deliveries₂)
    (hall₂ : (deliveries₂.flatMap (·.trades)).toFinset = trades) :
    (((eng.afterAll setup deliveries₁).stateOf key).Accounted trades ∧
        ((eng.afterAll setup deliveries₂).stateOf key).Accounted trades ∧
        ((eng.afterAll setup deliveries₁).stateOf key).entryQty =
          ((eng.afterAll setup deliveries₂).stateOf key).entryQty ∧
        ((eng.afterAll setup deliveries₁).stateOf key).entryNotional =
          ((eng.afterAll setup deliveries₂).stateOf key).entryNotional) ↔
      trades.card = 1 := by
  have hinv := inv_of_reachable hreach
  have hplanned := @planned_of_reachable setup key eng hreach
  have hhold : (eng.stateOf key).Holding := Or.inl hwork
  have hent : (eng.stateOf key).Entering := Or.inr (Or.inr hwork)
  have hacc₁ := accounted_iff_of_holdsOneOf (h₁.holdsOneOf hlive hinv hhold) hent hplanned
  have hacc₂ := accounted_iff_of_holdsOneOf (h₂.holdsOneOf hlive hinv hhold) hent hplanned
  rw [hall₁] at hacc₁
  rw [hall₂] at hacc₂
  constructor
  · rintro ⟨hfirst, _⟩
    exact hacc₁.mp hfirst
  · intro hcard
    have hfirst := hacc₁.mpr hcard
    have hsecond := hacc₂.mpr hcard
    refine ⟨hfirst, hsecond, ?_, ?_⟩
    · rw [hfirst.qty, hsecond.qty]
    · rw [hfirst.notional, hsecond.notional]

/-- The entry order works and its fills are being polled by request 2. -/
def samplePolling : TradeEngine :=
  sampleEngine (sampleEntering ++ [(sampleEnv 1500 "x1", .cancelCheckTick [sampleKey])])

/-- Trades of 8 and of 12 shares of the entry order. -/
def sampleTradeA : OrderTrade := ⟨1, 1 / 2, 8, by decide⟩

def sampleTradeB : OrderTrade := ⟨2, 1 / 2, 12, by decide⟩

/-- A trade record of the user channel. -/
def sampleRecord (now : ℤ) (trade : OrderTrade) : Delivery where
  env := sampleEnv now "x1"
  message := sampleTrade "e1" "BUY" trade.price trade.size
  trades := [trade]

/-- The response to the poll lists the trades. -/
def samplePoll (now : ℤ) (trades : List OrderTrade) : Delivery where
  env := sampleEnv now "x1"
  message := .orderResponse (.fetchFills 2 sampleKey .entry
    ⟨trades.map fun t => ⟨some "e1", none, some "BUY", some t.price, some t.size, some 3⟩, false,
      none⟩)
  trades := trades

/-- One trade, over the user channel or in a poll. -/
theorem accounted_sampleTradeA :
    ((samplePolling.afterAll sampleSetup [sampleRecord 1600 sampleTradeA]).stateOf
        sampleKey).Accounted {sampleTradeA} ∧
      ((samplePolling.afterAll sampleSetup [samplePoll 1600 [sampleTradeA]]).stateOf
        sampleKey).Accounted {sampleTradeA} := by
  have hrecord : DeliversEntry sampleSetup sampleKey samplePolling
      [sampleRecord 1600 sampleTradeA] := by
    decide +kernel
  have hpoll : DeliversEntry sampleSetup sampleKey samplePolling
      [samplePoll 1600 [sampleTradeA]] := by
    decide +kernel
  have hwork : (samplePolling.stateOf sampleKey).state = .entryWorking := by decide +kernel
  have hboth := (accounted_iff_one_trade isLive_sampleSetup (reachable_sampleEngine _) hwork
    hrecord rfl hpoll rfl).mpr rfl
  exact ⟨hboth.1, hboth.2.1⟩

/-- Two trades of 20 shares together: the user channel leaves the second, the poll
the first. -/
theorem not_accounted_two_trades :
    (engineMachine sampleSetup).Reachable samplePolling ∧
      (samplePolling.stateOf sampleKey).state = .entryWorking ∧
      DeliversEntry sampleSetup sampleKey samplePolling
        [sampleRecord 1600 sampleTradeA, sampleRecord 1700 sampleTradeB] ∧
      ¬ ((samplePolling.afterAll sampleSetup
          [sampleRecord 1600 sampleTradeA, sampleRecord 1700 sampleTradeB]).stateOf
        sampleKey).Accounted {sampleTradeA, sampleTradeB} ∧
      DeliversEntry sampleSetup sampleKey samplePolling
        [samplePoll 1600 [sampleTradeA, sampleTradeB]] ∧
      ¬ ((samplePolling.afterAll sampleSetup
          [samplePoll 1600 [sampleTradeA, sampleTradeB]]).stateOf
        sampleKey).Accounted {sampleTradeA, sampleTradeB} := by
  have hsum : (∑ trade ∈ {sampleTradeA, sampleTradeB}, trade.size) = 20 := by decide +kernel
  have hrecords : ((samplePolling.afterAll sampleSetup
      [sampleRecord 1600 sampleTradeA, sampleRecord 1700 sampleTradeB]).stateOf
        sampleKey).entryQty = some 12 := by decide +kernel
  have hpoll : ((samplePolling.afterAll sampleSetup
      [samplePoll 1600 [sampleTradeA, sampleTradeB]]).stateOf sampleKey).entryQty = some 8 := by
    decide +kernel
  refine ⟨reachable_sampleEngine _, by decide +kernel, by decide +kernel, ?_, by decide +kernel, ?_⟩
  · intro hacc
    have hqty := hacc.qty
    rw [hsum, hrecords] at hqty
    exact absurd hqty (by decide)
  · intro hacc
    have hqty := hacc.qty
    rw [hsum, hpoll] at hqty
    exact absurd hqty (by decide)

end AlphaMonitor.Trade
