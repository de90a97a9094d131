import AlphaMonitor.Trade.Runs
import Mathlib.Algebra.Order.BigOperators.Group.List
import Mathlib.Tactic.Linarith

/-!
# Messages about the entry order

What an order update, a trade record, a cancel response or a fill poll about the
entry order of a pair does to the position of the pair.

## Main results

- `retained_iff`: when such a message leaves an open position alone
-/

namespace AlphaMonitor.Trade

variable {setup : Setup} {env : Env} {key : PairKey}

/-! ## What a message does to the entry -/

theorem TradeEngine.lookup_of_ne_idle (eng : TradeEngine)
    (h : (eng.stateOf key).toOrderState ≠ OrderState.idle) :
    eng.states.lookup key = some (eng.stateOf key) := by
  unfold stateOf at h ⊢
  cases hst : eng.states.lookup key with
  | none =>
    rw [hst] at h
    exact absurd rfl h
  | some st => rfl

theorem TradeEngine.lookup_of_entryId (eng : TradeEngine) {orderId : String}
    (h : (eng.stateOf key).entryOrderId = some orderId) :
    eng.states.lookup key = some (eng.stateOf key) := by
  apply eng.lookup_of_ne_idle
  intro hidle
  rw [hidle] at h
  cases h

/-- What `onKnown` leaves of its own pair. -/
theorem TradeEngine.slot_onKnown (eng : TradeEngine) {f : PairTradeState → Desk × PairTradeState}
    (h : eng.states.lookup key = some (eng.stateOf key)) :
    (eng.onKnown key f).view.slot key = slotOf (f (eng.stateOf key)) := by
  unfold onKnown
  rw [h]
  simp only
  rw [view_putBack, View.slot_put_self]

/-- A fill on the side of the entry is no exit fill. -/
theorem fillSideMatches_neg {direction : ℤ} (hdir : direction ≠ 0) {side : Option String}
    (h : fillSideMatches direction side = true) : fillSideMatches (-direction) side = false := by
  have hflip : decide (-direction > 0) = !decide (direction > 0) := by
    rw [← decide_not, decide_eq_decide]
    omega
  cases side with
  | none => rfl
  | some raw =>
    simp only [fillSideMatches, hflip] at h ⊢
    split at h
    · simp_all
    · split at h
      · simp_all
      · split at h
        · simp_all
        · split at h
          · simp_all
          · simp_all

theorem applyExitFills_none (cfg : TradeConfig) (desk : Desk) (st : PairTradeState)
    (bar : Bars1sPair) {fills : List TradeFill} (h : exitFill? st fills = none) :
    applyExitFills cfg desk st bar fills = (desk, st) := by
  unfold applyExitFills
  split
  · rfl
  · rw [h]

theorem EntryEffect.direction {s t : Slot} {taken : Option TradeFill} {now : ℤ}
    (h : EntryEffect s t taken now) : t.order.direction = s.order.direction := by
  rw [h.entry.direction]
  cases taken <;> rfl

/-- Fills from the user channel that match the entry order, and are no exit fills. -/
theorem applyWsFills_effect (hlive : setup.isLive = true) (signals : List ShockSignal)
    (desk : Desk) (st : PairTradeState) (matchesExit : Bool) (fills : List TradeFill)
    (hbar : st.lastBar.isSome = true) (hne : fills ≠ [])
    (hexit : matchesExit = true →
      ∀ fill ∈ fills, fillSideMatches (-st.direction) fill.side = false) :
    EntryEffect (slotOf (desk, st))
      (slotOf (applyWsFills setup env signals desk st key true matchesExit fills))
      (entryFill? st fills) env.now := by
  unfold applyWsFills
  split
  · rename_i hlast
    rw [hlast] at hbar
    cases hbar
  · rename_i bar hlast
    simp only [if_neg hne, if_true]
    -- the poll bookkeeping is no part of the slot
    set desk' : Desk := { desk with req := { desk.req with
      fillPollBackoffMs := 0, fillPollBackoffUntilMs := none } }
    set st' : PairTradeState := { st with fillPollReqId := none, lastFillPollMs := some env.now }
    have heffect := @applyEntryFillsAndCheck_effect setup env key hlive signals
      desk' st' bar st.lastFlow fills
    generalize applyEntryFillsAndCheck setup env signals desk' st' bar st.lastFlow fills key = mid
      at heffect ⊢
    obtain ⟨desk₂, st₂⟩ := mid
    have hdir : st₂.direction = st.direction := heffect.direction
    simp only
    split
    · rename_i hmatch
      have hnone : exitFill? st₂ fills = none := by
        unfold exitFill?
        rw [List.find?_eq_none]
        intro fill hfill
        simp [hdir, hexit hmatch fill hfill]
      rw [applyExitFills_none setup.cfg desk₂ st₂ bar hnone]
      exact heffect
    · exact heffect

/-- A message that fills and cancels nothing. -/
theorem EntryEffect.of_order {s t : Slot} (now : ℤ) (horder : t.order = s.order)
    (hcounters : t.desk.counters = s.desk.counters) : EntryEffect s t none now := by
  refine ⟨?_, fun _ => horder, fun h => (by cases h), hcounters⟩
  simp only [OrderState.afterEntry, horder]
  exact OrderState.SameEntry.refl _

/-- An update of the entry order that cancels nothing. -/
theorem applyOrderUpdate_effect (hlive : setup.isLive = true) (eng : TradeEngine)
    (update : OpinionUserOrderUpdate) (desk : Desk) (st : PairTradeState)
    (hbar : st.lastBar.isSome = true) (hcancel : update.isCancel = false) :
    EntryEffect (slotOf (desk, st))
      (slotOf (TradeEngine.applyOrderUpdate setup env eng update key desk st true false))
      ((TradeMessage.orderUpdate update).entryFill? env st) env.now := by
  unfold TradeEngine.applyOrderUpdate TradeMessage.entryFill?
  simp only [hcancel, Bool.false_eq_true, if_false, true_and]
  split
  · have hne : [update.fill env.now] ≠ [] := List.cons_ne_nil _ _
    exact applyWsFills_effect hlive (eng.shockSignals key) desk st false _ hbar hne
      (fun h => by cases h)
  · split
    · simp only [if_true]
      generalize hpoll : desk.req.maybeEnqueueFillPoll setup env st key .entry = r
      obtain ⟨req, st'⟩ := r
      obtain ⟨horder, _⟩ := Requests.maybeEnqueueFillPoll_cases setup env _ _ _ _ hpoll
      exact EntryEffect.of_order env.now horder rfl
    · exact EntryEffect.of_order env.now rfl rfl

theorem orderUpdate_effect (hlive : setup.isLive = true) (eng : TradeEngine)
    (update : OpinionUserOrderUpdate) (hkey : key = (update.pairId, update.tokenSide))
    (hid : (eng.stateOf key).entryOrderId = some update.orderId)
    (hother : (eng.stateOf key).exitOrderId ≠ some update.orderId)
    (hbar : (eng.stateOf key).lastBar.isSome = true) (hcancel : update.isCancel = false) :
    EntryEffect (eng.view.slot key)
      ((TradeEngine.handle setup env eng (.orderUpdate update)).view.slot key)
      ((TradeMessage.orderUpdate update).entryFill? env (eng.stateOf key)) env.now := by
  subst hkey
  have hknown := eng.lookup_of_entryId hid
  simp only [TradeEngine.handle, TradeEngine.handleOpinionOrderUpdate]
  rw [TradeEngine.slot_onKnown (TradeEngine.noteUserMessage env eng) hknown]
  have hsame : (TradeEngine.noteUserMessage env eng).stateOf (update.pairId, update.tokenSide) =
      eng.stateOf (update.pairId, update.tokenSide) := rfl
  simp only [hsame, hid, hother, decide_true, decide_false, Bool.true_or, if_true]
  exact applyOrderUpdate_effect hlive _ update (TradeEngine.noteUserMessage env eng).desk _ hbar
    hcancel

theorem tradeRecord_effect (hlive : setup.isLive = true) (eng : TradeEngine)
    (record : OpinionUserTradeRecord) (hkey : key = (record.pairId, record.tokenSide))
    (hid : (eng.stateOf key).entryOrderId = some record.orderId)
    (hother : (eng.stateOf key).exitOrderId ≠ some record.orderId)
    (hbar : (eng.stateOf key).lastBar.isSome = true) :
    EntryEffect (eng.view.slot key)
      ((TradeEngine.handle setup env eng (.tradeRecord record)).view.slot key)
      ((TradeMessage.tradeRecord record).entryFill? env (eng.stateOf key)) env.now := by
  subst hkey
  have hknown := eng.lookup_of_entryId hid
  simp only [TradeEngine.handle, TradeEngine.handleOpinionTradeRecord]
  rw [TradeEngine.slot_onKnown (TradeEngine.noteUserMessage env eng) hknown]
  have hsame : (TradeEngine.noteUserMessage env eng).stateOf (record.pairId, record.tokenSide) =
      eng.stateOf (record.pairId, record.tokenSide) := rfl
  simp only [hsame, hid, hother, decide_true, decide_false, Bool.true_or, if_true]
  have hne : [record.fill env.now] ≠ [] := List.cons_ne_nil _ _
  exact applyWsFills_effect hlive _ (TradeEngine.noteUserMessage env eng).desk _ false _ hbar hne
    (fun h => by cases h)

/-- A poll of entry fills that the pair does not wait for changes nothing of it; one
it waits for is like a message of the user channel. -/
theorem fetchFills_effect (hlive : setup.isLive = true) (eng : TradeEngine) (reqId : ℕ)
    (result : FillPollResult) (hknown : eng.states.lookup key = some (eng.stateOf key))
    (hbar : (eng.stateOf key).lastBar.isSome = true) :
    EntryEffect (eng.view.slot key)
      ((TradeEngine.handle setup env eng
        (.orderResponse (.fetchFills reqId key .entry result))).view.slot key)
      ((TradeMessage.orderResponse (.fetchFills reqId key .entry result)).entryFill? env
        (eng.stateOf key)) env.now := by
  simp only [TradeEngine.handle, TradeEngine.handleOrderResponse, TradeEngine.handleFillResponse,
    TradeMessage.entryFill?, and_true]
  rw [TradeEngine.slot_onKnown eng hknown]
  by_cases hreq : (eng.stateOf key).fillPollReqId = some reqId
  · simp only [hreq, ne_eq, not_true_eq_false, if_false, if_true]
    set desk : Desk := { eng.desk with
      req := eng.desk.req.updateFillPollBackoff setup env result.rateLimited result.error.isNone }
    set st : PairTradeState := { eng.stateOf key with fillPollReqId := none }
    split
    · rename_i hnone
      rw [hnone] at hbar
      cases hbar
    · rename_i bar _
      split
      · rename_i hempty
        rw [hempty]
        exact EntryEffect.of_order env.now rfl rfl
      · have heffect := @applyEntryFillsAndCheck_effect setup env key hlive
          (eng.shockSignals key) desk st bar st.lastFlow result.fills
        exact ⟨heffect.entry, heffect.untaken, heffect.taken, heffect.counters⟩
  · simp only [ne_eq, hreq, not_false_eq_true, if_true, if_false]
    exact EntryEffect.of_order env.now rfl rfl

/-! ## An open position and its entry order -/

/-- The message is about the entry order of the pair: it names the order, which is
not the exit order, or it answers a poll of its fills. -/
def ConcernsEntry (key : PairKey) (st : PairTradeState) : TradeMessage → Prop
  | .orderUpdate update =>
    key = (update.pairId, update.tokenSide) ∧ st.entryOrderId = some update.orderId ∧
      st.exitOrderId ≠ some update.orderId
  | .tradeRecord record =>
    key = (record.pairId, record.tokenSide) ∧ st.entryOrderId = some record.orderId ∧
      st.exitOrderId ≠ some record.orderId
  | .orderResponse (.cancelOrder _ orderId _) => st.entryOrderId = some orderId
  | .orderResponse (.fetchFills _ pairKey kind _) => key = pairKey ∧ kind = .entry
  | _ => False

/-- The message says that an order was cancelled. -/
def TradeMessage.reportsCancel : TradeMessage → Bool
  | .orderUpdate update => update.isCancel
  | _ => false

/-- The position of `o` is still open in `o'`, and nothing bought is forgotten; `taken`
is the entry fill that was added, if any. -/
structure OrderState.Retained (o o' : OrderState) (taken : Option TradeFill) : Prop where
  isOpen : o'.Open
  ts : o'.entryTsMs.isSome = true
  price : o'.entryPrice.isSome = true
  qty : ∀ held, o.entryQty = some held → ∃ now, o'.entryQty = some now ∧ held ≤ now
  untouched : taken = none → o.SameEntry o'

theorem OrderState.Retained.of_sameEntry {live hasBar : Bool} {o o' : OrderState}
    {taken : Option TradeFill} (hwf : o.Wf live hasBar) (hopen : o.Open) (hopen' : o'.Open)
    (hsame : o.SameEntry o') : o.Retained o' taken := by
  obtain ⟨hprice, _, _, hts, _⟩ := hwf.held (Or.inr hopen)
  refine ⟨hopen', ?_, ?_, ?_, fun _ => hsame⟩
  · rw [hsame.ts]
    exact hts
  · rw [hsame.price]
    exact hprice
  · intro held hheld
    exact ⟨held, by rw [hsame.qty, hheld], le_rfl⟩

/-- The entry fill in a message is at least as large as what is held. -/
def CoversHeld (st : PairTradeState) (taken : Option TradeFill) : Prop :=
  ∀ size ∈ taken.bind (·.size), ∀ held ∈ st.entryQty, held ≤ size

instance (st : PairTradeState) (taken : Option TradeFill) : Decidable (CoversHeld st taken) :=
  inferInstanceAs (Decidable (∀ size ∈ taken.bind (·.size), ∀ held ∈ st.entryQty, held ≤ size))

/-- For a message with this effect, keeping the position is a matter of sizes. -/
theorem EntryEffect.retained_iff_untaken {s t : Slot} {taken : Option TradeFill} {now : ℤ}
    {st : PairTradeState} (h : EntryEffect s t taken now) {live hasBar : Bool}
    (hs : s.order = st.toOrderState) (hwf : s.order.Wf live hasBar) (hopen : s.order.Open) :
    s.order.Retained t.order taken ↔ CoversHeld st taken := by
  constructor
  · intro hkeep size hsize held hheld
    obtain ⟨fill, rfl, hfill⟩ := Option.bind_eq_some_iff.mp hsize
    obtain ⟨now', hnow', hle⟩ := hkeep.qty held (by rw [hs]; exact hheld)
    have hqty := h.entry.qty
    simp only [OrderState.afterEntry, OrderState.entryFilled, hfill, Option.some_or] at hqty
    rw [hqty] at hnow'
    cases hnow'
    exact hle
  · intro hcovers
    cases taken with
    | none =>
      have horder := h.untaken rfl
      exact OrderState.Retained.of_sameEntry hwf hopen (by rw [horder]; exact hopen) h.entry
    | some fill =>
      obtain ⟨hprice, _, _, _⟩ := hwf.held (Or.inr hopen)
      refine ⟨h.taken rfl, ?_, ?_, ?_, fun hnone => by cases hnone⟩
      · rw [h.entry.ts]
        simp [OrderState.afterEntry, OrderState.entryFilled]
      · rw [h.entry.price]
        simp [OrderState.afterEntry, OrderState.entryFilled, hprice]
      · intro held hheld
        have hqty := h.entry.qty
        simp only [OrderState.afterEntry, OrderState.entryFilled] at hqty
        cases hsize : fill.size with
        | none => exact ⟨held, by rw [hqty, hsize, hheld]; rfl, le_rfl⟩
        | some size =>
          refine ⟨size, by rw [hqty, hsize]; rfl, ?_⟩
          have hheld' : held ∈ st.entryQty := by
            rw [← hs]
            exact hheld
          exact hcovers size (by simpa using hsize) held hheld'

/-- A cancel response never reaches an open position through its entry order: such a
position waits for no cancellation of it. -/
theorem cancelResponse_stillOpen {eng : TradeEngine}
    (hinv : eng.Inv setup) (hopen : (eng.stateOf key).Open) (reqId : ℕ) (orderId : String)
    (result : CancelResult) :
    (((TradeEngine.handle setup env eng
      (.orderResponse (.cancelOrder reqId orderId result))).stateOf key).Open) ∧
      (eng.stateOf key).SameEntry
        ((TradeEngine.handle setup env eng
          (.orderResponse (.cancelOrder reqId orderId result))).stateOf key).toOrderState := by
  have hsteps := @TradeEngine.handle_steps setup env eng
    (.orderResponse (.cancelOrder reqId orderId result)) hinv
  have hkeep := Lib.Chain.inv
    (fun v : View => v.Inv setup ∧ (v.order key).Open ∧
      (eng.stateOf key).SameEntry (v.order key)) ?_ hsteps
    ⟨⟨hinv.wf, hinv.bars⟩, hopen, OrderState.SameEntry.refl _⟩
  · exact hkeep.2
  rintro v ⟨key', a⟩ w ⟨hv, hvopen, hvsame⟩ hallow hmove
  refine ⟨hmove.inv hv, ?_⟩
  obtain ⟨t, ht, rfl⟩ := hmove
  by_cases hkey : key = key'
  · subst hkey
    rw [View.put_order_self]
    have hwf := hv.wf key
    rcases hallow with ha | ⟨_, ha | ha⟩
    · simp only at ha
      subst ha
      cases ht with
      | upkeep hup =>
        have hstill := hup.stillOpen hvopen
        exact ⟨hstill.isOpen, hvsame.trans hstill.entry⟩
    · simp only at ha
      subst ha
      have hnone := (hwf.openEntry hvopen).2
      cases ht with
      | cancelEntry _ hcause _ _ =>
        simp only [Cause.OfEntry] at hcause
        rw [show (v.slot key).order.entryCancelReqId = none from hnone] at hcause
        cases hcause
      | abandonEntry _ hcause _ =>
        simp only [Cause.OfEntry] at hcause
        rw [show (v.slot key).order.entryCancelReqId = none from hnone] at hcause
        cases hcause
    · simp only at ha
      subst ha
      cases ht with
      | cancelExit _ hcause => exact ⟨hvopen, hvsame.trans ⟨rfl, rfl, rfl, rfl, rfl, rfl, rfl, rfl⟩⟩
  · rw [View.put_order_of_ne v t hkey]
    exact ⟨hvopen, hvsame⟩

theorem entryCancelled_state (desk : Desk) (st : PairTradeState) :
    (TradeEngine.entryCancelled setup desk st key).2.state = .cooldown := by
  unfold TradeEngine.entryCancelled
  split
  · rfl
  · rfl

/-- An update that reports the cancellation of the entry order sends the pair to its
cooldown, whatever it holds. -/
theorem cancelUpdate_cooldown (eng : TradeEngine) (update : OpinionUserOrderUpdate)
    (hkey : key = (update.pairId, update.tokenSide))
    (hid : (eng.stateOf key).entryOrderId = some update.orderId)
    (hcancel : update.isCancel = true) :
    ((TradeEngine.handle setup env eng (.orderUpdate update)).stateOf key).state = .cooldown := by
  subst hkey
  have hknown := eng.lookup_of_entryId hid
  have hslot : ((TradeEngine.handle setup env eng (.orderUpdate update)).view.slot
      (update.pairId, update.tokenSide)).order.state = .cooldown := by
    simp only [TradeEngine.handle, TradeEngine.handleOpinionOrderUpdate]
    rw [TradeEngine.slot_onKnown (TradeEngine.noteUserMessage env eng) hknown]
    have hsame : (TradeEngine.noteUserMessage env eng).stateOf (update.pairId, update.tokenSide) =
        eng.stateOf (update.pairId, update.tokenSide) := rfl
    simp only [hsame, hid, decide_true, Bool.true_or, if_true, TradeEngine.applyOrderUpdate,
      hcancel, slotOf_order]
    exact entryCancelled_state _ _
  exact hslot

/-- When a message about the entry order leaves an open position alone: it must not
report a cancellation, and a fill in it must be at least as large as what is held. -/
theorem retained_iff (hlive : setup.isLive = true) {eng : TradeEngine}
    (hreach : (engineMachine setup).Reachable eng) (hopen : (eng.stateOf key).Open)
    (message : TradeMessage) (hmsg : ConcernsEntry key (eng.stateOf key) message) :
    (eng.stateOf key).Retained
        ((TradeEngine.handle setup env eng message).stateOf key).toOrderState
        (message.entryFill? env (eng.stateOf key)) ↔
      message.reportsCancel = false ∧
        CoversHeld (eng.stateOf key) (message.entryFill? env (eng.stateOf key)) := by
  have hinv := inv_of_reachable hreach
  have hwf := hinv.wf key
  have hne : (eng.stateOf key).state ≠ .idle := by
    rcases hopen with hs | hs
    · simp [hs]
    · simp [hs]
  have hbar := hwf.bar hne
  have hknown := eng.lookup_of_ne_idle (fun h => hne (congrArg OrderState.state h))
  cases message with
  | orderUpdate update =>
    obtain ⟨hkey, hid, hother⟩ := hmsg
    by_cases hcancel : update.isCancel = true
    · have hcool := @cancelUpdate_cooldown setup env key eng update hkey hid hcancel
      constructor
      · intro hkeep
        rcases hkeep.isOpen with hs | hs
        · rw [hcool] at hs
          cases hs
        · rw [hcool] at hs
          cases hs
      · rintro ⟨hno, _⟩
        simp only [TradeMessage.reportsCancel, hcancel] at hno
        cases hno
    · have heffect := @orderUpdate_effect setup env key hlive eng update hkey hid hother hbar
        (by simpa using hcancel)
      rw [← EntryEffect.retained_iff_untaken heffect rfl hwf hopen]
      simp only [TradeMessage.reportsCancel, hcancel, true_and]
      exact Iff.rfl
  | tradeRecord record =>
    obtain ⟨hkey, hid, hother⟩ := hmsg
    have heffect := @tradeRecord_effect setup env key hlive eng record hkey hid hother hbar
    simp only [TradeMessage.reportsCancel, true_and]
    exact EntryEffect.retained_iff_untaken heffect rfl hwf hopen
  | orderResponse response =>
    cases response with
    | placeChase => exact hmsg.elim
    | cancelOrder reqId orderId result =>
      obtain ⟨hopen', hsame⟩ := @cancelResponse_stillOpen setup env key eng hinv hopen reqId orderId
        result
      refine ⟨fun _ => ⟨rfl, fun size hsize => by cases hsize⟩, fun _ => ?_⟩
      exact OrderState.Retained.of_sameEntry hwf hopen hopen' hsame
    | fetchFills reqId pairKey kind result =>
      obtain ⟨rfl, rfl⟩ := hmsg
      have heffect := @fetchFills_effect setup env key hlive eng reqId result hknown hbar
      simp only [TradeMessage.reportsCancel, true_and]
      exact EntryEffect.retained_iff_untaken heffect rfl hwf hopen
  | pairBar => exact hmsg.elim
  | shock => exact hmsg.elim
  | cancelCheckTick => exact hmsg.elim

/-- Eight of twenty shares of the entry order were traded. -/
def partlyFilled : TradeEngine :=
  sampleEngine (sampleEntering ++ [(sampleEnv 1200 "x1", sampleTrade "e1" "BUY" (1 / 2) 8)])

/-- The remaining twelve shares are traded: the position stays open. -/
theorem retained_second_trade :
    (partlyFilled.stateOf sampleKey).Retained
      ((TradeEngine.handle sampleSetup (sampleEnv 1300 "x2") partlyFilled
        (sampleTrade "e1" "BUY" (1 / 2) 12)).stateOf sampleKey).toOrderState
      ((sampleTrade "e1" "BUY" (1 / 2) 12).entryFill? (sampleEnv 1300 "x2")
        (partlyFilled.stateOf sampleKey)) := by
  refine (retained_iff isLive_sampleSetup (reachable_sampleEngine _) ?_ _ ?_).mpr ⟨rfl, ?_⟩
  · decide +kernel
  · exact ⟨rfl, by decide +kernel, by decide +kernel⟩
  · decide +kernel

/-- The exchange cancels the remainder of the order: the position is dropped. -/
theorem not_retained_cancelled_remainder :
    (engineMachine sampleSetup).Reachable partlyFilled ∧ (partlyFilled.stateOf sampleKey).Open ∧
      (partlyFilled.stateOf sampleKey).entryQty = some 8 ∧
      ConcernsEntry sampleKey (partlyFilled.stateOf sampleKey) (sampleCancelled "e1") ∧
      ¬ ((TradeEngine.handle sampleSetup (sampleEnv 1300 "x2") partlyFilled
        (sampleCancelled "e1")).stateOf sampleKey).Open ∧
      ¬ (partlyFilled.stateOf sampleKey).Retained
        ((TradeEngine.handle sampleSetup (sampleEnv 1300 "x2") partlyFilled
          (sampleCancelled "e1")).stateOf sampleKey).toOrderState
        ((sampleCancelled "e1").entryFill? (sampleEnv 1300 "x2")
          (partlyFilled.stateOf sampleKey)) := by
  have hopen : ¬ ((TradeEngine.handle sampleSetup (sampleEnv 1300 "x2") partlyFilled
      (sampleCancelled "e1")).stateOf sampleKey).Open := by
    decide +kernel
  refine ⟨reachable_sampleEngine _, ?_, ?_, ⟨rfl, ?_, ?_⟩, hopen, fun hkeep => hopen hkeep.isOpen⟩
  · decide +kernel
  · decide +kernel
  · decide +kernel
  · decide +kernel

end AlphaMonitor.Trade
