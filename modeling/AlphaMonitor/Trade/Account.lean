import AlphaMonitor.Trade.CancelTargets
import AlphaMonitor.Trade.News

/-!
# Fills that race with responses

The trades of a pair's orders are announced on the user channel at any time: before the
response to the placement, while a cancel is on its way, and more than once.  The ledger
below counts each announced trade once, and is compared with what the pair holds.

## Main results

- `TradeEngine.handle_held`: what a pair holds after a message
- `fills_accounted`: when the pair holds what was bought and not sold, all along a run
-/

namespace AlphaMonitor.Trade

variable {setup : Setup} {env : Env} {key : PairKey}

/-! ## What is held -/

theorem OrderState.held_of_not_open {o : OrderState} (h : ¬ o.Open) : o.held = 0 := if_neg h

theorem OrderState.held_of_open {o : OrderState} (h : o.Open) : o.held = o.entryQty.getD 0 :=
  if_pos h

theorem OrderState.held_congr {o o' : OrderState} (hopen : o'.Open ↔ o.Open)
    (hqty : o'.entryQty = o.entryQty) : o'.held = o.held := by
  unfold OrderState.held
  simp only [hopen, hqty]

/-- Without news a pair holds what it held. -/
theorem Move.held (hlive : setup.isLive = true) {s t : Slot} {a : Act}
    (h : Move setup key s a t) (ha : a.Plain) (hwf : s.order.Wf setup.isLive s.hasBar) :
    t.order.held = s.order.held := by
  cases h.plainEffect hlive ha hwf with
  | closed hno hno' _ => rw [OrderState.held_of_not_open hno, OrderState.held_of_not_open hno']
  | kept hstate hqty _ _ _ =>
    exact OrderState.held_congr (by simp [OrderState.Open, hstate]) hqty
  | exitPlaced qty prices result hopen _ _ _ _ ht =>
    -- placing an exit order changes neither the state's side nor the quantity
    rw [ht]
    apply OrderState.held_congr
    · exact iff_of_true (Or.inr (OrderState.exitPlaced_state _ result)) hopen
    · exact (OrderState.exitPlaced_sameEntry _ result).qty

/-- What a pair with the orders `o` holds after the news. -/
def News.heldAfter (o : OrderState) : Option News → ℚ
  | some (.entryFill fill) => (fill.size.or o.entryQty).getD 0
  | some .exitFill => 0
  | some .entryCancelled => 0
  | some .exitCancelled => o.held
  | none => o.held

theorem EngineSteps.held (hlive : setup.isLive = true) {v w : View}
    (h : EngineSteps setup (fun _ a => a.1 = key → a.2.Plain) v w) (hv : v.Inv setup) :
    (w.order key).held = (v.order key).held := by
  refine h.keyInv (P := fun o => o.held = (v.order key).held) hv ?_ rfl
  intro u a t hu ha hheld hmove
  exact (hmove.held hlive (ha rfl) (hu.wf key)).trans hheld

theorem Told.held (hlive : setup.isLive = true) {v : View} {news : Option News} {t : Slot}
    (h : Told setup key (v.slot key) news t) (hv : v.Inv setup) :
    t.order.held = News.heldAfter (v.order key) news := by
  cases h with
  | nothing h =>
    have hsteps : EngineSteps setup (fun _ a => a.1 = key → a.2.Plain) v (v.put key t) :=
      Steps.lift rfl (fun _ _ ha _ => Or.inr ha) h
    have hheld := hsteps.held hlive hv
    rwa [View.put_order_self] at hheld
  | @entryFill fill u _ h hwork =>
    -- the fill replaces the quantity, where it brings a size of its own
    have hopen : u.order.Open := by
      cases h
      exact Or.inl rfl
    have hqty : u.order.entryQty = fill.size.or (v.order key).entryQty := by
      cases h
      rfl
    -- the checks that follow leave the entry alone
    have hframe := hwork.frame hlive hopen
    rw [OrderState.held_of_open hframe.isOpen, hframe.entry.qty, hqty]
    rfl
  | exitFill h =>
    cases h
    exact OrderState.held_of_not_open (OrderState.not_open_cooldown _)
  | entryCancelled h =>
    cases h with
    | cancelEntry => exact OrderState.held_of_not_open (OrderState.not_open_cooldown _)
    | abandonEntry => exact OrderState.held_of_not_open (OrderState.not_open_cooldown _)
  | exitCancelled h =>
    cases h
    exact OrderState.held_congr Iff.rfl rfl

/-- What a pair holds after a message. -/
theorem TradeEngine.handle_held (hlive : setup.isLive = true) (eng : TradeEngine)
    (hinv : eng.Inv setup) (message : TradeMessage) :
    ((handle setup env eng message).stateOf key).held =
      News.heldAfter (eng.stateOf key).toOrderState (message.news setup env eng key) := by
  have hview : eng.view.Inv setup := ⟨hinv.wf, hinv.bars⟩
  -- the held quantity only depends on the view
  show ((handle setup env eng message).view.order key).held = _
  rcases @handle_told setup env key hlive eng hinv message with ⟨t, htold, ht⟩ | ⟨hnone, hsteps⟩
  · rw [ht, View.put_order_self]
    exact htold.held hlive hview
  · have hplain : EngineSteps setup (fun _ a => a.1 = key → a.2.Plain) eng.view
        (handle setup env eng message).view :=
      Lib.Chain.mono (fun _ _ ha hkey => Or.inl (ha hkey)) hsteps
    rw [hnone, hplain.held hlive hview]
    rfl

/-! ## Without news -/

/-- A message of the user channel. -/
def TradeMessage.OnUserChannel : TradeMessage → Prop
  | .orderUpdate _ => True
  | .tradeRecord _ => True
  | _ => False

instance : DecidablePred TradeMessage.OnUserChannel
  | .orderUpdate _ => inferInstanceAs (Decidable True)
  | .tradeRecord _ => inferInstanceAs (Decidable True)
  | .pairBar _ _ => inferInstanceAs (Decidable False)
  | .shock _ _ => inferInstanceAs (Decidable False)
  | .cancelCheckTick _ => inferInstanceAs (Decidable False)
  | .orderResponse _ => inferInstanceAs (Decidable False)

section Untold

variable (signals : List ShockSignal) (desk : Desk) {st : PairTradeState} {orderId : String}
  {fill : TradeFill}

theorem applyWsFills_untold (hnone : st.fillNews orderId fill = none) :
    (applyWsFills setup env signals desk st key (decide (st.entryOrderId = some orderId))
      (decide (st.exitOrderId = some orderId)) [fill]).2.toOrderState = st.toOrderState := by
  -- neither order takes the fill, so both appliers fall through
  have hentry : st.entryOrderId = some orderId → entryFill? st [fill] = none := by
    intro hid
    by_contra hsome
    rw [PairTradeState.fillNews, if_pos ⟨hid, Option.isSome_iff_ne_none.mpr hsome⟩] at hnone
    cases hnone
  have hexit : st.exitOrderId = some orderId → exitFill? st [fill] = none := by
    intro hid
    by_contra hsome
    unfold PairTradeState.fillNews at hnone
    rw [if_pos (And.intro hid (Option.isSome_iff_ne_none.mpr hsome))] at hnone
    split at hnone
    · cases hnone
    · cases hnone
  unfold applyWsFills
  split
  · rfl
  · rename_i bar _
    simp only [if_neg (List.cons_ne_nil _ _)]
    -- the handler has cleared the poll before it tries the orders
    set desk' : Desk := { desk with req := { desk.req with
      fillPollBackoffMs := 0, fillPollBackoffUntilMs := none } }
    set st' : PairTradeState := { st with fillPollReqId := none, lastFillPollMs := some env.now }
    have hfirst : (if decide (st.entryOrderId = some orderId) = true then
        applyEntryFillsAndCheck setup env signals desk' st' bar st.lastFlow [fill] key
        else (desk', st')) = (desk', st') := by
      split
      · rename_i hid
        exact applyEntryFillsAndCheck_none signals desk' st' bar _
          (hentry (of_decide_eq_true hid))
      · rfl
    rw [hfirst]
    simp only
    split
    · rename_i hid
      rw [applyExitFills_none setup.cfg desk' st' bar (hexit (of_decide_eq_true hid))]
    · rfl

theorem applyOrderUpdate_untold (eng : TradeEngine) (update : OpinionUserOrderUpdate)
    (hmatch : st.entryOrderId = some update.orderId ∨ st.exitOrderId = some update.orderId)
    (hnone : st.updateNews update env.now = none) :
    (TradeEngine.applyOrderUpdate setup env eng update key desk st
      (decide (st.entryOrderId = some update.orderId))
      (decide (st.exitOrderId = some update.orderId))).2.toOrderState = st.toOrderState := by
  unfold PairTradeState.updateNews at hnone
  unfold TradeEngine.applyOrderUpdate
  by_cases hcancel : update.isCancel = true
  · -- the update would cancel one of the two orders
    rw [if_pos hcancel] at hnone
    by_cases hentry : st.entryOrderId = some update.orderId
    · rw [if_pos hentry] at hnone
      cases hnone
    · rw [if_neg hentry, if_pos (hmatch.resolve_left hentry)] at hnone
      cases hnone
  · rw [if_neg hcancel] at hnone ⊢
    split
    · rename_i hfill
      rw [if_pos hfill] at hnone
      exact applyWsFills_untold _ desk hnone
    · -- neither a cancellation nor a fill: at most a poll is asked for
      split
      · generalize hpoll : Requests.maybeEnqueueFillPoll _ _ _ _ _ _ = r
        obtain ⟨req, st'⟩ := r
        exact (Requests.maybeEnqueueFillPoll_cases setup env _ _ _ _ hpoll).1
      · rfl

end Untold

namespace TradeEngine

/-- A function on one pair leaves the orders of `key` alone if it does so for that pair. -/
theorem order_onKnown (eng : TradeEngine) {key' : PairKey}
    {f : PairTradeState → Desk × PairTradeState}
    (h : key = key' → (f (eng.stateOf key)).2.toOrderState = (eng.stateOf key).toOrderState) :
    ((eng.onKnown key' f).stateOf key).toOrderState = (eng.stateOf key).toOrderState := by
  unfold onKnown
  split
  · -- the state is written back under the pair of the message
    rename_i st hst
    rw [stateOf_putBack]
    split
    · rename_i hkey
      subst hkey
      have hof := eng.stateOf_of_lookup hst
      have hsame := h rfl
      rw [hof] at hsame ⊢
      exact hsame
    · rfl
  · rfl

/-- A message of the user channel that is no news leaves the orders of the pair as they are. -/
theorem order_of_noNews (eng : TradeEngine) {message : TradeMessage}
    (huser : message.OnUserChannel) (hnone : message.news setup env eng key = none) :
    ((handle setup env eng message).stateOf key).toOrderState =
      (eng.stateOf key).toOrderState := by
  cases message with
  | orderUpdate update =>
    -- noting the message does not touch any pair
    refine order_onKnown (noteUserMessage env eng) ?_
    rintro rfl
    simp only [TradeMessage.news, if_true] at hnone
    dsimp only
    split
    · rename_i hmatch
      simp only [Bool.or_eq_true, decide_eq_true_eq] at hmatch
      exact applyOrderUpdate_untold _ _ update hmatch hnone
    · rfl
  | tradeRecord record =>
    refine order_onKnown (noteUserMessage env eng) ?_
    rintro rfl
    simp only [TradeMessage.news, if_true] at hnone
    dsimp only
    split
    · exact applyWsFills_untold _ _ hnone
    · rfl
  | pairBar => exact huser.elim
  | shock => exact huser.elim
  | cancelCheckTick => exact huser.elim
  | orderResponse => exact huser.elim

end TradeEngine

/-! ## The ledger -/

/-- A message, and the trades that it announces: of the entry order or of the exit order. -/
structure Announcement where
  env : Env
  message : TradeMessage
  kind : FillKind
  trades : List OrderTrade

/-- The engine, and the trades of one pair that were announced to it. -/
structure Ledger where
  eng : TradeEngine
  traded : FillKind → Finset OrderTrade

namespace Ledger

variable (setup : Setup) (key : PairKey) (m : Ledger) (d : Announcement)

/-- What was bought and not sold, each announced trade counted once. -/
def position : ℚ := ∑ trade ∈ m.traded .entry, trade.size - ∑ trade ∈ m.traded .exit, trade.size

/-- The trades that were not announced before. -/
def fresh : Finset OrderTrade := d.trades.toFinset \ m.traded d.kind

/-- What the new trades add to the position. -/
def change : ℚ :=
  match d.kind with
  | .entry => ∑ trade ∈ m.fresh d, trade.size
  | .exit => -∑ trade ∈ m.fresh d, trade.size

def step : Option Ledger :=
  some
    { eng := TradeEngine.handle setup d.env m.eng d.message
      -- a trade is entered once, whatever the engine makes of the message
      traded := Function.update m.traded d.kind (m.traded d.kind ∪ d.trades.toFinset) }

/-- The pair holds what was bought and not sold. -/
def Accounted : Prop := (m.eng.stateOf key).held = m.position

/-- The announcement was heard before. -/
def Repeats : Prop := d.message.OnUserChannel ∧ d.trades ≠ [] ∧ m.fresh d = ∅

/-- What the pair takes the message for goes with the new trades: an entry fill gives what
is then held, an exit fill or a cancelled entry leaves nothing, and what is neither brings
no new trade. -/
def BookedAs (o : OrderState) : Option News → Prop
  | some (.entryFill fill) => (fill.size.or o.entryQty).getD 0 = o.held + m.change d
  | some .exitFill => o.held + m.change d = 0
  | some .entryCancelled => o.held + m.change d = 0
  | some .exitCancelled => m.fresh d = ∅
  | none => m.fresh d = ∅

def Booked : Prop :=
  m.BookedAs d (m.eng.stateOf key).toOrderState (d.message.news setup d.env m.eng key)

/-- An announcement that was heard before is not taken for news. -/
def Ignored : Prop := m.Repeats d → d.message.news setup d.env m.eng key = none

instance : Decidable (m.Repeats d) := inferInstanceAs (Decidable (_ ∧ _ ∧ _))

instance (o : OrderState) : (news : Option News) → Decidable (m.BookedAs d o news)
  | some (.entryFill _) => inferInstanceAs (Decidable (_ = _))
  | some .exitFill => inferInstanceAs (Decidable (_ = _))
  | some .entryCancelled => inferInstanceAs (Decidable (_ = _))
  | some .exitCancelled => inferInstanceAs (Decidable (_ = _))
  | none => inferInstanceAs (Decidable (_ = _))

instance : Decidable (m.Booked setup key d) :=
  inferInstanceAs (Decidable (m.BookedAs d _ _))

instance : Decidable (m.Ignored setup key d) := inferInstanceAs (Decidable (_ → _))

end Ledger

/-- The ledger of one pair. -/
def ledgerMachine (setup : Setup) : Lib.Machine Ledger Announcement where
  init m := ∃ now, m = ⟨TradeEngine.start now, fun _ => ∅⟩
  step := Ledger.step setup

namespace Ledger

variable {m m' : Ledger} {d : Announcement}

theorem change_eq_zero_iff : m.change d = 0 ↔ m.fresh d = ∅ := by
  have hsum : ∑ trade ∈ m.fresh d, trade.size = 0 ↔ m.fresh d = ∅ := by
    constructor
    · intro hzero
      by_contra hne
      -- every trade has a positive size
      have hpos := Finset.sum_pos (fun trade _ => trade.size_pos)
        (Finset.nonempty_iff_ne_empty.mpr hne)
      exact absurd hzero hpos.ne'
    · intro hempty
      rw [hempty, Finset.sum_empty]
  unfold change
  cases d.kind with
  | entry => exact hsum
  | exit => rw [neg_eq_zero, hsum]

/-- The new trades are booked on the side of their order. -/
theorem sum_traded_after (kind : FillKind) :
    ∑ trade ∈ Function.update m.traded d.kind (m.traded d.kind ∪ d.trades.toFinset) kind,
        trade.size =
      ∑ trade ∈ m.traded kind, trade.size +
        if kind = d.kind then ∑ trade ∈ m.fresh d, trade.size else 0 := by
  by_cases hkind : kind = d.kind
  · subst hkind
    -- the new trades and the old ones are disjoint
    rw [Function.update_self, if_pos rfl, ← Finset.union_sdiff_self_eq_union,
      Finset.sum_union Finset.disjoint_sdiff]
    rfl
  · rw [Function.update_of_ne hkind, if_neg hkind, add_zero]

theorem position_step (hstep : m.step setup d = some m') :
    m'.position = m.position + m.change d := by
  cases hstep
  simp only [position, sum_traded_after, change]
  cases d.kind with
  | entry =>
    simp only [if_true, reduceCtorEq, if_false]
    ring
  | exit =>
    simp only [if_true, reduceCtorEq, if_false]
    ring

/-- One announcement keeps the account just in case it is booked as what it is. -/
theorem accounted_step (hlive : setup.isLive = true) (hinv : m.eng.Inv setup)
    (hacc : m.Accounted key) (hstep : m.step setup d = some m') :
    m'.Accounted key ↔ m.Booked setup key d := by
  have hposition := position_step hstep
  have hheld : (m'.eng.stateOf key).held = News.heldAfter (m.eng.stateOf key).toOrderState
      (d.message.news setup d.env m.eng key) := by
    cases hstep
    exact TradeEngine.handle_held hlive m.eng hinv d.message
  -- what brings no new trade has to leave the position
  have hkept : (m.eng.stateOf key).held = m.position + m.change d ↔ m.fresh d = ∅ := by
    rw [← change_eq_zero_iff, hacc]
    exact ⟨fun h => by linarith, fun h => by linarith⟩
  unfold Accounted Booked
  rw [hheld, hposition]
  cases d.message.news setup d.env m.eng key with
  | none => exact hkept
  | some news =>
    -- each side of the account is compared with the position before
    cases news with
    | entryFill fill => rw [← hacc]; rfl
    | exitFill => rw [← hacc]; exact eq_comm
    | entryCancelled => rw [← hacc]; exact eq_comm
    | exitCancelled => exact hkept

/-- The account is right in every state of a run. -/
def AccountedAlways (setup : Setup) (key : PairKey) (m₀ : Ledger) (ds : List Announcement) :
    Prop :=
  ∀ heard rest, ds = heard ++ rest → ∀ m, (ledgerMachine setup).run m₀ heard = some m →
    m.Accounted key

/-- An announcement that was heard before changes nothing. -/
def RepeatsNothing (setup : Setup) (key : PairKey) (m₀ : Ledger) (ds : List Announcement) : Prop :=
  ∀ heard d rest, ds = heard ++ d :: rest →
    ∀ m, (ledgerMachine setup).run m₀ heard = some m → m.Repeats d →
      ∀ m', m.step setup d = some m' →
        (m'.eng.stateOf key).toOrderState = (m.eng.stateOf key).toOrderState

end Ledger

open Ledger in
/-- While every announcement is booked as what it is, and those that were heard before are
not taken again, the pair holds what was bought and not sold, each trade counted once, and
announcements that are repeated change nothing.  For the account itself the first condition
is needed in every step. -/
theorem fills_accounted (hlive : setup.isLive = true) {m₀ m : Ledger} {ds : List Announcement}
    (hstart : (ledgerMachine setup).init m₀) (hrun : (ledgerMachine setup).run m₀ ds = some m) :
    (AccountedAlways setup key m₀ ds ↔
      (ledgerMachine setup).RunMeets (Booked setup key) m₀ ds) ∧
    ((ledgerMachine setup).RunMeets (Ignored setup key) m₀ ds →
      RepeatsNothing setup key m₀ ds) := by
  obtain ⟨now, rfl⟩ := hstart
  constructor
  · refine (ledgerMachine setup).always_iff_runMeets (fun m => m.eng.Inv setup) (Accounted key)
      ?_ ?_ (TradeEngine.start_inv now) ?_ hrun
    · -- handling keeps the engine well formed, whatever is announced
      intro m d m' hinv hstep
      cases hstep
      exact TradeEngine.handle_inv m.eng d.message hinv
    · intro m d m' hinv hacc hstep
      exact accounted_step hlive hinv hacc hstep
    · -- nothing is held, nothing was announced
      have hidle : ¬ ((TradeEngine.start now).stateOf key).Open := OrderState.not_open_idle
      simp [Accounted, position, OrderState.held_of_not_open hidle]
  · intro hignored heard d rest hsplit m hm hrepeats m' hstep
    rw [hsplit] at hignored
    have hnone := (hignored.at_step _ hm) hrepeats
    cases hstep
    exact m.eng.order_of_noNews hrepeats.1 hnone

/-- A message that announces no trade. -/
def sampleSilent (now : ℤ) (message : TradeMessage) : Announcement :=
  ⟨sampleEnv now "x1", message, .entry, []⟩

/-- A trade of 8 shares of the entry order `e1`. -/
def sampleBought (now : ℤ) : Announcement :=
  ⟨sampleEnv now "x1", sampleTrade "e1" "BUY" (1 / 2) 8, .entry, [sampleTradeA]⟩

/-- A trade of 8 shares of the exit order `x1`. -/
def sampleSold (now : ℤ) : Announcement :=
  ⟨sampleEnv now "x1", sampleTrade "x1" "SELL" (3 / 5) 8, .exit,
    [⟨2, 3 / 5, 8, sampleTradeA.size_pos⟩]⟩

def sampleLedger (setup : Setup) (ds : List Announcement) : Ledger :=
  ((ledgerMachine setup).run ⟨TradeEngine.start 0, fun _ => ∅⟩ ds).getD
    ⟨TradeEngine.start 0, fun _ => ∅⟩

theorem run_ledgerMachine (setup : Setup) (m : Ledger) (ds : List Announcement) :
    ∃ m', (ledgerMachine setup).run m ds = some m' := by
  induction ds generalizing m with
  | nil => exact ⟨m, rfl⟩
  | cons d rest ih => exact ih _

theorem run_sampleLedger (setup : Setup) (ds : List Announcement) :
    (ledgerMachine setup).run ⟨TradeEngine.start 0, fun _ => ∅⟩ ds =
      some (sampleLedger setup ds) := by
  obtain ⟨m, hm⟩ := run_ledgerMachine setup ⟨TradeEngine.start 0, fun _ => ∅⟩ ds
  rw [sampleLedger, hm, Option.getD_some]

/-- Bought after the response to the placement, sold at once, and the sale announced twice. -/
def sampleTraded : List Announcement :=
  [sampleSilent 0 (.pairBar (sampleBar 0) (some sampleSignal)),
    sampleSilent 1000 (.pairBar (sampleBar 1) none), sampleSilent 1100 (samplePlaced 1 "e1"),
    sampleBought 1200, sampleSold 1300, sampleSold 1400]

open Ledger in
theorem accounted_sampleTraded :
    AccountedAlways sampleSetup sampleKey ⟨TradeEngine.start 0, fun _ => ∅⟩ sampleTraded ∧
      RepeatsNothing sampleSetup sampleKey ⟨TradeEngine.start 0, fun _ => ∅⟩ sampleTraded := by
  obtain ⟨hbalance, hrepeats⟩ := @fills_accounted sampleSetup sampleKey isLive_sampleSetup
    ⟨TradeEngine.start 0, fun _ => ∅⟩ _ sampleTraded ⟨0, rfl⟩ (run_sampleLedger _ _)
  have hbooked : (ledgerMachine sampleSetup).RunMeets (Booked sampleSetup sampleKey)
      ⟨TradeEngine.start 0, fun _ => ∅⟩ sampleTraded := by
    decide +kernel
  have hignored : (ledgerMachine sampleSetup).RunMeets (Ignored sampleSetup sampleKey)
      ⟨TradeEngine.start 0, fun _ => ∅⟩ sampleTraded := by
    decide +kernel
  exact ⟨hbalance.mpr hbooked, hrepeats hignored⟩

/-- The trade is announced before the response to the placement is handled; then the time to
live is over, and the rest of the order is cancelled. -/
def sampleRace : List Announcement :=
  [sampleSilent 0 (.pairBar (sampleBar 0) (some sampleSignal)),
    sampleSilent 1000 (.pairBar (sampleBar 1) none), sampleBought 1050,
    sampleSilent 1100 (samplePlaced 1 "e1"), sampleSilent 1300 (.cancelCheckTick [sampleKey]),
    sampleSilent 1400 (.orderResponse (.cancelOrder 2 "e1" ⟨true, false, false, none⟩))]

/-- The 8 shares are lost: the pair waits without a position, and no request is open. -/
theorem fill_before_response_lost :
    ttlSetup.isLive = true ∧
      (ledgerMachine ttlSetup).Reachable (sampleLedger ttlSetup sampleRace) ∧
      ((sampleLedger ttlSetup sampleRace).eng.stateOf sampleKey).state = .cooldown ∧
      ((sampleLedger ttlSetup sampleRace).eng.stateOf sampleKey).held = 0 ∧
      (sampleLedger ttlSetup sampleRace).position = 8 ∧
      ¬ (sampleLedger ttlSetup sampleRace).Accounted sampleKey := by
  have hheld : ((sampleLedger ttlSetup sampleRace).eng.stateOf sampleKey).held = 0 := by
    decide +kernel
  have hposition : (sampleLedger ttlSetup sampleRace).position = 8 := by decide +kernel
  refine ⟨by decide, ⟨_, _, ⟨0, rfl⟩, run_sampleLedger _ _⟩, by decide +kernel, hheld, hposition,
    ?_⟩
  intro hacc
  rw [Ledger.Accounted, hheld, hposition] at hacc
  exact absurd hacc (by decide)

end AlphaMonitor.Trade
