import AlphaMonitor.Lib.Run
import AlphaMonitor.Trade.Refinement
import Mathlib.Algebra.Order.BigOperators.Group.Finset
import Mathlib.Data.List.Forall2

/-!
# Runs of one engine

The engine as a machine that takes one message at a time, and what the handlers
of fills do to an open position, exactly.

## Main results

- `inv_of_reachable`: every reachable engine is well formed
- `WorkingSteps.frame`: working a position leaves what was bought alone
- `applyEntryFillsAndCheck_some`, `applyEntryFillsAndCheck_effect`: what an entry fill does
-/

namespace AlphaMonitor.Trade

/-! ## The engine as a machine -/

/-- An engine that takes any messages, each with its own clock and surroundings. -/
def engineMachine (setup : Setup) : Lib.Machine TradeEngine (Env × TradeMessage) where
  init eng := ∃ now, eng = TradeEngine.start now
  step eng e := some (TradeEngine.handle setup e.1 eng e.2)

variable {setup : Setup} {env : Env} {key : PairKey}

theorem inv_of_reachable {eng : TradeEngine} (h : (engineMachine setup).Reachable eng) :
    eng.Inv setup := by
  apply (engineMachine setup).inv_of_reachable ?_ ?_ h
  · rintro _ ⟨now, rfl⟩
    exact TradeEngine.start_inv now
  · intro eng e eng' hinv hstep
    cases hstep
    exact TradeEngine.handle_inv eng e.2 hinv

/-- The engine after a list of messages. -/
def TradeEngine.handleAll (setup : Setup) (eng : TradeEngine) (messages : List (Env × TradeMessage)) :
    TradeEngine :=
  messages.foldl (fun eng e => TradeEngine.handle setup e.1 eng e.2) eng

theorem run_engineMachine (eng : TradeEngine) (messages : List (Env × TradeMessage)) :
    (engineMachine setup).run eng messages = some (eng.handleAll setup messages) := by
  induction messages generalizing eng with
  | nil => rfl
  | cons e rest ih => exact ih (TradeEngine.handle setup e.1 eng e.2)

theorem reachable_handleAll (now : ℤ) (messages : List (Env × TradeMessage)) :
    (engineMachine setup).Reachable ((TradeEngine.start now).handleAll setup messages) :=
  ⟨TradeEngine.start now, messages, ⟨now, rfl⟩, run_engineMachine _ messages⟩

theorem reachable_handle {eng : TradeEngine} (h : (engineMachine setup).Reachable eng)
    (message : TradeMessage) :
    (engineMachine setup).Reachable (TradeEngine.handle setup env eng message) :=
  Lib.Machine.Reachable.step (engineMachine setup) (e := (env, message)) h rfl

/-- What every move of a pair keeps of its orders holds in every reachable engine. -/
theorem orderInv_of_reachable {P : OrderState → Prop} (hidle : P OrderState.idle)
    (hstep : ∀ s a t, s.order.Wf setup.isLive s.hasBar → P s.order → Move setup key s a t →
      P t.order)
    {eng : TradeEngine} (h : (engineMachine setup).Reachable eng) :
    P (eng.stateOf key).toOrderState := by
  have hboth : eng.Inv setup ∧ P (eng.stateOf key).toOrderState := by
    apply (engineMachine setup).inv_of_reachable ?_ ?_ h
    · rintro _ ⟨now, rfl⟩
      exact ⟨TradeEngine.start_inv now, hidle⟩
    · rintro eng ⟨env, message⟩ eng' ⟨hinv, hP⟩ hengine
      cases hengine
      refine ⟨TradeEngine.handle_inv eng message hinv, ?_⟩
      have hsteps := @TradeEngine.handle_steps setup env eng message hinv
      refine hsteps.keyInv ⟨hinv.wf, hinv.bars⟩ ?_ hP
      -- the pair's orders are kept by its own moves, and no other pair moves them
      intro v a t hv _ hP hmove
      exact hstep _ a t (hv.wf key) hP hmove
  exact hboth.2

/-! ## What is held -/

/-- What the entry order brought is the same in both states. -/
structure OrderState.SameEntry (o o' : OrderState) : Prop where
  price : o'.entryPrice = o.entryPrice
  qty : o'.entryQty = o.entryQty
  notional : o'.entryNotional = o.entryNotional
  ts : o'.entryTsMs = o.entryTsMs
  orderId : o'.entryOrderId = o.entryOrderId
  clientId : o'.entryClientId = o.entryClientId
  direction : o'.direction = o.direction
  alphaType : o'.alphaType = o.alphaType

theorem OrderState.SameEntry.refl (o : OrderState) : o.SameEntry o :=
  ⟨rfl, rfl, rfl, rfl, rfl, rfl, rfl, rfl⟩

theorem OrderState.SameEntry.trans {o₁ o₂ o₃ : OrderState} (h : o₁.SameEntry o₂)
    (h' : o₂.SameEntry o₃) : o₁.SameEntry o₃ where
  price := h'.price.trans h.price
  qty := h'.qty.trans h.qty
  notional := h'.notional.trans h.notional
  ts := h'.ts.trans h.ts
  orderId := h'.orderId.trans h.orderId
  clientId := h'.clientId.trans h.clientId
  direction := h'.direction.trans h.direction
  alphaType := h'.alphaType.trans h.alphaType

/-- The position of `s` is still open in `t`, and nothing was released. -/
structure Slot.StillOpen (s t : Slot) : Prop where
  isOpen : t.order.Open
  entry : s.order.SameEntry t.order
  counters : t.desk.counters = s.desk.counters

theorem Slot.StillOpen.refl {s : Slot} (h : s.order.Open) : s.StillOpen s :=
  ⟨h, OrderState.SameEntry.refl _, rfl⟩

theorem Slot.StillOpen.trans {r s t : Slot} (h : r.StillOpen s) (h' : s.StillOpen t) :
    r.StillOpen t :=
  ⟨h'.isOpen, h.entry.trans h'.entry, h'.counters.trans h.counters⟩

theorem OrderState.exitPlaced_sameEntry (o : OrderState) (result : PlaceResult) :
    o.SameEntry (o.exitPlaced result) := by
  unfold OrderState.exitPlaced
  cases result.order with
  | none => exact OrderState.SameEntry.refl o
  | some order => exact ⟨rfl, rfl, rfl, rfl, rfl, rfl, rfl, rfl⟩

theorem OrderState.exitPlaced_state (o : OrderState) (result : PlaceResult) :
    (o.exitPlaced result).state = o.state := by
  unfold OrderState.exitPlaced
  cases result.order <;> rfl

theorem Upkeep.stillOpen {s t : Slot} (h : Upkeep key s t) (hopen : s.order.Open) :
    s.StillOpen t := by
  have hnot : ∀ state : TradeState, state ≠ .positionOpen → state ≠ .exitWorking →
      s.order.state ≠ state := by
    intro state h₁ h₂ heq
    rcases hopen with ho | ho
    · exact h₁ (heq.symm.trans ho)
    · exact h₂ (heq.symm.trans ho)
  have hent : ¬ s.order.Entering := by
    rintro (hs | hs | hs)
    · exact hnot .entryReady (by simp) (by simp) hs
    · exact hnot .entryPlacing (by simp) (by simp) hs
    · exact hnot .entryWorking (by simp) (by simp) hs
  -- the branches that need another state are excluded, all others leave the entry alone
  cases h with
  | expire hstate => exact absurd hstate (hnot .cooldown (by simp) (by simp))
  | forget hstate hdir => exact absurd hstate hent
  | giveUp hstate hbar => exact absurd hstate (hnot .idle (by simp) (by simp))
  | giveUpSending entry qty price hstate hbar =>
    exact absurd hstate (hnot .idle (by simp) (by simp))
  | askEntryCancel reason hstate hreq => exact absurd hstate hent
  | sendEntryCancel orderId hstate hreq hpend hid => exact absurd hstate hent
  | _ => exact ⟨hopen, ⟨rfl, rfl, rfl, rfl, rfl, rfl, rfl, rfl⟩, rfl⟩

/-- Working a position in a live engine keeps it open. -/
theorem Move.stillOpen {s t : Slot} {a : Act} (hlive : setup.isLive = true)
    (h : Move setup key s a t) (ha : a.Working) (hopen : s.order.Open) : s.StillOpen t := by
  cases h with
  | upkeep hup => exact hup.stillOpen hopen
  | openExit qty prices result calls _ hstate hqty hcancel hpos hcalls =>
    refine ⟨Or.inr ?_, ?_, rfl⟩
    · exact OrderState.exitPlaced_state _ result
    · have hstart : s.order.SameEntry { s.order with state := .exitWorking } :=
        ⟨rfl, rfl, rfl, rfl, rfl, rfl, rfl, rfl⟩
      exact hstart.trans (OrderState.exitPlaced_sameEntry _ result)
  | retryExit qty prices result calls _ hstate hqty hcancel hid hclient hpos hcalls =>
    refine ⟨Or.inr ?_, OrderState.exitPlaced_sameEntry _ result, rfl⟩
    exact (OrderState.exitPlaced_state _ result).trans hstate
  | entryPaper price now hdry hstate hcancel =>
    -- a live engine makes no paper moves
    rw [hlive] at hdry
    cases hdry
  | openPaper hdry hstate hqty =>
    rw [hlive] at hdry
    cases hdry
  | exitPaper hdry hstate =>
    rw [hlive] at hdry
    cases hdry
  | queueEntry => exact ha.elim
  | enterPaper => exact ha.elim
  | placed => exact ha.elim
  | refused => exact ha.elim
  | entryFill => exact ha.elim
  | exitFill => exact ha.elim
  | cancelEntry => exact ha.elim
  | abandonEntry => exact ha.elim
  | cancelExit => exact ha.elim

theorem WorkingSteps.frame {s t : Slot} (hlive : setup.isLive = true)
    (h : WorkingSteps setup key s t) (hopen : s.order.Open) : s.StillOpen t := by
  have hkeep : ∀ u a w, s.StillOpen u → Act.Working a → Move setup key u a w →
      s.StillOpen w := by
    intro u a w hu ha hmove
    exact hu.trans (hmove.stillOpen hlive ha hu.isOpen)
  exact Lib.Chain.inv (s.StillOpen) hkeep h (Slot.StillOpen.refl hopen)

/-- The order or position of `o` is still there in `o'`. -/
structure OrderState.Kept (o o' : OrderState) : Prop where
  holding : o'.Holding
  stays : o.Open → o'.Open
  entry : o.SameEntry o'

theorem OrderState.Kept.refl {o : OrderState} (h : o.Holding) : o.Kept o :=
  ⟨h, id, OrderState.SameEntry.refl o⟩

theorem OrderState.Kept.trans {o₁ o₂ o₃ : OrderState} (h : o₁.Kept o₂) (h' : o₂.Kept o₃) :
    o₁.Kept o₃ :=
  ⟨h'.holding, fun hopen => h'.stays (h.stays hopen), h.entry.trans h'.entry⟩

theorem Upkeep.kept {s t : Slot} (h : Upkeep key s t) {live : Bool}
    (hwf : s.order.Wf live s.hasBar) (hhold : s.order.Holding) : s.order.Kept t.order := by
  -- working: only what applies to `EntryWorking` is left
  rcases hhold with hwork | hopen
  · have hdir := (hwf.held (Or.inl hwork)).2.2.2.2.2
    cases h with
    | expire hstate =>
      rw [hwork] at hstate
      cases hstate
    | forget hstate hzero => exact absurd hzero hdir
    | giveUp hstate hbar =>
      rw [hwork] at hstate
      cases hstate
    | giveUpSending entry qty price hstate hbar =>
      rw [hwork] at hstate
      cases hstate
    | _ => exact ⟨Or.inl hwork, id, ⟨rfl, rfl, rfl, rfl, rfl, rfl, rfl, rfl⟩⟩
  · have hstill := h.stillOpen hopen
    exact ⟨Or.inr hstill.isOpen, fun _ => hstill.isOpen, hstill.entry⟩

/-- Bars and periodic checks of a live engine neither add to nor drop what is held. -/
theorem Move.kept {s t : Slot} {a : Act} (hlive : setup.isLive = true)
    (h : Move setup key s a t) (ha : a.Routine) (hwf : s.order.Wf setup.isLive s.hasBar)
    (hhold : s.order.Holding) : s.order.Kept t.order := by
  have hidle : s.order.state ≠ .idle := by
    rcases hhold with hs | hs | hs
    · simp [hs]
    · simp [hs]
    · simp [hs]
  -- a routine act either works an order that is there, or enters with a new one
  by_cases hworking : a.Working
  · rcases hhold with hwork | hopen
    · cases h with
      | upkeep hup => exact hup.kept hwf (Or.inl hwork)
      | openExit qty prices result calls _ hstate =>
        rw [hwork] at hstate
        cases hstate
      | retryExit qty prices result calls _ hstate =>
        rw [hwork] at hstate
        cases hstate
      | entryPaper price now hdry =>
        rw [hlive] at hdry
        cases hdry
      | openPaper hdry =>
        rw [hlive] at hdry
        cases hdry
      | exitPaper hdry =>
        rw [hlive] at hdry
        cases hdry
      | _ => exact hworking.elim
    · have hstill := h.stillOpen hlive hworking hopen
      exact ⟨Or.inr hstill.isOpen, fun _ => hstill.isOpen, hstill.entry⟩
  · cases h with
    | queueEntry entry qty first rest target _ hstate => exact absurd hstate hidle
    | enterPaper entry qty price rest now _ hstate => exact absurd hstate hidle
    | cancelEntry cause hcause hpaper hbar =>
      -- in a routine act only a dry run cancels an entry by itself
      have hdry := hpaper ha
      rw [hlive] at hdry
      cases hdry
    | abandonEntry cause hcause hbar =>
      have hbar' := hwf.bar hidle
      rw [hbar] at hbar'
      cases hbar'
    | upkeep => exact absurd trivial hworking
    | openExit => exact absurd trivial hworking
    | retryExit => exact absurd trivial hworking
    | entryPaper => exact absurd trivial hworking
    | openPaper => exact absurd trivial hworking
    | exitPaper => exact absurd trivial hworking
    | _ => exact ha.elim

/-! ## Planned quantities -/

/-- An entry that is on its way has a positive quantity, and a positive price while it
is being placed. -/
structure OrderState.Planned (o : OrderState) : Prop where
  qty : o.Entering → ∃ qty, o.entryQty = some qty ∧ 0 < qty
  price : o.state = .entryPlacing → ∃ price, o.entryPrice = some price ∧ 0 < price

theorem OrderState.planned_of_not_entering {o : OrderState} (h : ¬ o.Entering) : o.Planned :=
  ⟨fun hent => absurd hent h, fun hplacing => absurd (Or.inr (Or.inl hplacing)) h⟩

theorem OrderState.not_entering_of_open {o : OrderState} (h : o.Open) : ¬ o.Entering := by
  rintro (hs | hs | hs)
  all_goals
    rcases h with ho | ho
    · rw [ho] at hs
      cases hs
    · rw [ho] at hs
      cases hs

theorem OrderState.not_entering_cooldown (o : OrderState) : ¬ o.cooldown.Entering := by
  simp [OrderState.Entering, OrderState.cooldown]

theorem OrderState.not_entering_idle : ¬ OrderState.idle.Entering := by
  simp [OrderState.Entering, OrderState.idle]

theorem EntrySized.pos {cfg : TradeConfig} {counters : Counters} {entry : PendingEntry} {qty : ℚ}
    {prices : List ℚ} (h : EntrySized cfg counters entry qty prices) :
    0 < qty ∧ ∀ price ∈ prices, 0 < price := by
  obtain ⟨env, books, pool, notional, shape, first, rest, _, _, _, hplace, rfl⟩ := h
  exact entryDecision_place hplace

theorem Move.planned {s t : Slot} {a : Act} (h : Move setup key s a t)
    (hwf : s.order.Wf setup.isLive s.hasBar) (hs : s.order.Planned) : t.order.Planned := by
  cases h with
  | upkeep hup =>
    cases hup with
    | expire => exact OrderState.planned_of_not_entering OrderState.not_entering_idle
    | forget => exact OrderState.planned_of_not_entering OrderState.not_entering_idle
    | giveUp => exact OrderState.planned_of_not_entering (OrderState.not_entering_cooldown _)
    | giveUpSending => exact OrderState.planned_of_not_entering (OrderState.not_entering_cooldown _)
    | _ => exact ⟨hs.qty, hs.price⟩
  | queueEntry entry qty first rest target _ _ _ _ _ hsized =>
    obtain ⟨hqty, hprices⟩ := hsized.pos
    exact ⟨fun _ => ⟨qty, rfl, hqty⟩, fun _ => ⟨first, rfl, hprices first List.mem_cons_self⟩⟩
  | enterPaper entry qty price rest now _ _ _ _ _ hsized =>
    exact ⟨fun _ => ⟨qty, rfl, hsized.pos.1⟩, fun hplacing => by cases hplacing⟩
  | placed reqId result entry price qty now hreq _ _ _ hqty =>
    refine ⟨fun _ => ?_, fun hplacing => by cases hplacing⟩
    -- the quantity was planned when the placement was queued
    have hstate : s.order.state = .entryPlacing := hwf.placing.mpr (by simp [hreq])
    obtain ⟨qty', hqty', hpos⟩ := hs.qty (Or.inr (Or.inl hstate))
    rw [hqty'] at hqty
    exact ⟨qty, rfl, by rw [hqty]; exact hpos⟩
  | refused => exact OrderState.planned_of_not_entering (OrderState.not_entering_cooldown _)
  | entryFill =>
    exact OrderState.planned_of_not_entering (OrderState.not_entering_of_open (Or.inl rfl))
  | openExit _ _ result =>
    apply OrderState.planned_of_not_entering
    exact OrderState.not_entering_of_open (Or.inr (OrderState.exitPlaced_state _ result))
  | retryExit _ _ result _ _ hstate =>
    apply OrderState.planned_of_not_entering
    apply OrderState.not_entering_of_open
    exact Or.inr ((OrderState.exitPlaced_state _ result).trans hstate)
  | exitFill => exact OrderState.planned_of_not_entering (OrderState.not_entering_cooldown _)
  | cancelEntry => exact OrderState.planned_of_not_entering (OrderState.not_entering_cooldown _)
  | abandonEntry => exact OrderState.planned_of_not_entering (OrderState.not_entering_cooldown _)
  | cancelExit => exact ⟨hs.qty, hs.price⟩
  | entryPaper =>
    exact OrderState.planned_of_not_entering (OrderState.not_entering_of_open (Or.inl rfl))
  | openPaper =>
    exact OrderState.planned_of_not_entering (OrderState.not_entering_of_open (Or.inr rfl))
  | exitPaper => exact OrderState.planned_of_not_entering (OrderState.not_entering_cooldown _)

theorem planned_of_reachable {eng : TradeEngine} (h : (engineMachine setup).Reachable eng) :
    (eng.stateOf key).Planned :=
  orderInv_of_reachable (OrderState.planned_of_not_entering OrderState.not_entering_idle)
    (fun _ _ _ hwf hplanned hmove => hmove.planned hwf hplanned) h

/-! ## Entry fills, exactly -/

theorem applyEntryFillsAndCheck_none (signals : List ShockSignal) (desk : Desk)
    (st : PairTradeState) (bar : Bars1sPair) (flow : PmFlow) {fills : List TradeFill}
    (h : entryFill? st fills = none) :
    applyEntryFillsAndCheck setup env signals desk st bar flow fills key = (desk, st) := by
  unfold applyEntryFillsAndCheck applyEntryFills
  by_cases hid : st.entryOrderId = none ∧ st.entryClientId = none
  · simp [hid]
  · simp [hid, h]

theorem applyEntryFillsAndCheck_some (signals : List ShockSignal) (desk : Desk)
    (st : PairTradeState) (bar : Bars1sPair) (flow : PmFlow) {fills : List TradeFill}
    {fill : TradeFill} (h : entryFill? st fills = some fill) :
    WorkingSteps setup key
      { slotOf (desk, st) with order := st.toOrderState.entryFilled fill env.now }
      (slotOf (applyEntryFillsAndCheck setup env signals desk st bar flow fills key)) := by
  have hid : ¬ (st.entryOrderId = none ∧ st.entryClientId = none) := by
    -- a fill that is found names one of the two ids, so one of them is there
    rintro ⟨h₁, h₂⟩
    have hmatch := (find?_takes h).1
    simp [fillMatchesOrder, h₁, h₂] at hmatch
  unfold applyEntryFillsAndCheck applyEntryFills
  simp only [if_neg hid, h]
  split
  · apply checkExit_steps signals desk { st with
      toOrderState := st.toOrderState.entryFilled fill env.now, pmMoveEntry := some flow.pmMove }
    exact Or.inl rfl
  · exact Lib.Chain.refl _

/-- The entry fill that the engine takes from a message about the pair in the
state `st`. -/
def TradeMessage.entryFill? (env : Env) (st : PairTradeState) : TradeMessage → Option TradeFill
  | .orderUpdate update =>
    if update.isCancel = false ∧ (update.isFillUpdate = true ∨ update.filled.getD 0 > 0) then
      Trade.entryFill? st [update.fill env.now]
    else none
  | .tradeRecord record => Trade.entryFill? st [record.fill env.now]
  | .orderResponse (.fetchFills id _ kind result) =>
    if st.fillPollReqId = some id ∧ kind = .entry then Trade.entryFill? st result.fills else none
  | _ => none

/-- The entry fill that the engine takes from a message, and the pair that takes it. -/
def TradeMessage.takenEntryFill (env : Env) (eng : TradeEngine) (message : TradeMessage) :
    Option (PairKey × TradeFill) :=
  let taken (key : PairKey) := (message.entryFill? env (eng.stateOf key)).map fun fill => (key, fill)
  match message with
  | .orderUpdate update =>
    let key : PairKey := (update.pairId, update.tokenSide)
    if (eng.stateOf key).entryOrderId = some update.orderId then taken key else none
  | .tradeRecord record =>
    let key : PairKey := (record.pairId, record.tokenSide)
    if (eng.stateOf key).entryOrderId = some record.orderId then taken key else none
  | .orderResponse (.fetchFills _ key _ _) => taken key
  | _ => none

/-- Entry fills are applied only where a message brings them, to the orders as they
were before the message. -/
theorem MessageAllow.takenEntryFill {eng : TradeEngine} {message : TradeMessage} {s : Slot}
    {fill : TradeFill} (h : MessageAllow setup env eng message key s (.entryFill fill)) :
    message.takenEntryFill env eng = some (key, fill) ∧
      s.order = (eng.stateOf key).toOrderState := by
  -- in each kind of message an entry fill can only come from its entry side
  have hfill : ∀ {entry exit : Prop} {fills : List TradeFill},
      FillAllow (eng.stateOf key) entry exit fills s (.entryFill fill) →
        entry ∧ s.order = (eng.stateOf key).toOrderState ∧
          entryFill? (eng.stateOf key) fills = some fill := by
    rintro entry exit fills (hup | ⟨hentry, hworking | ⟨fill', heq, horder, hfind⟩⟩ |
      ⟨_, hup | ⟨fill', _, heq⟩⟩)
    · cases hup
    · exact hworking.elim
    · cases heq
      exact ⟨hentry, horder, hfind⟩
    · cases hup
    · cases heq
  cases message with
  -- bars, shocks and ticks bring no fills
  | pairBar => exact h.elim
  | shock => exact h.elim
  | cancelCheckTick => exact h.elim
  | orderUpdate update =>
    obtain ⟨rfl, h⟩ := h
    split at h
    · rcases h with h | ⟨_, h⟩ | ⟨_, h⟩
      · cases h
      · cases h
      · cases h
    · rename_i hcancel
      split at h
      · rename_i hbrings
        obtain ⟨hid, horder, hfind⟩ := hfill h
        refine ⟨?_, horder⟩
        have hno : update.isCancel = false := by simpa using hcancel
        simp only [TradeMessage.takenEntryFill, if_pos hid, TradeMessage.entryFill?,
          if_pos (And.intro hno hbrings), hfind, Option.map_some]
      · cases h
  | tradeRecord record =>
    obtain ⟨rfl, h⟩ := h
    obtain ⟨hid, horder, hfind⟩ := hfill h
    refine ⟨?_, horder⟩
    simp only [TradeMessage.takenEntryFill, if_pos hid, TradeMessage.entryFill?, hfind,
      Option.map_some]
  | orderResponse response =>
    cases response with
    | placeChase =>
      -- placements and cancels bring no fills either
      obtain ⟨rfl, h | h | h⟩ := h
      · cases h
      · cases h
      · cases h
    | cancelOrder =>
      rcases h with h | ⟨_, h | h⟩
      · cases h
      · cases h
      · cases h
    | fetchFills id pairKey kind result =>
      obtain ⟨rfl, h⟩ := h
      obtain ⟨hid, horder, hfind⟩ := hfill h
      refine ⟨?_, horder⟩
      simp only [TradeMessage.takenEntryFill, TradeMessage.entryFill?, if_pos hid, hfind,
        Option.map_some]

/-- A placement is answered only where the response to it arrives. -/
theorem MessageAllow.answer_message {eng : TradeEngine} {message : TradeMessage} {s : Slot}
    {a : Act} {reqId : ℕ} (h : MessageAllow setup env eng message key s a)
    (ha : a = .refused reqId ∨ ∃ result, a = .placed reqId result) :
    ∃ result, message = .orderResponse (.placeChase reqId key result) ∧
      (a = .refused reqId ∨ a = .placed reqId result) := by
  have hupkeep : a ≠ .upkeep := by
    rintro rfl
    rcases ha with ha | ⟨_, ha⟩ <;> cases ha
  have hroutine : ¬ a.Routine := by
    rcases ha with rfl | ⟨_, rfl⟩ <;> exact id
  have hcancel : ∀ cause, a ≠ .cancelEntry cause ∧ a ≠ .cancelExit cause := by
    rcases ha with rfl | ⟨_, rfl⟩ <;> exact fun _ => ⟨nofun, nofun⟩
  have hfill : ∀ {entry exit : Prop} {fills : List TradeFill},
      ¬ FillAllow (eng.stateOf key) entry exit fills s a := by
    rintro entry exit fills (hup | ⟨_, hworking | ⟨_, heq, _⟩⟩ | ⟨_, hup | ⟨_, _, heq⟩⟩)
    · exact hupkeep hup
    · exact hroutine hworking.checking.routine
    · rcases ha with ha | ⟨_, ha⟩ <;> exact nomatch ha.symm.trans heq
    · exact hupkeep hup
    · rcases ha with ha | ⟨_, ha⟩ <;> exact nomatch ha.symm.trans heq
  cases message with
  | pairBar => exact absurd h hroutine
  | shock => exact absurd h hroutine
  | cancelCheckTick => exact absurd (Act.Checking.routine h) hroutine
  | orderUpdate update =>
    obtain ⟨rfl, h⟩ := h
    split at h
    · rcases h with h | ⟨_, h⟩ | ⟨_, h⟩
      · exact absurd h hupkeep
      · exact absurd h (hcancel _).1
      · exact absurd h (hcancel _).2
    · split at h
      · exact absurd h hfill
      · exact absurd h hupkeep
  | tradeRecord record =>
    obtain ⟨rfl, h⟩ := h
    exact absurd h hfill
  | orderResponse response =>
    cases response with
    | placeChase id pairKey result =>
      obtain ⟨rfl, h | h | h⟩ := h
      · exact absurd h hupkeep
      · rcases ha with ha | ⟨_, ha⟩
        · exact nomatch ha.symm.trans h
        · cases ha.symm.trans h
          exact ⟨result, rfl, Or.inr ha⟩
      · rcases ha with ha | ⟨_, ha⟩
        · cases ha.symm.trans h
          exact ⟨result, rfl, Or.inl ha⟩
        · exact nomatch ha.symm.trans h
    | cancelOrder =>
      rcases h with h | ⟨_, h | h⟩
      · exact absurd h hupkeep
      · exact absurd h (hcancel _).1
      · exact absurd h (hcancel _).2
    | fetchFills =>
      obtain ⟨rfl, h⟩ := h
      exact absurd h hfill

/-- Placements are booked only where the response to them arrives. -/
theorem MessageAllow.placed_message {eng : TradeEngine} {message : TradeMessage} {s : Slot}
    {reqId : ℕ} {result : PlaceResult}
    (h : MessageAllow setup env eng message key s (.placed reqId result)) :
    message = .orderResponse (.placeChase reqId key result) := by
  obtain ⟨_, rfl, hact | hact⟩ := h.answer_message (Or.inr ⟨result, rfl⟩)
  · cases hact
  · cases hact
    rfl

/-- The entry that a move starts. -/
def Act.entered : Act → Option PendingEntry
  | .queueEntry entry _ _ => some entry
  | .enterPaper entry _ _ => some entry
  | _ => none

theorem Act.Enters.entered {entry entry' : PendingEntry} {a : Act} (h : a.Enters entry)
    (hentry : a.entered = some entry') : entry' = entry := by
  cases a with
  | queueEntry e qty prices =>
    cases hentry
    exact h
  | enterPaper e qty price =>
    cases hentry
    exact h
  | _ => cases hentry

theorem Act.Checking.entered {a : Act} (h : a.Checking) : a.entered = none := by
  cases a with
  | queueEntry => exact h.elim
  | enterPaper => exact h.elim
  | _ => rfl

/-- A message that is not a bar enters nothing. -/
theorem MessageAllow.entered {env : Env} {eng : TradeEngine} {message : TradeMessage} {s : Slot}
    {a : Act} (h : MessageAllow setup env eng message key s a)
    (hshock : ∀ pairKey signal, message ≠ .shock pairKey signal)
    (hbar : ∀ bar signal, message ≠ .pairBar bar signal) : a.entered = none := by
  have hfills : ∀ {st : PairTradeState} {entry exit : Prop} {fills : List TradeFill},
      FillAllow st entry exit fills s a → a.entered = none := by
    intro st entry exit fills hallow
    rcases hallow with rfl | ⟨-, hwork | ⟨fill, rfl, -⟩⟩ | ⟨-, rfl | ⟨fill, -, rfl⟩⟩
    · rfl
    · exact hwork.checking.entered
    · rfl
    · rfl
    · rfl
  cases message with
  | pairBar bar signal => exact (hbar bar signal rfl).elim
  | shock pairKey signal => exact (hshock pairKey signal rfl).elim
  | cancelCheckTick order => exact Act.Checking.entered h
  | orderUpdate update =>
    obtain ⟨-, hallow⟩ := h
    split at hallow
    · rcases hallow with rfl | ⟨-, rfl⟩ | ⟨-, rfl⟩
      · rfl
      · rfl
      · rfl
    · split at hallow
      · exact hfills hallow
      · rw [hallow]
        rfl
  | tradeRecord record => exact hfills h.2
  | orderResponse response =>
    cases response with
    | placeChase id pairKey result =>
      rcases h.2 with rfl | rfl | rfl
      · rfl
      · rfl
      · rfl
    | cancelOrder id orderId result =>
      rcases h with rfl | ⟨-, rfl | rfl⟩
      · rfl
      · rfl
      · rfl
    | fetchFills id pairKey kind result => exact hfills h.2

/-- What the order state is after a message whose taken entry fill is `taken`. -/
def OrderState.afterEntry (o : OrderState) (taken : Option TradeFill) (now : ℤ) : OrderState :=
  match taken with
  | some fill => o.entryFilled fill now
  | none => o

/-- What a message that may bring an entry fill does to the pair: the fill is taken
over, the position it makes is worked, and nothing else happens to the entry. -/
structure EntryEffect (s t : Slot) (taken : Option TradeFill) (now : ℤ) : Prop where
  entry : (s.order.afterEntry taken now).SameEntry t.order
  untaken : taken = none → t.order = s.order
  taken : taken.isSome = true → t.order.Open
  counters : t.desk.counters = s.desk.counters

theorem applyEntryFillsAndCheck_effect (hlive : setup.isLive = true) (signals : List ShockSignal)
    (desk : Desk) (st : PairTradeState) (bar : Bars1sPair) (flow : PmFlow)
    (fills : List TradeFill) :
    EntryEffect (slotOf (desk, st))
      (slotOf (applyEntryFillsAndCheck setup env signals desk st bar flow fills key))
      (entryFill? st fills) env.now := by
  cases htaken : entryFill? st fills with
  | none =>
    rw [applyEntryFillsAndCheck_none signals desk st bar flow htaken]
    exact ⟨OrderState.SameEntry.refl _, fun _ => rfl, fun h => (by cases h), rfl⟩
  | some fill =>
    have hsteps := @applyEntryFillsAndCheck_some setup env key signals
      desk st bar flow _ _ htaken
    have hopen := hsteps.frame hlive (Or.inl rfl)
    exact ⟨hopen.entry, fun h => (by cases h), fun _ => hopen.isOpen, hopen.counters⟩

/-! ## Deliveries

The trades of an order reach the engine in messages, one by one or in lists, late
and more than once. -/

/-- A trade of an order at the exchange. -/
structure OrderTrade where
  id : ℕ
  price : ℚ
  size : ℚ
  size_pos : 0 < size
  deriving DecidableEq

/-- The fill reports the trade, and is one that the order takes. -/
def OrderTrade.ReportedBy (takes : TradeFill → Prop) (trade : OrderTrade) (fill : TradeFill) :
    Prop :=
  takes fill ∧ fill.price = some trade.price ∧ fill.size = some trade.size

instance (takes : TradeFill → Prop) [DecidablePred takes] (trade : OrderTrade) (fill : TradeFill) :
    Decidable (trade.ReportedBy takes fill) :=
  inferInstanceAs (Decidable (_ ∧ _ ∧ _))

instance (o : OrderState) : DecidablePred o.TakesEntryFill :=
  fun _ => inferInstanceAs (Decidable (_ ∧ _))

instance (o : OrderState) : DecidablePred o.TakesExitFill :=
  fun _ => inferInstanceAs (Decidable (_ ∧ _))

/-- A message and the trades that it reports. -/
structure Delivery where
  env : Env
  message : TradeMessage
  trades : List OrderTrade

/-- The sizes of all trades of the deliveries, each counted once. -/
def deliveredSize (deliveries : List Delivery) : ℚ :=
  ∑ trade ∈ (deliveries.flatMap (·.trades)).toFinset, trade.size

def TradeEngine.afterAll (setup : Setup) (eng : TradeEngine) (deliveries : List Delivery) :
    TradeEngine :=
  eng.handleAll setup (deliveries.map fun d => (d.env, d.message))

/-- The messages talk of one order only, and the trades are those that the engine
hears of in them. -/
def Delivers (setup : Setup) (key : PairKey) (talk : PairTradeState → TradeMessage → Prop)
    (hears : Env → PairTradeState → TradeMessage → List TradeFill)
    (takes : PairTradeState → TradeFill → Prop) : TradeEngine → List Delivery → Prop
  | _, [] => True
  | eng, d :: rest =>
    talk (eng.stateOf key) d.message ∧
      List.Forall₂ (OrderTrade.ReportedBy (takes (eng.stateOf key))) d.trades
        (hears d.env (eng.stateOf key) d.message) ∧
      Delivers setup key talk hears takes (TradeEngine.handle setup d.env eng d.message) rest

instance Delivers.decidable {talk : PairTradeState → TradeMessage → Prop}
    {hears : Env → PairTradeState → TradeMessage → List TradeFill}
    {takes : PairTradeState → TradeFill → Prop} [∀ st message, Decidable (talk st message)]
    [∀ st, DecidablePred (takes st)] :
    ∀ (eng : TradeEngine) (deliveries : List Delivery),
      Decidable (Delivers setup key talk hears takes eng deliveries)
  | _, [] => inferInstanceAs (Decidable True)
  | eng, d :: rest =>
    have := Delivers.decidable (TradeEngine.handle setup d.env eng d.message) rest
    @instDecidableAnd _ _ inferInstance (@instDecidableAnd _ _ inferInstance this)

/-- Bars and periodic checks. -/
def TradeMessage.IsRoutine : TradeMessage → Prop
  | .pairBar _ _ => True
  | .shock _ _ => True
  | .cancelCheckTick _ => True
  | _ => False

instance : DecidablePred TradeMessage.IsRoutine
  | .pairBar _ _ => inferInstanceAs (Decidable True)
  | .shock _ _ => inferInstanceAs (Decidable True)
  | .cancelCheckTick _ => inferInstanceAs (Decidable True)
  | .orderUpdate _ => inferInstanceAs (Decidable False)
  | .tradeRecord _ => inferInstanceAs (Decidable False)
  | .orderResponse _ => inferInstanceAs (Decidable False)

theorem MessageAllow.routine {eng : TradeEngine} {message : TradeMessage}
    (hmessage : message.IsRoutine) {s : Slot} {a : Act}
    (h : MessageAllow setup env eng message key s a) : a.Routine := by
  cases message with
  | pairBar => exact h
  | shock => exact h
  | cancelCheckTick => exact Act.Checking.routine h
  | orderUpdate => exact hmessage.elim
  | tradeRecord => exact hmessage.elim
  | orderResponse => exact hmessage.elim

/-! ## A market to try things on

One market with a wide book: an entry of 20 shares at 1/2, an exit at 3/5. -/

def sampleCfg : TradeConfig :=
  { (default : TradeConfig) with
    dryRun := false
    signalStalenessMs := 1000
    opiCancelStalenessMs := -1
    balanceTotalUsd := 10
    balanceFreeUsd := 10
    entryPoolFrac := 1
    maxGlobalExposureFrac := 1
    maxPerPairExposureFrac := 1
    maxOpenPositions := 5
    tickPx := 1 / 100
    ofiCancelLow := -100
    ofiCancelMed := -100
    tradeCancelUsd := 1000
    retraceCancel := 10
    retraceExit := 10
    wsUserChannelsEnabled := true
    wsUserChannelStaleMs := 1000 }

def sampleSetup : Setup where
  cfg := sampleCfg
  opinionClient := true
  orderTargets := fun _ => some ⟨7, "token"⟩
  orderPollIntervalMs := 250

/-- The surroundings at a time; an exit order would get the id `exitId`. -/
def sampleEnv (now : ℤ) (exitId : String) : Env where
  now := now
  gasP90 := none
  feeBps := 0
  execOpen := true
  lower := fun _ _ c => [c]
  exitReplies := fun _ _ => .accepted exitId
  clock := fun _ => now
  cancelJitter := 1
  retryJitter := 1
  openOrders := fun _ => none

def sampleKey : PairKey := (1, .yes)

def sampleBar (second : ℤ) : Bars1sPair :=
  { (default : Bars1sPair) with
    pairId := 1
    tokenSide := .yes
    barSecond := second
    polyStalenessMs := some 0
    opiStalenessMs := some 0
    polyMid := some (1 / 2)
    opiBestBid := some (1 / 2)
    opiBestAsk := some (3 / 5)
    opiBidL1Notional := some 10
    opiBidL2Notional := some 10 }

def sampleSignal : EntrySignal where
  direction := 1
  alphaType := .gapB
  shock := none
  opiMid := some (1 / 2)
  edgeRaw := 0
  confScore := 1
  costMult := 1
  horizonS := none
  staleScale := 0
  entryTtlOverrideMs := none
  cModifier := none

/-- The executor placed the entry order `orderId`. -/
def samplePlaced (reqId : ℕ) (orderId : String) : TradeMessage :=
  .orderResponse (.placeChase reqId sampleKey
    ⟨some ⟨orderId, some "client"⟩, some "client", some (1 / 2), 1, 0, none⟩)

/-- A trade of the order `orderId`. -/
def sampleTrade (orderId side : String) (price shares : ℚ) : TradeMessage :=
  .tradeRecord ⟨1, .yes, orderId, some side, some price, some shares, none, some 3⟩

/-- An update of the order `orderId` that only reports its status. -/
def sampleCancelled (orderId : String) : TradeMessage :=
  .orderUpdate ⟨1, .yes, orderId, some "orderCancel", none, none, none, none, none, none, none,
    none⟩

/-- Up to the working entry order `e1`, placed by request 1. -/
def sampleEntering : List (Env × TradeMessage) :=
  [(sampleEnv 0 "x", .pairBar (sampleBar 0) (some sampleSignal)),
    (sampleEnv 1000 "x", .pairBar (sampleBar 1) none),
    (sampleEnv 1100 "x", samplePlaced 1 "e1")]

def sampleEngine (messages : List (Env × TradeMessage)) : TradeEngine :=
  (TradeEngine.start 0).handleAll sampleSetup messages

theorem isLive_sampleSetup : sampleSetup.isLive = true := by decide

theorem reachable_sampleEngine (messages : List (Env × TradeMessage)) :
    (engineMachine sampleSetup).Reachable (sampleEngine messages) :=
  reachable_handleAll 0 messages

end AlphaMonitor.Trade
