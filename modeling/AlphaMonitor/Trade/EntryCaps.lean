import AlphaMonitor.Trade.EntryGate
import AlphaMonitor.Trade.Executor

/-!
# The caps and a placement

The caps are checked when an entry is queued, but exposure is only added when the
response to its placement arrives.  Between the two the counters of a live engine
only go down, so there is still room for what there was room for, if nobody else
books meanwhile.

## Main definitions

- `Counters.Within`, `Counters.Room`: the counters respect the caps, and an order would fit
- `OrderState.Covered`: the placement that a pair waits for would fit

## Main results

- `Books.budgetForEntry_room`: there is room for every budget
- `maybeEnter_covered`: an entry within its budget is covered
- `placeChase_counters`: what the response to a placement books
- `flushPendingEntries_one`: what a flush of one entry does
-/

namespace AlphaMonitor.Trade

open Lib

/-! ## The caps -/

/-- The counters respect the configured caps. -/
structure Counters.Within (cfg : TradeConfig) (c : Counters) : Prop where
  used : c.exposureUsed ≤ cfg.balanceTotalUsd * cfg.maxGlobalExposureFrac
  positions : c.openPositions ≤ cfg.maxOpenPositions
  strategy : ∀ alphaType, 0 < cfg.balanceTotalUsd * cfg.strategyCap alphaType →
    c.strategyExposure alphaType ≤ cfg.balanceTotalUsd * cfg.strategyCap alphaType
  pair : ∀ key, c.pairExposure key ≤ cfg.balanceTotalUsd * cfg.maxPerPairExposureFrac

/-- No cap is negative. -/
structure TradeConfig.CapsNonneg (cfg : TradeConfig) : Prop where
  used : 0 ≤ cfg.balanceTotalUsd * cfg.maxGlobalExposureFrac
  pair : 0 ≤ cfg.balanceTotalUsd * cfg.maxPerPairExposureFrac

/-- What is added to the counters for an order. -/
structure Booking where
  exposureKey : ExposureKey
  notional : ℚ
  alphaType : AlphaType

/-- A position is free, and each cap leaves the amount. -/
structure Counters.Room (cfg : TradeConfig) (c : Counters) (b : Booking) : Prop where
  positions : c.openPositions < cfg.maxOpenPositions
  used : c.exposureUsed + b.notional ≤ cfg.balanceTotalUsd * cfg.maxGlobalExposureFrac
  pair : c.pairExposure b.exposureKey + b.notional ≤
    cfg.balanceTotalUsd * cfg.maxPerPairExposureFrac
  strategy : 0 < cfg.balanceTotalUsd * cfg.strategyCap b.alphaType →
    c.strategyExposure b.alphaType + b.notional ≤ cfg.balanceTotalUsd * cfg.strategyCap b.alphaType

structure Counters.Nonneg (c : Counters) : Prop where
  used : 0 ≤ c.exposureUsed
  strategy : ∀ alphaType, 0 ≤ c.strategyExposure alphaType
  pair : ∀ key, 0 ≤ c.pairExposure key

/-- No counter is above that of `c`. -/
structure Counters.AtMost (c' c : Counters) : Prop where
  used : c'.exposureUsed ≤ c.exposureUsed
  positions : c'.openPositions ≤ c.openPositions
  strategy : ∀ alphaType, c'.strategyExposure alphaType ≤ c.strategyExposure alphaType
  pair : ∀ key, c'.pairExposure key ≤ c.pairExposure key

section Caps

variable {cfg : TradeConfig} {c c' : Counters}

theorem Counters.nonneg_start : Counters.start.Nonneg :=
  ⟨le_refl _, fun _ => le_refl _, fun _ => le_refl _⟩

theorem Counters.within_start (hcaps : cfg.CapsNonneg) : Counters.start.Within cfg :=
  ⟨hcaps.used, Nat.zero_le _, fun _ hcap => hcap.le, fun _ => hcaps.pair⟩

theorem Counters.AtMost.refl (c : Counters) : c.AtMost c :=
  ⟨le_refl _, le_refl _, fun _ => le_refl _, fun _ => le_refl _⟩

theorem Counters.AtMost.trans {c'' : Counters} (h : c''.AtMost c') (h' : c'.AtMost c) :
    c''.AtMost c where
  used := h.used.trans h'.used
  positions := h.positions.trans h'.positions
  strategy alphaType := (h.strategy alphaType).trans (h'.strategy alphaType)
  pair key := (h.pair key).trans (h'.pair key)

theorem Counters.Within.of_atMost (h : c.Within cfg) (hle : c'.AtMost c) : c'.Within cfg where
  used := hle.used.trans h.used
  positions := hle.positions.trans h.positions
  strategy alphaType hcap := (hle.strategy alphaType).trans (h.strategy alphaType hcap)
  pair key := (hle.pair key).trans (h.pair key)

theorem Counters.Room.of_atMost {b : Booking} (h : c.Room cfg b) (hle : c'.AtMost c) :
    c'.Room cfg b where
  positions := hle.positions.trans_lt h.positions
  used := (add_le_add_left hle.used _).trans h.used
  pair := (add_le_add_left (hle.pair _) _).trans h.pair
  strategy hcap := (add_le_add_left (hle.strategy _) _).trans (h.strategy hcap)

/-- Room for an amount is room for less. -/
theorem Counters.Room.of_le {key : ExposureKey} {alphaType : AlphaType} {notional less : ℚ}
    (h : c.Room cfg ⟨key, notional, alphaType⟩) (hle : less ≤ notional) :
    c.Room cfg ⟨key, less, alphaType⟩ where
  positions := h.positions
  used := (add_le_add_right hle _).trans h.used
  pair := (add_le_add_right hle _).trans h.pair
  strategy hcap := (add_le_add_right hle _).trans (h.strategy hcap)

/-- What there is room for keeps the caps when it is added. -/
theorem Counters.Within.add (h : c.Within cfg) {b : Booking} (hroom : c.Room cfg b) :
    (c.add b.exposureKey b.notional b.alphaType).Within cfg := by
  unfold Counters.add
  split
  · exact ⟨h.used, h.positions, h.strategy, h.pair⟩
  · constructor
    · exact hroom.used
    · exact hroom.positions
    · intro other hcap
      simp only [Function.update_apply]
      split
      · rename_i heq
        subst heq
        exact hroom.strategy hcap
      · exact h.strategy other hcap
    · intro other
      simp only [Function.update_apply]
      split
      · exact hroom.pair
      · exact h.pair other

theorem Counters.Nonneg.add (h : c.Nonneg) (key : ExposureKey) (notional : ℚ)
    (alphaType : AlphaType) : (c.add key notional alphaType).Nonneg := by
  unfold Counters.add
  split
  · exact ⟨h.used, h.strategy, h.pair⟩
  · rename_i hpos
    have hpos := (not_le.mp hpos).le
    constructor
    · exact add_nonneg h.used hpos
    · intro other
      simp only [Function.update_apply]
      split
      · exact add_nonneg (h.strategy alphaType) hpos
      · exact h.strategy other
    · intro other
      simp only [Function.update_apply]
      split
      · exact add_nonneg (h.pair key) hpos
      · exact h.pair other

/-- A release takes no counter up, and none below zero. -/
theorem Counters.Nonneg.release (h : c.Nonneg) (key : ExposureKey) (notional : ℚ)
    (alphaType : AlphaType) :
    (c.release key notional alphaType).AtMost c ∧ (c.release key notional alphaType).Nonneg := by
  unfold Counters.release
  split
  · exact ⟨.refl c, h⟩
  · rename_i hpos
    have hcut : ∀ {x : ℚ}, 0 ≤ x → max (x - notional) 0 ≤ x := by
      intro x hx
      apply max_le _ hx
      linarith
    refine ⟨⟨hcut h.used, Nat.sub_le _ _, ?_, ?_⟩, ⟨le_max_right _ _, ?_, ?_⟩⟩
    · intro other
      simp only [Function.update_apply]
      split
      · rename_i heq
        subst heq
        exact hcut (h.strategy other)
      · exact le_refl _
    · intro other
      simp only [Function.update_apply]
      split
      · rename_i heq
        subst heq
        exact hcut (h.pair other)
      · exact le_refl _
    · intro other
      simp only [Function.update_apply]
      split
      · exact le_max_right _ _
      · exact h.strategy other
    · intro other
      simp only [Function.update_apply]
      split
      · exact le_max_right _ _
      · exact h.pair other

theorem le_of_le_available {cap used notional : ℚ} (hused : used ≤ cap)
    (h : notional ≤ max (cap - used) 0) : used + notional ≤ cap := by
  rw [max_eq_left (sub_nonneg.mpr hused)] at h
  exact le_sub_iff_add_le'.mp h

theorem capIf_le (configured : Bool) (bound notional : ℚ) :
    capIf configured bound notional ≤ notional := by
  unfold capIf
  split
  · exact min_le_left _ _
  · exact le_refl _

/-- The checks of `budget_for_entry`: there is room for the budget. -/
theorem Books.budgetForEntry_room {books : Books} (h : books.counters.Within cfg)
    {key : ExposureKey} {second : ℤ} {pool : Option ℚ} {alphaType : AlphaType} {notional : ℚ}
    (hbudget : (books.budgetForEntry cfg key second pool alphaType).2 = some notional) :
    books.counters.Room cfg ⟨key, notional, alphaType⟩ := by
  -- the reset changes no counter
  rw [← counters_resetEntryPool cfg books second] at h ⊢
  unfold Books.budgetForEntry at hbudget
  dsimp only at hbudget
  split at hbudget
  · cases hbudget
  · split at hbudget
    · cases hbudget
    · rename_i hpositions
      split at hbudget
      · cases hbudget
      · split at hbudget
        · cases hbudget
        · -- the budget is the least of what the caps leave
          cases hbudget
          unfold Books.notionalLeft
          dsimp only
          have hcapped : ∀ {x y bound : ℚ} {configured : Bool}, x ≤ y →
              capIf configured bound x ≤ y := fun hxy => (capIf_le _ _ _).trans hxy
          constructor
          · exact not_le.mp hpositions
          · apply le_of_le_available h.used
            exact hcapped (hcapped ((min_le_left _ _).trans (min_le_right _ _)))
          · apply le_of_le_available (h.pair key)
            exact hcapped (hcapped (min_le_right _ _))
          · intro hcap
            apply le_of_le_available (h.strategy alphaType hcap)
            refine hcapped ?_
            rw [capIf, if_pos (decide_eq_true hcap)]
            exact min_le_right _ _

end Caps

/-! ## Placements in flight -/

/-- What the response to a placement is booked with. -/
def OrderState.plan (o : OrderState) :
    Option PendingEntry × Option ℚ × Option ℚ × Option AlphaType :=
  (o.pendingEntry, o.entryPrice, o.entryQty, o.alphaType)

/-- There is room for the placement that the pair waits for, at its planned price. -/
def OrderState.Covered (cfg : TradeConfig) (c : Counters) (key : PairKey) (o : OrderState) :
    Prop :=
  ∃ entry price qty, 0 ≤ qty ∧ o.plan = (some entry, some price, some qty, some entry.alphaType) ∧
    c.Room cfg ⟨exposureKey key entry.direction, price * qty, entry.alphaType⟩

theorem OrderState.Covered.of_plan {cfg : TradeConfig} {c c' : Counters} {key : PairKey}
    {o o' : OrderState} (h : o.Covered cfg c key) (hplan : o'.plan = o.plan)
    (hle : c'.AtMost c) : o'.Covered cfg c' key := by
  obtain ⟨entry, price, qty, hqty, hsome, hroom⟩ := h
  exact ⟨entry, price, qty, hqty, hplan.trans hsome, hroom.of_atMost hle⟩

/-- Moves that neither queue a placement nor book one. -/
def Act.Eases : Act → Prop
  | .queueEntry _ _ _ => False
  | .placed _ _ => False
  | _ => True

theorem Act.Checking.eases {a : Act} (h : a.Checking) : a.Eases := by
  cases a <;> first | exact trivial | exact h.elim

variable {setup : Setup} {env : Env} {key : PairKey}

theorem Upkeep.counters {s t : Slot} (h : Upkeep key s t) :
    t.desk.counters = s.desk.counters := by
  cases h <;> rfl

/-- A live engine's counters only go down in such a move. -/
theorem Move.eased_counters {s t : Slot} {a : Act} (hlive : setup.isLive = true)
    (h : Move setup key s a t) (ha : a.Eases) (hs : s.desk.counters.Nonneg) :
    t.desk.counters.AtMost s.desk.counters ∧ t.desk.counters.Nonneg := by
  have hsame : s.desk.counters.AtMost s.desk.counters ∧ s.desk.counters.Nonneg := ⟨.refl _, hs⟩
  have hdry : setup.isLive ≠ false := by
    rw [hlive]
    exact Bool.noConfusion
  have hrelease : (s.desk.counters.releaseOf key s.order).AtMost s.desk.counters ∧
      (s.desk.counters.releaseOf key s.order).Nonneg := by
    unfold Counters.releaseOf
    split
    · exact hs.release _ _ _
    · exact hsame
  cases h with
  | upkeep hup =>
    rw [hup.counters]
    exact hsame
  | queueEntry => exact ha.elim
  | enterPaper entry qty price rest now hpaper => exact absurd hpaper hdry
  | placed => exact ha.elim
  | refused => exact hsame
  | entryFill => exact hsame
  | openExit => exact hsame
  | retryExit => exact hsame
  | exitFill => exact hrelease
  | cancelEntry => exact hrelease
  | abandonEntry => exact hsame
  | cancelExit => exact hsame
  | entryPaper => exact hsame
  | openPaper => exact hsame
  | exitPaper => exact hrelease

theorem Upkeep.plan_of_waiting {s t : Slot} (h : Upkeep key s t)
    (ht : t.order.entryPlaceReqId ≠ none) :
    s.order.entryPlaceReqId ≠ none ∧ t.order.plan = s.order.plan := by
  cases h with
  | expire => exact absurd rfl ht
  | forget => exact absurd rfl ht
  | giveUp => exact absurd rfl ht
  | giveUpSending => exact absurd rfl ht
  | stray => exact absurd rfl ht
  | _ => exact ⟨ht, rfl⟩

/-- A pair that waits after such a move has waited before it, for the same placement. -/
theorem Move.plan_of_waiting {s t : Slot} {a : Act} (hlive : setup.isLive = true)
    (h : Move setup key s a t) (ha : a.Eases) (hwf : s.order.Wf setup.isLive s.hasBar)
    (ht : t.order.entryPlaceReqId ≠ none) :
    s.order.entryPlaceReqId ≠ none ∧ t.order.plan = s.order.plan := by
  have hdry : setup.isLive ≠ false := by
    rw [hlive]
    exact Bool.noConfusion
  have hexit : ∀ (o : OrderState) (result : PlaceResult),
      (o.exitPlaced result).entryPlaceReqId = o.entryPlaceReqId ∧
        (o.exitPlaced result).plan = o.plan := by
    intro o result
    unfold OrderState.exitPlaced
    cases result.order <;> exact ⟨rfl, rfl⟩
  cases h with
  | upkeep hup => exact hup.plan_of_waiting ht
  | queueEntry => exact ha.elim
  | enterPaper entry qty price rest now hpaper => exact absurd hpaper hdry
  | placed => exact ha.elim
  | refused => exact absurd rfl ht
  | entryFill fill now hbar htakes =>
    -- what takes a fill holds an order, so its placement was answered
    exact absurd (hwf.not_placing (hwf.holding_of_takesEntryFill htakes).ne_placing) ht
  | openExit qty prices result =>
    obtain ⟨hreq, hplan⟩ := hexit { s.order with state := .exitWorking } result
    exact ⟨hreq ▸ ht, hplan⟩
  | retryExit qty prices result =>
    obtain ⟨hreq, hplan⟩ := hexit s.order result
    exact ⟨hreq ▸ ht, hplan⟩
  | exitFill => exact absurd rfl ht
  | cancelEntry => exact absurd rfl ht
  | abandonEntry => exact absurd rfl ht
  | cancelExit => exact ⟨ht, rfl⟩
  | entryPaper price now hpaper => exact absurd hpaper hdry
  | openPaper hpaper => exact absurd hpaper hdry
  | exitPaper hpaper => exact absurd hpaper hdry

/-- A live engine books nothing when it tries to enter. -/
theorem Move.entering_counters {s t : Slot} {a : Act} (hlive : setup.isLive = true)
    (h : Move setup key s a t) {entry : PendingEntry} (ha : a.Enters entry) :
    t.desk.counters = s.desk.counters := by
  cases h with
  | upkeep hup => exact hup.counters
  | queueEntry => rfl
  | enterPaper entry qty price rest now hpaper =>
    rw [hlive] at hpaper
    cases hpaper
  | placed => exact ha.elim
  | refused => exact ha.elim
  | entryFill => exact ha.elim
  | openExit => exact ha.elim
  | retryExit => exact ha.elim
  | exitFill => exact ha.elim
  | cancelEntry => exact ha.elim
  | abandonEntry => exact ha.elim
  | cancelExit => exact ha.elim
  | entryPaper => exact ha.elim
  | openPaper => exact ha.elim
  | exitPaper => exact ha.elim

/-- Between the views, exposure was only released and placements were only answered. -/
structure View.Eased (v w : View) : Prop where
  counters : w.desk.counters.AtMost v.desk.counters
  nonneg : w.desk.counters.Nonneg
  waiting : ∀ key, (w.order key).entryPlaceReqId ≠ none →
    (v.order key).entryPlaceReqId ≠ none ∧ (w.order key).plan = (v.order key).plan

theorem View.Eased.refl {v : View} (hv : v.desk.counters.Nonneg) : v.Eased v :=
  ⟨.refl _, hv, fun _ hreq => ⟨hreq, rfl⟩⟩

theorem EngineSteps.eased (hlive : setup.isLive = true) {allow : View → PairKey × Act → Prop}
    {v w : View} (h : EngineSteps setup allow v w) (hv : v.Inv setup)
    (hnonneg : v.desk.counters.Nonneg) (hallow : ∀ u a, allow u a → a.2.Eases) : v.Eased w := by
  have hstep : ∀ u a u', u.Inv setup ∧ v.Eased u → allow u a → View.Move setup u a u' →
      u'.Inv setup ∧ v.Eased u' := by
    rintro u ⟨key, a⟩ u' ⟨hinv, heased⟩ ha hmove
    refine ⟨hmove.inv hinv, ?_⟩
    obtain ⟨t, ht, rfl⟩ := hmove
    obtain ⟨hle, hnonneg'⟩ := ht.eased_counters hlive (hallow u _ ha) heased.nonneg
    refine ⟨hle.trans heased.counters, hnonneg', fun key' hreq => ?_⟩
    by_cases hkey : key' = key
    · subst hkey
      rw [View.put_order_self] at hreq ⊢
      obtain ⟨hbefore, hplan⟩ := ht.plan_of_waiting hlive (hallow u _ ha) (hinv.wf key') hreq
      obtain ⟨hfirst, hsame⟩ := heased.waiting key' hbefore
      exact ⟨hfirst, hplan.trans hsame⟩
    · rw [View.put_order_of_ne u t hkey] at hreq ⊢
      exact heased.waiting key' hreq
  exact (Lib.Chain.inv (fun u => u.Inv setup ∧ v.Eased u) hstep h ⟨hv, .refl hnonneg⟩).2

/-! ## What a message books -/

namespace TradeEngine

variable {eng : TradeEngine}

/-- What the engine adds to the counters for a message: the order that a pair waits for, if
the response says that it was placed. -/
def booked? (eng : TradeEngine) : TradeMessage → Option Booking
  | .orderResponse (.placeChase id pairKey result) =>
    let st := eng.stateOf pairKey
    if st.entryPlaceReqId = some id ∧
        (result.order.isSome ∨ result.lastErr = some "order_id_missing") then
      st.pendingEntry.map fun entry =>
        ⟨exposureKey pairKey entry.direction,
          (result.priceUsed.or st.entryPrice).getD 0 * st.entryQty.getD 0,
          st.alphaType.getD entry.alphaType⟩
    else none
  | _ => none

/-- The response to a placement books the order, or changes no counter. -/
theorem placeChase_counters (eng : TradeEngine) (reqId : ℕ) (result : PlaceResult) :
    (TradeEngine.handle setup env eng
        (.orderResponse (.placeChase reqId key result))).desk.books.counters =
      match eng.booked? (.orderResponse (.placeChase reqId key result)) with
      | some b => (eng.desk.books.addExposure b.exposureKey b.notional b.alphaType).counters
      | none => eng.desk.books.counters := by
  show (TradeEngine.handleEntryPlaceResult setup env eng key reqId result).desk.books.counters = _
  unfold TradeEngine.handleEntryPlaceResult TradeEngine.onKnown booked?
  cases hlookup : eng.states.lookup key with
  | none =>
    have hidle : (eng.stateOf key).entryPlaceReqId = none := by
      unfold stateOf
      rw [hlookup]
      rfl
    simp [hidle]
  | some st =>
    obtain rfl := eng.stateOf_of_lookup hlookup
    by_cases hreq : (eng.stateOf key).entryPlaceReqId = some reqId
    · simp only [hreq, ne_eq, not_true_eq_false, if_false, true_and]
      cases hentry : (eng.stateOf key).pendingEntry with
      | none =>
        simp only [Option.map_none, ite_self]
        rfl
      | some entry =>
        simp only [Option.map_some, applyPlaceResult, Option.isSome_map]
        split
        · rfl
        · exact counters_releaseEntryPool setup.cfg eng.desk.books entry.bar.barSecond _
    · simp only [hreq, ne_eq, not_false_eq_true, if_true, false_and, if_false]
      rfl

/-- Behind the flush a bar only eases the engine. -/
theorem eased_handleBar (hlive : setup.isLive = true) (hinv : eng.Inv setup)
    (hnonneg : eng.desk.books.counters.Nonneg) (bar : Bars1sPair) (signal : Option EntrySignal) :
    (flushPendingEntries setup env eng bar.barSecond).view.Eased
        (TradeEngine.handle setup env eng (.pairBar bar signal)).view ∧
      (flushPendingEntries setup env eng bar.barSecond).view.desk.counters =
        eng.desk.books.counters := by
  have hflush := (@flushPendingEntries_steps setup env eng bar.barSecond hinv).1
  have hcounters : (flushPendingEntries setup env eng bar.barSecond).view.desk.counters =
      eng.desk.books.counters := by
    refine Lib.Chain.inv (fun v => v.desk.counters = eng.desk.books.counters) ?_ hflush rfl
    rintro v ⟨key, act⟩ w hv ⟨entry, -, -, henters⟩ ⟨t, ht, rfl⟩
    exact (ht.entering_counters hlive henters).trans hv
  have hcheck := (@handleBar_steps setup env eng bar signal hinv).1
  refine ⟨hcheck.eased hlive (hflush.inv ⟨hinv.wf, hinv.bars⟩) ?_ fun _ _ ha => ha.eases,
    hcounters⟩
  rw [hcounters]
  exact hnonneg

/-- A message that is no bar and no response to a placement only eases the engine. -/
theorem eased_of_message (hlive : setup.isLive = true) (hinv : eng.Inv setup)
    (hnonneg : eng.desk.books.counters.Nonneg) {message : TradeMessage}
    (hbar : ∀ bar signal, message ≠ .pairBar bar signal)
    (hresponse : ∀ reqId key result, message ≠ .orderResponse (.placeChase reqId key result)) :
    eng.view.Eased (TradeEngine.handle setup env eng message).view := by
  by_cases hshock : ∃ pairKey signal, message = .shock pairKey signal
  · obtain ⟨pairKey, signal, rfl⟩ := hshock
    exact .refl hnonneg
  · have hsteps := @TradeEngine.handle_steps setup env eng message hinv
    refine hsteps.eased hlive ⟨hinv.wf, hinv.bars⟩ hnonneg ?_
    rintro u ⟨key, act⟩ hallow
    cases act with
    | queueEntry entry qty prices =>
      have hnone := MessageAllow.entered hallow
        (fun pairKey signal heq => hshock ⟨pairKey, signal, heq⟩) hbar
      cases hnone
    | placed reqId result => exact absurd hallow.placed_message (hresponse _ _ _)
    | _ => trivial

/-! ### What a flush queues -/

/-- What is left of the pool of the second when a flush looks at it. -/
def flushPool (setup : Setup) (eng : TradeEngine) (second : ℤ) : TradeRiskState × ℚ :=
  -- without a balance there is no pool
  if setup.cfg.balanceTotalUsd > 0 then eng.desk.books.risk.entryPoolAvailable setup.cfg second
  else (eng.desk.books.risk, 0)

/-- The desk that a flush of the second hands to `maybe_enter`. -/
def flushDesk (setup : Setup) (eng : TradeEngine) (second : ℤ) : Desk :=
  { eng.desk with books := { eng.desk.books with risk := (eng.flushPool setup second).1 } }

/-- The pool that a flush of the second hands to `maybe_enter`. -/
def flushOverride (setup : Setup) (eng : TradeEngine) (second : ℤ) : Option ℚ :=
  if (eng.flushPool setup second).2 > 0 then some (eng.flushPool setup second).2 else none

/-- The budget that the entry gets when the pending set is flushed. -/
def flushBudget (setup : Setup) (eng : TradeEngine) (entry : PendingEntry) : Option ℚ :=
  eng.pendingSecond.bind fun second =>
    ((eng.flushDesk setup second).books.budgetForEntry setup.cfg
      (entry.bar.pairId, entry.bar.tokenSide, entry.direction) entry.bar.barSecond
      (eng.flushOverride setup second) entry.alphaType).2

end TradeEngine

/-- At the first price of its ladder the quantity costs no more than the budget. -/
def PendingEntry.FitsAt (cfg : TradeConfig) (env : Env) (entry : PendingEntry)
    (notional bestBid bestAsk scaled : ℚ) : Prop :=
  ∀ first ∈ (entryCandidates cfg entry env.now bestBid bestAsk
      (priceLimit cfg env entry (entryReference entry bestBid bestAsk) scaled)).head?,
    first * (if BelowMinimum cfg first scaled then F64.div cfg.minOrderNotionalUsd first
      else scaled) ≤ notional

instance (cfg : TradeConfig) (env : Env) (entry : PendingEntry)
    (notional bestBid bestAsk scaled : ℚ) :
    Decidable (entry.FitsAt cfg env notional bestBid bestAsk scaled) :=
  inferInstanceAs (Decidable (∀ first ∈ List.head? _, _))

/-- The factors on its quantity, and the minimum notional, keep the entry within the budget. -/
def PendingEntry.Fits (cfg : TradeConfig) (env : Env) (entry : PendingEntry) (notional : ℚ) :
    Prop :=
  ∀ bestBid ∈ opiBestBidFromBar entry.bar, ∀ bestAsk ∈ opiBestAskFromBar entry.bar,
    ∀ shape ∈ bookShape cfg entry.bar entry.direction, ∀ spread ∈ spreadScale cfg bestBid bestAsk,
      entry.FitsAt cfg env notional bestBid bestAsk
        (entryQty entry notional (entryReference entry bestBid bestAsk) shape.scale spread)

instance (cfg : TradeConfig) (env : Env) (entry : PendingEntry) (notional : ℚ) :
    Decidable (entry.Fits cfg env notional) :=
  inferInstanceAs (Decidable (∀ _ ∈ opiBestBidFromBar _, ∀ _ ∈ opiBestAskFromBar _,
    ∀ _ ∈ bookShape _ _ _, ∀ _ ∈ spreadScale _ _ _, _))

/-- Only a known book is entered. -/
theorem entryDecision_place_book {cfg : TradeConfig} {env : Env} {entry : PendingEntry}
    {shape : BookShape} {notional qty first : ℚ} {rest : List ℚ}
    (h : entryDecision cfg env entry shape notional = .place qty first rest) :
    ∃ bestBid bestAsk spread, opiBestBidFromBar entry.bar = some bestBid ∧
      opiBestAskFromBar entry.bar = some bestAsk ∧
      spreadScale cfg bestBid bestAsk = some spread := by
  unfold entryDecision at h
  dsimp only at h
  split at h
  · rename_i bestBid bestAsk hbid hask
    split at h
    · cases h
    · split at h
      · cases h
      · rename_i spread hspread
        exact ⟨bestBid, bestAsk, spread, hbid, hask, hspread⟩
  · cases h

/-- An entry that fits its budget is placed for no more than that. -/
theorem PendingEntry.Fits.place_le {cfg : TradeConfig} {env : Env} {entry : PendingEntry}
    {shape : BookShape} {notional qty first : ℚ} {rest : List ℚ}
    (h : entry.Fits cfg env notional)
    (hshape : bookShape cfg entry.bar entry.direction = some shape)
    (hplace : entryDecision cfg env entry shape notional = .place qty first rest) :
    first * qty ≤ notional := by
  obtain ⟨bestBid, bestAsk, spread, hbid, hask, hspread⟩ := entryDecision_place_book hplace
  have hplaced := entryDecision_place_inv hbid hask hspread hplace
  rw [bumpQty_eq_some hplaced.bumped]
  refine h bestBid hbid bestAsk hask shape hshape spread hspread first ?_
  rw [hplaced.candidates]
  rfl

/-- The plan of a pair whose entry was placed. -/
theorem placeEntry_plan (hlive : setup.isLive = true) {desk : Desk} {st : PairTradeState}
    {entry : PendingEntry} {qty first : ℚ} {rest : List ℚ}
    (hstands : EntryStands (placeEntry setup env desk st entry qty first rest).2) :
    (placeEntry setup env desk st entry qty first rest).2.plan =
      (some entry, some first, some qty, some entry.alphaType) := by
  unfold placeEntry at hstands ⊢
  dsimp only at hstands ⊢
  rw [if_pos hlive] at hstands ⊢
  generalize desk.req.enqueuePlaceChase setup env entry.key (entrySide entry.direction) qty
    (first :: rest) "E" = queued at hstands ⊢
  obtain ⟨req, _ | id⟩ := queued
  · -- the executor is gone: the pair is in cooldown
    rcases hstands with h | h <;> cases h
  · rfl

/-- What `maybe_enter` queues within its budget is covered. -/
theorem maybeEnter_covered (hlive : setup.isLive = true) (desk : Desk) {st : PairTradeState}
    {entry : PendingEntry} {pool : Option ℚ} (hidle : st.state = .idle)
    (hbar : st.lastBar.isSome = true)
    (hwf : st.toOrderState.Wf setup.isLive st.lastBar.isSome)
    (hkey : entry.key = (entry.bar.pairId, entry.bar.tokenSide))
    (hwithin : desk.books.counters.Within setup.cfg)
    (hfits : ∀ notional ∈ (desk.books.budgetForEntry setup.cfg
      (entry.bar.pairId, entry.bar.tokenSide, entry.direction) entry.bar.barSecond pool
      entry.alphaType).2, entry.Fits setup.cfg env notional)
    (hwaits : (maybeEnter setup env desk st entry pool).2.entryPlaceReqId ≠ none) :
    (maybeEnter setup env desk st entry pool).2.Covered setup.cfg desk.books.counters
      entry.key := by
  -- a pair that waits is placing
  have hafter := (@maybeEnter_steps setup env desk st entry pool hidle hbar hkey).wf hwf
  have hstands : EntryStands (maybeEnter setup env desk st entry pool).2 :=
    Or.inl (hafter.placing.mpr (Option.isSome_iff_ne_none.mpr hwaits))
  obtain ⟨shape, notional, books, qty, first, rest, hshape, -, hbudget, hplace, heq⟩ :=
    maybeEnter_places hidle hstands
  have hroom := Books.budgetForEntry_room hwithin (congrArg Prod.snd hbudget)
  have hcost := (hfits notional (congrArg Prod.snd hbudget)).place_le hshape hplace
  rw [heq] at hstands ⊢
  have hroom : desk.books.counters.Room setup.cfg
      ⟨exposureKey entry.key entry.direction, first * qty, entry.alphaType⟩ := by
    rw [hkey]
    exact hroom.of_le hcost
  exact ⟨entry, first, qty, (entryDecision_place hplace).1.le, placeEntry_plan hlive hstands,
    hroom⟩

namespace TradeEngine

variable {eng : TradeEngine}

theorem resetEntryPool_idem (cfg : TradeConfig) (risk : TradeRiskState) (second : ℤ) :
    (risk.resetEntryPool cfg second).resetEntryPool cfg second =
      risk.resetEntryPool cfg second := by
  have hsecond : (risk.resetEntryPool cfg second).entryPoolSecond = some second := by
    unfold TradeRiskState.resetEntryPool
    split
    · assumption
    · rfl
  -- the second call finds the pool at its second
  rw [TradeRiskState.resetEntryPool, if_pos hsecond]

/-- Looking at the pool twice shows the same. -/
theorem flushPool_idem {eng' : TradeEngine} {second : ℤ}
    (h : eng'.desk.books.risk = (eng.flushPool setup second).1) :
    eng'.flushPool setup second = eng.flushPool setup second := by
  unfold flushPool at h ⊢
  split
  · rename_i hpos
    rw [if_pos hpos] at h
    unfold TradeRiskState.entryPoolAvailable at h ⊢
    rw [h, resetEntryPool_idem]
  · rename_i hpos
    rw [if_neg hpos] at h
    rw [h]

/-- The engine that a flush of the second leaves when it passes over the entries of the pair. -/
def passed (setup : Setup) (eng : TradeEngine) (second : ℤ) (key : PairKey) : TradeEngine :=
  putBack { eng with desk := eng.flushDesk setup second } key
    (eng.flushDesk setup second, eng.stateOf key)

theorem view_flushDesk (eng : TradeEngine) (second : ℤ) :
    view { eng with desk := eng.flushDesk setup second } = eng.view := by
  refine eng.view_withDesk (view_withRisk eng.desk _ ?_)
  unfold flushPool
  split
  · exact counters_entryPoolAvailable setup.cfg eng.desk.books second
  · rfl

theorem stateOf_passed (eng : TradeEngine) (second : ℤ) (key key' : PairKey) :
    (eng.passed setup second key).stateOf key' = eng.stateOf key' := by
  unfold passed
  rw [stateOf_putBack]
  split
  · rename_i heq
    rw [heq]
  · rfl

theorem view_passed (eng : TradeEngine) (second : ℤ) (key : PairKey) :
    (eng.passed setup second key).view = eng.view := by
  have hdesk : (eng.flushDesk setup second).view = eng.desk.view :=
    congrArg View.desk (view_flushDesk eng second)
  unfold view
  congr 1
  · funext key'
    rw [stateOf_passed]
  · funext key'
    rw [stateOf_passed]

theorem flushPool_passed (eng : TradeEngine) (second : ℤ) (key : PairKey) :
    (eng.passed setup second key).flushPool setup second = eng.flushPool setup second :=
  flushPool_idem rfl

theorem flushDesk_passed (eng : TradeEngine) (second : ℤ) (key : PairKey) :
    (eng.passed setup second key).flushDesk setup second = eng.flushDesk setup second := by
  unfold flushDesk
  rw [flushPool_passed]
  rfl

theorem flushOverride_passed (eng : TradeEngine) (second : ℤ) (key : PairKey) :
    (eng.passed setup second key).flushOverride setup second = eng.flushOverride setup second := by
  unfold flushOverride
  rw [flushPool_passed]

theorem idleEntries_passed (eng : TradeEngine) (second : ℤ) (key : PairKey)
    (entries : List PendingEntry) :
    (eng.passed setup second key).idleEntries entries = eng.idleEntries entries := by
  unfold idleEntries
  simp only [stateOf_passed]

theorem idleEntries_cons_of_idle {head : PendingEntry} (rest : List PendingEntry)
    (hidle : (eng.stateOf head.key).state = .idle) :
    eng.idleEntries (head :: rest) = head :: eng.idleEntries rest := by
  have hpos : decide ((eng.stateOf head.key).state = .idle) = true := decide_eq_true hidle
  exact List.filter_cons_of_pos hpos

theorem idleEntries_cons_of_busy {head : PendingEntry} (rest : List PendingEntry)
    (hbusy : (eng.stateOf head.key).state ≠ .idle) :
    eng.idleEntries (head :: rest) = eng.idleEntries rest := by
  unfold idleEntries
  rw [List.filter_cons_of_neg (by simpa using hbusy)]

/-- Without an idle pair among its entries a flush does nothing. -/
theorem flushLoop_none (second : ℤ) {entries : List PendingEntry}
    (hentries : ∀ entry ∈ entries, entry.key = (entry.bar.pairId, entry.bar.tokenSide) ∧
      (eng.view.lastBar entry.key).isSome = true)
    (hidle : eng.idleEntries entries = []) :
    (flushLoop setup env second entries eng).view = eng.view := by
  have hsteps := @flushLoop_steps setup env second entries eng hentries
  rw [hidle] at hsteps
  refine Lib.Chain.inv (fun v => v = eng.view) ?_ hsteps rfl
  rintro v a w - ⟨entry, hmem, -⟩
  exact absurd hmem List.not_mem_nil

/-- With one idle pair among its entries a flush is at most one call of `maybe_enter`. -/
theorem flushLoop_one (second : ℤ) {entries : List PendingEntry} {entry : PendingEntry}
    (hentries : ∀ entry ∈ entries, entry.key = (entry.bar.pairId, entry.bar.tokenSide) ∧
      (eng.view.lastBar entry.key).isSome = true)
    (hidle : eng.idleEntries entries = [entry]) :
    (flushLoop setup env second entries eng).view = eng.view ∨
      (flushLoop setup env second entries eng).view = eng.view.put entry.key
        (slotOf (maybeEnter setup env (eng.flushDesk setup second) (eng.stateOf entry.key) entry
          (eng.flushOverride setup second))) := by
  induction entries generalizing eng with
  | nil => cases hidle
  | cons head rest ih =>
    have hpool : (if setup.cfg.balanceTotalUsd > 0 then
          eng.desk.books.risk.entryPoolAvailable setup.cfg second
        else (eng.desk.books.risk, 0)) = eng.flushPool setup second := rfl
    unfold flushLoop
    simp only [hpool]
    split
    · exact Or.inl (view_flushDesk eng second)
    · split
      · -- the idle pair; no other entry of the list is of an idle pair
        rename_i hstate
        have hstate : (eng.stateOf head.key).state = .idle := hstate
        rw [idleEntries_cons_of_idle rest hstate] at hidle
        obtain ⟨rfl, hrest⟩ := List.cons.inj hidle
        have hother : ∀ e ∈ rest, (eng.stateOf e.key).state ≠ .idle := by
          intro e he hidleE
          have hmem := mem_idleEntries.mpr ⟨he, hidleE⟩
          rw [hrest] at hmem
          cases hmem
        have hne : ∀ e ∈ rest, e.key ≠ head.key :=
          fun e he heq => hother e he (heq ▸ hstate)
        refine Or.inr ?_
        have hview := view_putBack { eng with desk := eng.flushDesk setup second } head.key
          (maybeEnter setup env (eng.flushDesk setup second) (eng.stateOf head.key) head
            (eng.flushOverride setup second))
        rw [view_flushDesk] at hview
        refine (flushLoop_none second ?_ ?_).trans hview
        · intro e he
          obtain ⟨hkey, hbar⟩ := hentries e (List.mem_cons_of_mem _ he)
          refine ⟨hkey, ?_⟩
          have hput := View.put_lastBar_of_ne eng.view (slotOf (maybeEnter setup env
            (eng.flushDesk setup second) (eng.stateOf head.key) head
              (eng.flushOverride setup second))) (hne e he)
          rw [← hview] at hput
          exact (congrArg Option.isSome hput).trans hbar
        · refine List.eq_nil_iff_forall_not_mem.mpr fun e he => ?_
          obtain ⟨hmem, hidleE⟩ := mem_idleEntries.mp he
          refine hother e hmem ?_
          rw [stateOf_putBack, if_neg (hne e hmem)] at hidleE
          exact hidleE
      · -- the entry is passed over, and the pool is looked at again
        rename_i hstate
        have hstate : (eng.stateOf head.key).state ≠ .idle := hstate
        rw [idleEntries_cons_of_busy rest hstate] at hidle
        have hpassed := @ih (eng.passed setup second head.key)
          (fun e he => by
            rw [view_passed]
            exact hentries e (List.mem_cons_of_mem _ he))
          ((idleEntries_passed eng second head.key rest).trans hidle)
        rw [view_passed, stateOf_passed, flushDesk_passed, flushOverride_passed] at hpassed
        exact hpassed

/-- With one entry due a flush is at most one call of `maybe_enter`. -/
theorem flushPendingEntries_one (hinv : eng.Inv setup) {barSecond : ℤ} {entry : PendingEntry}
    (hdue : dueEntries setup eng barSecond = [entry]) :
    ∃ second, eng.pendingSecond = some second ∧ entry ∈ eng.pendingEntries ∧
      (eng.stateOf entry.key).state = .idle ∧
      ((flushPendingEntries setup env eng barSecond).view = eng.view ∨
        (flushPendingEntries setup env eng barSecond).view = eng.view.put entry.key
          (slotOf (maybeEnter setup env (eng.flushDesk setup second) (eng.stateOf entry.key) entry
            (eng.flushOverride setup second)))) := by
  unfold dueEntries at hdue
  cases hsecond : eng.pendingSecond with
  | none =>
    rw [hsecond] at hdue
    cases hdue
  | some second =>
    rw [hsecond] at hdue
    dsimp only at hdue
    split at hdue
    · cases hdue
    · rename_i hlate
      have hmem : entry ∈ eng.idleEntries (rankEntries .shockA setup.cfg.rankTopKA
          eng.pendingEntries ++ rankEntries .gapB setup.cfg.rankTopKB eng.pendingEntries) := by
        rw [hdue]
        exact List.mem_singleton_self entry
      obtain ⟨hranked, hidle⟩ := mem_idleEntries.mp hmem
      have hpending := mem_rankedEntries hranked
      refine ⟨second, rfl, hpending, hidle, ?_⟩
      unfold flushPendingEntries
      rw [hsecond]
      dsimp only
      rw [if_neg hlate, if_neg (List.ne_nil_of_mem hpending)]
      -- the pool is reset first, which neither the view nor a later look at it sees
      generalize heng : (if setup.cfg.balanceTotalUsd > 0 then _ else _ : TradeEngine) = eng₀
      have hstates : eng₀.states = eng.states := by
        rw [← heng]
        split <;> rfl
      have hpool : eng₀.flushPool setup second = eng.flushPool setup second := by
        rw [← heng]
        unfold flushPool TradeRiskState.entryPoolAvailable
        split
        · rw [resetEntryPool_idem]
        · rfl
      have hstateOf : ∀ key, eng₀.stateOf key = eng.stateOf key := by
        intro key
        unfold stateOf
        rw [hstates]
      have hdesk : eng₀.flushDesk setup second = eng.flushDesk setup second := by
        unfold flushDesk
        rw [hpool, ← heng]
        split <;> rfl
      have hoverride : eng₀.flushOverride setup second = eng.flushOverride setup second := by
        unfold flushOverride
        rw [hpool]
      have hview : eng₀.view = eng.view := by
        rw [← @view_flushDesk setup eng₀ second, ← @view_flushDesk setup eng second, hdesk]
        unfold view stateOf
        simp only [hstates]
      have hone := @flushLoop_one setup env eng₀ second _ entry
        (fun e he => by
          rw [hview]
          exact hinv.pending e (@mem_rankedEntries setup.cfg _ _ he))
        (by
          rw [← hdue]
          unfold idleEntries
          simp only [hstateOf])
      rw [hview, hstateOf, hdesk, hoverride] at hone
      exact hone

end TradeEngine

end AlphaMonitor.Trade
