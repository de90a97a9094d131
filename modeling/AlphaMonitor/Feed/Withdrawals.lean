import AlphaMonitor.Feed.Messages
import AlphaMonitor.Feed.PriceChange
import AlphaMonitor.Shard.FlowWindows
import AlphaMonitor.Trade.Signals
import Mathlib.Algebra.Order.BigOperators.Group.List

/-!
# Withdrawn liquidity

Both venues report the new size of a level.  What a level update records as a change of the
depth is this size, not its difference to the old one, and a size of zero is not recorded at
all.  So the depth never shrinks, and a cancel that waits for it to shrink never comes.

## Main definitions

- `ParsedLevel`: the level updates of the two parsers
- `ShowsChange`: an update records the change of its level
- `withdrawn`: what a run of updates takes from the bids

## Main results

- `withdrawals_shown_iff`: single updates, and runs of removals
- `bidWithdraw_never`: the cancel
-/

namespace AlphaMonitor.Feed

open Shard
open Lib (Machine)

/-! ## Level updates of the parsers -/

/-- A level update as `parse_price_change` or `handle_message` makes it. -/
inductive ParsedLevel : Event → Prop where
  | polymarket {assetKey : String → Option String} {message : PriceChangeMessage} {localTsMs : ℤ}
      {lastGood : LastGoodTs} {change : PriceChange} {event : Event}
      (parsed : (parseChange assetKey message localTsMs lastGood change).1 = some event) :
      ParsedLevel event
  | opinion (arrival : Arrival) (tokenKey : String) (message : MarketMessage)
      (update : message.isBookUpdate = true) : ParsedLevel (message.event arrival tokenKey)

/-- What a level update says: a side, a price and the new size, which may be zero. -/
structure LevelUpdate (event : Event) (side : BookSide) (price size : ℚ) : Prop where
  isDelta : event.kind = .bookDelta
  hasSide : event.payload.side = some side
  hasPrice : event.payload.price = some price
  hasSize : event.payload.size = some size
  hasType : event.payload.deltaType = some (if size ≤ 0 then .cancel else .addOrUpdate)

theorem ParsedLevel.update {event : Event} (h : ParsedLevel event) :
    ∃ side price size, LevelUpdate event side price size := by
  cases h with
  | @polymarket assetKey message localTsMs lastGood change event parsed =>
    unfold parseChange at parsed
    cases hkey : (change.assetId.or message.assetId).bind assetKey with
    | none =>
      rw [hkey] at parsed
      cases parsed
    | some tokenKey =>
      rw [hkey] at parsed
      dsimp only at parsed
      cases hside : change.side with
      | none =>
        rw [hside] at parsed
        cases parsed
      | some side =>
        cases hprice : change.price with
        | none =>
          rw [hside, hprice] at parsed
          cases parsed
        | some price =>
          rw [hside, hprice] at parsed
          cases parsed
          exact ⟨side, price, change.size.getD 0, rfl, rfl, rfl, rfl, rfl⟩
  | opinion arrival tokenKey message update =>
    unfold MarketMessage.isBookUpdate at update
    simp only [Bool.and_eq_true, decide_eq_true_eq] at update
    obtain ⟨⟨htype, hside⟩, hprice⟩ := update
    obtain ⟨side, hside⟩ := Option.isSome_iff_exists.mp hside
    obtain ⟨price, hprice⟩ := Option.isSome_iff_exists.mp hprice
    refine ⟨side, price, message.size.getD 0, ?_, ?_, ?_, ?_, ?_⟩ <;>
      simp only [MarketMessage.event, MarketMessage.parse, htype, hside, hprice]

/-! ## What one update records -/

/-- What a window holds for one time. -/
def recordedAt (t : ℤ) (window : List (ℤ × ℚ)) : ℚ :=
  windowTotal (window.filter fun entry => decide (entry.1 = t))

/-- What an event adds to the depth window of a side at its time. -/
def recordedChange (st : TokenState) (event : Event) (side : BookSide) : ℚ :=
  recordedAt event.localTsMs (((st.handleEvent event).state.flowView 0).depth side) -
    recordedAt event.localTsMs ((st.flowView 0).depth side)

/-- The event is not too late, and gives a positive price and a positive size. -/
def counts (st : TokenState) (event : Event) (price size : ℚ) : Bool :=
  (st.admitEvent event).2.isSome && decide (0 < price) && decide (0 < size)

/-- A level update records the change of its level: price times new size minus old size. -/
def ShowsChange (st : TokenState) (event : Event) (side : BookSide) (price size : ℚ) : Prop :=
  recordedChange st event side = price * (max size 0 - st.orderbook.sizeAt side price)

/-- When it does: an update that counts fills an empty level, another one leaves its level as it
is. -/
def ChangeGuard (st : TokenState) (event : Event) (side : BookSide) (price size : ℚ) : Prop :=
  if counts st event price size then st.orderbook.sizeAt side price = 0
  else price = 0 ∨ st.orderbook.sizeAt side price = max size 0

theorem filter_dropWhile_of_disjoint {α : Type} (p q : α → Bool) (l : List α)
    (h : ∀ a, q a = true → p a = false) : (l.dropWhile q).filter p = l.filter p := by
  induction l with
  | nil => rfl
  | cons a rest ih =>
    by_cases hq : q a = true
    · rw [List.dropWhile_cons_of_pos hq, ih, List.filter_cons_of_neg (by simp [h a hq])]
    · rw [List.dropWhile_cons_of_neg hq]

/-- Trimming drops nothing that is new. -/
theorem recordedAt_push (t : ℤ) (window : List (ℤ × ℚ)) (signed : ℚ) :
    recordedAt t (TokenState.trimWindow Prod.fst t (window ++ [(t, signed)])) =
      recordedAt t window + signed := by
  unfold recordedAt TokenState.trimWindow windowTotal
  rw [filter_dropWhile_of_disjoint]
  · simp
  · intro entry hold
    have hlt := of_decide_eq_true hold
    have hwindow : ofiFastWindowMs = 250 := rfl
    exact decide_eq_false (by omega)

theorem levelRecord_update {event : Event} {side : BookSide} {price size : ℚ}
    (h : LevelUpdate event side price size) :
    levelRecord event = if 0 < price ∧ 0 < size then some (side, price * size) else none := by
  unfold levelRecord
  rw [h.hasSide, h.hasPrice, h.hasSize, h.hasType]
  simp only [Option.bind_some, Option.getD_some]
  unfold levelFlow
  by_cases hcounts : 0 < price ∧ 0 < size
  · have hpos := mul_pos hcounts.1 hcounts.2
    have hsize : ¬size ≤ 0 := not_le.mpr hcounts.2
    have hnone : ¬(price ≤ 0 ∨ size ≤ 0) := by
      rintro (hprice | hsize')
      · exact absurd hcounts.1 (not_lt.mpr hprice)
      · exact hsize hsize'
    rw [if_neg hnone, if_neg hsize, if_pos hcounts]
    have habs : ¬|TokenState.signedNotional .addOrUpdate (price * size)| ≤ 0 := by
      rw [not_le]
      exact abs_pos.mpr hpos.ne'
    rw [if_neg habs]
    rfl
  · rw [if_neg hcounts]
    have hnone : price ≤ 0 ∨ size ≤ 0 := by
      rcases not_and_or.mp hcounts with hprice | hsize
      · exact Or.inl (not_lt.mp hprice)
      · exact Or.inr (not_lt.mp hsize)
    rw [if_pos hnone]
    rfl

/-- What a level update that counts records: the whole of the new size. -/
theorem recorded_level {st : TokenState} {event : Event} {side : BookSide} {price size : ℚ}
    (h : LevelUpdate event side price size) :
    (st.recorded event).level =
      if counts st event price size then some (side, price * size) else none := by
  unfold TokenState.recorded counts
  cases hsecond : (st.admitEvent event).2 with
  | none => simp [Recorded.nothing]
  | some s =>
    rw [if_neg (Option.some_ne_none s)]
    unfold recordOf
    rw [h.isDelta]
    dsimp only
    rw [levelRecord_update h]
    simp

theorem recordedChange_eq {st : TokenState} {event : Event} {side : BookSide} {price size : ℚ}
    (h : LevelUpdate event side price size) :
    recordedChange st event side = if counts st event price size then price * size else 0 := by
  have hdepth := sameFlows_depth (st.handleEvent_record event) side
  have hlevel := @recorded_level st event side price size h
  unfold recordedChange
  rw [flowView_depth _ 0 event.barSecond, flowView_depth st 0 event.barSecond, hdepth]
  rcases record_depth (st.flowView event.barSecond) FlowLog.empty event.localTsMs
      (st.recorded event) side with ⟨hsame, -, hother⟩ | ⟨signed, hsigned, hpushed, -⟩
  · rw [hsame, sub_self]
    split
    · rename_i hcounts
      rw [hlevel, if_pos hcounts] at hother
      have hself := hother _ rfl
      cases side <;> cases hself
    · rfl
  · rw [hpushed, recordedAt_push, add_sub_cancel_left]
    rw [hlevel] at hsigned
    split at hsigned
    · rename_i hcounts
      rw [if_pos hcounts]
      exact (congrArg Prod.snd (Option.some.inj hsigned)).symm
    · cases hsigned

theorem showsChange_iff (st : TokenState) {event : Event} {side : BookSide} {price size : ℚ}
    (h : LevelUpdate event side price size) :
    ShowsChange st event side price size ↔ ChangeGuard st event side price size := by
  unfold ShowsChange ChangeGuard
  rw [recordedChange_eq h]
  generalize st.orderbook.sizeAt side price = old
  by_cases hcounts : counts st event price size = true
  · rw [if_pos hcounts, if_pos hcounts]
    unfold counts at hcounts
    simp only [Bool.and_eq_true, decide_eq_true_eq] at hcounts
    rw [max_eq_left hcounts.2.le, mul_right_inj' hcounts.1.2.ne', eq_comm, sub_eq_self]
  · rw [if_neg hcounts, if_neg hcounts]
    constructor
    · intro hzero
      rcases mul_eq_zero.mp hzero.symm with hprice | hsame
      · exact Or.inl hprice
      · exact Or.inr (sub_eq_zero.mp hsame).symm
    · rintro (hprice | hsame)
      · rw [hprice, zero_mul]
      · rw [hsame, sub_self, mul_zero]

/-! ## Runs of removals -/

/-- What happens to a token. -/
def takeInput (st : TokenState) : TokenInput → TokenState
  | .event event => (st.handleEvent event).state
  | .flush cfg tokenKey => (st.flushReady cfg tokenKey).1
  | .tick barSecond => st.advance barSecond

/-- The worth of the bids at the price of an event. -/
def bidWorth (st : TokenState) (event : Event) : ℚ :=
  event.payload.price.getD 0 * st.orderbook.sizeAt .bid (event.payload.price.getD 0)

/-- What a run of removals takes from the bids. -/
def withdrawn : TokenState → List TokenInput → ℚ
  | _, [] => 0
  | st, .event event :: rest => bidWorth st event + withdrawn (takeInput st (.event event)) rest
  | st, input :: rest => withdrawn (takeInput st input) rest

/-- Level updates that remove bids, and whatever else the shard does in between. -/
def OnlyRemovesBids (inputs : List TokenInput) : Prop :=
  ∀ event, .event event ∈ inputs → ParsedLevel event ∧ event.payload.side = some .bid ∧
    ∀ size ∈ event.payload.size, size ≤ 0

/-- All updates come within 250 ms. -/
def WithinWindow (inputs : List TokenInput) : Prop :=
  ∀ event event', .event event ∈ inputs → .event event' ∈ inputs →
    event.localTsMs - event'.localTsMs ≤ ofiFastWindowMs

/-- The `bid_delta_notional_250ms` that a second has. -/
def bidDeltaOf (st : TokenState) (second : ℤ) : ℚ := (st.flowView second).totals.bidDelta

/-- Nothing has been recorded of the bids. -/
def NoBidDelta (st : TokenState) : Prop :=
  st.flow.bidDeltaWindow = [] ∧ ∀ second, bidDeltaOf st second = 0

/-- Other seconds keep their sums. -/
theorem totals_handleEvent_of_ne (st : TokenState) {event : Event} {second : ℤ}
    (hne : second ≠ event.barSecond) :
    ((st.handleEvent event).state.flowView second).totals = (st.flowView second).totals := by
  have hacc : (st.handleEvent event).state.accumulators second = st.accumulators second := by
    rw [TokenState.handleEvent_eq]
    dsimp only
    have hother : (st.admitEvent event).2 ≠ some second := by
      intro hsecond
      exact hne (TokenState.admitEvent_second hsecond)
    have hdispatch := (TokenState.dispatch_same ((st.admitEvent event).1.countEvent
      (TokenState.classify event (st.admitEvent event).2) (st.admitEvent event).2)
      (TokenState.classify event (st.admitEvent event).2) (st.admitEvent event).2).others second hother
    rw [hdispatch]
    have hadmit : (st.admitEvent event).1.accumulators = st.accumulators := by
      unfold TokenState.admitEvent
      dsimp only
      split
      · rfl
      · split <;> rfl
    rw [← hadmit]
    cases hsecond : (st.admitEvent event).2 with
    | none => rfl
    | some s =>
      rw [hsecond] at hother
      exact Function.update_of_ne (fun heq => hother (congrArg some heq.symm)) _ _
  unfold TokenState.flowView
  rw [hacc]

/-- An event that records no depth change leaves the sums of the depth alone. -/
theorem bidDeltaOf_handleEvent {st : TokenState} {event : Event}
    (hnone : (st.recorded event).level = none) (second : ℤ) :
    bidDeltaOf (st.handleEvent event).state second = bidDeltaOf st second := by
  unfold bidDeltaOf
  by_cases hsecond : second = event.barSecond
  · rw [hsecond, st.handleEvent_record event]
    dsimp only
    unfold FlowView.record
    rw [hnone]
    cases (st.recorded event).best <;> cases (st.recorded event).trade <;> rfl
  · rw [totals_handleEvent_of_ne st hsecond]

theorem flowMachine_step_state {s s' : FlowRun} {input : TokenInput}
    (h : flowMachine.step s input = some s') : s'.state = takeInput s.state input := by
  cases input with
  | event event =>
    obtain ⟨-, heq⟩ := Option.ite_none_right_eq_some.mp h
    cases heq
    rfl
  | flush cfg tokenKey =>
    cases h
    rfl
  | tick barSecond =>
    cases h
    rfl

/-- A flush closes seconds, and leaves the others alone. -/
theorem flushReady_accumulators (cfg : ShardConfig) (tokenKey : String) (st : TokenState)
    (second : ℤ) :
    (st.flushReady cfg tokenKey).1.accumulators second = st.accumulators second ∨
      (st.flushReady cfg tokenKey).1.accumulators second = none := by
  have hloop : ∀ (n : ℕ) (current : ℤ) (st : TokenState),
      (TokenState.flushLoop cfg tokenKey n current st).1.accumulators second =
          st.accumulators second ∨
        (TokenState.flushLoop cfg tokenKey n current st).1.accumulators second = none := by
    intro n
    induction n with
    | zero => exact fun _ _ => Or.inl rfl
    | succ n ih =>
      intro current st
      have hrest := ih (current + 1) (TokenState.flush { st with
        accumulators := Function.update st.accumulators current none } cfg tokenKey current
          ((st.accumulators current).getD SecondAccumulator.default)).1
      have hclosed : Function.update st.accumulators current none second = st.accumulators second ∨
          Function.update st.accumulators current none second = none := by
        by_cases hsame : second = current
        · right
          rw [hsame, Function.update_self]
        · left
          rw [Function.update_of_ne hsame]
      rcases hrest with hkept | hnone
      · rcases hclosed with hsame | hnone
        · exact Or.inl (hkept.trans hsame)
        · exact Or.inr (hkept.trans hnone)
      · exact Or.inr hnone
  unfold TokenState.flushReady
  dsimp only
  split
  · exact Or.inl rfl
  · exact hloop _ _ st

/-- What holds of all seconds, new ones included, holds of them after a flush or a tick. -/
theorem totals_takeInput {P : FlowTotals → Prop} (hnew : P SecondAccumulator.default.flows)
    {st : TokenState} (h : ∀ second, P (st.flowView second).totals) {input : TokenInput}
    (hinput : ∀ event, input ≠ .event event) (second : ℤ) :
    P ((takeInput st input).flowView second).totals := by
  cases input with
  | event event => exact absurd rfl (hinput event)
  | flush cfg tokenKey =>
    show P (((st.flushReady cfg tokenKey).1.accumulators second).getD
      SecondAccumulator.default).flows
    rcases flushReady_accumulators cfg tokenKey st second with hkept | hnone
    · rw [hkept]
      exact h second
    · rw [hnone]
      exact hnew
  | tick barSecond =>
    show P ((st.advance barSecond).flowView second).totals
    unfold TokenState.advance
    split <;> exact h second

theorem flow_takeInput {st : TokenState} {input : TokenInput}
    (hinput : ∀ event, input ≠ .event event) : (takeInput st input).flow = st.flow := by
  cases input with
  | event event => exact absurd rfl (hinput event)
  | flush cfg tokenKey => exact flushReady_flow cfg tokenKey st
  | tick barSecond =>
    show (st.advance barSecond).flow = st.flow
    unfold TokenState.advance
    split <;> rfl

/-- An event that records no depth change leaves the depth windows alone. -/
theorem depth_handleEvent {st : TokenState} {event : Event}
    (hnone : (st.recorded event).level = none) (side : BookSide) :
    ((st.handleEvent event).state.flowView 0).depth side = (st.flowView 0).depth side := by
  rw [flowView_depth _ 0 event.barSecond, flowView_depth st 0 event.barSecond,
    sameFlows_depth (st.handleEvent_record event)]
  rcases record_depth (st.flowView event.barSecond) FlowLog.empty event.localTsMs
      (st.recorded event) side with ⟨hsame, -, -⟩ | ⟨signed, hsigned, -, -⟩
  · exact hsame
  · rw [hnone] at hsigned
    cases hsigned

/-- The removal of a level is not recorded. -/
theorem recorded_removal {event : Event} (hparsed : ParsedLevel event)
    (hzero : ∀ size ∈ event.payload.size, size ≤ 0) (st : TokenState) :
    (st.recorded event).level = none := by
  obtain ⟨side, price, size, hupdate⟩ := hparsed.update
  have hsize := hzero size hupdate.hasSize
  have hcounts : counts st event price size = false := by
    unfold counts
    simp [hsize]
  rw [recorded_level hupdate, hcounts]
  rfl

/-- Whatever is removed, no depth change is seen. -/
theorem noBidDelta_run {s final : FlowRun} {inputs : List TokenInput} (hnone : NoBidDelta s.state)
    (honly : OnlyRemovesBids inputs) (hrun : flowMachine.run s inputs = some final) :
    NoBidDelta final.state := by
  induction inputs generalizing s with
  | nil =>
    cases hrun
    exact hnone
  | cons input rest ih =>
    obtain ⟨s', hstep, hrest⟩ := flowMachine.run_cons_eq_some hrun
    have hstate := flowMachine_step_state hstep
    have hafter : NoBidDelta (takeInput s.state input) := by
      by_cases hevent : ∃ event, input = .event event
      · obtain ⟨event, rfl⟩ := hevent
        obtain ⟨hparsed, -, hzero⟩ := honly event List.mem_cons_self
        have hlevel := recorded_removal hparsed hzero s.state
        constructor
        · exact (depth_handleEvent hlevel .bid).trans hnone.1
        · intro second
          exact (bidDeltaOf_handleEvent hlevel second).trans (hnone.2 second)
      · have hother : ∀ event, input ≠ .event event := fun event heq => hevent ⟨event, heq⟩
        constructor
        · rw [flow_takeInput hother]
          exact hnone.1
        · exact @totals_takeInput (fun totals => totals.bidDelta = 0) rfl s.state hnone.2 input
            hother
    apply ih
    · rw [hstate]
      exact hafter
    · exact fun event hmem => honly event (List.mem_cons_of_mem input hmem)
    · exact hrest

theorem removals_shown_iff {s final : FlowRun} {inputs : List TokenInput} (second : ℤ)
    (hnone : NoBidDelta s.state) (honly : OnlyRemovesBids inputs)
    (hrun : flowMachine.run s inputs = some final) :
    (∀ worth ≤ withdrawn s.state inputs, bidDeltaOf final.state second ≤ -worth) ↔
      withdrawn s.state inputs ≤ 0 := by
  rw [(noBidDelta_run hnone honly hrun).2 second]
  constructor
  · intro hall
    have htotal := hall _ (le_refl _)
    linarith
  · intro htotal worth hworth
    linarith

/-! ## Withdrawn liquidity as a negative change -/

/-- An update of the parsers records the change of its level just in case it fills an empty level,
or counts for nothing and leaves its level as it is; and a run that only removes bids shows what
they were worth just in case they were worth nothing. -/
theorem withdrawals_shown_iff (st : TokenState) (event : Event) (hparsed : ParsedLevel event)
    (s final : FlowRun) (inputs : List TokenInput) (second : ℤ) (hnone : NoBidDelta s.state)
    (honly : OnlyRemovesBids inputs) (hrun : flowMachine.run s inputs = some final) :
    (∃ side price size, LevelUpdate event side price size ∧
        (ShowsChange st event side price size ↔ ChangeGuard st event side price size)) ∧
      ((∀ worth ≤ withdrawn s.state inputs, bidDeltaOf final.state second ≤ -worth) ↔
        withdrawn s.state inputs ≤ 0) := by
  obtain ⟨side, price, size, hupdate⟩ := hparsed.update
  exact ⟨⟨side, price, size, hupdate, showsChange_iff st hupdate⟩,
    removals_shown_iff second hnone honly hrun⟩

/-! ### Samples -/

/-- The only bid of a token is removed. -/
def removeBid : PriceChange where
  assetId := none
  tsRaw := none
  hash := none
  bestBid := none
  bestAsk := none
  side := some .bid
  price := some (2 / 5)
  size := some 0

/-- The event of the removal. -/
def bidRemoved : Event where
  venue := .polymarket
  tokenKey := "token"
  kind := .bookDelta
  channel := some "price_change"
  exchangeTsMs := 1700000001000
  localTsMs := 1700000001000
  exchangeTsSource := .venueWs
  flags := ⟨false, false, false, false⟩
  payload :=
    { EventPayload.empty with
      side := some .bid
      deltaType := some .cancel
      price := some (2 / 5)
      size := some 0
      bestBid := some (41 / 100)
      bestAsk := some (3 / 5) }

theorem bidRemoved_parsed : ParsedLevel bidRemoved :=
  @ParsedLevel.polymarket oneAsset (bidMoves []) 1700000001000 (fun _ => none) removeBid bidRemoved
    (by decide +kernel)

/-- The token before the removal. -/
def syncedRun : FlowRun := ⟨syncedToken, FlowLog.empty, 1700000000000⟩

theorem syncedToken_noBidDelta : NoBidDelta syncedToken := by
  unfold syncedToken
  constructor
  · -- A snapshot records no depth change.
    exact depth_handleEvent rfl .bid
  · intro second
    rw [bidDeltaOf_handleEvent]
    · rfl
    · rfl

theorem onlyRemovesBids_singleton {event : Event} (hparsed : ParsedLevel event)
    (hside : event.payload.side = some .bid) (hsize : event.payload.size = some 0) :
    OnlyRemovesBids [.event event] := by
  intro other hmem
  obtain rfl : other = event := by simpa using hmem
  refine ⟨hparsed, hside, ?_⟩
  rw [hsize]
  rintro size ⟨⟩
  exact le_refl 0

/-- A bid is placed where there was none. -/
def bidPlaced : Event :=
  { bidRemoved with
    payload :=
      { bidRemoved.payload with
        deltaType := some .addOrUpdate
        price := some (39 / 100)
        size := some 5 } }

/-- A bid is removed where there was none. -/
def emptyRemoved : Event :=
  { bidRemoved with payload := { bidRemoved.payload with price := some (39 / 100) } }

theorem bidPlaced_parsed : ParsedLevel bidPlaced :=
  @ParsedLevel.polymarket oneAsset (bidMoves []) 1700000001000 (fun _ => none)
    { removeBid with price := some (39 / 100), size := some 5 } bidPlaced (by decide +kernel)

theorem emptyRemoved_parsed : ParsedLevel emptyRemoved :=
  @ParsedLevel.polymarket oneAsset (bidMoves []) 1700000001000 (fun _ => none)
    { removeBid with price := some (39 / 100) } emptyRemoved (by decide +kernel)

/-- A new bid is seen, and there is nothing to see where none is removed. -/
theorem withdrawals_shown_emptyLevel :
    ShowsChange syncedToken bidPlaced .bid (39 / 100) 5 ∧
      ∀ worth ≤ withdrawn syncedToken [.event emptyRemoved],
        bidDeltaOf (takeInput syncedToken (.event emptyRemoved)) 1700000001 ≤ -worth := by
  obtain ⟨⟨side, price, size, hupdate, hshown⟩, hruns⟩ :=
    withdrawals_shown_iff syncedToken bidPlaced bidPlaced_parsed syncedRun
      ⟨takeInput syncedToken (.event emptyRemoved),
        FlowLog.empty.record 1700000001000 (syncedToken.recorded emptyRemoved), 1700000001000⟩
      [.event emptyRemoved] 1700000001 syncedToken_noBidDelta
      (onlyRemovesBids_singleton emptyRemoved_parsed rfl rfl) rfl
  obtain rfl : .bid = side := Option.some.inj hupdate.hasSide
  obtain rfl : 39 / 100 = price := Option.some.inj hupdate.hasPrice
  obtain rfl : 5 = size := Option.some.inj hupdate.hasSize
  exact ⟨hshown.mpr (by unfold ChangeGuard; decide +kernel), hruns.mpr (by decide +kernel)⟩

/-- The bids worth 4 go unseen. -/
theorem withdrawals_not_shown :
    (¬ ∀ (st : TokenState) (event : Event) (side : BookSide) (price size : ℚ),
        ParsedLevel event → LevelUpdate event side price size →
        ShowsChange st event side price size) ∧
      ¬ ∀ (s final : FlowRun) (inputs : List TokenInput) (second : ℤ), NoBidDelta s.state →
        OnlyRemovesBids inputs → WithinWindow inputs → flowMachine.run s inputs = some final →
        ∀ worth ≤ withdrawn s.state inputs, bidDeltaOf final.state second ≤ -worth := by
  constructor
  · intro hall
    have hupdate : LevelUpdate bidRemoved .bid (2 / 5) 0 := ⟨rfl, rfl, rfl, rfl, rfl⟩
    have hshown := hall syncedToken bidRemoved .bid (2 / 5) 0 bidRemoved_parsed hupdate
    rw [showsChange_iff syncedToken hupdate] at hshown
    revert hshown
    unfold ChangeGuard
    decide +kernel
  · intro hall
    have hwithin : WithinWindow [.event bidRemoved] := by
      intro event event' hmem hmem'
      obtain rfl : event = bidRemoved := by simpa using hmem
      obtain rfl : event' = bidRemoved := by simpa using hmem'
      decide
    have hrun : ∃ final, flowMachine.run syncedRun [.event bidRemoved] = some final := ⟨_, rfl⟩
    obtain ⟨final, hrun⟩ := hrun
    have hseen := hall syncedRun final [.event bidRemoved] 1700000001 syncedToken_noBidDelta
      (onlyRemovesBids_singleton bidRemoved_parsed rfl rfl) hwithin hrun
    rw [removals_shown_iff 1700000001 syncedToken_noBidDelta
      (onlyRemovesBids_singleton bidRemoved_parsed rfl rfl) hrun] at hseen
    revert hseen
    decide +kernel

/-! ## The cancel -/

/-- The event comes from the feeds: a level update is one of the parsers'. -/
def FromFeeds (event : Event) : Prop :=
  event.kind = .bookDelta → ParsedLevel event ∨ event.payload.side = none

/-- No depth change is negative, and no sum over them. -/
structure NeverShrinks (st : TokenState) : Prop where
  windows : ∀ side, ∀ entry ∈ (st.flowView 0).depth side, 0 ≤ entry.2
  sums : ∀ second, 0 ≤ (st.flowView second).totals.bidDelta ∧
    0 ≤ (st.flowView second).totals.askDelta

theorem recorded_level_nonneg {st : TokenState} {event : Event} (hfeeds : FromFeeds event) :
    ∀ entry ∈ (st.recorded event).level, 0 ≤ entry.2 := by
  intro entry hentry
  by_cases hkind : event.kind = .bookDelta
  · rcases hfeeds hkind with hparsed | hside
    · obtain ⟨side, price, size, hupdate⟩ := hparsed.update
      rw [recorded_level hupdate] at hentry
      split at hentry
      · rename_i hcounts
        unfold counts at hcounts
        simp only [Bool.and_eq_true, decide_eq_true_eq] at hcounts
        cases hentry
        exact (mul_pos hcounts.1.2 hcounts.2).le
      · cases hentry
    · have hnone : levelRecord event = none := by
        unfold levelRecord
        rw [hside]
        rfl
      unfold TokenState.recorded recordOf at hentry
      rw [hkind] at hentry
      split at hentry
      · cases hentry
      · dsimp only at hentry
        rw [hnone] at hentry
        cases hentry
  · unfold TokenState.recorded recordOf at hentry
    split at hentry
    · cases hentry
    · cases hcase : event.kind with
      | bookDelta => exact absurd hcase hkind
      | bookSnapshot | trade | lastPrice | tickSizeChange | health =>
        rw [hcase] at hentry
        cases hentry

theorem windowTotal_nonneg {window : List (ℤ × ℚ)} (h : ∀ entry ∈ window, 0 ≤ entry.2) :
    0 ≤ windowTotal window := by
  apply List.sum_nonneg
  intro value hvalue
  obtain ⟨entry, hentry, rfl⟩ := List.mem_map.mp hvalue
  exact h entry hentry

theorem NeverShrinks.handleEvent {st : TokenState} (h : NeverShrinks st) {event : Event}
    (hfeeds : FromFeeds event) : NeverShrinks (st.handleEvent event).state := by
  have hwindows : ∀ side, ∀ entry ∈ ((st.flowView event.barSecond).record event.localTsMs
      (st.recorded event)).depth side, 0 ≤ entry.2 := by
    intro side entry hentry
    rcases record_depth (st.flowView event.barSecond) FlowLog.empty event.localTsMs
        (st.recorded event) side with ⟨hsame, -, -⟩ | ⟨signed, hsigned, hpushed, -⟩
    · rw [hsame, flowView_depth st event.barSecond 0] at hentry
      exact h.windows side entry hentry
    · rw [hpushed] at hentry
      have hmem := (List.dropWhile_sublist _).subset hentry
      rcases List.mem_append.mp hmem with hold | hnew
      · rw [flowView_depth st event.barSecond 0] at hold
        exact h.windows side entry hold
      · rw [List.mem_singleton.mp hnew]
        exact recorded_level_nonneg hfeeds _ hsigned
  constructor
  · intro side
    rw [flowView_depth _ 0 event.barSecond, sameFlows_depth (st.handleEvent_record event)]
    exact hwindows side
  · intro second
    by_cases hsecond : second = event.barSecond
    · rw [hsecond]
      cases hlevel : (st.recorded event).level with
      | none =>
        have hsums := h.sums event.barSecond
        rw [st.handleEvent_record event]
        dsimp only
        unfold FlowView.record
        rw [hlevel]
        cases (st.recorded event).best <;> cases (st.recorded event).trade <;> exact hsums
      | some entry =>
        have htotals := (record_totals (st.flowView event.barSecond) event.localTsMs
          (st.recorded event)).1 (Option.isSome_iff_exists.mpr ⟨entry, hlevel⟩)
        rw [st.handleEvent_record event]
        dsimp only
        rw [htotals.1, htotals.2]
        exact ⟨windowTotal_nonneg (hwindows .bid), windowTotal_nonneg (hwindows .ask)⟩
    · rw [totals_handleEvent_of_ne st hsecond]
      exact h.sums second

theorem NeverShrinks.takeInput {st : TokenState} (h : NeverShrinks st) {input : TokenInput}
    (hfeeds : ∀ event, input = .event event → FromFeeds event) :
    NeverShrinks (takeInput st input) := by
  by_cases hevent : ∃ event, input = .event event
  · obtain ⟨event, rfl⟩ := hevent
    exact h.handleEvent (hfeeds event rfl)
  · have hother : ∀ event, input ≠ .event event := fun event heq => hevent ⟨event, heq⟩
    have hflow := @flow_takeInput st input hother
    constructor
    · intro side
      have hwindows := h.windows side
      cases side
      · show ∀ entry ∈ (Feed.takeInput st input).flow.bidDeltaWindow, 0 ≤ entry.2
        rw [hflow]
        exact hwindows
      · show ∀ entry ∈ (Feed.takeInput st input).flow.askDeltaWindow, 0 ≤ entry.2
        rw [hflow]
        exact hwindows
    · exact @totals_takeInput (fun totals => 0 ≤ totals.bidDelta ∧ 0 ≤ totals.askDelta)
        ⟨le_refl 0, le_refl 0⟩ st h.sums input hother

theorem neverShrinks_run {s final : FlowRun} {inputs : List TokenInput} (h : NeverShrinks s.state)
    (hfeeds : ∀ event, .event event ∈ inputs → FromFeeds event)
    (hrun : flowMachine.run s inputs = some final) : NeverShrinks final.state := by
  induction inputs generalizing s with
  | nil =>
    cases hrun
    exact h
  | cons input rest ih =>
    obtain ⟨s', hstep, hrest⟩ := flowMachine.run_cons_eq_some hrun
    apply ih
    · rw [flowMachine_step_state hstep]
      exact h.takeInput fun event heq => hfeeds event (heq ▸ List.mem_cons_self)
    · exact fun event hmem => hfeeds event (List.mem_cons_of_mem input hmem)
    · exact hrest

/-- The cancel that waits for liquidity to be withdrawn never comes: no second of a token ever has
a negative sum of depth changes. -/
theorem bidWithdraw_never {s final : FlowRun} {inputs : List TokenInput}
    (hinit : flowMachine.init s) (hfeeds : ∀ event, .event event ∈ inputs → FromFeeds event)
    (hrun : flowMachine.run s inputs = some final) {cfg : Trade.TradeConfig}
    (hcfg : 0 < cfg.bidWithdrawUsd) {bar : Bars1sPair} {second : ℤ}
    (hbid : bar.polyBidDeltaNotional250ms = some (final.state.flowView second).totals.bidDelta)
    (hask : bar.polyAskDeltaNotional250ms = some (final.state.flowView second).totals.askDelta)
    (flow : Trade.PmFlow) (direction : ℤ) : Trade.bidWithdraw cfg bar flow direction = false := by
  have hstart : NeverShrinks s.state := by
    obtain ⟨⟨venue, tokenSide, second, now, hstate⟩, -⟩ := hinit
    rw [hstate]
    constructor
    · intro side entry hmem
      cases side <;> cases hmem
    · exact fun _ => ⟨le_refl 0, le_refl 0⟩
  obtain ⟨hbidSum, haskSum⟩ := (neverShrinks_run hstart hfeeds hrun).sums second
  have hshrunk : ∀ sum : ℚ, 0 ≤ sum → ¬sum ≤ -cfg.bidWithdrawUsd := by
    intro sum hsum hle
    linarith
  unfold Trade.bidWithdraw
  rw [hbid, hask]
  simp only [Option.getD_some]
  split
  · rw [decide_eq_false (hshrunk _ hbidSum), Bool.false_and]
  · rw [decide_eq_false (hshrunk _ haskSum), Bool.false_and]

end AlphaMonitor.Feed
