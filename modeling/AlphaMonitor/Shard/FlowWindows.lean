import AlphaMonitor.Lib.Run
import AlphaMonitor.Lib.SlidingWindow
import AlphaMonitor.Shard.FlowView

/-!
# The windows and what they stand for

A sum over the last 250 ms is meant to count what was recorded in that time.  The windows that
are summed up are trimmed when something is recorded in them, so a sum is right when it is
written for the window that was trimmed last.  A level update writes the sums of both sides,
but trims the window of its own side only.

## Main definitions

- `FlowLog`: everything that was recorded
- `flowMachine`: a token with its log
- `ExactFlows`, `OtherSideFresh`: the sums are right, and when they are

## Main results

- `flows_exact_iff`: whole runs
-/

namespace AlphaMonitor.Shard

open Lib (Machine Slides since before)

/-! ## What is recorded -/

/-- What an event records: a depth change of a side, a change of the best levels, a trade. -/
structure Recorded where
  level : Option (BookSide × ℚ)
  best : Option ℚ
  trade : Option (BookSide × ℚ)
  deriving DecidableEq, Repr

def Recorded.nothing : Recorded := ⟨none, none, none⟩

def levelRecord (event : Event) : Option (BookSide × ℚ) :=
  event.payload.side.bind fun side =>
    event.payload.price.bind fun price =>
      event.payload.size.bind fun size =>
        (levelFlow (event.payload.deltaType.getD .unknown) price size).map fun signed =>
          (side, signed)

def tradeRecord (event : Event) : Option (BookSide × ℚ) :=
  event.payload.side.bind fun side =>
    (tradeFlow (event.payload.price.getD 0 * event.payload.size.getD 0)).map fun notional =>
      (side, notional)

/-- What an event records that is not too late; `best` is what it leaves of the best levels. -/
def recordOf (q : QuoteState) (prevBid prevAsk : Option (ℚ × ℚ)) (event : Event)
    (best : BestLevels) : Recorded :=
  match event.kind with
  | .bookSnapshot => { Recorded.nothing with best := bestFlow prevBid prevAsk best }
  | .bookDelta =>
    { Recorded.nothing with
      level := levelRecord event
      best :=
        if q.allows event = true ∧ q.resyncNeeded = false then bestFlow prevBid prevAsk best
        else none }
  | .trade => { Recorded.nothing with trade := tradeRecord event }
  | .lastPrice => Recorded.nothing
  | .tickSizeChange => Recorded.nothing
  | .health => Recorded.nothing

/-- What an event records in a token. -/
def TokenState.recorded (st : TokenState) (event : Event) : Recorded :=
  if (st.admitEvent event).2 = none then Recorded.nothing
  else
    recordOf st.toQuoteState st.flow.prevBestBid st.flow.prevBestAsk event
      (st.handleEvent event).state.orderbook.bestBidAskSize

/-- Everything that was recorded, in the order of the events. -/
structure FlowLog where
  (bids asks ofis : List (ℤ × ℚ))
  trades : List (ℤ × ℚ × BookSide)
  deriving DecidableEq, Repr

namespace FlowLog

def empty : FlowLog := ⟨[], [], [], []⟩

def depth (log : FlowLog) : BookSide → List (ℤ × ℚ)
  | .bid => log.bids
  | .ask => log.asks

/-- The log after an event. -/
def record (log : FlowLog) (t : ℤ) (recorded : Recorded) : FlowLog where
  bids := log.bids ++ (recorded.level.filter fun entry => decide (entry.1 = .bid)).toList.map
    fun entry => (t, entry.2)
  asks := log.asks ++ (recorded.level.filter fun entry => decide (entry.1 = .ask)).toList.map
    fun entry => (t, entry.2)
  -- best levels that stay as they are add nothing
  ofis := log.ofis ++ (recorded.best.filter fun ofiDelta => decide (|ofiDelta| > 0)).toList.map
    fun ofiDelta => (t, ofiDelta)
  trades := log.trades ++ recorded.trade.toList.map fun entry => (t, entry.2, entry.1)

end FlowLog

/-- The entries of the 250 ms up to `t`. -/
def inWindow {α : Type} (ts : α → ℤ) (t : ℤ) (log : List α) : List α :=
  log.filter fun entry => decide (t - ofiFastWindowMs ≤ ts entry ∧ ts entry ≤ t)

/-! ## Runs -/

/-- What happens to a token in its shard. -/
inductive TokenInput where
  | event (event : Event)
  | flush (cfg : ShardConfig) (tokenKey : String)
  | tick (barSecond : ℤ)

/-- A token with all that was recorded, and the time of its last event. -/
structure FlowRun where
  state : TokenState
  log : FlowLog
  clock : ℤ

/-- A token from its first event on, at non-decreasing local times. -/
def flowMachine : Machine FlowRun TokenInput where
  init s :=
    (∃ venue tokenSide second now, s.state = TokenState.new venue tokenSide second now) ∧
      s.log = FlowLog.empty
  step s input :=
    match input with
    | .event event =>
      if s.clock ≤ event.localTsMs then
        some
          { state := (s.state.handleEvent event).state
            log := s.log.record event.localTsMs (s.state.recorded event)
            clock := event.localTsMs }
      else none
    | .flush cfg tokenKey => some { s with state := (s.state.flushReady cfg tokenKey).1 }
    | .tick barSecond => some { s with state := s.state.advance barSecond }

/-! ## The law -/

/-- The sums that an event writes are those of what was recorded in the 250 ms up to it. -/
def ExactFlows (s : FlowRun) (input : TokenInput) : Prop :=
  match input with
  | .event event =>
    let t := event.localTsMs
    let recorded := s.state.recorded event
    let log := s.log.record t recorded
    let totals := ((s.state.handleEvent event).state.flowView event.barSecond).totals
    (recorded.level.isSome = true →
        totals.bidDelta = windowTotal (inWindow Prod.fst t log.bids) ∧
        totals.askDelta = windowTotal (inWindow Prod.fst t log.asks)) ∧
      (recorded.best.isSome = true → totals.ofi = windowTotal (inWindow Prod.fst t log.ofis)) ∧
      (recorded.trade.isSome = true →
        totals.buy = tradeTotal .bid (inWindow Prod.fst t log.trades) ∧
        totals.sell = tradeTotal .ask (inWindow Prod.fst t log.trades) ∧
        totals.maxTrade = largestTrade (inWindow Prod.fst t log.trades))
  | .flush _ _ => True
  | .tick _ => True

def otherSide : BookSide → BookSide
  | .bid => .ask
  | .ask => .bid

/-- Where a level update is recorded, what is too old in the window of the other side adds up to
nothing. -/
def OtherSideFresh (s : FlowRun) (input : TokenInput) : Prop :=
  match input with
  | .event event =>
    ∀ entry ∈ (s.state.recorded event).level,
      windowTotal (before Prod.fst (event.localTsMs - ofiFastWindowMs)
        ((s.state.flowView event.barSecond).depth (otherSide entry.1))) = 0
  | .flush _ _ => True
  | .tick _ => True

instance (s : FlowRun) (input : TokenInput) : Decidable (OtherSideFresh s input) :=
  match input with
  | .event event => inferInstanceAs (Decidable (∀ entry ∈ (s.state.recorded event).level, _))
  | .flush _ _ => isTrue trivial
  | .tick _ => isTrue trivial

/-! ## An event records -/

/-- Windows and sums after something was recorded. -/
def FlowView.record (view : FlowView) (t : ℤ) (recorded : Recorded) : FlowView :=
  let view := recorded.level.elim view fun entry => view.pushLevel t entry.1 entry.2
  let view := recorded.best.elim view (view.pushBest t)
  recorded.trade.elim view fun entry => view.pushTrade t entry.1 entry.2

/-- The same windows and sums; the last best levels may differ. -/
def SameFlows (view view' : FlowView) : Prop :=
  view' = { view with prevBestBid := view'.prevBestBid, prevBestAsk := view'.prevBestAsk }

theorem takeBest_same (view : FlowView) (t : ℤ) (best : BestLevels) :
    SameFlows ((bestFlow view.prevBestBid view.prevBestAsk best).elim view (view.pushBest t))
      (view.takeBest t best) := by
  unfold FlowView.takeBest
  obtain ⟨bid, ask⟩ := best
  cases bid with
  | none => rfl
  | some bid => cases ask <;> rfl

theorem takeLevelOf_eq (view : FlowView) (event : Event) :
    view.takeLevelOf event =
      (levelRecord event).elim view fun entry => view.pushLevel event.localTsMs entry.1 entry.2 := by
  unfold FlowView.takeLevelOf levelRecord FlowView.takeLevel
  cases event.payload.side with
  | none => rfl
  | some side =>
    cases event.payload.price with
    | none => rfl
    | some price =>
      cases event.payload.size with
      | none => rfl
      | some size =>
        simp only [Option.bind_some]
        cases levelFlow (event.payload.deltaType.getD .unknown) price size <;> rfl

theorem takeLevelOf_prev (view : FlowView) (event : Event) :
    (view.takeLevelOf event).prevBestBid = view.prevBestBid ∧
      (view.takeLevelOf event).prevBestAsk = view.prevBestAsk := by
  rw [takeLevelOf_eq]
  cases levelRecord event <;> exact ⟨rfl, rfl⟩

theorem afterEvent_same (view : FlowView) (q : QuoteState) (event : Event) (best : BestLevels) :
    SameFlows
      (view.record event.localTsMs (recordOf q view.prevBestBid view.prevBestAsk event best))
      (view.afterEvent q event best) := by
  unfold FlowView.afterEvent FlowView.record recordOf
  cases event.kind with
  | bookSnapshot => exact takeBest_same view event.localTsMs best
  | bookDelta =>
    obtain ⟨hbid, hask⟩ := takeLevelOf_prev view event
    have hbest := takeBest_same (view.takeLevelOf event) event.localTsMs best
    rw [hbid, hask, takeLevelOf_eq] at hbest
    dsimp only
    rw [takeLevelOf_eq]
    split
    · exact hbest
    · rfl
  | trade =>
    unfold tradeRecord FlowView.takeTrade
    cases event.payload.side with
    | none => rfl
    | some side =>
      simp only [Option.bind_some, Option.elim_some]
      cases tradeFlow (event.payload.price.getD 0 * event.payload.size.getD 0) <;> rfl
  | lastPrice => rfl
  | tickSizeChange => rfl
  | health => rfl

theorem TokenState.admitEvent_second {st : TokenState} {event : Event} {s : ℤ}
    (h : (st.admitEvent event).2 = some s) : s = event.barSecond := by
  have hsecond : (st.admitEvent event).2 =
      if event.barSecond ≤ (st.admitEvent event).1.lastFlushedSecond then none
      else some event.barSecond := rfl
  rw [hsecond] at h
  split at h
  · cases h
  · exact (Option.some.inj h).symm

/-- An event does to windows and sums what it records. -/
theorem TokenState.handleEvent_record (st : TokenState) (event : Event) :
    SameFlows
      ((st.flowView event.barSecond).record event.localTsMs (st.recorded event))
      ((st.handleEvent event).state.flowView event.barSecond) := by
  unfold TokenState.recorded
  cases hsecond : (st.admitEvent event).2 with
  | none =>
    rw [st.handleEvent_flowView_late event.barSecond event hsecond, if_pos rfl]
    rfl
  | some s =>
    obtain rfl := TokenState.admitEvent_second hsecond
    rw [st.handleEvent_flowView event.barSecond event hsecond, if_neg (Option.some_ne_none _)]
    exact afterEvent_same _ _ _ _

/-! ## One window -/

section
variable {α : Type} {ts : α → ℤ} {clock t : ℤ} {log window : List α}

/-- The window is trimmed up to some time, and nothing in the log is newer than the clock. -/
structure WindowKept (ts : α → ℤ) (clock : ℤ) (log window : List α) : Prop where
  bounded : ∀ entry ∈ log, ts entry ≤ clock
  slides : ∃ cutoff, cutoff ≤ clock - ofiFastWindowMs ∧ Slides ts cutoff log window

theorem windowKept_nil : WindowKept ts clock [] [] := by
  constructor
  · intro entry hmem
    cases hmem
  · exact ⟨_, le_refl _, Lib.slides_nil _⟩

theorem WindowKept.later (h : WindowKept ts clock log window) (hle : clock ≤ t) :
    WindowKept ts t log window := by
  obtain ⟨cutoff, hcutoff, hslides⟩ := h.slides
  exact ⟨fun entry hmem => (h.bounded entry hmem).trans hle, cutoff, by omega, hslides⟩

/-- A window that was trimmed just now holds what its log has in the last 250 ms. -/
theorem eq_inWindow (hslides : Slides ts (t - ofiFastWindowMs) log window)
    (hbounded : ∀ entry ∈ log, ts entry ≤ t) : window = inWindow ts t log := by
  rw [hslides.holds]
  unfold since inWindow
  apply List.filter_congr
  intro entry hmem
  simp [hbounded entry hmem]

theorem WindowKept.push (h : WindowKept ts clock log window) (hle : clock ≤ t) {entry : α}
    (htime : ts entry = t) :
    WindowKept ts t (log ++ [entry]) (TokenState.trimWindow ts t (window ++ [entry])) ∧
      TokenState.trimWindow ts t (window ++ [entry]) = inWindow ts t (log ++ [entry]) := by
  obtain ⟨cutoff, hcutoff, hslides⟩ := h.slides
  have hbounded : ∀ other ∈ log ++ [entry], ts other ≤ t := by
    intro other hmem
    rcases List.mem_append.mp hmem with hold | hnew
    · exact (h.bounded other hold).trans hle
    · rw [List.mem_singleton.mp hnew, htime]
  have hpushed : Slides ts (t - ofiFastWindowMs) (log ++ [entry])
      (TokenState.trimWindow ts t (window ++ [entry])) := by
    apply hslides.push (by omega)
    intro other hmem
    rw [htime]
    exact (h.bounded other hmem).trans hle
  exact ⟨⟨hbounded, _, le_refl _, hpushed⟩, eq_inWindow hpushed hbounded⟩

theorem WindowKept.trim (h : WindowKept ts clock log window) (hle : clock ≤ t) :
    WindowKept ts t log (TokenState.trimWindow ts t window) ∧
      TokenState.trimWindow ts t window = inWindow ts t log := by
  obtain ⟨cutoff, hcutoff, hslides⟩ := h.slides
  have hbounded : ∀ other ∈ log, ts other ≤ t := fun other hmem => (h.bounded other hmem).trans hle
  have htrimmed := hslides.trim (show cutoff ≤ t - ofiFastWindowMs by omega)
  exact ⟨⟨hbounded, _, le_refl _, htrimmed⟩, eq_inWindow htrimmed hbounded⟩

end

/-- The sum of a window that was not trimmed is right just in case what is too old in it adds up
to nothing. -/
theorem WindowKept.total_iff {clock t : ℤ} {log window : List (ℤ × ℚ)}
    (h : WindowKept Prod.fst clock log window) (hle : clock ≤ t) :
    windowTotal window = windowTotal (inWindow Prod.fst t log) ↔
      windowTotal (before Prod.fst (t - ofiFastWindowMs) window) = 0 := by
  obtain ⟨cutoff, hcutoff, hslides⟩ := h.slides
  obtain ⟨-, htrim⟩ := h.trim hle
  have hlater : cutoff ≤ t - ofiFastWindowMs := by omega
  have htrimmed := (hslides.trim hlater).holds
  rw [← htrim]
  unfold windowTotal TokenState.trimWindow
  rw [hslides.sum_map hlater Prod.snd, htrimmed]
  exact add_eq_left

/-! ## All windows -/

/-- Every window is kept with its log. -/
structure FlowRun.Kept (s : FlowRun) : Prop where
  depth : ∀ side, WindowKept Prod.fst s.clock (s.log.depth side)
    ((s.state.flowView 0).depth side)
  ofis : WindowKept Prod.fst s.clock s.log.ofis s.state.flow.ofiWindow
  trades : WindowKept Prod.fst s.clock s.log.trades s.state.flow.tradeWindow

section
variable (view : FlowView) (log : FlowLog) (t : ℤ) (recorded : Recorded)

theorem record_depth_eq (side : BookSide) :
    (view.record t recorded).depth side =
      (recorded.level.elim view fun entry => view.pushLevel t entry.1 entry.2).depth side := by
  obtain ⟨level, best, trade⟩ := recorded
  cases side <;> cases best <;> cases trade <;> rfl

/-- The depth windows after something was recorded: that of the level update's side is trimmed,
the other one is not. -/
theorem record_depth (side : BookSide) :
    ((view.record t recorded).depth side = view.depth side ∧
        (log.record t recorded).depth side = log.depth side ∧
        ∀ entry ∈ recorded.level, otherSide entry.1 = side) ∨
      ∃ signed, recorded.level = some (side, signed) ∧
        (view.record t recorded).depth side =
          TokenState.trimWindow Prod.fst t (view.depth side ++ [(t, signed)]) ∧
        (log.record t recorded).depth side = log.depth side ++ [(t, signed)] := by
  rw [record_depth_eq]
  unfold FlowLog.record FlowLog.depth
  cases hlevel : recorded.level with
  | none =>
    left
    cases side <;> simp
  | some entry =>
    obtain ⟨own, signed⟩ := entry
    cases own <;> cases side <;>
      simp [FlowView.pushLevel, FlowView.depth, otherSide]

theorem record_totals :
    (recorded.level.isSome = true →
        (view.record t recorded).totals.bidDelta =
          windowTotal ((view.record t recorded).depth .bid) ∧
        (view.record t recorded).totals.askDelta =
          windowTotal ((view.record t recorded).depth .ask)) ∧
      (recorded.best.isSome = true →
        (view.record t recorded).totals.ofi = windowTotal (view.record t recorded).ofis) ∧
      (recorded.trade.isSome = true →
        (view.record t recorded).totals.buy = tradeTotal .bid (view.record t recorded).trades ∧
        (view.record t recorded).totals.sell = tradeTotal .ask (view.record t recorded).trades ∧
        (view.record t recorded).totals.maxTrade =
          largestTrade (view.record t recorded).trades) := by
  obtain ⟨level, best, trade⟩ := recorded
  refine ⟨?_, ?_, ?_⟩
  · intro hlevel
    obtain ⟨entry, rfl⟩ := Option.isSome_iff_exists.mp hlevel
    cases best <;> cases trade <;> exact ⟨rfl, rfl⟩
  · intro hbest
    obtain ⟨ofiDelta, rfl⟩ := Option.isSome_iff_exists.mp hbest
    cases trade <;> rfl
  · intro htrade
    obtain ⟨entry, rfl⟩ := Option.isSome_iff_exists.mp htrade
    exact ⟨rfl, rfl, rfl⟩

theorem record_ofis :
    (view.record t recorded).ofis = recorded.best.elim view.ofis fun ofiDelta =>
      TokenState.trimWindow Prod.fst t
        (if |ofiDelta| > 0 then view.ofis ++ [(t, ofiDelta)] else view.ofis) := by
  obtain ⟨level, best, trade⟩ := recorded
  cases level <;> cases best <;> cases trade <;> rfl

theorem record_trades :
    (view.record t recorded).trades = recorded.trade.elim view.trades fun entry =>
      TokenState.trimWindow Prod.fst t (view.trades ++ [(t, entry.2, entry.1)]) := by
  obtain ⟨level, best, trade⟩ := recorded
  cases level <;> cases best <;> cases trade <;> rfl

end

section
variable {view : FlowView} {log : FlowLog} {clock t : ℤ}

/-- A depth window is kept, and the window of a level update's own side is right. -/
theorem kept_record_depth {side : BookSide}
    (h : WindowKept Prod.fst clock (log.depth side) (view.depth side)) (hle : clock ≤ t)
    (recorded : Recorded) :
    WindowKept Prod.fst t ((log.record t recorded).depth side)
        ((view.record t recorded).depth side) ∧
      ∀ entry ∈ recorded.level, entry.1 = side →
        (view.record t recorded).depth side =
          inWindow Prod.fst t ((log.record t recorded).depth side) := by
  rcases record_depth view log t recorded side with
    ⟨hview, hlog, hother⟩ | ⟨signed, hlevel, hview, hlog⟩
  · rw [hview, hlog]
    refine ⟨h.later hle, fun entry hentry hside => ?_⟩
    have hother := hother entry hentry
    rw [← hside] at hother
    cases hcase : entry.1 <;> rw [hcase] at hother <;> cases hother
  · rw [hview, hlog]
    obtain ⟨hkept, hwindow⟩ := h.push hle (show Prod.fst (t, signed) = t from rfl)
    exact ⟨hkept, fun _ _ _ => hwindow⟩

theorem kept_record_ofis (h : WindowKept Prod.fst clock log.ofis view.ofis) (hle : clock ≤ t)
    (recorded : Recorded) :
    WindowKept Prod.fst t (log.record t recorded).ofis (view.record t recorded).ofis ∧
      (recorded.best.isSome = true →
        (view.record t recorded).ofis = inWindow Prod.fst t (log.record t recorded).ofis) := by
  rw [record_ofis]
  unfold FlowLog.record
  cases recorded.best with
  | none => exact ⟨by simpa using h.later hle, fun hsome => by cases hsome⟩
  | some ofiDelta =>
    by_cases hchange : |ofiDelta| > 0
    · obtain ⟨hkept, hwindow⟩ := h.push hle (show Prod.fst (t, ofiDelta) = t from rfl)
      simp only [Option.elim_some, if_pos hchange, Option.filter_some, decide_eq_true hchange]
      exact ⟨hkept, fun _ => hwindow⟩
    · -- The window is trimmed all the same.
      obtain ⟨hkept, hwindow⟩ := h.trim hle
      simp only [Option.elim_some, if_neg hchange, Option.filter_some, decide_eq_false hchange,
        Bool.false_eq_true, if_false, Option.toList_none, List.map_nil, List.append_nil]
      exact ⟨hkept, fun _ => hwindow⟩

theorem kept_record_trades (h : WindowKept Prod.fst clock log.trades view.trades) (hle : clock ≤ t)
    (recorded : Recorded) :
    WindowKept Prod.fst t (log.record t recorded).trades (view.record t recorded).trades ∧
      (recorded.trade.isSome = true →
        (view.record t recorded).trades = inWindow Prod.fst t (log.record t recorded).trades) := by
  rw [record_trades]
  unfold FlowLog.record
  cases recorded.trade with
  | none => exact ⟨by simpa using h.later hle, fun hsome => by cases hsome⟩
  | some entry =>
    obtain ⟨hkept, hwindow⟩ := h.push hle (show Prod.fst (t, entry.2, entry.1) = t from rfl)
    exact ⟨hkept, fun _ => hwindow⟩

end

/-! ## Steps -/

theorem sameFlows_depth {view view' : FlowView} (h : SameFlows view view') (side : BookSide) :
    view'.depth side = view.depth side := by
  rw [h]
  cases side <;> rfl

section
variable {s s' : FlowRun} {event : Event}

theorem flushReady_flow (cfg : ShardConfig) (tokenKey : String) (st : TokenState) :
    (st.flushReady cfg tokenKey).1.flow = st.flow := by
  have hloop : ∀ (n : ℕ) (current : ℤ) (st : TokenState),
      (TokenState.flushLoop cfg tokenKey n current st).1.flow = st.flow := by
    intro n
    induction n with
    | zero => exact fun _ _ => rfl
    | succ n ih =>
      intro current st
      exact ih (current + 1) _
  unfold TokenState.flushReady
  dsimp only
  split
  · rfl
  · exact hloop _ _ st

theorem flowView_depth (st : TokenState) (second second' : ℤ) (side : BookSide) :
    (st.flowView second).depth side = (st.flowView second').depth side := by
  cases side <;> rfl

/-- An event keeps the windows with their logs. -/
theorem FlowRun.Kept.afterEvent (h : s.Kept) (hle : s.clock ≤ event.localTsMs) :
    FlowRun.Kept
      { state := (s.state.handleEvent event).state
        log := s.log.record event.localTsMs (s.state.recorded event)
        clock := event.localTsMs } := by
  have hsame := s.state.handleEvent_record event
  constructor
  · intro side
    show WindowKept Prod.fst event.localTsMs _
      (((s.state.handleEvent event).state.flowView 0).depth side)
    rw [flowView_depth _ 0 event.barSecond, sameFlows_depth hsame]
    have hdepth := h.depth side
    rw [flowView_depth _ 0 event.barSecond] at hdepth
    exact (kept_record_depth hdepth hle (s.state.recorded event)).1
  · show WindowKept Prod.fst event.localTsMs _
      ((s.state.handleEvent event).state.flowView event.barSecond).ofis
    rw [hsame]
    exact (@kept_record_ofis (s.state.flowView event.barSecond) s.log s.clock event.localTsMs
      h.ofis hle (s.state.recorded event)).1
  · show WindowKept Prod.fst event.localTsMs _
      ((s.state.handleEvent event).state.flowView event.barSecond).trades
    rw [hsame]
    exact (@kept_record_trades (s.state.flowView event.barSecond) s.log s.clock event.localTsMs
      h.trades hle (s.state.recorded event)).1

theorem FlowRun.Kept.withState (h : s.Kept) {st : TokenState} (hflow : st.flow = s.state.flow) :
    FlowRun.Kept { s with state := st } := by
  constructor
  · intro side
    have hdepth := h.depth side
    cases side
    · show WindowKept Prod.fst s.clock _ st.flow.bidDeltaWindow
      rw [hflow]
      exact hdepth
    · show WindowKept Prod.fst s.clock _ st.flow.askDeltaWindow
      rw [hflow]
      exact hdepth
  · show WindowKept Prod.fst s.clock _ st.flow.ofiWindow
    rw [hflow]
    exact h.ofis
  · show WindowKept Prod.fst s.clock _ st.flow.tradeWindow
    rw [hflow]
    exact h.trades

theorem FlowRun.Kept.step (h : s.Kept) {input : TokenInput}
    (hstep : flowMachine.step s input = some s') : s'.Kept := by
  cases input with
  | event event =>
    obtain ⟨hle, heq⟩ := Option.ite_none_right_eq_some.mp hstep
    cases heq
    exact h.afterEvent hle
  | flush cfg tokenKey =>
    cases hstep
    exact h.withState (flushReady_flow cfg tokenKey s.state)
  | tick barSecond =>
    cases hstep
    apply h.withState
    unfold TokenState.advance
    split <;> rfl

/-- Where a level update is recorded, the sums of both sides are right just in case the other
side's window is fresh. -/
theorem depth_exact_iff {view : FlowView} {log : FlowLog} {clock t : ℤ}
    (h : ∀ side, WindowKept Prod.fst clock (log.depth side) (view.depth side)) (hle : clock ≤ t)
    {recorded : Recorded} {entry : BookSide × ℚ} (hentry : entry ∈ recorded.level) :
    (∀ side, windowTotal ((view.record t recorded).depth side) =
        windowTotal (inWindow Prod.fst t ((log.record t recorded).depth side))) ↔
      windowTotal (before Prod.fst (t - ofiFastWindowMs) (view.depth (otherSide entry.1))) = 0 := by
  have hne : otherSide entry.1 ≠ entry.1 := by
    cases entry.1 <;> exact BookSide.noConfusion
  rw [← (h (otherSide entry.1)).total_iff hle]
  -- The other side's window and its log are as they were.
  have hother : (view.record t recorded).depth (otherSide entry.1) = view.depth (otherSide entry.1) ∧
      (log.record t recorded).depth (otherSide entry.1) = log.depth (otherSide entry.1) := by
    rcases record_depth view log t recorded (otherSide entry.1) with
      ⟨hview, hlog, -⟩ | ⟨signed, hlevel, -, -⟩
    · exact ⟨hview, hlog⟩
    · rw [hlevel] at hentry
      exact absurd (congrArg Prod.fst (Option.some.inj hentry)) hne
  constructor
  · intro hall
    have htotal := hall (otherSide entry.1)
    rw [hother.1, hother.2] at htotal
    exact htotal
  · intro htotal side
    by_cases hside : side = entry.1
    · rw [(kept_record_depth (h side) hle recorded).2 entry hentry hside.symm]
    · have hsideOther : side = otherSide entry.1 := by
        cases side <;> cases hcase : entry.1 <;> first | rfl | exact absurd hcase.symm hside
      rw [hsideOther, hother.1, hother.2]
      exact htotal

/-- The sums that an event writes are right just in case the other side's window is fresh. -/
theorem exactFlows_iff (h : s.Kept) {input : TokenInput}
    (hstep : flowMachine.step s input = some s') : ExactFlows s input ↔ OtherSideFresh s input := by
  cases input with
  | flush cfg tokenKey => exact Iff.rfl
  | tick barSecond => exact Iff.rfl
  | event event =>
    obtain ⟨hle, -⟩ := Option.ite_none_right_eq_some.mp hstep
    have hsame := s.state.handleEvent_record event
    have hdepth : ∀ side, WindowKept Prod.fst s.clock (s.log.depth side)
        ((s.state.flowView event.barSecond).depth side) := by
      intro side
      rw [flowView_depth _ event.barSecond 0]
      exact h.depth side
    have hofis := @kept_record_ofis (s.state.flowView event.barSecond) s.log s.clock event.localTsMs
      h.ofis hle (s.state.recorded event)
    have htrades := @kept_record_trades (s.state.flowView event.barSecond) s.log s.clock
      event.localTsMs h.trades hle (s.state.recorded event)
    obtain ⟨hlevel, hbest, htrade⟩ := record_totals (s.state.flowView event.barSecond)
      event.localTsMs (s.state.recorded event)
    unfold ExactFlows OtherSideFresh
    dsimp only
    rw [hsame]
    dsimp only
    constructor
    · rintro ⟨hexact, -, -⟩ entry hentry
      have hsome : (s.state.recorded event).level.isSome = true :=
        Option.isSome_iff_exists.mpr ⟨entry, hentry⟩
      obtain ⟨hbid, hask⟩ := hexact hsome
      rw [(hlevel hsome).1] at hbid
      rw [(hlevel hsome).2] at hask
      apply (depth_exact_iff hdepth hle hentry).mp
      intro side
      cases side
      · exact hbid
      · exact hask
    · intro hfresh
      refine ⟨fun hsome => ?_, fun hsome => ?_, fun hsome => ?_⟩
      · obtain ⟨entry, hentry⟩ := Option.isSome_iff_exists.mp hsome
        have hall := (depth_exact_iff hdepth hle hentry).mpr (hfresh entry hentry)
        rw [(hlevel hsome).1, (hlevel hsome).2]
        exact ⟨hall .bid, hall .ask⟩
      · rw [hbest hsome, hofis.2 hsome]
      · obtain ⟨hbuy, hsell, hmax⟩ := htrade hsome
        rw [hbuy, hsell, hmax, htrades.2 hsome]
        exact ⟨rfl, rfl, rfl⟩

end

/-! ## Runs -/

theorem kept_init {s : FlowRun} (h : flowMachine.init s) : s.Kept := by
  obtain ⟨⟨venue, tokenSide, second, now, hstate⟩, hlog⟩ := h
  constructor
  · intro side
    rw [hstate, hlog]
    cases side <;> exact windowKept_nil
  · rw [hstate, hlog]
    exact windowKept_nil
  · rw [hstate, hlog]
    exact windowKept_nil

theorem FlowRun.runMeets_exact {s final : FlowRun} {inputs : List TokenInput}
    (hinit : flowMachine.init s) (hrun : flowMachine.run s inputs = some final) :
    flowMachine.RunMeets ExactFlows s inputs ↔ flowMachine.RunMeets OtherSideFresh s inputs :=
  flowMachine.runMeets_congr FlowRun.Kept (fun _ _ _ hkept _ hstep => hkept.step hstep)
    (fun _ _ _ hkept hstep => exactFlows_iff hkept hstep) (kept_init hinit) hrun

/-- In a run all sums that are written are right just in case every level update that is recorded
finds the other side's window fresh. -/
theorem flows_exact_iff {s final : FlowRun} {inputs : List TokenInput} (hinit : flowMachine.init s)
    (hrun : flowMachine.run s inputs = some final) :
    flowMachine.RunMeets ExactFlows s inputs ↔ flowMachine.RunMeets OtherSideFresh s inputs :=
  FlowRun.runMeets_exact hinit hrun

/-! ## Samples -/

/-- A new Polymarket token. -/
def newFlowRun : FlowRun :=
  ⟨TokenState.new .polymarket .yes 1700000000 1700000000000, FlowLog.empty, 1700000000000⟩

/-- A level update that adds 10 at a price of 0.40, some milliseconds after the start. -/
def addAt (ms : ℤ) (side : BookSide) : TokenInput :=
  .event
    { venue := .polymarket, tokenKey := "token", kind := .bookDelta
      channel := some "price_change", exchangeTsMs := 1700000000000 + ms
      localTsMs := 1700000000000 + ms, exchangeTsSource := .venueWs, flags := EventFlags.none
      payload :=
        { EventPayload.empty with
          side := some side, deltaType := some .addOrUpdate, price := some (2 / 5)
          size := some 10 } }

theorem newFlowRun_init : flowMachine.init newFlowRun :=
  ⟨⟨.polymarket, .yes, 1700000000, 1700000000000, rfl⟩, rfl⟩

theorem flows_exact_soon :
    flowMachine.RunMeets ExactFlows newFlowRun [addAt 0 .bid, addAt 200 .ask] :=
  (flows_exact_iff newFlowRun_init rfl).mpr (by decide +kernel)

/-- The ask comes 300 ms after the bid, and the bid is still counted. -/
theorem flows_not_exact :
    ¬ ∀ (s final : FlowRun) (inputs : List TokenInput), flowMachine.init s →
        flowMachine.run s inputs = some final → flowMachine.RunMeets ExactFlows s inputs := by
  intro hall
  have hrun : ∃ final, flowMachine.run newFlowRun [addAt 0 .bid, addAt 300 .ask] = some final :=
    ⟨_, rfl⟩
  obtain ⟨final, hrun⟩ := hrun
  have hexact := hall newFlowRun final _ newFlowRun_init hrun
  have hfresh := (FlowRun.runMeets_exact newFlowRun_init hrun).mp hexact
  revert hfresh
  decide +kernel

end AlphaMonitor.Shard
