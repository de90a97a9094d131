import AlphaMonitor.Lib.Windows
import AlphaMonitor.Shard.Worker

/-!
# The seconds of a token

The accumulators of a token are windows with a watermark.  An event is counted in
the window of its second exactly once, whatever else it does, and a flush closes
the windows that are due.

## Main results

- `handleEvent_windows`: what one event does to the windows
- `flushReady_windows`: what a flush does to them
-/

namespace AlphaMonitor.Shard

open Lib (Windows consecutive totalAt)

namespace TokenState

/-- The seconds of a token as windows. -/
def windows (st : TokenState) : Windows SecondAccumulator :=
  ⟨st.watermarkSecond, st.lastFlushedSecond, st.accumulators⟩

/-- The events counted in a second that is not barred yet. -/
def openCount (st : TokenState) (second : ℤ) : ℤ :=
  st.windows.gathered SecondAccumulator.eventCount second

/-! ## Updates that count no event -/

/-- The clock is the same, and no event is counted or forgotten; accumulators change in the
given second only. -/
structure SameSeconds (second : Option ℤ) (st st' : TokenState) : Prop where
  watermark : st'.watermarkSecond = st.watermarkSecond
  flushed : st'.lastFlushedSecond = st.lastFlushedSecond
  lastEvent : st'.lastEventLocalTsMs = st.lastEventLocalTsMs
  venue : st'.venue = st.venue
  history : st'.history = st.history
  others : ∀ s, second ≠ some s → st'.accumulators s = st.accumulators s
  count : ∀ s, st'.openCount s = st.openCount s
  isOpen : ∀ s, (st.accumulators s).isSome = true → (st'.accumulators s).isSome = true

namespace SameSeconds

variable {second : Option ℤ} {st st' st'' : TokenState}

theorem refl (second : Option ℤ) (st : TokenState) : SameSeconds second st st :=
  ⟨rfl, rfl, rfl, rfl, rfl, fun _ _ => rfl, fun _ => rfl, fun _ h => h⟩

theorem trans (h : SameSeconds second st st') (h' : SameSeconds second st' st'') :
    SameSeconds second st st'' where
  watermark := h'.watermark.trans h.watermark
  flushed := h'.flushed.trans h.flushed
  lastEvent := h'.lastEvent.trans h.lastEvent
  venue := h'.venue.trans h.venue
  history := h'.history.trans h.history
  others s hs := (h'.others s hs).trans (h.others s hs)
  count s := (h'.count s).trans (h.count s)
  isOpen s hs := h'.isOpen s (h.isOpen s hs)

/-- Neither clock nor accumulators change. -/
theorem of_eq (hw : st'.watermarkSecond = st.watermarkSecond)
    (hf : st'.lastFlushedSecond = st.lastFlushedSecond)
    (he : st'.lastEventLocalTsMs = st.lastEventLocalTsMs) (hv : st'.venue = st.venue)
    (hh : st'.history = st.history) (ha : st'.accumulators = st.accumulators) :
    SameSeconds second st st' where
  watermark := hw
  flushed := hf
  lastEvent := he
  venue := hv
  history := hh
  others s _ := by rw [ha]
  count s := by
    unfold openCount windows Windows.gathered
    rw [ha]
  isOpen s hs := by rwa [ha]

theorem withQuote (second : Option ℤ) (st : TokenState) (q : QuoteState) :
    SameSeconds second st (st.withQuote q) :=
  of_eq rfl rfl rfl rfl rfl rfl

theorem withAcc (st : TokenState) (s : ℤ) {f : SecondAccumulator → SecondAccumulator}
    (hf : ∀ acc, (f acc).eventCount = acc.eventCount) : SameSeconds (some s) st (st.withAcc s f) where
  watermark := rfl
  flushed := rfl
  lastEvent := rfl
  venue := rfl
  history := rfl
  others t ht := by
    have hne : t ≠ s := fun h => ht (by rw [h])
    simp only [TokenState.withAcc, Function.update_of_ne hne]
  count t := by
    unfold openCount windows Windows.gathered
    by_cases hts : t = s
    · subst hts
      cases hacc : st.accumulators t with
      | none => simp [TokenState.withAcc, hacc, hf, SecondAccumulator.default]
      | some acc => simp [TokenState.withAcc, hacc, hf]
    · simp only [TokenState.withAcc, Function.update_of_ne hts]
  isOpen t ht := by
    by_cases hts : t = s
    · subst hts
      simp [TokenState.withAcc]
    · simpa only [TokenState.withAcc, Function.update_of_ne hts] using ht

/-- The windows of the flows change along with the accumulator. -/
theorem withFlow (st : TokenState) (s : ℤ) (flow : FlowWindows)
    {f : SecondAccumulator → SecondAccumulator} (hf : ∀ acc, (f acc).eventCount = acc.eventCount) :
    SameSeconds (some s) st (TokenState.withAcc { st with flow := flow } s f) := by
  have hflow : SameSeconds (some s) st { st with flow := flow } := of_eq rfl rfl rfl rfl rfl rfl
  exact hflow.trans (withAcc { st with flow := flow } s hf)

theorem onAcc (second : Option ℤ) (st : TokenState) {f : SecondAccumulator → SecondAccumulator}
    (hf : ∀ acc, (f acc).eventCount = acc.eventCount) :
    SameSeconds second st (st.onAcc second f) := by
  cases second with
  | none => exact refl none st
  | some s => exact withAcc st s hf

end SameSeconds

/-! ## No handler counts an event twice -/

variable (st : TokenState) (event : Event) (second : Option ℤ)

theorem eventCount_levelUpdate (acc : SecondAccumulator) (deltaType : DeltaType) :
    (acc.levelUpdate deltaType).eventCount = acc.eventCount := by
  cases deltaType <;> rfl

theorem eventCount_tradeEvent (acc : SecondAccumulator) (payload : EventPayload)
    (sideMissing : Bool) : (acc.tradeEvent payload sideMissing).eventCount = acc.eventCount := by
  unfold SecondAccumulator.tradeEvent
  cases payload.price <;> cases payload.size <;> cases payload.side with
  | some side => cases side <;> rfl
  | none => cases sideMissing <;> rfl

theorem updateOfiAndLevels_same (s eventTsMs : ℤ) :
    SameSeconds (some s) st (st.updateOfiAndLevels s eventTsMs) := by
  unfold updateOfiAndLevels
  simp only
  split
  · split
    · -- the flow of the best levels first, then the slope of the mid
      refine SameSeconds.trans (SameSeconds.withFlow st s _ ?_) (SameSeconds.withFlow _ s _ ?_)
      · exact fun _ => rfl
      · exact fun _ => rfl
    · exact SameSeconds.withFlow st s _ fun _ => rfl
  · exact SameSeconds.refl _ _

theorem updateBidAskDelta_same (s eventTsMs : ℤ) (side : BookSide) (deltaType : DeltaType)
    (price size : ℚ) :
    SameSeconds (some s) st (st.updateBidAskDelta s eventTsMs side deltaType price size) := by
  unfold updateBidAskDelta
  simp only
  split
  · exact SameSeconds.refl _ _
  · split
    · exact SameSeconds.refl _ _
    · exact SameSeconds.withFlow st s _ fun _ => rfl

theorem updateTradeWindow_same (s eventTsMs : ℤ) (side : BookSide) (notional : ℚ) :
    SameSeconds (some s) st (st.updateTradeWindow s eventTsMs side notional) := by
  unfold updateTradeWindow
  simp only
  split
  · exact SameSeconds.refl _ _
  · exact SameSeconds.withFlow st s _ fun _ => rfl

theorem noteFlow_same : SameSeconds second st (st.noteFlow event second) := by
  unfold noteFlow
  cases second with
  | none => exact SameSeconds.refl _ _
  | some s => exact updateOfiAndLevels_same st s event.localTsMs

theorem noteHash_same : SameSeconds second st (st.noteHash event) := by
  unfold noteHash
  split
  · exact SameSeconds.withQuote _ _ _
  · exact SameSeconds.refl _ _

theorem notePrice_same : SameSeconds second st (st.notePrice event) := by
  unfold notePrice
  split
  · exact SameSeconds.withQuote _ _ _
  · exact SameSeconds.refl _ _

theorem loadSnapshot_same : SameSeconds second st (st.loadSnapshot event second) := by
  unfold loadSnapshot
  simp only
  split
  · apply SameSeconds.trans (SameSeconds.withQuote second st _)
    refine SameSeconds.trans ?_ (SameSeconds.withQuote second _ _)
    split
    · exact SameSeconds.onAcc second _ fun _ => rfl
    · exact SameSeconds.refl _ _
  · exact SameSeconds.refl _ _

theorem applySnapshot_same : SameSeconds second st (st.applySnapshot event second) := by
  unfold applySnapshot
  simp only
  have hload := loadSnapshot_same st event second
  generalize st.loadSnapshot event second = st₁ at hload
  have hclear := hload.trans
    (SameSeconds.withQuote second st₁ { st₁.toQuoteState with resyncNeeded := false })
  generalize st₁.withQuote { st₁.toQuoteState with resyncNeeded := false } = st₂ at hclear
  have hcount := hclear.trans
    (SameSeconds.onAcc second st₂ (f := SecondAccumulator.bookEvent) fun _ => rfl)
  generalize st₂.onAcc second SecondAccumulator.bookEvent = st₃ at hcount
  exact (hcount.trans (noteHash_same st₃ event second)).trans (noteFlow_same _ event second)

theorem resyncAfterSnapshot_same (drift : Option ResyncLog) :
    SameSeconds second st (st.resyncAfterSnapshot event drift).1 := by
  unfold resyncAfterSnapshot
  simp only
  split
  · exact SameSeconds.withQuote _ _ _
  · exact SameSeconds.withQuote _ _ _

theorem handleSnapshot_same : SameSeconds second st (st.handleSnapshot event second).1 := by
  unfold handleSnapshot
  simp only
  split
  · apply (SameSeconds.withQuote second st (st.markResync event.barSecond)).trans
    exact (applySnapshot_same _ event second).trans (resyncAfterSnapshot_same _ event second _)
  · exact (applySnapshot_same _ event second).trans (resyncAfterSnapshot_same _ event second _)

theorem applyLevel_same (allowApply : Bool) (side : BookSide) (price size : ℚ) :
    SameSeconds second st (st.applyLevel event second allowApply side price size) := by
  unfold applyLevel
  split
  · simp only
    -- the wall signal is noted first, then the book changes
    have hbook : ∀ st' : TokenState, SameSeconds second st st' →
        SameSeconds second st
          (if (st.orderbook.applyDelta side price size event.localTsMs).2 = true then
            (st'.withQuote { st.toQuoteState with
              orderbook := (st.orderbook.applyDelta side price size event.localTsMs).1 }).onAcc
                second fun acc => { acc with tsAnomalyCount1s := acc.tsAnomalyCount1s + 1 }
          else st'.withQuote { st.toQuoteState with
            orderbook := (st.orderbook.applyDelta side price size event.localTsMs).1 }) := by
      intro st' hwall
      have hquote := hwall.trans (SameSeconds.withQuote second st' { st.toQuoteState with
        orderbook := (st.orderbook.applyDelta side price size event.localTsMs).1 })
      split
      · exact hquote.trans (SameSeconds.onAcc second _ fun _ => rfl)
      · exact hquote
    cases st.orderbook.checkWallPull side price size with
    | some signal => exact hbook _ (SameSeconds.onAcc second st fun _ => rfl)
    | none => exact hbook st (SameSeconds.refl second st)
  · exact SameSeconds.refl _ _

theorem noteLevel_same (allowApply : Bool) :
    SameSeconds second st (st.noteLevel event second allowApply) := by
  unfold noteLevel
  simp only
  split
  · rename_i side price size _ _ _
    apply (applyLevel_same st event second allowApply side price size).trans
    apply (SameSeconds.onAcc second _
      fun acc => eventCount_levelUpdate acc (event.payload.deltaType.getD .unknown)).trans
    split
    · exact updateBidAskDelta_same _ _ _ _ _ _ _
    · exact SameSeconds.refl _ _
  · exact SameSeconds.refl _ _

theorem applyDelta_same (allowApply : Bool) :
    SameSeconds second st (st.applyDelta event second allowApply) := by
  unfold applyDelta
  simp only
  apply (SameSeconds.withQuote second st _).trans
  apply (noteLevel_same _ event second allowApply).trans
  apply (SameSeconds.onAcc second _ (f := SecondAccumulator.bookEvent) fun _ => rfl).trans
  refine SameSeconds.trans ?_ (noteHash_same _ event second)
  split
  · exact noteFlow_same _ event second
  · exact SameSeconds.refl _ _

theorem resyncAfterDelta_same (allowApply : Bool) :
    SameSeconds second st (st.resyncAfterDelta event allowApply).1 := by
  unfold resyncAfterDelta
  split
  · split
    · exact SameSeconds.withQuote _ _ _
    · exact SameSeconds.withQuote _ _ _
  · exact SameSeconds.refl _ _

theorem handleDelta_same : SameSeconds second st (st.handleDelta event second).1 :=
  (applyDelta_same st event second _).trans (resyncAfterDelta_same _ event second _)

theorem handleTrade_same : SameSeconds second st (st.handleTrade event second) := by
  unfold handleTrade
  simp only
  have hcount := (notePrice_same st event second).trans (SameSeconds.onAcc second _
    fun acc => eventCount_tradeEvent acc event.payload event.flags.tradeSideMissing)
  split
  · exact hcount.trans (updateTradeWindow_same _ _ _ _ _)
  · exact hcount

/-- What kind of event it is does not matter to the seconds. -/
theorem dispatch_same : SameSeconds second st (st.dispatch event second).1 := by
  unfold dispatch
  cases event.kind with
  | bookSnapshot => exact handleSnapshot_same st event second
  | bookDelta => exact handleDelta_same st event second
  | trade => exact handleTrade_same st event second
  | lastPrice =>
    exact (notePrice_same st event second).trans (SameSeconds.onAcc second _ fun _ => rfl)
  | tickSizeChange =>
    simp only
    split
    · exact SameSeconds.withQuote _ _ _
    · exact SameSeconds.refl _ _
  | health => exact SameSeconds.refl _ _

/-! ## One event -/

theorem countEvent_windows_none : (st.countEvent event none).windows = st.windows := rfl

theorem windows_of_same_none {st st' : TokenState} (h : SameSeconds none st st') :
    st'.windows = st.windows := by
  unfold windows
  rw [h.watermark, h.flushed]
  congr 1
  funext s
  exact h.others s (by simp)

/-- What an event counts in its second, whatever kind it is of. -/
theorem countEvent_dispatch_windows (s : ℤ) :
    ∃ acc : SecondAccumulator, acc.eventCount = st.openCount s + 1 ∧
      ((st.countEvent event (some s)).dispatch event (some s)).1.windows = st.windows.put s acc := by
  have hsame := dispatch_same (st.countEvent event (some s)) event (some s)
  set st' := ((st.countEvent event (some s)).dispatch event (some s)).1
  have hopen : ((st.countEvent event (some s)).accumulators s).isSome = true := by
    simp [countEvent, onAcc, withAcc]
  obtain ⟨acc, hacc⟩ := Option.isSome_iff_exists.mp (hsame.isOpen s hopen)
  refine ⟨acc, ?_, ?_⟩
  · have hcount : (st.countEvent event (some s)).openCount s = st.openCount s + 1 := by
      have hlatency : ∀ a : SecondAccumulator,
          (a.recordLatency event.exchangeTsSource).eventCount = a.eventCount + 1 := by
        intro a
        unfold SecondAccumulator.recordLatency
        cases event.exchangeTsSource <;> rfl
      unfold openCount windows Windows.gathered
      simp only [countEvent, onAcc, withAcc, Function.update_self, Option.map_some,
        Option.getD_some, hlatency]
      cases st.accumulators s <;> rfl
    have hacc' : st'.openCount s = acc.eventCount := by
      simp [openCount, windows, Windows.gathered, hacc]
    rw [← hacc', hsame.count s, hcount]
  · unfold windows Windows.put
    rw [hsame.watermark, hsame.flushed]
    congr 1
    funext t
    by_cases hts : t = s
    · subst hts
      rw [hacc, Function.update_self]
    · rw [hsame.others t (by simpa using Ne.symm hts), Function.update_of_ne hts]
      simp [countEvent, onAcc, withAcc, hts]

/-- A token whose clock runs sees the time of an event, and counts it unless it is late. -/
theorem admitEvent_windows (hclock : 0 < st.watermarkSecond) :
    (st.admitEvent event).1.windows = st.windows.see event.barSecond ∧
      (st.admitEvent event).2 =
        if event.barSecond ≤ st.lastFlushedSecond then none else some event.barSecond := by
  unfold admitEvent
  simp only
  rw [if_neg (not_le.mpr hclock)]
  split
  · rename_i hlater
    refine ⟨?_, rfl⟩
    simp only [windows, Windows.see, max_eq_right hlater.le]
  · rename_i hearlier
    refine ⟨?_, rfl⟩
    simp only [windows, Windows.see, max_eq_left (not_lt.mp hearlier)]

/-- What happens to an event after it is admitted. -/
theorem handleEvent_eq : st.handleEvent event =
    ⟨(((st.admitEvent event).1.countEvent (classify event (st.admitEvent event).2)
        (st.admitEvent event).2).dispatch (classify event (st.admitEvent event).2)
          (st.admitEvent event).2).1,
      classify event (st.admitEvent event).2, (st.admitEvent event).2,
      (((st.admitEvent event).1.countEvent (classify event (st.admitEvent event).2)
        (st.admitEvent event).2).dispatch (classify event (st.admitEvent event).2)
          (st.admitEvent event).2).2⟩ := rfl

/-- A late event is counted nowhere. -/
theorem handleEvent_late (hlate : (st.admitEvent event).2 = none) :
    (st.handleEvent event).second = none ∧
      (st.handleEvent event).state.windows = (st.admitEvent event).1.windows := by
  rw [handleEvent_eq, hlate]
  refine ⟨rfl, ?_⟩
  simp only
  rw [windows_of_same_none (dispatch_same _ _ none), countEvent_windows_none]

/-- An event that is not late is counted once. -/
theorem handleEvent_counted {s : ℤ} (hs : (st.admitEvent event).2 = some s) :
    (st.handleEvent event).second = some s ∧
      ∃ acc : SecondAccumulator, acc.eventCount = (st.admitEvent event).1.openCount s + 1 ∧
        (st.handleEvent event).state.windows = (st.admitEvent event).1.windows.put s acc := by
  rw [handleEvent_eq, hs]
  exact ⟨rfl, countEvent_dispatch_windows (st.admitEvent event).1 (classify event (some s)) s⟩

theorem handleEvent_windows (hclock : 0 < st.watermarkSecond) :
    (event.barSecond ≤ st.lastFlushedSecond ∧ (st.handleEvent event).second = none ∧
        (st.handleEvent event).state.windows = st.windows.see event.barSecond) ∨
      (st.lastFlushedSecond < event.barSecond ∧
        (st.handleEvent event).second = some event.barSecond ∧
        ∃ acc : SecondAccumulator, acc.eventCount = st.openCount event.barSecond + 1 ∧
          (st.handleEvent event).state.windows =
            (st.windows.see event.barSecond).put event.barSecond acc) := by
  obtain ⟨hsee, hsecond⟩ := st.admitEvent_windows event hclock
  have hopen : (st.admitEvent event).1.openCount event.barSecond = st.openCount event.barSecond := by
    unfold openCount
    rw [hsee]
    rfl
  by_cases hlate : event.barSecond ≤ st.lastFlushedSecond
  · left
    rw [if_pos hlate] at hsecond
    obtain ⟨hnone, hwin⟩ := st.handleEvent_late event hsecond
    exact ⟨hlate, hnone, hwin.trans hsee⟩
  · right
    rw [if_neg hlate] at hsecond
    obtain ⟨hsome, acc, hcount, hwin⟩ := st.handleEvent_counted event hsecond
    refine ⟨not_le.mp hlate, hsome, acc, hcount.trans (by rw [hopen]), ?_⟩
    rw [hwin, hsee]

/-- A token whose clock does not run starts it with the event. -/
theorem handleEvent_windows_idle (hidle : st.watermarkSecond ≤ 0) :
    (st.handleEvent event).second = some event.barSecond ∧
      ∃ acc : SecondAccumulator, acc.eventCount = st.openCount event.barSecond + 1 ∧
        (st.handleEvent event).state.windows =
          (Windows.mk event.barSecond (event.barSecond - 1) st.accumulators).put
            event.barSecond acc := by
  have hadmitted : st.admitEvent event =
      ({ st with
          watermarkSecond := event.barSecond
          lastFlushedSecond := event.barSecond - 1 }, some event.barSecond) := by
    unfold admitEvent
    simp only
    rw [if_pos hidle]
    simp only [Prod.mk.injEq, true_and, ite_eq_right_iff]
    intro hlate
    omega
  obtain ⟨hsome, acc, hcount, hwin⟩ := st.handleEvent_counted event (by rw [hadmitted])
  refine ⟨hsome, acc, ?_, ?_⟩
  · rw [hcount, hadmitted]
    rfl
  · rw [hwin, hadmitted]
    rfl

/-- The clock of a token after an event. -/
theorem clock_handleEvent :
    (0 < st.watermarkSecond ∧
        (st.handleEvent event).state.watermarkSecond =
          max st.watermarkSecond event.barSecond ∧
        (st.handleEvent event).state.lastFlushedSecond = st.lastFlushedSecond) ∨
      (st.watermarkSecond ≤ 0 ∧
        (st.handleEvent event).state.watermarkSecond = event.barSecond ∧
        (st.handleEvent event).state.lastFlushedSecond = event.barSecond - 1) := by
  by_cases hclock : 0 < st.watermarkSecond
  · left
    rcases st.handleEvent_windows event hclock with ⟨_, _, hwin⟩ | ⟨_, _, acc, _, hwin⟩
    · simp only [TokenState.windows, Windows.see, Windows.mk.injEq] at hwin
      exact ⟨hclock, hwin.1, hwin.2.1⟩
    · simp only [TokenState.windows, Windows.see, Windows.put, Windows.mk.injEq] at hwin
      exact ⟨hclock, hwin.1, hwin.2.1⟩
  · right
    obtain ⟨_, acc, _, hwin⟩ := st.handleEvent_windows_idle event (not_lt.mp hclock)
    simp only [TokenState.windows, Windows.put, Windows.mk.injEq] at hwin
    exact ⟨not_lt.mp hclock, hwin.1, hwin.2.1⟩

theorem handleEvent_lastEvent :
    (st.handleEvent event).state.lastEventLocalTsMs = event.localTsMs := by
  rw [handleEvent_eq]
  simp only
  rw [(dispatch_same _ _ _).lastEvent]
  have hevent : (classify event (st.admitEvent event).2).localTsMs = event.localTsMs := by
    unfold classify
    split <;> rfl
  rw [← hevent]
  unfold countEvent onAcc
  cases (st.admitEvent event).2 <;> rfl

/-- An event is only ever flagged, its times and contents stay. -/
theorem handleEvent_event :
    (st.handleEvent event).event = { event with flags := (st.handleEvent event).event.flags } ∧
      ((st.handleEvent event).second = none →
        (st.handleEvent event).event.flags.outOfOrder = true) := by
  rw [handleEvent_eq]
  simp only [classify]
  split
  · exact ⟨rfl, fun _ => rfl⟩
  · rename_i hsome
    exact ⟨rfl, fun hnone => absurd hnone hsome⟩

/-! ## Bars -/

variable (cfg : ShardConfig) (tokenKey : String)

/-- The second of a bar and the events counted in it. -/
def barCount (bar : Bars1sToken) : ℤ × ℤ := (bar.barSecond, bar.eventCount1s)

/-- A flush of `n` seconds empties them and bars each with what was counted in it. -/
theorem flushLoop_spec (n : ℕ) (current : ℤ) (st : TokenState) :
    (flushLoop cfg tokenKey n current st).1.windows =
        { st.windows with
          acc := fun t => if current ≤ t ∧ t < current + n then none else st.accumulators t } ∧
      (flushLoop cfg tokenKey n current st).1.lastEventLocalTsMs = st.lastEventLocalTsMs ∧
      (flushLoop cfg tokenKey n current st).2.map barCount =
        (consecutive current n).map (fun t => (t, st.openCount t)) ∧
      ∀ bar ∈ (flushLoop cfg tokenKey n current st).2, bar.tokenKey = tokenKey := by
  induction n generalizing current st with
  | zero =>
    refine ⟨?_, rfl, rfl, fun bar hbar => by cases hbar⟩
    simp only [flushLoop, windows]
    congr 1
    funext t
    rw [if_neg (by omega)]
  | succ n ih =>
    -- the state in which the rest of the seconds is flushed
    set st₁ := (flush { st with accumulators := Function.update st.accumulators current none } cfg
      tokenKey current ((st.accumulators current).getD SecondAccumulator.default)).1 with hst₁
    have hacc : st₁.accumulators = Function.update st.accumulators current none := rfl
    obtain ⟨hwin, hlast, hbars, hkeys⟩ := ih (current + 1) st₁
    have hopen : ∀ t, t ∈ consecutive (current + 1) n → st₁.openCount t = st.openCount t := by
      intro t ht
      have hne : t ≠ current := by
        have hrange := Lib.mem_consecutive.mp ht
        omega
      simp only [openCount, windows, Windows.gathered, hacc, Function.update_of_ne hne]
    simp only [flushLoop]
    refine ⟨?_, ?_, ?_, ?_⟩
    · rw [hwin]
      simp only [windows, hacc]
      congr 1
      funext t
      by_cases ht : t = current
      · subst ht
        rw [if_neg (by omega), if_pos (by omega), Function.update_self]
      · rw [Function.update_of_ne ht]
        by_cases hin : current + 1 ≤ t ∧ t < current + 1 + n
        · rw [if_pos hin, if_pos (by omega)]
        · rw [if_neg hin, if_neg (by omega)]
    · exact hlast
    · rw [List.map_cons, hbars, consecutive, List.map_cons]
      congr 1
      · simp only [barCount, openCount, windows, Windows.gathered]
        cases st.accumulators current <;> rfl
      · exact List.map_congr_left fun t ht => by rw [hopen t ht]
    · intro bar hbar
      rcases List.mem_cons.mp hbar with rfl | hbar
      · rfl
      · exact hkeys bar hbar

/-- `flush_ready` closes the windows that the watermark has left behind. -/
theorem flushReady_windows :
    ((st.watermarkSecond ≤ 0 ∨ st.watermarkSecond - lateEventBufferSecs ≤ st.lastFlushedSecond) ∧
        st.flushReady cfg tokenKey = (st, [])) ∨
      (0 < st.watermarkSecond ∧
        st.lastFlushedSecond < st.watermarkSecond - lateEventBufferSecs ∧
        (st.flushReady cfg tokenKey).1.windows =
          st.windows.close (st.watermarkSecond - lateEventBufferSecs) ∧
        (st.flushReady cfg tokenKey).2.map barCount =
          st.windows.closing SecondAccumulator.eventCount
            (st.watermarkSecond - lateEventBufferSecs)) := by
  unfold flushReady
  simp only
  split
  · rename_i hnot
    exact Or.inl ⟨hnot, rfl⟩
  · rename_i hdue
    simp only [not_or, not_le] at hdue
    obtain ⟨hwin, _, hbars, _⟩ := flushLoop_spec cfg tokenKey
      (st.watermarkSecond - lateEventBufferSecs - st.lastFlushedSecond).toNat
      (st.lastFlushedSecond + 1) st
    refine Or.inr ⟨hdue.1, hdue.2, ?_, hbars⟩
    have hrange : ((st.watermarkSecond - lateEventBufferSecs - st.lastFlushedSecond).toNat : ℤ) =
        st.watermarkSecond - lateEventBufferSecs - st.lastFlushedSecond := by omega
    simp only [windows, Windows.mk.injEq] at hwin
    simp only [windows, Windows.close, Windows.mk.injEq]
    refine ⟨hwin.1, trivial, ?_⟩
    rw [hwin.2.2]
    funext t
    congr 1
    rw [hrange]
    apply propext
    omega

/-- The clock of a token after a flush. -/
theorem clock_flushReady :
    (st.flushReady cfg tokenKey).1.watermarkSecond = st.watermarkSecond ∧
      ((st.flushReady cfg tokenKey).1.lastFlushedSecond = st.lastFlushedSecond ∧
          (st.watermarkSecond ≤ 0 ∨
            st.watermarkSecond - lateEventBufferSecs ≤ st.lastFlushedSecond) ∨
        (st.flushReady cfg tokenKey).1.lastFlushedSecond =
            st.watermarkSecond - lateEventBufferSecs ∧
          0 < st.watermarkSecond ∧
          st.lastFlushedSecond < st.watermarkSecond - lateEventBufferSecs) := by
  rcases st.flushReady_windows cfg tokenKey with ⟨hnot, hready⟩ | ⟨hclock, hdue, hwin, _⟩
  · rw [hready]
    exact ⟨rfl, Or.inl ⟨rfl, hnot⟩⟩
  · simp only [TokenState.windows, Windows.close, Windows.mk.injEq] at hwin
    exact ⟨hwin.1, Or.inr ⟨hwin.2.1, hclock, hdue⟩⟩

theorem flushReady_tokenKey (bar : Bars1sToken) (hbar : bar ∈ (st.flushReady cfg tokenKey).2) :
    bar.tokenKey = tokenKey := by
  unfold flushReady at hbar
  simp only at hbar
  split at hbar
  · cases hbar
  · exact (flushLoop_spec cfg tokenKey _ _ st).2.2.2 bar hbar

theorem advance_windows (barSecond : ℤ) (hclock : 0 < st.watermarkSecond) :
    (st.advance barSecond).windows = st.windows.see barSecond := by
  unfold advance
  by_cases hlater : barSecond > st.watermarkSecond
  · rw [if_pos ⟨hclock, hlater⟩]
    simp only [windows, Windows.see, max_eq_right hlater.le]
  · rw [if_neg (fun h => hlater h.2)]
    simp only [windows, Windows.see, max_eq_left (not_lt.mp hlater)]

end TokenState

end AlphaMonitor.Shard
