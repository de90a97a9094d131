import AlphaMonitor.Shard.Completeness

/-!
# The bar that a state makes of a second

Handling and flushing read neither the registry's side of a token nor the drops
reported, and a flush does not read the clock.  So the bar of a second can be told
from the state before the flush.

## Main definitions

- `Bars1sToken.view`: a bar without what depends on the registry and the health module
- `TokenState.barAt`: the bar that a flush makes of a second
-/

namespace AlphaMonitor.Shard

/-! ## What handling does not depend on -/

namespace TokenState

/-- The state under another registry, with other drops reported. -/
def relabel (st : TokenState) (side : TokenSide) (drops : ℤ) : TokenState :=
  { st with tokenSide := side, lastDropCount := drops }

variable (side : TokenSide) (drops : ℤ) (st : TokenState) (event : Event) (second : Option ℤ)

@[simp] theorem relabel_toQuoteState :
    (st.relabel side drops).toQuoteState = st.toQuoteState := rfl

@[simp] theorem relabel_flow : (st.relabel side drops).flow = st.flow := rfl

@[simp] theorem relabel_history : (st.relabel side drops).history = st.history := rfl

@[simp] theorem withQuote_relabel (q : QuoteState) :
    (st.relabel side drops).withQuote q = (st.withQuote q).relabel side drops := rfl

@[simp] theorem withAcc_relabel (s : ℤ) (f : SecondAccumulator → SecondAccumulator) :
    (st.relabel side drops).withAcc s f = (st.withAcc s f).relabel side drops := rfl

@[simp] theorem onAcc_relabel (f : SecondAccumulator → SecondAccumulator) :
    (st.relabel side drops).onAcc second f = (st.onAcc second f).relabel side drops := by
  cases second <;> rfl

@[simp] theorem updateOfiAndLevels_relabel (s eventTsMs : ℤ) :
    (st.relabel side drops).updateOfiAndLevels s eventTsMs =
      (st.updateOfiAndLevels s eventTsMs).relabel side drops := by
  unfold updateOfiAndLevels
  simp only [relabel_toQuoteState, relabel_flow]
  split
  · split <;> rfl
  · rfl

@[simp] theorem updateBidAskDelta_relabel (s eventTsMs : ℤ) (bookSide : BookSide)
    (deltaType : DeltaType) (price size : ℚ) :
    (st.relabel side drops).updateBidAskDelta s eventTsMs bookSide deltaType price size =
      (st.updateBidAskDelta s eventTsMs bookSide deltaType price size).relabel side drops := by
  unfold updateBidAskDelta
  simp only [relabel_flow]
  split
  · rfl
  · split <;> rfl

@[simp] theorem updateTradeWindow_relabel (s eventTsMs : ℤ) (bookSide : BookSide) (notional : ℚ) :
    (st.relabel side drops).updateTradeWindow s eventTsMs bookSide notional =
      (st.updateTradeWindow s eventTsMs bookSide notional).relabel side drops := by
  unfold updateTradeWindow
  split <;> rfl

@[simp] theorem noteFlow_relabel :
    (st.relabel side drops).noteFlow event second =
      (st.noteFlow event second).relabel side drops := by
  cases second with
  | none => rfl
  | some s => exact updateOfiAndLevels_relabel side drops st s event.localTsMs

@[simp] theorem noteHash_relabel :
    (st.relabel side drops).noteHash event = (st.noteHash event).relabel side drops := by
  unfold noteHash
  split <;> rfl

@[simp] theorem notePrice_relabel :
    (st.relabel side drops).notePrice event = (st.notePrice event).relabel side drops := by
  unfold notePrice
  split <;> rfl

@[simp] theorem loadSnapshot_relabel :
    (st.relabel side drops).loadSnapshot event second =
      (st.loadSnapshot event second).relabel side drops := by
  unfold loadSnapshot
  simp only [relabel_toQuoteState, withQuote_relabel, onAcc_relabel]
  split
  · split <;> rfl
  · rfl

@[simp] theorem applySnapshot_relabel :
    (st.relabel side drops).applySnapshot event second =
      (st.applySnapshot event second).relabel side drops := by
  simp only [applySnapshot, loadSnapshot_relabel, relabel_toQuoteState, withQuote_relabel,
    onAcc_relabel, noteHash_relabel, noteFlow_relabel]

theorem resyncAfterSnapshot_relabel (drift : Option ResyncLog) :
    ((st.relabel side drops).resyncAfterSnapshot event drift).1 =
      (st.resyncAfterSnapshot event drift).1.relabel side drops := by
  unfold resyncAfterSnapshot
  simp only [relabel_toQuoteState, relabel_history]
  split <;> rfl

theorem handleSnapshot_relabel :
    ((st.relabel side drops).handleSnapshot event second).1 =
      (st.handleSnapshot event second).1.relabel side drops := by
  have hdrift : (st.relabel side drops).snapshotDrift event = st.snapshotDrift event := rfl
  unfold handleSnapshot
  simp only [hdrift, relabel_toQuoteState, withQuote_relabel]
  split
  · rw [applySnapshot_relabel, resyncAfterSnapshot_relabel]
  · rw [applySnapshot_relabel, resyncAfterSnapshot_relabel]

@[simp] theorem applyLevel_relabel (allowApply : Bool) (bookSide : BookSide) (price size : ℚ) :
    (st.relabel side drops).applyLevel event second allowApply bookSide price size =
      (st.applyLevel event second allowApply bookSide price size).relabel side drops := by
  unfold applyLevel
  simp only [relabel_toQuoteState, onAcc_relabel]
  split
  · split <;> split <;> simp
  · rfl

@[simp] theorem noteLevel_relabel (allowApply : Bool) :
    (st.relabel side drops).noteLevel event second allowApply =
      (st.noteLevel event second allowApply).relabel side drops := by
  unfold noteLevel
  simp only [applyLevel_relabel, onAcc_relabel]
  split
  · cases second with
    | none => rfl
    | some s => simp only [updateBidAskDelta_relabel]
  · rfl

@[simp] theorem applyDelta_relabel (allowApply : Bool) :
    (st.relabel side drops).applyDelta event second allowApply =
      (st.applyDelta event second allowApply).relabel side drops := by
  unfold applyDelta
  simp only [relabel_toQuoteState, withQuote_relabel, noteLevel_relabel, onAcc_relabel]
  split <;> simp only [noteFlow_relabel, noteHash_relabel]

theorem handleDelta_relabel :
    ((st.relabel side drops).handleDelta event second).1 =
      (st.handleDelta event second).1.relabel side drops := by
  unfold handleDelta resyncAfterDelta allowApply
  simp only [relabel_toQuoteState, applyDelta_relabel, relabel_history]
  split
  · split <;> rfl
  · rfl

theorem handleTrade_relabel :
    (st.relabel side drops).handleTrade event second =
      (st.handleTrade event second).relabel side drops := by
  unfold handleTrade
  simp only [notePrice_relabel, onAcc_relabel]
  split
  · simp only [updateTradeWindow_relabel]
  · rfl

theorem dispatch_relabel :
    ((st.relabel side drops).dispatch event second).1 =
      (st.dispatch event second).1.relabel side drops := by
  unfold dispatch
  cases event.kind with
  | bookSnapshot => exact handleSnapshot_relabel side drops st event second
  | bookDelta => exact handleDelta_relabel side drops st event second
  | trade => exact handleTrade_relabel side drops st event second
  | lastPrice => simp only [notePrice_relabel, onAcc_relabel]
  | tickSizeChange =>
    simp only
    split <;> rfl
  | health => rfl

/-- An event overwrites the time of the last one. -/
theorem handleEvent_forget (lastEventLocalTsMs : ℤ) :
    ({ st with lastEventLocalTsMs := lastEventLocalTsMs }.handleEvent event).state =
      (st.handleEvent event).state := by
  have hadmitted : ({ st with lastEventLocalTsMs := lastEventLocalTsMs }.admitEvent event) =
      ({ (st.admitEvent event).1 with lastEventLocalTsMs := lastEventLocalTsMs },
        (st.admitEvent event).2) := by
    unfold admitEvent
    simp only
    split
    · rfl
    · split <;> rfl
  rw [handleEvent_eq, handleEvent_eq, hadmitted]
  rfl

theorem handleEvent_relabel :
    ((st.relabel side drops).handleEvent event).state =
      (st.handleEvent event).state.relabel side drops := by
  have hadmitted : (st.relabel side drops).admitEvent event =
      ((st.admitEvent event).1.relabel side drops, (st.admitEvent event).2) := by
    unfold admitEvent relabel
    simp only
    split
    · rfl
    · split <;> rfl
  rw [handleEvent_eq, handleEvent_eq, hadmitted]
  simp only
  have hcount : ∀ st' : TokenState, ∀ event' s, (st'.relabel side drops).countEvent event' s =
      (st'.countEvent event' s).relabel side drops := by
    intro st' event' s
    cases s <;> rfl
  rw [hcount, dispatch_relabel]

end TokenState

/-! ## The bar of a second -/

/-- A bar but for the registry's side of the token and the health bits, of which the one
for a recent resync is kept. -/
def Bars1sToken.view (bar : Bars1sToken) : Bars1sToken :=
  { bar with
    tokenSide := .unknown
    connectionHealthFlags :=
      if bar.connectionHealthFlags.testBit 2 then healthResyncRecent else 0 }

theorem ShardWorker.SameBar.view {bar bar' : Bars1sToken} (h : SameBar bar bar') :
    bar'.view = bar.view := by
  have hbit := h.resyncRecent
  rw [h.fields]
  simp only [Bars1sToken.view, hbit]

namespace TokenState

variable (cfg : ShardConfig) (tokenKey : String)

/-- The state with another clock. -/
def reclock (st : TokenState) (watermark flushed : ℤ) : TokenState :=
  { st with watermarkSecond := watermark, lastFlushedSecond := flushed }

/-- One round of `flushLoop`. -/
def flushOne (current : ℤ) (st : TokenState) : TokenState × Bars1sToken :=
  flush { st with accumulators := Function.update st.accumulators current none } cfg tokenKey
    current ((st.accumulators current).getD SecondAccumulator.default)

theorem flushLoop_succ (n : ℕ) (current : ℤ) (st : TokenState) :
    flushLoop cfg tokenKey (n + 1) current st =
      ((flushLoop cfg tokenKey n (current + 1) (flushOne cfg tokenKey current st).1).1,
        (flushOne cfg tokenKey current st).2 ::
          (flushLoop cfg tokenKey n (current + 1) (flushOne cfg tokenKey current st).1).2) := rfl

/-- The bar that a flush from `current` on makes of the second `n` later. -/
def nthBar : ℕ → ℤ → TokenState → Bars1sToken
  | 0, current, st => (flushOne cfg tokenKey current st).2
  | n + 1, current, st => nthBar n (current + 1) (flushOne cfg tokenKey current st).1

/-- The bar that a flush of the state makes of a second. -/
def barAt (barSecond : ℤ) (st : TokenState) : Bars1sToken :=
  nthBar cfg tokenKey (barSecond - (st.lastFlushedSecond + 1)).toNat (st.lastFlushedSecond + 1) st

theorem flushOne_second (current : ℤ) (st : TokenState) :
    (flushOne cfg tokenKey current st).2.barSecond = current := rfl

theorem flushOne_relabel (side : TokenSide) (drops current : ℤ) (st : TokenState) :
    flushOne cfg tokenKey current (st.relabel side drops) =
      ((flushOne cfg tokenKey current st).1.relabel side drops,
        { (flushOne cfg tokenKey current st).2 with tokenSide := side }) := rfl

theorem flushOne_reclock (watermark flushed current : ℤ) (st : TokenState) :
    flushOne cfg tokenKey current (st.reclock watermark flushed) =
      ((flushOne cfg tokenKey current st).1.reclock watermark flushed,
        (flushOne cfg tokenKey current st).2) := rfl

theorem mem_flushLoop {n : ℕ} {current : ℤ} {st : TokenState} {bar : Bars1sToken}
    (hbar : bar ∈ (flushLoop cfg tokenKey n current st).2) :
    ∃ m, m < n ∧ bar.barSecond = current + m ∧ bar = nthBar cfg tokenKey m current st := by
  induction n generalizing current st with
  | zero => cases hbar
  | succ n ih =>
    rw [flushLoop_succ] at hbar
    rcases List.mem_cons.mp hbar with rfl | hrest
    · exact ⟨0, Nat.succ_pos n, by simp [flushOne_second], rfl⟩
    · obtain ⟨m, hm, hsecond, hnth⟩ := ih hrest
      refine ⟨m + 1, Nat.succ_lt_succ hm, ?_, hnth⟩
      rw [hsecond]
      push_cast
      ring

theorem nthBar_relabel (side : TokenSide) (drops : ℤ) (n : ℕ) (current : ℤ) (st : TokenState) :
    (nthBar cfg tokenKey n current (st.relabel side drops)).view =
      (nthBar cfg tokenKey n current st).view := by
  induction n generalizing current st with
  | zero =>
    simp only [nthBar, flushOne_relabel]
    rfl
  | succ n ih =>
    simp only [nthBar, flushOne_relabel]
    exact ih (current + 1) _

theorem nthBar_reclock (watermark flushed : ℤ) (n : ℕ) (current : ℤ) (st : TokenState) :
    nthBar cfg tokenKey n current (st.reclock watermark flushed) =
      nthBar cfg tokenKey n current st := by
  induction n generalizing current st with
  | zero => simp only [nthBar, flushOne_reclock]
  | succ n ih =>
    simp only [nthBar, flushOne_reclock]
    exact ih (current + 1) _

/-- Flushing the seconds before does not change the bar. -/
theorem nthBar_flushLoop (m n : ℕ) (current : ℤ) (st : TokenState) :
    nthBar cfg tokenKey n (current + m) (flushLoop cfg tokenKey m current st).1 =
      nthBar cfg tokenKey (m + n) current st := by
  induction m generalizing current st with
  | zero => simp [flushLoop]
  | succ m ih =>
    have hshift : current + ((m + 1 : ℕ) : ℤ) = current + 1 + m := by
      push_cast
      ring
    have hsum : m + 1 + n = (m + n) + 1 := by omega
    rw [flushLoop_succ, hshift, hsum]
    exact ih (current + 1) _

theorem barAt_relabel (side : TokenSide) (drops barSecond : ℤ) (st : TokenState) :
    (barAt cfg tokenKey barSecond (st.relabel side drops)).view =
      (barAt cfg tokenKey barSecond st).view :=
  nthBar_relabel cfg tokenKey side drops _ _ st

theorem barAt_advance (barSecond tick : ℤ) (st : TokenState) :
    barAt cfg tokenKey barSecond (st.advance tick) = barAt cfg tokenKey barSecond st := by
  unfold advance
  split
  · exact nthBar_reclock cfg tokenKey tick st.lastFlushedSecond _ _ st
  · rfl

theorem flushLoop_relabel (side : TokenSide) (drops : ℤ) (n : ℕ) (current : ℤ) (st : TokenState) :
    (flushLoop cfg tokenKey n current (st.relabel side drops)).1 =
      (flushLoop cfg tokenKey n current st).1.relabel side drops := by
  induction n generalizing current st with
  | zero => rfl
  | succ n ih =>
    simp only [flushLoop_succ, flushOne_relabel]
    exact ih (current + 1) _

theorem flushReady_relabel (side : TokenSide) (drops : ℤ) (st : TokenState) :
    ((st.relabel side drops).flushReady cfg tokenKey).1 =
      (st.flushReady cfg tokenKey).1.relabel side drops := by
  have hloop := flushLoop_relabel cfg tokenKey side drops
    (st.watermarkSecond - lateEventBufferSecs - st.lastFlushedSecond).toNat
    (st.lastFlushedSecond + 1) st
  unfold flushReady
  have hmark : (st.relabel side drops).watermarkSecond = st.watermarkSecond := rfl
  have hflushed : (st.relabel side drops).lastFlushedSecond = st.lastFlushedSecond := rfl
  simp only [hmark, hflushed]
  split
  · rfl
  · simp only [hloop]
    rfl

/-- Which bars a flush makes. -/
theorem mem_flushReady {st : TokenState} {bar : Bars1sToken}
    (hbar : bar ∈ (st.flushReady cfg tokenKey).2) :
    st.lastFlushedSecond < bar.barSecond ∧
      bar.barSecond ≤ st.watermarkSecond - lateEventBufferSecs ∧
      bar = st.barAt cfg tokenKey bar.barSecond := by
  unfold flushReady at hbar
  simp only at hbar
  split at hbar
  · cases hbar
  · obtain ⟨m, hm, hsecond, hnth⟩ := mem_flushLoop cfg tokenKey hbar
    refine ⟨by omega, by omega, ?_⟩
    have hindex : (bar.barSecond - (st.lastFlushedSecond + 1)).toNat = m := by omega
    rw [barAt, hindex]
    exact hnth

/-- A flush that does not reach a second leaves its bar as it is. -/
theorem barAt_flushReady {st : TokenState} {barSecond : ℤ}
    (hclock : st.watermarkSecond - lateEventBufferSecs < barSecond)
    (hflushed : st.lastFlushedSecond < barSecond) :
    barAt cfg tokenKey barSecond (st.flushReady cfg tokenKey).1 =
      barAt cfg tokenKey barSecond st := by
  unfold flushReady
  simp only
  split
  · rfl
  · rename_i hdue
    simp only [not_or, not_le] at hdue
    set cutoff := st.watermarkSecond - lateEventBufferSecs
    have hstart : st.lastFlushedSecond + 1 + ((cutoff - st.lastFlushedSecond).toNat : ℤ) =
        cutoff + 1 := by omega
    have hsum : (cutoff - st.lastFlushedSecond).toNat + (barSecond - (cutoff + 1)).toNat =
        (barSecond - (st.lastFlushedSecond + 1)).toNat := by omega
    have hloop := nthBar_flushLoop cfg tokenKey (cutoff - st.lastFlushedSecond).toNat
      (barSecond - (cutoff + 1)).toNat (st.lastFlushedSecond + 1) st
    rw [hstart, hsum] at hloop
    rw [barAt, barAt, ← hloop]
    exact nthBar_reclock cfg tokenKey _ cutoff _ _ _

end TokenState

end AlphaMonitor.Shard
