import AlphaMonitor.Shard.Sync
import Mathlib.Data.List.Induction
import Mathlib.Data.List.Infix

/-!
# Several level updates that belong together

A message of Polymarket may change several levels.  Each change becomes an event of its
own, every one of them with the best prices after the whole message, and the resync
check and a flush follow every event.  Here it is shown when the changes all reach the book.

## Main definitions

- `TokenState.handleAll`: the token after events, each with the flush that follows it
- `TokenState.AppliedWhole`: the changes reach the book one by one, none asks for a resync
- `TokenState.Steady`: no change but the last leaves other best levels than the final ones

## Main results

- `appliedWhole_iff_undisturbed`: changes are applied as a whole just in case the check
  passes the book after each of them
- `appliedWhole_iff_steady`: the same for a message that reports the final best prices
-/

namespace AlphaMonitor.Shard

open Lib (writeAll)

/-! ## Prices on the grid -/

theorem roundHalfAway_natCast (n : ℕ) : roundHalfAway (n : ℚ) = n := by
  unfold roundHalfAway
  rw [if_pos (Nat.cast_nonneg n), Int.floor_eq_iff]
  push_cast
  constructor
  · linarith
  · linarith

/-- A price on the grid is at its own level. -/
theorem priceToIdx_idxToPrice (idx : ℕ) :
    priceToIdx (idxToPrice idx) = if idx < priceLevels then some idx else none := by
  have hvalue : idxToPrice idx * priceScale = idx := by
    unfold idxToPrice priceScale
    ring
  unfold priceToIdx
  rw [hvalue, roundHalfAway_natCast]
  unfold toI64 priceLevels priceMaxIdx
  by_cases hidx : idx < 10000 + 1
  · have hcast : max (-2 ^ 63) (min (idx : ℤ) (2 ^ 63 - 1)) = idx := by omega
    rw [hcast, if_pos hidx]
    dsimp only
    rw [if_neg (by omega), Int.toNat_natCast]
  · rw [if_neg hidx]
    dsimp only
    rw [if_pos (Or.inr (by omega))]

/-! ## Runs of events of one token -/

namespace TokenState

variable (st : TokenState)

/-- The token after an event and the flush that follows it.  Sending the bars on only notes how
many events were dropped. -/
def takeEvent (cfg : ShardConfig) (tokenKey : String) (event : Event) : TokenState :=
  ((st.handleEvent event).state.flushReady cfg tokenKey).1

/-- The token after some events. -/
def handleAll (cfg : ShardConfig) (tokenKey : String) (events : List Event) : TokenState :=
  events.foldl (fun st event => st.takeEvent cfg tokenKey event) st

/-- What a flush does to the clock. -/
def flushClock : TokenState :=
  if st.watermarkSecond ≤ 0 ∨ st.watermarkSecond - lateEventBufferSecs ≤ st.lastFlushedSecond then
    st
  else { st with lastFlushedSecond := st.watermarkSecond - lateEventBufferSecs }

/-- Only the clock after some events. -/
def clockAfter (events : List Event) : TokenState :=
  events.foldl (fun st event => (st.admitEvent event).1.flushClock) st

end TokenState

/-- The same levels; the tick may differ. -/
structure DenseBook.SameLevels (book book' : DenseBook) : Prop where
  bids : book'.bids = book.bids
  asks : book'.asks = book.asks

/-- The book after the level updates of some events. -/
def DenseBook.afterUpdates (book : DenseBook) (events : List Event) : DenseBook :=
  events.foldl DenseBook.afterUpdate book

namespace TokenState

variable (st : TokenState)

/-- Every change reaches the book, and no event leaves the token in need of a snapshot. -/
def AppliedWhole (cfg : ShardConfig) (tokenKey : String) (events : List Event) : Prop :=
  ∀ done, done <+: events →
    (st.handleAll cfg tokenKey done).resyncNeeded = false ∧
      (st.orderbook.afterUpdates done).SameLevels (st.handleAll cfg tokenKey done).orderbook

/-- The resync check has nothing against the event, with the book as it is then. -/
def Passes (book : DenseBook) (clock : TokenState) (event : Event) : Prop :=
  st.lastResyncBarSecond = some event.barSecond ∨
    InOrder clock event ∧ { st.toQuoteState with orderbook := book }.isCrossed = false ∧
      { st.toQuoteState with orderbook := book }.reportedBboMismatch event = false

/-- The check passes the book after each of the events. -/
def Undisturbed (events : List Event) : Prop :=
  ∀ done event rest, events = done ++ event :: rest →
    st.Passes (st.orderbook.afterUpdates (done ++ [event])) (st.clockAfter done) event

end TokenState

/-! ## Levels -/

namespace DenseBook.SameLevels

variable {book book' book'' : DenseBook}

theorem refl (book : DenseBook) : book.SameLevels book := ⟨rfl, rfl⟩

theorem trans (h : book.SameLevels book') (h' : book'.SameLevels book'') :
    book.SameLevels book'' :=
  ⟨h'.bids.trans h.bids, h'.asks.trans h.asks⟩

theorem half (h : book.SameLevels book') (side : BookSide) : book'.half side = book.half side := by
  cases side with
  | bid => exact h.bids
  | ask => exact h.asks

theorem grid (h : book.SameLevels book') : book'.grid = book.grid := by
  funext ⟨side, idx⟩
  exact congrFun (congrArg BookHalf.sizes (h.half side)) idx

theorem bestBidAskIdx (h : book.SameLevels book') : book'.bestBidAskIdx = book.bestBidAskIdx := by
  unfold DenseBook.bestBidAskIdx
  rw [h.bids, h.asks]

theorem bestBidAsk (h : book.SameLevels book') : book'.bestBidAsk = book.bestBidAsk := by
  unfold DenseBook.bestBidAsk
  rw [h.bids, h.asks]

theorem setLevel (h : book.SameLevels book') (side : BookSide) (idx size : ℕ) :
    (book.setLevel side idx size).SameLevels (book'.setLevel side idx size) := by
  cases side with
  | bid => exact ⟨congrArg (BookHalf.setLevel .bid · idx size) h.bids, h.asks⟩
  | ask => exact ⟨h.bids, congrArg (BookHalf.setLevel .ask · idx size) h.asks⟩

/-- What an update does to the levels depends on the levels alone. -/
theorem afterUpdate (h : book.SameLevels book') (event : Event) :
    (book.afterUpdate event).SameLevels (book'.afterUpdate event) := by
  unfold DenseBook.afterUpdate
  split
  · unfold DenseBook.applyDelta
    split
    · exact h
    · have hstamped : DenseBook.SameLevels { book with lastUpdateTsMs := event.localTsMs }
          { book' with lastUpdateTsMs := event.localTsMs } := ⟨h.bids, h.asks⟩
      exact hstamped.setLevel _ _ _
  · exact h

end DenseBook.SameLevels

/-! ## One event -/

section
variable {st : TokenState} {event : Event}

/-- The clock of a token does not depend on what the event does to it. -/
theorem handleEvent_clock (st : TokenState) (event : Event) :
    (st.handleEvent event).state.watermarkSecond = (st.admitEvent event).1.watermarkSecond ∧
      (st.handleEvent event).state.lastFlushedSecond =
        (st.admitEvent event).1.lastFlushedSecond := by
  rw [TokenState.handleEvent_eq]
  dsimp only
  generalize (st.admitEvent event).2 = second
  have hsame := TokenState.dispatch_same ((st.admitEvent event).1.countEvent
    (TokenState.classify event second) second) (TokenState.classify event second) second
  have hwatermark := hsame.watermark
  have hflushed := hsame.flushed
  have hcount : ((st.admitEvent event).1.countEvent (TokenState.classify event second)
      second).watermarkSecond = (st.admitEvent event).1.watermarkSecond ∧
      ((st.admitEvent event).1.countEvent (TokenState.classify event second)
        second).lastFlushedSecond = (st.admitEvent event).1.lastFlushedSecond := by
    cases second <;> exact ⟨rfl, rfl⟩
  exact ⟨hwatermark.trans hcount.1, hflushed.trans hcount.2⟩

/-- What an event does to the clock depends on the clock alone. -/
theorem admitEvent_clock_congr {st st' : TokenState} (event : Event)
    (hwatermark : st.watermarkSecond = st'.watermarkSecond)
    (hflushed : st.lastFlushedSecond = st'.lastFlushedSecond) :
    (st.admitEvent event).1.watermarkSecond = (st'.admitEvent event).1.watermarkSecond ∧
      (st.admitEvent event).1.lastFlushedSecond = (st'.admitEvent event).1.lastFlushedSecond := by
  unfold TokenState.admitEvent
  dsimp only
  rw [hwatermark, hflushed]
  split
  · exact ⟨rfl, rfl⟩
  · split
    · exact ⟨rfl, rfl⟩
    · exact ⟨hwatermark, hflushed⟩

theorem flushClock_congr {st st' : TokenState} (hwatermark : st.watermarkSecond = st'.watermarkSecond)
    (hflushed : st.lastFlushedSecond = st'.lastFlushedSecond) :
    st.flushClock.watermarkSecond = st'.flushClock.watermarkSecond ∧
      st.flushClock.lastFlushedSecond = st'.flushClock.lastFlushedSecond := by
  unfold TokenState.flushClock
  rw [hwatermark, hflushed]
  split
  · exact ⟨hwatermark, hflushed⟩
  · exact ⟨rfl, rfl⟩

theorem flushReady_clock (cfg : ShardConfig) (tokenKey : String) (st : TokenState) :
    (st.flushReady cfg tokenKey).1.watermarkSecond = st.flushClock.watermarkSecond ∧
      (st.flushReady cfg tokenKey).1.lastFlushedSecond = st.flushClock.lastFlushedSecond := by
  obtain ⟨hwatermark, hflushed⟩ := st.clock_flushReady cfg tokenKey
  unfold TokenState.flushClock
  rcases hflushed with ⟨hflushed, hnot⟩ | ⟨hflushed, hclock, hdue⟩
  · rw [if_pos hnot]
    exact ⟨hwatermark, hflushed⟩
  · rw [if_neg (not_or.mpr ⟨not_le.mpr hclock, not_le.mpr hdue⟩)]
    exact ⟨hwatermark, hflushed⟩

theorem takeEvent_clock (cfg : ShardConfig) (tokenKey : String) (st : TokenState) (event : Event) :
    (st.takeEvent cfg tokenKey event).watermarkSecond =
        (st.admitEvent event).1.flushClock.watermarkSecond ∧
      (st.takeEvent cfg tokenKey event).lastFlushedSecond =
        (st.admitEvent event).1.flushClock.lastFlushedSecond := by
  obtain ⟨hwatermark, hflushed⟩ := flushReady_clock cfg tokenKey (st.handleEvent event).state
  obtain ⟨hevent, hevent'⟩ := handleEvent_clock st event
  obtain ⟨hclock, hclock'⟩ := flushClock_congr hevent hevent'
  exact ⟨hwatermark.trans hclock, hflushed.trans hclock'⟩

theorem handleAll_clock (cfg : ShardConfig) (tokenKey : String) (st : TokenState)
    (events : List Event) :
    (st.handleAll cfg tokenKey events).watermarkSecond = (st.clockAfter events).watermarkSecond ∧
      (st.handleAll cfg tokenKey events).lastFlushedSecond =
        (st.clockAfter events).lastFlushedSecond := by
  induction events using List.reverseRecOn with
  | nil => exact ⟨rfl, rfl⟩
  | append_singleton events event ih =>
    unfold TokenState.handleAll TokenState.clockAfter at ih ⊢
    rw [List.foldl_concat, List.foldl_concat]
    obtain ⟨hwatermark, hflushed⟩ := takeEvent_clock cfg tokenKey
      (events.foldl (fun st event => st.takeEvent cfg tokenKey event) st) event
    obtain ⟨hadmitted, hadmitted'⟩ := admitEvent_clock_congr event ih.1 ih.2
    obtain ⟨hwatermark', hflushed'⟩ := flushClock_congr hadmitted hadmitted'
    exact ⟨hwatermark.trans hwatermark', hflushed.trans hflushed'⟩

theorem inOrder_congr {st st' : TokenState} (event : Event)
    (hwatermark : st.watermarkSecond = st'.watermarkSecond)
    (hflushed : st.lastFlushedSecond = st'.lastFlushedSecond) :
    InOrder st event ↔ InOrder st' event := by
  constructor
  · intro h
    refine ⟨h.flag, fun hclock => ?_⟩
    rw [← hflushed]
    exact h.notLate (hwatermark ▸ hclock)
  · intro h
    refine ⟨h.flag, fun hclock => ?_⟩
    rw [hflushed]
    exact h.notLate (hwatermark ▸ hclock)

/-- A change reaches the book, and asks for a snapshot unless the check passes it. -/
theorem handleEvent_delta (hvenue : event.venue = .polymarket) (hkind : event.kind = .bookDelta)
    (hresync : st.resyncNeeded = false) :
    (st.handleEvent event).state.orderbook = st.orderbook.afterUpdate event ∧
      (st.Passes (st.orderbook.afterUpdate event) st event →
        (st.handleEvent event).state.resyncNeeded = false ∧
          (st.handleEvent event).state.lastResyncBarSecond = st.lastResyncBarSecond) ∧
      (¬ st.Passes (st.orderbook.afterUpdate event) st event →
        (st.handleEvent event).state.resyncNeeded = true) := by
  have hquote := TokenState.handleEvent_quote st event
  have horder := outOfOrder_handleEvent st event
  have hfields : (st.handleEvent event).event =
      { event with flags := (st.handleEvent event).event.flags } := by
    rw [TokenState.handleEvent_eq]
    dsimp only
    unfold TokenState.classify
    split <;> rfl
  generalize (st.handleEvent event).event = handled at hquote horder hfields
  have hvenue' : handled.venue = .polymarket := by rw [hfields]; exact hvenue
  have hkind' : handled.kind = .bookDelta := by rw [hfields]; exact hkind
  have hsecond : handled.barSecond = event.barSecond := by rw [hfields]; rfl
  have hallows : st.toQuoteState.allows handled = true := by
    unfold QuoteState.allows
    rw [hvenue']
    rfl
  obtain ⟨hbook, _, hneeded, hlast⟩ := updated_of_allowed hallows hresync
  have hsame : st.orderbook.afterUpdate handled = st.orderbook.afterUpdate event := by
    rw [hfields]
    rfl
  rw [hsame] at hbook
  have hafter : st.toQuoteState.afterEvent handled =
      (st.toQuoteState.updated handled).judged handled := by
    unfold QuoteState.afterEvent QuoteState.afterDelta
    rw [hkind', hallows]
    rfl
  have hpasses : (st.toQuoteState.updated handled).resyncReason handled handled.barSecond = none ↔
      st.Passes (st.orderbook.afterUpdate event) st event := by
    rw [resyncReason_eq_none_iff hkind', hlast, hsecond, horder]
    have hmismatch : (st.toQuoteState.updated handled).reportedBboMismatch handled =
        { st.toQuoteState with
          orderbook := st.orderbook.afterUpdate event }.reportedBboMismatch event := by
      rw [hfields] at hbook ⊢
      exact reportedBboMismatch_congr (congrArg DenseBook.bestBidAsk hbook) event
    have hcrossed : (st.toQuoteState.updated handled).isCrossed =
        { st.toQuoteState with orderbook := st.orderbook.afterUpdate event }.isCrossed :=
      isCrossed_congr (congrArg DenseBook.bestBidAsk hbook)
    rw [hmismatch, hcrossed]
    rfl
  rw [hafter] at hquote
  rw [← hpasses]
  unfold QuoteState.judged at hquote
  cases hreason : (st.toQuoteState.updated handled).resyncReason handled handled.barSecond with
  | none =>
    rw [hreason, Option.isSome_none, if_neg Bool.false_ne_true] at hquote
    rw [hquote]
    exact ⟨hbook, fun _ => ⟨hneeded, hlast⟩, fun hsome => absurd rfl hsome⟩
  | some reason =>
    rw [hreason, Option.isSome_some, if_pos rfl] at hquote
    rw [hquote]
    exact ⟨hbook, fun hnone => absurd hnone (Option.some_ne_none reason), fun _ => rfl⟩

/-- The flush afterwards changes nothing of that. -/
theorem takeEvent_delta (cfg : ShardConfig) (tokenKey : String) (hvenue : event.venue = .polymarket)
    (hkind : event.kind = .bookDelta) (hresync : st.resyncNeeded = false) :
    (st.orderbook.afterUpdate event).SameLevels (st.takeEvent cfg tokenKey event).orderbook ∧
      (st.Passes (st.orderbook.afterUpdate event) st event →
        (st.takeEvent cfg tokenKey event).resyncNeeded = false ∧
          (st.takeEvent cfg tokenKey event).lastResyncBarSecond = st.lastResyncBarSecond) ∧
      (¬ st.Passes (st.orderbook.afterUpdate event) st event →
        (st.takeEvent cfg tokenKey event).resyncNeeded = true) := by
  obtain ⟨hbook, hpass, hfail⟩ := handleEvent_delta hvenue hkind hresync
  have hsame := (st.handleEvent event).state.flushReady_sameBook cfg tokenKey
  refine ⟨?_, fun hpasses => ?_, fun hfails => ?_⟩
  · rw [← hbook]
    exact ⟨hsame.bids, hsame.asks⟩
  · obtain ⟨hneeded, hlast⟩ := hpass hpasses
    exact ⟨hsame.resyncNeeded.trans hneeded, hsame.lastResync.trans hlast⟩
  · exact hsame.resyncNeeded.trans (hfail hfails)

/-- The check looks at the levels only. -/
theorem passes_congr {book book' : DenseBook} (h : book.SameLevels book') (clock : TokenState) :
    st.Passes book' clock event ↔ st.Passes book clock event := by
  have hcrossed : { st.toQuoteState with orderbook := book' }.isCrossed =
      { st.toQuoteState with orderbook := book }.isCrossed := isCrossed_congr h.bestBidAsk
  have hmismatch : { st.toQuoteState with orderbook := book' }.reportedBboMismatch event =
      { st.toQuoteState with orderbook := book }.reportedBboMismatch event :=
    reportedBboMismatch_congr h.bestBidAsk event
  unfold TokenState.Passes
  rw [hcrossed, hmismatch]

end

/-! ## All events of a message -/

/-- An event is one change of a Polymarket message. -/
structure IsChange (event : Event) : Prop where
  venue : event.venue = .polymarket
  kind : event.kind = .bookDelta
  channel : event.channel = some "price_change"

section
variable {cfg : ShardConfig} {tokenKey : String} {st : TokenState} {events : List Event}
  {event : Event}

theorem handleAll_concat (st : TokenState) (events : List Event) (event : Event) :
    st.handleAll cfg tokenKey (events ++ [event]) =
      (st.handleAll cfg tokenKey events).takeEvent cfg tokenKey event :=
  List.foldl_concat _ _ _ _

theorem afterUpdates_concat (book : DenseBook) (events : List Event) (event : Event) :
    book.afterUpdates (events ++ [event]) = (book.afterUpdates events).afterUpdate event :=
  List.foldl_concat _ _ _ _

theorem appliedWhole_concat :
    st.AppliedWhole cfg tokenKey (events ++ [event]) ↔
      st.AppliedWhole cfg tokenKey events ∧
        (st.handleAll cfg tokenKey (events ++ [event])).resyncNeeded = false ∧
        (st.orderbook.afterUpdates (events ++ [event])).SameLevels
          (st.handleAll cfg tokenKey (events ++ [event])).orderbook := by
  constructor
  · intro h
    exact ⟨fun done hdone => h done (hdone.trans (List.prefix_append _ _)),
      h _ (List.prefix_refl _)⟩
  · rintro ⟨hearlier, hlast⟩ done hdone
    rcases List.prefix_concat_iff.mp hdone with rfl | hdone
    · exact hlast
    · exact hearlier done hdone

theorem undisturbed_concat :
    st.Undisturbed (events ++ [event]) ↔
      st.Undisturbed events ∧
        st.Passes (st.orderbook.afterUpdates (events ++ [event])) (st.clockAfter events) event := by
  constructor
  · intro h
    refine ⟨?_, h events event [] rfl⟩
    intro done change rest hsplit
    exact h done change (rest ++ [event]) (by rw [hsplit, List.append_assoc, List.cons_append])
  · rintro ⟨hearlier, hlast⟩ done change rest hsplit
    rcases List.eq_nil_or_concat rest with rfl | ⟨rest', last, rfl⟩
    · obtain ⟨rfl, hsame⟩ := List.append_inj' hsplit rfl
      cases hsame
      exact hlast
    · rw [List.concat_eq_append, ← List.cons_append, ← List.append_assoc] at hsplit
      exact hearlier done change rest' (List.append_inj' hsplit rfl).1

/-- The verdict on an event is the same for the token as it is then. -/
theorem passes_handleAll (hlast : (st.handleAll cfg tokenKey events).lastResyncBarSecond =
    st.lastResyncBarSecond) (book : DenseBook) :
    (st.handleAll cfg tokenKey events).Passes book (st.handleAll cfg tokenKey events) event ↔
      st.Passes book (st.clockAfter events) event := by
  obtain ⟨hwatermark, hflushed⟩ := handleAll_clock cfg tokenKey st events
  have hcrossed :
      { (st.handleAll cfg tokenKey events).toQuoteState with orderbook := book }.isCrossed =
        { st.toQuoteState with orderbook := book }.isCrossed := isCrossed_congr rfl
  have hmismatch :
      { (st.handleAll cfg tokenKey events).toQuoteState with
          orderbook := book }.reportedBboMismatch event =
        { st.toQuoteState with orderbook := book }.reportedBboMismatch event :=
    reportedBboMismatch_congr rfl event
  unfold TokenState.Passes
  rw [hlast, hcrossed, hmismatch, inOrder_congr event hwatermark hflushed]

/-- What an event does after others that were applied as a whole. -/
theorem TokenState.AppliedWhole.next (happlied : st.AppliedWhole cfg tokenKey events)
    (hlast : (st.handleAll cfg tokenKey events).lastResyncBarSecond = st.lastResyncBarSecond)
    (hvenue : event.venue = .polymarket) (hkind : event.kind = .bookDelta) :
    (st.orderbook.afterUpdates (events ++ [event])).SameLevels
        (st.handleAll cfg tokenKey (events ++ [event])).orderbook ∧
      (st.Passes (st.orderbook.afterUpdates (events ++ [event])) (st.clockAfter events) event →
        (st.handleAll cfg tokenKey (events ++ [event])).resyncNeeded = false ∧
          (st.handleAll cfg tokenKey (events ++ [event])).lastResyncBarSecond =
            st.lastResyncBarSecond) ∧
      (¬ st.Passes (st.orderbook.afterUpdates (events ++ [event])) (st.clockAfter events) event →
        (st.handleAll cfg tokenKey (events ++ [event])).resyncNeeded = true) := by
  obtain ⟨hneeded, hbook⟩ := happlied events (List.prefix_refl _)
  have hlevels := hbook.afterUpdate event
  rw [← afterUpdates_concat] at hlevels
  obtain ⟨hbook', hpass, hfail⟩ := takeEvent_delta cfg tokenKey hvenue hkind hneeded
  rw [passes_congr hlevels, passes_handleAll hlast] at hpass hfail
  rw [handleAll_concat]
  rw [hlast] at hpass
  exact ⟨hlevels.trans hbook', hpass, hfail⟩

/-- Changes reach the book as a whole just in case the check passes it after each of them. -/
theorem appliedWhole_iff_undisturbed (hsync : st.resyncNeeded = false)
    (hchanges : ∀ event ∈ events, event.venue = .polymarket ∧ event.kind = .bookDelta) :
    (st.AppliedWhole cfg tokenKey events ↔ st.Undisturbed events) ∧
      (st.AppliedWhole cfg tokenKey events →
        (st.handleAll cfg tokenKey events).lastResyncBarSecond = st.lastResyncBarSecond) := by
  -- the events are taken off at the end, so that the token before the last one is at hand
  induction events using List.reverseRecOn with
  | nil =>
    refine ⟨iff_of_true ?_ ?_, fun _ => rfl⟩
    · intro done hdone
      rw [List.prefix_nil.mp hdone]
      exact ⟨hsync, .refl _⟩
    · intro done event rest hsplit
      cases done <;> cases hsplit
  | append_singleton events event ih =>
    obtain ⟨hiff, hkept⟩ := ih fun change hmem => hchanges change (List.mem_append_left _ hmem)
    have hchange := hchanges event (List.mem_append_right _ (List.mem_singleton.mpr rfl))
    rw [appliedWhole_concat, undisturbed_concat, ← hiff]
    refine ⟨and_congr_right fun happlied => ?_, ?_⟩
    · obtain ⟨hbook, hpass, hfail⟩ := happlied.next (hkept happlied) hchange.1 hchange.2
      constructor
      · rintro ⟨hneeded, _⟩
        by_contra hdisturbed
        rw [hfail hdisturbed] at hneeded
        cases hneeded
      · exact fun hpasses => ⟨(hpass hpasses).1, hbook⟩
    · rintro ⟨happlied, hneeded, _⟩
      obtain ⟨_, hpass, hfail⟩ := happlied.next (hkept happlied) hchange.1 hchange.2
      by_cases hpasses : st.Passes (st.orderbook.afterUpdates (events ++ [event]))
          (st.clockAfter events) event
      · exact (hpass hpasses).2
      · rw [hfail hpasses] at hneeded
        cases hneeded

/-! ### Up to a resync -/

theorem takeLevel_waiting {q : QuoteState} (hresync : q.resyncNeeded = true) (event : Event)
    (allowed : Bool) : q.takeLevel event allowed = q := by
  have hno : ¬ (allowed = true ∧ q.resyncNeeded = false) := by
    rintro ⟨-, hready⟩
    rw [hresync] at hready
    cases hready
  unfold QuoteState.takeLevel
  split
  · exact if_neg hno
  · rfl

theorem updated_waiting {q : QuoteState} (hresync : q.resyncNeeded = true) (event : Event) :
    (q.updated event).orderbook = q.orderbook ∧ (q.updated event).resyncNeeded = true := by
  have hwaiting : (q.updateBbo event.payload.bestBid event.payload.bestAsk).resyncNeeded = true :=
    hresync
  unfold QuoteState.updated
  rw [takeLevel_waiting hwaiting]
  obtain ⟨hbook, -, -, hneeded⟩ := keepHash_frame
    (q.updateBbo event.payload.bestBid event.payload.bestAsk) event
  rw [hbook, hneeded]
  exact ⟨rfl, hresync⟩

/-- A token that waits for a snapshot takes no level update, and goes on waiting. -/
theorem handleEvent_waiting (hkind : event.kind = .bookDelta) (hresync : st.resyncNeeded = true) :
    (st.handleEvent event).state.orderbook = st.orderbook ∧
      (st.handleEvent event).state.resyncNeeded = true := by
  have hquote := TokenState.handleEvent_quote st event
  have hkind' : (st.handleEvent event).event.kind = .bookDelta := by
    rw [TokenState.handleEvent_eq]
    dsimp only
    unfold TokenState.classify
    split <;> exact hkind
  rw [hquote]
  generalize (st.handleEvent event).event = handled at hkind'
  obtain ⟨hbook, hneeded⟩ := updated_waiting hresync handled
  unfold QuoteState.afterEvent QuoteState.afterDelta QuoteState.judged
  rw [hkind']
  dsimp only
  split
  · split
    · exact ⟨hbook, rfl⟩
    · exact ⟨hbook, hneeded⟩
  · exact ⟨hbook, hneeded⟩

theorem takeEvent_waiting (hkind : event.kind = .bookDelta) (hresync : st.resyncNeeded = true) :
    st.orderbook.SameLevels (st.takeEvent cfg tokenKey event).orderbook ∧
      (st.takeEvent cfg tokenKey event).resyncNeeded = true := by
  obtain ⟨hbook, hneeded⟩ := handleEvent_waiting hkind hresync
  have hsame := (st.handleEvent event).state.flushReady_sameBook cfg tokenKey
  rw [← hbook]
  exact ⟨⟨hsame.bids, hsame.asks⟩, hsame.resyncNeeded.trans hneeded⟩

/-- Once the check has found something, the token waits for a snapshot. -/
theorem waiting_of_disturbed (hsync : st.resyncNeeded = false)
    (hevents : ∀ event ∈ events, event.venue = .polymarket ∧ event.kind = .bookDelta)
    (hdisturbed : ¬ st.Undisturbed events) :
    (st.handleAll cfg tokenKey events).resyncNeeded = true := by
  induction events using List.reverseRecOn with
  | nil =>
    refine absurd ?_ hdisturbed
    intro done event rest hsplit
    cases done <;> cases hsplit
  | append_singleton events event ih =>
    have hearlier := fun e hmem => hevents e (List.mem_append_left _ hmem)
    have hevent := hevents event (List.mem_append_right _ (List.mem_singleton.mpr rfl))
    by_cases hquiet : st.Undisturbed events
    · obtain ⟨hiff, hkept⟩ :=
        @appliedWhole_iff_undisturbed cfg tokenKey st events hsync hearlier
      have happlied := hiff.mpr hquiet
      obtain ⟨-, -, hfail⟩ := happlied.next (hkept happlied) hevent.1 hevent.2
      refine hfail fun hpasses => hdisturbed ?_
      exact undisturbed_concat.mpr ⟨hquiet, hpasses⟩
    · rw [handleAll_concat]
      exact (takeEvent_waiting hevent.2 (ih hearlier hquiet)).2

/-- A level update reaches the book where the check has passed all before it. -/
theorem grid_handleAll_undisturbed (hsync : st.resyncNeeded = false)
    (hevents : ∀ e ∈ events ++ [event], e.venue = .polymarket ∧ e.kind = .bookDelta)
    (hquiet : st.Undisturbed events) :
    (st.handleAll cfg tokenKey (events ++ [event])).orderbook.grid =
      writeAll (st.handleAll cfg tokenKey events).orderbook.grid (levelWritesOf event) := by
  have hevent := hevents event (List.mem_append_right _ (List.mem_singleton.mpr rfl))
  obtain ⟨hiff, hkept⟩ := @appliedWhole_iff_undisturbed cfg tokenKey st events hsync
    fun e hmem => hevents e (List.mem_append_left _ hmem)
  have happlied := hiff.mpr hquiet
  obtain ⟨hbook, -, -⟩ := happlied.next (hkept happlied) hevent.1 hevent.2
  rw [hbook.grid, afterUpdates_concat, afterUpdate_grid,
    (happlied events (List.prefix_refl _)).2.grid]

/-- No other one does. -/
theorem grid_handleAll_disturbed (hsync : st.resyncNeeded = false)
    (hevents : ∀ e ∈ events ++ [event], e.venue = .polymarket ∧ e.kind = .bookDelta)
    (hdisturbed : ¬ st.Undisturbed events) :
    (st.handleAll cfg tokenKey (events ++ [event])).orderbook.grid =
      (st.handleAll cfg tokenKey events).orderbook.grid := by
  have hevent := hevents event (List.mem_append_right _ (List.mem_singleton.mpr rfl))
  have hwaiting : (st.handleAll cfg tokenKey events).resyncNeeded = true :=
    waiting_of_disturbed hsync (fun e hmem => hevents e (List.mem_append_left _ hmem)) hdisturbed
  rw [handleAll_concat, (takeEvent_waiting hevent.2 hwaiting).1.grid]

end

/-! ## Messages that report the final best prices -/

/-- The events report best prices, and the book after all of them is uncrossed and has
these best prices. -/
structure Fits (book : DenseBook) (events : List Event) (bid ask : ℚ) : Prop where
  reports : ∀ event ∈ events, event.payload.bestBid = some bid ∧ event.payload.bestAsk = some ask
  best : (book.afterUpdates events).bestBidAskIdx = (priceToIdx bid, priceToIdx ask)
  uncrossed : ∃ bidIdx askIdx, priceToIdx bid = some bidIdx ∧ priceToIdx ask = some askIdx ∧
    bidIdx < askIdx

/-- No event is late or out of order, and each but the last one leaves the book with the
best levels that it has in the end; unless the token was resynced in that second already. -/
def TokenState.Steady (st : TokenState) (events : List Event) : Prop :=
  ∀ done event rest, events = done ++ event :: rest →
    st.lastResyncBarSecond = some event.barSecond ∨
      InOrder (st.clockAfter done) event ∧
        (rest = [] ∨ (st.orderbook.afterUpdates (done ++ [event])).bestBidAskIdx =
          (st.orderbook.afterUpdates events).bestBidAskIdx)

theorem TokenState.steady_pair {st : TokenState} {first second : Event} (hfirst : InOrder st first)
    (hsecond : InOrder (st.clockAfter [first]) second)
    (hbest : (st.orderbook.afterUpdates [first]).bestBidAskIdx =
      (st.orderbook.afterUpdates [first, second]).bestBidAskIdx) :
    st.Steady [first, second] := by
  intro done event rest hsplit
  right
  cases done with
  | nil =>
    obtain ⟨rfl, rfl⟩ := List.cons.inj hsplit
    exact ⟨hfirst, .inr hbest⟩
  | cons d done =>
    obtain ⟨rfl, htail⟩ := List.cons.inj hsplit
    obtain ⟨rfl, rfl, rfl⟩ : done = [] ∧ event = second ∧ rest = [] := by
      cases done <;> simp_all
    exact ⟨hsecond, .inl rfl⟩

/-- A book has nothing to say against reported prices just in case they are its best ones. -/
theorem passes_iff_best {q : QuoteState} {event : Event} {bid ask : ℚ} {bidIdx askIdx : ℕ}
    (hchange : IsChange event) (hbid : event.payload.bestBid = some bid)
    (hask : event.payload.bestAsk = some ask) (hbidIdx : priceToIdx bid = some bidIdx)
    (haskIdx : priceToIdx ask = some askIdx) (huncrossed : bidIdx < askIdx) :
    (q.isCrossed = false ∧ q.reportedBboMismatch event = false) ↔
      q.orderbook.bestBidAskIdx = (priceToIdx bid, priceToIdx ask) := by
  have hbidLt := priceToIdx_lt hbidIdx
  have haskLt := priceToIdx_lt haskIdx
  have hreported : q.reportedBboMismatch event = q.bboMismatch bid ask := by
    unfold QuoteState.reportedBboMismatch
    rw [hchange.venue, hchange.kind, hchange.channel, hbid, hask]
    rfl
  rw [hreported, hbidIdx, haskIdx]
  unfold QuoteState.isCrossed QuoteState.bboMismatch DenseBook.bestBidAsk DenseBook.bestBidAskIdx
  cases q.orderbook.bids.best with
  | none => simp
  | some best =>
    cases q.orderbook.asks.best with
    | none => simp
    | some bestAsk =>
      dsimp only [Option.map_some]
      rw [priceToIdx_idxToPrice, priceToIdx_idxToPrice, hbidIdx, haskIdx]
      constructor
      · rintro ⟨_, hagrees⟩
        by_cases hbest : best < priceLevels
        · by_cases hbestAsk : bestAsk < priceLevels
          · rw [if_pos hbest, if_pos hbestAsk] at hagrees
            simp only [Option.isNone_some, Bool.false_or, Bool.or_eq_false_iff, ne_eq,
              decide_eq_false_iff_not, not_not] at hagrees
            exact Prod.ext hagrees.1 hagrees.2
          · rw [if_neg hbestAsk] at hagrees
            simp at hagrees
        · rw [if_neg hbest] at hagrees
          simp at hagrees
      · intro hsame
        obtain ⟨hbest, hbestAsk⟩ := Prod.mk.inj hsame
        cases hbest
        cases hbestAsk
        rw [if_pos hbidLt, if_pos haskLt]
        refine ⟨decide_eq_false (not_le.mpr (idxToPrice_lt huncrossed)), ?_⟩
        simp

/-- The changes of a message that reports the final best prices are applied as a whole just
in case no change but the last moves the best levels away from the final ones. -/
theorem appliedWhole_iff_steady {cfg : ShardConfig} {tokenKey : String} {st : TokenState}
    {events : List Event} {bid ask : ℚ} (hsync : st.resyncNeeded = false)
    (hchanges : ∀ event ∈ events, IsChange event) (hfits : Fits st.orderbook events bid ask) :
    st.AppliedWhole cfg tokenKey events ↔ st.Steady events := by
  obtain ⟨bidIdx, askIdx, hbidIdx, haskIdx, huncrossed⟩ := hfits.uncrossed
  rw [(appliedWhole_iff_undisturbed hsync fun event hmem =>
    ⟨(hchanges event hmem).venue, (hchanges event hmem).kind⟩).1]
  refine forall_congr' fun done => forall_congr' fun event => forall_congr' fun rest =>
    imp_congr_right fun hsplit => ?_
  have hmem : event ∈ events := by
    rw [hsplit]
    exact List.mem_append_right _ List.mem_cons_self
  obtain ⟨hbid, hask⟩ := hfits.reports event hmem
  refine or_congr_right (and_congr_right fun _ => ?_)
  rw [passes_iff_best (hchanges event hmem) hbid hask hbidIdx haskIdx huncrossed, hfits.best]
  dsimp only
  constructor
  · exact fun hbest => Or.inr hbest
  · rintro (hlast | hbest)
    · -- the last change gives the final book
      rw [hlast] at hsplit
      rw [← hsplit]
      exact hfits.best
    · exact hbest

end AlphaMonitor.Shard
