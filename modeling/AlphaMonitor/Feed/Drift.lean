import AlphaMonitor.Feed.Messages
import AlphaMonitor.Shard.Metrics
import AlphaMonitor.Shard.Quotes

/-!
# Drift between fetched order books and the shard's book

A shard compares a REST snapshot of Opinion with its book before it loads it.  It knows
such a snapshot by the source of its time, `venueRest`.  The snapshotter has no time of
the venue and marks every order book it fetched as `estimated`, so the comparison is
never made.

## Main results

- `rest_mismatch_logged_iff`: when a snapshot event is logged as a mismatch
- `drift_logged_iff`: a fetched order book is logged rightly just in case it does not differ
-/

namespace AlphaMonitor.Shard

namespace TokenState

variable (st : TokenState) (event : Event)

/-- A resync log of this reason came out of the event. -/
def LogsMismatch : Prop := ∃ log ∈ (st.handleEvent event).log, log.reason = "rest_mismatch"

theorem classify_drifted (q : QuoteState) (second : Option ℤ) :
    q.drifted (classify event second) = q.drifted event := by
  unfold classify
  split <;> rfl

theorem classify_kind (second : Option ℤ) : (classify event second).kind = event.kind := by
  unfold classify
  split <;> rfl

/-- The resync check gives other reasons; a drift that was found stands. -/
theorem resyncAfterSnapshot_mismatch (drift : Option ResyncLog)
    (hreason : ∀ log ∈ drift, log.reason = "rest_mismatch") :
    (∃ log ∈ (st.resyncAfterSnapshot event drift).2, log.reason = "rest_mismatch") ↔
      drift.isSome = true := by
  cases drift with
  | some log =>
    refine iff_of_true ⟨log, ?_, hreason log rfl⟩ rfl
    rfl
  | none =>
    refine iff_of_false ?_ Bool.false_ne_true
    rintro ⟨log, hlog, hmismatch⟩
    unfold resyncAfterSnapshot at hlog
    dsimp only at hlog
    rcases checkResync_spec event st.toQuoteState st.history.lastLocalTopnHash with
      ⟨_, hcheck⟩ | ⟨found, hfound, hcheck⟩
    · rw [hcheck] at hlog
      cases hlog
    · rw [hcheck] at hlog
      cases hlog
      exact resyncReason_ne event st.toQuoteState hfound hmismatch

/-- A snapshot is logged as a mismatch just in case the drift check ran and found one. -/
theorem rest_mismatch_logged_iff (hkind : event.kind = .bookSnapshot) :
    st.LogsMismatch event ↔ st.toQuoteState.drifted event = true := by
  unfold LogsMismatch
  rw [handleEvent_eq]
  dsimp only
  generalize (st.admitEvent event).2 = second
  rw [dispatch, classify_kind, hkind]
  dsimp only
  unfold handleSnapshot
  dsimp only
  rw [resyncAfterSnapshot_mismatch, snapshotDrift_isSome, classify_drifted, countEvent_quote,
    admitEvent_quote]
  intro log hlog
  exact snapshotDrift_reason _ _ hlog

end TokenState

/-- With the source the check looks for, it would find every difference. -/
theorem drifted_of_venueRest {q : QuoteState} (hexact : q.orderbook.Exact) {event : Event}
    {bids asks : List BookLevel} (hvenue : event.venue = .opinion)
    (hsource : event.exchangeTsSource = .venueRest) (hbids : event.payload.bids = some bids)
    (hasks : event.payload.asks = some asks) :
    q.drifted event = true ↔ q.orderbook.metrics.Differs (snapshotMetrics bids asks) := by
  rw [← QuoteState.driftMismatch_iff hexact]
  unfold QuoteState.drifted QuoteState.checkOpinionSnapshotDrift
  rw [decide_eq_true ⟨hvenue, hsource⟩, hbids, hasks, Bool.true_and, Option.bind_some,
    Option.bind_some]
  dsimp only
  by_cases hsame : q.driftMismatch (snapshotMetrics bids asks) = false
  · rw [if_pos hsame, hsame]
    rfl
  · rw [if_neg hsame, Bool.eq_true_of_not_eq_false hsame]
    rfl

end AlphaMonitor.Shard

namespace AlphaMonitor.Feed

open Shard

/-! ## Fetched order books -/

/-- The source of a fetched order book is not the one the check looks for. -/
theorem RestBook.not_drifted (q : QuoteState) (book : RestBook) (arrival : Arrival)
    (tokenKey : String) : q.drifted (book.event arrival tokenKey) = false := by
  unfold QuoteState.drifted
  have hsource : ¬ ((book.event arrival tokenKey).venue = .opinion ∧
      (book.event arrival tokenKey).exchangeTsSource = .venueRest) := by
    rintro ⟨_, hrest⟩
    cases hrest
  rw [decide_eq_false hsource, Bool.false_and]

theorem RestBook.not_logged (st : TokenState) (book : RestBook) (arrival : Arrival)
    (tokenKey : String) : ¬ st.LogsMismatch (book.event arrival tokenKey) := by
  rw [st.rest_mismatch_logged_iff _ rfl, book.not_drifted]
  exact Bool.false_ne_true

/-- A fetched order book is logged as a mismatch just in case it differs from the book,
only if it does not differ: no difference is ever logged. -/
theorem drift_logged_iff (st : TokenState) (book : RestBook) (arrival : Arrival)
    (tokenKey : String) :
    (st.LogsMismatch (book.event arrival tokenKey) ↔
        st.orderbook.metrics.Differs (snapshotMetrics book.bids book.asks)) ↔
      ¬ st.orderbook.metrics.Differs (snapshotMetrics book.bids book.asks) := by
  have hnone := book.not_logged st arrival tokenKey
  constructor
  · intro hiff hdiffers
    exact hnone (hiff.mpr hdiffers)
  · intro hsame
    exact iff_of_false hnone hsame

/-- A token whose first order book has one bid. -/
def loadedToken : TokenState :=
  ((TokenState.new .opinion .yes 1700000000 1700000000000).handleEvent
    (RestBook.event ⟨[⟨1 / 2, 10⟩], [], none⟩ ⟨1700000000000, 0, 60000⟩ "token")).state

/-- The next order book has its bid elsewhere, and nothing is logged. -/
theorem drift_unlogged :
    ¬ ∀ (st : TokenState) (book : RestBook) (arrival : Arrival) (tokenKey : String),
      (st.LogsMismatch (book.event arrival tokenKey) ↔
        st.orderbook.metrics.Differs (snapshotMetrics book.bids book.asks)) := by
  intro hall
  have hiff := hall loadedToken ⟨[⟨2 / 5, 10⟩], [], none⟩ ⟨1700000030000, 0, 60000⟩ "token"
  have hbook : loadedToken.orderbook.bids.best = some 5000 := by decide +kernel
  have hsnap : (snapshotMetrics [⟨2 / 5, 10⟩] []).bestBidIdx = some 4000 := by decide +kernel
  refine RestBook.not_logged _ _ _ _ (hiff.mpr (Or.inl ?_))
  intro hsame
  have hsame' : loadedToken.orderbook.bids.best =
      (snapshotMetrics [⟨2 / 5, 10⟩] []).bestBidIdx := hsame
  rw [hbook, hsnap] at hsame'
  cases hsame'

end AlphaMonitor.Feed
