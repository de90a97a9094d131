import AlphaMonitor.Shard.Quotes

/-!
# Snapshots and synchronisation

A book that has lost touch with the venue is loaded anew from a snapshot, and then
takes level updates again.  The snapshot itself goes through the resync check,
though, and the check asks for another one whenever the venue's hash is not the
hash that the program computes, or the snapshot is late.

## Main results

- `synced_of_runMeets`: a synchronised book takes every good level update
- `restored_iff`: when a snapshot restores synchronisation
-/

namespace AlphaMonitor.Shard

open Lib (writeAll)

/-! ## Snapshots -/

/-- A snapshot with two sides that do not cross. -/
structure IsSnapshot (event : Event) (bids asks : List BookLevel) : Prop where
  kind : event.kind = .bookSnapshot
  bidLevels : event.payload.bids = some bids
  askLevels : event.payload.asks = some asks
  hasBid : ∃ idx, 0 < sideSizes bids idx
  hasAsk : ∃ idx, 0 < sideSizes asks idx
  uncrossed : ∀ bid ask, 0 < sideSizes bids bid → 0 < sideSizes asks ask → bid < ask

/-- The hash that the program computes for the levels of a snapshot. -/
def snapshotHash (bids asks : List BookLevel) : Option String :=
  (DenseBook.empty.applySnapshot (some bids) (some asks) 0).1.topnHash 20

theorem idxToPrice_lt {bid ask : ℕ} (h : bid < ask) : idxToPrice bid < idxToPrice ask := by
  have hcast : (bid : ℚ) < ask := by exact_mod_cast h
  unfold idxToPrice priceScale
  linarith

section

variable {event : Event} {bids asks : List BookLevel} (book : DenseBook) (localTsMs : ℤ)

/-- A loaded book is not crossed if its snapshot is not. -/
theorem IsSnapshot.not_crossed (h : IsSnapshot event bids asks) (q : QuoteState)
    (hbook : q.orderbook = (book.applySnapshot (some bids) (some asks) localTsMs).1) :
    q.isCrossed = false := by
  obtain ⟨hbid, hbidSizes⟩ := BookHalf.load_spec .bid bids
  obtain ⟨hask, haskSizes⟩ := BookHalf.load_spec .ask asks
  have hbids : q.orderbook.bids = (BookHalf.load .bid bids).1 := by rw [hbook]; rfl
  have hasks : q.orderbook.asks = (BookHalf.load .ask asks).1 := by rw [hbook]; rfl
  unfold QuoteState.isCrossed DenseBook.bestBidAsk
  rw [hbids, hasks]
  cases hbestBid : (BookHalf.load .bid bids).1.best with
  | none => rfl
  | some bid =>
    cases hbestAsk : (BookHalf.load .ask asks).1.best with
    | none => rfl
    | some ask =>
      -- both sides are non-empty, so the two best levels are levels of the snapshot
      have hbidPos := hbid.pos bid hbestBid
      have haskPos := hask.pos ask hbestAsk
      rw [hbidSizes] at hbidPos
      rw [haskSizes] at haskPos
      have hlt := idxToPrice_lt (h.uncrossed bid ask hbidPos haskPos)
      simp only [Option.map_some]
      exact decide_eq_false (not_le.mpr hlt)

/-- A two-sided book has a hash, and it is that of the snapshot. -/
theorem IsSnapshot.topnHash (h : IsSnapshot event bids asks) (q : QuoteState)
    (hbook : q.orderbook = (book.applySnapshot (some bids) (some asks) localTsMs).1) :
    ∃ hash, snapshotHash bids asks = some hash ∧ q.orderbook.topnHash 20 = some hash := by
  have hsame : q.orderbook.topnHash 20 = snapshotHash bids asks := by
    rw [hbook]
    rfl
  obtain ⟨hbid, hbidSizes⟩ := BookHalf.load_spec .bid bids
  obtain ⟨idx, hpos⟩ := h.hasBid
  have hsome : (BookHalf.load .bid bids).1.best.isSome = true := by
    -- a half without a best level is empty everywhere, but `h.hasBid` gives it a size
    by_contra hnone
    rw [Option.not_isSome_iff_eq_none] at hnone
    have hzero := hbid.none_of hnone idx
    rw [hbidSizes] at hzero
    omega
  have hcount := hbid.counted hsome
  have hlevels : (DenseBook.empty.applySnapshot (some bids) (some asks) 0).1.levelsLen ≠ 0 := by
    show (BookHalf.load .bid bids).1.nonzero + (BookHalf.load .ask asks).1.nonzero ≠ 0
    omega
  have hhash : snapshotHash bids asks = some (hashText
      ((DenseBook.empty.applySnapshot (some bids) (some asks) 0).1.topLevels .bid 20)
      ((DenseBook.empty.applySnapshot (some bids) (some asks) 0).1.topLevels .ask 20)) := by
    unfold snapshotHash DenseBook.topnHash
    rw [if_neg hlevels]
  exact ⟨_, hhash, hsame.trans hhash⟩

end

/-! ## Level updates -/

/-- The book after the level update of an event. -/
def DenseBook.afterUpdate (book : DenseBook) (event : Event) : DenseBook :=
  match event.payload.side, event.payload.price, event.payload.size with
  | some side, some price, some size => (book.applyDelta side price size event.localTsMs).1
  | _, _, _ => book

theorem afterUpdate_grid (book : DenseBook) (event : Event) :
    (book.afterUpdate event).grid = writeAll book.grid (levelWritesOf event) := by
  unfold DenseBook.afterUpdate levelWritesOf
  cases event.payload.side with
  | none => rfl
  | some side =>
    cases event.payload.price with
    | none => rfl
    | some price =>
      cases event.payload.size with
      | none => rfl
      | some size => exact applyDelta_grid book side price size event.localTsMs

/-- The event is not late and not marked as out of order by the feed. -/
structure InOrder (st : TokenState) (event : Event) : Prop where
  flag : event.flags.outOfOrder = false
  notLate : 0 < st.watermarkSecond → st.lastFlushedSecond < event.barSecond

/-- A level update in order that keeps the book uncrossed and agrees with the best prices
that the venue reports. -/
structure GoodUpdate (st : TokenState) (event : Event) : Prop where
  inOrder : InOrder st event
  uncrossed : { st.toQuoteState with
    orderbook := st.orderbook.afterUpdate event }.isCrossed = false
  agrees : { st.toQuoteState with
    orderbook := st.orderbook.afterUpdate event }.reportedBboMismatch event = false

/-- What an event is handed on as: it is marked where it is late. -/
theorem outOfOrder_handleEvent (st : TokenState) (event : Event) :
    (st.handleEvent event).event.flags.outOfOrder = false ↔ InOrder st event := by
  have hclock : (st.admitEvent event).2 = none ↔
      0 < st.watermarkSecond ∧ event.barSecond ≤ st.lastFlushedSecond := by
    -- before the first event the watermark is zero, and nothing can be late
    by_cases hclock : 0 < st.watermarkSecond
    · rw [(st.admitEvent_windows event hclock).2]
      by_cases hlate : event.barSecond ≤ st.lastFlushedSecond
      · simp [hlate, hclock]
      · simp [hlate]
    · have hidle := not_lt.mp hclock
      unfold TokenState.admitEvent
      simp only [if_pos hidle]
      rw [if_neg (by omega)]
      simp [hclock]
  have hevent : (st.handleEvent event).event = TokenState.classify event (st.admitEvent event).2 := rfl
  rw [hevent]
  unfold TokenState.classify
  split
  · rename_i hnone
    obtain ⟨hpos, hlate⟩ := hclock.mp hnone
    constructor
    · intro hflag
      cases hflag
    · intro horder
      exact absurd hlate (not_le.mpr (horder.notLate hpos))
  · rename_i hsome
    constructor
    · intro hflag
      refine ⟨hflag, fun hpos => ?_⟩
      by_contra hlate
      exact hsome (hclock.mpr ⟨hpos, not_lt.mp hlate⟩)
    · exact fun horder => horder.flag

/-! ## A synchronised book -/

/-- The token's book is synchronised and holds the given sizes. -/
structure InSync (grid : Grid) (q : QuoteState) : Prop where
  resyncNeeded : q.resyncNeeded = false
  initialized : q.bookInitialized = true
  grid : q.orderbook.grid = grid

theorem InSync.sameBook {grid : Grid} {q q' : QuoteState} (h : InSync grid q)
    (hsame : SameBook q q') : InSync grid q' :=
  ⟨hsame.resyncNeeded.trans h.resyncNeeded, hsame.initialized.trans h.initialized,
    hsame.grid.trans h.grid⟩

theorem keepHash_frame (q : QuoteState) (event : Event) :
    (q.keepHash event).orderbook = q.orderbook ∧
      (q.keepHash event).bookInitialized = q.bookInitialized ∧
      (q.keepHash event).lastResyncBarSecond = q.lastResyncBarSecond ∧
      (q.keepHash event).resyncNeeded = q.resyncNeeded := by
  unfold QuoteState.keepHash
  cases event.payload.hash <;> exact ⟨rfl, rfl, rfl, rfl⟩

/-- The resync check of a level update, as a verdict on quote and event. -/
theorem resyncReason_eq_none_iff {q : QuoteState} {event : Event} (hkind : event.kind = .bookDelta) :
    q.resyncReason event event.barSecond = none ↔
      q.lastResyncBarSecond = some event.barSecond ∨
        event.flags.outOfOrder = false ∧ q.isCrossed = false ∧
          q.reportedBboMismatch event = false := by
  have hhash : q.hashMismatch event = false := by
    unfold QuoteState.hashMismatch
    rw [hkind]
    rfl
  unfold QuoteState.resyncReason
  by_cases hlast : q.lastResyncBarSecond = some event.barSecond
  · rw [if_pos hlast]
    -- a resync was noted in this second already: no other one is asked for
    exact iff_of_true rfl (Or.inl hlast)
  · rw [if_neg hlast, hhash]
    cases event.flags.outOfOrder <;> cases q.isCrossed <;> cases q.reportedBboMismatch event <;>
      simp [hlast]

/-- The resync check has nothing against a good level update. -/
theorem resyncReason_of_good {q : QuoteState} {event : Event} (hkind : event.kind = .bookDelta)
    (horder : event.flags.outOfOrder = false) (hcrossed : q.isCrossed = false)
    (hagrees : q.reportedBboMismatch event = false) :
    q.resyncReason event event.barSecond = none :=
  (resyncReason_eq_none_iff hkind).mpr (Or.inr ⟨horder, hcrossed, hagrees⟩)

theorem isCrossed_congr {q q' : QuoteState}
    (h : q.orderbook.bestBidAsk = q'.orderbook.bestBidAsk) : q.isCrossed = q'.isCrossed := by
  unfold QuoteState.isCrossed
  rw [h]

theorem reportedBboMismatch_congr {q q' : QuoteState}
    (h : q.orderbook.bestBidAsk = q'.orderbook.bestBidAsk) (event : Event) :
    q.reportedBboMismatch event = q'.reportedBboMismatch event := by
  unfold QuoteState.reportedBboMismatch QuoteState.bboMismatch
  rw [h]

/-- What a level update changes before the resync check, where it may reach the levels. -/
theorem updated_of_allowed {q : QuoteState} {event : Event} (hallows : q.allows event = true)
    (hresync : q.resyncNeeded = false) :
    (q.updated event).orderbook = q.orderbook.afterUpdate event ∧
      (q.updated event).bookInitialized = q.bookInitialized ∧
      (q.updated event).resyncNeeded = false ∧
      (q.updated event).lastResyncBarSecond = q.lastResyncBarSecond := by
  obtain ⟨hbook, hinit, hlast, hneeded⟩ := keepHash_frame
    ((q.updateBbo event.payload.bestBid event.payload.bestAsk).takeLevel event (q.allows event))
    event
  unfold QuoteState.updated
  rw [hbook, hinit, hneeded, hlast, hallows]
  unfold QuoteState.takeLevel DenseBook.afterUpdate
  cases event.payload.side with
  | none => exact ⟨rfl, rfl, hresync, rfl⟩
  | some side =>
    cases event.payload.price with
    | none => exact ⟨rfl, rfl, hresync, rfl⟩
    | some price =>
      cases event.payload.size with
      | none => exact ⟨rfl, rfl, hresync, rfl⟩
      | some size =>
        have happly : True ∧ (q.updateBbo event.payload.bestBid
            event.payload.bestAsk).resyncNeeded = false := ⟨trivial, hresync⟩
        simp only
        rw [if_pos happly]
        exact ⟨rfl, rfl, hresync, rfl⟩

theorem InSync.allows {grid : Grid} {q : QuoteState} (h : InSync grid q) (event : Event) :
    q.allows event = true := by
  unfold QuoteState.allows
  rw [h.initialized]
  simp

/-- A good level update is applied and asks for nothing. -/
theorem InSync.afterDelta {grid : Grid} {st : TokenState} (h : InSync grid st.toQuoteState)
    {event : Event} (hkind : event.kind = .bookDelta) (hgood : GoodUpdate st event)
    {handled : Event} (hfields : handled = { event with flags := handled.flags })
    (hflag : handled.flags.outOfOrder = false) :
    InSync (writeAll grid (levelWritesOf event)) (st.toQuoteState.afterEvent handled) := by
  have hkind' : handled.kind = .bookDelta := by rw [hfields]; exact hkind
  -- a synchronised book lets the update through to its levels
  obtain ⟨hbook, hinit, hresync, _⟩ := updated_of_allowed (h.allows handled) h.resyncNeeded
  have hsame : st.orderbook.afterUpdate handled = st.orderbook.afterUpdate event := by
    rw [hfields]
    rfl
  rw [hsame] at hbook
  have hcrossed : (st.toQuoteState.updated handled).isCrossed = false := by
    rw [← hgood.uncrossed]
    exact isCrossed_congr (congrArg DenseBook.bestBidAsk hbook)
  have hagrees : (st.toQuoteState.updated handled).reportedBboMismatch handled = false := by
    have hmismatch := hgood.agrees
    -- the flags are all that handling changes, and no verdict on prices reads them
    rw [hfields]
    rw [← hmismatch]
    exact reportedBboMismatch_congr
      (congrArg DenseBook.bestBidAsk (by rw [← hfields]; exact hbook)) event
  have hreason := resyncReason_of_good hkind' hflag hcrossed hagrees
  have hafter : st.toQuoteState.afterEvent handled = st.toQuoteState.updated handled := by
    unfold QuoteState.afterEvent QuoteState.afterDelta QuoteState.judged
    rw [hkind', hreason]
    simp
  rw [hafter]
  refine ⟨hresync, hinit.trans h.initialized, ?_⟩
  rw [hbook, afterUpdate_grid, h.grid]

/-- An event that is neither snapshot nor level update leaves the book alone. -/
theorem InSync.afterOther {grid : Grid} {q : QuoteState} (h : InSync grid q) {event : Event}
    (hsnapshot : event.kind ≠ .bookSnapshot) (hdelta : event.kind ≠ .bookDelta) :
    InSync grid (q.afterEvent event) := by
  have hprice : InSync grid (q.keepPrice event) := by
    unfold QuoteState.keepPrice
    cases event.payload.price <;> exact ⟨h.resyncNeeded, h.initialized, h.grid⟩
  unfold QuoteState.afterEvent
  cases hkind : event.kind with
  | bookSnapshot => exact absurd hkind hsnapshot
  | bookDelta => exact absurd hkind hdelta
  | trade => exact hprice
  | lastPrice => exact hprice
  | tickSizeChange =>
    simp only
    cases event.payload.tickSize <;> exact ⟨h.resyncNeeded, h.initialized, h.grid⟩
  | health => exact h

/-! ### Runs -/

/-- The messages after a snapshot: no other snapshot, and good level updates only. -/
def FollowsVenue (tokenKey : String) (worker : ShardWorker) (e : ShardEnv × ShardMessage) : Prop :=
  ∀ st ∈ worker.state tokenKey, ∀ event, e.2 = .event event → event.tokenKey = tokenKey →
    event.kind ≠ .bookSnapshot ∧ (event.kind = .bookDelta → GoodUpdate st event)

/-- What a message writes to the token's book, if it is applied. -/
def messageWrites (tokenKey : String) : ShardMessage → List LevelWrite
  | .event event =>
    if event.tokenKey = tokenKey ∧ event.kind = .bookDelta then levelWritesOf event else []
  | .tick _ => []

/-- The writes of the level updates of a token, in order. -/
def updatesOf (tokenKey : String) (es : List (ShardEnv × ShardMessage)) : List LevelWrite :=
  es.flatMap fun e => messageWrites tokenKey e.2

variable {cfg : ShardConfig} {tokenKey : String}

theorem updatesOf_append_singleton (es : List (ShardEnv × ShardMessage))
    (e : ShardEnv × ShardMessage) :
    updatesOf tokenKey (es ++ [e]) = updatesOf tokenKey es ++ messageWrites tokenKey e.2 := by
  simp [updatesOf]

/-- The token's book is synchronised in the track. -/
def TokenTrack.Synced (grid : Grid) (track : TokenTrack) : Prop :=
  ∃ st, track.state = some st ∧ InSync grid st.toQuoteState

/-- One message. -/
theorem TokenTrack.Synced.handle {grid : Grid} {track : TokenTrack} (h : track.Synced grid)
    {env : ShardEnv} {message : ShardMessage}
    (hgood : ∀ st ∈ track.state, ∀ event, message = .event event → event.tokenKey = tokenKey →
      event.kind ≠ .bookSnapshot ∧ (event.kind = .bookDelta → GoodUpdate st event)) :
    (track.handle cfg env tokenKey message).Synced
      (writeAll grid (messageWrites tokenKey message)) := by
  obtain ⟨st, hstate, hsync⟩ := h
  cases message with
  | event event =>
    by_cases hkey : event.tokenKey = tokenKey
    · obtain ⟨hsnapshot, hupdate⟩ := hgood st hstate event rfl hkey
      obtain ⟨sent, hsent, hsame⟩ := track.takeEvent_quote cfg env tokenKey event
      have hfor := track.stateFor_some env tokenKey event hstate
      obtain ⟨hfields, _⟩ := st.handleEvent_event event
      have hkind : (st.handleEvent event).event.kind = event.kind := by rw [hfields]
      rw [hfor] at hsame
      simp only [TokenTrack.handle, if_pos hkey]
      refine ⟨sent, hsent, InSync.sameBook ?_ hsame⟩
      by_cases hdelta : event.kind = .bookDelta
      · have hwrites : messageWrites tokenKey (.event event) = levelWritesOf event := by
          simp only [messageWrites, hkey, hdelta, and_self, if_true]
        rw [hwrites]
        have hgood' := hupdate hdelta
        exact hsync.afterDelta hdelta hgood' hfields
          ((outOfOrder_handleEvent st event).mpr hgood'.inOrder)
      · have hwrites : messageWrites tokenKey (.event event) = [] := by
          simp only [messageWrites, hdelta, and_false, if_false]
        rw [hwrites]
        apply hsync.afterOther
        · rw [hkind]
          exact hsnapshot
        · rw [hkind]
          exact hdelta
    · have hwrites : messageWrites tokenKey (.event event) = [] := by
        simp only [messageWrites, hkey, false_and, if_false]
      simp only [TokenTrack.handle, if_neg hkey, hwrites]
      exact ⟨st, hstate, hsync⟩
  | tick barSecond =>
    simp only [TokenTrack.handle, messageWrites, Lib.writeAll_nil]
    split
    · obtain ⟨sent, hsent, hsame⟩ := track.takeTick_quote cfg env tokenKey hstate barSecond
      exact ⟨sent, hsent, hsync.sameBook hsame⟩
    · exact ⟨st, hstate, hsync⟩

/-- A synchronised book takes every good level update that follows. -/
theorem synced_of_runMeets {grid : Grid} {worker final : ShardWorker}
    (hnodup : worker.dirtyTokens.Nodup) (h : (worker.track tokenKey).Synced grid)
    {es : List (ShardEnv × ShardMessage)} (hrun : (shardMachine cfg).run worker es = some final)
    (hmeets : (shardMachine cfg).RunMeets (FollowsVenue tokenKey) worker es) :
    (final.track tokenKey).Synced (writeAll grid (updatesOf tokenKey es)) := by
  have hall := @Lib.Machine.hist_of_runMeets _ _ (shardMachine cfg)
    (fun hist w => w.dirtyTokens.Nodup ∧
      (w.track tokenKey).Synced (writeAll grid (updatesOf tokenKey hist)))
    (FollowsVenue tokenKey) ?_ [] es worker final ⟨hnodup, h⟩ hmeets hrun
  · exact hall.2
  · -- one message: `InSync` is carried by the good updates, the rest leaves the book alone
    rintro hist w ⟨env, message⟩ w' ⟨hnodup, hsynced⟩ hgood hstep
    cases hstep
    refine ⟨(w.handle_frame env message hnodup).2, ?_⟩
    rw [w.track_handle env message tokenKey hnodup, updatesOf_append_singleton,
      Lib.writeAll_append]
    exact hsynced.handle hgood

/-! ## Recovery -/

/-- The token is synchronised with the snapshot, and stays so through all good updates. -/
def Restored (cfg : ShardConfig) (tokenKey : String) (bids asks : List BookLevel)
    (worker : ShardWorker) : Prop :=
  ∃ st, worker.state tokenKey = some st ∧ st.resyncNeeded = false ∧
    st.orderbook.grid = Grid.ofLevels bids asks ∧
    ∀ (es : List (ShardEnv × ShardMessage)) (final : ShardWorker),
      (shardMachine cfg).run worker es = some final →
      (shardMachine cfg).RunMeets (FollowsVenue tokenKey) worker es →
      ∃ st', final.state tokenKey = some st' ∧ st'.resyncNeeded = false ∧
        st'.orderbook.grid = writeAll (Grid.ofLevels bids asks) (updatesOf tokenKey es)

/-- The snapshot asks for no other one: a REST snapshot differs from the book that there was, a
resync was noted in its second already, or it is in order and its hash, if it has one, is the
one that the program computes. -/
def Settles (st : TokenState) (event : Event) (bids asks : List BookLevel) : Prop :=
  (event.venue = .opinion ∧ event.exchangeTsSource = .venueRest ∧
      st.driftMismatch (snapshotMetrics bids asks) = true) ∨
    st.lastResyncBarSecond = some event.barSecond ∨
    (InOrder st event ∧ ∀ hash ∈ event.payload.hash, snapshotHash bids asks = some hash)

section

variable {event : Event} {bids asks : List BookLevel}

theorem IsSnapshot.drifted_iff (h : IsSnapshot event bids asks) (q : QuoteState) {handled : Event}
    (hfields : handled = { event with flags := handled.flags }) :
    q.drifted handled = true ↔ event.venue = .opinion ∧ event.exchangeTsSource = .venueRest ∧
      q.driftMismatch (snapshotMetrics bids asks) = true := by
  rw [hfields]
  unfold QuoteState.drifted QuoteState.checkOpinionSnapshotDrift
  simp only [h.bidLevels, h.askLevels, Option.bind_some, Bool.and_eq_true, decide_eq_true_eq,
    and_assoc]
  cases q.driftMismatch (snapshotMetrics bids asks) <;> simp

/-- What a snapshot leaves, before the resync check. -/
theorem IsSnapshot.loaded (h : IsSnapshot event bids asks) (q : QuoteState) {handled : Event}
    (hfields : handled = { event with flags := handled.flags }) :
    (q.loaded handled).orderbook =
        (q.orderbook.applySnapshot (some bids) (some asks) event.localTsMs).1 ∧
      (q.loaded handled).bookInitialized = true ∧ (q.loaded handled).resyncNeeded = false ∧
      (q.drifted handled = false →
        (q.loaded handled).lastResyncBarSecond = q.lastResyncBarSecond) := by
  have hbids : handled.payload.bids = some bids := by rw [hfields]; exact h.bidLevels
  have hasks : handled.payload.asks = some asks := by rw [hfields]; exact h.askLevels
  have hlocal : handled.localTsMs = event.localTsMs := by rw [hfields]
  unfold QuoteState.loaded
  set start := if q.drifted handled = true then q.markResync handled.barSecond else q with hstart
  -- the drift check notes the second of a resync but does not touch the levels
  have hbook : start.orderbook = q.orderbook := by
    rw [hstart]
    split <;> rfl
  obtain ⟨hbook', hinit, hlast, hresync⟩ := keepHash_frame
    { start.loadLevels handled with resyncNeeded := false } handled
  rw [hbook', hinit, hlast, hresync]
  have hsome : handled.payload.bids.isSome = true ∨ handled.payload.asks.isSome = true := by
    rw [hbids]
    exact Or.inl rfl
  unfold QuoteState.loadLevels
  rw [if_pos hsome]
  refine ⟨?_, rfl, rfl, ?_⟩
  · simp only [QuoteState.updateBbo, hbook, hbids, hasks, hlocal]
  · intro hdrift
    have hsame : start = q := by
      rw [hstart, hdrift]
      rfl
    rw [hsame]
    rfl

/-- The resync check of a snapshot that is two-sided and not crossed. -/
theorem IsSnapshot.resyncReason_eq_none (h : IsSnapshot event bids asks) (q : QuoteState)
    {handled : Event} (hfields : handled = { event with flags := handled.flags })
    (hbook : ∃ book : DenseBook, ∃ ts : ℤ,
      q.orderbook = (book.applySnapshot (some bids) (some asks) ts).1) :
    q.resyncReason handled handled.barSecond = none ↔
      q.lastResyncBarSecond = some event.barSecond ∨
        (handled.flags.outOfOrder = false ∧
          ∀ hash ∈ event.payload.hash, snapshotHash bids asks = some hash) := by
  obtain ⟨book, ts, hbook⟩ := hbook
  have hcrossed := h.not_crossed book ts q hbook
  obtain ⟨localHash, hsnapshotHash, hlocalHash⟩ := h.topnHash book ts q hbook
  have hkind : handled.kind = .bookSnapshot := by rw [hfields]; exact h.kind
  have hpayload : handled.payload.hash = event.payload.hash := by rw [hfields]
  have hsecond : handled.barSecond = event.barSecond := by
    rw [hfields]
    rfl
  -- only level updates report best prices to compare with
  have hreported : q.reportedBboMismatch handled = false := by
    unfold QuoteState.reportedBboMismatch
    rw [hkind]
    simp
  have hmismatch : q.hashMismatch handled = false ↔
      ∀ hash ∈ event.payload.hash, snapshotHash bids asks = some hash := by
    unfold QuoteState.hashMismatch
    rw [hkind, hpayload, hlocalHash, hsnapshotHash]
    cases event.payload.hash with
    | none => simp
    | some hash =>
      simp only [decide_true, Bool.true_and, decide_eq_false_iff_not, not_not, ne_eq,
        Option.mem_def, Option.some.injEq, forall_eq']
      exact eq_comm
  unfold QuoteState.resyncReason
  rw [hsecond]
  by_cases hlast : q.lastResyncBarSecond = some event.barSecond
  · simp [hlast]
  · rw [if_neg hlast, ← hmismatch]
    cases handled.flags.outOfOrder <;> cases q.hashMismatch handled <;>
      simp [hlast, hcrossed, hreported]

/-- A snapshot is loaded in any case; whether it restores synchronisation is the check's say. -/
theorem IsSnapshot.afterEvent (h : IsSnapshot event bids asks) (st : TokenState) {handled : Event}
    (hfields : handled = { event with flags := handled.flags })
    (hflag : handled.flags.outOfOrder = false ↔ InOrder st event) :
    (st.toQuoteState.afterEvent handled).orderbook.grid = Grid.ofLevels bids asks ∧
      (st.toQuoteState.afterEvent handled).bookInitialized = true ∧
      ((st.toQuoteState.afterEvent handled).resyncNeeded = false ↔ Settles st event bids asks) := by
  obtain ⟨hbook, hinit, hresync, hlast⟩ := h.loaded st.toQuoteState hfields
  have hdrift := h.drifted_iff st.toQuoteState hfields
  have hkind : handled.kind = .bookSnapshot := by rw [hfields]; exact h.kind
  have hgrid : (st.toQuoteState.loaded handled).orderbook.grid = Grid.ofLevels bids asks := by
    rw [hbook]
    exact applySnapshot_grid _ bids asks _
  unfold QuoteState.afterEvent QuoteState.afterSnapshot
  rw [hkind]
  simp only
  -- a drifted REST snapshot skips the resync check, and so leaves the flag cleared
  by_cases hdrifted : st.toQuoteState.drifted handled = true
  · rw [if_pos hdrifted]
    refine ⟨hgrid, hinit, ?_⟩
    constructor
    · intro _
      exact Or.inl (hdrift.mp hdrifted)
    · intro _
      exact hresync
  · rw [if_neg hdrifted]
    have hreason := h.resyncReason_eq_none (st.toQuoteState.loaded handled) hfields
      ⟨_, _, hbook⟩
    rw [hlast (eq_false_of_ne_true hdrifted), hflag] at hreason
    unfold QuoteState.judged
    by_cases hnone : (st.toQuoteState.loaded handled).resyncReason handled handled.barSecond = none
    · rw [hnone]
      simp only [Option.isSome_none, Bool.false_eq_true, if_false]
      refine ⟨hgrid, hinit, ?_⟩
      constructor
      · intro _
        exact Or.inr (hreason.mp hnone)
      · intro _
        exact hresync
    · -- the check asks for a new snapshot at once, although this one has been loaded
      have hsome := Option.isSome_iff_ne_none.mpr hnone
      rw [if_pos hsome]
      refine ⟨hgrid, hinit, ?_⟩
      constructor
      · intro hfalse
        cases hfalse
      · rintro (hrest | hother)
        · exact absurd (hdrift.mpr hrest) hdrifted
        · exact absurd (hreason.mpr hother) hnone

end

/-- A snapshot restores synchronisation just in case it asks for no other one. -/
theorem restored_iff {worker : ShardWorker} (h : (shardMachine cfg).Reachable worker)
    {event : Event} {bids asks : List BookLevel} (hsnapshot : IsSnapshot event bids asks)
    (env : ShardEnv) :
    Restored cfg event.tokenKey bids asks (worker.handle env (.event event)) ↔
      Settles ((worker.track event.tokenKey).stateFor env event.tokenKey event) event bids asks := by
  obtain ⟨hcfg, hnodup⟩ := worker_of_reachable h
  have htrack := worker.track_handle env (.event event) event.tokenKey hnodup
  set st := (worker.track event.tokenKey).stateFor env event.tokenKey event with hst
  obtain ⟨sent, hsent, hsame⟩ :=
    (worker.track event.tokenKey).takeEvent_quote worker.config env event.tokenKey event
  rw [← hst] at hsame
  obtain ⟨hfields, _⟩ := st.handleEvent_event event
  obtain ⟨hgrid, hinit, hresync⟩ :=
    hsnapshot.afterEvent st hfields (outOfOrder_handleEvent st event)
  have hstate : (worker.handle env (.event event)).state event.tokenKey = some sent := by
    have hhandle : ((worker.handle env (.event event)).track event.tokenKey).state = some sent := by
      rw [htrack]
      simp only [TokenTrack.handle, if_true]
      exact hsent
    exact hhandle
  constructor
  · rintro ⟨st', hst', hneeded, _⟩
    rw [hstate, Option.some.injEq] at hst'
    rw [← hresync, ← hsame.resyncNeeded, hst']
    exact hneeded
  · intro hsettles
    have hsync : InSync (Grid.ofLevels bids asks) sent.toQuoteState :=
      InSync.sameBook ⟨hresync.mpr hsettles, hinit, hgrid⟩ hsame
    refine ⟨sent, hstate, hsync.resyncNeeded, hsync.grid, ?_⟩
    -- what follows is a run of good updates, from a synchronised book
    intro es final hrun hmeets
    obtain ⟨st', hst', hsync'⟩ := synced_of_runMeets
      (worker.handle_frame env (.event event) hnodup).2 ⟨sent, hstate, hsync⟩ hrun hmeets
    exact ⟨st', hst', hsync'.resyncNeeded, hsync'.grid⟩

/-- The small book as the venue's own snapshot of it, with or without a hash. -/
def bookMessage (hash : Option String) : Event :=
  eventAt .polymarket .bookSnapshot { smallBook with hash := hash } 100200

theorem sideSizes_singleton {level : BookLevel} {entry : ℕ × ℕ}
    (h : gridLevel level = some entry) :
    sideSizes [level] = Function.update (fun _ => 0) entry.1 entry.2 := by
  simp [sideSizes, h, Lib.writeAll_cons]

theorem bookMessage_isSnapshot (hash : Option String) :
    IsSnapshot (bookMessage hash) [⟨1 / 2, 10⟩] [⟨13 / 25, 10⟩] := by
  have hbid : gridLevel ⟨1 / 2, 10⟩ = some (5000, 10000000) := by decide +kernel
  have hask : gridLevel ⟨13 / 25, 10⟩ = some (5200, 10000000) := by decide +kernel
  have hbids := sideSizes_singleton hbid
  have hasks := sideSizes_singleton hask
  refine ⟨rfl, rfl, rfl, ⟨5000, ?_⟩, ⟨5200, ?_⟩, ?_⟩
  · rw [hbids]
    simp
  · rw [hasks]
    simp
  · intro bid ask hbidPos haskPos
    rw [hbids] at hbidPos
    rw [hasks] at haskPos
    have hbidAt : bid = 5000 := by
      by_contra hne
      simp [hne] at hbidPos
    have haskAt : ask = 5200 := by
      by_contra hne
      simp [hne] at haskPos
    omega

/-- A snapshot without a hash, to a new token. -/
theorem restored_without_hash :
    Restored exampleConfig "token" [⟨1 / 2, 10⟩] [⟨13 / 25, 10⟩]
      ((ShardWorker.start exampleConfig).handle calmEnv (.event (bookMessage none))) :=
  (restored_iff ⟨ShardWorker.start exampleConfig, [], rfl, rfl⟩ (bookMessage_isSnapshot none)
    calmEnv).mpr (.inr (.inr
      ⟨⟨by decide +kernel, by decide +kernel⟩, fun hash hhash => by cases hhash⟩))

/-- A snapshot with the venue's hash asks for another one as soon as it is loaded. -/
theorem not_restored_with_venue_hash :
    ¬ ∀ (cfg : ShardConfig) (worker : ShardWorker), (shardMachine cfg).Reachable worker →
      ∀ (event : Event) (bids asks : List BookLevel), IsSnapshot event bids asks →
        ∀ env : ShardEnv,
          Restored cfg event.tokenKey bids asks (worker.handle env (.event event)) := by
  intro hall
  have hrestored := hall exampleConfig (ShardWorker.start exampleConfig)
    ⟨ShardWorker.start exampleConfig, [], rfl, rfl⟩
    (bookMessage (some "b2f1d1e0a6")) _ _ (bookMessage_isSnapshot _) calmEnv
  obtain ⟨st, hst, hneeded, _⟩ := hrestored
  have hasked : (((ShardWorker.start exampleConfig).handle calmEnv
      (.event (bookMessage (some "b2f1d1e0a6")))).state "token").map (·.resyncNeeded) =
        some true := by decide +kernel
  rw [show (bookMessage (some "b2f1d1e0a6")).tokenKey = "token" from rfl] at hst
  rw [hst, Option.map_some, hneeded] at hasked
  cases hasked

end AlphaMonitor.Shard
