import AlphaMonitor.Shard.Quotes

/-!
# What reaches the levels

A snapshot always reaches the levels of the book, a level update only if the book has
been loaded and no new snapshot is needed.  Nothing else changes a level.

## Main results

- `afterEvent_grid`: the levels after an event
- `levels_handle_event`, `levels_handle_elsewhere`: the same for a worker
-/

namespace AlphaMonitor.Shard

open Lib (writeAll)

/-- A snapshot replaces the sides that it has. -/
def Grid.load (grid : Grid) (bids asks : Option (List BookLevel)) : Grid
  | (.bid, idx) => bids.elim (grid (.bid, idx)) fun levels => sideSizes levels idx
  | (.ask, idx) => asks.elim (grid (.ask, idx)) fun levels => sideSizes levels idx

theorem Grid.load_none (grid : Grid) : grid.load none none = grid := by
  funext ⟨side, idx⟩
  cases side <;> rfl

theorem Grid.load_some (grid : Grid) (bids asks : List BookLevel) :
    grid.load (some bids) (some asks) = Grid.ofLevels bids asks := by
  funext ⟨side, idx⟩
  cases side <;> rfl

theorem applySnapshot_load (book : DenseBook) (bids asks : Option (List BookLevel))
    (localTsMs : ℤ) :
    (book.applySnapshot bids asks localTsMs).1.grid = book.grid.load bids asks := by
  funext ⟨side, idx⟩
  cases side with
  | bid =>
    cases bids with
    | none => rfl
    | some levels => exact congrFun (BookHalf.load_spec .bid levels).2 idx
  | ask =>
    cases asks with
    | none => rfl
    | some levels => exact congrFun (BookHalf.load_spec .ask levels).2 idx

/-- The levels after an event that reaches them. -/
def levelsAfter (grid : Grid) (event : Event) : Grid :=
  match event.kind with
  | .bookSnapshot => grid.load event.payload.bids event.payload.asks
  | .bookDelta => writeAll grid (levelWritesOf event)
  | _ => grid

namespace QuoteState

variable (q : QuoteState) (event : Event)

/-- The event reaches the levels of the book. -/
def appliesLevels : Bool :=
  match event.kind with
  | .bookSnapshot => event.payload.bids.isSome || event.payload.asks.isSome
  | .bookDelta => q.allows event && !q.resyncNeeded
  | _ => false

theorem judged_orderbook : (q.judged event).orderbook = q.orderbook := by
  unfold judged
  split <;> rfl

theorem keepHash_orderbook : (q.keepHash event).orderbook = q.orderbook := by
  unfold keepHash
  cases event.payload.hash <;> rfl

theorem loadLevels_grid :
    (q.loadLevels event).orderbook.grid =
      q.orderbook.grid.load event.payload.bids event.payload.asks := by
  unfold loadLevels
  split
  · exact applySnapshot_load _ _ _ _
  · rename_i hnone
    rw [not_or, Bool.not_eq_true, Option.isSome_eq_false_iff, Option.isNone_iff_eq_none,
      Bool.not_eq_true, Option.isSome_eq_false_iff, Option.isNone_iff_eq_none] at hnone
    rw [hnone.1, hnone.2, Grid.load_none]

theorem afterSnapshot_grid :
    (q.afterSnapshot event).orderbook.grid =
      q.orderbook.grid.load event.payload.bids event.payload.asks := by
  have hloaded : (q.loaded event).orderbook.grid =
      q.orderbook.grid.load event.payload.bids event.payload.asks := by
    unfold loaded
    rw [keepHash_orderbook]
    refine (loadLevels_grid _ event).trans ?_
    split <;> rfl
  unfold afterSnapshot
  split
  · exact hloaded
  · rw [judged_orderbook, hloaded]

theorem takeLevel_grid (allowed : Bool) :
    (q.takeLevel event allowed).orderbook.grid =
      if allowed = true ∧ q.resyncNeeded = false then
        writeAll q.orderbook.grid (levelWritesOf event)
      else q.orderbook.grid := by
  unfold takeLevel levelWritesOf
  cases event.payload.side with
  | none => exact (ite_self _).symm
  | some side =>
    cases event.payload.price with
    | none => exact (ite_self _).symm
    | some price =>
      cases event.payload.size with
      | none => exact (ite_self _).symm
      | some size =>
        simp only
        split
        · exact applyDelta_grid _ side price size _
        · rfl

theorem afterDelta_grid :
    (q.afterDelta event).orderbook.grid =
      if q.allows event = true ∧ q.resyncNeeded = false then
        writeAll q.orderbook.grid (levelWritesOf event)
      else q.orderbook.grid := by
  have hupdated : (q.updated event).orderbook.grid =
      if q.allows event = true ∧ q.resyncNeeded = false then
        writeAll q.orderbook.grid (levelWritesOf event)
      else q.orderbook.grid := by
    unfold updated
    rw [keepHash_orderbook]
    exact takeLevel_grid _ event _
  unfold afterDelta
  split
  · rw [judged_orderbook, hupdated]
  · exact hupdated

/-- The levels after an event. -/
theorem afterEvent_grid :
    (q.afterEvent event).orderbook.grid =
      if q.appliesLevels event then levelsAfter q.orderbook.grid event else q.orderbook.grid := by
  unfold afterEvent appliesLevels levelsAfter
  cases event.kind with
  | bookSnapshot =>
    simp only
    rw [afterSnapshot_grid]
    split
    · rfl
    · rename_i hnone
      rw [Bool.or_eq_true, not_or, Bool.not_eq_true, Option.isSome_eq_false_iff,
        Option.isNone_iff_eq_none, Bool.not_eq_true, Option.isSome_eq_false_iff,
        Option.isNone_iff_eq_none] at hnone
      rw [hnone.1, hnone.2, Grid.load_none]
  | bookDelta =>
    simp only [afterDelta_grid, Bool.and_eq_true, Bool.not_eq_true']
  | trade =>
    unfold keepPrice
    cases event.payload.price <;> rfl
  | lastPrice =>
    unfold keepPrice
    cases event.payload.price <;> rfl
  | tickSizeChange =>
    simp only
    cases event.payload.tickSize <;> rfl
  | health => rfl

/-- Whether an event reaches the levels does not depend on how it was marked. -/
theorem appliesLevels_flags (flags : EventFlags) :
    q.appliesLevels { event with flags := flags } = q.appliesLevels event := rfl

end QuoteState

theorem levelsAfter_flags (grid : Grid) (event : Event) (flags : EventFlags) :
    levelsAfter grid { event with flags := flags } = levelsAfter grid event := rfl

/-- The levels after a token has handled an event. -/
theorem TokenState.handleEvent_grid (st : TokenState) (event : Event) :
    (st.handleEvent event).state.orderbook.grid =
      if st.toQuoteState.appliesLevels event then levelsAfter st.orderbook.grid event
      else st.orderbook.grid := by
  obtain ⟨hfields, -⟩ := st.handleEvent_event event
  rw [st.handleEvent_quote event, QuoteState.afterEvent_grid, hfields,
    QuoteState.appliesLevels_flags, levelsAfter_flags]

/-! ## A worker -/

namespace ShardWorker

variable (env : ShardEnv) (worker : ShardWorker) (tokenKey : String)

/-- The levels of the token's book, once there is one. -/
def levels : Option Grid := (worker.state tokenKey).map (·.orderbook.grid)

/-- The quote that an event of the token finds. -/
def quoteFor (event : Event) : QuoteState :=
  ((worker.track tokenKey).stateFor env tokenKey event).toQuoteState

theorem quoteFor_of_state {st : TokenState} (h : worker.state tokenKey = some st)
    (event : Event) : worker.quoteFor env tokenKey event = st.toQuoteState := by
  unfold quoteFor
  rw [(worker.track tokenKey).stateFor_some env tokenKey event h]

/-- An event of the token. -/
theorem levels_handle_event {event : Event} (hkey : event.tokenKey = tokenKey)
    (hnodup : worker.dirtyTokens.Nodup) :
    (worker.handle env (.event event)).levels tokenKey =
      some (if (worker.quoteFor env tokenKey event).appliesLevels event then
        levelsAfter (worker.quoteFor env tokenKey event).orderbook.grid event
      else (worker.quoteFor env tokenKey event).orderbook.grid) := by
  have htrack := worker.track_handle env (.event event) tokenKey hnodup
  obtain ⟨sent, hsent, hsame⟩ :=
    (worker.track tokenKey).takeEvent_quote worker.config env tokenKey event
  have hstate : (worker.handle env (.event event)).state tokenKey = some sent := by
    have hhandle : ((worker.handle env (.event event)).track tokenKey).state = some sent := by
      rw [htrack]
      simp only [TokenTrack.handle, if_pos hkey]
      exact hsent
    exact hhandle
  obtain ⟨hfields, _⟩ :=
    ((worker.track tokenKey).stateFor env tokenKey event).handleEvent_event event
  unfold levels
  rw [hstate, Option.map_some, hsame.grid, QuoteState.afterEvent_grid, hfields,
    QuoteState.appliesLevels_flags, levelsAfter_flags]
  rfl

/-- A message that is no snapshot and no level update of the token. -/
theorem levels_handle_elsewhere {message : ShardMessage} (hnodup : worker.dirtyTokens.Nodup)
    (hmessage : ∀ event, message = .event event → event.tokenKey = tokenKey →
      event.kind ≠ .bookSnapshot ∧ event.kind ≠ .bookDelta)
    (hknown : (worker.levels tokenKey).isSome = true) :
    (worker.handle env message).levels tokenKey = worker.levels tokenKey := by
  obtain ⟨grid, hgrid⟩ := Option.isSome_iff_exists.mp hknown
  obtain ⟨st, hst, _⟩ := Option.map_eq_some_iff.mp hgrid
  have htrack := worker.track_handle env message tokenKey hnodup
  have hafter : (worker.handle env message).levels tokenKey =
      (((worker.track tokenKey).handle worker.config env tokenKey message).state).map
        (·.orderbook.grid) := by
    rw [← htrack]
    rfl
  have hbefore : worker.levels tokenKey = some st.orderbook.grid := by
    unfold levels
    rw [hst, Option.map_some]
  have hstate : (worker.track tokenKey).state = some st := hst
  cases message with
  | event event =>
    by_cases hkey : event.tokenKey = tokenKey
    · obtain ⟨hsnapshot, hdelta⟩ := hmessage event rfl hkey
      have happlies : (worker.quoteFor env tokenKey event).appliesLevels event = false := by
        unfold QuoteState.appliesLevels
        cases hkind : event.kind with
        | bookSnapshot => exact absurd hkind hsnapshot
        | bookDelta => exact absurd hkind hdelta
        | trade => rfl
        | lastPrice => rfl
        | tickSizeChange => rfl
        | health => rfl
      rw [worker.levels_handle_event env tokenKey hkey hnodup, happlies,
        worker.quoteFor_of_state env tokenKey hst, hbefore]
      rfl
    · rw [hafter, hbefore]
      simp only [TokenTrack.handle, if_neg hkey, hstate, Option.map_some]
  | tick barSecond =>
    rw [hafter, hbefore]
    simp only [TokenTrack.handle]
    split
    · obtain ⟨sent, hsent, hsame⟩ :=
        (worker.track tokenKey).takeTick_quote worker.config env tokenKey hst barSecond
      rw [hsent, Option.map_some, hsame.grid]
    · rw [hstate, Option.map_some]

end ShardWorker

end AlphaMonitor.Shard
