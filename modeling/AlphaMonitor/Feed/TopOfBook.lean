import AlphaMonitor.Feed.PriceChange

/-!
# Best prices of Polymarket

A `best_bid_ask` message names the best prices without their sizes.  The WebSocket task
remembers what the last such message named, and where a side's price is another one now
it makes two level updates of it: the remembered price loses its level, the new one gets
the least size there is.

## Main definitions

- `parseBestBidAsk`: the events of a message
- `Undistorted`: what they should leave alone in the book

## Main results

- `topOfBook_undistorted_iff`: when they do
-/

namespace AlphaMonitor.Feed

open Shard
open Lib (writeAll)

/-! ## Messages -/

/-- What a `best_bid_ask` message may say. -/
structure BestBidAskMessage where
  assetId : Option String
  tsRaw : Option ℤ
  (bid ask : Option ℚ)
  deriving DecidableEq, Repr

/-- `MIN_TOP_SIZE`. -/
def minTopSize : ℚ := 1 / 1000000

/-- The best bid and ask that were last named for each token. -/
abbrev LastBest := String → Option ℚ × Option ℚ

/-- One of the two prices. -/
def ofSide {α : Type*} (prices : α × α) : BookSide → α
  | .bid => prices.1
  | .ask => prices.2

/-- What the events of a message have in common. -/
structure TopOfBook where
  tokenKey : String
  localTsMs : ℤ
  check : TimestampCheck
  (bestBid bestAsk : Option ℚ)

/-- `push_event`. -/
def TopOfBook.event (top : TopOfBook) (side : BookSide) (price size : ℚ) (deltaType : DeltaType) :
    Event where
  venue := .polymarket
  tokenKey := top.tokenKey
  kind := .bookDelta
  channel := some "best_bid_ask"
  exchangeTsMs := top.check.exchangeTsMs
  localTsMs := top.localTsMs
  exchangeTsSource := top.check.source
  flags := ⟨top.check.tsMissing, top.check.tsAnomaly, top.check.outOfOrder, false⟩
  payload :=
    { EventPayload.empty with
      side := some side
      deltaType := some deltaType
      price := some price
      size := some size
      bestBid := top.bestBid
      bestAsk := top.bestAsk }

/-- The level that the remembered price loses. -/
def TopOfBook.cancels (top : TopOfBook) (side : BookSide) (prev incoming : Option ℚ) : List Event :=
  match incoming, prev with
  -- nothing is cleared where nothing was remembered
  | some price, some old => if old = price then [] else [top.event side old 0 .cancel]
  | _, _ => []

/-- The level that the new price gets. -/
def TopOfBook.adds (top : TopOfBook) (side : BookSide) (prev incoming : Option ℚ) : List Event :=
  match incoming with
  -- the size is not in the message, so the level gets the least one
  | some price => if prev = some price then [] else [top.event side price minTopSize .addOrUpdate]
  | none => []

/-- The events of one side. -/
def TopOfBook.sideEvents (top : TopOfBook) (side : BookSide) (prev incoming : Option ℚ) :
    List Event :=
  top.cancels side prev incoming ++ top.adds side prev incoming

/-- The events of both sides, bids first. -/
def TopOfBook.events (top : TopOfBook) (prev incoming : Option ℚ × Option ℚ) : List Event :=
  top.sideEvents .bid prev.1 incoming.1 ++ top.sideEvents .ask prev.2 incoming.2

/-- What the events of a message of a token have in common. -/
def BestBidAskMessage.top (message : BestBidAskMessage) (tokenKey : String) (localTsMs : ℤ)
    (lastGood : LastGoodTs) (prev : Option ℚ × Option ℚ) : TopOfBook where
  tokenKey := tokenKey
  localTsMs := localTsMs
  check := validateExchangeTs message.tsRaw localTsMs (lastGood tokenKey)
  -- a side that is not named keeps what is remembered
  bestBid := message.bid.or prev.1
  bestAsk := message.ask.or prev.2

/-- `parse_best_bid_ask`. -/
def parseBestBidAsk (assetKey : String → Option String) (message : BestBidAskMessage)
    (localTsMs : ℤ) (lastGood : LastGoodTs) (lastBest : LastBest) :
    List Event × LastGoodTs × LastBest :=
  match message.assetId.bind assetKey with
  | none => ([], lastGood, lastBest)
  | some tokenKey =>
    if message.bid = none ∧ message.ask = none then ([], lastGood, lastBest)
    else
      -- compared with what was remembered before this message
      let prev := lastBest tokenKey
      let top := message.top tokenKey localTsMs lastGood prev
      (top.events prev (message.bid, message.ask),
        if top.check.source = .venueWs then
          Function.update lastGood tokenKey (some top.check.exchangeTsMs)
        else lastGood,
        Function.update lastBest tokenKey (top.bestBid, top.bestAsk))

theorem parseBestBidAsk_events {assetKey : String → Option String} {message : BestBidAskMessage}
    {tokenKey : String} (hkey : message.assetId.bind assetKey = some tokenKey) (localTsMs : ℤ)
    (lastGood : LastGoodTs) (lastBest : LastBest) :
    (parseBestBidAsk assetKey message localTsMs lastGood lastBest).1 =
      (message.top tokenKey localTsMs lastGood (lastBest tokenKey)).events (lastBest tokenKey)
        (message.bid, message.ask) := by
  unfold parseBestBidAsk
  rw [hkey]
  dsimp only
  split
  · rename_i hnone
    rw [hnone.1, hnone.2]
    rfl
  · rfl

/-! ## What the events leave of the book -/

section
variable {cfg : ShardConfig} {tokenKey : String} {st : TokenState} (top : TopOfBook)

/-- The events are level updates of Polymarket. -/
def AreUpdates (events : List Event) : Prop :=
  ∀ event ∈ events, event.venue = .polymarket ∧ event.kind = .bookDelta

theorem areUpdates_append {events events' : List Event} (h : AreUpdates events)
    (h' : AreUpdates events') : AreUpdates (events ++ events') := by
  intro event hmem
  rcases List.mem_append.mp hmem with hmem | hmem
  · exact h event hmem
  · exact h' event hmem

theorem areUpdates_event (side : BookSide) (price size : ℚ) (deltaType : DeltaType) :
    AreUpdates [top.event side price size deltaType] := by
  intro event hmem
  rw [List.mem_singleton.mp hmem]
  exact ⟨rfl, rfl⟩

theorem areUpdates_cancels (side : BookSide) (prev incoming : Option ℚ) :
    AreUpdates (top.cancels side prev incoming) := by
  unfold TopOfBook.cancels
  split
  · split
    · exact fun _ hmem => absurd hmem List.not_mem_nil
    · exact areUpdates_event top _ _ _ _
  · exact fun _ hmem => absurd hmem List.not_mem_nil

theorem areUpdates_adds (side : BookSide) (prev incoming : Option ℚ) :
    AreUpdates (top.adds side prev incoming) := by
  unfold TopOfBook.adds
  split
  · split
    · exact fun _ hmem => absurd hmem List.not_mem_nil
    · exact areUpdates_event top _ _ _ _
  · exact fun _ hmem => absurd hmem List.not_mem_nil

theorem areUpdates_sideEvents (side : BookSide) (prev incoming : Option ℚ) :
    AreUpdates (top.sideEvents side prev incoming) :=
  areUpdates_append (areUpdates_cancels top _ _ _) (areUpdates_adds top _ _ _)

/-- The size of a level after some events. -/
def sizeAfter (cfg : ShardConfig) (tokenKey : String) (st : TokenState) (events : List Event)
    (side : BookSide) (idx : ℕ) : ℕ :=
  (st.handleAll cfg tokenKey events).orderbook.grid (side, idx)

variable {done : List Event}

/-- One level update sets the level at its price, unless the token waits for a snapshot. -/
theorem sizeAfter_event_hit (hsync : st.resyncNeeded = false) (hdone : AreUpdates done)
    {side : BookSide} {price size : ℚ} {deltaType : DeltaType} {idx : ℕ}
    (hidx : priceToIdx price = some idx) (hquiet : st.Undisturbed done) :
    sizeAfter cfg tokenKey st (done ++ [top.event side price size deltaType]) side idx =
      (sizeToInt size).toNat := by
  -- the update writes one level
  have hwrites : levelWritesOf (top.event side price size deltaType) =
      [((side, idx), (sizeToInt size).toNat)] := by
    change levelWrite side price size = _
    unfold levelWrite
    rw [hidx]
    rfl
  unfold sizeAfter
  rw [grid_handleAll_undisturbed hsync (areUpdates_append hdone (areUpdates_event top _ _ _ _))
    hquiet, hwrites, Lib.writeAll_cons, Lib.writeAll_nil, Function.update_self]

theorem sizeAfter_event_miss (hsync : st.resyncNeeded = false) (hdone : AreUpdates done)
    {side other : BookSide} {price size : ℚ} {deltaType : DeltaType} {idx : ℕ}
    (hmiss : ¬ (other = side ∧ priceToIdx price = some idx ∧ st.Undisturbed done)) :
    sizeAfter cfg tokenKey st (done ++ [top.event side price size deltaType]) other idx =
      sizeAfter cfg tokenKey st done other idx := by
  have hevents := areUpdates_append hdone (areUpdates_event top side price size deltaType)
  unfold sizeAfter
  by_cases hquiet : st.Undisturbed done
  · rw [grid_handleAll_undisturbed hsync hevents hquiet]
    -- the price is outside the grid, or of another level
    apply Lib.writeAll_of_notMem
    change (other, idx) ∉ (levelWrite side price size).map Prod.fst
    unfold levelWrite
    cases hidx : priceToIdx price with
    | none => exact List.not_mem_nil
    | some level =>
      intro hmem
      cases List.mem_singleton.mp hmem
      exact hmiss ⟨rfl, hidx, hquiet⟩
  · -- a token that waits for a snapshot drops the update
    rw [grid_handleAll_disturbed hsync hevents hquiet]

/-! ### One side -/

section
variable (st) (done) (side : BookSide) (prev incoming : Option ℚ) (idx : ℕ)

/-- After `done`, the level at the remembered price is cleared for a new price. -/
def ClearsOld : Prop :=
  ∃ price old, incoming = some price ∧ prev = some old ∧ old ≠ price ∧
    priceToIdx old = some idx ∧ st.Undisturbed done

/-- After `done`, the level at the new price gets the least size. -/
def SetsTop : Prop :=
  ∃ price, incoming = some price ∧ prev ≠ some price ∧ priceToIdx price = some idx ∧
    st.Undisturbed (done ++ top.cancels side prev incoming)

end

variable {side : BookSide} {prev incoming : Option ℚ} {idx : ℕ}

theorem sizeAfter_cancels_of_clears (hsync : st.resyncNeeded = false) (hdone : AreUpdates done)
    (h : ClearsOld st done prev incoming idx) :
    sizeAfter cfg tokenKey st (done ++ top.cancels side prev incoming) side idx = 0 := by
  obtain ⟨price, old, rfl, rfl, hne, hidx, hquiet⟩ := h
  -- the remembered price is another one, so it is cleared
  have hcancels : top.cancels side (some old) (some price) = [top.event side old 0 .cancel] :=
    if_neg hne
  -- no size is left
  rw [hcancels, sizeAfter_event_hit top hsync hdone hidx hquiet]
  decide +kernel

theorem sizeAfter_cancels_of_not (hsync : st.resyncNeeded = false) (hdone : AreUpdates done)
    {other : BookSide} (h : other = side → ¬ ClearsOld st done prev incoming idx) :
    sizeAfter cfg tokenKey st (done ++ top.cancels side prev incoming) other idx =
      sizeAfter cfg tokenKey st done other idx := by
  unfold TopOfBook.cancels
  split
  · rename_i price old
    split
    · rw [List.append_nil]
    · rename_i hne
      -- the cancel misses the level, or it would clear it
      apply sizeAfter_event_miss top hsync hdone
      rintro ⟨hside, hidx, hquiet⟩
      exact h hside ⟨price, old, rfl, rfl, hne, hidx, hquiet⟩
  · rw [List.append_nil]

theorem sizeAfter_sideEvents_of_sets (hsync : st.resyncNeeded = false) (hdone : AreUpdates done)
    (h : SetsTop st top done side prev incoming idx) :
    sizeAfter cfg tokenKey st (done ++ top.sideEvents side prev incoming) side idx = 1 := by
  obtain ⟨price, rfl, hne, hidx, hquiet⟩ := h
  have hadds : top.adds side prev (some price) =
      [top.event side price minTopSize .addOrUpdate] := if_neg hne
  unfold TopOfBook.sideEvents
  rw [hadds, ← List.append_assoc, sizeAfter_event_hit top hsync
    -- the least size is one unit of the book
    (areUpdates_append hdone (areUpdates_cancels top _ _ _)) hidx hquiet]
  decide +kernel

theorem sizeAfter_sideEvents_of_not (hsync : st.resyncNeeded = false) (hdone : AreUpdates done)
    {other : BookSide} (h : other = side → ¬ SetsTop st top done side prev incoming idx) :
    sizeAfter cfg tokenKey st (done ++ top.sideEvents side prev incoming) other idx =
      sizeAfter cfg tokenKey st (done ++ top.cancels side prev incoming) other idx := by
  have hcancels := areUpdates_append hdone (areUpdates_cancels top side prev incoming)
  unfold TopOfBook.sideEvents TopOfBook.adds
  split
  · rename_i price
    split
    · rw [List.append_nil]
    · rename_i hne
      rw [← List.append_assoc]
      -- the update misses the level, or it would set it
      apply sizeAfter_event_miss top hsync hcancels
      rintro ⟨hside, hidx, hquiet⟩
      exact h hside ⟨price, rfl, hne, hidx, hquiet⟩
  · rw [List.append_nil]

/-- The events of a side leave the other side alone. -/
theorem sizeAfter_sideEvents_other (hsync : st.resyncNeeded = false) (hdone : AreUpdates done)
    {other : BookSide} (hne : other ≠ side) :
    sizeAfter cfg tokenKey st (done ++ top.sideEvents side prev incoming) other idx =
      sizeAfter cfg tokenKey st done other idx := by
  -- neither of the two events is about the other side
  rw [sizeAfter_sideEvents_of_not top hsync hdone fun h => absurd h hne,
    sizeAfter_cancels_of_not top hsync hdone fun h => absurd h hne]

/-! ### Both sides -/

/-- The events before those of a side. -/
def TopOfBook.before (top : TopOfBook) (prev incoming : Option ℚ × Option ℚ) :
    BookSide → List Event
  | .bid => []
  | .ask => top.sideEvents .bid prev.1 incoming.1

variable {top} {prices named : Option ℚ × Option ℚ}

/-- A level in the end is as the events of its own side leave it. -/
theorem sizeAfter_events (hsync : st.resyncNeeded = false) (side : BookSide) (idx : ℕ) :
    sizeAfter cfg tokenKey st (top.events prices named) side idx =
      sizeAfter cfg tokenKey st (top.before prices named side ++
        top.sideEvents side (ofSide prices side) (ofSide named side)) side idx := by
  cases side with
  | bid =>
    have hne : BookSide.bid ≠ .ask := nofun
    -- what the asks do afterwards leaves a bid alone
    exact sizeAfter_sideEvents_other top hsync (areUpdates_sideEvents top _ _ _) hne
  | ask => rfl

theorem sizeAfter_before (hsync : st.resyncNeeded = false) (side : BookSide) (idx : ℕ) :
    sizeAfter cfg tokenKey st (top.before prices named side) side idx =
      st.orderbook.grid (side, idx) := by
  cases side with
  | bid => rfl
  | ask =>
    have hnone : AreUpdates [] := fun _ hmem => absurd hmem List.not_mem_nil
    have hne : BookSide.ask ≠ .bid := nofun
    -- what the bids did before leaves an ask alone
    exact sizeAfter_sideEvents_other top hsync hnone hne

theorem areUpdates_before (side : BookSide) : AreUpdates (top.before prices named side) := by
  cases side with
  | bid => exact fun _ hmem => absurd hmem List.not_mem_nil
  | ask => exact areUpdates_sideEvents top _ _ _

/-! ### What a message should leave alone -/

/-- A price is strictly better than another. -/
def BetterPrice : BookSide → ℚ → ℚ → Prop
  | .bid, price, best => best < price
  | .ask, price, best => price < best

/-- A side is named with another price than the book's best one. -/
def NamesOther (book : DenseBook) (named : Option ℚ × Option ℚ) : Prop :=
  ∃ side price, ofSide named side = some price ∧ ofSide book.bestBidAsk side ≠ some price

/-- Best prices that are the book's own leave every size alone; others remove no level but
those that are strictly better than them. -/
structure Undistorted (named : Option ℚ × Option ℚ) (book book' : DenseBook) : Prop where
  kept : named = book.bestBidAsk → book'.grid = book.grid
  removed : NamesOther book named → ∀ side idx, 0 < book.grid (side, idx) →
    book'.grid (side, idx) = 0 →
      ∃ price, ofSide named side = some price ∧ BetterPrice side (idxToPrice idx) price

/-- The level that gets the least size has it already, and the level that is cleared is empty,
or strictly better than the new price where that is not the book's best. -/
structure Harmless (st : TokenState) (top : TopOfBook) (prices named : Option ℚ × Option ℚ) :
    Prop where
  sets : named = st.orderbook.bestBidAsk → ∀ side idx,
    SetsTop st top (top.before prices named side) side (ofSide prices side) (ofSide named side)
      idx → st.orderbook.grid (side, idx) = 1
  clears : named = st.orderbook.bestBidAsk → ∀ side idx,
    ClearsOld st (top.before prices named side) (ofSide prices side) (ofSide named side) idx →
      SetsTop st top (top.before prices named side) side (ofSide prices side) (ofSide named side)
        idx ∨ st.orderbook.grid (side, idx) = 0
  clearsOther : NamesOther st.orderbook named → ∀ side idx,
    ClearsOld st (top.before prices named side) (ofSide prices side) (ofSide named side) idx →
      SetsTop st top (top.before prices named side) side (ofSide prices side) (ofSide named side)
        idx ∨ st.orderbook.grid (side, idx) = 0 ∨
          ∃ price, ofSide named side = some price ∧ BetterPrice side (idxToPrice idx) price

section
variable (hsync : st.resyncNeeded = false)
include hsync

theorem grid_of_sets {side : BookSide} {idx : ℕ}
    (h : SetsTop st top (top.before prices named side) side (ofSide prices side)
      (ofSide named side) idx) :
    (st.handleAll cfg tokenKey (top.events prices named)).orderbook.grid (side, idx) = 1 := by
  have hsize := @sizeAfter_events cfg tokenKey st top prices named hsync side idx
  rw [sizeAfter_sideEvents_of_sets top hsync (areUpdates_before side) h] at hsize
  exact hsize

theorem grid_of_clears {side : BookSide} {idx : ℕ}
    (hsets : ¬ SetsTop st top (top.before prices named side) side (ofSide prices side)
      (ofSide named side) idx)
    (h : ClearsOld st (top.before prices named side) (ofSide prices side) (ofSide named side)
      idx) :
    (st.handleAll cfg tokenKey (top.events prices named)).orderbook.grid (side, idx) = 0 := by
  have hsize := @sizeAfter_events cfg tokenKey st top prices named hsync side idx
  -- no size comes after the cancel
  rw [sizeAfter_sideEvents_of_not top hsync (areUpdates_before side) fun _ => hsets,
    sizeAfter_cancels_of_clears top hsync (areUpdates_before side) h] at hsize
  exact hsize

theorem grid_of_neither {side : BookSide} {idx : ℕ}
    (hsets : ¬ SetsTop st top (top.before prices named side) side (ofSide prices side)
      (ofSide named side) idx)
    (hclears : ¬ ClearsOld st (top.before prices named side) (ofSide prices side)
      (ofSide named side) idx) :
    (st.handleAll cfg tokenKey (top.events prices named)).orderbook.grid (side, idx) =
      st.orderbook.grid (side, idx) := by
  have hsize := @sizeAfter_events cfg tokenKey st top prices named hsync side idx
  rw [sizeAfter_sideEvents_of_not top hsync (areUpdates_before side) fun _ => hsets,
    sizeAfter_cancels_of_not top hsync (areUpdates_before side) fun _ => hclears,
    sizeAfter_before hsync] at hsize
  exact hsize

/-- The sizes all stay exactly when the levels that are written have the written sizes. -/
theorem grid_kept_iff :
    (st.handleAll cfg tokenKey (top.events prices named)).orderbook.grid = st.orderbook.grid ↔
      (∀ side idx, SetsTop st top (top.before prices named side) side (ofSide prices side)
          (ofSide named side) idx → st.orderbook.grid (side, idx) = 1) ∧
        ∀ side idx, ClearsOld st (top.before prices named side) (ofSide prices side)
          (ofSide named side) idx →
            SetsTop st top (top.before prices named side) side (ofSide prices side)
              (ofSide named side) idx ∨ st.orderbook.grid (side, idx) = 0 := by
  constructor
  · intro hkept
    constructor
    · intro side idx hsets
      rw [← hkept]
      exact grid_of_sets hsync hsets
    · intro side idx hclears
      rw [or_iff_not_imp_left]
      intro hsets
      rw [← hkept]
      exact grid_of_clears hsync hsets hclears
  · rintro ⟨hsets, hclears⟩
    -- level by level: set, cleared, or neither
    funext ⟨side, idx⟩
    by_cases hset : SetsTop st top (top.before prices named side) side (ofSide prices side)
        (ofSide named side) idx
    · rw [grid_of_sets hsync hset, hsets side idx hset]
    · by_cases hclear : ClearsOld st (top.before prices named side) (ofSide prices side)
          (ofSide named side) idx
      · rw [grid_of_clears hsync hset hclear, (hclears side idx hclear).resolve_left hset]
      · exact grid_of_neither hsync hset hclear

/-- A level is removed exactly when it has a size, is cleared and gets no size after that. -/
theorem removed_iff {side : BookSide} {idx : ℕ} (hpos : 0 < st.orderbook.grid (side, idx)) :
    (st.handleAll cfg tokenKey (top.events prices named)).orderbook.grid (side, idx) = 0 ↔
      ClearsOld st (top.before prices named side) (ofSide prices side) (ofSide named side) idx ∧
        ¬ SetsTop st top (top.before prices named side) side (ofSide prices side)
          (ofSide named side) idx := by
  constructor
  · intro hzero
    -- a level that is set has a size
    by_cases hset : SetsTop st top (top.before prices named side) side (ofSide prices side)
        (ofSide named side) idx
    · rw [grid_of_sets hsync hset] at hzero
      cases hzero
    · by_contra hnot
      have hclear : ¬ ClearsOld st (top.before prices named side) (ofSide prices side)
          (ofSide named side) idx := fun hclear => hnot ⟨hclear, hset⟩
      rw [grid_of_neither hsync hset hclear] at hzero
      exact hpos.ne' hzero
  · rintro ⟨hclear, hset⟩
    exact grid_of_clears hsync hset hclear

end

/-- A message about a token in sync leaves the book undistorted exactly when its level updates
are harmless, as far as they reach the book. -/
theorem topOfBook_undistorted_iff (assetKey : String → Option String)
    (message : BestBidAskMessage) (localTsMs : ℤ) (lastGood : LastGoodTs) (lastBest : LastBest)
    (cfg : ShardConfig) (st : TokenState) {tokenKey : String}
    (hkey : message.assetId.bind assetKey = some tokenKey) (hsync : st.resyncNeeded = false) :
    Undistorted (message.bid, message.ask) st.orderbook
        (st.handleAll cfg tokenKey
          (parseBestBidAsk assetKey message localTsMs lastGood lastBest).1).orderbook ↔
      Harmless st (message.top tokenKey localTsMs lastGood (lastBest tokenKey))
        (lastBest tokenKey) (message.bid, message.ask) := by
  rw [parseBestBidAsk_events hkey]
  constructor
  · intro h
    refine ⟨?_, ?_, ?_⟩
    · intro hbest
      exact ((grid_kept_iff hsync).mp (h.kept hbest)).1
    · intro hbest
      exact ((grid_kept_iff hsync).mp (h.kept hbest)).2
    · -- a level that had no size cannot be removed
      intro hother side idx hclears
      rw [or_iff_not_imp_left]
      intro hsets
      rw [or_iff_not_imp_left]
      intro hsize
      have hpos := Nat.pos_of_ne_zero hsize
      exact h.removed hother side idx hpos ((removed_iff hsync hpos).mpr ⟨hclears, hsets⟩)
  · intro h
    constructor
    · intro hbest
      exact (grid_kept_iff hsync).mpr ⟨h.sets hbest, h.clears hbest⟩
    · -- a removed level was cleared and not set again
      intro hother side idx hpos hzero
      obtain ⟨hclears, hsets⟩ := (removed_iff hsync hpos).mp hzero
      rcases h.clearsOther hother side idx hclears with hset | hsize | hbetter
      · exact absurd hset hsets
      · exact absurd hsize hpos.ne'
      · exact hbetter

end

/-! ### Messages about a book with 10 shares at each of its best prices -/

/-- A message of the known asset. -/
def bestMessage (bid ask : ℚ) : BestBidAskMessage :=
  ⟨some "asset", some 1700000001000, some bid, some ask⟩

/-- The book after it, where `prices` are remembered. -/
def afterBest (bid ask : ℚ) (prices : Option ℚ × Option ℚ) : DenseBook :=
  (syncedToken.handleAll exampleConfig "token" (parseBestBidAsk oneAsset (bestMessage bid ask)
    1700000001000 (fun _ => none) (fun _ => prices)).1).orderbook

/-- The same prices once more. -/
theorem undistorted_repeated :
    Undistorted (some (2 / 5), some (3 / 5)) syncedToken.orderbook
      (afterBest (2 / 5) (3 / 5) (some (2 / 5), some (3 / 5))) := by
  have hkey : (bestMessage (2 / 5) (3 / 5)).assetId.bind oneAsset = some "token" := rfl
  refine (topOfBook_undistorted_iff oneAsset (bestMessage (2 / 5) (3 / 5)) 1700000001000
    (fun _ => none) (fun _ => (some (2 / 5), some (3 / 5))) exampleConfig syncedToken hkey
    (by decide +kernel)).mpr ⟨?_, ?_, ?_⟩
  · -- what is remembered is named again, so nothing is written
    rintro - side idx ⟨price, hnamed, hother, -⟩
    exact absurd hnamed hother
  · rintro - side idx ⟨price, old, hnamed, hold, hother, -⟩
    exact absurd (Option.some.inj (hold.symm.trans hnamed)) hother
  · rintro - side idx ⟨price, old, hnamed, hold, hother, -⟩
    exact absurd (Option.some.inj (hold.symm.trans hnamed)) hother

/-- The first message of a connection names the best prices of the book, and takes all but the
least size from both of them.  A message with a better bid removes the level that was the best. -/
theorem top_of_book_distorts :
    ¬ Undistorted (some (2 / 5), some (3 / 5)) syncedToken.orderbook
        (afterBest (2 / 5) (3 / 5) (none, none)) ∧
      ¬ Undistorted (some (41 / 100), some (3 / 5)) syncedToken.orderbook
        (afterBest (41 / 100) (3 / 5) (some (2 / 5), some (3 / 5))) := by
  constructor
  · intro h
    have hkept := congrFun (h.kept (by decide +kernel)) (.bid, 4000)
    exact absurd hkept (by decide +kernel)
  · intro h
    obtain ⟨price, hprice, hbetter⟩ := h.removed ⟨.bid, 41 / 100, rfl, by decide +kernel⟩ .bid
      4000 (by decide +kernel) (by decide +kernel)
    cases hprice
    have hnot : ¬ (41 / 100 : ℚ) < idxToPrice 4000 := by decide +kernel
    exact hnot hbetter

end AlphaMonitor.Feed
