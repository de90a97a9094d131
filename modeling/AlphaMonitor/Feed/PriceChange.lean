import AlphaMonitor.Shard.Whole

/-!
# Price changes of Polymarket

The WebSocket task makes one event of every change of a `price_change` message.  The best
prices on the message are those after all its changes, and every event carries them.

## Main definitions

- `validateExchangeTs`: which exchange time an event gets
- `parsePriceChange`: the events of a message

## Main results

- `priceChange_applied_iff`: when the changes of a message are applied as a whole
-/

namespace AlphaMonitor.Feed

open Shard

/-! ## Exchange times -/

/-- `TimestampCheck`. -/
structure TimestampCheck where
  exchangeTsMs : ℤ
  source : ExchangeTsSource
  (tsMissing tsAnomaly outOfOrder : Bool)
  deriving DecidableEq, Repr

/-- `normalize_ts_ms` of the time utilities, which keeps negative times. -/
def scaleTsMs (tsRaw : ℤ) : ℤ :=
  if tsRaw < 0 then tsRaw
  else if tsRaw < 100000000000 then tsRaw * 1000
  else if tsRaw < 100000000000000 then tsRaw
  else if tsRaw < 100000000000000000 then tsRaw.tdiv 1000
  else tsRaw.tdiv 1000000

/-- `validate_exchange_ts`. -/
def validateExchangeTs (tsRaw : Option ℤ) (localTsMs : ℤ) (lastGoodTsMs : Option ℤ) :
    TimestampCheck :=
  match tsRaw with
  | none => ⟨localTsMs, .localFallback, true, false, false⟩
  | some tsRaw =>
    let ts := scaleTsMs tsRaw
    let outOfOrder := lastGoodTsMs.any fun last => decide (ts < last)
    if ts < 0 then ⟨localTsMs, .localFallback, false, true, outOfOrder⟩
    else if ts > localTsMs + 300000 then ⟨localTsMs, .localFallback, false, true, outOfOrder⟩
    else if lastGoodTsMs.any fun last => decide (ts < last - 2000) then
      ⟨localTsMs, .localFallback, false, true, true⟩
    else ⟨ts, .venueWs, false, false, outOfOrder⟩

/-! ## Messages -/

/-- What a `price_change` message and each of its changes may say. -/
structure PriceChangeHead where
  assetId : Option String
  tsRaw : Option ℤ
  hash : Option String
  (bestBid bestAsk : Option ℚ)
  deriving DecidableEq, Repr

/-- One change. -/
structure PriceChange extends PriceChangeHead where
  side : Option BookSide
  (price size : Option ℚ)
  deriving DecidableEq, Repr

/-- A message; it has no changes where the field is no array. -/
structure PriceChangeMessage extends PriceChangeHead where
  changes : Option (List PriceChange)
  deriving DecidableEq, Repr

/-- The last exchange time of the venue that was taken for each token. -/
abbrev LastGoodTs := String → Option ℤ

section
variable (assetKey : String → Option String) (message : PriceChangeMessage)

/-- The event of one change, if the asset is known and the change has side and price. -/
def parseChange (localTsMs : ℤ) (lastGood : LastGoodTs) (change : PriceChange) :
    Option Event × LastGoodTs :=
  match (change.assetId.or message.assetId).bind assetKey with
  | none => (none, lastGood)
  | some tokenKey =>
    let check := validateExchangeTs (change.tsRaw.or message.tsRaw) localTsMs (lastGood tokenKey)
    let lastGood :=
      if check.source = .venueWs then
        Function.update lastGood tokenKey (some check.exchangeTsMs)
      else lastGood
    match change.side, change.price with
    | some side, some price =>
      let size := change.size.getD 0
      let deltaType := if size ≤ 0 then DeltaType.cancel else .addOrUpdate
      (some
        { venue := .polymarket
          tokenKey := tokenKey
          kind := .bookDelta
          channel := some "price_change"
          exchangeTsMs := check.exchangeTsMs
          localTsMs := localTsMs
          exchangeTsSource := check.source
          flags := ⟨check.tsMissing, check.tsAnomaly, check.outOfOrder, false⟩
          payload :=
            { EventPayload.empty with
              side := some side
              deltaType := some deltaType
              price := some price
              size := some size
              hash := change.hash.or message.hash
              bestBid := message.bestBid.or change.bestBid
              bestAsk := message.bestAsk.or change.bestAsk } },
        lastGood)
    | _, _ => (none, lastGood)

/-- The events of some changes; `now n` is the time when the `n`-th change is read. -/
def parseChanges (now : ℕ → ℤ) : ℕ → LastGoodTs → List PriceChange → List Event × LastGoodTs
  | _, lastGood, [] => ([], lastGood)
  | n, lastGood, change :: rest =>
    let (event, lastGood) := parseChange assetKey message (now n) lastGood change
    let (events, lastGood) := parseChanges now (n + 1) lastGood rest
    (event.toList ++ events, lastGood)

/-- `parse_price_change`. -/
def parsePriceChange (now : ℕ → ℤ) (lastGood : LastGoodTs) : List Event × LastGoodTs :=
  match message.changes with
  | none => ([], lastGood)
  | some changes => parseChanges assetKey message now 0 lastGood changes

/-- The events of a message for one of its tokens. -/
def eventsOf (now : ℕ → ℤ) (lastGood : LastGoodTs) (tokenKey : String) : List Event :=
  (parsePriceChange assetKey message now lastGood).1.filter fun event => event.tokenKey = tokenKey

/-! ## Their events -/

theorem parseChange_isChange {localTsMs : ℤ} {lastGood : LastGoodTs} {change : PriceChange}
    {event : Event} (h : (parseChange assetKey message localTsMs lastGood change).1 = some event) :
    IsChange event := by
  unfold parseChange at h
  cases hkey : (change.assetId.or message.assetId).bind assetKey with
  | none =>
    rw [hkey] at h
    cases h
  | some tokenKey =>
    rw [hkey] at h
    dsimp only at h
    cases hside : change.side with
    | none =>
      rw [hside] at h
      cases h
    | some side =>
      cases hprice : change.price with
      | none =>
        rw [hside, hprice] at h
        cases h
      | some price =>
        rw [hside, hprice] at h
        cases h
        exact ⟨rfl, rfl, rfl⟩

theorem parseChanges_isChange (now : ℕ → ℤ) (changes : List PriceChange) (n : ℕ)
    (lastGood : LastGoodTs) :
    ∀ event ∈ (parseChanges assetKey message now n lastGood changes).1, IsChange event := by
  induction changes generalizing n lastGood with
  | nil =>
    intro event hmem
    cases hmem
  | cons change rest ih =>
    intro event hmem
    rcases List.mem_append.mp hmem with hfirst | hrest
    · exact parseChange_isChange assetKey message (Option.mem_toList.mp hfirst)
    · exact ih _ _ event hrest

theorem eventsOf_isChange (now : ℕ → ℤ) (lastGood : LastGoodTs) (tokenKey : String) :
    ∀ event ∈ eventsOf assetKey message now lastGood tokenKey, IsChange event := by
  intro event hmem
  have hparsed := List.mem_of_mem_filter hmem
  unfold parsePriceChange at hparsed
  cases hchanges : message.changes with
  | none =>
    rw [hchanges] at hparsed
    cases hparsed
  | some changes =>
    rw [hchanges] at hparsed
    exact parseChanges_isChange assetKey message now changes 0 lastGood event hparsed

/-- A message whose changes lead to the best prices it reports is applied as a whole just in
case no change but its last moves the best levels away from the final ones. -/
theorem priceChange_applied_iff (cfg : ShardConfig) (st : TokenState)
    (hsync : st.resyncNeeded = false) (now : ℕ → ℤ) (lastGood : LastGoodTs) (tokenKey : String)
    (bid ask : ℚ)
    (hfits : Fits st.orderbook (eventsOf assetKey message now lastGood tokenKey) bid ask) :
    st.AppliedWhole cfg tokenKey (eventsOf assetKey message now lastGood tokenKey) ↔
      st.Steady (eventsOf assetKey message now lastGood tokenKey) :=
  appliedWhole_iff_steady hsync (eventsOf_isChange assetKey message now lastGood tokenKey) hfits

end

/-! ## Samples -/

/-- A token with a bid at 0.40 and an ask at 0.60. -/
def syncedToken : TokenState :=
  ((TokenState.new .polymarket .yes 1700000000 1700000000000).handleEvent
    { venue := .polymarket, tokenKey := "token", kind := .bookSnapshot, channel := some "book"
      exchangeTsMs := 1700000000000, localTsMs := 1700000000000, exchangeTsSource := .venueWs
      flags := EventFlags.none
      payload :=
        { EventPayload.empty with
          bids := some [⟨2 / 5, 10⟩], asks := some [⟨3 / 5, 10⟩] } }).state

/-- The registry knows one asset. -/
def oneAsset (assetId : String) : Option String := if assetId = "asset" then some "token" else none

/-- The changes of a message that reports 0.41 and 0.60. -/
def bidMoves (changes : List (ℚ × ℚ)) : PriceChangeMessage where
  assetId := some "asset"
  tsRaw := some 1700000001000
  hash := none
  bestBid := some (41 / 100)
  bestAsk := some (3 / 5)
  changes := some (changes.map fun change =>
    { assetId := none, tsRaw := none, hash := none, bestBid := none, bestAsk := none
      side := some .bid, price := some change.1, size := some change.2 })

def sampleEvents (changes : List (ℚ × ℚ)) : List Event :=
  eventsOf oneAsset (bidMoves changes) (fun _ => 1700000001000) (fun _ => none) "token"

theorem sampleEvents_fits (changes : List (ℚ × ℚ))
    (hbest : (syncedToken.orderbook.afterUpdates (sampleEvents changes)).bestBidAskIdx =
      (some 4100, some 6000))
    (hreports : ∀ event ∈ sampleEvents changes,
      event.payload.bestBid = some (41 / 100) ∧ event.payload.bestAsk = some (3 / 5)) :
    Fits syncedToken.orderbook (sampleEvents changes) (41 / 100) (3 / 5) := by
  have hbid : priceToIdx (41 / 100) = some 4100 := by decide +kernel
  have hask : priceToIdx (3 / 5) = some 6000 := by decide +kernel
  refine ⟨hreports, ?_, 4100, 6000, hbid, hask, by omega⟩
  rw [hbest, hbid, hask]

/-- The new bid comes before the old one goes. -/
theorem applied_new_first :
    syncedToken.AppliedWhole exampleConfig "token" (sampleEvents [(41 / 100, 5), (2 / 5, 0)]) :=
  (priceChange_applied_iff oneAsset (bidMoves [(41 / 100, 5), (2 / 5, 0)]) exampleConfig
    syncedToken (by decide +kernel) (fun _ => 1700000001000) (fun _ => none) "token" (41 / 100)
    (3 / 5) (sampleEvents_fits _ (by decide +kernel) (by decide +kernel))).mpr
    (TokenState.steady_pair ⟨by decide +kernel, by decide +kernel⟩
      ⟨by decide +kernel, by decide +kernel⟩ (by decide +kernel))

/-- The old bid goes before the new one comes: between the two the book has no bid, so the
first change asks for a snapshot and the second one is not applied. -/
theorem old_first_discarded :
    ¬ ∀ (assetKey : String → Option String) (message : PriceChangeMessage) (cfg : ShardConfig)
      (st : TokenState), st.resyncNeeded = false → ∀ (now : ℕ → ℤ) (lastGood : LastGoodTs)
        (tokenKey : String) (bid ask : ℚ),
        Fits st.orderbook (eventsOf assetKey message now lastGood tokenKey) bid ask →
        st.AppliedWhole cfg tokenKey (eventsOf assetKey message now lastGood tokenKey) := by
  intro hall
  have happlied := hall oneAsset (bidMoves [(2 / 5, 0), (41 / 100, 5)]) exampleConfig
    syncedToken (by decide +kernel) (fun _ => 1700000001000) (fun _ => none) "token" (41 / 100)
    (3 / 5) (sampleEvents_fits _ (by decide +kernel) (by decide +kernel))
  have hneeded := (happlied _ (List.prefix_refl _)).1
  have hasked : (syncedToken.handleAll exampleConfig "token"
      (sampleEvents [(2 / 5, 0), (41 / 100, 5)])).resyncNeeded = true := by decide +kernel
  rw [show eventsOf oneAsset (bidMoves [(2 / 5, 0), (41 / 100, 5)]) (fun _ => 1700000001000)
    (fun _ => none) "token" = sampleEvents [(2 / 5, 0), (41 / 100, 5)] from rfl, hasked] at hneeded
  cases hneeded

end AlphaMonitor.Feed
