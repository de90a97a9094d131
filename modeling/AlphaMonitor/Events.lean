import AlphaMonitor.Models

/-!
# Events of one token

What the feeds send to the shards.
-/

namespace AlphaMonitor

/-- `ExchangeTsSource`: where the exchange time of an event comes from. -/
inductive ExchangeTsSource where
  | venueWs
  | venueRest
  | estimated
  | localFallback
  deriving DecidableEq, Repr

/-- `EventKind`. -/
inductive EventKind where
  | bookSnapshot
  | bookDelta
  | trade
  | lastPrice
  | tickSizeChange
  | health
  deriving DecidableEq, Repr

/-- `BookSide`. -/
inductive BookSide where
  | bid
  | ask
  deriving DecidableEq, Repr

/-- `DeltaType`. -/
inductive DeltaType where
  | add
  | cancel
  | match_
  | addOrUpdate
  | unknown
  deriving DecidableEq, Repr

/-- `EventFlags`. -/
structure EventFlags where
  (tsMissing tsAnomaly outOfOrder tradeSideMissing : Bool)
  deriving DecidableEq, Repr

def EventFlags.none : EventFlags := ⟨false, false, false, false⟩

/-- `BookLevel`: a price and a size. -/
structure BookLevel where
  (price size : ℚ)
  deriving DecidableEq, Repr

/-- `EventPayload`. -/
structure EventPayload where
  side : Option BookSide
  deltaType : Option DeltaType
  (price size : Option ℚ)
  (bids asks : Option (List BookLevel))
  hash : Option String
  (bestBid bestAsk tickSize : Option ℚ)
  deriving DecidableEq, Repr

def EventPayload.empty : EventPayload :=
  ⟨none, none, none, none, none, none, none, none, none, none⟩

/-- `Event`. -/
structure Event where
  venue : Venue
  tokenKey : String
  kind : EventKind
  channel : Option String
  (exchangeTsMs localTsMs : ℤ)
  exchangeTsSource : ExchangeTsSource
  flags : EventFlags
  payload : EventPayload
  deriving DecidableEq, Repr

/-- The second that an event belongs to: its exchange time, cut towards zero. -/
def Event.barSecond (event : Event) : ℤ := event.exchangeTsMs.tdiv 1000

end AlphaMonitor
