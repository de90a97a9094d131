import AlphaMonitor.Feed.UserMessages
import AlphaMonitor.Shard.Levels

/-!
# Order books on the wire

The answer to a request for an order book is read as an envelope in which every field may be
missing.  A level update of the WebSocket channel is read field by field.  Both readers take
what is not there for a book, or a level, that is empty.

## Main definitions

- `OrderbookEnvelope.deserialize`, `fetchAndEmit`: from an answer to an event
- `handleDepthDiff`: from a message to an event
- `SnapshotKept`, `LevelsKept`: what is not book data changes nothing

## Main results

- `bookData_kept_iff`: when the two readers keep to that
-/

namespace AlphaMonitor.Feed

open Shard
open Lib (writeAll)

/-! ## Structs in JSON -/

/-- The fields of a struct: by name in an object, which may repeat none of them, or by position in
an array, which may be shorter but not longer.  Other fields of an object are passed over. -/
def structFields (names : List String) : Json → Option (String → Option Json)
  | .obj fields =>
    if names.all fun name => decide (fields.countP (fun field => field.1 = name) ≤ 1) then
      some fun name => fields.lookup name
    else none
  | .arr items =>
    if items.length ≤ names.length then some fun name => (names.zip items).lookup name else none
  | _ => none

/-- A field that may be missing or null. -/
def optionalField {α : Type} (read : Json → Option α) (field : Option Json) : Option (Option α) :=
  match field with
  | none => some none
  | some .null => some none
  | some value => (read value).map some

/-- `deserialize_opt_f64`. -/
def deserializeOptF64 : Json → Option (Option ℚ)
  | .null => some none
  | .int n => some (some n)
  | .float x => some (some x)
  | .str text =>
    -- a blank text is no number, but no error either
    if trim text = "" then some none else (parseF64 (trim text)).map some
  | _ => none

/-! ## The envelope -/

/-- `RestLevel`. -/
structure RestLevel where
  (price amount size : Option ℚ)
  deriving DecidableEq, Repr

def RestLevel.deserialize (value : Json) : Option RestLevel :=
  (structFields ["price", "amount", "size"] value).bind fun field =>
    let number (name : String) : Option (Option ℚ) := (field name).elim (some none) deserializeOptF64
    (number "price").bind fun price =>
      (number "amount").bind fun amount =>
        (number "size").bind fun size => some ⟨price, amount, size⟩

/-- An array of levels. -/
def deserializeLevels : Json → Option (List RestLevel)
  | .arr items => items.mapM RestLevel.deserialize
  | _ => none

/-- `OrderbookPayload`. -/
structure OrderbookPayload where
  (bids asks : Option (List RestLevel))
  (timestamp ts : Option ℤ)
  deriving DecidableEq, Repr

namespace OrderbookPayload

def names : List String := ["bids", "asks", "timestamp", "ts"]

/-- The fields that payload and envelope share. -/
def ofFields (field : String → Option Json) : Option OrderbookPayload :=
  (optionalField deserializeLevels (field "bids")).bind fun bids =>
    (optionalField deserializeLevels (field "asks")).bind fun asks =>
      (optionalField Json.asI64 (field "timestamp")).bind fun timestamp =>
        (optionalField Json.asI64 (field "ts")).bind fun ts => some ⟨bids, asks, timestamp, ts⟩

def deserialize (value : Json) : Option OrderbookPayload := (structFields names value).bind ofFields

end OrderbookPayload

/-- `OrderbookEnvelope`. -/
structure OrderbookEnvelope extends OrderbookPayload where
  (result data : Option OrderbookPayload)
  deriving DecidableEq, Repr

namespace OrderbookEnvelope

def names : List String := ["result", "data", "bids", "asks", "timestamp", "ts"]

def deserialize (value : Json) : Option OrderbookEnvelope :=
  (structFields names value).bind fun field =>
    (optionalField OrderbookPayload.deserialize (field "result")).bind fun result =>
      (optionalField OrderbookPayload.deserialize (field "data")).bind fun data =>
        (OrderbookPayload.ofFields field).bind fun own => some ⟨own, result, data⟩

/-- `into_payload`: the first payload there is, or else the envelope's own fields. -/
def intoPayload (envelope : OrderbookEnvelope) : OrderbookPayload :=
  (envelope.result.or envelope.data).getD envelope.toOrderbookPayload

end OrderbookEnvelope

/-- `parse_levels`: a level without a price or a size is passed over. -/
def parseLevels (levels : Option (List RestLevel)) : List BookLevel :=
  (levels.getD []).filterMap fun level =>
    level.price.bind fun price => (level.amount.or level.size).map fun size => ⟨price, size⟩

/-! ## Fetching a book -/

/-- `RestErrorKind`. -/
inductive RestErrorKind where
  | timeout
  | httpStatus
  | parse
  | empty
  | other
  deriving DecidableEq, Repr

/-- An answer with its body in bytes. -/
structure HttpAnswer where
  status : ℕ
  body : List UInt8
  deriving DecidableEq, Repr

def HttpAnswer.isSuccess (answer : HttpAnswer) : Bool :=
  decide (200 ≤ answer.status ∧ answer.status < 300)

section
variable (fromSlice : List UInt8 → Option Json) (arrival : Arrival)

/-- `fetch_and_emit`, once the venue has answered; `fromSlice` reads a text as JSON. -/
def fetchAndEmit (tokenKey : String) (answer : HttpAnswer) : Except RestErrorKind Event :=
  if answer.isSuccess = false then .error .httpStatus
  else if answer.body = [] then .error .empty
  else
    match (fromSlice answer.body).bind OrderbookEnvelope.deserialize with
    | none => .error .parse
    | some envelope =>
      let payload := envelope.intoPayload
      -- whatever was read becomes a snapshot of both sides
      let book : RestBook :=
        ⟨parseLevels payload.bids, parseLevels payload.asks, payload.timestamp.or payload.ts⟩
      .ok (book.event arrival tokenKey)

end

/-- What a fetch does to its token. -/
def afterFetch (st : TokenState) : Except RestErrorKind Event → TokenState
  | .ok event => (st.handleEvent event).state
  | .error _ => st

/-! ## Level updates -/

/-- `parse_side` of the WebSocket task. -/
def parseSide (value : Option String) : Option BookSide :=
  value.bind fun text =>
    let side := String.ofList (text.toList.map Char.toUpper)
    if side ∈ ["BUY", "BID", "BIDS"] then some .bid
    else if side ∈ ["SELL", "ASK", "ASKS"] then some .ask
    else none

/-- `extract_ts`: the first of the keys that can be read. -/
def extractTs (value : Json) : Option ℤ :=
  ["timestamp", "ts", "time", "eventTime", "event_time"].findSome? fun key => value.integer key

/-- The size of a level update, under either of its names. -/
def sizeField (data : Json) : Option ℚ :=
  ((data.get? "size").or (data.get? "amount")).bind Json.extractF64

/-- The fields of a `market.depth.diff` message. -/
def depthDiffOf (item : Json) : MarketMessage :=
  let data := userData item
  { msgType := .depthDiff
    tsRaw := (extractTs data).or (extractTs item)
    side := parseSide ((data.get? "side").bind Json.asStr)
    price := data.number "price"
    size := sizeField data
    isSplitMerge := false }

/-- `handle_message`, for a level update; `tokenKey` is the token that the registry finds for it,
and a message without one is passed over. -/
def handleDepthDiff (arrival : Arrival) (tokenKey : Option String) (item : Json) : Option Event :=
  tokenKey.map fun tokenKey => (depthDiffOf item).event arrival tokenKey

/-! ## What is no book data -/

def holdsArray : Option Json → Bool
  | some (.arr _) => true
  | _ => false

/-- The value has an array of bids or asks among its fields. -/
def carriesSides (names : List String) (value : Json) : Bool :=
  (structFields names value).any fun field => holdsArray (field "bids") || holdsArray (field "asks")

/-- The envelope, or its result or data, has an array of bids or asks. -/
def carriesBook (value : Json) : Bool :=
  carriesSides OrderbookEnvelope.names value ||
    (structFields OrderbookEnvelope.names value).any fun field =>
      (field "result").any (carriesSides OrderbookPayload.names) ||
        (field "data").any (carriesSides OrderbookPayload.names)

def isBlank : Option Json → Bool
  | none => true
  | some .null => true
  | _ => false

/-- A field that a time may be read from: a blank one or an integer. -/
def isTime (field : Option Json) : Bool := isBlank field || (field.bind Json.asI64).isSome

/-- Blank sides, and times where there are any. -/
def blankFields (field : String → Option Json) : Bool :=
  isBlank (field "bids") && isBlank (field "asks") && isTime (field "timestamp") &&
    isTime (field "ts")

/-- A payload without a book. -/
def blankPayload (value : Json) : Bool :=
  (structFields OrderbookPayload.names value).any blankFields

/-- An envelope without a book: an error body is one, whatever else it says. -/
def blankEnvelope (value : Json) : Bool :=
  (structFields OrderbookEnvelope.names value).any fun field =>
    (isBlank (field "result") || (field "result").any blankPayload) &&
      (isBlank (field "data") || (field "data").any blankPayload) && blankFields field

/-! ## The laws -/

/-- The fetch fails, and the token is as it was. -/
structure SnapshotKept (fetched : Except RestErrorKind Event) : Prop where
  failed : ∃ kind, fetched = .error kind
  orderbook : ∀ st, (afterFetch st fetched).orderbook = st.orderbook
  initialized : ∀ st, (afterFetch st fetched).bookInitialized = st.bookInitialized
  resync : ∀ st, (afterFetch st fetched).resyncNeeded = st.resyncNeeded

/-- No token takes a level from what is emitted. -/
def LevelsKept (emitted : Option Event) : Prop :=
  ∀ event ∈ emitted, ∀ st : TokenState,
    (st.handleEvent event).state.orderbook.grid = st.orderbook.grid

theorem snapshotKept_iff {fetched : Except RestErrorKind Event} :
    SnapshotKept fetched ↔ ∃ kind, fetched = .error kind := by
  constructor
  · exact fun h => h.failed
  · rintro ⟨kind, rfl⟩
    exact ⟨⟨kind, rfl⟩, fun _ => rfl, fun _ => rfl, fun _ => rfl⟩

/-! ## Blank envelopes are read -/

theorem optionalField_isSome {α : Type} (read : Json → Option α) (field : Option Json)
    (hnull : read .null = none) :
    (optionalField read field).isSome =
      (isBlank field || field.any fun value => (read value).isSome) := by
  cases field with
  | none => rfl
  | some value => cases value <;> simp [optionalField, isBlank, hnull]

theorem time_isSome (field : Option Json) :
    (optionalField Json.asI64 field).isSome = isTime field := by
  rw [optionalField_isSome Json.asI64 field rfl]
  cases field <;> rfl

theorem levels_isSome {field : Option Json} (harray : holdsArray field = false) :
    (optionalField deserializeLevels field).isSome = isBlank field := by
  rw [optionalField_isSome deserializeLevels field rfl]
  cases field with
  | none => rfl
  | some value =>
    cases value with
    | arr items => cases harray
    | null | bool | int | float | str | obj => simp [deserializeLevels]

/-- A chain of readers whose last one always succeeds. -/
theorem isSome_bind_const {α β : Type} (x : Option α) {f : α → Option β} {b : Bool}
    (h : ∀ a, (f a).isSome = b) : (x.bind f).isSome = (x.isSome && b) := by
  cases x with
  | none => rfl
  | some a => exact h a

theorem ofFields_isSome {field : String → Option Json} (hbids : holdsArray (field "bids") = false)
    (hasks : holdsArray (field "asks") = false) :
    (OrderbookPayload.ofFields field).isSome = blankFields field := by
  unfold OrderbookPayload.ofFields blankFields
  rw [← levels_isSome hbids, ← levels_isSome hasks, ← time_isSome, ← time_isSome, Bool.and_assoc,
    Bool.and_assoc]
  apply isSome_bind_const
  intro bids
  apply isSome_bind_const
  intro asks
  apply isSome_bind_const
  intro timestamp
  rw [← Bool.and_true (optionalField Json.asI64 (field "ts")).isSome]
  apply isSome_bind_const
  exact fun _ => rfl

theorem payload_isSome {value : Json} (h : carriesSides OrderbookPayload.names value = false) :
    (OrderbookPayload.deserialize value).isSome = blankPayload value := by
  unfold OrderbookPayload.deserialize blankPayload
  unfold carriesSides at h
  cases hfields : structFields OrderbookPayload.names value with
  | none => rfl
  | some field =>
    rw [hfields] at h
    obtain ⟨hbids, hasks⟩ := Bool.or_eq_false_iff.mp h
    exact ofFields_isSome hbids hasks

theorem payloadField_isSome {field : Option Json}
    (h : field.any (carriesSides OrderbookPayload.names) = false) :
    (optionalField OrderbookPayload.deserialize field).isSome =
      (isBlank field || field.any blankPayload) := by
  rw [optionalField_isSome OrderbookPayload.deserialize field rfl]
  cases field with
  | none => rfl
  | some value =>
    simp only [Option.any_some] at h ⊢
    rw [payload_isSome h]

/-- An envelope without a book is read just in case it is blank. -/
theorem envelope_isSome {value : Json} (h : carriesBook value = false) :
    (OrderbookEnvelope.deserialize value).isSome = blankEnvelope value := by
  unfold OrderbookEnvelope.deserialize blankEnvelope
  unfold carriesBook carriesSides at h
  cases hfields : structFields OrderbookEnvelope.names value with
  | none => rfl
  | some field =>
    rw [hfields] at h
    obtain ⟨hsides, hpayloads⟩ := Bool.or_eq_false_iff.mp h
    obtain ⟨hbids, hasks⟩ := Bool.or_eq_false_iff.mp hsides
    obtain ⟨hresult, hdata⟩ := Bool.or_eq_false_iff.mp hpayloads
    simp only [Option.bind_some, Option.any_some]
    rw [← payloadField_isSome hresult, ← payloadField_isSome hdata, ← ofFields_isSome hbids hasks,
      Bool.and_assoc]
    apply isSome_bind_const
    intro result
    apply isSome_bind_const
    intro data
    rw [← Bool.and_true (OrderbookPayload.ofFields field).isSome]
    apply isSome_bind_const
    exact fun _ => rfl

/-! ## Fetches -/

theorem fetchAndEmit_error_iff (fromSlice : List UInt8 → Option Json) (arrival : Arrival)
    (tokenKey : String) (body : List UInt8) :
    (∃ kind, fetchAndEmit fromSlice arrival tokenKey ⟨200, body⟩ = .error kind) ↔
      body = [] ∨ ∀ value, fromSlice body = some value →
        OrderbookEnvelope.deserialize value = none := by
  have hok : ¬(⟨200, body⟩ : HttpAnswer).isSuccess = false := by
    simp [HttpAnswer.isSuccess]
  unfold fetchAndEmit
  rw [if_neg hok]
  by_cases hempty : body = []
  · simp [hempty]
  · rw [if_neg hempty]
    cases hread : fromSlice body with
    | none => simp
    | some value =>
      cases hvalue : OrderbookEnvelope.deserialize value with
      | none => simp [hvalue]
      | some envelope => simp [hempty, hvalue]

/-- A body that is not book data leaves its token alone just in case it is not read at all. -/
theorem snapshotKept_fetch_iff (fromSlice : List UInt8 → Option Json) (arrival : Arrival)
    (tokenKey : String) {body : List UInt8}
    (hnone : ∀ value, fromSlice body = some value → carriesBook value = false) :
    SnapshotKept (fetchAndEmit fromSlice arrival tokenKey ⟨200, body⟩) ↔
      body = [] ∨ ∀ value, fromSlice body = some value → blankEnvelope value = false := by
  rw [snapshotKept_iff, fetchAndEmit_error_iff]
  apply or_congr_right
  apply forall₂_congr
  intro value hread
  rw [← envelope_isSome (hnone value hread), Option.isSome_eq_false_iff,
    Option.isNone_iff_eq_none]

/-- A book that has no level. -/
def Bare (payload : OrderbookPayload) : Prop := payload.bids = none ∧ payload.asks = none

theorem read_of_optionalField {α : Type} {read : Json → Option α} {value : Json} {a : α}
    (h : optionalField read (some value) = some (some a)) : read value = some a := by
  cases value with
  | null => cases h
  | bool | int | float | str | arr | obj => simpa [optionalField] using h

theorem optionalLevels_eq_none {field : Option Json} (harray : holdsArray field = false)
    {levels : Option (List RestLevel)} (h : optionalField deserializeLevels field = some levels) :
    levels = none := by
  have hblank := levels_isSome harray
  rw [h] at hblank
  cases field with
  | none => exact (Option.some.inj h).symm
  | some value =>
    cases value with
    | null => exact (Option.some.inj h).symm
    | bool | int | float | str | arr | obj => cases hblank

theorem bare_of_ofFields {field : String → Option Json} {payload : OrderbookPayload}
    (hsides : (holdsArray (field "bids") || holdsArray (field "asks")) = false)
    (h : OrderbookPayload.ofFields field = some payload) : Bare payload := by
  obtain ⟨hbids, hasks⟩ := Bool.or_eq_false_iff.mp hsides
  unfold OrderbookPayload.ofFields at h
  simp only [Option.bind_eq_some_iff, Option.some.injEq] at h
  obtain ⟨bids, hbidsRead, asks, hasksRead, timestamp, -, ts, -, rfl⟩ := h
  exact ⟨optionalLevels_eq_none hbids hbidsRead, optionalLevels_eq_none hasks hasksRead⟩

theorem bare_of_payloadField {field : Option Json} {payload : OrderbookPayload}
    (hsides : field.any (carriesSides OrderbookPayload.names) = false)
    (h : optionalField OrderbookPayload.deserialize field = some (some payload)) :
    Bare payload := by
  cases field with
  | none => cases h
  | some value =>
    have hread := read_of_optionalField h
    unfold OrderbookPayload.deserialize at hread
    obtain ⟨fields, hfields, hread⟩ := Option.bind_eq_some_iff.mp hread
    rw [Option.any_some, carriesSides, hfields] at hsides
    exact bare_of_ofFields hsides hread

/-- Whichever payload of an envelope without a book is taken, it has no level. -/
theorem bare_intoPayload {value : Json} {envelope : OrderbookEnvelope}
    (hnone : carriesBook value = false) (h : OrderbookEnvelope.deserialize value = some envelope) :
    Bare envelope.intoPayload := by
  unfold OrderbookEnvelope.deserialize at h
  simp only [Option.bind_eq_some_iff, Option.some.injEq] at h
  obtain ⟨field, hfields, result, hresult, data, hdata, own, hown, rfl⟩ := h
  unfold carriesBook carriesSides at hnone
  rw [hfields] at hnone
  obtain ⟨hsides, hpayloads⟩ := Bool.or_eq_false_iff.mp hnone
  obtain ⟨hresultSides, hdataSides⟩ := Bool.or_eq_false_iff.mp hpayloads
  cases result with
  | some payload => exact bare_of_payloadField hresultSides hresult
  | none =>
    cases data with
    | some payload => exact bare_of_payloadField hdataSides hdata
    | none => exact bare_of_ofFields hsides hown

/-- A blank envelope empties the book of its token. -/
theorem fetch_blank_empties {fromSlice : List UInt8 → Option Json} {body : List UInt8} {value : Json}
    (hbody : body ≠ []) (hread : fromSlice body = some value) (hnone : carriesBook value = false)
    (hblank : blankEnvelope value = true) (arrival : Arrival) (tokenKey : String)
    (st : TokenState) (level : BookSide × ℕ) :
    (afterFetch st (fetchAndEmit fromSlice arrival tokenKey ⟨200, body⟩)).orderbook.grid level =
      0 := by
  rw [← envelope_isSome hnone] at hblank
  obtain ⟨envelope, henvelope⟩ := Option.isSome_iff_exists.mp hblank
  obtain ⟨hbids, hasks⟩ := bare_intoPayload hnone henvelope
  have hfetched : fetchAndEmit fromSlice arrival tokenKey ⟨200, body⟩ =
      .ok ((⟨[], [], envelope.intoPayload.timestamp.or envelope.intoPayload.ts⟩ : RestBook).event
        arrival tokenKey) := by
    unfold fetchAndEmit
    rw [hread, Option.bind_some, henvelope]
    simp [HttpAnswer.isSuccess, hbody, parseLevels, hbids, hasks]
  rw [hfetched]
  show (st.handleEvent _).state.orderbook.grid level = 0
  rw [st.handleEvent_grid]
  obtain ⟨side, idx⟩ := level
  cases side <;> rfl

/-! ## Level updates without a size -/

/-- A token with one level, whose book follows the venue. -/
def tokenWithLevel (side : BookSide) (idx : ℕ) : TokenState :=
  let st := TokenState.new .opinion .yes 0 0
  { st with
    orderbook := DenseBook.empty.setLevel side idx 1
    bookInitialized := true }

theorem tokenWithLevel_grid (side : BookSide) (idx : ℕ) :
    (tokenWithLevel side idx).orderbook.grid (side, idx) = 1 := by
  show (DenseBook.empty.setLevel side idx 1).grid (side, idx) = 1
  rw [grid_setLevel, Function.update_self]

theorem depthDiff_event {arrival : Arrival} {tokenKey : String} {item : Json}
    (hsize : sizeField (userData item) = none) {side : BookSide} {price : ℚ}
    (hside : (depthDiffOf item).side = some side) (hprice : (depthDiffOf item).price = some price) :
    let event := (depthDiffOf item).event arrival tokenKey
    event.kind = .bookDelta ∧ levelWritesOf event = levelWrite side price 0 := by
  have hnone : (depthDiffOf item).size = none := hsize
  have htype : (depthDiffOf item).msgType = .depthDiff := rfl
  unfold MarketMessage.event MarketMessage.parse
  simp only [htype, hside, hprice, hnone, levelWritesOf, Option.getD_none, and_self]

/-- A message that gives no level leaves every level alone. -/
theorem levelsKept_of_unread {arrival : Arrival} {tokenKey : String} {item : Json}
    (h : (depthDiffOf item).side = none ∨ (depthDiffOf item).price = none) :
    LevelsKept (some ((depthDiffOf item).event arrival tokenKey)) := by
  rintro event ⟨⟩ st
  obtain ⟨-, -, hsnapshot, hdelta⟩ := (depthDiffOf item).event_frame arrival tokenKey
  have hother : (depthDiffOf item).isBookUpdate = false := by
    unfold MarketMessage.isBookUpdate
    rcases h with hside | hprice
    · simp [hside]
    · simp [hprice]
  rw [hother] at hdelta
  rw [st.handleEvent_grid]
  unfold QuoteState.appliesLevels
  cases hkind : ((depthDiffOf item).event arrival tokenKey).kind with
  | bookSnapshot => exact absurd hkind hsnapshot
  | bookDelta => exact absurd (hdelta.mp hkind) Bool.false_ne_true
  | trade => rfl
  | lastPrice => rfl
  | tickSizeChange => rfl
  | health => rfl

/-- A message without a size writes an empty level to every book that follows the venue. -/
theorem grid_depthDiff (arrival : Arrival) (tokenKey : String) {item : Json}
    (hsize : sizeField (userData item) = none) {side : BookSide} {price : ℚ}
    (hside : (depthDiffOf item).side = some side) (hprice : (depthDiffOf item).price = some price)
    (st : TokenState) :
    let event := (depthDiffOf item).event arrival tokenKey
    (st.handleEvent event).state.orderbook.grid =
      if st.toQuoteState.appliesLevels event then
        writeAll st.orderbook.grid (levelWrite side price 0)
      else st.orderbook.grid := by
  obtain ⟨hkind, hwrites⟩ := @depthDiff_event arrival tokenKey item hsize side price hside hprice
  dsimp only
  rw [st.handleEvent_grid]
  unfold levelsAfter
  rw [hkind, hwrites]

/-- The sample token takes it, and loses its level. -/
theorem grid_depthDiff_tokenWithLevel (arrival : Arrival) (tokenKey : String) {item : Json}
    (hsize : sizeField (userData item) = none) {side : BookSide} {price : ℚ}
    (hside : (depthDiffOf item).side = some side) (hprice : (depthDiffOf item).price = some price)
    {idx : ℕ} (hidx : priceToIdx price = some idx) :
    ((tokenWithLevel side idx).handleEvent
      ((depthDiffOf item).event arrival tokenKey)).state.orderbook.grid (side, idx) = 0 := by
  have hkind := (@depthDiff_event arrival tokenKey item hsize side price hside hprice).1
  have happlies : (tokenWithLevel side idx).toQuoteState.appliesLevels
      ((depthDiffOf item).event arrival tokenKey) = true := by
    unfold QuoteState.appliesLevels
    rw [hkind]
    simp [QuoteState.allows, tokenWithLevel, TokenState.new]
  have hgrid := grid_depthDiff arrival tokenKey hsize hside hprice (tokenWithLevel side idx)
  dsimp only at hgrid
  have hzero : (sizeToInt 0).toNat = 0 := by decide +kernel
  rw [hgrid, if_pos happlies]
  unfold levelWrite
  rw [hidx]
  simp [writeAll, hzero]

/-- A message without a size removes its level, wherever its price is on the grid. -/
theorem levelsKept_depthDiff_iff (arrival : Arrival) (tokenKey : Option String) {item : Json}
    (hsize : sizeField (userData item) = none) :
    LevelsKept (handleDepthDiff arrival tokenKey item) ↔
      tokenKey = none ∨ (depthDiffOf item).side = none ∨
        (depthDiffOf item).price.bind priceToIdx = none := by
  cases tokenKey with
  | none =>
    apply iff_of_true
    · rintro event ⟨⟩
    · exact Or.inl rfl
  | some key =>
    show LevelsKept (some ((depthDiffOf item).event arrival key)) ↔ _
    cases hside : (depthDiffOf item).side with
    | none =>
      apply iff_of_true
      · exact levelsKept_of_unread (Or.inl hside)
      · exact Or.inr (Or.inl rfl)
    | some side =>
      cases hprice : (depthDiffOf item).price with
      | none =>
        apply iff_of_true
        · exact levelsKept_of_unread (Or.inr hprice)
        · exact Or.inr (Or.inr rfl)
      | some price =>
        simp only [Option.bind_some, reduceCtorEq, false_or]
        cases hidx : priceToIdx price with
        | none =>
          apply iff_of_true
          · rintro event ⟨⟩ st
            have hgrid := grid_depthDiff arrival key hsize hside hprice st
            dsimp only at hgrid
            unfold levelWrite at hgrid
            rw [hgrid, hidx]
            exact ite_self _
          · rfl
        | some idx =>
          apply iff_of_false
          · intro hkept
            have hlevel := congrFun (hkept _ rfl (tokenWithLevel side idx)) (side, idx)
            rw [grid_depthDiff_tokenWithLevel arrival key hsize hside hprice hidx,
              tokenWithLevel_grid] at hlevel
            exact absurd hlevel (by decide)
          · exact Option.some_ne_none idx

/-! ## Only book data changes a book -/

/-- Where a body without bids and asks, and a level update without a size, change nothing: the
body has to be unreadable as an envelope, the update must not name a level of a known token. -/
theorem bookData_kept_iff (fromSlice : List UInt8 → Option Json) (arrival : Arrival)
    (tokenKey : String) (body : List UInt8) (known : Option String) (item : Json)
    (hnone : ∀ value, fromSlice body = some value → carriesBook value = false)
    (hsize : sizeField (userData item) = none) :
    (SnapshotKept (fetchAndEmit fromSlice arrival tokenKey ⟨200, body⟩) ↔
        body = [] ∨ ∀ value, fromSlice body = some value → blankEnvelope value = false) ∧
      (LevelsKept (handleDepthDiff arrival known item) ↔
        known = none ∨ (depthDiffOf item).side = none ∨
          (depthDiffOf item).price.bind priceToIdx = none) :=
  ⟨snapshotKept_fetch_iff fromSlice arrival tokenKey hnone,
    levelsKept_depthDiff_iff arrival known hsize⟩

/-- An error that the venue reports with status 200. -/
def busyBody : List UInt8 := "\x7b\"errno\":10429,\"errmsg\":\"busy\"\x7d".toUTF8.toList

/-- The error is all that is read. -/
def readsBusy (body : List UInt8) : Option Json :=
  if body = busyBody then some (.obj [("errno", .int 10429), ("errmsg", .str "busy")]) else none

/-- A level update that says nothing of a size. -/
def unsizedUpdate : Json := .obj [("data", .obj [("side", .str "bids"), ("price", .str "0.40")])]

theorem readsBusy_blank (value : Json) (h : readsBusy busyBody = some value) :
    carriesBook value = false ∧ blankEnvelope value = true := by
  rw [readsBusy, if_pos rfl] at h
  cases h
  decide

/-- A body that is no JSON, and an update that names no price. -/
theorem bookData_kept_unreadable :
    SnapshotKept (fetchAndEmit readsBusy ⟨1700000000000, 0, 60000⟩ "token" ⟨200, [60]⟩) ∧
      LevelsKept (handleDepthDiff ⟨1700000000000, 0, 60000⟩ (some "token")
        (.obj [("data", .obj [("side", .str "bids")])])) := by
  have hnone : readsBusy [60] = none := if_neg (by decide +kernel)
  have hkept := bookData_kept_iff readsBusy ⟨1700000000000, 0, 60000⟩ "token" [60] (some "token")
    (.obj [("data", .obj [("side", .str "bids")])])
    (fun value h => by rw [hnone] at h; cases h) (by decide)
  refine ⟨hkept.1.mpr (Or.inr fun value h => ?_), hkept.2.mpr (Or.inr (Or.inr (by decide)))⟩
  rw [hnone] at h
  cases h

/-- Neither reader keeps to it. -/
theorem bookData_not_kept :
    (¬ ∀ (fromSlice : List UInt8 → Option Json) (arrival : Arrival) (tokenKey : String)
        (body : List UInt8),
        (∀ value, fromSlice body = some value → carriesBook value = false) →
        SnapshotKept (fetchAndEmit fromSlice arrival tokenKey ⟨200, body⟩)) ∧
      ¬ ∀ (arrival : Arrival) (known : Option String) (item : Json),
        sizeField (userData item) = none → LevelsKept (handleDepthDiff arrival known item) := by
  constructor
  · intro hall
    have hkept := hall readsBusy ⟨1700000000000, 0, 60000⟩ "token" busyBody
      fun value h => (readsBusy_blank value h).1
    rw [snapshotKept_fetch_iff _ _ _ fun value h => (readsBusy_blank value h).1] at hkept
    rcases hkept with hempty | hread
    · exact absurd hempty (by decide +kernel)
    · have hblank := hread _ (if_pos rfl)
      cases hblank
  · intro hall
    have hkept := hall ⟨1700000000000, 0, 60000⟩ (some "token") unsizedUpdate (by decide)
    rw [levelsKept_depthDiff_iff _ _ (by decide)] at hkept
    revert hkept
    decide +kernel

end AlphaMonitor.Feed
