import AlphaMonitor.Feed.OrderbookEnvelope
import AlphaMonitor.Lib.Utf8

/-!
# The books of Polymarket

The Polymarket snapshotter asks for the books of its targets batch by batch.  An answer with
another status than success becomes an error that shows the beginning of its body.  The body is
decoded first, and then cut after a number of bytes.

## Main definitions

- `fetchBooksBatch`: from an answer to the books of a batch
- `refresh`: the batches of a tick
- `BooksLaw`: every token is found or missing

## Main results

- `books_survive_iff`: one batch
- `refresh_survives_iff`: the batches of a tick
-/

namespace AlphaMonitor.Feed

open Lib (byteLen sliceTo fromUtf8Lossy)

/-! ## Reading books -/

/-- `PolymarketSnapshotTarget`. -/
structure PolymarketSnapshotTarget where
  (tokenKey tokenId : String)
  deriving DecidableEq, Repr

/-- `BookSnapshot`. -/
structure BookSnapshot where
  (bids asks : Option (List BookLevel))
  exchangeTsMs : Option ℤ
  deriving DecidableEq, Repr

/-- The books by token id. -/
abbrev Books := String → Option BookSnapshot

/-- `as_array`. -/
def Json.asArray : Json → Option (List Json)
  | .arr items => some items
  | _ => none

/-- The first of the keys that the value has, whatever it holds. -/
def Json.firstOf (value : Json) (keys : List String) : Option Json := keys.findSome? value.get?

/-- `extract_books_array`. -/
def extractBooksArray (value : Json) : Option (List Json) :=
  value.asArray.or
    (["data", "result", "books"].findSome? fun key => (value.get? key).bind Json.asArray)

/-- `extract_book_side`. -/
def extractBookSide (entry : Json) (key : String) : Option Json :=
  ((entry.get? key).or ((entry.get? "book").bind fun book => book.get? key)).or
    ((entry.get? "orderbook").bind fun orderbook => orderbook.get? key)

/-- `parse_level` of the Polymarket snapshotter: a pair, or an object. -/
def parsePolymarketLevel (value : Json) : Option BookLevel :=
  match value with
  | .arr (price :: size :: _) =>
    price.extractF64.bind fun price => size.extractF64.map fun size => ⟨price, size⟩
  | .obj _ =>
    ((value.firstOf ["price", "px"]).bind Json.extractF64).bind fun price =>
      ((value.firstOf ["size", "sz", "amount"]).bind Json.extractF64).map fun size => ⟨price, size⟩
  | _ => none

/-- `parse_levels` of the Polymarket snapshotter: what cannot be read is passed over. -/
def parsePolymarketLevels (value : Option Json) : Option (List BookLevel) :=
  (value.bind Json.asArray).map fun levels => levels.filterMap parsePolymarketLevel

/-- `extract_i64_value`. -/
def extractI64Value : Json → Option ℤ
  | .str text => parseI64 text
  | value => value.asI64

/-- `normalize_ts_ms` of the Polymarket snapshotter, which keeps negative times. -/
def normalizePolymarketTsMs (tsRaw : ℤ) : ℤ :=
  if tsRaw < 0 then tsRaw
  else if tsRaw < 100000000000 then tsRaw * 1000
  else if tsRaw < 100000000000000 then tsRaw
  else if tsRaw < 100000000000000000 then tsRaw.tdiv 1000
  else tsRaw.tdiv 1000000

/-- `extract_ts_ms`. -/
def extractTsMs (entry : Json) : Option ℤ :=
  ((entry.firstOf ["timestamp", "ts", "time"]).bind extractI64Value).map normalizePolymarketTsMs

/-- `truncate_text`; none where the text cannot be cut there, and the task panics. -/
def truncateText (value : List Char) (limit : ℕ) : Option (List Char) :=
  if byteLen value ≤ limit then some value else (sliceTo value limit).map (· ++ "...".toList)

/-! ## Fetching a batch -/

/-- The errors of a fetch: there is no answer, its status is another, or it cannot be read. -/
inductive BooksError where
  | request
  | httpStatus (text : String)
  | parse
  deriving DecidableEq, Repr

/-- The error of an answer with another status. -/
def httpError (status : ℕ) (preview : List Char) : BooksError :=
  .httpStatus ("pm_rest books http_error status=" ++ toString status ++ " body_prefix=\"" ++
    String.ofList preview ++ "\"")

section
variable (fromSlice : List UInt8 → Option Json) (floatText : ℚ → String)

/-- `extract_token_id`; `floatText` writes a number that is no integer. -/
def extractTokenId (entry : Json) : Option String :=
  (entry.firstOf ["token_id", "tokenId", "asset_id", "assetId"]).bind fun value =>
    match value with
    | .str text => some text
    | .int n => some (toString n)
    | .float x => some (floatText x)
    | _ => none

/-- One entry of an answer; a later one for the same token counts. -/
def addEntry (books : Books) (entry : Json) : Books :=
  match extractTokenId floatText entry with
  | some tokenId =>
    Function.update books tokenId (some
      { bids := parsePolymarketLevels (extractBookSide entry "bids")
        asks := parsePolymarketLevels (extractBookSide entry "asks")
        exchangeTsMs := extractTsMs entry })
  | none => books

/-- The books of an answer. -/
def booksOf (envelope : Json) : Books :=
  ((extractBooksArray envelope).getD []).foldl (addEntry floatText) fun _ => none

/-- The tokens of a batch without a book. -/
def missingOf (books : Books) (batch : List PolymarketSnapshotTarget) : List String :=
  (batch.filter fun target => (books target.tokenId).isNone).map (·.tokenId)

/-- `fetch_books_batch`, with the answer if there is one; `fromSlice` reads a text as JSON.  None
where the task panics. -/
def fetchBooksBatch (batch : List PolymarketSnapshotTarget) (reply : Option HttpAnswer) :
    Option (Except BooksError (Books × List String)) :=
  match reply with
  | none => some (.error .request)
  | some answer =>
    if answer.isSuccess = false then
      (truncateText (fromUtf8Lossy answer.body) 300).map fun preview =>
        .error (httpError answer.status preview)
    else
      match fromSlice answer.body with
      | none => some (.error .parse)
      | some envelope =>
        let books := booksOf floatText envelope
        some (.ok (books, missingOf books batch))

/-! ## The batches of a tick -/

/-- `build_snapshot_event`. -/
def buildSnapshotEvent (target : PolymarketSnapshotTarget) (book : BookSnapshot) (localTsMs : ℤ) :
    Event where
  venue := .polymarket
  tokenKey := target.tokenKey
  kind := .bookSnapshot
  channel := some "rest.book"
  exchangeTsMs := book.exchangeTsMs.getD localTsMs
  localTsMs := localTsMs
  exchangeTsSource := if book.exchangeTsMs.isSome then .venueRest else .estimated
  flags := { EventFlags.none with tsMissing := book.exchangeTsMs.isNone }
  payload := { EventPayload.empty with bids := book.bids, asks := book.asks }

/-- A batch, its answer, and the time at which the event of each token is built. -/
structure BatchReply where
  batch : List PolymarketSnapshotTarget
  reply : Option HttpAnswer
  localTsMs : String → ℤ

/-- The events of a batch; an error is logged. -/
def refreshBatch (r : BatchReply) : Option (List Event) :=
  (fetchBooksBatch fromSlice floatText r.batch r.reply).map fun result =>
    match result with
    | .ok (books, _) =>
      r.batch.filterMap fun target => (books target.tokenId).map fun book =>
        buildSnapshotEvent target book (r.localTsMs target.tokenKey)
    | .error _ => []

/-- The events of the batches; the first panic ends the task. -/
def refresh : List BatchReply → Option (List Event)
  | [] => some []
  | r :: rest =>
    (refreshBatch fromSlice floatText r).bind fun events => (refresh rest).map (events ++ ·)

end

/-! ## The law -/

/-- A batch is answered with an error, or with books where each of its tokens is either found or
missing. -/
def BooksLaw (batch : List PolymarketSnapshotTarget)
    (fetched : Option (Except BooksError (Books × List String))) : Prop :=
  ∃ result ∈ fetched, ∀ books missing, result = .ok (books, missing) →
    ∀ target ∈ batch, Xor ((books target.tokenId).isSome = true) (target.tokenId ∈ missing)

/-- The preview ends within the body, or between two of its characters. -/
def Previewable (answer : HttpAnswer) : Prop :=
  byteLen (fromUtf8Lossy answer.body) ≤ 300 ∨
    ∃ head, head <+: fromUtf8Lossy answer.body ∧ byteLen head = 300

theorem truncateText_isSome_iff {value : List Char} {limit : ℕ} :
    (truncateText value limit).isSome = true ↔
      byteLen value ≤ limit ∨ ∃ head, head <+: value ∧ byteLen head = limit := by
  unfold truncateText
  by_cases hfits : byteLen value ≤ limit
  · rw [if_pos hfits]
    exact iff_of_true rfl (Or.inl hfits)
  · rw [if_neg hfits, Option.isSome_map, Option.isSome_iff_exists, or_iff_right hfits]
    exact exists_congr fun head => Lib.sliceTo_eq_some_iff

theorem mem_missingOf {books : Books} {batch : List PolymarketSnapshotTarget} {tokenId : String} :
    tokenId ∈ missingOf books batch ↔
      books tokenId = none ∧ ∃ target ∈ batch, target.tokenId = tokenId := by
  unfold missingOf
  rw [List.mem_map]
  constructor
  · rintro ⟨target, hmem, rfl⟩
    obtain ⟨hbatch, hnone⟩ := List.mem_filter.mp hmem
    exact ⟨Option.isNone_iff_eq_none.mp hnone, target, hbatch, rfl⟩
  · rintro ⟨hnone, target, hbatch, rfl⟩
    exact ⟨target, List.mem_filter.mpr ⟨hbatch, Option.isNone_iff_eq_none.mpr hnone⟩, rfl⟩

/-- A token of the batch is missing just in case it has no book. -/
theorem found_or_missing {books : Books} {batch : List PolymarketSnapshotTarget}
    {target : PolymarketSnapshotTarget} (hmem : target ∈ batch) :
    Xor ((books target.tokenId).isSome = true) (target.tokenId ∈ missingOf books batch) := by
  rw [mem_missingOf]
  cases hbook : books target.tokenId with
  | none => exact Or.inr ⟨⟨rfl, target, hmem, rfl⟩, Bool.false_ne_true⟩
  | some book => exact Or.inl ⟨rfl, fun hnone => by cases hnone.1⟩

section
variable (fromSlice : List UInt8 → Option Json) (floatText : ℚ → String)

/-- A fetch panics just in case the body of an error cannot be cut for its preview. -/
theorem fetchBooksBatch_isSome_iff (batch : List PolymarketSnapshotTarget) (answer : HttpAnswer) :
    (fetchBooksBatch fromSlice floatText batch (some answer)).isSome = true ↔
      answer.isSuccess = true ∨ Previewable answer := by
  unfold fetchBooksBatch
  dsimp only
  cases hsuccess : answer.isSuccess with
  | false =>
    rw [if_pos rfl, Option.isSome_map, truncateText_isSome_iff]
    exact (or_iff_right Bool.false_ne_true).symm
  | true =>
    rw [if_neg (Bool.eq_false_iff.not.mpr (not_not.mpr rfl))]
    apply iff_of_true
    · cases fromSlice answer.body with
      | none => rfl
      | some envelope => rfl
    · exact Or.inl rfl

/-- What is fetched holds each token of the batch, as found or as missing. -/
theorem found_or_missing_of_fetched {batch : List PolymarketSnapshotTarget}
    {reply : Option HttpAnswer} {books : Books} {missing : List String}
    (h : fetchBooksBatch fromSlice floatText batch reply = some (.ok (books, missing))) :
    missing = missingOf books batch := by
  unfold fetchBooksBatch at h
  cases reply with
  | none => cases h
  | some answer =>
    dsimp only at h
    split at h
    · obtain ⟨preview, -, herror⟩ := Option.map_eq_some_iff.mp h
      cases herror
    · split at h
      · cases h
      · cases h
        rfl

theorem booksLaw_iff_isSome (batch : List PolymarketSnapshotTarget) (reply : Option HttpAnswer) :
    BooksLaw batch (fetchBooksBatch fromSlice floatText batch reply) ↔
      (fetchBooksBatch fromSlice floatText batch reply).isSome = true := by
  rw [Option.isSome_iff_exists]
  constructor
  · rintro ⟨result, hresult, -⟩
    exact ⟨result, hresult⟩
  · rintro ⟨result, hresult⟩
    refine ⟨result, hresult, ?_⟩
    rintro books missing rfl target hmem
    rw [found_or_missing_of_fetched fromSlice floatText hresult]
    exact found_or_missing hmem

/-- The batches of a tick are all handled just in case no body stands in the way. -/
theorem refresh_survives_iff (replies : List BatchReply) :
    (refresh fromSlice floatText replies).isSome = true ↔
      ∀ r ∈ replies, ∀ answer ∈ r.reply, answer.isSuccess = true ∨ Previewable answer := by
  induction replies with
  | nil => exact iff_of_true rfl fun r hr => by cases hr
  | cons r rest ih =>
    have hbatch : (refreshBatch fromSlice floatText r).isSome = true ↔
        ∀ answer ∈ r.reply, answer.isSuccess = true ∨ Previewable answer := by
      unfold refreshBatch
      rw [Option.isSome_map]
      cases r.reply with
      | none => exact iff_of_true rfl fun answer hanswer => by cases hanswer
      | some answer =>
        rw [fetchBooksBatch_isSome_iff]
        exact ⟨fun h answer' hmem => Option.some.inj hmem ▸ h, fun h => h answer rfl⟩
    have hcons : refresh fromSlice floatText (r :: rest) =
        (refreshBatch fromSlice floatText r).bind fun events =>
          (refresh fromSlice floatText rest).map (events ++ ·) := rfl
    rw [List.forall_mem_cons, ← ih, ← hbatch, hcons]
    cases refreshBatch fromSlice floatText r with
    | none => exact iff_of_false Bool.false_ne_true fun h => Bool.false_ne_true h.1
    | some events =>
      rw [Option.bind_some, Option.isSome_map]
      exact (and_iff_right rfl).symm

theorem books_survive_iff (batch : List PolymarketSnapshotTarget) (answer : HttpAnswer) :
    BooksLaw batch (fetchBooksBatch fromSlice floatText batch (some answer)) ↔
      answer.isSuccess = true ∨ Previewable answer := by
  rw [booksLaw_iff_isSome]
  exact fetchBooksBatch_isSome_iff fromSlice floatText batch answer

end

/-- Where the body is a text, its first characters count. -/
theorem previewable_text_iff {status : ℕ} (text : List Char) :
    Previewable ⟨status, text.flatMap String.utf8EncodeChar⟩ ↔
      byteLen text ≤ 300 ∨ ∃ head, head <+: text ∧ byteLen head = 300 := by
  unfold Previewable
  rw [Lib.fromUtf8Lossy_encode]

/-- A gateway error of 299 letters and one more that takes two bytes. -/
def sampleError : List Char := List.replicate 299 'a' ++ ['é']

theorem books_not_survive :
    ¬ ∀ (fromSlice : List UInt8 → Option Json) (floatText : ℚ → String)
      (batch : List PolymarketSnapshotTarget) (answer : HttpAnswer),
      BooksLaw batch (fetchBooksBatch fromSlice floatText batch (some answer)) := by
  intro hall
  have hlaw := hall (fun _ => none) (fun _ => "") [] ⟨502, sampleError.flatMap String.utf8EncodeChar⟩
  rw [booksLaw_iff_isSome, fetchBooksBatch_isSome_iff] at hlaw
  rcases hlaw with hsuccess | hpreview
  · cases hsuccess
  · rw [previewable_text_iff, ← truncateText_isSome_iff] at hpreview
    revert hpreview
    decide +kernel

end AlphaMonitor.Feed
