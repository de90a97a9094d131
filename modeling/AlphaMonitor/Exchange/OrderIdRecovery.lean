import AlphaMonitor.Feed.UserMessages
import Mathlib.Data.List.Basic

/-!
# Recovering the id of an order

The response to a placement may come without the id of the order.  The client then looks for the
order among the open orders of the market: for an entry with the client id, or else for the only
recent entry that names no client and has the market, side and price of the order.  The payload
of a placement does not carry the client id.

## Main definitions

- `extractOrderId`, `extractClientOrderId`, `orderMatchesAttributes`: how an entry is read
- `recoverOrderIdFromOpenOrders`: the search, over the pages that the exchange returns

## Main results

- `Sought.scanPages_eq`: what the loops find among the entries read
- `recovery_sound_iff`: when it can only be the order that was placed
-/

namespace AlphaMonitor.Exchange

open Feed (Json)
open Trade (OrderSide)

/-! ## Reading entries -/

/-- The text of a value: a string, or the digits of an integer. -/
def jsonText : Json → Option String
  | .str text => some text
  | .int n => some (toString n)
  | _ => none

/-- The items of a value. -/
def jsonArray : Json → Option (List Json)
  | .arr items => some items
  | _ => none

/-- `extract_string`. -/
def extractString (value : Json) (keys : List String) : Option String :=
  keys.findSome? fun key => (value.get? key).bind jsonText

/-- `extract_string_nested`. -/
def extractStringNested (value : Json) (keys : List String) : Option String :=
  (extractString value keys).or
    (["result", "data", "order", "order_info", "orderInfo"].findSome? fun container =>
      (value.get? container).bind fun val =>
        (extractString val keys).or ((val.get? "data").bind fun nested => extractString nested keys))

def orderIdKeys : List String := ["orderId", "order_id", "id"]

/-- The id in the order data of a value. -/
def orderDataId (value : Json) : Option String :=
  ((value.get? "orderData").or (value.get? "order_data")).bind fun orderData =>
    extractString orderData orderIdKeys

/-- `extract_order_id`. -/
def extractOrderId (value : Json) : Option String :=
  (orderDataId value).or
    ((["result", "data"].findSome? fun container =>
        (value.get? container).bind fun val =>
          (orderDataId val).or (extractString val orderIdKeys)).or
      (extractStringNested value orderIdKeys))

/-- `extract_client_order_id`. -/
def extractClientOrderId (value : Json) : Option String :=
  extractString value ["clientOrderId", "client_order_id", "clientId", "client_id"]

/-- `extract_i64_from_value`. -/
def extractI64FromValue (value : Json) (keys : List String) : Option ℤ :=
  keys.findSome? value.integer

/-- `extract_f64_from_value`. -/
def extractF64FromValue (value : Json) (keys : List String) : Option ℚ :=
  keys.findSome? value.number

/-- `extract_created_ms`: small numbers are seconds. -/
def extractCreatedMs (value : Json) : Option ℤ :=
  (extractI64FromValue value ["createdAt", "created_at", "createTime", "create_time"]).map fun raw =>
    if 0 < raw ∧ raw < 1000000000000 then raw * 1000 else raw

/-- `order_matches_attributes`: what an entry does not name counts as equal. -/
def orderMatchesAttributes (value : Json) (marketId expectedSide : ℤ) (expectedPrice : Option ℚ) :
    Bool :=
  let market := extractI64FromValue value ["marketId", "topicId", "market_id"]
  let side := extractI64FromValue value ["side", "orderSide", "sideEnum"]
  if market.any fun entryMarket => entryMarket != marketId then false
  else if side.any fun entrySide => entrySide != expectedSide then false
  else
    match extractF64FromValue value ["price"], expectedPrice with
    | some entryPrice, some expectedPrice => decide (|entryPrice - expectedPrice| ≤ 1 / 1000000)
    | _, _ => true

/-! ## The search -/

def orderIdRecoveryMaxAttempts : ℕ := 3
def orderIdRecoveryPageLimit : ℕ := 20
def orderIdRecoveryMaxPages : ℕ := 3
def orderIdRecoveryLookbackMs : ℤ := 2 * 60 * 1000

/-- What the search looks for. -/
structure Sought where
  marketId : ℤ
  side : OrderSide
  priceStr : String
  /-- The client id, trimmed. -/
  clientOrderId : String
  nowMs : ℤ

namespace Sought

variable (sought : Sought)

/-- The candidate that an entry without a client id is. -/
def candidate? (entry : Json) : Option (String × ℤ) :=
  match extractCreatedMs entry with
  | none => none
  | some ts =>
    if sought.nowMs - ts ≤ orderIdRecoveryLookbackMs then
      if orderMatchesAttributes entry sought.marketId sought.side.asInt
          (Feed.parseF64 sought.priceStr) then
        (extractOrderId entry).map fun orderId => (orderId, ts)
      else none
    else none

/-- The loop over the entries of a page: it returns an id, or goes on with the candidates. -/
def scanEntries : List Json → List (String × ℤ) → String ⊕ List (String × ℤ)
  | [], candidates => .inr candidates
  | entry :: rest, candidates =>
    match extractClientOrderId entry with
    | some entryClientId =>
      if entryClientId = sought.clientOrderId then
        match extractOrderId entry with
        | some orderId => .inl orderId
        | none => scanEntries rest candidates
      else scanEntries rest candidates
    | none => scanEntries rest (candidates ++ (sought.candidate? entry).toList)

/-- The loop over the pages that are left; `fetch` is what the exchange returns for a page. -/
def scanPages (fetch : ℕ → Option (List Json)) (page : ℕ) :
    ℕ → List (String × ℤ) → String ⊕ List (String × ℤ)
  | 0, candidates => .inr candidates
  | left + 1, candidates =>
    match fetch page with
    -- an error ends the pages of the attempt
    | none => .inr candidates
    | some list =>
      if list = [] then .inr candidates
      else
        match sought.scanEntries list candidates with
        | .inl orderId => .inl orderId
        | .inr candidates =>
          if list.length < orderIdRecoveryPageLimit then .inr candidates
          else scanPages fetch (page + 1) left candidates

/-- The loop over the attempts that are left. -/
def attempts (fetch : ℕ → ℕ → Option (List Json)) (attempt : ℕ) : ℕ → Option String
  | 0 => none
  | left + 1 =>
    match sought.scanPages (fetch attempt) 1 orderIdRecoveryMaxPages [] with
    | .inl orderId => some orderId
    | .inr candidates =>
      match candidates with
      | [candidate] => some candidate.1
      | _ => attempts fetch (attempt + 1) left

end Sought

/-- `recover_order_id_from_open_orders`: `fetch` is what the exchange returns for an attempt and a
page. -/
def recoverOrderIdFromOpenOrders (fetch : ℕ → ℕ → Option (List Json)) (marketId : ℤ)
    (side : OrderSide) (priceStr : String) (clientOrderId : Option String) (nowMs : ℤ) :
    Option String :=
  match clientOrderId.map Feed.trim with
  | none => none
  | some clientOrderId =>
    if clientOrderId = "" then none
    else
      Sought.attempts ⟨marketId, side, priceStr, clientOrderId, nowMs⟩ fetch 0
        orderIdRecoveryMaxAttempts

/-! ## The payload of a placement -/

/-- The fields of a signed order, as the payload prints them. -/
structure OrderPayload where
  (salt maker signer taker tokenId makerAmount takerAmount expiration nonce : String)
  (feeRateBps side signatureType signature : String)

/-- The payload that `place_limit_order` sends. -/
def placementPayload (order : OrderPayload) (marketId : ℤ) (currencyAddress priceStr : String)
    (nowMs : ℤ) : Json :=
  .obj [("salt", .str order.salt), ("topicId", .int marketId), ("maker", .str order.maker),
    ("signer", .str order.signer), ("taker", .str order.taker), ("tokenId", .str order.tokenId),
    ("makerAmount", .str order.makerAmount), ("takerAmount", .str order.takerAmount),
    ("expiration", .str order.expiration), ("nonce", .str order.nonce),
    ("feeRateBps", .str order.feeRateBps), ("side", .str order.side),
    ("signatureType", .str order.signatureType), ("signature", .str order.signature),
    ("sign", .str order.signature), ("contractAddress", .str ""),
    ("currencyAddress", .str currencyAddress), ("price", .str priceStr), ("tradingMethod", .int 2),
    ("timestamp", .int (nowMs.tdiv 1000)), ("safeRate", .str "0"), ("orderExpTime", .str "0")]

/-- The exchange does not learn the client id that the search looks for. -/
theorem placementPayload_names_no_client (order : OrderPayload) (marketId : ℤ)
    (currencyAddress priceStr : String) (nowMs : ℤ) :
    extractClientOrderId (placementPayload order marketId currencyAddress priceStr nowMs) = none :=
  rfl

/-! ## What the loops find -/

namespace Sought

variable {sought : Sought} {orderId : String}

/-- The ids of the entries that carry the client id. -/
def namedIds (sought : Sought) (entries : List Json) : List String :=
  entries.filterMap fun entry =>
    if extractClientOrderId entry = some sought.clientOrderId then extractOrderId entry else none

/-- The candidates among the entries that name no client. -/
def lookAlikes (sought : Sought) (entries : List Json) : List (String × ℤ) :=
  entries.filterMap fun entry =>
    if extractClientOrderId entry = none then sought.candidate? entry else none

/-- The entries that an attempt reads: pages are read until one is short or fails. -/
def readEntries (fetch : ℕ → Option (List Json)) (page : ℕ) : ℕ → List Json
  | 0 => []
  | left + 1 =>
    match fetch page with
    | none => []
    | some list =>
      if list.length < orderIdRecoveryPageLimit then list
      else list ++ readEntries fetch (page + 1) left

/-- The outcome of entries that are read after some candidates were found. -/
def outcome (sought : Sought) (entries : List Json) (candidates : List (String × ℤ)) :
    String ⊕ List (String × ℤ) :=
  match (sought.namedIds entries).head? with
  | some orderId => .inl orderId
  | none => .inr (candidates ++ sought.lookAlikes entries)

theorem outcome_append (entries entries' : List Json) (candidates : List (String × ℤ)) :
    sought.outcome (entries ++ entries') candidates =
      match sought.outcome entries candidates with
      | .inl orderId => .inl orderId
      | .inr candidates => sought.outcome entries' candidates := by
  unfold outcome namedIds lookAlikes
  rw [List.filterMap_append, List.filterMap_append, List.head?_append]
  cases (List.filterMap (fun entry =>
    if extractClientOrderId entry = some sought.clientOrderId then extractOrderId entry
    else none) entries).head? with
  | some orderId => rfl
  | none => simp

theorem scanEntries_eq (entries : List Json) (candidates : List (String × ℤ)) :
    sought.scanEntries entries candidates = sought.outcome entries candidates := by
  induction entries generalizing candidates with
  | nil => simp [scanEntries, outcome, namedIds, lookAlikes]
  | cons entry rest ih =>
    have hhead : sought.scanEntries (entry :: rest) candidates =
        match sought.outcome [entry] candidates with
        | .inl orderId => .inl orderId
        | .inr candidates => sought.scanEntries rest candidates := by
      -- One entry either names a client, or may be a candidate.
      rw [scanEntries]
      unfold outcome namedIds lookAlikes
      cases hclient : extractClientOrderId entry with
      | none =>
        cases hcandidate : sought.candidate? entry <;> simp [hclient, hcandidate]
      | some client =>
        by_cases hsame : client = sought.clientOrderId
        · cases hid : extractOrderId entry <;> simp [hclient, hsame, hid]
        · simp [hclient, hsame]
    have hsplit := @outcome_append sought [entry] rest candidates
    rw [List.singleton_append] at hsplit
    rw [hhead, hsplit]
    cases sought.outcome [entry] candidates with
    | inl orderId => rfl
    | inr candidates => exact ih candidates

theorem scanPages_eq (fetch : ℕ → Option (List Json)) (page left : ℕ)
    (candidates : List (String × ℤ)) :
    sought.scanPages fetch page left candidates =
      sought.outcome (readEntries fetch page left) candidates := by
  induction left generalizing page candidates with
  | zero => simp [scanPages, readEntries, outcome, namedIds, lookAlikes]
  | succ left ih =>
    unfold scanPages readEntries
    cases fetch page with
    | none => simp [outcome, namedIds, lookAlikes]
    | some list =>
      simp only [scanEntries_eq]
      by_cases hempty : list = []
      · -- The source tests for an empty page first, which is a short one.
        subst hempty
        simp [outcome, namedIds, lookAlikes, orderIdRecoveryPageLimit]
      · rw [if_neg hempty]
        -- A short page is the last one.
        by_cases hshort : list.length < orderIdRecoveryPageLimit
        · rw [if_pos hshort]
          cases sought.outcome list candidates <;> simp [hshort]
        · rw [if_neg hshort, outcome_append]
          cases sought.outcome list candidates with
          | inl orderId => rfl
          | inr candidates => simp [hshort, ih]

/-! ## When the search is right -/

/-- The entries decide nothing: none carries the client id, and there is no single candidate. -/
def Undecided (sought : Sought) (entries : List Json) : Prop :=
  sought.namedIds entries = [] ∧ (sought.lookAlikes entries).length ≠ 1

/-- The entry that decides is that of the order: the first one with the client id, or else the
single candidate. -/
structure PointsTo (sought : Sought) (entries : List Json) (orderId : String) : Prop where
  named : ∀ id, (sought.namedIds entries).head? = some id → id = orderId
  single : sought.namedIds entries = [] → ∀ candidate, sought.lookAlikes entries = [candidate] →
    candidate.1 = orderId

theorem Undecided.pointsTo {entries : List Json} (h : sought.Undecided entries) (orderId : String) :
    sought.PointsTo entries orderId := by
  obtain ⟨hnamed, hmany⟩ := h
  constructor
  · intro id hid
    rw [hnamed] at hid
    cases hid
  · intro _ candidate hsingle
    rw [hsingle] at hmany
    exact absurd rfl hmany

/-- What one attempt decides. -/
theorem attempts_succ (fetch : ℕ → ℕ → Option (List Json)) (attempt left : ℕ) :
    (sought.Undecided (readEntries (fetch attempt) 1 orderIdRecoveryMaxPages) ∧
        sought.attempts fetch attempt (left + 1) = sought.attempts fetch (attempt + 1) left) ∨
      (¬ sought.Undecided (readEntries (fetch attempt) 1 orderIdRecoveryMaxPages) ∧
        ∃ id, sought.attempts fetch attempt (left + 1) = some id ∧
          ∀ orderId, sought.PointsTo (readEntries (fetch attempt) 1 orderIdRecoveryMaxPages)
            orderId ↔ id = orderId) := by
  rw [attempts, scanPages_eq]
  generalize readEntries (fetch attempt) 1 orderIdRecoveryMaxPages = entries
  unfold outcome Undecided
  cases hnamed : sought.namedIds entries with
  | cons id rest =>
    -- The first entry with the client id decides, whatever else is listed.
    apply Or.inr
    refine ⟨by simp, id, rfl, fun orderId => ⟨fun h => h.named id (by simp [hnamed]), ?_⟩⟩
    rintro rfl
    constructor
    · intro id' hid'
      simpa [hnamed, eq_comm] using hid'
    · intro hnil
      simp [hnamed] at hnil
  | nil =>
    simp only [List.head?_nil, List.nil_append]
    cases hlook : sought.lookAlikes entries with
    | nil => simp
    | cons candidate rest =>
      cases rest with
      | cons second rest => simp
      | nil =>
        -- A single candidate decides; none, or several, leave it to the next attempt.
        apply Or.inr
        refine ⟨by simp, candidate.1, rfl, fun orderId =>
          ⟨fun h => h.single hnamed candidate hlook, ?_⟩⟩
        rintro rfl
        constructor
        · intro id hid
          simp [hnamed] at hid
        · intro _ candidate' hsingle
          rw [hlook] at hsingle
          cases hsingle
          rfl

/-- The attempts find nothing but the order just in case the first decision is right. -/
theorem attempts_sound_iff (fetch : ℕ → ℕ → Option (List Json)) (orderId : String)
    (attempt left : ℕ) :
    (∀ id, sought.attempts fetch attempt left = some id → id = orderId) ↔
      ∀ n < left,
        (∀ m < n, sought.Undecided
          (readEntries (fetch (attempt + m)) 1 orderIdRecoveryMaxPages)) →
        sought.PointsTo (readEntries (fetch (attempt + n)) 1 orderIdRecoveryMaxPages) orderId := by
  induction left generalizing attempt with
  | zero => simp [attempts]
  | succ left ih =>
    rcases sought.attempts_succ fetch attempt left with ⟨hundecided, hnext⟩ | ⟨hdecided, id, hid, hiff⟩
    · -- Nothing is decided here, so the condition is that of the attempts that are left.
      rw [hnext, ih]
      constructor
      · intro h n hn hearlier
        cases n with
        | zero => exact hundecided.pointsTo orderId
        | succ n =>
          have hshift : attempt + (n + 1) = attempt + 1 + n := by omega
          rw [hshift]
          apply h n (by omega)
          intro m hm
          have hm' := hearlier (m + 1) (by omega)
          rwa [show attempt + (m + 1) = attempt + 1 + m by omega] at hm'
      · intro h n hn hearlier
        have hn' := h (n + 1) (by omega) ?_
        · rwa [show attempt + (n + 1) = attempt + 1 + n by omega] at hn'
        · intro m hm
          cases m with
          | zero => exact hundecided
          | succ m =>
            rw [show attempt + (m + 1) = attempt + 1 + m by omega]
            exact hearlier m (by omega)
    · -- The first of these attempts decides, and no later one is made.
      constructor
      · intro h n hn hearlier
        cases n with
        | zero => exact (hiff orderId).mpr (h id hid)
        | succ n => exact absurd (hearlier 0 (by omega)) hdecided
      · intro h id' hid'
        cases hid.symm.trans hid'
        exact (hiff orderId).mp (h 0 (by omega) fun m hm => absurd hm (Nat.not_lt_zero m))

/-- The first attempt that decides is right. -/
def FirstDecisionRight (sought : Sought) (fetch : ℕ → ℕ → Option (List Json)) (orderId : String) :
    Prop :=
  ∀ attempt < orderIdRecoveryMaxAttempts,
    (∀ earlier < attempt, sought.Undecided
      (readEntries (fetch earlier) 1 orderIdRecoveryMaxPages)) →
    sought.PointsTo (readEntries (fetch attempt) 1 orderIdRecoveryMaxPages) orderId

end Sought

/-- The recovery finds nothing but the order that was placed, just in case the client id is missing
or blank, or the first listing that decides is right. -/
theorem recovery_sound_iff (fetch : ℕ → ℕ → Option (List Json)) (marketId : ℤ) (side : OrderSide)
    (priceStr : String) (clientOrderId : Option String) (nowMs : ℤ) (placedId : String) :
    (∀ id, recoverOrderIdFromOpenOrders fetch marketId side priceStr clientOrderId nowMs = some id →
      id = placedId) ↔
      ∀ client, clientOrderId.map Feed.trim = some client → client ≠ "" →
        Sought.FirstDecisionRight ⟨marketId, side, priceStr, client, nowMs⟩ fetch placedId := by
  unfold recoverOrderIdFromOpenOrders Sought.FirstDecisionRight
  cases clientOrderId.map Feed.trim with
  | none => simp
  | some client =>
    by_cases hblank : client = ""
    · simp [hblank]
    · simp only [if_neg hblank, Sought.attempts_sound_iff, Nat.zero_add]
      constructor
      · intro h client' hclient' _
        cases hclient'
        exact h
      · exact fun h => h client rfl hblank

/-! ## An order of the other token -/

/-- An earlier sale on market 7: another token, but the same side and price. -/
def earlierSale : Json :=
  .obj [("orderId", .str "earlier"), ("marketId", .int 7), ("tokenId", .str "no"),
    ("side", .int 1), ("price", .str "0.525"), ("createdAt", .int 1700000000)]

/-- A listing without the sale that was just placed leads to the earlier one. -/
theorem earlier_sale_recovered :
    recoverOrderIdFromOpenOrders (fun _ _ => some [earlierSale]) 7 .sell "0.525" (some "c1")
        1700000030000 = some "earlier" ∧
      ¬ ∀ id, recoverOrderIdFromOpenOrders (fun _ _ => some [earlierSale]) 7 .sell "0.525"
          (some "c1") 1700000030000 = some id → id = "placed" := by
  have hfound : recoverOrderIdFromOpenOrders (fun _ _ => some [earlierSale]) 7 .sell "0.525"
      (some "c1") 1700000030000 = some "earlier" := by decide +kernel
  refine ⟨hfound, fun h => ?_⟩
  have heq := h "earlier" hfound
  simp at heq

end AlphaMonitor.Exchange
