import AlphaMonitor.Feed.Messages
import AlphaMonitor.Trade.Engine

/-!
# The user channel on the wire

A message of the user channel is a JSON value.  The WebSocket task reads the fields it
knows and sends one message for each pair of the token to the trade engine.  A field is
read where it is a number or the text of one; otherwise it counts as absent.

## Main definitions

- `Json`, `Json.extractI64`, `Json.extractF64`: the values and how numbers are read
- `orderUpdateOf`, `tradeRecordOf`: the fields of a message
- `handleUserMessage`: what is sent for a message
-/

namespace AlphaMonitor.Feed

/-- A JSON value; a number is an integer if it is written as one. -/
inductive Json where
  | null
  | bool (value : Bool)
  | int (value : ℤ)
  | float (value : ℚ)
  | str (text : String)
  | arr (items : List Json)
  /-- Every key occurs once. -/
  | obj (fields : List (String × Json))
  deriving Repr, Inhabited

/-! ## Texts of numbers -/

/-- The value of a list of digits, if there are only digits. -/
def digitsValue (cs : List Char) : Option ℕ :=
  if cs.all Char.isDigit then some (cs.foldl (fun n c => 10 * n + (c.toNat - '0'.toNat)) 0) else none

/-- The text behind an optional sign, and whether the sign is a minus. -/
def splitSign : List Char → Bool × List Char
  | '-' :: cs => (true, cs)
  | '+' :: cs => (false, cs)
  | cs => (false, cs)

/-- A signed integer of any size. -/
def parseInt (cs : List Char) : Option ℤ :=
  let (negative, digits) := splitSign cs
  if digits = [] then none
  else (digitsValue digits).map fun n => if negative then -(n : ℤ) else n

/-- `parse::<i64>`. -/
def parseI64 (text : String) : Option ℤ :=
  (parseInt text.toList).filter fun n => decide (-2 ^ 63 ≤ n ∧ n < 2 ^ 63)

/-- `parse::<f64>` for texts of finite decimals, without its rounding.  The texts of infinities and
of no number, which it takes too, are left out. -/
def parseF64 (text : String) : Option ℚ :=
  let (negative, cs) := splitSign text.toList
  let isExp (c : Char) : Bool := c = 'e' || c = 'E'
  let mantissa := cs.takeWhile fun c => !isExp c
  let exponent :=
    match cs.dropWhile fun c => !isExp c with
    | [] => some 0
    | _ :: digits => parseInt digits
  let whole := mantissa.takeWhile fun c => c ≠ '.'
  let fraction := (mantissa.dropWhile fun c => c ≠ '.').drop 1
  if whole ++ fraction = [] then none
  else
    match digitsValue (whole ++ fraction), exponent with
    | some n, some e =>
      let value : ℚ := n * 10 ^ (e - fraction.length)
      some (if negative then -value else value)
    | _, _ => none

/-! ## Blank texts -/

/-- The characters that `trim` removes. -/
def isWhiteSpace (c : Char) : Bool :=
  let n := c.toNat
  (9 ≤ n && n ≤ 13) || (0x2000 ≤ n && n ≤ 0x200A) ||
    [0x20, 0x85, 0xA0, 0x1680, 0x2028, 0x2029, 0x202F, 0x205F, 0x3000].contains n

/-- `trim`. -/
def trim (text : String) : String :=
  let cs := text.toList.dropWhile isWhiteSpace
  String.ofList ((cs.reverse.dropWhile isWhiteSpace).reverse)

/-! ## Fields -/

namespace Json

/-- `get`. -/
def get? (value : Json) (key : String) : Option Json :=
  match value with
  | obj fields => fields.lookup key
  | _ => none

/-- `as_str`. -/
def asStr : Json → Option String
  | str text => some text
  | _ => none

/-- `as_i64`. -/
def asI64 : Json → Option ℤ
  | int n => if -2 ^ 63 ≤ n ∧ n < 2 ^ 63 then some n else none
  | _ => none

/-- `extract_i64`: an unsigned integer beyond the signed ones wraps around. -/
def extractI64 : Json → Option ℤ
  | int n => if n < 2 ^ 63 then some n else some (n - 2 ^ 64)
  | str text => parseI64 text
  | _ => none

/-- `extract_f64`. -/
def extractF64 : Json → Option ℚ
  | str text => parseF64 text
  | int n => some n
  | float x => some x
  | _ => none

/-- A field that is read as an integer. -/
def integer (value : Json) (key : String) : Option ℤ := (value.get? key).bind extractI64

/-- A field that is read as a number. -/
def number (value : Json) (key : String) : Option ℚ := (value.get? key).bind extractF64

end Json

/-- `extract_market_id`. -/
def extractMarketId (value : Json) : Option String :=
  ["marketId", "market_id", "rootMarketId", "root_market_id"].findSome? fun key =>
    (value.get? key).bind fun val => val.asStr.or (val.asI64.map toString)

/-- `as i32`. -/
def wrapI32 (n : ℤ) : ℤ := (n + 2 ^ 31) % 2 ^ 32 - 2 ^ 31

/-- `trim` and `to_lowercase`, of which only what it does to ASCII letters matters for the texts
that are compared. -/
def trimLower (text : String) : String := String.ofList ((trim text).toList.map Char.toLower)

/-- `extract_outcome_side`. -/
def extractOutcomeSide (value : Json) : Option ℤ :=
  ["outcomeSide", "outcome_side"].findSome? fun key =>
    (value.get? key).bind fun val =>
      (val.extractI64.map wrapI32).or (val.asStr.bind fun text =>
        let lower := trimLower text
        if lower = "yes" then some 1
        else if lower = "no" then some 2
        else (parseInt lower.toList).filter fun n => decide (-2 ^ 31 ≤ n ∧ n < 2 ^ 31))

/-- `extract_order_id_ws`. -/
def extractOrderIdWs (value : Json) : Option String :=
  ["orderId", "order_id", "id"].findSome? fun key => (value.get? key).bind Json.asStr

/-- `parse_order_side`. -/
def parseOrderSide (value : Option Json) : Option String :=
  value.bind fun val =>
    match val.extractI64 with
    | some n => if n = 1 then some "BUY" else if n = 2 then some "SELL" else none
    | none =>
      (val.asStr.map fun text => String.ofList (text.toList.map Char.toUpper)).filter fun upper =>
        decide (upper = "BUY" ∨ upper = "SELL")

/-- `extract_user_ts_ms`: the first of the keys counts, also where it cannot be read. -/
def extractUserTsMs (value : Json) : Option ℤ :=
  ((["createdAt", "created_at", "timestamp", "ts", "time"].findSome? value.get?).bind
    Json.extractI64).bind normalizeTsMs

/-! ## Messages -/

open Trade

/-- The update of an order that the message reports for a pair. -/
def orderUpdateOf (data : Json) (orderId : String) (tokenSide : TokenSide) (pairId : ℤ) :
    OpinionUserOrderUpdate where
  pairId := pairId
  tokenSide := tokenSide
  orderId := orderId
  orderUpdateType := (data.get? "orderUpdateType").bind Json.asStr
  status := data.integer "status"
  side := parseOrderSide (data.get? "side")
  price := data.number "price"
  shares := data.number "shares"
  amount := data.number "amount"
  filledShares := data.number "filledShares"
  filledAmount := data.number "filledAmount"
  tsMs := extractUserTsMs data

/-- The trade that the message reports for a pair. -/
def tradeRecordOf (data : Json) (orderId : String) (tokenSide : TokenSide) (pairId : ℤ) :
    OpinionUserTradeRecord where
  pairId := pairId
  tokenSide := tokenSide
  orderId := orderId
  side := (data.get? "side").bind Json.asStr
  price := data.number "price"
  shares := data.number "shares"
  amount := data.number "amount"
  tsMs := extractUserTsMs data

/-- The value that carries the fields: `data`, or the message itself. -/
def userData (item : Json) : Json := (item.get? "data").getD item

/-- `handle_user_message`; `targets` is what `resolve_opi_user_target` reads from the registry. -/
def handleUserMessage (targets : String → ℤ → TokenSide × List ℤ) (msgType : String)
    (item : Json) : List TradeMessage :=
  let data := userData item
  let outcomeSide := ((extractOutcomeSide data).or (extractOutcomeSide item)).getD 0
  match (extractMarketId data).or (extractMarketId item) with
  | none => []
  | some marketId =>
    let (tokenSide, pairIds) := targets marketId outcomeSide
    let orderId := (extractOrderIdWs data).getD ""
    if orderId = "" then []
    else if msgType = "trade.order.update" then
      pairIds.map fun pairId => .orderUpdate (orderUpdateOf data orderId tokenSide pairId)
    else if msgType = "trade.record.new" then
      pairIds.map fun pairId => .tradeRecord (tradeRecordOf data orderId tokenSide pairId)
    else []

/-- An update that is sent holds the fields of its message. -/
theorem mem_handleUserMessage_orderUpdate {targets : String → ℤ → TokenSide × List ℤ}
    {msgType : String} {item : Json} {update : OpinionUserOrderUpdate}
    (h : TradeMessage.orderUpdate update ∈ handleUserMessage targets msgType item) :
    update = orderUpdateOf (userData item) update.orderId update.tokenSide update.pairId ∧
      update.orderId ≠ "" := by
  unfold handleUserMessage at h
  simp only at h
  split at h
  · cases h
  · split at h
    · cases h
    · rename_i hid
      split at h
      · obtain ⟨pairId, -, heq⟩ := List.mem_map.mp h
        cases heq
        exact ⟨rfl, hid⟩
      · split at h
        · obtain ⟨pairId, -, heq⟩ := List.mem_map.mp h
          cases heq
        · cases h

end AlphaMonitor.Feed
