import AlphaMonitor.Trade.OrderErrors
import Mathlib.Data.List.Chain

/-!
# Price chase

`place_with_chase` (entries) and `place_exit_with_chase` (exits) offer a list of
candidate prices to the exchange one after another.  A post-only rejection moves
on to the next price; everything else ends the chase.  Whether an error is a
post-only rejection is read off its text (`isPostOnlyReject`).

Both functions are modelled with the list of calls they make, so that what
reached the exchange can be stated next to what the caller is told.
-/

namespace AlphaMonitor.Trade

/-! ## Orders and replies -/

/-- Side of an order. -/
inductive OrderSide where
  | buy
  | sell
  deriving DecidableEq, Repr

/-- `OrderSide::as_int`. -/
def OrderSide.asInt : OrderSide → ℤ
  | .buy => 0
  | .sell => 1

/-- What an order's amount is counted in. -/
inductive OrderAmount where
  | quote (value : ℚ)
  | base (value : ℚ)
  deriving DecidableEq, Repr

/-- An order the exchange accepted and gave an id. -/
structure PlacedOrder where
  orderId : String
  clientOrderId : Option String
  deriving DecidableEq, Repr

/-- How one call of `place_limit_order` ends. -/
inductive PlaceReply where
  /-- Accepted, with the order id of the response (or the recovered one). -/
  | accepted (orderId : String)
  /-- Accepted, but no order id in the response and none recovered. -/
  | acceptedNoId
  /-- The exchange answered with a non-zero `errno`: the order is not in the book. -/
  | apiError (errno : ℤ) (errmsg : String)
  /-- A non-success HTTP status after the request was sent. -/
  | httpError (url status body : String)
  /-- The request was sent but no response arrived. -/
  | requestFailed
  /-- A success status with a body that is not JSON. -/
  | parseFailed (raw : String)
  /-- The call failed before the order was sent. -/
  | notSent (text : String)
  deriving DecidableEq, Repr

/-- The `Result` of the call: the order id, or the text of the error. -/
def PlaceReply.result : PlaceReply → Except String String
  | .accepted orderId => .ok orderId
  | .acceptedNoId => .error orderIdMissingText
  | .apiError errno errmsg => .error (apiErrorText errno errmsg)
  | .httpError url status body => .error (httpErrorText "POST" url status body)
  | .requestFailed => .error requestFailedText
  | .parseFailed raw => .error (parseFailedText raw)
  | .notSent text => .error text

/-- The exchange may hold the order after this reply. -/
def PlaceReply.mayBeAccepted : PlaceReply → Bool
  | .accepted _ => true
  | .acceptedNoId => true
  | .apiError _ _ => false
  | .httpError _ _ _ => true
  | .requestFailed => true
  | .parseFailed _ => true
  | .notSent _ => false

/-- A rejection by the exchange itself that names a post-only conflict. -/
def PlaceReply.DefinitePostOnlyReject (u : LowerTable) : PlaceReply → Prop
  | .apiError errno errmsg => isPostOnlyReject u (apiErrorText errno errmsg)
  | _ => False

/-- A reply that is no rejection by the exchange but whose text reads as one. -/
def PlaceReply.Misread (u : LowerTable) : PlaceReply → Prop
  | .httpError _ _ _ => True
  | .parseFailed raw => isPostOnlyReject u (parseFailedText raw)
  | .notSent text => isPostOnlyReject u text
  | _ => False

/-- The reply's text says that the order id is missing. -/
def PlaceReply.SaysIdMissing (u : LowerTable) (r : PlaceReply) : Prop :=
  ∃ err, r.result = .error err ∧ isOrderIdMissing u err

/-- One call of `place_limit_order` made by a chase. -/
structure Submission where
  side : OrderSide
  price : ℚ
  amount : OrderAmount
  clientId : String
  reply : PlaceReply
  deriving DecidableEq, Repr

/-- What a chase reports to its caller. -/
structure PlaceResult where
  order : Option PlacedOrder
  clientIdUsed : Option String
  priceUsed : Option ℚ
  chaseCount : ℤ
  postOnlyRejects : ℤ
  lastErr : Option String
  deriving DecidableEq, Repr

/-- The result before the first attempt. -/
def PlaceResult.start : PlaceResult := ⟨none, none, none, 0, 0, none⟩

/-! ## The two chases -/

/-- `build_client_order_id` and `next_client_order_id`. -/
def buildClientOrderId (clientPrefix : String) (key : PairKey) (tag : String) (now : ℤ) : String :=
  clientPrefix ++ ":" ++ toString key.1 ++ ":" ++ key.2.asStr ++ ":" ++ tag ++ "-" ++ toString now

/-- The amount both functions send: quote for a buy, base for a sell. -/
def orderAmount (side : OrderSide) (price qty : ℚ) : OrderAmount :=
  -- a buy is paid in the quote currency
  match side with
  | .buy => .quote (price * qty)
  | .sell => .base qty

/-- The loop of both functions over the remaining candidates.  `attempt i price`
is the `i`-th call; `checkMissing` is whether the error is first searched for a
missing order id, which only `place_with_chase` does. -/
def chaseLoop (u : LowerTable) (checkMissing : Bool) (attempt : ℕ → ℚ → Submission) :
    ℕ → PlaceResult → List ℚ → PlaceResult × List Submission
  -- no candidate is left: the last error stands
  | _, acc, [] => (acc, [])
  | i, acc, price :: rest =>
    let sub := attempt i price
    -- every attempt counts, whatever becomes of it
    let acc := { acc with chaseCount := acc.chaseCount + 1 }
    match sub.reply.result with
    | .ok orderId =>
      -- accepted: the chase reports this order
      ({ acc with
          order := some ⟨orderId, some sub.clientId⟩
          clientIdUsed := some sub.clientId
          priceUsed := some price
          lastErr := none }, [sub])
    | .error err =>
      -- an order without an id: no further attempt, only its client id is known
      if checkMissing = true ∧ isOrderIdMissing u err then
        ({ acc with
            clientIdUsed := some sub.clientId
            priceUsed := some price
            lastErr := some "order_id_missing" }, [sub])
      -- a price that would take: on to the next one
      else if isPostOnlyReject u err then
        let next := chaseLoop u checkMissing attempt (i + 1)
          { acc with postOnlyRejects := acc.postOnlyRejects + 1, lastErr := some err } rest
        (next.1, sub :: next.2)
      -- any other error ends the chase
      else
        ({ acc with lastErr := some err }, [sub])

/-- The `i`-th call of a chase: the clock and the reply are the environment's. -/
def chaseAttempt (key : PairKey) (side : OrderSide) (qty : ℚ) (clientPrefix tag : String)
    (clock : ℕ → ℤ) (replies : ℕ → PlaceReply) (i : ℕ) (price : ℚ) : Submission where
  side := side
  price := price
  amount := orderAmount side price qty
  clientId := buildClientOrderId clientPrefix key tag (clock i)
  reply := replies i

/-- `place_with_chase`, with the calls it makes. -/
def placeWithChase (u : LowerTable) (client : Bool) (key : PairKey) (side : OrderSide) (qty : ℚ)
    (clientPrefix tag : String) (clock : ℕ → ℤ) (replies : ℕ → PlaceReply)
    (candidatePrices : List ℚ) : PlaceResult × List Submission :=
  if client then
    chaseLoop u true (chaseAttempt key side qty clientPrefix tag clock replies) 0
      PlaceResult.start candidatePrices
  else
    -- without a client nothing is called
    ({ PlaceResult.start with lastErr := some "opinion client unavailable" }, [])

/-- `place_live_order`: the checks made before the client is called. -/
def placeLiveOrder (target client : Bool) (reply : PlaceReply) : PlaceReply :=
  -- the token mapping is checked before the client
  if target then
    if client then reply else .notSent "opinion client unavailable"
  else .notSent "missing opinion token mapping"

/-- `place_exit_with_chase` on its candidate prices, with the calls it makes. -/
def placeExitWithChase (u : LowerTable) (target client : Bool) (key : PairKey) (side : OrderSide)
    (qty : ℚ) (clientPrefix : String) (clock : ℕ → ℤ) (replies : ℕ → PlaceReply)
    (candidates : List ℚ) : PlaceResult × List Submission :=
  chaseLoop u false
    (chaseAttempt key side qty clientPrefix "X" clock
      (fun i => placeLiveOrder target client (replies i))) 0 PlaceResult.start candidates

/-! ## One attempt -/

/-- The loop goes on to the next candidate after this reply. -/
def PlaceReply.Retried (u : LowerTable) (checkMissing : Bool) (r : PlaceReply) : Prop :=
  ∃ err, r.result = .error err ∧ ¬ (checkMissing = true ∧ isOrderIdMissing u err) ∧
    isPostOnlyReject u err

/-- A retried reply is a definite rejection or a misread one, and nothing else. -/
theorem retried_iff (u : LowerTable) (checkMissing : Bool) (r : PlaceReply) :
    r.Retried u checkMissing ↔
      (r.DefinitePostOnlyReject u ∨ r.Misread u) ∧
        ¬ (checkMissing = true ∧ r.SaysIdMissing u) := by
  cases r with
  | accepted orderId =>
    simp [PlaceReply.Retried, PlaceReply.result, PlaceReply.DefinitePostOnlyReject,
      PlaceReply.Misread]
  | acceptedNoId =>
    simp [PlaceReply.Retried, PlaceReply.result, PlaceReply.DefinitePostOnlyReject,
      PlaceReply.Misread, orderIdMissingText_not_isPostOnlyReject]
  | apiError errno errmsg =>
    -- the exchange answered, so its text is definite
    simp [PlaceReply.Retried, PlaceReply.result, PlaceReply.DefinitePostOnlyReject,
      PlaceReply.Misread, PlaceReply.SaysIdMissing, and_comm]
  | httpError url status body =>
    -- every HTTP error text has the word "post" in it
    simp [PlaceReply.Retried, PlaceReply.result, PlaceReply.DefinitePostOnlyReject,
      PlaceReply.Misread, PlaceReply.SaysIdMissing, httpErrorText_isPostOnlyReject]
  | requestFailed =>
    -- a request without an answer stops the chase
    simp [PlaceReply.Retried, PlaceReply.result, PlaceReply.DefinitePostOnlyReject,
      PlaceReply.Misread, requestFailedText_not_isPostOnlyReject]
  | parseFailed raw =>
    simp [PlaceReply.Retried, PlaceReply.result, PlaceReply.DefinitePostOnlyReject,
      PlaceReply.Misread, PlaceReply.SaysIdMissing, and_comm]
  | notSent text =>
    simp [PlaceReply.Retried, PlaceReply.result, PlaceReply.DefinitePostOnlyReject,
      PlaceReply.Misread, PlaceReply.SaysIdMissing, and_comm]

theorem not_mayBeAccepted_of_definite {u : LowerTable} {r : PlaceReply}
    (h : r.DefinitePostOnlyReject u) : r.mayBeAccepted = false := by
  cases r with
  | apiError errno errmsg => rfl
  -- all other replies are no rejection by the exchange
  | _ => exact h.elim

theorem not_misread_of_definite {u : LowerTable} {r : PlaceReply}
    (h : r.DefinitePostOnlyReject u) : ¬ r.Misread u := by
  cases r with
  | apiError errno errmsg => exact id
  | _ => exact h.elim

theorem missingTarget_not_misread (u : LowerTable) :
    ¬ isPostOnlyReject u "missing opinion token mapping" := by
  have hlow := toLowercase_ascii u "missing opinion token mapping" (by decide +kernel)
  simp only [isPostOnlyReject, hlow]
  decide +kernel

theorem missingClient_not_misread (u : LowerTable) :
    ¬ isPostOnlyReject u "opinion client unavailable" := by
  have hlow := toLowercase_ascii u "opinion client unavailable" (by decide +kernel)
  simp only [isPostOnlyReject, hlow]
  decide +kernel

/-- What the loop has called after its first candidate. -/
theorem chaseLoop_log_cons (u : LowerTable) (checkMissing : Bool) (attempt : ℕ → ℚ → Submission)
    (i : ℕ) (acc : PlaceResult) (price : ℚ) (rest : List ℚ) :
    (¬ (attempt i price).reply.Retried u checkMissing ∧
      (chaseLoop u checkMissing attempt i acc (price :: rest)).2 = [attempt i price]) ∨
    ((attempt i price).reply.Retried u checkMissing ∧
      ∃ acc', (chaseLoop u checkMissing attempt i acc (price :: rest)).2 =
        attempt i price :: (chaseLoop u checkMissing attempt (i + 1) acc' rest).2) := by
  cases hr : (attempt i price).reply.result with
  | ok orderId => simp [chaseLoop, PlaceReply.Retried, hr]
  | error err =>
    -- the two checks on the error, in the loop's order
    by_cases hm : checkMissing = true ∧ isOrderIdMissing u err
    · simp [chaseLoop, PlaceReply.Retried, hr, hm]
    · by_cases hp : isPostOnlyReject u err
      · right
        simp only [chaseLoop, hr, hm, hp, if_true, if_false]
        exact ⟨⟨err, hr, hm, hp⟩, _, rfl⟩
      · left
        simp [chaseLoop, PlaceReply.Retried, hr, hm, hp]

/-! ## What the caller is told -/

/-- The order id of an accepted call. -/
def PlaceReply.acceptedId : PlaceReply → Option String
  | .accepted orderId => some orderId
  | _ => none

/-- A reply is a success exactly when it carries an order id. -/
theorem acceptedId_eq_some_iff (r : PlaceReply) (orderId : String) :
    r.acceptedId = some orderId ↔ r.result = .ok orderId := by
  cases r <;> simp [PlaceReply.acceptedId, PlaceReply.result]

theorem acceptedId_of_error {r : PlaceReply} {err : String} (h : r.result = .error err) :
    r.acceptedId = none := by
  cases r <;> simp_all [PlaceReply.acceptedId, PlaceReply.result]

/-- The result of a chase and the calls it made belong together. -/
structure ChaseOutcome (side : OrderSide) (qty : ℚ) (prices : List ℚ) (result : PlaceResult)
    (log : List Submission) : Prop where
  calls : ∀ sub ∈ log, sub.side = side ∧ sub.amount = orderAmount side sub.price qty ∧
    sub.price ∈ prices
  /-- The orders accepted with an id are exactly the one that is reported. -/
  reported : log.filterMap (·.reply.acceptedId) = (result.order.map (·.orderId)).toList
  priced : ∀ price, result.priceUsed = some price → price ∈ prices

theorem chaseLoop_outcome (u : LowerTable) (checkMissing : Bool) (key : PairKey)
    (side : OrderSide) (qty : ℚ) (clientPrefix tag : String) (clock : ℕ → ℤ)
    (replies : ℕ → PlaceReply) (i : ℕ) (acc : PlaceResult) (prices : List ℚ)
    (horder : acc.order = none) (hprice : acc.priceUsed = none) :
    let attempt := chaseAttempt key side qty clientPrefix tag clock replies
    ChaseOutcome side qty prices (chaseLoop u checkMissing attempt i acc prices).1
      (chaseLoop u checkMissing attempt i acc prices).2 := by
  intro attempt
  induction prices generalizing i acc with
  | nil => exact ⟨by simp [chaseLoop], by simp [chaseLoop, horder], by simp [chaseLoop, hprice]⟩
  | cons price rest ih =>
    -- the accumulator has no order yet
    have hsub : (attempt i price).side = side ∧
        (attempt i price).amount = orderAmount side (attempt i price).price qty ∧
        (attempt i price).price ∈ price :: rest := ⟨rfl, rfl, List.mem_cons_self⟩
    cases hr : (attempt i price).reply.result with
    | ok orderId =>
      -- accepted: this order is reported, and no call comes after it
      have hid := (acceptedId_eq_some_iff _ _).mpr hr
      simp only [chaseLoop, hr]
      refine ⟨?_, ?_, ?_⟩
      · intro sub hmem
        rw [List.mem_singleton.mp hmem]
        exact hsub
      · simp [hid]
      · intro p hp
        exact List.mem_cons.mpr (Or.inl (Option.some.inj hp).symm)
    | error err =>
      have hid := acceptedId_of_error hr
      by_cases hm : checkMissing = true ∧ isOrderIdMissing u err
      · simp only [chaseLoop, hr, if_pos hm]
        refine ⟨?_, ?_, ?_⟩
        · intro sub hmem
          rw [List.mem_singleton.mp hmem]
          exact hsub
        · simp [hid, horder]
        · intro p hp
          exact List.mem_cons.mpr (Or.inl (Option.some.inj hp).symm)
      · by_cases hp : isPostOnlyReject u err
        · simp only [chaseLoop, hr, if_neg hm, if_pos hp]
          obtain ⟨hcalls, hreported, hpriced⟩ := ih (i + 1)
            { acc with
              chaseCount := acc.chaseCount + 1
              postOnlyRejects := acc.postOnlyRejects + 1
              lastErr := some err } horder hprice
          refine ⟨?_, ?_, ?_⟩
          · intro sub hmem
            rcases List.mem_cons.mp hmem with rfl | hmem
            · exact hsub
            · obtain ⟨hside, hamount, hmem'⟩ := hcalls sub hmem
              exact ⟨hside, hamount, List.mem_cons_of_mem _ hmem'⟩
          · simp only [List.filterMap_cons, hid]
            exact hreported
          · intro p hp'
            exact List.mem_cons_of_mem _ (hpriced p hp')
        · simp only [chaseLoop, hr, if_neg hm, if_neg hp]
          refine ⟨?_, ?_, ?_⟩
          · intro sub hmem
            rw [List.mem_singleton.mp hmem]
            exact hsub
          · simp [hid, horder]
          · intro p hp'
            exact absurd (hprice.symm.trans hp') (by simp)

/-- The exit chase reports the order it got accepted, and no other was. -/
theorem placeExitWithChase_outcome (u : LowerTable) (target client : Bool) (key : PairKey)
    (side : OrderSide) (qty : ℚ) (clientPrefix : String) (clock : ℕ → ℤ)
    (replies : ℕ → PlaceReply) (candidates : List ℚ) :
    ChaseOutcome side qty candidates
      (placeExitWithChase u target client key side qty clientPrefix clock replies candidates).1
      (placeExitWithChase u target client key side qty clientPrefix clock replies candidates).2 :=
  chaseLoop_outcome u false key side qty clientPrefix "X" clock _ 0 PlaceResult.start candidates
    rfl rfl

/-! ## When a chase is safe -/

/-- The next candidate is submitted only after a definite post-only rejection of
the one before, and at most one call can have been accepted. -/
def ChaseSafe (u : LowerTable) (log : List Submission) : Prop :=
  log.IsChain (fun sub _ => sub.reply.DefinitePostOnlyReject u) ∧
    (log.filter (·.reply.mayBeAccepted)).length ≤ 1

/-- Reply `i` is reached by the chase through definite rejections alone, and is
itself misread (without being taken for a missing order id). -/
def FirstMisread (u : LowerTable) (checkMissing : Bool) (replies : ℕ → PlaceReply) (i : ℕ) : Prop :=
  (∀ j < i, (replies j).DefinitePostOnlyReject u ∧
      ¬ (checkMissing = true ∧ (replies j).SaysIdMissing u)) ∧
    (replies i).Misread u ∧ ¬ (checkMissing = true ∧ (replies i).SaysIdMissing u)

/-- A chain of definite rejections leaves at most its last call accepted. -/
theorem accepted_le_one_of_isChain {u : LowerTable} {log : List Submission}
    (h : log.IsChain (fun sub _ => sub.reply.DefinitePostOnlyReject u)) :
    (log.filter (·.reply.mayBeAccepted)).length ≤ 1 := by
  induction log with
  | nil => simp
  | cons sub rest ih =>
    cases rest with
    | nil => exact (List.length_filter_le _ _).trans (by simp)
    | cons next rest =>
      obtain ⟨hdef, hrest⟩ := List.isChain_cons_cons.mp h
      have hfalse := not_mayBeAccepted_of_definite hdef
      rw [List.filter_cons_of_neg (by simp [hfalse])]
      exact ih hrest

theorem chaseSafe_iff_isChain (u : LowerTable) (log : List Submission) :
    ChaseSafe u log ↔ log.IsChain (fun sub _ => sub.reply.DefinitePostOnlyReject u) :=
  ⟨fun h => h.1, fun h => ⟨h, accepted_le_one_of_isChain h⟩⟩

/-- The log of the loop on a non-empty list starts with the first attempt. -/
theorem chaseLoop_log_head (u : LowerTable) (checkMissing : Bool) (attempt : ℕ → ℚ → Submission)
    (i : ℕ) (acc : PlaceResult) (price : ℚ) (rest : List ℚ) :
    ∃ tail, (chaseLoop u checkMissing attempt i acc (price :: rest)).2 =
      attempt i price :: tail := by
  rcases chaseLoop_log_cons u checkMissing attempt i acc price rest with ⟨_, h⟩ | ⟨_, acc', h⟩
  · exact ⟨[], h⟩
  · exact ⟨_, h⟩

/-- The loop is safe exactly when no reply but the last candidate's is reached
and misread. -/
theorem chaseLoop_isChain_iff (u : LowerTable) (checkMissing : Bool)
    (attempt : ℕ → ℚ → Submission) (replies : ℕ → PlaceReply)
    (hreply : ∀ i price, (attempt i price).reply = replies i)
    (i : ℕ) (acc : PlaceResult) (prices : List ℚ) :
    (chaseLoop u checkMissing attempt i acc prices).2.IsChain
        (fun sub _ => sub.reply.DefinitePostOnlyReject u) ↔
      ∀ k, k + 1 < prices.length → ¬ FirstMisread u checkMissing (fun j => replies (i + j)) k := by
  induction prices generalizing i acc with
  | nil => simp [chaseLoop]
  | cons price rest ih =>
    rcases chaseLoop_log_cons u checkMissing attempt i acc price rest with
      ⟨hstop, hlog⟩ | ⟨hretry, acc', hlog⟩
    · -- the chase ends here: no later reply is reached
      rw [hreply, retried_iff] at hstop
      rw [hlog]
      refine ⟨fun _ k _ hfirst => ?_, fun _ => List.isChain_singleton _⟩
      cases k with
      | zero => exact hstop ⟨Or.inr hfirst.2.1, hfirst.2.2⟩
      | succ k =>
        have h0 := hfirst.1 0 k.succ_pos
        exact hstop ⟨Or.inl h0.1, h0.2⟩
    · rw [hreply, retried_iff] at hretry
      rw [hlog]
      cases rest with
      | nil => simp [chaseLoop]
      | cons next rest =>
        obtain ⟨tail, htail⟩ :=
          chaseLoop_log_head u checkMissing attempt (i + 1) acc' next rest
        have hih := ih (i + 1) acc'
        rw [htail] at hih ⊢
        rw [List.isChain_cons_cons, hih, hreply]
        constructor
        · rintro ⟨hdef, hlater⟩ k hk hfirst
          cases k with
          | zero => exact not_misread_of_definite hdef hfirst.2.1
          | succ k =>
            refine hlater k (by simpa using hk) ⟨fun j hj => ?_, ?_⟩
            · simpa [Nat.add_assoc, Nat.add_comm 1 j] using hfirst.1 (j + 1) (by omega)
            · simpa [Nat.add_assoc, Nat.add_comm 1 k] using hfirst.2
        · intro hall
          have hdef : (replies i).DefinitePostOnlyReject u := by
            rcases hretry.1 with hdef | hmis
            · exact hdef
            · exact (hall 0 (by simp) ⟨by simp, hmis, hretry.2⟩).elim
          refine ⟨hdef, fun k hk hfirst => hall (k + 1) (by simpa using hk) ⟨?_, ?_⟩⟩
          · intro j hj
            cases j with
            | zero => exact ⟨hdef, hretry.2⟩
            | succ j =>
              simpa [Nat.add_assoc, Nat.add_comm 1 j] using hfirst.1 j (by omega)
          · simpa [Nat.add_assoc, Nat.add_comm 1 k] using hfirst.2

/-- `place_with_chase` and `place_exit_with_chase` keep the chase safe exactly
when no attempt before the last candidate is reached and misread: an HTTP error
of any status, or an unparsable body or a local failure whose text contains one
of the searched words.  Only `place_with_chase` is saved by a text that also
says that the order id is missing. -/
theorem chase_safe_iff_no_misread (u : LowerTable) (target client : Bool) (key : PairKey)
    (side : OrderSide) (qty : ℚ) (clientPrefix tag : String) (clock : ℕ → ℤ)
    (replies : ℕ → PlaceReply) (prices : List ℚ) :
    (ChaseSafe u (placeWithChase u client key side qty clientPrefix tag clock replies prices).2 ↔
      (client = true → ∀ i, i + 1 < prices.length → ¬ FirstMisread u true replies i)) ∧
    (ChaseSafe u
        (placeExitWithChase u target client key side qty clientPrefix clock replies prices).2 ↔
      (target = true → client = true →
        ∀ i, i + 1 < prices.length → ¬ FirstMisread u false replies i)) := by
  constructor
  · rw [chaseSafe_iff_isChain]
    cases client with
    | false => simp [placeWithChase]
    | true =>
      simp only [placeWithChase, if_true, forall_const]
      rw [chaseLoop_isChain_iff u true _ replies (fun i price => rfl)]
      simp only [Nat.zero_add]
  · rw [chaseSafe_iff_isChain, placeExitWithChase,
      chaseLoop_isChain_iff u false _ (fun i => placeLiveOrder target client (replies i))
        (fun i price => rfl)]
    simp only [Nat.zero_add]
    cases target with
    | false => simp [placeLiveOrder, FirstMisread, PlaceReply.Misread, missingTarget_not_misread]
    | true =>
      cases client with
      | false => simp [placeLiveOrder, FirstMisread, PlaceReply.Misread, missingClient_not_misread]
      | true => simp [placeLiveOrder]

/-- A lower-case table that leaves every non-ASCII character alone. -/
def asciiLower : LowerTable := fun _ _ c => [c]

/-- The first candidate is answered by a gateway error, which may come after the
exchange has taken the order; the second candidate is submitted and accepted. -/
def gatewayErrorReplies : ℕ → PlaceReply
  | 0 => .httpError "https://proxy.opinion.trade/openapi/order" "502 Bad Gateway" ""
  | _ => .accepted "o-2"

/-- With two candidates and a 502 on the first, both functions submit the second
one, and both orders may be in the book. -/
theorem chase_unsafe_on_gateway_error :
    ¬ ChaseSafe asciiLower (placeWithChase asciiLower true (7, .yes) .buy 100 "alpha" "E"
        (fun i => i) gatewayErrorReplies [1 / 2, 49 / 100]).2 ∧
      ¬ ChaseSafe asciiLower (placeExitWithChase asciiLower true true (7, .yes) .sell 100 "alpha"
        (fun i => i) gatewayErrorReplies [1 / 2, 51 / 100]).2 := by
  have hpost := httpErrorText_isPostOnlyReject asciiLower
    "https://proxy.opinion.trade/openapi/order" "502 Bad Gateway" ""
  have hmissing : ¬ isOrderIdMissing asciiLower (httpErrorText "POST"
      "https://proxy.opinion.trade/openapi/order" "502 Bad Gateway" "") := by
    decide +kernel
  constructor
  · intro h
    have hlen := h.2
    simp [placeWithChase, chaseLoop, chaseAttempt, gatewayErrorReplies, PlaceReply.result,
      hpost, hmissing, PlaceReply.mayBeAccepted] at hlen
  · intro h
    have hlen := h.2
    simp [placeExitWithChase, placeLiveOrder, chaseLoop, chaseAttempt, gatewayErrorReplies,
      PlaceReply.result, hpost, PlaceReply.mayBeAccepted] at hlen

end AlphaMonitor.Trade
