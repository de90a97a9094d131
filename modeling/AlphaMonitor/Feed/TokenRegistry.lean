import AlphaMonitor.Feed.UserMessages
import AlphaMonitor.Lib.Groups

/-!
# The registry of tokens

Messages of the user channel name a market and a side; the registry turns them into the pairs
to inform.  It does so in two steps: one map has a token key for each market and side, another
the pairs of each token key.  Registering a pair overwrites the key of its market and side, and
enrols the pair under its own keys only.

## Main definitions

- `RegistryState`, `registryAfter`: the maps, after the pairs and the tokens learnt later
- `resolveOpiUserTarget`: the pairs that a message of the user channel is sent to
- `SharedRoute`: the pairs on the market share the key that is looked up

## Main results

- `mem_tokenPairs_build`: who is enrolled under a token key
- `opiMarketSideKey_build`: the key of a market and side is the one written last
- `user_message_reaches_iff`: every pair on the market is informed just in case they share the key
-/

namespace AlphaMonitor.Feed

open Trade

/-! ## Keys -/

/-- The columns of a pair that its registration reads. -/
structure PairRecord where
  pairId : ℤ
  (opinionMarketId opinionYesTokenId opinionNoTokenId : Option String)
  (polymarketMarketId polymarketYesTokenId polymarketNoTokenId : Option String)
  deriving DecidableEq, Repr

/-- `!trim().is_empty()`. -/
def hasText (text : String) : Bool := text.toList.any fun c => !isWhiteSpace c

/-- `token_key_opinion`. -/
def tokenKeyOpinion (tokenId marketId : Option String) (outcomeSide : ℤ) : String :=
  match tokenId.filter hasText with
  | some tokenId => "opi:token:" ++ tokenId
  | none => "opi:market:" ++ marketId.getD "unknown" ++ ":" ++ toString outcomeSide

/-- `token_key_polymarket`. -/
def tokenKeyPolymarket (tokenId marketId : Option String) (side : TokenSide) : String :=
  match tokenId.filter hasText with
  | some tokenId => "pm:asset:" ++ tokenId
  | none => "pm:market:" ++ marketId.getD "unknown" ++ ":" ++ side.asStr

namespace PairRecord

/-- The token of a side of the Opinion market. -/
def opinionTokenId (pair : PairRecord) (outcomeSide : ℤ) : Option String :=
  if outcomeSide = 1 then pair.opinionYesTokenId else pair.opinionNoTokenId

/-- The key of a side of the Opinion market: `opinion_token_keys` has both. -/
def opinionTokenKey (pair : PairRecord) (outcomeSide : ℤ) : String :=
  tokenKeyOpinion (pair.opinionTokenId outcomeSide) pair.opinionMarketId outcomeSide

/-- `polymarket_token_keys`. -/
def polymarketTokenKeys (pair : PairRecord) : String × String :=
  (tokenKeyPolymarket pair.polymarketYesTokenId pair.polymarketMarketId .yes,
    tokenKeyPolymarket pair.polymarketNoTokenId pair.polymarketMarketId .no)

/-- The market under which the sides of the pair are looked up; the empty text if it has none. -/
def lookupMarket (pair : PairRecord) : String := pair.opinionMarketId.getD ""

/-- All keys under which the pair is enrolled when it is registered. -/
def tokenKeys (pair : PairRecord) : List String :=
  [pair.opinionTokenKey 1, pair.opinionTokenKey 2, pair.polymarketTokenKeys.1,
    pair.polymarketTokenKeys.2]

end PairRecord

/-! ## The registry -/

/-- `RegistryState`: the maps that the routing of user messages reads. -/
structure RegistryState where
  tokenPairs : String → List ℤ
  tokenSides : String → Option TokenSide
  opiMarketPairs : String → List ℤ
  opiMarketSideKey : String × ℤ → Option String
  opiExpectedTokenId : String × ℤ → Option String

namespace RegistryState

def empty : RegistryState where
  tokenPairs := fun _ => []
  tokenSides := fun _ => none
  opiMarketPairs := fun _ => []
  opiMarketSideKey := fun _ => none
  opiExpectedTokenId := fun _ => none

/-- `register_token`. -/
def registerToken (st : RegistryState) (tokenKey : String) (tokenSide : TokenSide) (pairId : ℤ) :
    RegistryState :=
  { st with
    tokenPairs := Lib.enroll st.tokenPairs tokenKey [pairId]
    tokenSides := Function.update st.tokenSides tokenKey (some tokenSide) }

/-- The part of `build` for one side of the Opinion market of a pair. -/
def registerOpinionSide (st : RegistryState) (pair : PairRecord) (outcomeSide : ℤ)
    (tokenSide : TokenSide) : RegistryState :=
  let st := st.registerToken (pair.opinionTokenKey outcomeSide) tokenSide pair.pairId
  { st with
    -- the key of an earlier pair on the market is overwritten
    opiMarketSideKey := Function.update st.opiMarketSideKey (pair.lookupMarket, outcomeSide)
      (some (pair.opinionTokenKey outcomeSide))
    opiExpectedTokenId :=
      match pair.opinionTokenId outcomeSide with
      | some tokenId =>
        Function.update st.opiExpectedTokenId (pair.lookupMarket, outcomeSide) (some tokenId)
      | none => st.opiExpectedTokenId }

/-- The part of `build` that enters the pair under its market. -/
def registerMarket (st : RegistryState) (pair : PairRecord) : RegistryState :=
  { st with
    opiMarketPairs :=
      match pair.opinionMarketId with
      | some marketId => Lib.enroll st.opiMarketPairs marketId [pair.pairId]
      | none => st.opiMarketPairs }

/-- The loop body of `build`. -/
def registerPair (st : RegistryState) (pair : PairRecord) : RegistryState :=
  ((((st.registerMarket pair).registerOpinionSide pair 1 .yes).registerOpinionSide pair 2 .no
    ).registerToken pair.polymarketTokenKeys.1 .yes pair.pairId
    ).registerToken pair.polymarketTokenKeys.2 .no pair.pairId

/-- `TokenRegistry::build`. -/
def build (pairs : List PairRecord) : RegistryState := pairs.foldl registerPair empty

/-- `token_side_for_opi`. -/
def tokenSideForOpi (outcomeSide : ℤ) : TokenSide :=
  if outcomeSide = 1 then .yes else if outcomeSide = 2 then .no else .unknown

/-- `ensure_opi_token`: the registry, and what is returned of the token. -/
def ensureOpiToken (st : RegistryState) (marketId : String) (outcomeSide : ℤ) (tokenId : String) :
    RegistryState × String × Bool × Bool × List ℤ :=
  let tokenKey := "opi:token:" ++ tokenId
  let prev := st.opiExpectedTokenId (marketId, outcomeSide)
  let isNew := prev.isNone
  let mismatch := (prev.map fun v => v != tokenId).getD false
  let pairs := st.opiMarketPairs marketId
  ({ st with
      opiExpectedTokenId :=
        Function.update st.opiExpectedTokenId (marketId, outcomeSide) (some tokenId)
      opiMarketSideKey :=
        Function.update st.opiMarketSideKey (marketId, outcomeSide) (some tokenKey)
      tokenSides := Function.update st.tokenSides tokenKey (some (tokenSideForOpi outcomeSide))
      tokenPairs := Lib.enroll st.tokenPairs tokenKey pairs },
    tokenKey, mismatch, isNew, pairs)

/-- `token_key_for_opi_market`. -/
def tokenKeyForOpiMarket (st : RegistryState) (marketId : String) (outcomeSide : ℤ) :
    Option String :=
  st.opiMarketSideKey (marketId, outcomeSide)

/-- `resolve_opi_user_target`. -/
def resolveOpiUserTarget (st : RegistryState) (marketId : String) (outcomeSide : ℤ) :
    String × TokenSide × List ℤ :=
  let tokenKey := (st.tokenKeyForOpiMarket marketId outcomeSide).getD
    (tokenKeyOpinion none (some marketId) outcomeSide)
  (tokenKey, (st.tokenSides tokenKey).getD (tokenSideForOpi outcomeSide), st.tokenPairs tokenKey)

/-- The targets that `handle_user_message` reads. -/
def userTargets (st : RegistryState) (marketId : String) (outcomeSide : ℤ) : TokenSide × List ℤ :=
  (st.resolveOpiUserTarget marketId outcomeSide).2

end RegistryState

/-- The arguments of a call of `ensure_opi_token`. -/
structure EnsureCall where
  marketId : String
  outcomeSide : ℤ
  tokenId : String
  deriving DecidableEq, Repr

/-- The key that a call registers. -/
def EnsureCall.tokenKey (call : EnsureCall) : String := "opi:token:" ++ call.tokenId

/-- The market and side that a call names. -/
def EnsureCall.place (call : EnsureCall) : String × ℤ := (call.marketId, call.outcomeSide)

/-- The registry after the pairs were registered and the calls made. -/
def registryAfter (pairs : List PairRecord) (calls : List EnsureCall) : RegistryState :=
  calls.foldl (fun st call => (st.ensureOpiToken call.marketId call.outcomeSide call.tokenId).1)
    (RegistryState.build pairs)

/-! ## Who is enrolled -/

theorem tokenKeyPolymarket_ne (tokenId tokenId' marketId marketId' : Option String)
    (side : TokenSide) (outcomeSide : ℤ) :
    tokenKeyPolymarket tokenId marketId side ≠ tokenKeyOpinion tokenId' marketId' outcomeSide := by
  intro heq
  -- The first characters differ.
  have hhead := congrArg (fun key => key.toList.head?) heq
  unfold tokenKeyPolymarket tokenKeyOpinion at hhead
  split at hhead <;> split at hhead <;> simp [String.toList_append] at hhead

/-- The keys that are looked up for a pair's market. -/
def PairRecord.opinionTokenKeys (pair : PairRecord) : List String :=
  [pair.opinionTokenKey 1, pair.opinionTokenKey 2]

/-- A key of the Opinion market is no key of the other venue. -/
theorem PairRecord.mem_tokenKeys (pair : PairRecord) {tokenId marketId : Option String}
    {outcomeSide : ℤ} :
    tokenKeyOpinion tokenId marketId outcomeSide ∈ pair.tokenKeys ↔
      tokenKeyOpinion tokenId marketId outcomeSide ∈ pair.opinionTokenKeys := by
  simp [tokenKeys, opinionTokenKeys, polymarketTokenKeys,
    (tokenKeyPolymarket_ne _ _ _ _ _ _).symm]

namespace RegistryState

variable {st : RegistryState} {pair : PairRecord} {y : ℤ}

theorem mem_tokenPairs_registerPair {key : String} :
    y ∈ (st.registerPair pair).tokenPairs key ↔
      y ∈ st.tokenPairs key ∨ (pair.pairId = y ∧ key ∈ pair.tokenKeys) := by
  simp only [registerPair, registerToken, registerOpinionSide, registerMarket, Lib.mem_enroll,
    PairRecord.tokenKeys, List.mem_cons, List.not_mem_nil, or_false]
  grind

theorem mem_opiMarketPairs_registerPair {marketId : String} :
    y ∈ (st.registerPair pair).opiMarketPairs marketId ↔
      y ∈ st.opiMarketPairs marketId ∨ (pair.pairId = y ∧ pair.opinionMarketId = some marketId) := by
  simp only [registerPair, registerToken, registerOpinionSide, registerMarket]
  cases pair.opinionMarketId with
  | some marketId' =>
    rw [Lib.mem_enroll]
    grind
  | none => simp

/-- Registering a pair writes the keys of both sides of its market. -/
theorem opiMarketSideKey_registerPair :
    (st.registerPair pair).opiMarketSideKey = Lib.assign st.opiMarketSideKey
      [((pair.lookupMarket, 1), pair.opinionTokenKey 1),
        ((pair.lookupMarket, 2), pair.opinionTokenKey 2)] :=
  rfl

/-! ## Runs of registrations -/

variable {pairs : List PairRecord} {key marketId : String}

theorem mem_tokenPairs_build :
    y ∈ (build pairs).tokenPairs key ↔ ∃ pair ∈ pairs, pair.pairId = y ∧ key ∈ pair.tokenKeys := by
  induction pairs using List.reverseRecOn with
  | nil => simp [build, empty]
  | append_singleton pairs pair ih =>
    have hstep : build (pairs ++ [pair]) = (build pairs).registerPair pair := by simp [build]
    rw [hstep, mem_tokenPairs_registerPair, ih]
    simp [or_and_right, exists_or]

theorem mem_opiMarketPairs_build :
    y ∈ (build pairs).opiMarketPairs marketId ↔
      ∃ pair ∈ pairs, pair.pairId = y ∧ pair.opinionMarketId = some marketId := by
  induction pairs using List.reverseRecOn with
  | nil => simp [build, empty]
  | append_singleton pairs pair ih =>
    have hstep : build (pairs ++ [pair]) = (build pairs).registerPair pair := by simp [build]
    rw [hstep, mem_opiMarketPairs_registerPair, ih]
    simp [or_and_right, exists_or]

/-- The key of a side is that of the pair registered last under the market. -/
theorem opiMarketSideKey_build {outcomeSide : ℤ} (hside : outcomeSide = 1 ∨ outcomeSide = 2) :
    (build pairs).opiMarketSideKey (marketId, outcomeSide) =
      (Lib.lastRow PairRecord.lookupMarket marketId pairs).map fun last =>
        last.opinionTokenKey outcomeSide := by
  induction pairs using List.reverseRecOn with
  | nil => rfl
  | append_singleton pairs pair ih =>
    have hstep : build (pairs ++ [pair]) = (build pairs).registerPair pair := by simp [build]
    rw [hstep, opiMarketSideKey_registerPair, Lib.assign_apply, ih, Lib.lastRow_append_singleton]
    by_cases hmarket : pair.lookupMarket = marketId
    · -- The pair writes both sides at once.
      rcases hside with rfl | rfl <;> simp [hmarket, Lib.lastRow_cons]
    · simp [hmarket, Lib.lastRow_cons]

/-! ## Runs of calls -/

/-- What a registry with the given pairs holds once the calls were made. -/
structure After (pairs : List PairRecord) (calls : List EnsureCall) (st : RegistryState) : Prop where
  members : ∀ key y, y ∈ st.tokenPairs key ↔ ∃ pair ∈ pairs, pair.pairId = y ∧
    (key ∈ pair.tokenKeys ∨
      ∃ call ∈ calls, pair.opinionMarketId = some call.marketId ∧ call.tokenKey = key)
  onMarket : ∀ marketId y, y ∈ st.opiMarketPairs marketId ↔
    ∃ pair ∈ pairs, pair.pairId = y ∧ pair.opinionMarketId = some marketId
  pointer : ∀ k, st.opiMarketSideKey k =
    ((Lib.lastRow EnsureCall.place k calls).map
      EnsureCall.tokenKey).or ((build pairs).opiMarketSideKey k)

theorem After.ensure {calls : List EnsureCall} (h : After pairs calls st) (call : EnsureCall) :
    After pairs (calls ++ [call])
      (st.ensureOpiToken call.marketId call.outcomeSide call.tokenId).1 := by
  constructor
  · intro key y
    simp only [ensureOpiToken, Lib.mem_enroll, h.members, h.onMarket]
    constructor
    · -- Either the pair was enrolled before, or the call enrols all pairs on its market.
      rintro (⟨pair, hpair, hy, hkey⟩ | ⟨hkey, pair, hpair, hy, hmarket⟩)
      · refine ⟨pair, hpair, hy, hkey.imp id ?_⟩
        rintro ⟨c, hc, hc'⟩
        exact ⟨c, List.mem_append_left _ hc, hc'⟩
      · exact ⟨pair, hpair, hy, .inr ⟨call, by simp, hmarket, hkey⟩⟩
    · rintro ⟨pair, hpair, hy, hkey | ⟨c, hc, hmarket, hkey⟩⟩
      · exact .inl ⟨pair, hpair, hy, .inl hkey⟩
      · rcases List.mem_append.mp hc with hc | hc
        · exact .inl ⟨pair, hpair, hy, .inr ⟨c, hc, hmarket, hkey⟩⟩
        · cases List.mem_singleton.mp hc
          exact .inr ⟨hkey, pair, hpair, hy, hmarket⟩
  · exact h.onMarket
  · intro k
    have hwrite : (st.ensureOpiToken call.marketId call.outcomeSide call.tokenId).1.opiMarketSideKey
        = Function.update st.opiMarketSideKey (call.marketId, call.outcomeSide)
          (some call.tokenKey) := rfl
    rw [hwrite, Lib.lastRow_append_singleton]
    by_cases hk : call.place = k
    · subst hk
      simp [EnsureCall.place]
    · have hk' : (call.marketId, call.outcomeSide) ≠ k := hk
      rw [Function.update_of_ne (Ne.symm hk'), if_neg hk, h.pointer]

end RegistryState

/-- The registry holds what the registrations and the calls entered. -/
theorem registryAfter_after (pairs : List PairRecord) (calls : List EnsureCall) :
    RegistryState.After pairs calls (registryAfter pairs calls) := by
  induction calls using List.reverseRecOn with
  | nil =>
    constructor
    · intro key y
      have hbuild : y ∈ (RegistryState.build pairs).tokenPairs key ↔ _ :=
        RegistryState.mem_tokenPairs_build
      simpa [registryAfter] using hbuild
    · exact fun marketId y => RegistryState.mem_opiMarketPairs_build
    · exact fun k => rfl
  | append_singleton calls call ih =>
    have hstep : registryAfter pairs (calls ++ [call]) =
        ((registryAfter pairs calls).ensureOpiToken call.marketId call.outcomeSide
          call.tokenId).1 := by
      simp [registryAfter]
    rw [hstep]
    exact ih.ensure call

/-! ## Who receives a message -/

/-- A message of the user channel that names a market, a side and an order. -/
structure IsUserMessage (msgType : String) (item : Json) (marketId : String) (outcomeSide : ℤ) :
    Prop where
  kind : msgType = "trade.order.update" ∨ msgType = "trade.record.new"
  market : (extractMarketId (userData item)).or (extractMarketId item) = some marketId
  side : ((extractOutcomeSide (userData item)).or (extractOutcomeSide item)).getD 0 = outcomeSide
  named : (extractOrderIdWs (userData item)).getD "" ≠ ""

/-- The pair that a message to the trade engine is about. -/
def receiver : TradeMessage → Option ℤ
  | .orderUpdate update => some update.pairId
  | .tradeRecord record => some record.pairId
  | _ => none

/-- The pairs that are informed of a message of the user channel. -/
def receivers (st : RegistryState) (msgType : String) (item : Json) : List ℤ :=
  (handleUserMessage st.userTargets msgType item).filterMap receiver

/-- The pairs of the target are informed, each once. -/
theorem receivers_eq {st : RegistryState} {msgType : String} {item : Json} {marketId : String}
    {outcomeSide : ℤ} (h : IsUserMessage msgType item marketId outcomeSide) :
    receivers st msgType item = (st.resolveOpiUserTarget marketId outcomeSide).2.2 := by
  obtain ⟨hkind, hmarket, hside, hnamed⟩ := h
  unfold receivers handleUserMessage
  simp only [hmarket, hside, if_neg hnamed, RegistryState.userTargets]
  -- Both kinds of messages go to the pairs of the same target.
  rcases hkind with rfl | rfl
  · rw [if_pos rfl, List.filterMap_map]
    exact List.filterMap_some
  · rw [if_neg (by decide), if_pos rfl, List.filterMap_map]
    exact List.filterMap_some

/-- The pair is enrolled under a key: it has it, or a call for its market registered it. -/
def EnrolledUnder (pairs : List PairRecord) (calls : List EnsureCall) (pairId : ℤ)
    (key : String) : Prop :=
  ∃ pair ∈ pairs, pair.pairId = pairId ∧ (key ∈ pair.opinionTokenKeys ∨
    ∃ call ∈ calls, pair.opinionMarketId = some call.marketId ∧ call.tokenKey = key)

/-- All pairs on the market are enrolled under the key of its side: a call named that side, or they
are enrolled under the key of the last of them. -/
def SharedRoute (pairs : List PairRecord) (calls : List EnsureCall) (marketId : String)
    (outcomeSide : ℤ) : Prop :=
  (∃ call ∈ calls, call.place = (marketId, outcomeSide)) ∨
    ∀ last, Lib.lastRow PairRecord.lookupMarket marketId pairs = some last →
      ∀ pair ∈ pairs, pair.opinionMarketId = some marketId →
        EnrolledUnder pairs calls pair.pairId (last.opinionTokenKey outcomeSide)

/-- A side that a call named is looked up under a key that all pairs on the market have. -/
theorem target_of_call {pairs : List PairRecord} {calls : List EnsureCall} {marketId : String}
    {outcomeSide : ℤ} {call : EnsureCall}
    (hcall : Lib.lastRow EnsureCall.place
      (marketId, outcomeSide) calls = some call) :
    ∀ pair ∈ pairs, pair.opinionMarketId = some marketId →
      pair.pairId ∈ ((registryAfter pairs calls).resolveOpiUserTarget marketId outcomeSide).2.2 := by
  intro pair hpair hmarket
  have hafter := registryAfter_after pairs calls
  have hnamed : call.place = (marketId, outcomeSide) := Lib.key_of_lastRow hcall
  have hkey : (registryAfter pairs calls).tokenKeyForOpiMarket marketId outcomeSide =
      some call.tokenKey := by
    rw [RegistryState.tokenKeyForOpiMarket, hafter.pointer, hcall]
    rfl
  simp only [RegistryState.resolveOpiUserTarget, hkey, Option.getD_some]
  apply (hafter.members _ _).mpr
  refine ⟨pair, hpair, rfl, .inr ⟨call, Lib.mem_of_lastRow hcall, ?_, rfl⟩⟩
  rw [hmarket, (Prod.mk.inj hnamed).1]

/-- Without a call for the side, it is looked up under the key of the last pair on the market. -/
theorem mem_target_of_last {pairs : List PairRecord} {calls : List EnsureCall} {marketId : String}
    {outcomeSide : ℤ} {last : PairRecord} {pairId : ℤ}
    (hnone : Lib.lastRow EnsureCall.place
      (marketId, outcomeSide) calls = none)
    (hlast : Lib.lastRow PairRecord.lookupMarket marketId pairs = some last)
    (hside : outcomeSide = 1 ∨ outcomeSide = 2) :
    pairId ∈ ((registryAfter pairs calls).resolveOpiUserTarget marketId outcomeSide).2.2 ↔
      EnrolledUnder pairs calls pairId (last.opinionTokenKey outcomeSide) := by
  have hafter := registryAfter_after pairs calls
  have hkey : (registryAfter pairs calls).tokenKeyForOpiMarket marketId outcomeSide =
      some (last.opinionTokenKey outcomeSide) := by
    rw [RegistryState.tokenKeyForOpiMarket, hafter.pointer, hnone,
      RegistryState.opiMarketSideKey_build hside, hlast]
    rfl
  simp only [RegistryState.resolveOpiUserTarget, hkey, Option.getD_some]
  apply (hafter.members _ _).trans
  simp only [EnrolledUnder, PairRecord.opinionTokenKey, PairRecord.mem_tokenKeys]

/-- Every pair on the market is informed just in case they share the key that is looked up. -/
theorem user_message_reaches_iff (pairs : List PairRecord) (calls : List EnsureCall)
    {msgType : String} {item : Json} {marketId : String} {outcomeSide : ℤ}
    (hmsg : IsUserMessage msgType item marketId outcomeSide)
    (hside : outcomeSide = 1 ∨ outcomeSide = 2) :
    (∀ pair ∈ pairs, pair.opinionMarketId = some marketId →
      pair.pairId ∈ receivers (registryAfter pairs calls) msgType item) ↔
      SharedRoute pairs calls marketId outcomeSide := by
  rw [receivers_eq hmsg]
  cases hcall : Lib.lastRow EnsureCall.place
    (marketId, outcomeSide) calls with
  | some call =>
    -- The last call for the side enrolled all pairs on the market under the key it points to.
    have hnamed : SharedRoute pairs calls marketId outcomeSide :=
      .inl ⟨call, Lib.mem_of_lastRow hcall, Lib.key_of_lastRow hcall⟩
    exact iff_of_true (target_of_call hcall) hnamed
  | none =>
    -- The pointer is still that of the registrations.
    have hunnamed : ¬ ∃ call ∈ calls, call.place = (marketId, outcomeSide) := by
      rintro ⟨call, hmem, heq⟩
      exact Lib.lastRow_eq_none.mp hcall call hmem heq
    unfold SharedRoute
    rw [or_iff_right hunnamed]
    constructor
    · intro hreach last hlast pair hpair hmarket
      exact (mem_target_of_last hcall hlast hside).mp (hreach pair hpair hmarket)
    · intro hshared pair hpair hmarket
      cases hlast : Lib.lastRow PairRecord.lookupMarket marketId pairs with
      | some last =>
        exact (mem_target_of_last hcall hlast hside).mpr (hshared last hlast pair hpair hmarket)
      | none =>
        -- The pair itself is on the market, so there is a last one.
        apply absurd (Lib.lastRow_eq_none.mp hlast pair hpair)
        simp [PairRecord.lookupMarket, hmarket]

/-! ## A market with two pairs -/

/-- A pair on market 7, with its token for each side. -/
def pairOnSeven (pairId : ℤ) (yes no : Option String) : PairRecord where
  pairId := pairId
  opinionMarketId := some "7"
  opinionYesTokenId := yes
  opinionNoTokenId := no
  polymarketMarketId := none
  polymarketYesTokenId := none
  polymarketNoTokenId := none

/-- A trade on the first side of market 7. -/
def tradeOnSeven : Json :=
  .obj [("marketId", .str "7"), ("outcomeSide", .int 1), ("orderId", .str "o1")]

theorem tradeOnSeven_user : IsUserMessage "trade.record.new" tradeOnSeven "7" 1 := by
  constructor <;> decide +kernel

/-- Both pairs have the token of the side, so that both are informed. -/
theorem shared_token_reaches :
    1 ∈ receivers (registryAfter
        [pairOnSeven 1 (some "a") none, pairOnSeven 2 (some "a") (some "b")] [])
        "trade.record.new" tradeOnSeven ∧
      2 ∈ receivers (registryAfter
        [pairOnSeven 1 (some "a") none, pairOnSeven 2 (some "a") (some "b")] [])
        "trade.record.new" tradeOnSeven := by
  have hreach := (user_message_reaches_iff
    [pairOnSeven 1 (some "a") none, pairOnSeven 2 (some "a") (some "b")] []
    tradeOnSeven_user (.inl rfl)).mpr (.inr fun last hlast => by
      obtain rfl : last = pairOnSeven 2 (some "a") (some "b") := by
        rw [show Lib.lastRow PairRecord.lookupMarket "7" _ =
          some (pairOnSeven 2 (some "a") (some "b")) by decide +kernel] at hlast
        exact (Option.some.inj hlast).symm
      simp only [EnrolledUnder]
      decide +kernel)
  exact ⟨hreach _ List.mem_cons_self rfl,
    hreach _ (List.mem_cons_of_mem _ List.mem_cons_self) rfl⟩

/-- The pair that was registered first has another token, and learns of no trade. -/
theorem first_pair_uninformed :
    receivers (registryAfter [pairOnSeven 1 (some "a") none, pairOnSeven 2 (some "b") none] [])
        "trade.record.new" tradeOnSeven = [2] ∧
      ¬ ∀ pair ∈ [pairOnSeven 1 (some "a") none, pairOnSeven 2 (some "b") none],
        pair.opinionMarketId = some "7" →
          pair.pairId ∈ receivers (registryAfter
            [pairOnSeven 1 (some "a") none, pairOnSeven 2 (some "b") none] [])
            "trade.record.new" tradeOnSeven := by
  decide +kernel

end AlphaMonitor.Feed
