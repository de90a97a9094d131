import AlphaMonitor.Exchange.MultiSend
import AlphaMonitor.Lib.Fallible

/-!
# Approvals

Before an account trades, the exchanges and the conditional tokens contract must be allowed to
move its quote tokens, and the exchanges its conditional tokens.  An account of its own sends one
transaction for each approval and looks at the chain in between.  A Safe, where one is given and
orders of the account's own are not forced, looks first and sends all that is missing as one
batch.  Every call of the chain may fail, and a transaction may be
lost, dropped or reverted.

## Main definitions

- `Allowed.grant`: what enabling is for
- `enableTradingOnchainEoa`, `enableTradingOnchainSafe`: the two ways

## Main results

- `eoa_refines_grant`: what is allowed after one transaction after another
- `safe_all_or_nothing`: a Safe allows the same, or the chain is as it was
-/

namespace AlphaMonitor.Exchange

open AlphaMonitor.Lib

/-! ## What is allowed -/

abbrev U256 := Fin (2 ^ 256)

def U256.zero : U256 := ⟨0, Nat.two_pow_pos 256⟩

theorem u256Max_lt_two_pow : u256Max < 2 ^ 256 := Nat.sub_lt (Nat.two_pow_pos 256) Nat.one_pos

/-- `U256::MAX`. -/
def U256.max : U256 := ⟨u256Max, u256Max_lt_two_pow⟩

/-- The calls of the token contracts. -/
inductive ContractCall where
  | approve (spender : Address) (amount : U256)
  | setApprovalForAll (operator : Address) (approved : Bool)
  deriving DecidableEq

/-- What owners allow others: of a token, an owner and a spender, and of a contract, an owner and an
operator. -/
@[ext]
structure Allowed where
  allowance : Address → Address → Address → ℕ
  operator : Address → Address → Address → Bool

namespace Allowed

/-- A call of a contract by a sender. -/
def apply (allowed : Allowed) (sender contract : Address) : ContractCall → Allowed
  | .approve spender amount =>
    { allowed with
      allowance := fun token owner spender' =>
        if token = contract ∧ owner = sender ∧ spender' = spender then amount.val
        else allowed.allowance token owner spender' }
  | .setApprovalForAll operator approved =>
    { allowed with
      operator := fun contract' owner operator' =>
        if contract' = contract ∧ owner = sender ∧ operator' = operator then approved
        else allowed.operator contract' owner operator' }

/-- The owner allows the spenders everything where they may have less than the threshold of the
token, and the exchanges its conditional tokens. -/
def grant (owner conditional : Address) (threshold : Address → ℕ)
    (required : List (Address × Address)) (exchanges : List Address) (allowed : Allowed) :
    Allowed where
  allowance := fun token owner' spender =>
    if owner' = owner ∧ (token, spender) ∈ required ∧
      allowed.allowance token owner spender < threshold token then u256Max
    else allowed.allowance token owner' spender
  operator := fun contract owner' operator =>
    if contract = conditional ∧ owner' = owner ∧ operator ∈ exchanges then true
    else allowed.operator contract owner' operator

end Allowed

namespace Allowed

variable {a : Allowed} {owner conditional token spender exchange : Address}
  {threshold : Address → ℕ} {required : List (Address × Address)} {exchanges : List Address}

theorem apply_approve_approve (x y : U256) :
    (a.apply owner token (.approve spender x)).apply owner token (.approve spender y) =
      a.apply owner token (.approve spender y) := by
  refine Allowed.ext ?_ rfl
  funext token' owner' spender'
  dsimp only [apply]
  split <;> rfl

theorem grant_nil : a.grant owner conditional threshold [] [] = a := by
  ext <;> simp [grant]

/-- An allowance that is too small is raised. -/
theorem grant_concat_of_lt (h : a.allowance token owner spender < threshold token) :
    (a.grant owner conditional threshold required exchanges).apply owner token
        (.approve spender U256.max) =
      a.grant owner conditional threshold (required ++ [(token, spender)]) exchanges := by
  refine Allowed.ext ?_ rfl
  funext token' owner' spender'
  simp only [apply, grant, List.mem_append, List.mem_singleton, Prod.mk.injEq]
  by_cases hhere : token' = token ∧ owner' = owner ∧ spender' = spender
  · obtain ⟨rfl, rfl, rfl⟩ := hhere
    simp only [true_and, and_self, if_true, h, or_true]
    rfl
  · have hother : owner' = owner → ¬(token' = token ∧ spender' = spender) :=
      fun howner hpair => hhere ⟨hpair.1, howner, hpair.2⟩
    rw [if_neg hhere]
    by_cases howner : owner' = owner
    · simp [howner, hother howner]
    · simp [howner]

/-- An allowance that is large enough stays as it is. -/
theorem grant_concat_of_le
    (h : threshold token ≤
      (a.grant owner conditional threshold required exchanges).allowance token owner spender) :
    a.grant owner conditional threshold (required ++ [(token, spender)]) exchanges =
      a.grant owner conditional threshold required exchanges := by
  refine Allowed.ext ?_ rfl
  funext token' owner' spender'
  simp only [grant, List.mem_append, List.mem_singleton, Prod.mk.injEq] at h ⊢
  by_cases hpair : token' = token ∧ spender' = spender
  · obtain ⟨rfl, rfl⟩ := hpair
    by_cases hmem : (token', spender') ∈ required
    · simp [hmem]
    · have hle : ¬a.allowance token' owner spender' < threshold token' := by
        simpa [hmem] using h
      simp [hle]
  · simp [hpair]

theorem grant_concat_exchange :
    (a.grant owner conditional threshold required exchanges).apply owner conditional
        (.setApprovalForAll exchange true) =
      a.grant owner conditional threshold required (exchanges ++ [exchange]) := by
  refine Allowed.ext rfl ?_
  funext contract owner' operator
  simp only [apply, grant, List.mem_append, List.mem_singleton]
  by_cases hhere : contract = conditional ∧ owner' = owner
  · by_cases hop : operator = exchange <;> simp [hhere, hop]
  · have hnot : ¬(contract = conditional ∧ owner' = owner ∧ operator = exchange) :=
      fun h => hhere ⟨h.1, h.2.1⟩
    rw [if_neg hnot, if_neg (fun h => hhere ⟨h.1, h.2.1⟩), if_neg (fun h => hhere ⟨h.1, h.2.1⟩)]

theorem grant_concat_exchange_of_operator
    (h : (a.grant owner conditional threshold required exchanges).operator conditional owner
      exchange = true) :
    a.grant owner conditional threshold required (exchanges ++ [exchange]) =
      a.grant owner conditional threshold required exchanges := by
  refine Allowed.ext rfl ?_
  funext contract owner' operator
  simp only [grant, List.mem_append, List.mem_singleton] at h ⊢
  by_cases hhere : contract = conditional ∧ owner' = owner ∧ operator = exchange
  · obtain ⟨rfl, rfl, rfl⟩ := hhere
    simpa using h.symm
  · have hor : (contract = conditional ∧ owner' = owner ∧
        (operator ∈ exchanges ∨ operator = exchange)) ↔
        contract = conditional ∧ owner' = owner ∧ operator ∈ exchanges := by
      constructor
      · rintro ⟨hc, ho, hmem | hop⟩
        · exact ⟨hc, ho, hmem⟩
        · exact absurd ⟨hc, ho, hop⟩ hhere
      · rintro ⟨hc, ho, hmem⟩
        exact ⟨hc, ho, Or.inl hmem⟩
    simp only [hor]

/-- What is too small after the others are raised was too small before. -/
theorem lt_of_grant_lt (hle : threshold token ≤ u256Max)
    (h : (a.grant owner conditional threshold required exchanges).allowance token owner spender <
      threshold token) : a.allowance token owner spender < threshold token := by
  dsimp only [grant] at h
  split at h
  · exact absurd (h.trans_le hle) (lt_irrefl _)
  · exact h

theorem le_grant_of_le (h : threshold token ≤ a.allowance token owner spender) :
    threshold token ≤
      (a.grant owner conditional threshold required exchanges).allowance token owner spender := by
  dsimp only [grant]
  split
  · rename_i hraised
    exact absurd h (not_le.mpr hraised.2.2)
  · exact h

theorem grant_operator_of_operator (h : a.operator conditional owner exchange = true) :
    (a.grant owner conditional threshold required exchanges).operator conditional owner exchange =
      true := by
  dsimp only [grant]
  split
  · rfl
  · exact h

/-- Only what is asked for matters, not how often or in which order. -/
theorem grant_congr {exchanges' : List Address} (h : ∀ e, e ∈ exchanges ↔ e ∈ exchanges') :
    a.grant owner conditional threshold required exchanges =
      a.grant owner conditional threshold required exchanges' := by
  refine Allowed.ext rfl ?_
  funext contract owner' operator
  simp only [grant, h]

end Allowed

/-! ## The chain -/

/-- The contracts as they are documented, with what a node tells of the chain. -/
structure Contracts (χ : Type) where
  allowed : χ → Allowed
  decimals : χ → Address → Option ℕ
  balance : χ → Address → ℕ
  (baseFee gasPrice : χ → ℕ)
  /-- The data of a call. -/
  calldata : ContractCall → List UInt8
  /-- A transaction of a sender to a contract; `none` where it is reverted. -/
  exec : χ → Address → Address → List UInt8 → Option χ
  /-- A batch that a Safe passes to the multi-send contract. -/
  multiSend : χ → Address → List UInt8 → Option χ
  length_calldata : ∀ call, (calldata call).length < 2 ^ 64
  allowed_exec : ∀ {s s' sender contract call},
    exec s sender contract (calldata call) = some s' →
      allowed s' = (allowed s).apply sender contract call
  /-- The transactions one after another, all or none. -/
  multiSend_encode : ∀ {s safe txs}, (∀ tx ∈ txs, tx.operation = 0 ∧ tx.value = 0) →
    multiSend s safe (encodeMultisendTxs txs) =
      txs.foldlM (fun s tx => exec s safe tx.toAddress tx.data) s

/-- What becomes of a call: it fails, its receipt cannot be fetched although it may have been
executed, it is dropped without a receipt, or it goes through. -/
inductive Fate where
  | refused
  | lost (executed : Bool)
  | dropped
  | mined
  deriving DecidableEq, Repr

/-- A receipt, if there was one, with its status. -/
abbrev Receipt := Option Bool

/-- The chain, what the client has cached, the receipts it got, and what becomes of the next
calls. -/
structure Session (χ : Type) where
  chain : χ
  tokenDecimals : Address → Option ℕ
  receipts : List Receipt
  fates : List Fate

/-- An attempt to enable trading. -/
abbrev Attempt (χ α : Type) := Fallible (Session χ) String α

/-- An address in a configuration or an answer, with what `parse_address` makes of it. -/
structure AddressText where
  text : String
  parsed : Option Address
  deriving DecidableEq

/-- `QuoteTokenInfo`. -/
structure QuoteToken where
  chainId : ℕ
  (quoteTokenAddress ctfExchangeAddress : AddressText)
  deriving DecidableEq

/-- What the client knows of the account and of the tokens to trade with. -/
structure TradingAccount where
  signer : Address
  safe : Option Address
  multisendAddress : Option Address
  chainId : ℕ
  (hasRpcUrl rpcUrlParses : Bool)
  conditionalTokens : AddressText
  quoteTokens : Except String (List QuoteToken)

/-- The spenders that a token on the chain of the account needs. -/
def requiredBy (chainId : ℕ) (conditional : Address) (token : QuoteToken) :
    List (Address × Address) :=
  match decide (token.chainId = chainId), token.quoteTokenAddress.parsed,
    token.ctfExchangeAddress.parsed with
  | true, some quote, some exchange => [(quote, exchange), (quote, conditional)]
  | _, _, _ => []

/-- The exchange of a token on the chain of the account. -/
def exchangeOf (chainId : ℕ) (token : QuoteToken) : Option Address :=
  if token.chainId = chainId then token.ctfExchangeAddress.parsed else none

section

variable {chainId : ℕ} {conditional quote exchange : Address} {token : QuoteToken}

theorem exchangeOf_other (h : token.chainId ≠ chainId) : exchangeOf chainId token = none :=
  if_neg h

theorem requiredBy_other (h : token.chainId ≠ chainId) :
    requiredBy chainId conditional token = [] := by
  simp [requiredBy, h]

theorem exchangeOf_here (h : token.chainId = chainId)
    (hexchange : token.ctfExchangeAddress.parsed = some exchange) :
    exchangeOf chainId token = some exchange := (if_pos h).trans hexchange

theorem requiredBy_here (h : token.chainId = chainId)
    (hquote : token.quoteTokenAddress.parsed = some quote)
    (hexchange : token.ctfExchangeAddress.parsed = some exchange) :
    requiredBy chainId conditional token = [(quote, exchange), (quote, conditional)] := by
  simp [requiredBy, h, hquote, hexchange]

/-- One more token with an exchange. -/
theorem mem_insert_exchange {found : List Address} {done : List QuoteToken}
    (hmem : ∀ e, e ∈ found ↔ e ∈ done.filterMap (exchangeOf chainId))
    (hfound : exchangeOf chainId token = some exchange) (e : Address) :
    e ∈ found.insert exchange ↔ e ∈ (done ++ [token]).filterMap (exchangeOf chainId) := by
  rw [List.mem_insert_iff, List.filterMap_append, List.mem_append, hmem e,
    List.filterMap_cons_some hfound, List.filterMap_nil, List.mem_singleton, or_comm]

/-- One more token of another chain. -/
theorem asked_concat_other (done : List QuoteToken) (h : token.chainId ≠ chainId) :
    (done ++ [token]).filterMap (exchangeOf chainId) = done.filterMap (exchangeOf chainId) ∧
      (done ++ [token]).flatMap (requiredBy chainId conditional) =
        done.flatMap (requiredBy chainId conditional) := by
  constructor
  · rw [List.filterMap_append, List.filterMap_cons_none (exchangeOf_other h),
      List.filterMap_nil, List.append_nil]
  · rw [List.flatMap_append, List.flatMap_singleton, requiredBy_other h, List.append_nil]

end

/-- The order in which a hash set hands out its addresses. -/
structure SetOrder where
  arrange : List Address → List Address
  perm : ∀ addresses, (arrange addresses).Perm addresses

section

variable {χ : Type} (contracts : Contracts χ) (account : TradingAccount) (order : SetOrder)

/-! ## Calls -/

def nextFate : Attempt χ Fate := do
  let s ← get
  set { s with fates := s.fates.tail }
  return s.fates.headD .mined

/-- A question to the node. -/
def query {α : Type} (error : String) (read : χ → α) : Attempt χ α := do
  let fate ← nextFate
  let s ← get
  if fate = .refused then throw error else return read s.chain

/-- A transaction and its receipt. -/
def transact (sendError receiptError : String) (run : χ → Option χ) : Attempt χ Receipt := do
  let fate ← nextFate
  let s ← get
  match fate with
  | .refused => throw sendError
  | .lost executed =>
    set { s with chain := if executed then (run s.chain).getD s.chain else s.chain }
    throw receiptError
  | .dropped =>
    set { s with receipts := s.receipts ++ [none] }
    return none
  | .mined =>
    set { s with
      chain := (run s.chain).getD s.chain
      receipts := s.receipts ++ [some (run s.chain).isSome] }
    return some (run s.chain).isSome

def orThrow {α : Type} (error : String) : Option α → Attempt χ α
  | some a => return a
  | none => throw error

/-! ## Thresholds -/

/-- `min_threshold`. -/
def minThreshold (decimals : ℕ) : ℕ :=
  satMul 1000000000 ((fun power => satMul power 10)^[decimals] 1)

theorem minThreshold_le (decimals : ℕ) : minThreshold decimals ≤ u256Max := min_le_right _ _

/-- `get_token_decimals`. -/
def getTokenDecimals (token : Address) : Attempt χ ℕ := do
  let s ← get
  match s.tokenDecimals token with
  | some value => return value
  | none =>
    let fate ← nextFate
    -- a call that fails counts as `MAX_DECIMALS`
    let value := if fate = .refused then 18 else (contracts.decimals s.chain token).getD 18
    modify fun s => { s with tokenDecimals := Function.update s.tokenDecimals token (some value) }
    return value

/-- `check_gas_balance`. -/
def checkGasBalance (address : Address) (estimatedGas : ℕ) : Attempt χ Unit := do
  let balance ← query "opinion gas balance fetch failed" (contracts.balance · address)
  let baseFee ← query "opinion gas block fetch failed" contracts.baseFee
  let gasPrice ←
    if baseFee > 0 then pure (baseFee * 2 + 2000000000)
    else query "opinion gas price fetch failed" contracts.gasPrice
  if balance < gasPrice * (estimatedGas * 12 / 10) then
    throw "opinion insufficient gas balance"

/-! ## One transaction after another -/

/-- The spender gets an allowance that is large enough. -/
def ensureAllowance (label : String) (owner token spender : Address) (threshold : ℕ) :
    Attempt χ Unit := do
  let allowance ← query ("opinion " ++ label ++ " allowance call failed")
    fun s => (contracts.allowed s).allowance token owner spender
  if allowance < threshold then
    if allowance > 0 then
      let _ ← transact ("opinion " ++ label ++ " approve reset failed")
        ("opinion " ++ label ++ " approve reset receipt failed") fun s =>
          contracts.exec s owner token (contracts.calldata (.approve spender U256.zero))
    let _ ← transact ("opinion " ++ label ++ " approve failed")
      ("opinion " ++ label ++ " approve receipt failed") fun s =>
        contracts.exec s owner token (contracts.calldata (.approve spender U256.max))

/-- The exchanges of the tokens so far, and how many tokens there were. -/
abbrev Found := List Address × ℕ

/-- The two addresses of a token on the chain of the account. -/
def tokenAddresses (token : QuoteToken) : Attempt χ (Address × Address) := do
  let quote ← orThrow ("invalid quoteTokenAddress " ++ token.quoteTokenAddress.text)
    token.quoteTokenAddress.parsed
  let exchange ← orThrow ("invalid ctfExchangeAddress " ++ token.ctfExchangeAddress.text)
    token.ctfExchangeAddress.parsed
  return (quote, exchange)

/-- The body of the loop over the tokens in `enable_trading_onchain_eoa`. -/
def approveToken (owner conditional : Address) (found : Found) (token : QuoteToken) :
    Attempt χ Found := do
  if token.chainId ≠ account.chainId then return found
  let (quote, exchange) ← tokenAddresses token
  let decimals ← getTokenDecimals contracts quote
  ensureAllowance contracts "erc20" owner quote exchange (minThreshold decimals)
  ensureAllowance contracts "erc20 conditionalTokens" owner quote conditional
    (minThreshold decimals)
  return (found.1.insert exchange, found.2 + 1)

/-- The body of the loop over the exchanges. -/
def approveExchange (owner conditional exchange : Address) : Attempt χ Unit := do
  let approved ← query "opinion erc1155 isApprovedForAll call failed"
    fun s => (contracts.allowed s).operator conditional owner exchange
  if !approved then
    let _ ← transact "opinion erc1155 setApprovalForAll failed"
      "opinion erc1155 approve receipt failed" fun s =>
        contracts.exec s owner conditional
          (contracts.calldata (.setApprovalForAll exchange true))

/-- What both ways ask for first. -/
def prepare : Attempt χ Unit := do
  if account.hasRpcUrl = false then throw "opinion rpc_url missing in account config"
  if account.rpcUrlParses = false then throw "opinion rpc_url parse failed"
  checkGasBalance contracts account.signer 500000

/-- `get_quote_tokens`. -/
def getQuoteTokens : Attempt χ (List QuoteToken) :=
  match account.quoteTokens with
  | .ok tokens => return tokens
  | .error error => throw error

def chainEmpty : Attempt χ Unit :=
  throw ("opinion quoteToken list empty for chain_id=" ++ toString account.chainId)

/-- `enable_trading_onchain_eoa`. -/
def enableTradingOnchainEoa : Attempt χ Unit := do
  prepare contracts account
  let tokens ← getQuoteTokens account
  let conditional ← orThrow "invalid address" account.conditionalTokens.parsed
  let found ← tokens.foldlM (approveToken contracts account account.signer conditional) ([], 0)
  if found.2 = 0 then chainEmpty account
  (order.arrange found.1).foldlM
    (fun _ exchange => approveExchange contracts account.signer conditional exchange) ()

/-! ## One batch -/

/-- A transaction of a batch. -/
def Contracts.tx (contract : Address) (call : ContractCall) : MultiSendTx where
  operation := 0
  toAddress := contract
  value := 0
  data := contracts.calldata call
  value_le := Nat.zero_le _
  length_data := contracts.length_calldata call

/-- The transactions that raise an allowance where it is too small. -/
def planAllowance (label : String) (owner token spender : Address) (threshold : ℕ)
    (txs : List MultiSendTx) : Attempt χ (List MultiSendTx) := do
  let allowance ← query ("opinion " ++ label ++ " allowance call failed")
    fun s => (contracts.allowed s).allowance token owner spender
  if allowance < threshold then
    let reset := if allowance > 0 then [contracts.tx token (.approve spender U256.zero)] else []
    return txs ++ reset ++ [contracts.tx token (.approve spender U256.max)]
  else return txs

/-- The body of the loop over the tokens in `enable_trading_onchain_safe`. -/
def planToken (owner conditional : Address) (plan : Found × List MultiSendTx)
    (token : QuoteToken) : Attempt χ (Found × List MultiSendTx) := do
  if token.chainId ≠ account.chainId then return plan
  let (quote, exchange) ← tokenAddresses token
  let decimals ← getTokenDecimals contracts quote
  let txs ← planAllowance contracts "erc20" owner quote exchange (minThreshold decimals) plan.2
  let txs ← planAllowance contracts "erc20 conditionalTokens" owner quote conditional
    (minThreshold decimals) txs
  return ((plan.1.1.insert exchange, plan.1.2 + 1), txs)

/-- The body of the loop over the exchanges. -/
def planExchange (owner conditional : Address) (txs : List MultiSendTx) (exchange : Address) :
    Attempt χ (List MultiSendTx) := do
  let approved ← query "opinion erc1155 isApprovedForAll call failed"
    fun s => (contracts.allowed s).operator conditional owner exchange
  return if !approved then txs ++ [contracts.tx conditional (.setApprovalForAll exchange true)]
    else txs

/-- `safe_exec_transaction`; whatever fails in it has the one text. -/
def safeExecTransaction (safe : Address) (transactions : List UInt8) : Attempt χ Unit := do
  let failed := "opinion safe multisend exec failed"
  -- the nonce and the hash
  query failed fun _ => ()
  query failed fun _ => ()
  let receipt ← transact failed failed fun s => contracts.multiSend s safe transactions
  if receipt = some false then throw failed

/-- `enable_trading_onchain_safe`. -/
def enableTradingOnchainSafe : Attempt χ Unit := do
  let safe ← orThrow "opinion safe address missing" account.safe
  prepare contracts account
  let _ ← orThrow ("opinion multisend_address missing for chain_id=" ++ toString account.chainId)
    account.multisendAddress
  let tokens ← getQuoteTokens account
  let conditional ← orThrow "invalid address" account.conditionalTokens.parsed
  let (found, txs) ← tokens.foldlM (planToken contracts account safe conditional) (([], 0), [])
  if found.2 = 0 then chainEmpty account
  let txs ← (order.arrange found.1).foldlM (planExchange contracts safe conditional) txs
  if txs = [] then return ()
  safeExecTransaction contracts safe (encodeMultisendTxs txs)

end

/-! ## Rules for the calls -/

namespace Session

variable {χ : Type}

/-- The caches agree with the decimals. -/
def Cached (decimals : Address → ℕ) (s : Session χ) : Prop :=
  ∀ token value, s.tokenDecimals token = some value → decimals token = value

/-- Every receipt says that the transaction was executed. -/
def Executed (s : Session χ) : Prop := ∀ r ∈ s.receipts, r = some true

/-- The state after one more call. -/
def next (s : Session χ) : Session χ := { s with fates := s.fates.tail }

end Session

section

variable {χ : Type} {contracts : Contracts χ} {P : Session χ → Prop}

open Fallible

theorem query_triple {α : Type} {error : String} {read : χ → α} {E : String → Session χ → Prop}
    (hP : ∀ s, P s → P s.next) (hE : ∀ e s, P s → E e s) :
    Triple P (query error read) (fun a s => P s ∧ a = read s.chain) E := by
  intro s hs
  have hnext := hP s hs
  have hrun : exec (query error read) s =
      if s.fates.headD .mined = .refused then (.error error, s.next)
      else (.ok (read s.chain), s.next) := by
    change exec (if s.fates.headD .mined = .refused then throw error
      else pure (read s.next.chain)) s.next = _
    split <;> rfl
  rw [hrun]
  constructor
  · intro a t h
    split at h
    · cases h
    · cases h
      exact ⟨hnext, rfl⟩
  · intro e t h
    split at h
    · cases h
      exact hE _ _ hnext
    · cases h

/-- What a transaction does: it is executed just in case its receipt says so. -/
structure Transacted (run : χ → Option χ) (s : Session χ) (r : Receipt) (t : Session χ) :
    Prop where
  decimals : t.tokenDecimals = s.tokenDecimals
  receipts : t.receipts = s.receipts ++ [r]
  executed : r = some true → run s.chain = some t.chain
  unchanged : r ≠ some true → t.chain = s.chain

/-- What may be left of a transaction without a receipt. -/
structure NoReceipt (run : χ → Option χ) (s t : Session χ) : Prop where
  decimals : t.tokenDecimals = s.tokenDecimals
  receipts : t.receipts = s.receipts
  chain : t.chain = s.chain ∨ run s.chain = some t.chain

theorem Transacted.cached_of {known : Address → ℕ} (h : Transacted run s r t)
    (ht : t.Cached known) : s.Cached known := by
  unfold Session.Cached at ht ⊢
  rw [← h.decimals]
  exact ht

theorem Transacted.executed_of (h : Transacted run s r t) (ht : t.Executed) :
    s.Executed ∧ run s.chain = some t.chain := by
  unfold Session.Executed at ht
  rw [h.receipts] at ht
  exact ⟨fun r hr => ht r (List.mem_append_left _ hr),
    h.executed (ht _ (List.mem_append_right _ (List.mem_singleton_self _)))⟩

theorem transact_triple {sendError receiptError : String} {run : χ → Option χ}
    {Q : Receipt → Session χ → Prop} {E : String → Session χ → Prop}
    (hQ : ∀ s r t, P s → Transacted run s r t → Q r t)
    (hE : ∀ s e t, P s → NoReceipt run s t → E e t) :
    Triple P (transact sendError receiptError run) Q E := by
  intro s hs
  have hrun : exec (transact sendError receiptError run) s =
      exec (match s.fates.headD .mined with
        | .refused => throw sendError
        | .lost executed => do
          set { s.next with
            chain := if executed then (run s.chain).getD s.chain else s.chain }
          throw receiptError
        | .dropped => do
          set { s.next with receipts := s.receipts ++ [none] }
          return none
        | .mined => do
          set { s.next with
            chain := (run s.chain).getD s.chain
            receipts := s.receipts ++ [some (run s.chain).isSome] }
          return some (run s.chain).isSome) s.next := rfl
  rw [hrun]
  cases s.fates.headD .mined with
  | refused =>
    refine ⟨fun a t h => (nomatch (Prod.mk.inj h).1), fun e t h => ?_⟩
    cases h
    exact hE s _ _ hs ⟨rfl, rfl, Or.inl rfl⟩
  | lost executed =>
    refine ⟨fun a t h => (nomatch (Prod.mk.inj h).1), fun e t h => ?_⟩
    cases h
    refine hE s _ _ hs ⟨rfl, rfl, ?_⟩
    cases executed with
    | false => exact Or.inl rfl
    | true =>
      cases hout : run s.chain with
      | none => exact Or.inl (by simp)
      | some c => exact Or.inr (by simp)
  | dropped =>
    refine ⟨fun a t h => ?_, fun e t h => (nomatch (Prod.mk.inj h).1)⟩
    cases h
    exact hQ s _ _ hs ⟨rfl, rfl, fun h => (nomatch h), fun _ => rfl⟩
  | mined =>
    refine ⟨fun a t h => ?_, fun e t h => (nomatch (Prod.mk.inj h).1)⟩
    cases h
    cases hout : run s.chain with
    | none => exact hQ s _ _ hs ⟨rfl, by simp, by simp, by simp⟩
    | some c => exact hQ s _ _ hs ⟨rfl, by simp, by simp [hout], by simp⟩

/-- What is known after the decimals of a token were asked for. -/
structure Looked (token : Address) (s : Session χ) (value : ℕ) (t : Session χ) : Prop where
  chain : t.chain = s.chain
  receipts : t.receipts = s.receipts
  found : t.tokenDecimals token = some value
  kept : ∀ token' value', s.tokenDecimals token' = some value' →
    t.tokenDecimals token' = some value'

theorem getTokenDecimals_triple {token : Address} {Q : ℕ → Session χ → Prop}
    {E : String → Session χ → Prop} (hQ : ∀ s value t, P s → Looked token s value t → Q value t) :
    Triple P (getTokenDecimals contracts token) Q E := by
  intro s hs
  cases hfound : s.tokenDecimals token with
  | some value =>
    have hrun : exec (getTokenDecimals contracts token) s = (.ok value, s) := by
      change exec (match s.tokenDecimals token with
        | some value => return value
        | none => _) s = _
      rw [hfound]
      rfl
    rw [hrun]
    refine ⟨fun a t h => ?_, fun e t h => (nomatch (Prod.mk.inj h).1)⟩
    cases h
    exact hQ s _ _ hs ⟨rfl, rfl, hfound, fun _ _ => id⟩
  | none =>
    have hrun : ∃ value, exec (getTokenDecimals contracts token) s =
        (.ok value, { s.next with
          tokenDecimals := Function.update s.tokenDecimals token (some value) }) := by
      refine ⟨if s.fates.headD .mined = .refused then 18
        else (contracts.decimals s.chain token).getD 18, ?_⟩
      unfold getTokenDecimals
      rw [exec_bind_ok (exec_get s), hfound]
      rfl
    obtain ⟨value, hrun⟩ := hrun
    rw [hrun]
    refine ⟨fun a t h => ?_, fun e t h => (nomatch (Prod.mk.inj h).1)⟩
    cases h
    refine hQ s _ _ hs ⟨rfl, rfl, Function.update_self _ _ _, fun token' value' hvalue => ?_⟩
    have hne : token' ≠ token := by
      rintro rfl
      rw [hfound] at hvalue
      cases hvalue
    exact (Function.update_of_ne hne _ _).trans hvalue

theorem orThrow_triple {α : Type} {error : String} {value : Option α}
    {E : String → Session χ → Prop} (hE : ∀ e s, P s → E e s) :
    Triple P (orThrow error value) (fun a s => P s ∧ value = some a) E := by
  cases value with
  | none => exact Triple.throw (hE error)
  | some a => exact Triple.pure fun s hs => ⟨hs, rfl⟩

end

/-! ## One transaction after another -/

section

open Fallible

variable {χ : Type} (contracts : Contracts χ) (decimals : Address → ℕ) (a : Allowed)
  (owner conditional : Address)

/-- Where the caches agree with the decimals and all transactions were executed, this much is
allowed. -/
def Granted (required : List (Address × Address)) (exchanges : List Address) (s : Session χ) :
    Prop :=
  s.Cached decimals → s.Executed → contracts.allowed s.chain =
    a.grant owner conditional (fun token => minThreshold (decimals token)) required exchanges

variable {contracts decimals a owner conditional}
variable {required : List (Address × Address)} {exchanges : List Address}
variable {token spender exchange : Address} {value : ℕ} {label : String}

theorem Looked.granted {s t : Session χ} (h : Looked token s value t)
    (hs : Granted contracts decimals a owner conditional required exchanges s) :
    Granted contracts decimals a owner conditional required exchanges t := by
  intro hcached hexecuted
  rw [h.chain]
  refine hs (fun token' value' hvalue => hcached token' value' (h.kept token' value' hvalue)) ?_
  unfold Session.Executed at hexecuted ⊢
  rw [← h.receipts]
  exact hexecuted

theorem ensureAllowance_triple :
    Triple (fun s => Granted contracts decimals a owner conditional required exchanges s ∧
        s.tokenDecimals token = some value)
      (ensureAllowance contracts label owner token spender (minThreshold value))
      (fun _ s => Granted contracts decimals a owner conditional (required ++ [(token, spender)])
        exchanges s ∧ s.tokenDecimals token = some value)
      fun _ _ => True := by
  have hlast : Triple
      (fun s => (s.Cached decimals → s.Executed →
        (contracts.allowed s.chain).apply owner token (.approve spender U256.max) =
          a.grant owner conditional (fun token => minThreshold (decimals token))
            (required ++ [(token, spender)]) exchanges) ∧ s.tokenDecimals token = some value)
      (do
        let _ ← transact ("opinion " ++ label ++ " approve failed")
          ("opinion " ++ label ++ " approve receipt failed") fun s =>
            contracts.exec s owner token (contracts.calldata (.approve spender U256.max))
        pure ())
      (fun _ s => Granted contracts decimals a owner conditional (required ++ [(token, spender)])
        exchanges s ∧ s.tokenDecimals token = some value)
      fun _ _ => True := by
    refine (transact_triple (fun s r t hs ht => ⟨?_, ?_⟩) fun _ _ _ _ _ => trivial).bind
      fun _ => Triple.pure fun _ h => h
    · intro hcached hexecuted
      obtain ⟨hbefore, hrun⟩ := ht.executed_of hexecuted
      rw [contracts.allowed_exec hrun]
      exact hs.1 (ht.cached_of hcached) hbefore
    · exact ht.decimals ▸ hs.2
  unfold ensureAllowance
  refine (query_triple (fun s h => h) fun _ _ _ => trivial).bind fun allowance => ?_
  refine Triple.ite (fun hlt => ?_) fun hle => ?_
  · -- what is missing now was missing from the start
    have hmissing : ∀ s, (Granted contracts decimals a owner conditional required exchanges s ∧
        s.tokenDecimals token = some value) ∧
          allowance = (contracts.allowed s.chain).allowance token owner spender →
        s.Cached decimals → s.Executed →
          (a.grant owner conditional (fun token => minThreshold (decimals token)) required
              exchanges).apply owner token (.approve spender U256.max) =
            a.grant owner conditional (fun token => minThreshold (decimals token))
              (required ++ [(token, spender)]) exchanges := by
      rintro s ⟨⟨hgranted, hvalue⟩, rfl⟩ hcached hexecuted
      rw [hgranted hcached hexecuted, ← hcached token value hvalue] at hlt
      exact Allowed.grant_concat_of_lt (Allowed.lt_of_grant_lt (minThreshold_le _) hlt)
    refine Triple.ite (fun _ => ?_) fun _ => hlast.weaken ?_ (fun _ _ h => h) fun _ _ h => h
    · refine (transact_triple (fun s r t hs ht => ⟨?_, ?_⟩) fun _ _ _ _ _ => trivial).bind
        fun _ => hlast
      · intro hcached hexecuted
        obtain ⟨hbefore, hrun⟩ := ht.executed_of hexecuted
        have hcached' := ht.cached_of hcached
        rw [contracts.allowed_exec hrun, Allowed.apply_approve_approve,
          hs.1.1 hcached' hbefore]
        exact hmissing s hs hcached' hbefore
      · exact ht.decimals ▸ hs.1.2
    · intro s hs
      refine ⟨fun hcached hexecuted => ?_, hs.1.2⟩
      rw [hs.1.1 hcached hexecuted]
      exact hmissing s hs hcached hexecuted
  · refine Triple.pure fun s hs => ⟨fun hcached hexecuted => ?_, hs.1.2⟩
    obtain ⟨⟨hgranted, hvalue⟩, rfl⟩ := hs
    rw [hgranted hcached hexecuted] at hle ⊢
    refine (Allowed.grant_concat_of_le ?_).symm
    rw [hcached token value hvalue]
    exact not_lt.mp hle

theorem tokenAddresses_triple {P : Session χ → Prop} {E : String → Session χ → Prop}
    {quoteToken : QuoteToken} (hE : ∀ e s, P s → E e s) :
    Triple P (tokenAddresses quoteToken)
      (fun p s => P s ∧ quoteToken.quoteTokenAddress.parsed = some p.1 ∧
        quoteToken.ctfExchangeAddress.parsed = some p.2) E := by
  refine (orThrow_triple hE).bind fun quote => ?_
  refine (orThrow_triple fun e s h => hE e s h.1).bind fun exchange => ?_
  exact Triple.pure fun s h => ⟨h.1.1, h.1.2, h.2⟩

variable {account : TradingAccount}

/-- What is known in the loop over the tokens. -/
def TokensDone (contracts : Contracts χ) (decimals : Address → ℕ) (a : Allowed)
    (owner conditional : Address) (chainId : ℕ) (done : List QuoteToken) (found : Found)
    (s : Session χ) : Prop :=
  (∀ e, e ∈ found.1 ↔ e ∈ done.filterMap (exchangeOf chainId)) ∧
    Granted contracts decimals a owner conditional (done.flatMap (requiredBy chainId conditional))
      [] s

theorem approveToken_triple (done : List QuoteToken) (found : Found) (quoteToken : QuoteToken) :
    Triple (TokensDone contracts decimals a owner conditional account.chainId done found)
      (approveToken contracts account owner conditional found quoteToken)
      (TokensDone contracts decimals a owner conditional account.chainId (done ++ [quoteToken]))
      fun _ _ => True := by
  unfold approveToken
  refine Triple.ite (fun hother => ?_) fun hhere => ?_
  · refine Triple.pure fun s hs => ?_
    obtain ⟨hexchanges, hrequired⟩ := @asked_concat_other _ conditional _ done hother
    rw [TokensDone, hexchanges, hrequired]
    exact hs
  · refine (tokenAddresses_triple fun _ _ _ => trivial).bind fun p => ?_
    obtain ⟨quote, exchange⟩ := p
    refine Triple.assume (fun s h => h.2) fun ⟨hquote, hexchange⟩ => ?_
    have hfound := exchangeOf_here (not_not.mp hhere) hexchange
    have hrequired := @requiredBy_here _ conditional _ _ _ (not_not.mp hhere) hquote hexchange
    refine Triple.assume (fun s h => h.1.1) fun hmem => ?_
    have hensure := @ensureAllowance_triple χ contracts decimals a owner conditional
      (done.flatMap (requiredBy account.chainId conditional)) [] quote exchange
    refine (getTokenDecimals_triple fun s value t hs ht => ?_).bind fun value =>
      hensure.bind fun _ => ensureAllowance_triple.bind fun _ =>
        Triple.pure fun s hs => ⟨mem_insert_exchange hmem hfound, ?_⟩
    · exact ⟨ht.granted hs.1.2, ht.found⟩
    · rw [List.flatMap_append, List.flatMap_singleton, hrequired]
      rw [List.append_assoc] at hs
      exact hs.1

theorem approveExchange_triple :
    Triple (Granted contracts decimals a owner conditional required exchanges)
      (approveExchange contracts owner conditional exchange)
      (fun _ => Granted contracts decimals a owner conditional required (exchanges ++ [exchange]))
      fun _ _ => True := by
  unfold approveExchange
  refine (query_triple (fun s h => h) fun _ _ _ => trivial).bind fun approved => ?_
  refine Triple.ite (fun _ => ?_) fun happroved => ?_
  · refine (transact_triple (fun s r t hs ht => ?_) fun _ _ _ _ _ => trivial).bind fun _ =>
      Triple.pure fun _ h => h
    intro hcached hexecuted
    obtain ⟨hbefore, hrun⟩ := ht.executed_of hexecuted
    rw [contracts.allowed_exec hrun, hs.1 (ht.cached_of hcached) hbefore]
    exact Allowed.grant_concat_exchange
  · refine Triple.pure fun s hs hcached hexecuted => ?_
    obtain ⟨hgranted, rfl⟩ := hs
    rw [hgranted hcached hexecuted] at happroved ⊢
    refine (Allowed.grant_concat_exchange_of_operator ?_).symm
    simpa using happroved

theorem approveTokens_triple {tokens : List QuoteToken} :
    Triple (Granted contracts decimals a owner conditional [] [])
      (tokens.foldlM (approveToken contracts account owner conditional) ([], 0))
      (TokensDone contracts decimals a owner conditional account.chainId tokens)
      fun _ _ => True :=
  (@Triple.foldlM (Session χ) String QuoteToken Found (fun _ _ => True)
    (approveToken contracts account owner conditional)
    (TokensDone contracts decimals a owner conditional account.chainId) tokens ([], 0)
    fun done token _ found _ => approveToken_triple done found token).weaken
      (fun _ h => ⟨fun _ => Iff.rfl, h⟩) (fun _ _ h => h) fun _ _ h => h

theorem approveExchanges_triple :
    Triple (Granted contracts decimals a owner conditional required [])
      (exchanges.foldlM (fun _ exchange => approveExchange contracts owner conditional exchange) ())
      (fun _ => Granted contracts decimals a owner conditional required exchanges)
      fun _ _ => True :=
  @Triple.foldlM (Session χ) String Address Unit (fun _ _ => True)
    (fun _ exchange => approveExchange contracts owner conditional exchange)
    (fun done _ => Granted contracts decimals a owner conditional required done) exchanges ()
    fun _ _ _ _ _ => approveExchange_triple

theorem checkGasBalance_triple {P : Session χ → Prop} {E : String → Session χ → Prop}
    {address : Address} {gas : ℕ} (hP : ∀ s, P s → P s.next) (hE : ∀ e s, P s → E e s) :
    Triple P (checkGasBalance contracts address gas) (fun _ => P) E := by
  unfold checkGasBalance
  refine (query_triple hP hE).bind fun balance => ?_
  refine (query_triple (fun s h => ⟨hP s h.1, h.2⟩) fun e s h => hE e s h.1).bind fun baseFee => ?_
  have hlast : ∀ gasPrice, Triple P
      (if balance < gasPrice * (gas * 12 / 10) then throw "opinion insufficient gas balance"
        else pure ()) (fun _ => P) E :=
    fun gasPrice => Triple.ite (fun _ => Triple.throw (hE _)) fun _ => Triple.pure fun _ h => h
  refine Triple.ite (fun _ => (Triple.pure fun s h => h.1.1).bind hlast) fun _ => ?_
  refine (query_triple (fun s h => ⟨⟨hP s h.1.1, h.1.2⟩, h.2⟩) fun e s h => hE e s h.1.1).bind
    fun gasPrice => (hlast gasPrice).weaken (fun s h => h.1.1.1) (fun _ _ h => h) fun _ _ h => h

theorem prepare_triple {P : Session χ → Prop} {E : String → Session χ → Prop}
    (hP : ∀ s, P s → P s.next) (hE : ∀ e s, P s → E e s) :
    Triple P (prepare contracts account) (fun _ => P) E := by
  have hparsed : Triple P
      (do
        if account.rpcUrlParses = false then throw "opinion rpc_url parse failed"
        checkGasBalance contracts account.signer 500000) (fun _ => P) E := by
    refine Triple.ite (fun _ => ?_) fun _ => checkGasBalance_triple hP hE
    exact (Triple.throw (hE _)).bind fun _ => checkGasBalance_triple hP hE
  unfold prepare
  exact Triple.ite (fun _ => (Triple.throw (hE _)).bind fun _ => hparsed) fun _ => hparsed

theorem getQuoteTokens_triple {P : Session χ → Prop} {E : String → Session χ → Prop}
    (hE : ∀ e s, P s → E e s) :
    Triple P (getQuoteTokens account) (fun tokens s => P s ∧ account.quoteTokens = .ok tokens)
      E := by
  unfold getQuoteTokens
  split
  · exact Triple.pure fun s hs => ⟨hs, ‹_›⟩
  · exact Triple.throw (hE _)

/-- All that the account asks for is allowed, if the caches agree with the decimals. -/
def Enabled (contracts : Contracts χ) (decimals : Address → ℕ) (a : Allowed)
    (account : TradingAccount) (owner : Address) (s : Session χ) : Prop :=
  ∃ conditional tokens, account.conditionalTokens.parsed = some conditional ∧
    account.quoteTokens = .ok tokens ∧ (s.Cached decimals → contracts.allowed s.chain =
      a.grant owner conditional (fun token => minThreshold (decimals token))
        (tokens.flatMap (requiredBy account.chainId conditional))
        (tokens.filterMap (exchangeOf account.chainId)))

theorem enableTradingOnchainEoa_triple {order : SetOrder} (chain : χ) :
    Triple (fun s => s.chain = chain) (enableTradingOnchainEoa contracts account order)
      (fun _ s => s.Executed →
        Enabled contracts decimals (contracts.allowed chain) account account.signer s)
      fun _ _ => True := by
  unfold enableTradingOnchainEoa
  refine (prepare_triple (fun s h => h) fun _ _ _ => trivial).bind fun _ => ?_
  refine (getQuoteTokens_triple fun _ _ _ => trivial).bind fun tokens => ?_
  refine (orThrow_triple fun _ _ _ => trivial).bind fun conditional => ?_
  refine Triple.assume (fun s h => h.2) fun hconditional => ?_
  refine Triple.assume (fun s h => h.1.2) fun htokens => ?_
  have hloop := @approveTokens_triple χ contracts decimals (contracts.allowed chain)
    account.signer conditional account tokens
  refine (hloop.weaken (fun s h => ?_) (fun _ _ h => h) fun _ _ h => h).bind fun found => ?_
  · intro _ _
    rw [h.1.1]
    exact Allowed.grant_nil.symm
  · refine Triple.assume (fun s h => h.1) fun hmem => ?_
    have hrest : Triple (TokensDone contracts decimals (contracts.allowed chain) account.signer
          conditional account.chainId tokens found)
        ((order.arrange found.1).foldlM
          (fun _ exchange => approveExchange contracts account.signer conditional exchange) ())
        (fun _ s => s.Executed →
          Enabled contracts decimals (contracts.allowed chain) account account.signer s)
        fun _ _ => True := by
      refine approveExchanges_triple.weaken (fun _ h => h.2) (fun _ s h hexecuted => ?_)
        fun _ _ h => h
      refine ⟨conditional, tokens, hconditional, htokens, fun hcached => ?_⟩
      rw [h hcached hexecuted]
      exact Allowed.grant_congr fun e => (order.perm found.1).mem_iff.trans (hmem e)
    exact Triple.ite (fun _ => (Triple.throw fun _ _ => trivial).bind fun _ => hrest)
      fun _ => hrest

end

/-! ## One batch -/

section

open Fallible

variable {χ : Type} (contracts : Contracts χ) (decimals : Address → ℕ) (chain : χ)
  (owner conditional : Address)

/-- The chain is as it was, and the transactions would allow this much. -/
def Planned (required : List (Address × Address)) (exchanges : List Address)
    (txs : List MultiSendTx) (s : Session χ) : Prop :=
  s.chain = chain ∧ ∃ calls : List (Address × ContractCall),
    txs = calls.map (fun p => contracts.tx p.1 p.2) ∧ (s.Cached decimals →
      calls.foldl (fun b p => b.apply owner p.1 p.2) (contracts.allowed chain) =
        (contracts.allowed chain).grant owner conditional
          (fun token => minThreshold (decimals token)) required exchanges)

variable {contracts decimals chain owner conditional}
variable {required : List (Address × Address)} {exchanges : List Address}
variable {token spender exchange : Address} {value : ℕ} {label : String}
variable {txs : List MultiSendTx} {account : TradingAccount}

theorem Planned.push {s : Session χ} (calls : List (Address × ContractCall))
    (required' : List (Address × Address)) (exchanges' : List Address)
    (hs : Planned contracts decimals chain owner conditional required exchanges txs s)
    (h : s.Cached decimals → calls.foldl (fun b p => b.apply owner p.1 p.2)
        ((contracts.allowed chain).grant owner conditional
          (fun token => minThreshold (decimals token)) required exchanges) =
      (contracts.allowed chain).grant owner conditional
        (fun token => minThreshold (decimals token)) required' exchanges') :
    Planned contracts decimals chain owner conditional required' exchanges'
      (txs ++ calls.map (fun p => contracts.tx p.1 p.2)) s := by
  obtain ⟨hchain, before, rfl, hbefore⟩ := hs
  refine ⟨hchain, before ++ calls, List.map_append.symm, fun hcached => ?_⟩
  rw [List.foldl_append, hbefore hcached, h hcached]

theorem planAllowance_triple :
    Triple (fun s => Planned contracts decimals chain owner conditional required exchanges txs s ∧
        s.tokenDecimals token = some value)
      (planAllowance contracts label owner token spender (minThreshold value) txs)
      (fun txs' s => Planned contracts decimals chain owner conditional
        (required ++ [(token, spender)]) exchanges txs' s ∧ s.tokenDecimals token = some value)
      fun _ s => s.chain = chain := by
  unfold planAllowance
  refine (query_triple (fun s h => h) fun _ _ h => h.1.1).bind fun allowance => ?_
  refine Triple.ite (fun hlt => Triple.pure fun s hs => ?_) fun hle => Triple.pure fun s hs => ?_
  · obtain ⟨⟨hplanned, hvalue⟩, rfl⟩ := hs
    rw [hplanned.1] at hlt ⊢
    -- the reset is undone by what follows it
    have hcalls := hplanned.push
      ((if (contracts.allowed chain).allowance token owner spender > 0 then
        [(token, .approve spender U256.zero)] else []) ++ [(token, .approve spender U256.max)])
      (required ++ [(token, spender)]) exchanges fun hcached => ?_
    · refine ⟨?_, hvalue⟩
      rw [List.append_assoc]
      convert hcalls using 2
      split <;> rfl
    · rw [← hcached token value hvalue] at hlt
      split
      · exact (Allowed.apply_approve_approve _ _).trans (Allowed.grant_concat_of_lt hlt)
      · exact Allowed.grant_concat_of_lt hlt
  · obtain ⟨⟨hplanned, hvalue⟩, rfl⟩ := hs
    have hpush := hplanned.push [] (required ++ [(token, spender)]) exchanges fun hcached => ?_
    · rw [List.map_nil, List.append_nil] at hpush
      exact ⟨hpush, hvalue⟩
    · rw [hplanned.1, ← hcached token value hvalue] at hle
      exact (Allowed.grant_concat_of_le (Allowed.le_grant_of_le (not_lt.mp hle))).symm

/-- What is known in the loop over the tokens. -/
def TokensPlanned (contracts : Contracts χ) (decimals : Address → ℕ) (chain : χ)
    (owner conditional : Address) (chainId : ℕ) (done : List QuoteToken)
    (plan : Found × List MultiSendTx) (s : Session χ) : Prop :=
  (∀ e, e ∈ plan.1.1 ↔ e ∈ done.filterMap (exchangeOf chainId)) ∧
    Planned contracts decimals chain owner conditional
      (done.flatMap (requiredBy chainId conditional)) [] plan.2 s

theorem Looked.planned {s t : Session χ} (h : Looked token s value t)
    (hs : Planned contracts decimals chain owner conditional required exchanges txs s) :
    Planned contracts decimals chain owner conditional required exchanges txs t := by
  obtain ⟨hchain, calls, htxs, hcalls⟩ := hs
  refine ⟨h.chain.trans hchain, calls, htxs, fun hcached => hcalls ?_⟩
  exact fun token' value' hvalue => hcached token' value' (h.kept token' value' hvalue)

theorem planToken_triple (done : List QuoteToken) (plan : Found × List MultiSendTx)
    (quoteToken : QuoteToken) :
    Triple (TokensPlanned contracts decimals chain owner conditional account.chainId done plan)
      (planToken contracts account owner conditional plan quoteToken)
      (TokensPlanned contracts decimals chain owner conditional account.chainId
        (done ++ [quoteToken]))
      fun _ s => s.chain = chain := by
  unfold planToken
  refine Triple.ite (fun hother => ?_) fun hhere => ?_
  · refine Triple.pure fun s hs => ?_
    obtain ⟨hexchanges, hrequired⟩ := @asked_concat_other _ conditional _ done hother
    rw [TokensPlanned, hexchanges, hrequired]
    exact hs
  · refine (tokenAddresses_triple fun _ _ h => h.2.1).bind fun p => ?_
    obtain ⟨quote, exchange⟩ := p
    refine Triple.assume (fun s h => h.2) fun ⟨hquote, hexchange⟩ => ?_
    have hfound := exchangeOf_here (not_not.mp hhere) hexchange
    have hrequired := @requiredBy_here _ conditional _ _ _ (not_not.mp hhere) hquote hexchange
    refine Triple.assume (fun s h => h.1.1) fun hmem => ?_
    have hplan := @planAllowance_triple χ contracts decimals chain owner conditional
      (done.flatMap (requiredBy account.chainId conditional)) [] quote exchange
    refine (getTokenDecimals_triple fun s value t hs ht => ?_).bind fun value =>
      hplan.bind fun _ => planAllowance_triple.bind fun _ =>
        Triple.pure fun s hs => ⟨mem_insert_exchange hmem hfound, ?_⟩
    · exact ⟨ht.planned hs.1.2, ht.found⟩
    · rw [List.flatMap_append, List.flatMap_singleton, hrequired]
      rw [List.append_assoc] at hs
      exact hs.1

theorem planTokens_triple {tokens : List QuoteToken} :
    Triple (Planned contracts decimals chain owner conditional [] [] [])
      (tokens.foldlM (planToken contracts account owner conditional) (([], 0), []))
      (TokensPlanned contracts decimals chain owner conditional account.chainId tokens)
      fun _ s => s.chain = chain :=
  (@Triple.foldlM (Session χ) String QuoteToken (Found × List MultiSendTx)
    (fun _ s => s.chain = chain) (planToken contracts account owner conditional)
    (TokensPlanned contracts decimals chain owner conditional account.chainId) tokens
    (([], 0), []) fun done token _ plan _ => planToken_triple done plan token).weaken
      (fun _ h => ⟨fun _ => Iff.rfl, h⟩) (fun _ _ h => h) fun _ _ h => h

theorem planExchange_triple :
    Triple (Planned contracts decimals chain owner conditional required exchanges txs)
      (planExchange contracts owner conditional txs exchange)
      (Planned contracts decimals chain owner conditional required (exchanges ++ [exchange]))
      fun _ s => s.chain = chain := by
  unfold planExchange
  refine (query_triple (fun s h => h) fun _ _ h => h.1).bind fun approved =>
    Triple.pure fun s hs => ?_
  obtain ⟨hplanned, rfl⟩ := hs
  rw [hplanned.1]
  split
  · exact hplanned.push [(conditional, .setApprovalForAll exchange true)] required
      (exchanges ++ [exchange]) fun _ => Allowed.grant_concat_exchange
  · rename_i happroved
    have hpush := hplanned.push [] required (exchanges ++ [exchange]) fun _ => ?_
    · rw [List.map_nil, List.append_nil] at hpush
      exact hpush
    · refine (Allowed.grant_concat_exchange_of_operator
        (Allowed.grant_operator_of_operator ?_)).symm
      simpa using happroved

theorem planExchanges_triple :
    Triple (Planned contracts decimals chain owner conditional required [] txs)
      (exchanges.foldlM (planExchange contracts owner conditional) txs)
      (Planned contracts decimals chain owner conditional required exchanges)
      fun _ s => s.chain = chain :=
  @Triple.foldlM (Session χ) String Address (List MultiSendTx) (fun _ s => s.chain = chain)
    (planExchange contracts owner conditional)
    (fun done txs => Planned contracts decimals chain owner conditional required done txs)
    exchanges txs fun _ _ _ _ _ => planExchange_triple

/-- The calls of a batch take effect one after another. -/
theorem allowed_foldlM {calls : List (Address × ContractCall)} {s t : χ}
    (h : (calls.map fun p => contracts.tx p.1 p.2).foldlM
      (fun s tx => contracts.exec s owner tx.toAddress tx.data) s = some t) :
    contracts.allowed t =
      calls.foldl (fun b p => b.apply owner p.1 p.2) (contracts.allowed s) := by
  induction calls generalizing s with
  | nil =>
    cases Option.some.inj h
    rfl
  | cons p calls ih =>
    rw [List.map_cons, List.foldlM_cons] at h
    obtain ⟨u, hexec, hrest⟩ := Option.bind_eq_some_iff.mp h
    rw [ih hrest, List.foldl_cons, contracts.allowed_exec hexec]
    rfl

/-- A batch that is executed does what was planned. -/
theorem Planned.multiSend {s : Session χ} {after : χ}
    (hs : Planned contracts decimals chain owner conditional required exchanges txs s)
    (hcached : s.Cached decimals)
    (h : contracts.multiSend s.chain owner (encodeMultisendTxs txs) = some after) :
    contracts.allowed after = (contracts.allowed chain).grant owner conditional
      (fun token => minThreshold (decimals token)) required exchanges := by
  obtain ⟨hchain, calls, rfl, hcalls⟩ := hs
  rw [contracts.multiSend_encode] at h
  · rw [allowed_foldlM h, hchain, hcalls hcached]
  · intro tx htx
    obtain ⟨p, -, rfl⟩ := List.mem_map.mp htx
    exact ⟨rfl, rfl⟩

/-- All that was planned is allowed, if the caches agree with the decimals. -/
def Carried (contracts : Contracts χ) (decimals : Address → ℕ) (chain : χ)
    (owner conditional : Address) (required : List (Address × Address))
    (exchanges : List Address) (s : Session χ) : Prop :=
  s.Cached decimals → contracts.allowed s.chain =
    (contracts.allowed chain).grant owner conditional
      (fun token => minThreshold (decimals token)) required exchanges

/-- The batch is carried out or nothing is, and a receipt tells which. -/
theorem safeExecTransaction_triple :
    Triple (Planned contracts decimals chain owner conditional required exchanges txs)
      (safeExecTransaction contracts owner (encodeMultisendTxs txs))
      (fun _ s =>
        (s.chain = chain ∨
          Carried contracts decimals chain owner conditional required exchanges s) ∧
        (s.Executed → Carried contracts decimals chain owner conditional required exchanges s))
      fun _ s => s.chain = chain ∨
        Carried contracts decimals chain owner conditional required exchanges s := by
  unfold safeExecTransaction
  refine (query_triple (fun s h => h) fun _ _ h => Or.inl h.1).bind fun _ => ?_
  refine (query_triple (fun s h => h) fun _ _ h => Or.inl h.1.1).bind fun _ => ?_
  refine (transact_triple (fun s r t hs ht => ?_) fun s _ t hs ht => ?_).bind fun receipt =>
    Triple.ite (fun _ => Triple.throw fun _ h => h.1) fun _ => Triple.pure fun _ h => h
  · have hplanned := hs.1.1
    constructor
    · by_cases hr : r = some true
      · refine Or.inr fun hcached => ?_
        exact hplanned.multiSend (ht.cached_of hcached) (ht.executed hr)
      · exact Or.inl ((ht.unchanged hr).trans hplanned.1)
    · intro hexecuted hcached
      exact hplanned.multiSend (ht.cached_of hcached) (ht.executed_of hexecuted).2
  · have hplanned := hs.1.1
    obtain hsame | hrun := ht.chain
    · exact Or.inl (hsame.trans hplanned.1)
    · refine Or.inr fun hcached => hplanned.multiSend ?_ hrun
      unfold Session.Cached at hcached ⊢
      rw [← ht.decimals]
      exact hcached

/-- The Safe of the account allows all that is asked for. -/
def SafeEnabled (contracts : Contracts χ) (decimals : Address → ℕ) (chain : χ)
    (account : TradingAccount) (s : Session χ) : Prop :=
  ∃ safe, account.safe = some safe ∧
    Enabled contracts decimals (contracts.allowed chain) account safe s

theorem enableTradingOnchainSafe_triple {order : SetOrder} (chain : χ) :
    Triple (fun s => s.chain = chain) (enableTradingOnchainSafe contracts account order)
      (fun _ s => (s.chain = chain ∨ SafeEnabled contracts decimals chain account s) ∧
        (s.Executed → SafeEnabled contracts decimals chain account s))
      fun _ s => s.chain = chain ∨ SafeEnabled contracts decimals chain account s := by
  unfold enableTradingOnchainSafe
  refine (orThrow_triple fun _ _ h => Or.inl h).bind fun safe => ?_
  refine Triple.assume (fun s h => h.2) fun hsafe => ?_
  refine (prepare_triple (fun s h => h) fun _ _ h => Or.inl h.1).bind fun _ => ?_
  refine (orThrow_triple fun _ _ h => Or.inl h.1).bind fun _ => ?_
  refine (getQuoteTokens_triple fun _ _ h => Or.inl h.1.1).bind fun tokens => ?_
  refine Triple.assume (fun s h => h.2) fun htokens => ?_
  refine (orThrow_triple fun _ _ h => Or.inl h.1.1.1).bind fun conditional => ?_
  refine Triple.assume (fun s h => h.2) fun hconditional => ?_
  have hloop := @planTokens_triple χ contracts decimals chain safe conditional account tokens
  refine (hloop.weaken (fun s h => ?_) (fun _ _ h => h) fun _ _ h => Or.inl h).bind fun plan => ?_
  · refine ⟨h.1.1.1.1, [], rfl, fun _ => Allowed.grant_nil.symm⟩
  · obtain ⟨found, txs⟩ := plan
    refine Triple.assume (fun s h => h.1) fun hmem => ?_
    -- what is carried out is what the account asks for
    have hcarried : ∀ s, Carried contracts decimals chain safe conditional
        (tokens.flatMap (requiredBy account.chainId conditional)) (order.arrange found.1) s →
          SafeEnabled contracts decimals chain account s := by
      intro s hs
      refine ⟨safe, hsafe, conditional, tokens, hconditional, htokens, fun hcached => ?_⟩
      rw [hs hcached]
      exact Allowed.grant_congr fun e => (order.perm found.1).mem_iff.trans (hmem e)
    have hplans := (@planExchanges_triple χ contracts decimals chain safe conditional
      (tokens.flatMap (requiredBy account.chainId conditional)) (order.arrange found.1) txs).weaken
        (fun s h => h) (fun _ _ h => h) fun _ s h => (Or.inl h : s.chain = chain ∨
          SafeEnabled contracts decimals chain account s)
    have hrest : ∀ txs, Triple (Planned contracts decimals chain safe conditional
          (tokens.flatMap (requiredBy account.chainId conditional)) (order.arrange found.1) txs)
        (if txs = [] then return ()
          else safeExecTransaction contracts safe (encodeMultisendTxs txs))
        (fun _ s => (s.chain = chain ∨ SafeEnabled contracts decimals chain account s) ∧
          (s.Executed → SafeEnabled contracts decimals chain account s))
        fun _ s => s.chain = chain ∨ SafeEnabled contracts decimals chain account s := by
      intro txs
      refine Triple.ite (fun hnil => Triple.pure fun s hs => ⟨Or.inl hs.1, fun _ => ?_⟩) fun _ => ?_
      · obtain ⟨hchain, calls, htxs, hcalls⟩ := hs
        rw [hnil] at htxs
        rw [List.map_eq_nil_iff.mp htxs.symm] at hcalls
        refine hcarried s fun hcached => ?_
        rw [hchain]
        exact hcalls hcached
      · exact safeExecTransaction_triple.weaken (fun _ h => h)
          (fun _ s h => ⟨h.1.imp_right (hcarried s), fun he => hcarried s (h.2 he)⟩)
          fun _ s h => h.imp_right (hcarried s)
    refine Triple.ite (fun _ => ?_) fun _ => ?_
    · refine Triple.bind (Triple.throw ?_) fun _ => hplans.bind hrest
      exact fun _ h => Or.inl h.2.1
    · exact (hplans.bind hrest).weaken (fun _ h => h.2) (fun _ _ h => h) fun _ _ h => h

end

/-! ## Both ways -/

section

open Fallible

variable {χ : Type} {contracts : Contracts χ} {account : TradingAccount} {order : SetOrder}
  {s t : Session χ}

/-- The decimals of the tokens, as they are cached. -/
def Session.decimalsOf (s : Session χ) (token : Address) : ℕ := (s.tokenDecimals token).getD 18

theorem Session.cached_decimalsOf (s : Session χ) : s.Cached s.decimalsOf := by
  intro token value hvalue
  rw [decimalsOf, hvalue, Option.getD_some]

/-- What an owner allows after enabling: everything that was asked for. -/
def GrantedTo (contracts : Contracts χ) (account : TradingAccount) (owner : Address)
    (s t : Session χ) : Prop :=
  ∃ conditional tokens, account.conditionalTokens.parsed = some conditional ∧
    account.quoteTokens = .ok tokens ∧ contracts.allowed t.chain =
      (contracts.allowed s.chain).grant owner conditional
        (fun token => minThreshold (t.decimalsOf token))
        (tokens.flatMap (requiredBy account.chainId conditional))
        (tokens.filterMap (exchangeOf account.chainId))

theorem Enabled.grantedTo {owner : Address}
    (h : Enabled contracts t.decimalsOf (contracts.allowed s.chain) account owner t) :
    GrantedTo contracts account owner s t := by
  obtain ⟨conditional, tokens, hconditional, htokens, hallowed⟩ := h
  exact ⟨conditional, tokens, hconditional, htokens, hallowed t.cached_decimalsOf⟩

/-- The account allows all that is asked for and nothing else changes, if the attempt succeeds and
every transaction was executed. -/
theorem eoa_refines_grant
    (h : exec (enableTradingOnchainEoa contracts account order) s = (.ok (), t))
    (hexecuted : t.Executed) : GrantedTo contracts account account.signer s t :=
  ((enableTradingOnchainEoa_triple s.chain).ok rfl h hexecuted).grantedTo

/-- A Safe allows all that is asked for, or the chain is as it was, whatever becomes of the calls;
after a success with an executed batch, or with nothing to do, it is the former. -/
theorem safe_all_or_nothing {result : Except String Unit}
    (h : exec (enableTradingOnchainSafe contracts account order) s = (result, t)) :
    (t.chain = s.chain ∨
        ∃ safe, account.safe = some safe ∧ GrantedTo contracts account safe s t) ∧
      (result = .ok () → t.Executed →
        ∃ safe, account.safe = some safe ∧ GrantedTo contracts account safe s t) := by
  have htriple := @enableTradingOnchainSafe_triple χ contracts t.decimalsOf account order s.chain
  have hgranted : SafeEnabled contracts t.decimalsOf s.chain account t →
      ∃ safe, account.safe = some safe ∧ GrantedTo contracts account safe s t := by
    rintro ⟨safe, hsafe, henabled⟩
    exact ⟨safe, hsafe, henabled.grantedTo⟩
  cases result with
  | error e => exact ⟨(htriple.error rfl h).imp_right hgranted, fun h => nomatch h⟩
  | ok u =>
    have hok := htriple.ok rfl h
    exact ⟨hok.1.imp_right hgranted, fun _ hexecuted => hgranted (hok.2 hexecuted)⟩

/-! ## A chain -/

/-- The data of a call: which call it is, and its arguments. -/
def sampleCalldata : ContractCall → List UInt8
  | .approve spender amount => 0 :: (spender.bytes ++ bigEndian 32 amount.val)
  | .setApprovalForAll operator approved => (if approved then 2 else 1) :: operator.bytes

def sampleCall : List UInt8 → Option ContractCall
  | [] => none
  | kind :: rest =>
    if h : (rest.take 20).length = 20 ∧ ofBigEndian (rest.drop 20) < 2 ^ 256 then
      if kind = 0 then some (.approve ⟨rest.take 20, h.1⟩ ⟨ofBigEndian (rest.drop 20), h.2⟩)
      else some (.setApprovalForAll ⟨rest.take 20, h.1⟩ (decide (kind = 2)))
    else none

theorem sampleCall_sampleCalldata (call : ContractCall) :
    sampleCall (sampleCalldata call) = some call := by
  cases call with
  | approve spender amount =>
    have htake : (spender.bytes ++ bigEndian 32 amount.val).take 20 = spender.bytes := by
      rw [← spender.length_bytes, List.take_left]
    have hdrop : (spender.bytes ++ bigEndian 32 amount.val).drop 20 = bigEndian 32 amount.val := by
      rw [← spender.length_bytes, List.drop_left]
    have hvalue : ofBigEndian (bigEndian 32 amount.val) = amount.val :=
      ofBigEndian_bigEndian (amount.isLt.trans_eq (by norm_num))
    simp [sampleCalldata, sampleCall, htake, hdrop, hvalue, spender.length_bytes]
  | setApprovalForAll operator approved =>
    have htake : operator.bytes.take 20 = operator.bytes :=
      List.take_of_length_le operator.length_bytes.le
    have hdrop : operator.bytes.drop 20 = [] := List.drop_of_length_le operator.length_bytes.le
    cases approved <;>
      simp [sampleCalldata, sampleCall, htake, hdrop, ofBigEndian, operator.length_bytes]

theorem length_sampleCalldata (call : ContractCall) : (sampleCalldata call).length < 2 ^ 64 := by
  cases call with
  | approve spender amount =>
    rw [sampleCalldata, List.length_cons, List.length_append, spender.length_bytes,
      length_bigEndian]
    norm_num
  | setApprovalForAll operator approved =>
    rw [sampleCalldata, List.length_cons, operator.length_bytes]
    norm_num

/-- Contracts that do as they are documented. -/
def sampleContracts : Contracts Allowed where
  allowed := id
  decimals := fun _ _ => some 6
  balance := fun _ _ => 10 ^ 18
  baseFee := fun _ => 0
  gasPrice := fun _ => 10 ^ 9
  calldata := sampleCalldata
  exec := fun s sender contract data => (sampleCall data).map (s.apply sender contract)
  multiSend := fun s safe data => (decodeMultisendTxs data).bind fun txs =>
    txs.foldlM (fun s tx => (sampleCall tx.data).map (s.apply safe tx.toAddress)) s
  length_calldata := length_sampleCalldata
  allowed_exec := by
    intro s s' sender contract call h
    rw [sampleCall_sampleCalldata] at h
    exact (Option.some.inj h).symm
  multiSend_encode := by
    intro s safe txs _
    rw [decode_encode, Option.bind_some]

def sampleAddress (n : ℕ) : Address := ⟨bigEndian 20 n, length_bigEndian 20 n⟩

/-- One token of the chain, and one of another. -/
def sampleAccount : TradingAccount where
  signer := sampleAddress 1
  safe := some (sampleAddress 2)
  multisendAddress := some (sampleAddress 3)
  chainId := 56
  hasRpcUrl := true
  rpcUrlParses := true
  conditionalTokens := ⟨"conditional", some (sampleAddress 4)⟩
  quoteTokens := .ok
    [⟨56, ⟨"usdt", some (sampleAddress 5)⟩, ⟨"exchange", some (sampleAddress 6)⟩⟩,
      ⟨1, ⟨"elsewhere", none⟩, ⟨"elsewhere", none⟩⟩]

def sampleOrder : SetOrder := ⟨id, fun _ => List.Perm.refl _⟩

/-- Nothing is allowed, and every call goes through. -/
def sampleSession : Session Allowed := ⟨⟨fun _ _ _ => 0, fun _ _ _ => false⟩, fun _ => none, [], []⟩

theorem eoa_refines_grant_sample : ∃ t : Session Allowed,
    exec (enableTradingOnchainEoa sampleContracts sampleAccount sampleOrder) sampleSession =
        (.ok (), t) ∧
      t.receipts = List.replicate 3 (some true) ∧
      GrantedTo sampleContracts sampleAccount (sampleAddress 1) sampleSession t := by
  have hresult : (exec (enableTradingOnchainEoa sampleContracts sampleAccount sampleOrder)
      sampleSession).1 = .ok () := by decide +kernel
  have hreceipts : (exec (enableTradingOnchainEoa sampleContracts sampleAccount sampleOrder)
      sampleSession).2.receipts = List.replicate 3 (some true) := by decide +kernel
  refine ⟨_, exec_eq hresult, hreceipts, eoa_refines_grant (exec_eq hresult) ?_⟩
  intro r hr
  rw [hreceipts] at hr
  exact List.eq_of_mem_replicate hr

theorem safe_all_or_nothing_sample : ∃ t : Session Allowed,
    exec (enableTradingOnchainSafe sampleContracts sampleAccount sampleOrder) sampleSession =
        (.ok (), t) ∧
      ∃ safe, sampleAccount.safe = some safe ∧
        GrantedTo sampleContracts sampleAccount safe sampleSession t := by
  have hresult : (exec (enableTradingOnchainSafe sampleContracts sampleAccount sampleOrder)
      sampleSession).1 = .ok () := by decide +kernel
  have hreceipts : (exec (enableTradingOnchainSafe sampleContracts sampleAccount sampleOrder)
      sampleSession).2.receipts = [some true] := by decide +kernel
  refine ⟨_, exec_eq hresult, (safe_all_or_nothing (exec_eq hresult)).2 rfl ?_⟩
  intro r hr
  rw [hreceipts] at hr
  exact List.mem_singleton.mp hr

end

end AlphaMonitor.Exchange
