import AlphaMonitor.Trade.News

/-!
# Exit orders at the exchange

The engine knows one exit order of a pair at a time.  The exchange may hold more: an
order that the engine has lost sight of stays in the book.  This file puts the engine
next to an exchange that accepts every exit order, and asks how many of a pair it holds.

## Main results

- `Market.Inv.step`: what a calm step keeps
- `one_exit_of_calm`: after calm steps at most one exit order of the pair is in the book
-/

namespace AlphaMonitor.Trade

variable {setup : Setup} {env : Env} {key : PairKey}

/-! ## The exchange -/

/-- An exit order that the exchange accepted. -/
structure ExitOrder where
  orderId : String
  qty : ℚ
  deriving DecidableEq, Repr

/-- The shares that a submission is for. -/
def Submission.shares (sub : Submission) : ℚ :=
  match sub.amount with
  | .base qty => qty
  | .quote amount => amount / sub.price

/-- The order that the exchange makes of a submission. -/
def Submission.exitOrder? (sub : Submission) : Option ExitOrder :=
  sub.reply.acceptedId.map fun orderId => ⟨orderId, sub.shares⟩

/-- The exit orders of a pair among the calls. -/
def exitOrders (key : PairKey) (calls : List (PairKey × Submission)) : List ExitOrder :=
  (calls.filter fun call => call.1 = key).filterMap fun call => call.2.exitOrder?

/-- The exchange accepts every exit order and reports its id. -/
def Env.accepting (env : Env) (exitIds : PairKey → ℕ → String) : Env :=
  { env with exitReplies := fun key i => .accepted (exitIds key i) }

/-- The engine, and what the exchange holds of one pair. -/
structure Market where
  eng : TradeEngine
  /-- Exit orders of the pair that were accepted and are neither cancelled nor filled. -/
  exits : List ExitOrder
  /-- How much of the entry order is filled. -/
  filled : ℚ

inductive MarketEvent where
  /-- The engine handles a message; its exit orders get these ids. -/
  | message (env : Env) (exitIds : PairKey → ℕ → String) (message : TradeMessage)
  /-- A part of the entry order is filled. -/
  | entryTraded (size : ℚ)
  /-- An exit order is filled or cancelled. -/
  | exitEnded (orderId : String)

/-- What a pair with the orders `o` may take a message for: an entry fill that leaves it
with no more than is filled, and while an exit order is in the book only where its
cancellation is asked for already; anything else only when no exit order is in the book. -/
def News.Calm (o : OrderState) (exits : List ExitOrder) (filled : ℚ) : Option News → Prop
  | some (.entryFill fill) =>
    (exits ≠ [] → o.exitCancelPending = true) ∧ ∀ qty ∈ fill.size.or o.entryQty, qty ≤ filled
  | some _ => exits = []
  | none => True

instance (o : OrderState) (exits : List ExitOrder) (filled : ℚ) :
    (news : Option News) → Decidable (News.Calm o exits filled news)
  | some (.entryFill fill) => inferInstanceAs (Decidable ((exits ≠ [] → o.exitCancelPending = true) ∧
      ∀ qty ∈ fill.size.or o.entryQty, qty ≤ filled))
  | some .exitFill => inferInstanceAs (Decidable (exits = []))
  | some .entryCancelled => inferInstanceAs (Decidable (exits = []))
  | some .exitCancelled => inferInstanceAs (Decidable (exits = []))
  | none => inferInstanceAs (Decidable True)

namespace Market

variable (setup : Setup) (key : PairKey) (m : Market)

/-- The engine has sent off a new entry. -/
def EntersAnew (eng eng' : TradeEngine) : Prop :=
  (eng'.stateOf key).entryPlaceReqId.isSome = true ∧
    (eng'.stateOf key).entryPlaceReqId ≠ (eng.stateOf key).entryPlaceReqId

instance (eng eng' : TradeEngine) : Decidable (EntersAnew key eng eng') :=
  inferInstanceAs (Decidable (_ ∧ _))

/-- The engine has gone on to `eng`. -/
def after (eng : TradeEngine) : Market where
  eng := eng
  exits := m.exits ++ exitOrders key (eng.desk.exitCalls.drop m.eng.desk.exitCalls.length)
  filled := if EntersAnew key m.eng eng then 0 else m.filled

def step : MarketEvent → Option Market
  | .message env exitIds message =>
    some (m.after key (TradeEngine.handle setup (env.accepting exitIds) m.eng message))
  | .entryTraded size => if 0 < size then some { m with filled := m.filled + size } else none
  | .exitEnded orderId => some { m with exits := m.exits.filter fun o => o.orderId ≠ orderId }

/-- At most one exit order is in the book, for no more than was bought. -/
structure OneExit : Prop where
  single : m.exits.length ≤ 1
  covered : (m.exits.map (·.qty)).sum ≤ m.filled

def Calm : MarketEvent → Prop
  | .message env exitIds message =>
    News.Calm (m.eng.stateOf key).toOrderState m.exits m.filled
      (message.news setup (env.accepting exitIds) m.eng key)
  | _ => True

instance (setup : Setup) (key : PairKey) (m : Market) :
    (e : MarketEvent) → Decidable (m.Calm setup key e)
  | .message _ _ _ => inferInstanceAs (Decidable (News.Calm _ _ _ _))
  | .entryTraded _ => inferInstanceAs (Decidable True)
  | .exitEnded _ => inferInstanceAs (Decidable True)

end Market

/-- The market of one pair. -/
def marketMachine (setup : Setup) (key : PairKey) : Lib.Machine Market MarketEvent where
  init m := ∃ now, m = ⟨TradeEngine.start now, [], 0⟩
  step := Market.step setup key

/-! ## Calls -/

theorem Move.calls_eq {s t : Slot} {a : Act} (h : Move setup key s a t) :
    t.desk.calls = s.desk.calls ++ a.calls.map fun call => (key, call) := by
  cases h with
  -- of all moves only a chase makes an exit call
  | upkeep hup => cases hup <;> simp [Act.calls, DeskView.send]
  | openExit => rfl
  | retryExit => rfl
  | _ => simp [Act.calls, DeskView.send]

theorem exitOrders_append (calls calls' : List (PairKey × Submission)) :
    exitOrders key (calls ++ calls') = exitOrders key calls ++ exitOrders key calls' := by
  simp [exitOrders]

theorem exitOrders_self (calls : List Submission) :
    exitOrders key (calls.map fun call => (key, call)) = calls.filterMap (·.exitOrder?) := by
  simp [exitOrders, List.filter_map, Function.comp_def, List.filterMap_map]

theorem exitOrders_of_ne {key' : PairKey} (hne : key' ≠ key) (calls : List Submission) :
    exitOrders key (calls.map fun call => (key', call)) = [] := by
  simp [exitOrders, List.filter_map, Function.comp_def, hne]

/-- An order for shares at a positive price is for so many shares. -/
theorem shares_of_orderAmount {sub : Submission} {side : OrderSide} {qty : ℚ}
    (hamount : sub.amount = orderAmount side sub.price qty) (hpos : 0 < sub.price) :
    sub.shares = qty := by
  unfold Submission.shares
  rw [hamount]
  cases side with
  | sell => rfl
  -- a buy amount is in quote currency, at the price of the call
  | buy => exact mul_div_cancel_left₀ qty hpos.ne'

/-- A chase leaves the order that it reports in the book, and no other. -/
theorem ChaseOutcome.exitOrders {side : OrderSide} {qty : ℚ} {prices : List ℚ}
    {result : PlaceResult} {calls : List Submission}
    (h : ChaseOutcome side qty prices result calls) (hpos : ∀ price ∈ prices, 0 < price) :
    calls.filterMap (·.exitOrder?) =
      (result.order.map fun order => ExitOrder.mk order.orderId qty).toList := by
  -- the chase counts every call for the whole quantity, at a price of its list
  have hshares : calls.filterMap (·.exitOrder?) =
      (calls.filterMap (·.reply.acceptedId)).map fun orderId => ExitOrder.mk orderId qty := by
    rw [List.map_filterMap]
    apply List.filterMap_congr
    intro sub hsub
    obtain ⟨-, hamount, hprice⟩ := h.calls sub hsub
    rw [Submission.exitOrder?, shares_of_orderAmount hamount (hpos _ hprice)]
  rw [hshares, h.reported]
  cases result.order <;> rfl

/-! ## What holds of the orders -/

/-- The exit orders in the book go with the orders `o` of the pair: there is at most one,
and the pair works it or waits for its cancellation. -/
structure OrderState.Exits (o : OrderState) (exits : List ExitOrder) (filled : ℚ) : Prop where
  nonneg : 0 ≤ filled
  held : o.Open → ∀ qty ∈ o.entryQty, qty ≤ filled
  single : exits.length ≤ 1
  covered : ∀ order ∈ exits, order.qty ≤ filled
  isOpen : exits ≠ [] → o.Open
  named : exits ≠ [] → o.exitOrderId.isSome = true
  worked : exits ≠ [] → o.state = .positionOpen → o.exitCancelPending = true

namespace OrderState.Exits

variable {o o' : OrderState} {exits : List ExitOrder} {filled : ℚ}

theorem of_not_open (hnonneg : 0 ≤ filled) (h : ¬ o.Open) : o.Exits [] filled :=
  ⟨hnonneg, fun hopen => absurd hopen h, Nat.zero_le _, fun _ hmem => (by cases hmem),
    fun hne => absurd rfl hne, fun hne => absurd rfl hne, fun hne => absurd rfl hne⟩

theorem nil_of_not_open (h : o.Exits exits filled) (hno : ¬ o.Open) : exits = [] := by
  by_contra hne
  exact hno (h.isOpen hne)

/-- A pair without a position before and after. -/
theorem keep_closed (h : o.Exits exits filled) (hno : ¬ o.Open) (hno' : ¬ o'.Open) :
    o'.Exits exits filled := by
  rw [h.nil_of_not_open hno]
  exact of_not_open h.nonneg hno'

/-- Nothing that the exit depends on changes, but its cancellation may be asked for. -/
theorem keep (h : o.Exits exits filled) (hstate : o'.state = o.state)
    (hqty : o'.entryQty = o.entryQty) (hid : o'.exitOrderId = o.exitOrderId)
    (hpending : o.exitCancelPending = true → o'.exitCancelPending = true) :
    o'.Exits exits filled := by
  have hopen : o'.Open ↔ o.Open := by simp [OrderState.Open, hstate]
  refine ⟨h.nonneg, ?_, h.single, h.covered, ?_, ?_, ?_⟩
  · rw [hopen, hqty]
    exact h.held
  · rw [hopen]
    exact h.isOpen
  · rw [hid]
    exact h.named
  · rw [hstate]
    exact fun hne hpos => hpending (h.worked hne hpos)

/-- A chase from a pair that has nothing in the book. -/
theorem placed (h : o.Exits [] filled) (hopen : o.Open) {qty : ℚ} (hqty : o.entryQty = some qty)
    {side : OrderSide} {prices : List ℚ} {result : PlaceResult} {calls : List Submission}
    (hcalls : ChaseOutcome side qty prices result calls) (hpos : ∀ price ∈ prices, 0 < price)
    (hstate : o.state = .exitWorking) :
    (o.exitPlaced result).Exits (calls.filterMap (·.exitOrder?)) filled := by
  -- the quantity of the position is no more than was filled
  have hle : qty ≤ filled := h.held hopen qty hqty
  have hstate' : (o.exitPlaced result).state = .exitWorking :=
    (OrderState.exitPlaced_state o result).trans hstate
  rw [hcalls.exitOrders hpos]
  refine ⟨h.nonneg, ?_, ?_, ?_, fun _ => Or.inr hstate', ?_, ?_⟩
  · intro _
    rw [(OrderState.exitPlaced_sameEntry o result).qty]
    exact h.held hopen
  · -- a chase leaves one order at most
    cases result.order <;> simp
  · cases result.order with
    | none => simp
    | some order =>
      intro placed hplaced
      obtain rfl := List.mem_singleton.mp hplaced
      exact hle
  · intro hne
    unfold OrderState.exitPlaced
    cases horder : result.order with
    | none =>
      rw [horder] at hne
      exact absurd rfl hne
    | some order => rfl
  · intro _ hpositionOpen
    rw [hstate'] at hpositionOpen
    cases hpositionOpen

end OrderState.Exits

/-! ## What a move keeps -/

/-- Without news the exit orders in the book are those that were there, and those that the
pair has just placed. -/
theorem Move.exits (hlive : setup.isLive = true) {s t : Slot} {a : Act}
    (h : Move setup key s a t) (ha : a.Plain) (hwf : s.order.Wf setup.isLive s.hasBar)
    {exits : List ExitOrder} {filled : ℚ} (hs : s.order.Exits exits filled) :
    t.order.Exits (exits ++ a.calls.filterMap (·.exitOrder?)) filled := by
  cases h.plainEffect hlive ha hwf with
  | closed hno hno' hcalls =>
    -- the pair had no exit order either
    rw [hcalls, List.filterMap_nil, List.append_nil]
    exact hs.keep_closed hno hno'
  | kept hstate hqty hid hpending hcalls =>
    rw [hcalls, List.filterMap_nil, List.append_nil]
    exact hs.keep hstate hqty hid hpending
  | exitPlaced qty prices result hopen hfree hqty hpos hcalls ht =>
    -- the position is not worked yet, or has no exit order: nothing is in the book
    have hempty : exits = [] := by
      by_contra hne
      rcases hfree with ⟨hstate, hcancel⟩ | hid
      · exact absurd (hs.worked hne hstate) (by simp [hcancel])
      · exact absurd (hs.named hne) (by simp [hid])
    subst hempty
    have hstart : ({ s.order with state := .exitWorking } : OrderState).Exits [] filled :=
      ⟨hs.nonneg, fun _ => hs.held hopen, Nat.zero_le _, hs.covered, fun hne => absurd rfl hne,
        hs.named, fun hne => absurd rfl hne⟩
    rw [ht]
    exact hstart.placed (Or.inr rfl) hqty hcalls hpos rfl

/-- What was called since the call number `n`. -/
def View.newExits (v : View) (key : PairKey) (n : ℕ) : List ExitOrder :=
  exitOrders key (v.desk.calls.drop n)

/-- The exit orders in the book, those since the call number `n` included. -/
structure View.Exits (v : View) (key : PairKey) (n : ℕ) (exits : List ExitOrder) (filled : ℚ) :
    Prop where
  since : n ≤ v.desk.calls.length
  order : (v.order key).Exits (exits ++ v.newExits key n) filled

theorem View.newExits_put {v : View} {key' : PairKey} {t : Slot} {a : Act} {n : ℕ}
    (h : Trade.Move setup key' (v.slot key') a t) (hn : n ≤ v.desk.calls.length) :
    n ≤ (v.put key' t).desk.calls.length ∧
      (v.put key' t).newExits key n =
        v.newExits key n ++ exitOrders key (a.calls.map fun call => (key', call)) := by
  have hcalls : t.desk.calls = v.desk.calls ++ a.calls.map fun call => (key', call) := h.calls_eq
  constructor
  · rw [View.put_desk, hcalls, List.length_append]
    omega
  · unfold newExits
    rw [View.put_desk, hcalls, List.drop_append_of_le_length hn, exitOrders_append]

/-- Moves of other pairs, and moves of the pair that are no news. -/
theorem View.Exits.move (hlive : setup.isLive = true) {v w : View} {a : PairKey × Act}
    (h : View.Move setup v a w) (ha : a.1 = key → a.2.Plain) (hv : v.Inv setup) {n : ℕ}
    {exits : List ExitOrder} {filled : ℚ} (hs : v.Exits key n exits filled) :
    w.Exits key n exits filled := by
  obtain ⟨key', act⟩ := a
  obtain ⟨t, hmove, rfl⟩ := h
  obtain ⟨hsince, hnew⟩ := @View.newExits_put setup key v key' t act n hmove hs.since
  refine ⟨hsince, ?_⟩
  by_cases hkey : key' = key
  · subst hkey
    rw [hnew, exitOrders_self, View.put_order_self, ← List.append_assoc]
    exact hmove.exits hlive (ha rfl) (hv.wf key') hs.order
  · rw [hnew, exitOrders_of_ne hkey, List.append_nil, View.put_order_of_ne _ _ (Ne.symm hkey)]
    exact hs.order

theorem EngineSteps.exits (hlive : setup.isLive = true) {v w : View}
    (h : EngineSteps setup (fun _ a => a.1 = key → a.2.Plain) v w) (hv : v.Inv setup) {n : ℕ}
    {exits : List ExitOrder} {filled : ℚ} (hs : v.Exits key n exits filled) :
    w.Exits key n exits filled := by
  refine (Lib.Chain.inv (fun v => v.Inv setup ∧ v.Exits key n exits filled) ?_ h ⟨hv, hs⟩).2
  rintro v a w ⟨hv, hs⟩ ha hmove
  exact ⟨hmove.inv hv, hs.move hlive hmove ha hv⟩

/-! ## What a message keeps -/

/-- A move that makes no exit call, from a pair that has nothing in the book. -/
theorem View.Exits.moveQuiet {v : View} {t : Slot} {a : Act}
    (h : Trade.Move setup key (v.slot key) a t) (hcalls : a.calls = []) {n : ℕ}
    {exits exits' : List ExitOrder} {filled : ℚ} (hs : v.Exits key n exits' filled)
    (ht : t.order.Exits (exits ++ v.newExits key n) filled) :
    (v.put key t).Exits key n exits filled := by
  obtain ⟨hsince, hnew⟩ := @View.newExits_put setup key v key t a n h hs.since
  refine ⟨hsince, ?_⟩
  rw [hnew, hcalls, View.put_order_self]
  simpa [exitOrders] using ht

theorem View.Exits.now {v : View} {exits : List ExitOrder} {filled : ℚ}
    (h : (v.order key).Exits exits filled) : v.Exits key v.desk.calls.length exits filled := by
  refine ⟨le_rfl, ?_⟩
  -- nothing was called since just now
  have hnew : v.newExits key v.desk.calls.length = [] := by simp [View.newExits, exitOrders]
  rw [hnew, List.append_nil]
  exact h

/-- Calm news. -/
theorem Told.exits (hlive : setup.isLive = true) {v : View} {news : Option News} {t : Slot}
    (h : Told setup key (v.slot key) news t) (hv : v.Inv setup) {exits : List ExitOrder}
    {filled : ℚ} (hs : (v.order key).Exits exits filled)
    (hcalm : News.Calm (v.order key) exits filled news) :
    (v.put key t).Exits key v.desk.calls.length exits filled := by
  have hnow := View.Exits.now hs
  have hnew : v.newExits key v.desk.calls.length = [] := by simp [View.newExits, exitOrders]
  cases h with
  | nothing h =>
    have hsteps : EngineSteps setup (fun _ a => a.1 = key → a.2.Plain) v (v.put key t) :=
      Steps.lift rfl (fun _ _ ha _ => Or.inr ha) h
    exact hsteps.exits hlive hv hnow
  | @entryFill fill u _ h hwork =>
    obtain ⟨hpending, hqty⟩ := hcalm
    have hmove : View.Move setup v (key, .entryFill fill) (v.put key u) := ⟨u, h, rfl⟩
    have hu : (v.put key u).Exits key v.desk.calls.length exits filled := by
      refine hnow.moveQuiet h rfl ?_
      rw [hnew, List.append_nil]
      cases h
      -- the old exit order is being cancelled already, and the new quantity is filled
      exact ⟨hs.nonneg, fun _ => hqty, hs.single, hs.covered, fun _ => Or.inl rfl, hs.named,
        fun hne _ => hpending hne⟩
    -- the position that the fill makes may be worked at once
    have hsteps : EngineSteps setup (fun _ a => a.1 = key → a.2.Plain) (v.put key u)
        ((v.put key u).put key t) :=
      Steps.lift (View.slot_put_self _ _ _) (fun _ _ ha _ => Or.inl ha.checking.routine) hwork
    rw [View.put_put] at hsteps
    exact hsteps.exits hlive (hmove.inv hv) hu
  | exitFill h =>
    subst hcalm
    refine hnow.moveQuiet h rfl ?_
    rw [hnew]
    cases h
    -- the exit order is gone from the book, and the position with it
    exact OrderState.Exits.of_not_open hs.nonneg (by
      simp [OrderState.Open, OrderState.closed, OrderState.cooldown])
  | entryCancelled h =>
    subst hcalm
    refine hnow.moveQuiet h rfl ?_
    rw [hnew]
    cases h with
    | cancelEntry =>
      exact OrderState.Exits.of_not_open hs.nonneg (by
        simp [OrderState.Open, OrderState.closed, OrderState.cooldown])
    | abandonEntry =>
      exact OrderState.Exits.of_not_open hs.nonneg (by
        simp [OrderState.Open, OrderState.cooldown])
  | exitCancelled h =>
    subst hcalm
    refine hnow.moveQuiet h rfl ?_
    rw [hnew]
    cases h
    -- the exit order is forgotten, but it is not in the book any more
    exact ⟨hs.nonneg, hs.held, Nat.zero_le _, hs.covered, fun hne => absurd rfl hne,
      fun hne => absurd rfl hne, fun hne => absurd rfl hne⟩

/-! ## Runs -/

namespace Market

/-- The engine is well formed, and its orders go with what the exchange holds. -/
structure Inv (setup : Setup) (key : PairKey) (m : Market) : Prop where
  eng : m.eng.Inv setup
  exits : (m.eng.stateOf key).toOrderState.Exits m.exits m.filled

theorem Inv.oneExit {m : Market} (h : m.Inv setup key) : m.OneExit := by
  obtain ⟨-, hnonneg, -, hsingle, hcovered, -⟩ := h
  refine ⟨hsingle, ?_⟩
  cases hexits : m.exits with
  | nil => simpa using hnonneg
  | cons order rest =>
    rw [hexits, List.length_cons] at hsingle
    have hrest : rest = [] := List.length_eq_zero_iff.mp (by omega)
    rw [hrest, List.map_singleton, List.sum_singleton]
    exact hcovered order (by rw [hexits]; exact List.mem_cons_self)

/-- A calm message. -/
theorem Inv.message (hlive : setup.isLive = true) {m : Market} (h : m.Inv setup key)
    (message : TradeMessage)
    (hcalm : News.Calm (m.eng.stateOf key).toOrderState m.exits m.filled
      (message.news setup env m.eng key)) :
    (m.after key (TradeEngine.handle setup env m.eng message)).Inv setup key := by
  have heng := @TradeEngine.handle_inv setup env m.eng message h.eng
  have hview : m.eng.view.Inv setup := ⟨h.eng.wf, h.eng.bars⟩
  have hexits : (TradeEngine.handle setup env m.eng message).view.Exits key
      m.eng.view.desk.calls.length m.exits m.filled := by
    -- the message is news for the pair, or passes it by
    rcases @TradeEngine.handle_told setup env key hlive m.eng h.eng message with
      ⟨t, htold, ht⟩ | ⟨-, hsteps⟩
    · rw [ht]
      exact htold.exits hlive hview h.exits hcalm
    · have hplain : EngineSteps setup (fun _ a => a.1 = key → a.2.Plain) m.eng.view
          (TradeEngine.handle setup env m.eng message).view :=
        Lib.Chain.mono (fun _ _ ha hkey => Or.inl (ha hkey)) hsteps
      exact hplain.exits hlive hview (View.Exits.now h.exits)
  refine ⟨heng, ?_⟩
  simp only [after]
  split
  · -- a pair that enters anew has no position, and nothing in the book
    rename_i hanew
    have hstate := (heng.wf key).placing.mpr hanew.1
    have hno : ¬ ((TradeEngine.handle setup env m.eng message).view.order key).Open := by
      simp [OrderState.Open, hstate]
    have hempty := hexits.order.nil_of_not_open hno
    have hsame : m.exits ++ exitOrders key ((TradeEngine.handle setup env m.eng
        message).desk.exitCalls.drop m.eng.desk.exitCalls.length) = [] := hempty
    rw [hsame]
    exact OrderState.Exits.of_not_open le_rfl hno
  · exact hexits.order

/-- What a calm step keeps. -/
theorem Inv.step (hlive : setup.isLive = true) {m m' : Market} {e : MarketEvent}
    (h : m.Inv setup key) (hcalm : m.Calm setup key e) (hstep : m.step setup key e = some m') :
    m'.Inv setup key := by
  cases e with
  | message env exitIds message =>
    cases hstep
    exact h.message hlive message hcalm
  | entryTraded size =>
    simp only [Market.step] at hstep
    split at hstep
    · rename_i hsize
      cases hstep
      obtain ⟨heng, hnonneg, hheld, hsingle, hcovered, hopen, hnamed, hworked⟩ := h
      refine ⟨heng, ?_, ?_, hsingle, ?_, hopen, hnamed, hworked⟩
      · -- more is filled than before, the orders are the same
        exact add_nonneg hnonneg hsize.le
      · intro hopen' qty hqty
        exact (hheld hopen' qty hqty).trans (le_add_of_nonneg_right hsize.le)
      · intro order horder
        exact (hcovered order horder).trans (le_add_of_nonneg_right hsize.le)
    · cases hstep
  | exitEnded orderId =>
    cases hstep
    obtain ⟨heng, hnonneg, hheld, hsingle, hcovered, hopen, hnamed, hworked⟩ := h
    have hsome : m.exits.filter (fun o => o.orderId ≠ orderId) ≠ [] → m.exits ≠ [] := by
      intro hne hnil
      rw [hnil] at hne
      exact hne rfl
    refine ⟨heng, hnonneg, hheld, ?_, ?_, fun hne => hopen (hsome hne),
      fun hne => hnamed (hsome hne), fun hne => hworked (hsome hne)⟩
    · exact (List.length_filter_le _ _).trans hsingle
    · intro order horder
      exact hcovered order (List.mem_of_mem_filter horder)

end Market

/-- While every step is calm, at most one exit order of the pair is in the book, and it is
for no more than was bought. -/
theorem one_exit_of_calm (hlive : setup.isLive = true) {m₀ m : Market} {events : List MarketEvent}
    (hstart : (marketMachine setup key).init m₀)
    (hcalm : (marketMachine setup key).RunMeets (Market.Calm setup key) m₀ events)
    (hrun : (marketMachine setup key).run m₀ events = some m) : m.OneExit := by
  have hinv : m.Inv setup key := by
    refine (marketMachine setup key).inv_of_runMeets (Market.Inv setup key) ?_ ?_ hcalm hrun
    · intro m e m' hm hcalm hstep
      exact hm.step hlive hcalm hstep
    · obtain ⟨now, rfl⟩ := hstart
      refine ⟨TradeEngine.start_inv now, OrderState.Exits.of_not_open le_rfl ?_⟩
      simp [TradeEngine.stateOf, TradeEngine.start, PairTradeState.default, OrderState.Open,
        OrderState.idle]
  exact hinv.oneExit

/-- A message at a time; an exit order would get the id `exitId`. -/
def sampleEvent (now : ℤ) (exitId : String) (message : TradeMessage) : MarketEvent :=
  .message (sampleEnv now exitId) (fun _ _ => exitId) message

/-- 8 of 20 shares of the entry order `e1` are traded, and the exit order `x1` is placed. -/
def samplePartlyFilled : List MarketEvent :=
  [sampleEvent 0 "x1" (.pairBar (sampleBar 0) (some sampleSignal)),
    sampleEvent 1000 "x1" (.pairBar (sampleBar 1) none), sampleEvent 1100 "x1" (samplePlaced 1 "e1"),
    .entryTraded 8, sampleEvent 1200 "x1" (sampleTrade "e1" "BUY" (1 / 2) 8)]

def sampleMarket (events : List MarketEvent) : Market :=
  ((marketMachine sampleSetup sampleKey).run ⟨TradeEngine.start 0, [], 0⟩ events).getD
    ⟨TradeEngine.start 0, [], 0⟩

theorem run_sampleMarket {events : List MarketEvent}
    (h : ((marketMachine sampleSetup sampleKey).run ⟨TradeEngine.start 0, [], 0⟩
      events).isSome = true) :
    (marketMachine sampleSetup sampleKey).run ⟨TradeEngine.start 0, [], 0⟩ events =
      some (sampleMarket events) := by
  obtain ⟨m, hm⟩ := Option.isSome_iff_exists.mp h
  rw [sampleMarket, hm, Option.getD_some]

/-- The exit order of the first 8 shares, and nothing else. -/
theorem one_exit_partlyFilled : (sampleMarket samplePartlyFilled).exits = [⟨"x1", 8⟩] ∧
    (sampleMarket samplePartlyFilled).OneExit := by
  have hcalm : (marketMachine sampleSetup sampleKey).RunMeets
      (Market.Calm sampleSetup sampleKey) ⟨TradeEngine.start 0, [], 0⟩ samplePartlyFilled := by
    decide +kernel
  have hsome : ((marketMachine sampleSetup sampleKey).run ⟨TradeEngine.start 0, [], 0⟩
      samplePartlyFilled).isSome = true := by
    decide +kernel
  exact ⟨by decide +kernel,
    one_exit_of_calm isLive_sampleSetup ⟨0, rfl⟩ hcalm (run_sampleMarket hsome)⟩

/-- The same trade again. -/
def sampleRedelivered : List MarketEvent :=
  samplePartlyFilled ++ [sampleEvent 1300 "x2" (sampleTrade "e1" "BUY" (1 / 2) 8)]

/-- The position is taken for a new one, and a second exit order for 8 shares goes into the
book, where 8 shares were bought. -/
theorem second_exit_on_redelivery :
    (marketMachine sampleSetup sampleKey).Reachable (sampleMarket sampleRedelivered) ∧
      (sampleMarket sampleRedelivered).exits = [⟨"x1", 8⟩, ⟨"x2", 8⟩] ∧
      (sampleMarket sampleRedelivered).filled = 8 ∧
      ¬ (sampleMarket sampleRedelivered).OneExit := by
  have hexits : (sampleMarket sampleRedelivered).exits = [⟨"x1", 8⟩, ⟨"x2", 8⟩] := by
    decide +kernel
  have hsome : ((marketMachine sampleSetup sampleKey).run ⟨TradeEngine.start 0, [], 0⟩
      sampleRedelivered).isSome = true := by
    decide +kernel
  refine ⟨⟨_, _, ⟨0, rfl⟩, run_sampleMarket hsome⟩, hexits, by decide +kernel, ?_⟩
  intro hone
  have hlength := hone.single
  rw [hexits] at hlength
  exact absurd hlength (by decide)

end AlphaMonitor.Trade
