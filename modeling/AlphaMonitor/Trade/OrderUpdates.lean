import AlphaMonitor.Feed.UserMessages
import AlphaMonitor.Trade.ExitFills

/-!
# What an order update does

An update of an order tells what was filled so far, or that the order is cancelled.  The
handler guesses the filled shares where the update does not give them, from the shares of
the whole order or from the amount of the whole order.

## Main results

- `updateEffect`: the five things that an update can do to a pair
- `orderUpdate_as_reported_iff`: when the pair does what the update says
-/

namespace AlphaMonitor.Trade

variable {setup : Setup} {env : Env}

/-! ## What an update says -/

namespace OpinionUserOrderUpdate

variable (update : OpinionUserOrderUpdate)

/-- Neither type nor status says that the order is filled, and no filled quantity is given. -/
structure ReportsNoFill : Prop where
  type : update.isFillUpdate = false
  status : update.status.getD 0 ≠ 2
  shares : update.filledShares = none ∨ update.filledShares = some 0
  amount : update.filledAmount = none ∨ update.filledAmount = some 0

/-- The type or the status says that the order is filled, or a filled quantity is given. -/
def ReportsFill : Prop :=
  update.isFillUpdate = true ∨ update.status.getD 0 = 2 ∨ 0 < update.filledShares.getD 0 ∨
    0 < update.filledAmount.getD 0

/-- The filled quantity that the update gives, in shares or as an amount. -/
def reportedFilled : Option ℚ :=
  update.filledShares.or (sharesOf update.price update.filledAmount)

/-- The side of the order as the handler compares it. -/
def fillSide : Option String :=
  update.side.map fun value => String.ofList (value.toList.map Char.toUpper)

/-- The handler takes the update for a fill. -/
def Fills : Prop :=
  update.isCancel = false ∧ (update.isFillUpdate = true ∨ update.filled.getD 0 > 0)

/-- The handler takes the update for a fill of the entry order of `o`. -/
def FillsEntry (o : OrderState) : Prop :=
  update.Fills ∧ o.entryOrderId = some update.orderId ∧
    fillSideMatches o.direction update.fillSide = true

/-- The handler takes the update for a fill of the exit order of `o`. -/
def FillsExit (o : OrderState) : Prop :=
  update.Fills ∧ o.exitOrderId = some update.orderId ∧
    fillSideMatches (-o.direction) update.fillSide = true

end OpinionUserOrderUpdate

/-! ## What it does -/

/-- What an update does to the orders `o` of a pair that knows the order. -/
inductive UpdateEffect (update : OpinionUserOrderUpdate) (o o' : OrderState) : Prop
  | entryCancelled (hcancel : update.isCancel = true)
      (hentry : o.entryOrderId = some update.orderId) (hstate : o'.state = .cooldown)
      (hqty : o'.entryQty = o.entryQty)
  | exitCancelled (hcancel : update.isCancel = true)
      (hentry : o.entryOrderId ≠ some update.orderId)
      (horder : o' = o.exitCancelled.dropExitCancel)
  | entryFilled (hfills : update.FillsEntry o) (hopen : o'.Open)
      (hqty : o'.entryQty = update.filled.or o.entryQty)
  | exitFilled (hfills : update.FillsExit o) (hstate : o'.state = .cooldown)
  | untouched (hcancel : update.isCancel = false) (hentry : ¬ update.FillsEntry o)
      (hexit : ¬ update.FillsExit o) (horder : o' = o)

theorem entryFill?_single {st : PairTradeState} {update : OpinionUserOrderUpdate} {now : ℤ}
    (hid : st.entryOrderId = some update.orderId) :
    entryFill? st [update.fill now] =
      if fillSideMatches st.direction update.fillSide = true then some (update.fill now)
      else none := by
  have hmatch : fillMatchesOrder st.entryOrderId st.entryClientId (update.fill now) = true := by
    simp [fillMatchesOrder, hid, OpinionUserOrderUpdate.fill]
  have hside : (update.fill now).side = update.fillSide := rfl
  unfold entryFill?
  by_cases h : fillSideMatches st.direction update.fillSide = true
  · simp [hmatch, hside, h]
  · simp [hmatch, hside, h]

theorem exitFill?_single {st : PairTradeState} {update : OpinionUserOrderUpdate} {now : ℤ}
    (hid : st.exitOrderId = some update.orderId) :
    exitFill? st [update.fill now] =
      if fillSideMatches (-st.direction) update.fillSide = true then some (update.fill now)
      else none := by
  have hmatch : fillMatchesOrder st.exitOrderId st.exitClientId (update.fill now) = true := by
    simp [fillMatchesOrder, hid, OpinionUserOrderUpdate.fill]
  have hside : (update.fill now).side = update.fillSide := rfl
  unfold exitFill?
  by_cases h : fillSideMatches (-st.direction) update.fillSide = true
  · simp [hmatch, hside, h]
  · simp [hmatch, hside, h]

section Handler

variable {key : PairKey} (signals : List ShockSignal) (desk : Desk) {st : PairTradeState}
  {update : OpinionUserOrderUpdate}

/-- A fill that is none of the entry order goes on to the exit order. -/
theorem applyWsFills_not_entry (matchesExit : Bool) {fills : List TradeFill}
    (hnone : entryFill? st fills = none) :
    applyWsFills setup env signals desk st key true matchesExit fills =
      applyWsFills setup env signals desk st key false matchesExit fills := by
  unfold applyWsFills
  split
  · rfl
  · split
    · rfl
    · rename_i bar _ _
      simp only [if_true, Bool.false_eq_true, if_false]
      rw [applyEntryFillsAndCheck_none _ _ { st with
        fillPollReqId := none, lastFillPollMs := some env.now } bar _ hnone]

theorem applyWsFills_no_match (fills : List TradeFill) :
    (slotOf (applyWsFills setup env signals desk st key false false fills)).order =
      st.toOrderState := by
  unfold applyWsFills
  split
  · rfl
  · split
    · rfl
    · rfl

/-- A fill of an update reaches the entry order, the exit order or none. -/
theorem applyWsFills_updateEffect (hlive : setup.isLive = true)
    (hwf : st.toOrderState.Wf setup.isLive st.lastBar.isSome)
    (hknown : st.entryOrderId = some update.orderId ∨ st.exitOrderId = some update.orderId)
    (hfills : update.Fills) :
    UpdateEffect update st.toOrderState
      (slotOf (applyWsFills setup env signals desk st key
        (decide (st.entryOrderId = some update.orderId))
        (decide (st.exitOrderId = some update.orderId)) [update.fill env.now])).order := by
  have hhold : st.toOrderState.Holding := by
    rcases hknown with hid | hid
    · exact hwf.holding_of_entryId (Or.inl (by rw [hid]; exact Option.some_ne_none _))
    · exact Or.inr (hwf.open_of_exitId (Or.inl (by rw [hid]; exact Option.some_ne_none _)))
  obtain ⟨hprice, hqty, -, -, -, hdir⟩ := hwf.held hhold
  have hidle : st.state ≠ .idle := by
    intro hidle
    rcases hhold with hs | hs | hs <;> cases hidle.symm.trans hs
  have hbar := hwf.bar hidle
  have hne : [update.fill env.now] ≠ [] := List.cons_ne_nil _ _
  -- where the entry order does not take the fill, only the exit order is left
  have hrest : ¬ update.FillsEntry st.toOrderState →
      UpdateEffect update st.toOrderState
        (slotOf (applyWsFills setup env signals desk st key false
          (decide (st.exitOrderId = some update.orderId)) [update.fill env.now])).order := by
    intro hentry
    by_cases hexit : st.exitOrderId = some update.orderId
    · have heffect := @applyWsFills_exitEffect setup env key signals desk st [update.fill env.now]
        hbar hne ⟨hprice, hqty⟩
      rw [exitFill?_single hexit] at heffect
      rw [decide_eq_true hexit]
      by_cases hside : fillSideMatches (-st.direction) update.fillSide = true
      · rw [if_pos hside] at heffect
        exact .exitFilled ⟨hfills, hexit, hside⟩ (heffect.taken rfl)
      · rw [if_neg hside] at heffect
        exact .untouched hfills.1 hentry (fun h => hside h.2.2) (heffect.untaken rfl).1
    · rw [decide_eq_false hexit]
      exact .untouched hfills.1 hentry (fun h => hexit h.2.1) (applyWsFills_no_match signals desk _)
  by_cases hid : st.entryOrderId = some update.orderId
  · have htaken := @entryFill?_single st update env.now hid
    rw [decide_eq_true hid]
    by_cases hside : fillSideMatches st.direction update.fillSide = true
    · rw [if_pos hside] at htaken
      have hopposite := fillSideMatches_neg hdir hside
      have heffect := @applyWsFills_effect setup env key hlive signals desk st
        (decide (st.exitOrderId = some update.orderId)) [update.fill env.now] hbar hne
        (fun _ fill hmem => by rw [List.mem_singleton.mp hmem]; exact hopposite)
      rw [htaken] at heffect
      refine .entryFilled ⟨hfills, hid, hside⟩ (heffect.taken rfl) ?_
      rw [heffect.entry.qty]
      rfl
    · rw [if_neg hside] at htaken
      rw [applyWsFills_not_entry signals desk _ htaken]
      exact hrest fun h => hside h.2.2
  · rw [decide_eq_false hid]
    exact hrest fun h => hid h.2.1

end Handler

theorem entryCancelled_qty {key : PairKey} (desk : Desk) (st : PairTradeState) :
    (TradeEngine.entryCancelled setup desk st key).2.entryQty = st.entryQty := by
  unfold TradeEngine.entryCancelled finalizeEntryCancel releaseEntryNotional
  split
  · dsimp only
    split
    · rfl
    · rfl
  · rfl

/-- An update does one of five things to a pair that knows its order. -/
theorem updateEffect (hlive : setup.isLive = true) {eng : TradeEngine}
    (hreach : (engineMachine setup).Reachable eng) {key : PairKey}
    {update : OpinionUserOrderUpdate} (hkey : key = (update.pairId, update.tokenSide))
    (hknown : (eng.stateOf key).entryOrderId = some update.orderId ∨
      (eng.stateOf key).exitOrderId = some update.orderId) :
    UpdateEffect update (eng.stateOf key).toOrderState
      ((TradeEngine.handle setup env eng (.orderUpdate update)).stateOf key).toOrderState := by
  subst hkey
  have hwf : (eng.stateOf (update.pairId, update.tokenSide)).Wf setup.isLive
      (eng.stateOf (update.pairId, update.tokenSide)).lastBar.isSome :=
    (inv_of_reachable hreach).wf (update.pairId, update.tokenSide)
  have hlookup : eng.states.lookup (update.pairId, update.tokenSide) =
      some (eng.stateOf (update.pairId, update.tokenSide)) := by
    apply eng.lookup_of_ne_idle
    intro hidle
    rw [hidle] at hknown
    rcases hknown with hid | hid <;> cases hid
  show UpdateEffect update _ ((TradeEngine.handle setup env eng (.orderUpdate update)).view.slot
    (update.pairId, update.tokenSide)).order
  simp only [TradeEngine.handle, TradeEngine.handleOpinionOrderUpdate]
  rw [TradeEngine.slot_onKnown (TradeEngine.noteUserMessage env eng) hlookup]
  have hsame : (TradeEngine.noteUserMessage env eng).stateOf (update.pairId, update.tokenSide) =
      eng.stateOf (update.pairId, update.tokenSide) := rfl
  have hmatches : (decide ((eng.stateOf (update.pairId, update.tokenSide)).entryOrderId =
        some update.orderId) ||
      decide ((eng.stateOf (update.pairId, update.tokenSide)).exitOrderId =
        some update.orderId)) = true := by
    simpa only [Bool.or_eq_true, decide_eq_true_eq] using hknown
  simp only [hsame, hmatches, if_true]
  generalize eng.stateOf (update.pairId, update.tokenSide) = st at hwf hknown ⊢
  unfold TradeEngine.applyOrderUpdate
  by_cases hcancel : update.isCancel = true
  · simp only [if_pos hcancel]
    by_cases hid : st.entryOrderId = some update.orderId
    · simp only [hid, decide_true, if_true]
      exact .entryCancelled hcancel hid (entryCancelled_state _ _) (entryCancelled_qty _ _)
    · simp only [hid, decide_false, Bool.false_eq_true, if_false]
      exact .exitCancelled hcancel hid rfl
  · simp only [if_neg hcancel]
    have hno : update.isCancel = false := by simpa only [Bool.not_eq_true] using hcancel
    by_cases hbrings : update.isFillUpdate = true ∨ update.filled.getD 0 > 0
    · simp only [if_pos hbrings]
      exact applyWsFills_updateEffect _ _ hlive hwf hknown ⟨hno, hbrings⟩
    · simp only [if_neg hbrings]
      have huntouched : ∀ {o' : OrderState}, o' = st.toOrderState →
          UpdateEffect update st.toOrderState o' :=
        fun horder => .untouched hno (fun h => hbrings h.1.2) (fun h => hbrings h.1.2) horder
      split
      · generalize hpoll : Requests.maybeEnqueueFillPoll _ _ _ _ _ _ = r
        obtain ⟨req, st'⟩ := r
        exact huntouched (Requests.maybeEnqueueFillPoll_cases setup env _ _ _ _ hpoll).1
      · exact huntouched rfl

/-! ## Does it do what it says? -/

/-- What is held of the entry order. -/
def OrderState.held (o : OrderState) : ℚ := if o.Open then o.entryQty.getD 0 else 0

/-- Quantity and position are the same in both states. -/
structure OrderState.HoldsStill (o o' : OrderState) : Prop where
  qty : o'.entryQty = o.entryQty
  position : o'.Open ↔ o.Open

/-- Where the update is taken for a fill, the quantity that is applied is the one that it
reports, and positive. -/
structure OpinionUserOrderUpdate.AppliedAsReported (update : OpinionUserOrderUpdate)
    (o o' : OrderState) : Prop where
  entry : update.FillsEntry o →
    ∃ qty, update.reportedFilled = some qty ∧ 0 < qty ∧ o'.entryQty = some qty
  exit : update.FillsExit o →
    ∃ qty, update.reportedFilled = some qty ∧ 0 < qty ∧ o'.held = o.held - qty

namespace OpinionUserOrderUpdate

variable (update : OpinionUserOrderUpdate)

/-- No filled quantity is given, but a price and the amount of the whole order. -/
def GivesTotal : Prop :=
  update.filledShares = none ∧ update.filledAmount = none ∧
    ∃ price amount, update.price = some price ∧ update.amount = some amount ∧ 0 < price ∧
      0 < amount

/-- An update that reports no fill does no harm: it cancels no entry order of an open
position, and does not give the total of an order that it could fill. -/
structure Harmless (o : OrderState) : Prop where
  cancel : update.isCancel = true → o.entryOrderId = some update.orderId → ¬ o.Open
  entry : update.isCancel = false → update.GivesTotal →
    o.entryOrderId = some update.orderId → fillSideMatches o.direction update.fillSide = true →
      o.Open ∧ o.entryQty = sharesOf update.price update.amount
  exit : update.isCancel = false → update.GivesTotal → o.exitOrderId = some update.orderId →
    fillSideMatches (-o.direction) update.fillSide = false

/-- An update that reports a fill gives a positive filled quantity: for an entry order one
that the shares of the whole order do not hide, for an exit order all that is held. -/
structure GivesFilled (o : OrderState) : Prop where
  entry : update.FillsEntry o → ∃ qty, update.reportedFilled = some qty ∧ 0 < qty ∧
    (update.filledShares = none → update.isFillUpdate = true ∨ update.status.getD 0 = 2 →
      ∀ shares, update.shares = some shares → shares = qty)
  exit : update.FillsExit o → ∃ qty, update.reportedFilled = some qty ∧ 0 < qty ∧
    o.entryQty = some qty

variable {update}

theorem sharesOf_pos_iff {price amount : Option ℚ} :
    (∃ shares, sharesOf price amount = some shares ∧ 0 < shares) ↔
      ∃ p a, price = some p ∧ amount = some a ∧ 0 < p ∧ 0 < a := by
  cases price with
  | none => simp [sharesOf]
  | some p =>
    cases amount with
    | none => simp [sharesOf]
    | some a =>
      by_cases hp : 0 < p
      · simp [sharesOf, hp, div_pos_iff_of_pos_right hp]
      · simp [sharesOf, hp]

theorem getD_pos_iff {x : Option ℚ} : x.getD 0 > 0 ↔ ∃ q, x = some q ∧ 0 < q := by
  cases x with
  | none => simp
  | some q => simp

/-- Only the total of the order can make a fill out of an update that reports none. -/
theorem fills_iff_of_reportsNoFill (h : update.ReportsNoFill) :
    update.Fills ↔ update.isCancel = false ∧ update.GivesTotal := by
  obtain ⟨htype, hstatus, hshares, hamount⟩ := h
  have hnot : ¬ (update.isFillUpdate = true ∨ update.status.getD 0 = 2) := by
    rintro (hfill | htwo)
    · cases htype.symm.trans hfill
    · exact hstatus htwo
  have hfilled : update.filled =
      update.filledShares.or (sharesOf update.price (update.filledAmount.or update.amount)) := by
    unfold filled
    simp only [if_neg hnot]
  unfold Fills GivesTotal
  refine and_congr_right fun _ => ?_
  rw [htype, hfilled, getD_pos_iff]
  simp only [Bool.false_eq_true, false_or]
  rcases hshares with hshares | hshares
  · rw [hshares]
    simp only [Option.none_or, true_and]
    rw [sharesOf_pos_iff]
    rcases hamount with hamount | hamount
    · simp only [hamount, Option.none_or, true_and]
    · simp only [hamount, Option.some_or, Option.some.injEq, reduceCtorEq, false_and, iff_false]
      rintro ⟨p, a, -, rfl, -, ha⟩
      exact lt_irrefl _ ha
  · simp only [hshares, Option.some_or, Option.some.injEq, reduceCtorEq, false_and, iff_false]
    rintro ⟨q, rfl, hq⟩
    exact lt_irrefl _ hq

/-- The total of the order is what the handler takes for the filled shares then. -/
theorem filled_of_givesTotal (h : update.ReportsNoFill) (htotal : update.GivesTotal) :
    update.filled = sharesOf update.price update.amount := by
  have hnot : ¬ (update.isFillUpdate = true ∨ update.status.getD 0 = 2) := by
    rintro (hfill | htwo)
    · cases h.type.symm.trans hfill
    · exact h.status htwo
  unfold filled
  simp only [if_neg hnot, htotal.1, htotal.2.1, Option.none_or]

/-- The handler applies the reported quantity unless the shares of the whole order stand
in its way. -/
theorem filled_eq_reported_iff {qty : ℚ} (h : update.reportedFilled = some qty) (held : Option ℚ) :
    update.filled.or held = some qty ↔
      (update.filledShares = none → update.isFillUpdate = true ∨ update.status.getD 0 = 2 →
        ∀ shares, update.shares = some shares → shares = qty) := by
  unfold reportedFilled at h
  unfold filled
  cases hshares : update.filledShares with
  | some shares =>
    rw [hshares] at h
    simpa using h
  | none =>
    rw [hshares, Option.none_or] at h
    have hamount : update.filledAmount.or update.amount = update.filledAmount := by
      cases hamount : update.filledAmount with
      | some amount => rfl
      | none =>
        rw [hamount] at h
        unfold sharesOf at h
        split at h
        · rename_i heq
          cases heq
        · cases h
    rw [hamount, h]
    by_cases hfill : update.isFillUpdate = true ∨ update.status.getD 0 = 2
    · simp only [Option.none_or, hfill, true_implies]
      cases update.shares with
      | none => simp
      | some shares => simp
    · simp only [hfill, if_false, Option.none_or, Option.some_or, false_implies, implies_true]

end OpinionUserOrderUpdate

section Law

variable {update : OpinionUserOrderUpdate} {o o' : OrderState}

theorem OrderState.not_open_of_cooldown {o : OrderState} (h : o.state = .cooldown) : ¬ o.Open := by
  rintro (hs | hs)
  · cases h.symm.trans hs
  · cases h.symm.trans hs

theorem OpinionUserOrderUpdate.Fills.not_cancel (h : update.Fills) (hcancel : update.isCancel = true) :
    False := Bool.false_ne_true (h.1.symm.trans hcancel)

/-- For updates that report no fill. -/
theorem UpdateEffect.holdsStill_iff (h : UpdateEffect update o o')
    (hopen : o.exitOrderId = some update.orderId → o.Open) (hdir : o.direction ≠ 0)
    (hno : update.ReportsNoFill) : o.HoldsStill o' ↔ update.Harmless o := by
  have hfills := OpinionUserOrderUpdate.fills_iff_of_reportsNoFill hno
  have hboth : fillSideMatches o.direction update.fillSide = true →
      fillSideMatches (-o.direction) update.fillSide = false := fillSideMatches_neg hdir
  constructor
  · intro hstill
    constructor
    · intro hcancel hid
      cases h with
      | entryCancelled _ _ hstate =>
        exact fun hopen => OrderState.not_open_of_cooldown hstate (hstill.position.mpr hopen)
      | exitCancelled _ hentry => exact absurd hid hentry
      | entryFilled hfilled => exact (hfilled.1.not_cancel hcancel).elim
      | exitFilled hfilled => exact (hfilled.1.not_cancel hcancel).elim
      | untouched hnot => cases hnot.symm.trans hcancel
    · intro hnot htotal hid hside
      have hfilled : update.FillsEntry o := ⟨hfills.mpr ⟨hnot, htotal⟩, hid, hside⟩
      cases h with
      | entryCancelled hcancel => cases hnot.symm.trans hcancel
      | exitCancelled hcancel => cases hnot.symm.trans hcancel
      | entryFilled _ hopened hqty =>
        refine ⟨hstill.position.mp hopened, ?_⟩
        -- the total is what the handler applies
        have hsize := OpinionUserOrderUpdate.filled_of_givesTotal hno htotal
        obtain ⟨shares, hshares, -⟩ := OpinionUserOrderUpdate.sharesOf_pos_iff.mpr htotal.2.2
        rw [← hstill.qty, hqty, hsize, hshares]
        rfl
      | exitFilled hexit =>
        cases (hboth hside).symm.trans hexit.2.2
      | untouched _ hentry => exact absurd hfilled hentry
    · intro hnot htotal hid
      by_contra hside
      rw [Bool.not_eq_false] at hside
      have hfilled : update.FillsExit o := ⟨hfills.mpr ⟨hnot, htotal⟩, hid, hside⟩
      cases h with
      | entryCancelled hcancel => cases hnot.symm.trans hcancel
      | exitCancelled hcancel => cases hnot.symm.trans hcancel
      | entryFilled hentry => cases (hboth hentry.2.2).symm.trans hside
      | exitFilled _ hstate =>
        exact OrderState.not_open_of_cooldown hstate (hstill.position.mpr (hopen hid))
      | untouched _ _ hexit => exact hexit hfilled
  · intro hharmless
    cases h with
    | entryCancelled hcancel hid hstate hqty =>
      refine ⟨hqty, fun hopen' => ?_, fun hopen' => ?_⟩
      · exact absurd hopen' (OrderState.not_open_of_cooldown hstate)
      · exact absurd hopen' (hharmless.cancel hcancel hid)
    | exitCancelled hcancel hentry horder =>
      rw [horder]
      exact ⟨rfl, Iff.rfl⟩
    | entryFilled hfilled hopened hqty =>
      obtain ⟨hnot, htotal⟩ := hfills.mp hfilled.1
      obtain ⟨hwas, heq⟩ := hharmless.entry hnot htotal hfilled.2.1 hfilled.2.2
      refine ⟨?_, fun _ => hwas, fun _ => hopened⟩
      have hsize := OpinionUserOrderUpdate.filled_of_givesTotal hno htotal
      rw [hqty, hsize, heq, Option.or_self]
    | exitFilled hfilled =>
      obtain ⟨hnot, htotal⟩ := hfills.mp hfilled.1
      cases (hharmless.exit hnot htotal hfilled.2.1).symm.trans hfilled.2.2
    | untouched _ _ _ horder =>
      rw [horder]
      exact ⟨rfl, Iff.rfl⟩

/-- For updates that the handler takes for fills. -/
theorem UpdateEffect.appliedAsReported_iff (h : UpdateEffect update o o')
    (hopen : o.exitOrderId = some update.orderId → o.Open)
    (hqty : o.Open → o.entryQty.isSome = true) (hdir : o.direction ≠ 0) :
    update.AppliedAsReported o o' ↔ update.GivesFilled o := by
  have hboth : fillSideMatches o.direction update.fillSide = true →
      fillSideMatches (-o.direction) update.fillSide = false := fillSideMatches_neg hdir
  have hentry : update.FillsEntry o → o'.entryQty = update.filled.or o.entryQty := by
    intro hfilled
    cases h with
    | entryCancelled hcancel => exact (hfilled.1.not_cancel hcancel).elim
    | exitCancelled hcancel => exact (hfilled.1.not_cancel hcancel).elim
    | entryFilled _ _ hsize => exact hsize
    | exitFilled hexit => cases (hboth hfilled.2.2).symm.trans hexit.2.2
    | untouched _ hnone => exact absurd hfilled hnone
  have hexit : update.FillsExit o → o'.held = 0 ∧ ∃ qty, o.entryQty = some qty ∧ o.held = qty := by
    intro hfilled
    have hwas := hopen hfilled.2.1
    obtain ⟨qty, hheld⟩ := Option.isSome_iff_exists.mp (hqty hwas)
    have hclosed : ¬ o'.Open := by
      cases h with
      | entryCancelled hcancel => exact (hfilled.1.not_cancel hcancel).elim
      | exitCancelled hcancel => exact (hfilled.1.not_cancel hcancel).elim
      | entryFilled hin => cases (hboth hin.2.2).symm.trans hfilled.2.2
      | exitFilled _ hstate => exact OrderState.not_open_of_cooldown hstate
      | untouched _ _ hnone => exact absurd hfilled hnone
    refine ⟨if_neg hclosed, qty, hheld, ?_⟩
    unfold OrderState.held
    rw [if_pos hwas, hheld]
    rfl
  constructor
  · rintro ⟨happlied, hclosed⟩
    constructor
    · intro hfilled
      obtain ⟨qty, hreported, hpos, hnow⟩ := happlied hfilled
      refine ⟨qty, hreported, hpos, ?_⟩
      rw [hentry hfilled] at hnow
      exact (OpinionUserOrderUpdate.filled_eq_reported_iff hreported _).mp hnow
    · intro hfilled
      obtain ⟨qty, hreported, hpos, hnow⟩ := hclosed hfilled
      obtain ⟨hzero, held, hheld, hwas⟩ := hexit hfilled
      refine ⟨qty, hreported, hpos, ?_⟩
      rw [hzero, hwas] at hnow
      rw [hheld, sub_eq_zero.mp hnow.symm]
  · rintro ⟨hgives, hall⟩
    constructor
    · intro hfilled
      obtain ⟨qty, hreported, hpos, hshares⟩ := hgives hfilled
      refine ⟨qty, hreported, hpos, ?_⟩
      rw [hentry hfilled]
      exact (OpinionUserOrderUpdate.filled_eq_reported_iff hreported _).mpr hshares
    · intro hfilled
      obtain ⟨qty, hreported, hpos, hheld⟩ := hall hfilled
      obtain ⟨hzero, held, hheld', hwas⟩ := hexit hfilled
      refine ⟨qty, hreported, hpos, ?_⟩
      rw [hheld] at hheld'
      cases hheld'
      rw [hzero, hwas, sub_self]

end Law

/-- An update reaches the engine as it is read off its message.  What it does is what it
reports, just in case it is harmless when it reports no fill, and gives what was filled
when it reports one. -/
theorem orderUpdate_as_reported_iff (hlive : setup.isLive = true) {eng : TradeEngine}
    (hreach : (engineMachine setup).Reachable eng)
    {targets : String → ℤ → TokenSide × List ℤ} {msgType : String} {item : Feed.Json}
    {update : OpinionUserOrderUpdate}
    (hsent : TradeMessage.orderUpdate update ∈ Feed.handleUserMessage targets msgType item)
    {key : PairKey} (hkey : key = (update.pairId, update.tokenSide))
    (hknown : (eng.stateOf key).entryOrderId = some update.orderId ∨
      (eng.stateOf key).exitOrderId = some update.orderId) {o o' : OrderState}
    (ho : o = (eng.stateOf key).toOrderState)
    (ho' : o' = ((TradeEngine.handle setup env eng (.orderUpdate update)).stateOf
      key).toOrderState) :
    update = Feed.orderUpdateOf (Feed.userData item) update.orderId update.tokenSide
        update.pairId ∧
      (((update.ReportsNoFill → o.HoldsStill o') ∧
          (update.ReportsFill → update.AppliedAsReported o o')) ↔
        ((update.ReportsNoFill → update.Harmless o) ∧
          (update.ReportsFill → update.GivesFilled o))) := by
  have heffect := @updateEffect setup env hlive eng hreach key update hkey hknown
  have hwf := (inv_of_reachable hreach).wf key
  have hexit : (eng.stateOf key).exitOrderId = some update.orderId → (eng.stateOf key).Open :=
    fun hid => hwf.open_of_exitId (Or.inl (by
      show (eng.stateOf key).exitOrderId ≠ none
      rw [hid]
      exact Option.some_ne_none _))
  have hhold : (eng.stateOf key).Holding := by
    rcases hknown with hid | hid
    · exact hwf.holding_of_entryId (Or.inl (by
        show (eng.stateOf key).entryOrderId ≠ none
        rw [hid]
        exact Option.some_ne_none _))
    · exact Or.inr (hexit hid)
  obtain ⟨-, hqty, -, -, -, hdir⟩ := hwf.held hhold
  subst ho ho'
  refine ⟨(Feed.mem_handleUserMessage_orderUpdate hsent).1, ?_⟩
  refine and_congr (forall_congr' fun hno => ?_) (forall_congr' fun _ => ?_)
  · exact heffect.holdsStill_iff hexit hdir hno
  · exact heffect.appliedAsReported_iff hexit (fun _ => hqty) hdir

/-! ## An update of a new order -/

/-- The registry of the sample market. -/
def sampleTargets (_ : String) (_ : ℤ) : TokenSide × List ℤ := (.yes, [1])

/-- An update of the sample entry order: twenty shares at 1/2, with these further fields. -/
def sampleUpdateItem (fields : List (String × Feed.Json)) : Feed.Json :=
  .obj [("msgType", .str "trade.order.update"), ("data", .obj ([("marketId", .str "7"),
    ("outcomeSide", .int 1), ("orderId", .str "e1"), ("orderUpdateType", .str "orderNew"),
    ("status", .int 1), ("side", .int 1), ("price", .str "0.5"), ("shares", .str "20"),
    ("amount", .str "10")] ++ fields))]

/-- The update that the item is read as. -/
def sampleUpdate (fields : List (String × Feed.Json)) : OpinionUserOrderUpdate :=
  Feed.orderUpdateOf (Feed.userData (sampleUpdateItem fields)) "e1" .yes 1

theorem sampleUpdate_sent (fields : List (String × Feed.Json)) :
    TradeMessage.orderUpdate (sampleUpdate fields) ∈
      Feed.handleUserMessage sampleTargets "trade.order.update" (sampleUpdateItem fields) :=
  List.mem_singleton.mpr rfl

/-- The update says that no share is filled yet. -/
theorem orderUpdate_as_reported_zero :
    (((sampleEngine sampleEntering).stateOf sampleKey).toOrderState).HoldsStill
      ((TradeEngine.handle sampleSetup (sampleEnv 1200 "x1") (sampleEngine sampleEntering)
        (.orderUpdate (sampleUpdate [("filledShares", .str "0")]))).stateOf
          sampleKey).toOrderState := by
  have hno : (sampleUpdate [("filledShares", .str "0")]).ReportsNoFill :=
    ⟨by decide +kernel, by decide +kernel, Or.inr (by decide +kernel), Or.inl (by decide +kernel)⟩
  have hshares : (sampleUpdate [("filledShares", .str "0")]).filledShares = some 0 := by
    decide +kernel
  have hiff := (@orderUpdate_as_reported_iff sampleSetup (sampleEnv 1200 "x1") isLive_sampleSetup _
    (reachable_sampleEngine sampleEntering) _ _ _ _
    (sampleUpdate_sent [("filledShares", .str "0")]) sampleKey rfl (Or.inl (by decide +kernel))
    _ _ rfl rfl).2
  refine (hiff.mpr ⟨fun _ => ?_, fun hfill => ?_⟩).1 hno
  · have htotal : ¬ (sampleUpdate [("filledShares", .str "0")]).GivesTotal := by
      rintro ⟨hnone, -⟩
      rw [hshares] at hnone
      cases hnone
    exact ⟨fun hcancel => absurd hcancel (by decide +kernel),
      fun _ h => absurd h htotal, fun _ h => absurd h htotal⟩
  · rcases hfill with htype | hstatus | hpos | hpos
    · exact absurd htype (by decide +kernel)
    · exact absurd hstatus (by decide +kernel)
    · exact absurd hpos (by decide +kernel)
    · exact absurd hpos (by decide +kernel)

/-- The exchange acknowledges the new order, with its amount and without filled fields: the
pair takes all of it for filled. -/
theorem new_order_opens_position :
    (engineMachine sampleSetup).Reachable (sampleEngine sampleEntering) ∧
      TradeMessage.orderUpdate (sampleUpdate []) ∈
        Feed.handleUserMessage sampleTargets "trade.order.update" (sampleUpdateItem []) ∧
      ((sampleEngine sampleEntering).stateOf sampleKey).entryOrderId =
        some (sampleUpdate []).orderId ∧
      (sampleUpdate []).ReportsNoFill ∧
      ¬ ((sampleEngine sampleEntering).stateOf sampleKey).Open ∧
      ((TradeEngine.handle sampleSetup (sampleEnv 1200 "x1") (sampleEngine sampleEntering)
        (.orderUpdate (sampleUpdate []))).stateOf sampleKey).Open ∧
      ¬ (((sampleEngine sampleEntering).stateOf sampleKey).toOrderState).HoldsStill
        ((TradeEngine.handle sampleSetup (sampleEnv 1200 "x1") (sampleEngine sampleEntering)
          (.orderUpdate (sampleUpdate []))).stateOf sampleKey).toOrderState := by
  have hclosed : ¬ ((sampleEngine sampleEntering).stateOf sampleKey).Open := by decide +kernel
  have hopened : ((TradeEngine.handle sampleSetup (sampleEnv 1200 "x1")
      (sampleEngine sampleEntering) (.orderUpdate (sampleUpdate []))).stateOf
        sampleKey).Open := by
    decide +kernel
  refine ⟨reachable_sampleEngine _, sampleUpdate_sent [], by decide +kernel, ?_, hclosed, hopened,
    fun hstill => hclosed (hstill.position.mp hopened)⟩
  exact ⟨by decide +kernel, by decide +kernel, Or.inl rfl, Or.inl rfl⟩

end AlphaMonitor.Trade
