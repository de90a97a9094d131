import AlphaMonitor.Trade.Moves

/-!
# The handlers make only moves

One lemma for each per-pair function: its result is reached from its arguments
by a chain of moves, and the labels of the chain are those that the function is
there for.

## Main results

- `checkEntry_steps`, `checkExit_steps`, `maybeEnter_steps`: what a bar can do
- `applyEntryFillsAndCheck_steps`, `applyExitFills_steps`: what fills can do
- `entryCancelled_move`: what a confirmed cancellation does
-/

namespace AlphaMonitor.Trade

/-- Labels of a check of an open position. -/
def Act.Working : Act → Prop
  | .upkeep => True
  | .callExit _ => True
  | .fillPaper => True
  | _ => False

/-- Labels of a check of any pair. -/
def Act.Checking : Act → Prop
  | .upkeep => True
  | .callExit _ => True
  | .fillPaper => True
  | .cancelEntry cause => cause = .paper
  | _ => False

/-- Labels of an attempt to enter. -/
def Act.Enters (entry : PendingEntry) : Act → Prop
  | .upkeep => True
  | .queueEntry e _ _ => e = entry
  | .enterPaper e _ _ => e = entry
  | _ => False

/-- Labels of a bar or a periodic check. -/
def Act.Routine : Act → Prop
  | .upkeep => True
  | .callExit _ => True
  | .fillPaper => True
  | .queueEntry _ _ _ => True
  | .enterPaper _ _ _ => True
  | .cancelEntry cause => cause = .paper
  | _ => False

theorem Act.Checking.routine {a : Act} (h : a.Checking) : a.Routine := by
  -- a cancellation on paper is the only one in both
  cases a <;> first | exact h | exact h.elim

theorem Act.Enters.routine {entry : PendingEntry} {a : Act} (h : a.Enters entry) : a.Routine := by
  cases a <;> first | exact trivial | exact h.elim

theorem Act.Working.checking {a : Act} (h : a.Working) : a.Checking := by
  cases a <;> first | exact trivial | exact h.elim

variable {setup : Setup} {env : Env} {key : PairKey}

/-- Only upkeep. -/
abbrev Quiet (_ : Slot) (a : Act) : Prop := a = .upkeep

theorem Upkeep.steps {s t : Slot} (h : Upkeep key s t) : Steps setup key Quiet s t :=
  Lib.Chain.single rfl (Move.upkeep h)

/-- One allowed move to a slot that is written differently. -/
theorem Steps.one {allow : Slot → Act → Prop} {s t t' : Slot} {a : Act} (ha : allow s a)
    (h : Move setup key s a t) (heq : t' = t) : Steps setup key allow s t' := by
  rw [heq]
  exact Lib.Chain.single ha h

/-- A quiet chain is a chain under every allowance that has upkeep. -/
theorem Steps.ofQuiet {allow : Slot → Act → Prop} (hup : ∀ s, allow s .upkeep) {s t : Slot}
    (h : Steps setup key Quiet s t) : Steps setup key allow s t := by
  apply Lib.Chain.mono ?_ h
  intro s a ha
  rw [ha]
  exact hup s

/-! ## Requests -/

theorem queuesNothing_steps (desk : Desk) (st : PairTradeState) {req : Requests}
    (h : desk.req.QueuesNothing req) :
    Steps setup key Quiet (slotOf (desk, st)) (slotOf ({ desk with req := req }, st)) := by
  obtain ⟨hqueue, hnext | hnext⟩ := h
  · -- the queue is the same, and so is the next id
    have hsame : slotOf ({ desk with req := req }, st) = slotOf (desk, st) := by
      simp [slotOf, Desk.view, hqueue, hnext]
    rw [hsame]
    exact Lib.Chain.refl _
  · -- only an id was used up
    have hburn : slotOf ({ desk with req := req }, st) =
        { slotOf (desk, st) with
          desk := { desk.view with nextId := desk.view.nextId + 1 } } := by
      simp [slotOf, Desk.view, hqueue, hnext]
    rw [hburn]
    exact (@Upkeep.burnId key (slotOf (desk, st))).steps

theorem view_queues (desk : Desk) {req : Requests} {kind : OrderRequestKind}
    (h : desk.req.Queues req kind) : Desk.view { desk with req := req } = desk.view.send kind := by
  obtain ⟨hqueue, hnext⟩ := h
  simp [Desk.view, DeskView.send, hqueue, hnext]

theorem maybeEnqueueFillPoll_steps (desk : Desk) (st : PairTradeState) (kind : FillKind)
    {req : Requests} {st' : PairTradeState}
    (h : desk.req.maybeEnqueueFillPoll setup env st key kind = (req, st')) :
    Steps setup key Quiet (slotOf (desk, st)) (slotOf ({ desk with req := req }, st')) ∧
      st'.toOrderState = st.toOrderState ∧ st'.lastBar = st.lastBar := by
  obtain ⟨horder, hbar, hqueue⟩ := Requests.maybeEnqueueFillPoll_cases setup env _ _ _ _ h
  refine ⟨?_, horder, hbar⟩
  -- order and bar are untouched, so only the requests count
  have hst : slotOf ({ desk with req := req }, st') = slotOf ({ desk with req := req }, st) := by
    simp [slotOf, horder, hbar]
  rw [hst]
  rcases hqueue with hnone | ⟨target, hqueue⟩
  · -- the poll is not made, or cannot be sent
    exact queuesNothing_steps desk st hnone
  · have hsend : slotOf ({ desk with req := req }, st) =
        { slotOf (desk, st) with
          desk := desk.view.send (.fetchFills key kind target st.entryTsMs) } := by
      simp [slotOf, view_queues desk hqueue]
    rw [hsend]
    exact (Upkeep.poll kind target st.entryTsMs).steps

/-- What `maybe_enqueue_entry_cancel` leaves alone besides its own request id. -/
theorem maybeEnqueueEntryCancel_steps (desk : Desk) (st : PairTradeState)
    (hent : st.toOrderState.Entering) (hplace : st.entryPlaceReqId = none) :
    Steps setup key Quiet (slotOf (desk, st))
      (slotOf ({ desk with req := (desk.req.maybeEnqueueEntryCancel env st).1 },
        (desk.req.maybeEnqueueEntryCancel env st).2)) := by
  unfold Requests.maybeEnqueueEntryCancel
  cases h : desk.req.maybeEnqueueCancel env false st.entryCancelPending st.entryCancelReqId
    st.entryOrderId with
  | mk req id =>
    rcases Requests.maybeEnqueueCancel_cases env _ _ _ _ _ h with
      ⟨hid, hnone⟩ | ⟨oid, hoid, hpend, _, hid, hqueue⟩
    · subst hid
      simpa using queuesNothing_steps desk st hnone
    · subst hid
      have hsend : slotOf ({ desk with req := req },
            { st with entryCancelReqId := some (desk.req.nextOrderReqId + 1) }) =
          { slotOf (desk, st) with
            order := { st.toOrderState with
              entryCancelReqId := some (desk.view.nextId + 1) }
            desk := desk.view.send (.cancelOrder oid) } := by
        simp [slotOf, view_queues desk hqueue]
      simp only [Option.some_or, hsend]
      exact (Upkeep.sendEntryCancel (s := slotOf (desk, st)) oid hent hplace hpend hoid).steps

theorem maybeEnqueueExitCancel_steps (desk : Desk) (st : PairTradeState)
    (hopen : st.toOrderState.Open) :
    Steps setup key Quiet (slotOf (desk, st))
      (slotOf ({ desk with req := (desk.req.maybeEnqueueExitCancel env st).1 },
        (desk.req.maybeEnqueueExitCancel env st).2)) := by
  unfold Requests.maybeEnqueueExitCancel
  cases h : desk.req.maybeEnqueueCancel env true st.exitCancelPending st.exitCancelReqId
    st.exitOrderId with
  | mk req id =>
    rcases Requests.maybeEnqueueCancel_cases env _ _ _ _ _ h with
      ⟨hid, hnone⟩ | ⟨oid, hoid, hpend, _, hid, hqueue⟩
    · subst hid
      -- no cancel is sent, and the request id stays as it was
      simpa using queuesNothing_steps desk st hnone
    · subst hid
      have hsend : slotOf ({ desk with req := req },
            { st with exitCancelReqId := some (desk.req.nextOrderReqId + 1) }) =
          { slotOf (desk, st) with
            order := { st.toOrderState with
              exitCancelReqId := some (desk.view.nextId + 1) }
            desk := desk.view.send (.cancelOrder oid) } := by
        simp [slotOf, view_queues desk hqueue]
      simp only [Option.some_or, hsend]
      exact (Upkeep.sendExitCancel (s := slotOf (desk, st)) oid hopen hpend hoid).steps

/-! ## Closing -/

/-- `releaseEntryNotional` and a cooldown, on the slot. -/
theorem slotOf_release_cooldown (desk : Desk) (st : PairTradeState) (barSecond cooldownMs : ℤ) :
    slotOf ({ desk with
        books := (releaseEntryNotional desk.books st (exposureKey key st.direction)).1 },
      (releaseEntryNotional desk.books st (exposureKey key st.direction)).2.enterCooldown
        barSecond cooldownMs) =
      { slotOf (desk, st) with
        order := st.toOrderState.closed
        desk := { desk.view with
          counters := desk.view.counters.releaseOf key st.toOrderState } } := by
  unfold releaseEntryNotional Counters.releaseOf
  -- without a notional nothing is released
  cases hn : st.entryNotional with
  | none => simp [slotOf, Desk.view, OrderState.closed, OrderState.cooldown, hn]
  | some notional => simp [slotOf, Desk.view, OrderState.closed, OrderState.cooldown]

theorem finalizeEntryCancel_slot (cfg : TradeConfig) (desk : Desk) (st : PairTradeState)
    (bar : Bars1sPair) :
    slotOf (finalizeEntryCancel cfg desk st bar key) =
      { slotOf (desk, st) with
        order := st.toOrderState.closed
        desk := { desk.view with
          counters := desk.view.counters.releaseOf key st.toOrderState } } :=
  slotOf_release_cooldown desk st bar.barSecond cfg.cooldownAfterCancelMs

theorem closePosition_slot (cfg : TradeConfig) (desk : Desk) (st : PairTradeState)
    (bar : Bars1sPair) :
    slotOf (closePosition cfg desk st bar (exposureKey key st.direction)) =
      { slotOf (desk, st) with
        order := st.toOrderState.closed
        desk := { desk.view with
          counters := desk.view.counters.releaseOf key st.toOrderState } } :=
  slotOf_release_cooldown desk st bar.barSecond cfg.cooldownAfterExitMs

/-! ## A working entry -/

/-- Chains of the labels that a check of a pair may cause. -/
abbrev CheckSteps (setup : Setup) (key : PairKey) : Slot → Slot → Prop :=
  Steps setup key fun _ a => a.Checking

theorem Steps.checking {s t : Slot} (h : Steps setup key Quiet s t) : CheckSteps setup key s t :=
  h.ofQuiet fun _ => trivial

/-- A dry run gives the entry up on the spot. -/
theorem finalizeEntryCancel_paper (desk : Desk) (st : PairTradeState) (bar : Bars1sPair)
    (hdry : setup.isLive = false) (hent : st.toOrderState.Entering) (hbar : st.lastBar.isSome = true) :
    CheckSteps setup key (slotOf (desk, st))
      (slotOf (finalizeEntryCancel setup.cfg desk st bar key)) := by
  have hlabel : (Act.cancelEntry .paper).Checking := rfl
  rw [finalizeEntryCancel_slot]
  exact Lib.Chain.single hlabel (Move.cancelEntry .paper hent (fun _ => hdry) hbar)

theorem requestEntryCancel_steps (desk : Desk) (st : PairTradeState) (bar : Bars1sPair)
    (reason : CancelReason) (hent : st.toOrderState.Entering) (hplace : st.entryPlaceReqId = none)
    (hbar : st.lastBar.isSome = true) :
    CheckSteps setup key (slotOf (desk, st))
      (slotOf (requestEntryCancel setup env desk st bar reason key)) := by
  unfold requestEntryCancel
  -- the flag comes first, in a live engine as in a dry run
  obtain ⟨st₁, hst₁, hask, hent₁, hplace₁, hbar₁⟩ : ∃ st₁ : PairTradeState,
      st₁ = (if st.entryCancelPending = true then
          { st with entryCancelReason := st.entryCancelReason.or (some reason) }
        else { st with entryCancelPending := true, entryCancelReason := some reason }) ∧
      CheckSteps setup key (slotOf (desk, st)) (slotOf (desk, st₁)) ∧
      st₁.toOrderState.Entering ∧ st₁.entryPlaceReqId = none ∧ st₁.lastBar.isSome = true := by
    by_cases hp : st.entryCancelPending = true
    · refine ⟨_, rfl, ?_, ?_⟩
      · -- the cancellation is pending already: only a reason may be added
        rw [if_pos hp]
        have hmove := @Upkeep.steps setup key (slotOf (desk, st)) _
          (.askEntryCancel (st.entryCancelReason.or (some reason)) hent hplace)
        rw [← hp] at hmove
        exact hmove.checking
      · rw [if_pos hp]
        exact ⟨hent, hplace, hbar⟩
    · refine ⟨_, rfl, ?_, ?_⟩
      · rw [if_neg hp]
        exact (Upkeep.askEntryCancel (s := slotOf (desk, st)) (some reason) hent
          hplace).steps.checking
      · rw [if_neg hp]
        exact ⟨hent, hplace, hbar⟩
  rw [← hst₁]
  apply hask.trans
  by_cases hlive : setup.isLive = true
  · simp only [if_pos hlive]
    exact (maybeEnqueueEntryCancel_steps desk st₁ hent₁ hplace₁).checking
  · simp only [if_neg hlive]
    exact finalizeEntryCancel_paper desk st₁ bar (by simpa using hlive) hent₁ hbar₁

theorem checkWorkingEntry_steps (signals : List ShockSignal) (desk : Desk) (st : PairTradeState)
    (bar : Bars1sPair) (flow : PmFlow) (hent : st.toOrderState.Entering)
    (hplace : st.entryPlaceReqId = none) (hcancel : st.entryCancelPending = false)
    (hbar : st.lastBar.isSome = true) :
    CheckSteps setup key (slotOf (desk, st))
      (slotOf (checkWorkingEntry setup env signals desk st bar flow key)) := by
  unfold checkWorkingEntry
  split
  · -- the time to live is over
    exact requestEntryCancel_steps desk st bar .ttl hent hplace hbar
  · split
    · -- one of the rules says so
      exact requestEntryCancel_steps desk st bar _ hent hplace hbar
    · split
      · -- a live entry waits for its fills
        exact Lib.Chain.refl _
      · rename_i hlive
        split
        · rename_i price _
          have hlabel : Act.fillPaper.Checking := trivial
          have hdry : setup.isLive = false := by simpa using hlive
          exact Lib.Chain.single hlabel (Move.entryPaper price env.now hdry hent hcancel)
        · exact Lib.Chain.refl _

/-- `check_entry`. -/
theorem checkEntry_steps (signals : List ShockSignal) (desk : Desk) (st : PairTradeState)
    (bar : Bars1sPair) (flow : PmFlow) (hent : st.toOrderState.Entering)
    (hplace : setup.isLive = false → st.entryPlaceReqId = none)
    (hbar : st.lastBar.isSome = true) :
    CheckSteps setup key (slotOf (desk, st))
      (slotOf (checkEntry setup env signals desk st bar flow key)) := by
  unfold checkEntry
  split
  · -- the pair has no direction
    rename_i hdir
    exact (Upkeep.forget (s := slotOf (desk, st)) hent hdir).steps.checking
  · split
    · split
      · -- the response to the placement is still to come
        exact Lib.Chain.refl _
      · rename_i hreq
        have hnone : st.entryPlaceReqId = none := by simpa using hreq
        cases hpoll : desk.req.maybeEnqueueFillPoll setup env st key .entry with
        | mk req st₁ =>
          obtain ⟨hsteps, horder, hlast⟩ := maybeEnqueueFillPoll_steps desk st .entry hpoll
          have hent₁ : st₁.toOrderState.Entering := by rwa [horder]
          have hnone₁ : st₁.entryPlaceReqId = none := by rw [horder]; exact hnone
          have hbar₁ : st₁.lastBar.isSome = true := by rw [hlast]; exact hbar
          -- the poll comes first
          simp only
          apply hsteps.checking.trans
          split
          · -- a pending cancel is sent again
            exact (maybeEnqueueEntryCancel_steps { desk with req := req } st₁ hent₁
              hnone₁).checking
          · rename_i hcancel
            exact checkWorkingEntry_steps signals _ st₁ bar flow hent₁ hnone₁ (by simpa using hcancel)
              hbar₁
    · -- in a dry run there are no requests
      rename_i hlive
      have hdry : setup.isLive = false := by simpa using hlive
      have hnone := hplace hdry
      split
      · -- a pending cancel is final at once
        exact finalizeEntryCancel_paper desk st bar hdry hent hbar
      · rename_i hcancel
        exact checkWorkingEntry_steps signals desk st bar flow hent hnone (by simpa using hcancel)
          hbar

/-! ## An open position -/

/-- Chains of the labels that a check of an open position may cause. -/
abbrev WorkingSteps (setup : Setup) (key : PairKey) : Slot → Slot → Prop :=
  Steps setup key fun _ a => a.Working

theorem Steps.working {s t : Slot} (h : Steps setup key Quiet s t) : WorkingSteps setup key s t :=
  h.ofQuiet fun _ => trivial

/-- `placeExit` on the slot. -/
theorem placeExit_slot (desk : Desk) (st : PairTradeState) (bar : Bars1sPair)
    (exitPrice qty : ℚ) :
    ∃ prices result calls, (∀ price ∈ prices, (0 : ℚ) < price) ∧
      ChaseOutcome (exitSide st.direction) qty prices result calls ∧
      slotOf (placeExit setup env desk st bar key exitPrice qty) =
        { slotOf (desk, st) with
          order := st.toOrderState.exitPlaced result
          desk := desk.view.call key calls } := by
  have hout := placeExitWithChase_outcome env.lower (setup.orderTargets key).isSome
    setup.opinionClient (bar.pairId, bar.tokenSide) (exitSide st.direction) qty
    setup.cfg.orderClientPrefix env.clock (env.exitReplies key)
    (exitCandidatePrices setup.cfg bar st.direction exitPrice)
  unfold placeExit
  cases hchase : placeExitWithChase env.lower (setup.orderTargets key).isSome
    setup.opinionClient (bar.pairId, bar.tokenSide) (exitSide st.direction) qty
    setup.cfg.orderClientPrefix env.clock (env.exitReplies key)
    (exitCandidatePrices setup.cfg bar st.direction exitPrice) with
  | mk result calls =>
    rw [hchase] at hout
    refine ⟨_, result, calls, exitCandidatePrices_pos setup.cfg bar st.direction exitPrice, hout,
      ?_⟩
    -- the ids of the order that the chase reports, if it reports one
    unfold OrderState.exitPlaced
    simp only [hchase]
    cases result.order with
    | some order => rfl
    | none => rfl

theorem exitPoll_steps (desk : Desk) (st : PairTradeState) :
    WorkingSteps setup key (slotOf (desk, st)) (slotOf (exitPoll setup env desk st key)) := by
  unfold exitPoll
  split
  · exact Lib.Chain.refl _
  · cases hpoll : desk.req.maybeEnqueueFillPoll setup env st key .exit with
    | mk req st₁ => exact (maybeEnqueueFillPoll_steps desk st .exit hpoll).1.working

theorem exitAwaitCancel_steps (desk : Desk) (st : PairTradeState) (hopen : st.toOrderState.Open) :
    WorkingSteps setup key (slotOf (desk, st))
      (slotOf (exitAwaitCancel setup env desk st key)) := by
  -- the cancel, then the poll
  have hcancel := (@maybeEnqueueExitCancel_steps setup env key desk st
    hopen).working
  have hpoll := @exitPoll_steps setup env key
    { desk with req := (desk.req.maybeEnqueueExitCancel env st).1 }
    (desk.req.maybeEnqueueExitCancel env st).2
  exact hcancel.trans hpoll

theorem exitStartCancel_steps (desk : Desk) (st : PairTradeState) (reason : CancelReason)
    (hstate : st.state = .exitWorking) (hid : st.exitOrderId.isSome ∨ st.exitClientId.isSome) :
    WorkingSteps setup key (slotOf (desk, st))
      (slotOf (exitStartCancel setup env desk st key reason)) := by
  unfold exitStartCancel
  obtain ⟨st₁, hst₁, hask, hopen₁⟩ : ∃ st₁ : PairTradeState,
      st₁ = (if st.exitCancelPending = true then st
        else { st with exitCancelPending := true, exitCancelReason := some reason }) ∧
      WorkingSteps setup key (slotOf (desk, st)) (slotOf (desk, st₁)) ∧
      st₁.toOrderState.Open := by
    -- the cancellation is pending already
    by_cases hp : st.exitCancelPending = true
    · exact ⟨_, rfl, by rw [if_pos hp]; exact Lib.Chain.refl _, by
        rw [if_pos hp]; exact Or.inr hstate⟩
    · refine ⟨_, rfl, ?_, ?_⟩
      · rw [if_neg hp]
        exact (Upkeep.askExitCancel (s := slotOf (desk, st)) (some reason) hstate
          hid).steps.working
      · rw [if_neg hp]
        exact Or.inr hstate
  rw [← hst₁]
  apply hask.trans
  apply (maybeEnqueueExitCancel_steps desk st₁ hopen₁).working.trans
  cases hpoll : (desk.req.maybeEnqueueExitCancel env st₁).1.maybeEnqueueFillPoll setup env
    -- the poll is queued after the cancel
    (desk.req.maybeEnqueueExitCancel env st₁).2 key .exit with
  | mk req st₂ =>
    have hsteps := (maybeEnqueueFillPoll_steps
      { desk with req := (desk.req.maybeEnqueueExitCancel env st₁).1 } _ .exit hpoll).1
    simp only [hpoll]
    exact hsteps.working

/-- The placement of a worked position that has no exit order. -/
theorem retryExit_steps (desk : Desk) (st : PairTradeState) (bar : Bars1sPair)
    (exitPrice qty : ℚ) (hlive : setup.isLive = true) (hstate : st.state = .exitWorking)
    (hqty : st.entryQty = some qty) (hcancel : st.exitCancelPending = false)
    (hid : st.exitOrderId = none) (hclient : st.exitClientId = none) :
    WorkingSteps setup key (slotOf (desk, st))
      (slotOf (placeExit setup env desk st bar key exitPrice qty)) := by
  obtain ⟨prices, result, calls, hpos, hcalls, hslot⟩ :=
    @placeExit_slot setup env key desk st bar exitPrice qty
  have hlabel : (Act.callExit calls).Working := trivial
  rw [hslot]
  exact Lib.Chain.single hlabel (Move.retryExit (s := slotOf (desk, st)) qty prices result calls
    hlive hstate hqty hcancel hid hclient hpos hcalls)

/-- The placement of an open position that starts to be worked. -/
theorem openExit_steps (desk : Desk) (st : PairTradeState) (bar : Bars1sPair)
    (exitPrice qty : ℚ) (hlive : setup.isLive = true) (hstate : st.state = .positionOpen)
    (hqty : st.entryQty = some qty) (hcancel : st.exitCancelPending = false) :
    WorkingSteps setup key (slotOf (desk, st))
      (slotOf (placeExit setup env desk { st with state := .exitWorking } bar key exitPrice
        qty)) := by
  obtain ⟨prices, result, calls, hpos, hcalls, hslot⟩ :=
    @placeExit_slot setup env key desk
      { st with state := .exitWorking } bar exitPrice qty
  have hlabel : (Act.callExit calls).Working := trivial
  rw [hslot]
  exact Lib.Chain.single hlabel (Move.openExit (s := slotOf (desk, st)) qty prices result calls
    hlive hstate hqty hcancel hpos hcalls)

theorem placeExit_state (desk : Desk) (st : PairTradeState) (bar : Bars1sPair)
    (exitPrice qty : ℚ) :
    (placeExit setup env desk st bar key exitPrice qty).2.state = st.state := by
  unfold placeExit
  simp only
  split <;> rfl

/-- In a live engine the placements end in a worked position; either way the
position stays open. -/
theorem exitPlacements_steps (desk : Desk) (st : PairTradeState) (bar : Bars1sPair)
    (plan : ExitPlan) (qty : ℚ) (hopen : st.toOrderState.Open) (hqty : st.entryQty = some qty)
    (hcancel : setup.isLive = true → st.exitCancelPending = false) :
    WorkingSteps setup key (slotOf (desk, st))
        (slotOf (exitPlacements setup env desk st bar key plan qty)) ∧
      (exitPlacements setup env desk st bar key plan qty).2.state = .exitWorking := by
  unfold exitPlacements
  simp only
  rcases hopen with hstate | hstate
  · -- an open position is not worked yet: only the second placement can be made
    have hfirst : ¬ (setup.isLive = true ∧
        (decide (st.state = .exitWorking) && st.exitOrderId.isNone && st.exitClientId.isNone) =
          true ∧ plan.canReprice = true) := by simp [hstate]
    have hne : ¬ st.state = .exitWorking := by simp [hstate]
    -- nothing is placed before the state is `exitWorking`
    rw [if_neg hfirst]
    simp only [if_neg hne]
    by_cases hlive : setup.isLive = true
    · rw [if_pos hlive]
      exact ⟨openExit_steps desk st bar plan.exitPrice qty hlive hstate hqty (hcancel hlive),
        placeExit_state desk _ bar plan.exitPrice qty⟩
    · rw [if_neg hlive]
      have hdry : setup.isLive = false := by simpa using hlive
      have hlabel : Act.fillPaper.Working := trivial
      have hsome : st.entryQty.isSome = true := by rw [hqty]; rfl
      exact ⟨Lib.Chain.single hlabel (Move.openPaper (s := slotOf (desk, st)) hdry hstate hsome),
        rfl⟩
  · -- a worked position gets an order if it has none
    by_cases hfirst : setup.isLive = true ∧
        (decide (st.state = .exitWorking) && st.exitOrderId.isNone && st.exitClientId.isNone) =
          true ∧ plan.canReprice = true
    · have hafter := @placeExit_state setup env key desk st bar
        plan.exitPrice qty
      rw [hstate] at hafter
      rw [if_pos hfirst]
      simp only [if_pos hafter]
      obtain ⟨hlive, hnone, _⟩ := hfirst
      simp only [Bool.and_eq_true, Option.isNone_iff_eq_none] at hnone
      exact ⟨retryExit_steps desk st bar plan.exitPrice qty hlive hstate hqty (hcancel hlive)
        hnone.1.2 hnone.2, hafter⟩
    · -- it has an order, or may not place one yet
      rw [if_neg hfirst]
      simp only [if_pos hstate]
      exact ⟨Lib.Chain.refl _, hstate⟩

/-- `check_exit`. -/
theorem checkExit_steps (signals : List ShockSignal) (desk : Desk) (st : PairTradeState)
    (bar : Bars1sPair) (flow : PmFlow) (basePm : ℚ) (hopen : st.toOrderState.Open) :
    WorkingSteps setup key (slotOf (desk, st))
      (slotOf (checkExit setup env signals desk st bar flow basePm key)) := by
  unfold checkExit
  split
  · rename_i entryPrice qty _ hqty
    simp only
    generalize exitPlan setup env desk.books signals st bar flow basePm entryPrice qty = plan
    -- target and price are no part of the slot
    obtain ⟨st₁, hst₁, hslot, hopen₁, hqty₁⟩ : ∃ st₁ : PairTradeState,
        st₁ = { st with
          exitPriceTarget := some plan.exitPriceTarget, exitPrice := some plan.exitPrice } ∧
        slotOf (desk, st₁) = slotOf (desk, st) ∧ st₁.toOrderState.Open ∧
        st₁.entryQty = some qty := ⟨_, rfl, rfl, hopen, hqty⟩
    rw [← hslot, ← hst₁]
    split
    · -- a cancel of the exit order is on its way
      exact exitAwaitCancel_steps desk st₁ hopen₁
    · rename_i hnocancel
      split
      · -- the order has to move
        rename_i hreprice
        rw [hst₁]
        exact exitStartCancel_steps desk _ _ hreprice.2.1 hreprice.2.2.2.2.2
      · -- no cancel is pending here, or the run is dry
        have hcancel : setup.isLive = true → st₁.exitCancelPending = false := by
          intro hlive
          simpa [hlive, hst₁] using hnocancel
        obtain ⟨hsteps, hstate⟩ := @exitPlacements_steps setup env key
          desk st₁ bar plan qty hopen₁ hqty₁ hcancel
        apply hsteps.trans
        generalize exitPlacements setup env desk st₁ bar key plan qty = placed at hstate
        obtain ⟨desk₂, st₂⟩ := placed
        simp only at hstate ⊢
        split
        · -- live, the order is polled
          exact exitPoll_steps desk₂ st₂
        · rename_i hlive
          split
          · -- dry, the bar may fill it
            rw [closePosition_slot]
            have hdry : setup.isLive = false := by simpa using hlive
            have hlabel : Act.fillPaper.Working := trivial
            exact Lib.Chain.single hlabel (Move.exitPaper (s := slotOf (desk₂, st₂)) hdry hstate)
          · exact Lib.Chain.refl _
  · exact Lib.Chain.refl _

/-! ## Entering -/

/-- Chains of the labels that an attempt to enter may cause. -/
abbrev EnterSteps (setup : Setup) (entry : PendingEntry) : Slot → Slot → Prop :=
  Steps setup entry.key fun _ a => a.Enters entry

theorem Steps.entering {entry : PendingEntry} {s t : Slot}
    (h : Steps setup entry.key Quiet s t) : EnterSteps setup entry s t :=
  h.ofQuiet fun _ => trivial

theorem placeEntry_steps (desk : Desk) (st : PairTradeState) (entry : PendingEntry)
    (qty first : ℚ) (rest : List ℚ) (hstate : st.state = .idle) (hbar : st.lastBar.isSome = true)
    (hkey : entry.key = (entry.bar.pairId, entry.bar.tokenSide)) (hdir : entry.direction ≠ 0)
    (hsized : EntrySized setup.cfg desk.books.counters entry qty (first :: rest)) :
    EnterSteps setup entry (slotOf (desk, st))
      (slotOf (placeEntry setup env desk st entry qty first rest)) := by
  unfold placeEntry
  simp only
  split
  · rename_i hlive
    split
    · rename_i req id hsend
      rcases Requests.enqueuePlaceChase_cases setup env _ _ _ _ _ _ hsend with
        -- the request was sent: the entry is queued
        ⟨hid, _⟩ | ⟨target, hid, hqueue⟩
      · cases hid
      · cases hid
        have hlabel : (Act.queueEntry entry qty (first :: rest)).Enters entry := rfl
        have hmove := Move.queueEntry (s := slotOf (desk, st)) entry qty first rest target hlive
          hstate hbar rfl hdir hsized
        refine Steps.one hlabel hmove ?_
        simp only [slotOf, Desk.view, DeskView.send, counters_reserveEntryPool, hqueue.1, hqueue.2]
        rfl
    · rename_i req hsend
      rcases Requests.enqueuePlaceChase_cases setup env _ _ _ _ _ _ hsend with
        ⟨_, hnone⟩ | ⟨target, hid, _⟩
      · -- it was not: the pair gives up
        have hgive := @Upkeep.steps setup entry.key (slotOf (desk, st)) _
          (.giveUpSending entry qty first hstate hbar)
        -- the pool is given back; it is no part of the slot
        have hpool : Books.counters { desk.books with
            risk := (desk.books.risk.reserveEntryPool setup.cfg entry.bar.barSecond
              (first * qty)).releaseEntryPool setup.cfg entry.bar.barSecond (first * qty) } =
            desk.books.counters :=
          (counters_releaseEntryPool setup.cfg { desk.books with
            risk := desk.books.risk.reserveEntryPool setup.cfg entry.bar.barSecond (first * qty) }
            _ _).trans (counters_reserveEntryPool setup.cfg desk.books _ _)
        have hburn := @queuesNothing_steps setup entry.key
          { desk with books := { desk.books with
            risk := (desk.books.risk.reserveEntryPool setup.cfg entry.bar.barSecond
              (first * qty)).releaseEntryPool setup.cfg entry.bar.barSecond (first * qty) } }
          (PairTradeState.enterCooldown
            { st.markEntry entry with toOrderState := st.toOrderState.placing entry qty first }
            entry.bar.barSecond setup.cfg.cooldownAfterPostonlyRejectMs) _ hnone
        apply Steps.entering
        apply hgive.trans
        refine Eq.subst (motive := fun s => Steps setup entry.key Quiet s _) ?_ hburn
        simp only [slotOf, Desk.view, hpool]
        rfl
      · cases hid
  · -- a dry run works the entry at once
    rename_i hlive
    have hdry : setup.isLive = false := by simpa using hlive
    have hlabel : (Act.enterPaper entry qty first).Enters entry := rfl
    have hmove := Move.enterPaper (s := slotOf (desk, st)) entry qty first rest env.now hdry hstate
      hbar rfl hdir hsized
    refine Steps.one hlabel hmove ?_
    simp only [slotOf, Desk.view, counters_addExposure, counters_reserveEntryPool, exposureKey,
      hkey]
    rfl

/-- `maybe_enter`. -/
theorem maybeEnter_steps (desk : Desk) (st : PairTradeState) (entry : PendingEntry)
    (pool : Option ℚ) (hstate : st.state = .idle) (hbar : st.lastBar.isSome = true)
    (hkey : entry.key = (entry.bar.pairId, entry.bar.tokenSide)) :
    EnterSteps setup entry (slotOf (desk, st))
      (slotOf (maybeEnter setup env desk st entry pool)) := by
  unfold maybeEnter
  simp only
  split
  · -- the pair tried too recently
    exact Lib.Chain.refl _
  · split
    · -- no direction, or no price to go by
      exact Lib.Chain.refl _
    · rename_i hgo
      simp only [not_or] at hgo
      split
      · -- the book is unknown or blocked
        exact Lib.Chain.refl _
      · rename_i shape hshape
        have hcounters := counters_budgetForEntry setup.cfg desk.books
          (entry.bar.pairId, entry.bar.tokenSide, entry.direction) entry.bar.barSecond pool
          entry.alphaType
        cases hbudget : desk.books.budgetForEntry setup.cfg
          (entry.bar.pairId, entry.bar.tokenSide, entry.direction) entry.bar.barSecond pool
          entry.alphaType with
        | mk books notional =>
          rw [hbudget] at hcounters
          simp only at hcounters
          -- the budget may reset the pool, which is no part of the slot
          have hslot : slotOf ({ desk with books := books },
                { st with lastEntryAttemptMs := some env.now }) = slotOf (desk, st) := by
            simp only [slotOf, Desk.view, hcounters]
          rw [← hslot]
          cases notional with
          | none => exact Lib.Chain.refl _
          | some notional =>
            simp only
            cases hdecide : entryDecision setup.cfg env entry shape notional with
            | skip => exact Lib.Chain.refl _
            | noCandidate =>
              exact (Upkeep.giveUp (s := slotOf ({ desk with books := books },
                { st with lastEntryAttemptMs := some env.now })) hstate hbar).steps.entering
            | place qty first rest =>
              -- the quantity comes from the budget that the counters leave
              have hsized : EntrySized setup.cfg books.counters entry qty (first :: rest) := by
                refine ⟨env, desk.books, pool, notional, shape, first, rest, hcounters.symm,
                  (Option.filter_eq_some_iff.mp hshape).1, ?_, hdecide, rfl⟩
                simp only [exposureKey, hkey, hbudget]
              exact placeEntry_steps { desk with books := books }
                { st with lastEntryAttemptMs := some env.now } entry qty first rest hstate hbar
                hkey hgo.1 hsized

/-! ## Fills -/

/-- A fill is applied first, to the orders as they are; then the position is worked. -/
def EntryFillAllow (st : PairTradeState) (fills : List TradeFill) (s : Slot) (a : Act) : Prop :=
  a.Working ∨
    ∃ fill, a = .entryFill fill ∧ s.order = st.toOrderState ∧ entryFill? st fills = some fill

theorem find?_takes {p q : TradeFill → Bool} {fills : List TradeFill} {fill : TradeFill}
    (h : fills.find? (fun fill => p fill && q fill) = some fill) :
    p fill = true ∧ q fill = true := by
  simpa using List.find?_some h

theorem applyEntryFillsAndCheck_steps (signals : List ShockSignal) (desk : Desk)
    (st : PairTradeState) (bar : Bars1sPair) (flow : PmFlow) (fills : List TradeFill)
    (hbar : st.lastBar.isSome = true) :
    Steps setup key (EntryFillAllow st fills) (slotOf (desk, st))
      (slotOf (applyEntryFillsAndCheck setup env signals desk st bar flow fills key)) := by
  unfold applyEntryFillsAndCheck applyEntryFills
  -- the pair has no entry order
  by_cases hid : st.entryOrderId = none ∧ st.entryClientId = none
  · simp only [if_pos hid, Bool.false_eq_true, false_and, if_false]
    exact Lib.Chain.refl _
  · simp only [if_neg hid]
    cases hfill : entryFill? st fills with
    | none =>
      simp only [Bool.false_eq_true, false_and, if_false]
      exact Lib.Chain.refl _
    | some fill =>
      have hallow : EntryFillAllow st fills (slotOf (desk, st)) (.entryFill fill) :=
        Or.inr ⟨fill, rfl, rfl, hfill⟩
      have happly : Steps setup key (EntryFillAllow st fills) (slotOf (desk, st))
          (slotOf (desk, { st with
            toOrderState := st.toOrderState.entryFilled fill env.now
            pmMoveEntry := some flow.pmMove })) :=
        Lib.Chain.single hallow (Move.entryFill (s := slotOf (desk, st)) fill env.now hbar
          (find?_takes hfill))
      apply happly.trans
      simp only
      -- a live position is worked at once
      split
      · apply Lib.Chain.mono ?_ (checkExit_steps signals desk _ bar flow _ (Or.inl rfl))
        intro s a ha
        exact Or.inl ha
      · exact Lib.Chain.refl _

/-- Exit fills that are in the message and named in the state. -/
def ExitFillAllow (fills : List TradeFill) (_ : Slot) (a : Act) : Prop :=
  a = .upkeep ∨ ∃ fill ∈ fills, a = .exitFill fill

/-- A fill of the exit order closes a position with a price and a quantity. -/
theorem applyExitFills_move (desk : Desk) (st : PairTradeState) (bar : Bars1sPair)
    {fills : List TradeFill} {fill : TradeFill} (hfill : exitFill? st fills = some fill)
    (hbar : st.lastBar.isSome = true) (hkey : key = (bar.pairId, bar.tokenSide))
    (hsome : st.entryPrice.isSome ∧ st.entryQty.isSome) :
    Move setup key (slotOf (desk, st)) (.exitFill fill)
      (slotOf (applyExitFills setup.cfg desk st bar fills)) := by
  -- the fill names the order, so the order has an id
  have hid : ¬ (st.exitOrderId = none ∧ st.exitClientId = none) := by
    rintro ⟨h₁, h₂⟩
    have hmatch := (find?_takes hfill).1
    simp [fillMatchesOrder, h₁, h₂] at hmatch
  have hsome' : st.toOrderState.dropExitCancel.entryPrice.isSome = true ∧
      st.toOrderState.dropExitCancel.entryQty.isSome = true := hsome
  have hclose := @closePosition_slot key setup.cfg desk
    { st with toOrderState := st.toOrderState.dropExitCancel } bar
  unfold applyExitFills
  simp only [if_neg hid, hfill, if_pos hsome']
  simp only [exposureKey, hkey, OrderState.dropExitCancel] at hclose ⊢
  rw [hclose, ← hkey]
  exact Move.exitFill (s := slotOf (desk, st)) fill hbar (find?_takes hfill) hsome

theorem applyExitFills_steps (desk : Desk) (st : PairTradeState) (bar : Bars1sPair)
    (fills : List TradeFill) (hbar : st.lastBar.isSome = true)
    (hkey : key = (bar.pairId, bar.tokenSide)) :
    Steps setup key (ExitFillAllow fills) (slotOf (desk, st))
      (slotOf (applyExitFills setup.cfg desk st bar fills)) := by
  cases hfill : exitFill? st fills with
  | none =>
    -- no fill of the exit order
    have hsame : applyExitFills setup.cfg desk st bar fills = (desk, st) := by
      unfold applyExitFills
      simp only [hfill, ite_self]
    rw [hsame]
    exact Lib.Chain.refl _
  | some fill =>
    by_cases hsome : st.entryPrice.isSome ∧ st.entryQty.isSome
    · have hallow : ExitFillAllow fills (slotOf (desk, st)) (.exitFill fill) :=
        Or.inr ⟨fill, List.mem_of_find?_eq_some hfill, rfl⟩
      exact Lib.Chain.single hallow (applyExitFills_move desk st bar hfill hbar hkey hsome)
    · -- without a price or a quantity only the cancel flags go
      have hsome' : ¬ (st.toOrderState.dropExitCancel.entryPrice.isSome = true ∧
          st.toOrderState.dropExitCancel.entryQty.isSome = true) := hsome
      have hup : ExitFillAllow fills (slotOf (desk, st)) .upkeep := Or.inl rfl
      unfold applyExitFills
      split
      · exact Lib.Chain.refl _
      · simp only [hfill, if_neg hsome']
        exact Lib.Chain.single hup (Move.upkeep (Upkeep.dropExitCancel hsome))

/-! ## Cancellations -/

/-- A confirmed cancellation of the entry order, whoever confirms it. -/
theorem entryCancelled_move (desk : Desk) (st₀ st : PairTradeState) (cause : Cause)
    (hcause : cause.OfEntry st₀.toOrderState) (hpaper : cause ≠ .paper)
    (hlast : st.lastBar = st₀.lastBar)
    (hclosed : st.toOrderState.closed = st₀.toOrderState.closed)
    (hcooldown : st.toOrderState.cooldown = st₀.toOrderState.cooldown)
    (hrelease : ∀ c : Counters,
      c.releaseOf key st.toOrderState = c.releaseOf key st₀.toOrderState) :
    Move setup key (slotOf (desk, st₀)) (.cancelEntry cause)
      (slotOf (TradeEngine.entryCancelled setup desk st key)) := by
  unfold TradeEngine.entryCancelled
  split
  · -- the bar gives the second from which the cooldown counts
    rename_i bar hbar
    have hbar₀ : (slotOf (desk, st₀)).hasBar = true := by
      simp only [slotOf_hasBar, ← hlast, hbar, Option.isSome_some]
    have hmove := @Move.cancelEntry setup key (slotOf (desk, st₀)) cause hcause
      (fun h => absurd h hpaper) hbar₀
    rw [finalizeEntryCancel_slot, hclosed, hrelease]
    simpa only [slotOf, hlast] using hmove
  · -- without a bar the pair is only put into cooldown
    rename_i hbar
    have hbar₀ : (slotOf (desk, st₀)).hasBar = false := by
      simp only [slotOf_hasBar, ← hlast, hbar, Option.isSome_none]
    have hmove := @Move.abandonEntry setup key (slotOf (desk, st₀)) cause hcause hbar₀
    simpa only [slotOf, PairTradeState.enterCooldown_toOrderState,
      PairTradeState.enterCooldown_lastBar, hcooldown, hlast] using hmove

end AlphaMonitor.Trade
