import AlphaMonitor.Trade.Executor

/-!
# What a cancel is aimed at

A cancel is asked for by a flag of the pair and sent under the id of the order.  An entry
whose placement succeeded without an id can be asked for but not cancelled, and then only
a fill takes the pair any further.

## Main results

- `nameless_stays`: an entry order without an id is worked for as long as no fill comes
- `cancels_targeted_iff`: cancels have targets just in case every placement that
  succeeds names its order
-/

namespace AlphaMonitor.Trade

variable {setup : Setup} {env : Env} {key : PairKey}

/-! ## Ids of orders and of cancels -/

/-- A cancel is only sent for an order whose id is known, and an exit order with a client
id has an id of its own. -/
structure OrderState.Aimed (o : OrderState) : Prop where
  entry : o.entryCancelReqId.isSome = true → o.entryOrderId.isSome = true
  exit : o.exitClientId.isSome = true → o.exitOrderId.isSome = true

theorem OrderState.Aimed.of_none {o : OrderState} (hreq : o.entryCancelReqId = none)
    (hclient : o.exitClientId = none) : o.Aimed := by
  constructor
  · rw [hreq]
    exact nofun
  · rw [hclient]
    exact nofun

theorem OrderState.Aimed.exitPlaced {o : OrderState} (h : o.Aimed) (result : PlaceResult) :
    (o.exitPlaced result).Aimed := by
  unfold OrderState.exitPlaced
  cases result.order with
  | none => exact h
  | some order => exact ⟨h.entry, fun _ => rfl⟩

theorem Upkeep.aimed {s t : Slot} (h : Upkeep key s t) (hs : s.order.Aimed) : t.order.Aimed := by
  cases h with
  | expire => exact .of_none rfl rfl
  | forget => exact .of_none rfl rfl
  | giveUp => exact .of_none rfl rfl
  | giveUpSending => exact .of_none rfl rfl
  | sendEntryCancel orderId hstate hreq hpend hid =>
    refine ⟨fun _ => ?_, hs.exit⟩
    show s.order.entryOrderId.isSome = true
    rw [hid]
    rfl
  | entryCancelFailed => exact ⟨nofun, hs.exit⟩
  | _ => exact ⟨hs.entry, hs.exit⟩

theorem Move.aimed {s t : Slot} {a : Act} (h : Move setup key s a t)
    (hwf : s.order.Wf setup.isLive s.hasBar) (hs : s.order.Aimed) : t.order.Aimed := by
  cases h with
  | upkeep hup => exact hup.aimed hs
  | placed reqId result entry price qty now hreq =>
    have hstate : s.order.state = .entryPlacing := hwf.placing.mpr (by rw [hreq]; rfl)
    have hidle : ¬ s.order.Holding := fun hhold => hhold.ne_placing hstate
    obtain ⟨-, -, -, hcancel⟩ := hwf.quiet hidle
    refine ⟨fun hsome => ?_, hs.exit⟩
    change s.order.entryCancelReqId.isSome = true at hsome
    rw [hcancel] at hsome
    cases hsome
  | entryFill => exact ⟨nofun, hs.exit⟩
  | openExit qty prices result =>
    have hopened : OrderState.Aimed { s.order with state := .exitWorking } := ⟨hs.entry, hs.exit⟩
    exact hopened.exitPlaced result
  | retryExit qty prices result => exact hs.exitPlaced result
  | refused => exact .of_none rfl rfl
  | exitFill => exact .of_none rfl rfl
  | cancelEntry => exact .of_none rfl rfl
  | abandonEntry => exact .of_none rfl rfl
  | exitPaper => exact .of_none rfl rfl
  | cancelExit => exact ⟨hs.entry, nofun⟩
  | _ => exact ⟨hs.entry, hs.exit⟩

theorem aimed_of_reachable {eng : TradeEngine} (h : (engineMachine setup).Reachable eng)
    (key : PairKey) : (eng.stateOf key).Aimed :=
  orderInv_of_reachable (.of_none rfl rfl) (fun _ _ _ hwf hs hmove => hmove.aimed hwf hs) h

/-! ## An entry order without an id -/

/-- The entry order is worked and its id is not known. -/
structure OrderState.Nameless (o : OrderState) : Prop where
  working : o.state = .entryWorking
  unnamed : o.entryOrderId = none

/-- Only a fill takes a pair further whose entry order has no id. -/
theorem Move.nameless {s t : Slot} {a : Act} (hlive : setup.isLive = true)
    (h : Move setup key s a t) (hwf : s.order.Wf setup.isLive s.hasBar) (haimed : s.order.Aimed)
    (ha : ∀ fill, a ≠ .entryFill fill) (hs : s.order.Nameless) : t.order.Nameless := by
  obtain ⟨hwork, hunnamed⟩ := hs
  have hdry : setup.isLive ≠ false := by
    rw [hlive]
    exact Bool.noConfusion
  have hclosed := not_open_of_working hwork
  have hdir := (hwf.held (Or.inl hwork)).2.2.2.2.2
  have hplace : s.order.entryPlaceReqId = none := hwf.not_placing (by simp [hwork])
  have hnot : ∀ state, state ≠ .entryWorking → s.order.state ≠ state :=
    fun state hne heq => hne (heq.symm.trans hwork)
  have hcause : ∀ cause : Cause, (cause = .paper → setup.isLive = false) →
      ¬ cause.OfEntry s.order := by
    intro cause hpaper hcause
    cases cause with
    | ack reqId =>
      have hsome : s.order.entryCancelReqId = some reqId := hcause
      have hnamed := haimed.entry (by rw [hsome]; rfl)
      rw [hunnamed] at hnamed
      cases hnamed
    | update orderId => exact nomatch hunnamed.symm.trans hcause
    | paper => exact hdry (hpaper rfl)
  cases h with
  | upkeep hup =>
    cases hup with
    | expire hstate => exact absurd hstate (hnot _ nofun)
    | forget hstate hzero => exact absurd hzero hdir
    | giveUp hstate => exact absurd hstate (hnot _ nofun)
    | giveUpSending entry qty price hstate => exact absurd hstate (hnot _ nofun)
    | _ => exact ⟨hwork, hunnamed⟩
  | queueEntry entry qty first rest target _ hstate => exact absurd hstate (hnot _ nofun)
  | enterPaper entry qty price rest now hpaper => exact absurd hpaper hdry
  | placed reqId result entry price qty now hreq => exact nomatch hplace.symm.trans hreq
  | refused reqId hreq => exact nomatch hplace.symm.trans hreq
  | entryFill fill => exact absurd rfl (ha fill)
  | openExit qty prices result calls _ hstate => exact absurd hstate (hnot _ nofun)
  | retryExit qty prices result calls _ hstate => exact absurd hstate (hnot _ nofun)
  | exitFill fill hbar htakes => exact absurd (hwf.open_of_takesExitFill htakes) hclosed
  | cancelEntry cause hof hpaper => exact absurd hof (hcause cause hpaper)
  | abandonEntry cause hof hbar =>
    have hseen := hwf.bar (hwf.not_idle_of_cause hof)
    rw [hbar] at hseen
    cases hseen
  | cancelExit cause => exact ⟨hwork, hunnamed⟩
  | entryPaper price now hpaper => exact absurd hpaper hdry
  | openPaper hpaper => exact absurd hpaper hdry
  | exitPaper hpaper => exact absurd hpaper hdry

/-- The message reports no fill to the pair. -/
def TradeMessage.FillFree (key : PairKey) : TradeMessage → Prop
  | .orderUpdate update =>
    (update.pairId, update.tokenSide) ≠ key ∨
      (update.isFillUpdate = false ∧ ¬ update.filled.getD 0 > 0)
  | .tradeRecord record => (record.pairId, record.tokenSide) ≠ key
  | .orderResponse (.fetchFills _ pairKey _ result) => pairKey ≠ key ∨ result.fills = []
  | _ => True

theorem TradeMessage.FillFree.not_taken {message : TradeMessage} (h : message.FillFree key)
    (eng : TradeEngine) (fill : TradeFill) : message.takenEntryFill env eng ≠ some (key, fill) := by
  intro htaken
  cases message with
  | orderUpdate update =>
    simp only [TradeMessage.takenEntryFill, TradeMessage.entryFill?] at htaken
    split at htaken
    · split at htaken
      · rename_i hbrings
        obtain ⟨_, _, heq⟩ := Option.map_eq_some_iff.mp htaken
        rcases h with hne | ⟨hno, hzero⟩
        · exact hne (congrArg Prod.fst heq)
        · rcases hbrings.2 with hfill | hpos
          · exact absurd (hno.symm.trans hfill) Bool.false_ne_true
          · exact hzero hpos
      · cases htaken
    · cases htaken
  | tradeRecord record =>
    simp only [TradeMessage.takenEntryFill] at htaken
    split at htaken
    · obtain ⟨_, _, heq⟩ := Option.map_eq_some_iff.mp htaken
      exact h (congrArg Prod.fst heq)
    · cases htaken
  | orderResponse response =>
    cases response with
    | fetchFills id pairKey kind result =>
      simp only [TradeMessage.takenEntryFill, TradeMessage.entryFill?] at htaken
      obtain ⟨fill', hfill, heq⟩ := Option.map_eq_some_iff.mp htaken
      rcases h with hne | hnil
      · exact hne (congrArg Prod.fst heq)
      · split at hfill
        · rw [hnil] at hfill
          cases hfill
        · cases hfill
    | placeChase => cases htaken
    | cancelOrder => cases htaken
  | _ => cases htaken

theorem nameless_handle (hlive : setup.isLive = true) {eng : TradeEngine}
    (h : (engineMachine setup).Reachable eng) {message : TradeMessage}
    (hfree : message.FillFree key) (hs : (eng.stateOf key).Nameless) :
    ((TradeEngine.handle setup env eng message).stateOf key).Nameless := by
  have hinv := inv_of_reachable h
  have hsteps := @TradeEngine.handle_steps setup env eng message hinv
  -- what was sent for the pair is part of the invariant of the chain
  have hboth : OrderState.Aimed ((TradeEngine.handle setup env eng message).view.order key) ∧
      OrderState.Nameless ((TradeEngine.handle setup env eng message).view.order key) := by
    refine hsteps.keyInv (P := fun o => o.Aimed ∧ o.Nameless) ⟨hinv.wf, hinv.bars⟩ ?_
      ⟨aimed_of_reachable h key, hs⟩
    rintro v a t hv hallow ⟨haimed, hnameless⟩ hmove
    refine ⟨hmove.aimed (hv.wf key) haimed, ?_⟩
    refine hmove.nameless hlive (hv.wf key) haimed ?_ hnameless
    rintro fill rfl
    exact hfree.not_taken eng fill (MessageAllow.takenEntryFill hallow).1
  exact hboth.2

/-- The pair works its entry order in every future that brings it no fill. -/
def ExecSystem.Stuck (setup : Setup) (sys : ExecSystem) (key : PairKey) : Prop :=
  ∀ (future : List (Env × TradeMessage)) (sys' : ExecSystem),
    (∀ e ∈ future, e.2.FillFree key) → (execMachine setup).run sys future = some sys' →
      (sys'.engine.stateOf key).state = .entryWorking

/-- An entry order without an id is worked for as long as no fill comes. -/
theorem nameless_stays (hlive : setup.isLive = true) {sys : ExecSystem}
    (h : (execMachine setup).Reachable sys) (hs : (sys.engine.stateOf key).Nameless) :
    sys.Stuck setup key := by
  intro future sys' hfree hrun
  have hguard := ((execMachine setup).runMeets_iff_forall
    (Q := fun e => e.2.FillFree key) hrun).mpr hfree
  have hend := (execMachine setup).inv_of_runMeets
    (fun sys => (execMachine setup).Reachable sys ∧ (sys.engine.stateOf key).Nameless)
    ?_ ⟨h, hs⟩ hguard hrun
  · exact hend.2.working
  · rintro sys ⟨env, message⟩ sys' ⟨hreach, hnameless⟩ hmessage hstep
    refine ⟨Lib.Machine.Reachable.step _ hreach hstep, ?_⟩
    obtain ⟨rest, -, rfl⟩ := step_execMachine hstep
    exact nameless_handle hlive (engine_of_reachable hreach) hmessage hnameless

/-! ## Targets -/

/-- A cancel that answers to `reqId` is queued or in flight. -/
def ExecSystem.CancelSent (sys : ExecSystem) (reqId : Option ℕ) : Prop :=
  ∃ r ∈ sys.outstanding, ∃ orderId, r.kind = .cancelOrder orderId ∧ reqId = some r.id

/-- Where a cancel is asked for, its target is known or the cancel is on its way. -/
structure CancelsTargeted (sys : ExecSystem) : Prop where
  entry : ∀ key, (sys.engine.stateOf key).entryCancelPending = true →
    (sys.engine.stateOf key).entryOrderId.isSome = true ∨
      sys.CancelSent (sys.engine.stateOf key).entryCancelReqId
  exit : ∀ key, (sys.engine.stateOf key).exitCancelPending = true →
    (sys.engine.stateOf key).exitOrderId.isSome = true ∨
      sys.CancelSent (sys.engine.stateOf key).exitCancelReqId

/-- A placement that succeeded names its order. -/
def TradeMessage.NamesOrder : TradeMessage → Prop
  | .orderResponse (.placeChase _ _ result) =>
    result.order.isSome = true ∨ result.lastErr ≠ some "order_id_missing"
  | _ => True

/-- No move but the booking of a placement without an id makes an entry order nameless. -/
theorem Move.named {s t : Slot} {a : Act} (hlive : setup.isLive = true)
    (h : Move setup key s a t)
    (ha : ∀ reqId result, a = .placed reqId result →
      result.order.isSome = true ∨ result.lastErr ≠ some "order_id_missing")
    (hs : ¬ s.order.Nameless) : ¬ t.order.Nameless := by
  have hdry : setup.isLive ≠ false := by
    rw [hlive]
    exact Bool.noConfusion
  have hkept : ∀ {o : OrderState}, o.state = s.order.state →
      o.entryOrderId = s.order.entryOrderId → ¬ o.Nameless := by
    intro o hstate hid hnameless
    exact hs ⟨hstate.symm.trans hnameless.working, hid.symm.trans hnameless.unnamed⟩
  have hleft : ∀ {o : OrderState}, o.state ≠ .entryWorking → ¬ o.Nameless :=
    fun hstate hnameless => hstate hnameless.working
  cases h with
  | upkeep hup =>
    cases hup with
    | expire => exact hleft nofun
    | forget => exact hleft nofun
    | giveUp => exact hleft nofun
    | giveUpSending => exact hleft nofun
    | _ => exact hkept rfl rfl
  | queueEntry => exact hleft nofun
  | enterPaper entry qty price rest now hpaper => exact absurd hpaper hdry
  | placed reqId result entry price qty now hreq hentry hok =>
    rintro ⟨-, hunnamed⟩
    have hnone : result.order = none := by
      cases horder : result.order with
      | none => rfl
      | some order =>
        change result.order.map (·.orderId) = none at hunnamed
        rw [horder] at hunnamed
        cases hunnamed
    rw [hnone] at hok
    have hmissing := hok.resolve_left nofun
    rcases ha reqId result rfl with hsome | herr
    · rw [hnone] at hsome
      cases hsome
    · exact herr hmissing
  | refused => exact hleft nofun
  | entryFill => exact hleft nofun
  | openExit qty prices result =>
    refine hleft ?_
    show (OrderState.exitPlaced { s.order with state := .exitWorking } result).state ≠ _
    rw [OrderState.exitPlaced_state]
    exact nofun
  | retryExit qty prices result calls _ hstate =>
    refine hleft ?_
    show (s.order.exitPlaced result).state ≠ _
    rw [OrderState.exitPlaced_state, hstate]
    exact nofun
  | exitFill => exact hleft nofun
  | cancelEntry => exact hleft nofun
  | abandonEntry => exact hleft nofun
  | cancelExit => exact hkept rfl rfl
  | entryPaper => exact hleft nofun
  | openPaper => exact hleft nofun
  | exitPaper => exact hleft nofun

theorem named_handle (hlive : setup.isLive = true) {eng : TradeEngine}
    (h : (engineMachine setup).Reachable eng) {message : TradeMessage}
    (hnames : message.NamesOrder) (hs : ¬ (eng.stateOf key).Nameless) :
    ¬ ((TradeEngine.handle setup env eng message).stateOf key).Nameless := by
  have hinv := inv_of_reachable h
  have hsteps := @TradeEngine.handle_steps setup env eng message hinv
  refine hsteps.keyInv (P := fun o => ¬ o.Nameless) ⟨hinv.wf, hinv.bars⟩ ?_ hs
  intro v a t hv hallow hnamed hmove
  refine hmove.named hlive ?_ hnamed
  rintro reqId result rfl
  obtain rfl := MessageAllow.placed_message hallow
  exact hnames

/-- While no entry order is nameless, every cancel has a target. -/
theorem targeted_of_named {sys : ExecSystem} (h : (execMachine setup).Reachable sys)
    (hnamed : ∀ key, ¬ (sys.engine.stateOf key).Nameless) : CancelsTargeted sys := by
  have hreach := engine_of_reachable h
  have hwf := fun key => (inv_of_reachable hreach).wf key
  constructor
  · intro key hpending
    -- the flag is only up while the entry order is worked
    have hwork : (sys.engine.stateOf key).state = .entryWorking := by
      by_contra hno
      by_cases hopen : (sys.engine.stateOf key).Open
      · have hquiet := (hwf key).openEntry hopen
        exact nomatch hpending.symm.trans hquiet.1
      · have hquiet := (hwf key).quiet fun hhold => hhold.elim hno hopen
        exact nomatch hpending.symm.trans hquiet.2.2.1
    refine Or.inl (Option.isSome_iff_ne_none.mpr fun hnone => ?_)
    exact hnamed key ⟨hwork, hnone⟩
  · intro key hpending
    rcases (hwf key).exitCancelId hpending with hid | hclient
    · exact Or.inl hid
    · exact Or.inl ((aimed_of_reachable hreach key).exit hclient)

/-- All along a run every cancel has a target and no entry order is worked for ever, just
in case every placement that succeeded named its order. -/
theorem cancels_targeted_iff (hlive : setup.isLive = true) {now : ℤ}
    {messages : List (Env × TradeMessage)} {sys : ExecSystem}
    (hrun : (execMachine setup).run (ExecSystem.start now) messages = some sys) :
    (∀ taken rest, messages = taken ++ rest → ∀ mid,
      (execMachine setup).run (ExecSystem.start now) taken = some mid →
        CancelsTargeted mid ∧
          ∀ key, (mid.engine.stateOf key).state = .entryWorking →
            (mid.engine.stateOf key).entryOrderId = none → ¬ mid.Stuck setup key) ↔
      ∀ e ∈ messages, e.2.NamesOrder := by
  rw [← (execMachine setup).runMeets_iff_forall (Q := fun e => e.2.NamesOrder) hrun]
  have hstart : (execMachine setup).Reachable (ExecSystem.start now) :=
    ⟨ExecSystem.start now, [], ⟨now, rfl⟩, rfl⟩
  have hnone : ∀ {sys : ExecSystem}, (execMachine setup).Reachable sys →
      ((CancelsTargeted sys ∧ ∀ key, (sys.engine.stateOf key).state = .entryWorking →
        (sys.engine.stateOf key).entryOrderId = none → ¬ sys.Stuck setup key) ↔
      ∀ key, ¬ (sys.engine.stateOf key).Nameless) := by
    intro sys hreach
    constructor
    · rintro ⟨-, hfree⟩ key hnameless
      exact hfree key hnameless.working hnameless.unnamed (nameless_stays hlive hreach hnameless)
    · intro hnamed
      exact ⟨targeted_of_named hreach hnamed,
        fun key hwork hunnamed => absurd ⟨hwork, hunnamed⟩ (hnamed key)⟩
  refine (execMachine setup).always_iff_runMeets (fun sys => (execMachine setup).Reachable sys) _
    (fun _ _ _ hreach hstep => Lib.Machine.Reachable.step _ hreach hstep) ?_ hstart ?_ hrun
  · rintro sys ⟨env, message⟩ sys' hreach hbefore hstep
    have hafter := Lib.Machine.Reachable.step _ hreach hstep
    rw [hnone hafter]
    have hnamed := (hnone hreach).mp hbefore
    have hplacements := placements_of_reachable hlive hreach
    obtain ⟨rest, hrest, rfl⟩ := step_execMachine hstep
    constructor
    · intro hall
      cases message with
      | orderResponse response =>
        cases response with
        | placeChase reqId key result =>
          -- the response is to an outstanding request, so the pair takes it
          obtain ⟨before, request, after, hanswers, hsplit, -⟩ := unanswered_response hrest
          obtain ⟨rfl, hplaces⟩ := OrderResponse.places_of_answers hanswers
          have hmem : request ∈ sys.outstanding := by
            rw [hsplit]
            exact List.mem_append_right _ List.mem_cons_self
          have hreq := hplacements.issued request hmem key hplaces
          obtain ⟨entry, hentry, -⟩ :=
            ((inv_of_reachable (engine_of_reachable hreach)).wf key).pending _ hreq
          have hconsumed := @TradeEngine.placement_consumed setup env key sys.engine request.id entry
            result hreq hentry
          show result.order.isSome = true ∨ result.lastErr ≠ some "order_id_missing"
          by_contra hunnamed
          obtain ⟨hno, hmissing⟩ := not_or.mp hunnamed
          rw [Bool.not_eq_true, Option.isSome_eq_false_iff, Option.isNone_iff_eq_none] at hno
          obtain ⟨hwork, hid⟩ := hconsumed.unnamed hno (not_not.mp hmissing)
          exact hall key ⟨hwork, hid⟩
        | cancelOrder => trivial
        | fetchFills => trivial
      | _ => trivial
    · exact fun hnames key => named_handle hlive (engine_of_reachable hreach) hnames (hnamed key)
  · refine (hnone hstart).mpr ?_
    intro key hnameless
    cases hnameless.working

/-- The sample entry order is placed under its id. -/
theorem cancels_targeted_iff_named :
    CancelsTargeted (ExecSystem.after sampleSetup sampleEntering) ∧
      ((ExecSystem.after sampleSetup sampleEntering).engine.stateOf sampleKey).state =
        .entryWorking := by
  have hrun : (execMachine sampleSetup).run (ExecSystem.start 0) sampleEntering =
      some (ExecSystem.after sampleSetup sampleEntering) :=
    ExecSystem.run_after (by decide +kernel)
  have hnames : ∀ e ∈ sampleEntering, e.2.NamesOrder := by
    intro e he
    simp only [sampleEntering, List.mem_cons, List.not_mem_nil, or_false] at he
    rcases he with rfl | rfl | rfl
    · trivial
    · trivial
    · exact Or.inl rfl
  have hall := (cancels_targeted_iff isLive_sampleSetup hrun).mpr hnames sampleEntering []
    (List.append_nil _).symm _ hrun
  exact ⟨hall.1, by decide +kernel⟩

/-! ## A cancel without a target -/

/-- The sample market with a time to live for entries. -/
def ttlSetup : Setup := { sampleSetup with cfg := { sampleCfg with entryTtlMs := 100 } }

/-- The exchange accepts the sample entry without naming the order; a bar comes after
its time to live. -/
def unnamedRun : List (Env × TradeMessage) :=
  sampleEntering.take 2 ++
    [(sampleEnv 1100 "x", .orderResponse (.placeChase 1 sampleKey
      ⟨none, some "client", some (1 / 2), 1, 0, some "order_id_missing"⟩)),
    (sampleEnv 2000 "x", .pairBar (sampleBar 2) none)]

/-- The cancel is asked for, its target is unknown and nothing is sent; the pair stays in
that state until a fill comes. -/
theorem cancel_without_target :
    ttlSetup.isLive = true ∧
      (execMachine ttlSetup).Reachable (ExecSystem.after ttlSetup unnamedRun) ∧
      ((ExecSystem.after ttlSetup unnamedRun).engine.stateOf sampleKey).entryCancelPending =
        true ∧
      ¬ CancelsTargeted (ExecSystem.after ttlSetup unnamedRun) ∧
      (ExecSystem.after ttlSetup unnamedRun).Stuck ttlSetup sampleKey := by
  have hlive : ttlSetup.isLive = true := by decide
  have hreach : (execMachine ttlSetup).Reachable (ExecSystem.after ttlSetup unnamedRun) :=
    ExecSystem.reachable_after (by decide +kernel)
  obtain ⟨hstate, hid, hpending, hreq⟩ :
      ((ExecSystem.after ttlSetup unnamedRun).engine.stateOf sampleKey).state = .entryWorking ∧
      ((ExecSystem.after ttlSetup unnamedRun).engine.stateOf sampleKey).entryOrderId = none ∧
      ((ExecSystem.after ttlSetup unnamedRun).engine.stateOf sampleKey).entryCancelPending =
        true ∧
      ((ExecSystem.after ttlSetup unnamedRun).engine.stateOf sampleKey).entryCancelReqId =
        none := by
    decide +kernel
  refine ⟨hlive, hreach, hpending, ?_, nameless_stays hlive hreach ⟨hstate, hid⟩⟩
  intro htargeted
  rcases htargeted.entry sampleKey hpending with hsome | ⟨r, -, orderId, -, hsent⟩
  · rw [hid] at hsome
    cases hsome
  · rw [hreq] at hsent
    cases hsent

end AlphaMonitor.Trade
