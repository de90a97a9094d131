import AlphaMonitor.Trade.Moves

/-!
# Well-formed order states

Which fields are set in which state.  Every move keeps this, so it holds of every
pair in every run (`Move.wf`).
-/

namespace AlphaMonitor.Trade

/-- The exit side of an order state is empty. -/
def OrderState.NoExit (o : OrderState) : Prop :=
  o.exitOrderId = none ∧ o.exitClientId = none ∧ o.exitCancelPending = false ∧
    o.exitCancelReqId = none

/-- No cancellation of the entry order is asked for. -/
def OrderState.NoEntryCancel (o : OrderState) : Prop :=
  o.entryCancelPending = false ∧ o.entryCancelReqId = none

/-- Which fields are set in which state; `live` is whether orders are sent. -/
structure OrderState.Wf (live : Bool) (o : OrderState) (hasBar : Bool) : Prop where
  bar : o.state ≠ .idle → hasBar = true
  notReady : o.state ≠ .entryReady
  placing : o.state = .entryPlacing ↔ o.entryPlaceReqId.isSome
  dry : live = false → o.entryPlaceReqId = none
  pending : ∀ reqId, o.entryPlaceReqId = some reqId → ∃ entry, o.pendingEntry = some entry ∧
    entry.direction = o.direction ∧ o.alphaType = some entry.alphaType ∧ o.direction ≠ 0 ∧
    o.entryPrice.isSome ∧ o.entryQty.isSome
  exitPlace : o.exitPlaceReqId = none
  quiet : ¬ o.Holding → o.entryOrderId = none ∧ o.entryClientId = none ∧ o.NoEntryCancel
  noExit : ¬ o.Open → o.NoExit
  held : o.Holding → o.entryPrice.isSome ∧ o.entryQty.isSome ∧ o.entryNotional.isSome ∧
    o.entryTsMs.isSome ∧ o.alphaType.isSome ∧ o.direction ≠ 0
  openEntry : o.Open → o.NoEntryCancel
  entryCancel : o.entryCancelReqId.isSome → o.entryCancelPending = true
  exitCancel : o.exitCancelReqId.isSome → o.exitCancelPending = true
  exitCancelId : o.exitCancelPending = true → o.exitOrderId.isSome ∨ o.exitClientId.isSome

theorem wf_idle (live hasBar : Bool) : OrderState.idle.Wf live hasBar := by
  constructor <;>
    simp [OrderState.idle, OrderState.Holding, OrderState.Open, OrderState.NoExit,
      OrderState.NoEntryCancel]

theorem wf_cooldown (live : Bool) (o : OrderState) {hasBar : Bool} (hbar : hasBar = true) :
    o.cooldown.Wf live hasBar := by
  constructor <;>
    simp [hbar, OrderState.cooldown, OrderState.Holding, OrderState.Open, OrderState.NoExit,
      OrderState.NoEntryCancel]

namespace OrderState.Wf

variable {live hasBar : Bool} {o : OrderState}

/-- An entering pair without a placement in flight is working its order. -/
theorem working_of_entering (h : o.Wf live hasBar) (hent : o.Entering)
    (hreq : o.entryPlaceReqId = none) : o.state = .entryWorking := by
  rcases hent with hs | hs | hs
  · -- a placing pair has its placement in flight
    exact absurd hs h.notReady
  · have := h.placing.mp hs
    simp [hreq] at this
  · exact hs

theorem holding_of_entryId (h : o.Wf live hasBar)
    (hid : o.entryOrderId ≠ none ∨ o.entryClientId ≠ none) : o.Holding := by
  by_contra hno
  obtain ⟨h₁, h₂, _⟩ := h.quiet hno
  rcases hid with hid | hid
  · exact hid h₁
  · exact hid h₂

theorem open_of_exitId (h : o.Wf live hasBar)
    (hid : o.exitOrderId ≠ none ∨ o.exitClientId ≠ none) : o.Open := by
  by_contra hno
  obtain ⟨h₁, h₂, _⟩ := h.noExit hno
  rcases hid with hid | hid
  · exact hid h₁
  · exact hid h₂

/-- A fill is only ever taken by a pair that holds something. -/
theorem holding_of_takesEntryFill (h : o.Wf live hasBar) {fill : TradeFill}
    (hfill : o.TakesEntryFill fill) : o.Holding := by
  apply h.holding_of_entryId
  have hmatch := hfill.1
  simp only [fillMatchesOrder, Bool.or_eq_true, Bool.and_eq_true] at hmatch
  rcases hmatch with ⟨hsome, _⟩ | ⟨hsome, _⟩
  · exact Or.inl (by simpa [Option.isSome_iff_ne_none] using hsome)
  · exact Or.inr (by simpa [Option.isSome_iff_ne_none] using hsome)

/-- An exit fill is only ever taken by an open position. -/
theorem open_of_takesExitFill (h : o.Wf live hasBar) {fill : TradeFill}
    (hfill : o.TakesExitFill fill) : o.Open := by
  apply h.open_of_exitId
  have hmatch := hfill.1
  simp only [fillMatchesOrder, Bool.or_eq_true, Bool.and_eq_true] at hmatch
  rcases hmatch with ⟨hsome, _⟩ | ⟨hsome, _⟩
  · exact Or.inl (by simpa [Option.isSome_iff_ne_none] using hsome)
  · exact Or.inr (by simpa [Option.isSome_iff_ne_none] using hsome)

/-- A confirmed cancellation of the entry finds an order or a placement. -/
theorem not_idle_of_cause (h : o.Wf live hasBar) {cause : Cause} (hcause : cause.OfEntry o) :
    o.state ≠ .idle := by
  intro hidle
  have hno : ¬ o.Holding := by simp [OrderState.Holding, OrderState.Open, hidle]
  -- an idle pair carries neither order, nor client id, nor cancel, and each cause names one
  obtain ⟨hoid, _, _, hreq⟩ := h.quiet hno
  cases cause with
  | ack reqId =>
    simp only [Cause.OfEntry] at hcause
    rw [hreq] at hcause
    cases hcause
  | update orderId =>
    simp only [Cause.OfEntry] at hcause
    rw [hoid] at hcause
    cases hcause
  | paper => simp [Cause.OfEntry, OrderState.Entering, hidle] at hcause

/-- A confirmed cancellation of the entry finds a holding, in a dry run as well. -/
theorem holding_of_cause (h : o.Wf live hasBar) {cause : Cause} (hcause : cause.OfEntry o)
    (hpaper : cause = .paper → live = false) : o.Holding := by
  cases cause with
  | ack reqId =>
    by_contra hno
    obtain ⟨_, _, _, hreq⟩ := h.quiet hno
    simp only [Cause.OfEntry] at hcause
    rw [hreq] at hcause
    cases hcause
  | update orderId =>
    simp only [Cause.OfEntry] at hcause
    exact h.holding_of_entryId (Or.inl (by rw [hcause]; simp))
  | paper => exact Or.inl (h.working_of_entering hcause (h.dry (hpaper rfl)))

end OrderState.Wf

/-! ## Every move keeps it -/

theorem not_open_of_working {o : OrderState} (h : o.state = .entryWorking) : ¬ o.Open := by
  simp [OrderState.Open, h]

theorem Upkeep.wf {live : Bool} {key : PairKey} {s t : Slot} (h : Upkeep key s t)
    (hs : s.order.Wf live s.hasBar) : t.order.Wf live t.hasBar := by
  cases h with
  | sawBar bar hkey => exact { hs with bar := fun _ => rfl }
  | expire hstate => exact wf_idle live s.hasBar
  | forget hstate hdir => exact wf_idle live s.hasBar
  | giveUp hstate hbar => exact wf_cooldown live _ hbar
  | giveUpSending entry qty price hstate hbar => exact wf_cooldown live _ hbar
  | stray reqId hreq hnone =>
    -- a placement in flight keeps its entry, so this branch of the source is never taken
    obtain ⟨entry, hentry, _⟩ := hs.pending reqId hreq
    rw [hnone] at hentry
    cases hentry
  | askEntryCancel reason hstate hreq =>
    -- the order is working, so the pair holds and is not open
    have hwork := hs.working_of_entering hstate hreq
    exact { hs with
      quiet := fun hno => absurd (Or.inl hwork) hno
      openEntry := fun hopen => absurd hopen (not_open_of_working hwork)
      entryCancel := fun _ => rfl }
  | sendEntryCancel orderId hstate hreq hpend hid =>
    have hwork := hs.working_of_entering hstate hreq
    exact { hs with
      quiet := fun hno => absurd (Or.inl hwork) hno
      openEntry := fun hopen => absurd hopen (not_open_of_working hwork)
      entryCancel := fun _ => hpend }
  | entryCancelFailed =>
    -- no cancel in flight any more, while the one that was asked for stays asked for
    exact { hs with
      quiet := fun hno => ⟨(hs.quiet hno).1, (hs.quiet hno).2.1, (hs.quiet hno).2.2.1, rfl⟩
      openEntry := fun hopen => ⟨(hs.openEntry hopen).1, rfl⟩
      entryCancel := fun hsome => by cases hsome }
  | askExitCancel reason hstate hid =>
    exact { hs with
      noExit := fun hno => absurd (Or.inr hstate) hno
      exitCancel := fun _ => rfl
      exitCancelId := fun _ => hid }
  | sendExitCancel orderId hstate hpend hid =>
    exact { hs with
      noExit := fun hno => absurd hstate hno
      exitCancel := fun _ => hpend }
  | exitCancelFailed =>
    exact { hs with
      noExit := fun hno => ⟨(hs.noExit hno).1, (hs.noExit hno).2.1, (hs.noExit hno).2.2.1, rfl⟩
      exitCancel := fun hsome => by cases hsome }
  | dropExitCancel hnone =>
    exact { hs with
      noExit := fun hno => ⟨(hs.noExit hno).1, (hs.noExit hno).2.1, rfl, rfl⟩
      exitCancel := fun hsome => by cases hsome
      exitCancelId := fun hpend => by cases hpend }
  | burnId => exact hs
  | poll kind target since => exact hs

/-- A chase reports ids and nothing else. -/
theorem OrderState.Wf.exitPlaced {live hasBar : Bool} {o : OrderState} (h : o.Wf live hasBar)
    (hopen : o.Open) (result : PlaceResult) :
    (o.exitPlaced result).Wf live hasBar := by
  unfold OrderState.exitPlaced
  cases result.order with
  | none => exact h
  | some order =>
    exact { h with
      noExit := fun hno => absurd hopen hno
      exitCancelId := fun _ => Or.inl rfl }

theorem Move.wf {setup : Setup} {key : PairKey} {s t : Slot} {a : Act}
    (h : Move setup key s a t) (hs : s.order.Wf setup.isLive s.hasBar) :
    t.order.Wf setup.isLive t.hasBar := by
  cases h with
  | upkeep hup => exact hup.wf hs
  | queueEntry entry qty first rest target hlive hstate hbar hkey hdir hsized =>
    -- an idle pair has nothing open, and the placement brings its entry with it
    have hidle : ¬ s.order.Holding := by simp [OrderState.Holding, OrderState.Open, hstate]
    have hclosed : ¬ s.order.Open := fun hopen => hidle (Or.inr hopen)
    obtain ⟨hoid, hcid, hcancel⟩ := hs.quiet hidle
    exact
      { bar := fun _ => hbar
        notReady := by simp [OrderState.placing]
        placing := by simp [OrderState.placing]
        dry := fun hdry => by rw [hlive] at hdry; cases hdry
        pending := fun _ _ => ⟨entry, rfl, rfl, rfl, hdir, rfl, rfl⟩
        exitPlace := hs.exitPlace
        quiet := fun _ => ⟨hoid, hcid, hcancel⟩
        noExit := fun _ => hs.noExit hclosed
        held := by simp [OrderState.placing, OrderState.Holding, OrderState.Open]
        openEntry := fun _ => hcancel
        entryCancel := hs.entryCancel
        exitCancel := hs.exitCancel
        exitCancelId := hs.exitCancelId }
  | enterPaper entry qty price rest now hlive hstate hbar hkey hdir hsized =>
    -- in a dry run no placement is ever in flight
    have hidle : ¬ s.order.Holding := by simp [OrderState.Holding, OrderState.Open, hstate]
    have hclosed : ¬ s.order.Open := fun hopen => hidle (Or.inr hopen)
    have hnone := hs.dry hlive
    exact
      { bar := fun _ => hbar
        notReady := by simp [OrderState.workingDry]
        placing := by simp [OrderState.workingDry, hnone]
        dry := hs.dry
        pending := fun reqId hreq => by
          simp only [OrderState.workingDry, hnone] at hreq
          cases hreq
        exitPlace := hs.exitPlace
        quiet := fun hno => absurd (Or.inl rfl) hno
        noExit := fun _ => hs.noExit hclosed
        held := fun _ => ⟨rfl, rfl, rfl, rfl, rfl, hdir⟩
        openEntry := fun _ => (hs.quiet hidle).2.2
        entryCancel := hs.entryCancel
        exitCancel := hs.exitCancel
        exitCancelId := hs.exitCancelId }
  | placed reqId result entry price qty now hreq hentry hok hprice hqty =>
    -- direction and alpha type come from the entry that the placement was made for
    have hstate : s.order.state = .entryPlacing := hs.placing.mpr (by simp [hreq])
    have hidle : ¬ s.order.Holding := by simp [OrderState.Holding, OrderState.Open, hstate]
    have hclosed : ¬ s.order.Open := fun hopen => hidle (Or.inr hopen)
    obtain ⟨entry', _, _, halpha, hdir, _⟩ := hs.pending reqId hreq
    exact
      { bar := fun _ => hs.bar (by simp [hstate])
        notReady := by simp [OrderState.working]
        placing := by simp [OrderState.working]
        dry := fun _ => rfl
        pending := fun _ hreq' => by cases hreq'
        exitPlace := hs.exitPlace
        quiet := fun hno => absurd (Or.inl rfl) hno
        noExit := fun _ => hs.noExit hclosed
        held := fun _ => ⟨rfl, rfl, rfl, rfl, by simp [OrderState.working, halpha], hdir⟩
        openEntry := fun _ => (hs.quiet hidle).2.2
        entryCancel := hs.entryCancel
        exitCancel := hs.exitCancel
        exitCancelId := hs.exitCancelId }
  | refused reqId hreq =>
    have hstate : s.order.state = .entryPlacing := hs.placing.mpr (by simp [hreq])
    have hbar := hs.bar (by simp [hstate])
    exact wf_cooldown _ _ hbar
  | entryFill fill now hbar htakes =>
    -- a fill is taken by a holding pair, which has price and quantity already
    have hhold := hs.holding_of_takesEntryFill htakes
    obtain ⟨hprice, hqty, hnotional, hts, halpha, hdir⟩ := hs.held hhold
    exact
      { bar := fun _ => hbar
        notReady := by simp [OrderState.entryFilled]
        -- a placing pair does not hold, so no placement is in flight
        placing := by
          have hplace : s.order.entryPlaceReqId = none := by
            by_contra hsome
            have hstate := hs.placing.mpr (Option.isSome_iff_ne_none.mpr hsome)
            simp [OrderState.Holding, OrderState.Open, hstate] at hhold
          simp [OrderState.entryFilled, hplace]
        dry := hs.dry
        pending := fun reqId hreq => by
          obtain ⟨entry, hentry, hd, ha, hne, hp, hq⟩ := hs.pending reqId hreq
          refine ⟨entry, hentry, hd, ha, hne, ?_, ?_⟩
          · simp only [OrderState.entryFilled, Option.isSome_or, hp, Bool.or_true]
          · simp only [OrderState.entryFilled, Option.isSome_or, hq, Bool.or_true]
        exitPlace := hs.exitPlace
        quiet := fun hno => absurd (Or.inr (Or.inl rfl)) hno
        noExit := fun hno => absurd (Or.inl rfl) hno
        held := fun _ => by
          refine ⟨?_, ?_, ?_, ?_, halpha, hdir⟩
          · simp only [OrderState.entryFilled, Option.isSome_or, hprice, Bool.or_true]
          · simp only [OrderState.entryFilled, Option.isSome_or, hqty, Bool.or_true]
          · simp only [OrderState.entryFilled]
            cases fill.size with
            | none => exact hnotional
            | some size => simp [hprice]
          · simp [OrderState.entryFilled]
        openEntry := fun _ => ⟨rfl, rfl⟩
        entryCancel := fun hsome => by cases hsome
        exitCancel := hs.exitCancel
        exitCancelId := hs.exitCancelId }
  | openExit qty prices result calls hlive hstate hqty hcancel hpos hcalls =>
    -- the same fields, but the pair is now working its exit
    have hopen : s.order.Open := Or.inl hstate
    have hheld := hs.held (Or.inr hopen)
    have hworked : OrderState.Wf setup.isLive { s.order with state := .exitWorking } s.hasBar :=
      { hs with
        bar := fun _ => hs.bar (by simp [hstate])
        notReady := by simp
        placing := by
          have hplace := hs.placing
          simp only [hstate] at hplace
          simpa using hplace
        quiet := fun hno => absurd (Or.inr (Or.inr rfl)) hno
        noExit := fun hno => absurd (Or.inr rfl) hno
        held := fun _ => hheld
        openEntry := fun _ => hs.openEntry hopen }
    exact hworked.exitPlaced (Or.inr rfl) result
  | retryExit qty prices result calls hlive hstate hqty hcancel hid hclient hpos hcalls =>
    exact hs.exitPlaced (Or.inr hstate) result
  | exitFill fill hbar htakes hsome =>
    exact wf_cooldown _ _ hbar
  | cancelEntry cause hcause hpaper hbar =>
    exact wf_cooldown _ _ hbar
  | abandonEntry cause hcause hbar =>
    -- an idle pair has nothing that the cause could name, so the pair has seen a bar
    have hbar' := hs.bar (hs.not_idle_of_cause hcause)
    rw [hbar] at hbar'
    cases hbar'
  | cancelExit cause hcause =>
    exact { hs with
      noExit := fun _ => ⟨rfl, rfl, rfl, rfl⟩
      exitCancel := fun hsome => by cases hsome
      exitCancelId := fun hpend => by cases hpend }
  | entryPaper price now hlive hstate hcancel =>
    -- a dry run has no placement in flight, and the pair is working its order
    have hwork := hs.working_of_entering hstate (hs.dry hlive)
    have hplace := hs.dry hlive
    obtain ⟨_, hqty, hnotional, _, halpha, hdir⟩ := hs.held (Or.inl hwork)
    exact { hs with
      bar := fun _ => hs.bar (by simp [hwork])
      notReady := by simp
      placing := by simp [hplace]
      pending := fun _ hreq => by simp [hplace] at hreq
      quiet := fun hno => absurd (Or.inr (Or.inl rfl)) hno
      noExit := fun hno => absurd (Or.inl rfl) hno
      held := fun _ => ⟨rfl, hqty, hnotional, rfl, halpha, hdir⟩
      openEntry := fun _ => ⟨hcancel, by
        by_contra hsome
        have := hs.entryCancel (Option.isSome_iff_ne_none.mpr hsome)
        rw [hcancel] at this
        cases this⟩ }
  | openPaper hlive hstate hqty =>
    have hopen : s.order.Open := Or.inl hstate
    have hheld := hs.held (Or.inr hopen)
    exact { hs with
      bar := fun _ => hs.bar (by simp [hstate])
      notReady := by simp
      placing := by simp [hs.dry hlive]
      quiet := fun hno => absurd (Or.inr (Or.inr rfl)) hno
      noExit := fun hno => absurd (Or.inr rfl) hno
      held := fun _ => hheld
      openEntry := fun _ => hs.openEntry hopen }
  | exitPaper hlive hstate =>
    have hbar := hs.bar (by simp [hstate])
    exact wf_cooldown _ _ hbar

/-- A chain of moves keeps the pair well formed. -/
theorem Steps.wf {setup : Setup} {key : PairKey} {allow : Slot → Act → Prop} {s t : Slot}
    (h : Steps setup key allow s t) (hs : s.order.Wf setup.isLive s.hasBar) :
    t.order.Wf setup.isLive t.hasBar :=
  Lib.Chain.inv (fun s => s.order.Wf setup.isLive s.hasBar)
    (fun _ _ _ hs _ hmove => hmove.wf hs) h hs

end AlphaMonitor.Trade
