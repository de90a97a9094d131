import AlphaMonitor.Trade.Candidates
import AlphaMonitor.Trade.Ranking

/-!
# The engine with its strategies

`TradeEngine.handle` takes what the strategies find in a bar as part of the message.
Here they are put in: the engine keeps a history for each pair, and a bar of an idle pair
brings the candidate that the gates let through.  So whatever is entered was found at an
earlier bar of the same pair, and was vetted there.

## Main definitions

- `Strategist`: the engine with the histories of its pairs
- `Strategist.found`: what the strategies find in a bar
- `Strategist.after`: the state after a run

## Main results

- `history_after`: the histories are windows of the pair's own bars
- `held_are_found`: where an order or a position comes from
-/

namespace AlphaMonitor.Trade

/-- The candidate as the signal of a bar. -/
def Candidate.signal (c : Candidate) : EntrySignal where
  direction := c.direction
  alphaType := c.alphaType
  shock := c.shock
  opiMid := c.opiMid
  edgeRaw := c.edgeRaw
  confScore := c.confScore
  costMult := c.costMult
  horizonS := c.horizonS
  staleScale := c.staleScale
  entryTtlOverrideMs := c.entryTtlOverrideMs
  cModifier := c.cModifier

structure Strategist where
  engine : TradeEngine
  history : PairKey → SignalHistory

namespace Strategist

/-- An engine that has seen nothing. -/
def start (now : ℤ) : Strategist := ⟨TradeEngine.start now, fun _ => SignalHistory.empty⟩

variable (setup : Setup) (sig : SignalConfig) (math : SignalMath)

/-- What the idle branch of `handle_bar` finds. -/
def found (s : Strategist) (env : Env) (bar : Bars1sPair) : Option Candidate :=
  let eng := TradeEngine.flushPendingEntries setup env s.engine bar.barSecond
  let key : PairKey := (bar.pairId, bar.tokenSide)
  let st := TradeEngine.updateBasePm setup.cfg (eng.stateOf key) bar
  (TradeEngine.barPrices setup.cfg st bar).bind fun prices =>
    let pmMove := (prices.1 - prices.2) / prices.2
    let flow : PmFlow :=
      ⟨pmMove, (st.lastPmMove.map (pmMove - ·)).getD 0, bar.polyOfi250ms.getD 0⟩
    let st := TradeEngine.recordBar st bar flow prices.2
    if st.state = .idle then
      idleCandidate setup.cfg sig math ((s.history key).seeBar sig bar) (eng.shockSignals key)
        st.pmPeak bar flow prices.1 prices.2
    else none

/-- The message as the engine takes it: a bar brings what is found in it. -/
def read (s : Strategist) (env : Env) : TradeMessage → TradeMessage
  | .pairBar bar _ => .pairBar bar ((s.found setup sig math env bar).map Candidate.signal)
  | message => message

/-- The histories after a message. -/
def seen (s : Strategist) : TradeMessage → PairKey → SignalHistory
  | .pairBar bar _ =>
    Function.update s.history (bar.pairId, bar.tokenSide)
      ((s.history (bar.pairId, bar.tokenSide)).seeBar sig bar)
  | _ => s.history

/-- One round of the engine's loop. -/
def handle (s : Strategist) (e : Env × TradeMessage) : Strategist where
  engine := TradeEngine.handle setup e.1 s.engine (s.read setup sig math e.1 e.2)
  history := s.seen sig e.2

/-- The state after a run. -/
def after (now : ℤ) (messages : List (Env × TradeMessage)) : Strategist :=
  messages.foldl (handle setup sig math) (start now)

/-- The bar of a message, if it is one of the pair. -/
def barOf (key : PairKey) : TradeMessage → Option Bars1sPair
  | .pairBar bar _ => if (bar.pairId, bar.tokenSide) = key then some bar else none
  | _ => none

/-- The bars of a pair. -/
def barsOf (key : PairKey) (messages : List (Env × TradeMessage)) : List Bars1sPair :=
  messages.filterMap fun e => barOf key e.2

variable {setup : Setup} {sig : SignalConfig} {math : SignalMath} {now : ℤ}
variable {messages : List (Env × TradeMessage)}

theorem after_append_singleton (e : Env × TradeMessage) :
    after setup sig math now (messages ++ [e]) =
      (after setup sig math now messages).handle setup sig math e := by
  rw [after, after, List.foldl_append]
  rfl

/-- What is known of every engine is known of this one. -/
theorem reachable_after (messages : List (Env × TradeMessage)) :
    (engineMachine setup).Reachable (after setup sig math now messages).engine := by
  induction messages using List.reverseRecOn with
  | nil => exact ⟨TradeEngine.start now, [], ⟨now, rfl⟩, rfl⟩
  | append_singleton messages e ih =>
    rw [after_append_singleton]
    exact reachable_handle ih _

/-! ## Histories -/

/-- Only the pair's own bars go into its history. -/
theorem history_eq_ofBars (messages : List (Env × TradeMessage)) (key : PairKey) :
    (after setup sig math now messages).history key =
      SignalHistory.ofBars sig (barsOf key messages) := by
  induction messages using List.reverseRecOn with
  | nil => rfl
  | append_singleton messages e ih =>
    obtain ⟨env, message⟩ := e
    have hbars : barsOf key (messages ++ [(env, message)]) =
        barsOf key messages ++ (barOf key message).toList :=
      SignalHistory.filterMap_append_singleton _ messages (env, message)
    rw [after_append_singleton, hbars, SignalHistory.ofBars, List.foldl_append]
    change (after setup sig math now messages).seen sig message key = _
    cases message with
    | pairBar bar signal =>
      by_cases hkey : (bar.pairId, bar.tokenSide) = key
      · -- the pair's own bar
        subst hkey
        have hbar : barOf (bar.pairId, bar.tokenSide) (.pairBar bar signal) = some bar := if_pos rfl
        rw [hbar, seen, Function.update_self, ih]
        rfl
      · have hbar : barOf key (.pairBar bar signal) = none := if_neg hkey
        rw [hbar, seen, Function.update_of_ne (Ne.symm hkey), ih]
        rfl
    | shock => exact ih
    | cancelCheckTick => exact ih
    | orderUpdate => exact ih
    | tradeRecord => exact ih
    | orderResponse => exact ih

/-- The histories that are kept bar by bar are windows of the pair's own bars. -/
theorem history_after (messages : List (Env × TradeMessage)) (key : PairKey) :
    (after setup sig math now messages).history key =
      SignalHistory.windowsOf sig (barsOf key messages) := by
  rw [history_eq_ofBars]
  exact SignalHistory.ofBars_eq sig (barsOf key messages)

/-! ## What is found -/

/-- The gates on the data of a pair, in terms of its bars. -/
structure QuietData (sig : SignalConfig) (bars : List Bars1sPair) : Prop where
  /-- The share of gaps among the last minute's bars is bounded. -/
  gaps : sig.maxBarGapRatio1m > 0 →
    ((((bars.map SignalHistory.gapSample).rtake gapWindowLen).sum : ℤ) : ℚ) ≤
      sig.maxBarGapRatio1m * (((bars.map SignalHistory.gapSample).rtake gapWindowLen).length : ℚ)
  /-- One in ten of the last samples may be staler than the bound. -/
  stale : sig.maxOpiStalenessP90Ms > 0 →
    5 ≤ ((SignalHistory.staleSamples bars).rtake opiStaleWindowLen).length →
    10 * ((SignalHistory.staleSamples bars).rtake opiStaleWindowLen).countP
        (fun stale => decide (sig.maxOpiStalenessP90Ms < stale)) ≤
      ((SignalHistory.staleSamples bars).rtake opiStaleWindowLen).length + 8

theorem quietData_of_gates {bars : List Bars1sPair}
    (hgap : CandidateInput.exceeds sig.maxBarGapRatio1m
      (SignalHistory.windowsOf sig bars).gapRatio1m = false)
    (hstale : CandidateInput.exceeds sig.maxOpiStalenessP90Ms
      (SignalHistory.windowsOf sig bars).opiStaleP90Ms = false) : QuietData sig bars := by
  constructor
  · intro hon
    have hle := CandidateInput.le_of_not_exceeds hgap hon
    simp only [SignalHistory.windowsOf] at hle
    generalize (bars.map SignalHistory.gapSample).rtake gapWindowLen = flags at hle ⊢
    by_cases hnil : flags = []
    · simp [hnil]
    · rw [if_neg hnil] at hle
      have hpos : (0 : ℚ) < flags.length := by
        exact_mod_cast List.length_pos_iff.mpr hnil
      exact (div_le_iff₀ hpos).mp (hle _ rfl)
  · intro hon hmany
    have hle := CandidateInput.le_of_not_exceeds hstale hon
    simp only [SignalHistory.windowsOf] at hle
    generalize (SignalHistory.staleSamples bars).rtake opiStaleWindowLen = stales at hle hmany ⊢
    rw [if_pos hmany] at hle
    obtain ⟨p90, hp90⟩ := Option.isSome_iff_exists.mp
      ((Lib.orderStat_isSome_iff stales ((stales.length - 1) * 9 / 10)).mpr (by omega))
    have hmost := Lib.countP_lt_of_orderStat hp90
    -- what is over the bound is over the quantile
    have hover : stales.countP (fun stale => decide (sig.maxOpiStalenessP90Ms < stale)) ≤
        stales.countP fun stale => decide (p90 < stale) := by
      apply List.countP_mono_left
      intro stale _ hlt
      exact decide_eq_true (lt_of_le_of_lt (hle p90 hp90) (of_decide_eq_true hlt))
    omega

/-- What is found at a bar. -/
theorem of_found {env : Env} {bar : Bars1sPair} {c : Candidate}
    (h : (after setup sig math now messages).found setup sig math env bar = some c) :
    c.bar = bar ∧ c.toPendingEntry.Vetted setup.cfg sig ∧
      QuietData sig (barsOf (bar.pairId, bar.tokenSide) messages ++ [bar]) := by
  unfold found at h
  simp only [history_eq_ofBars, SignalHistory.ofBars_eq] at h
  obtain ⟨⟨pmMid, basePm⟩, hprices, hidle⟩ := Option.bind_eq_some_iff.mp h
  simp only at hidle
  generalize TradeEngine.updateBasePm setup.cfg _ bar = st at hprices hidle
  have hgood : pmMidFromBar bar = some pmMid ∧ 0 < basePm := by
    unfold TradeEngine.barPrices at hprices
    split at hprices
    · rename_i hmid _
      obtain ⟨⟨-, -, hpos⟩, heq⟩ := Option.ite_none_right_eq_some.mp hprices
      cases heq
      exact ⟨hmid, hpos⟩
    · cases hprices
  obtain ⟨-, hcand⟩ := Option.ite_none_right_eq_some.mp hidle
  have hpassed : ∃ inp : CandidateInput, inp.Passes setup.cfg sig ∧ c.bar = inp.bar ∧
      inp.bar = bar ∧
      inp.gapRatio1m = ((SignalHistory.windowsOf sig
        (barsOf (bar.pairId, bar.tokenSide) messages)).seeBar sig bar).gapRatio1m ∧
      inp.opiStaleP90Ms = ((SignalHistory.windowsOf sig
        (barsOf (bar.pairId, bar.tokenSide) messages)).seeBar sig bar).opiStaleP90Ms := by
    obtain ⟨opiMid, -, ⟨shock, -, -, -, hbuild⟩ | ⟨-, hbuild⟩⟩ := of_idleCandidate hcand
    · obtain ⟨hpass, -, hbar, -⟩ := passes_of_buildCandidate hbuild
      exact ⟨_, hpass, hbar, rfl, rfl, rfl⟩
    · obtain ⟨hpass, -, hbar, -⟩ := passes_of_buildCandidate hbuild
      exact ⟨_, hpass, hbar, rfl, rfl, rfl⟩
  obtain ⟨inp, hpass, hbar, hinp, hgap, hstale⟩ := hpassed
  have hwindows : (SignalHistory.windowsOf sig
      (barsOf (bar.pairId, bar.tokenSide) messages)).seeBar sig bar =
        SignalHistory.windowsOf sig (barsOf (bar.pairId, bar.tokenSide) messages ++ [bar]) := by
    rw [← SignalHistory.ofBars_eq, ← SignalHistory.ofBars_eq, SignalHistory.ofBars,
      SignalHistory.ofBars, List.foldl_append]
    rfl
  refine ⟨hbar.trans hinp, vetted_of_idleCandidate hgood.1 hgood.2 hcand, ?_⟩
  obtain ⟨hgapGate, hstaleGate, -⟩ := hpass.quality_le
  rw [hgap, hwindows] at hgapGate
  rw [hstale, hwindows] at hstaleGate
  exact quietData_of_gates hgapGate hstaleGate

/-! ## What is held -/

end Strategist

/-- An order or a position comes from a good entry. -/
def OrderState.BackedBy (good : PendingEntry → Prop) (o : OrderState) : Prop :=
  o.Entering ∨ o.Open →
    ∃ entry, good entry ∧ o.direction = entry.direction ∧ o.alphaType = some entry.alphaType

section Backed

variable {setup : Setup} {key : PairKey} {good : PendingEntry → Prop} {o : OrderState}

theorem OrderState.BackedBy.of_state (hstate : o.state = .idle ∨ o.state = .cooldown) :
    o.BackedBy good := by
  intro hheld
  rcases hstate with hs | hs
  · simp [OrderState.Entering, OrderState.Open, hs] at hheld
  · simp [OrderState.Entering, OrderState.Open, hs] at hheld

/-- The direction and the strategy of what is held stay, so it stays backed. -/
theorem OrderState.BackedBy.of_same {o' : OrderState} (h : o.BackedBy good)
    (hheld : o.Entering ∨ o.Open) (hdir : o'.direction = o.direction)
    (halpha : o'.alphaType = o.alphaType) : o'.BackedBy good := by
  intro _
  rw [hdir, halpha]
  exact h hheld

theorem Upkeep.backed {s t : Slot} (h : Upkeep key s t) (hs : s.order.BackedBy good) :
    t.order.BackedBy good := by
  cases h with
  | expire => exact .of_state (Or.inl rfl)
  | forget => exact .of_state (Or.inl rfl)
  | giveUp => exact .of_state (Or.inr rfl)
  | giveUpSending => exact .of_state (Or.inr rfl)
  | _ => exact hs

/-- Only an entry can put something new into the pair. -/
theorem Move.backed {s t : Slot} {a : Act} (h : Move setup key s a t)
    (hwf : s.order.Wf setup.isLive s.hasBar) (hs : s.order.BackedBy good)
    (hgood : ∀ entry ∈ a.entered, good entry) : t.order.BackedBy good := by
  cases h with
  | upkeep hup => exact hup.backed hs
  | queueEntry entry => exact fun _ => ⟨entry, hgood entry rfl, rfl, rfl⟩
  | enterPaper entry => exact fun _ => ⟨entry, hgood entry rfl, rfl, rfl⟩
  | placed reqId result entry price qty now hreq =>
    -- the pair was placing the order
    have hplacing : s.order.state = .entryPlacing := hwf.placing.mpr (by simp [hreq])
    exact hs.of_same (Or.inl (Or.inr (Or.inl hplacing))) rfl rfl
  | refused => exact .of_state (Or.inr rfl)
  | entryFill fill now hbar htakes =>
    have hheld := hwf.holding_of_takesEntryFill htakes
    refine hs.of_same ?_ rfl rfl
    rcases hheld with hwork | hopen
    · exact Or.inl (Or.inr (Or.inr hwork))
    · exact Or.inr hopen
  | openExit qty prices result calls hlive hstate =>
    have hsame := OrderState.exitPlaced_sameEntry { s.order with state := .exitWorking } result
    exact hs.of_same (Or.inr (Or.inl hstate)) hsame.direction hsame.alphaType
  | retryExit qty prices result calls hlive hstate =>
    have hsame := OrderState.exitPlaced_sameEntry s.order result
    exact hs.of_same (Or.inr (Or.inr hstate)) hsame.direction hsame.alphaType
  | exitFill => exact .of_state (Or.inr rfl)
  | cancelEntry => exact .of_state (Or.inr rfl)
  | abandonEntry => exact .of_state (Or.inr rfl)
  | cancelExit => exact hs
  | entryPaper price now hlive hstate => exact hs.of_same (Or.inl hstate) rfl rfl
  | openPaper hlive hstate => exact hs.of_same (Or.inr (Or.inl hstate)) rfl rfl
  | exitPaper => exact .of_state (Or.inr rfl)

theorem Counters.add_strategyExposure_of_ne (c : Counters) (x : ExposureKey) (notional : ℚ)
    {alphaType other : AlphaType} (hne : other ≠ alphaType) :
    (c.add x notional alphaType).strategyExposure other = c.strategyExposure other := by
  unfold Counters.add
  split
  · rfl
  · exact Function.update_of_ne hne _ _

theorem Counters.releaseOf_strategyExposure_of_ne (c : Counters) (o : OrderState)
    {other : AlphaType} (hne : other ≠ o.alphaType.getD .gapB) :
    (c.releaseOf key o).strategyExposure other = c.strategyExposure other := by
  unfold Counters.releaseOf Counters.release
  split
  · split
    · rfl
    · exact Function.update_of_ne hne _ _
  · rfl

/-- Where no good entry is one of a strategy, a move charges that strategy with nothing. -/
theorem Move.exposure {s t : Slot} {a : Act} {other : AlphaType} (h : Move setup key s a t)
    (hwf : s.order.Wf setup.isLive s.hasBar) (hs : s.order.BackedBy good)
    (hgood : ∀ entry ∈ a.entered, good entry) (hne : ∀ entry, good entry → other ≠ entry.alphaType) :
    t.desk.counters.strategyExposure other = s.desk.counters.strategyExposure other := by
  -- what is held is of a strategy that is entered
  have hheld : s.order.Entering ∨ s.order.Open → other ≠ s.order.alphaType.getD .gapB := by
    intro hheld
    obtain ⟨entry, hentry, -, halpha⟩ := hs hheld
    rw [halpha]
    exact hne entry hentry
  cases h with
  | upkeep hup => cases hup <;> rfl
  | enterPaper entry =>
    exact Counters.add_strategyExposure_of_ne _ _ _ (hne entry (hgood entry rfl))
  | placed reqId result entry price qty now hreq hentry =>
    have hplacing : s.order.state = .entryPlacing := hwf.placing.mpr (by simp [hreq])
    obtain ⟨entry', -, -, halpha, -⟩ := hwf.pending reqId hreq
    have hcharged := hheld (Or.inl (Or.inr (Or.inl hplacing)))
    rw [halpha] at hcharged
    apply Counters.add_strategyExposure_of_ne
    rw [halpha]
    exact hcharged
  | exitFill fill hbar htakes =>
    exact Counters.releaseOf_strategyExposure_of_ne _ _
      (hheld (Or.inr (hwf.open_of_takesExitFill htakes)))
  | cancelEntry cause hcause hpaper =>
    apply Counters.releaseOf_strategyExposure_of_ne
    apply hheld
    rcases hwf.holding_of_cause hcause hpaper with hwork | hopen
    · exact Or.inl (Or.inr (Or.inr hwork))
    · exact Or.inr hopen
  | exitPaper hlive hstate =>
    exact Counters.releaseOf_strategyExposure_of_ne _ _ (hheld (Or.inr (Or.inr hstate)))
  | _ => rfl

/-- Every pair is backed by good entries of its own, and strategy C is charged with nothing. -/
structure View.BackedBy (good : PairKey → PendingEntry → Prop) (v : View) : Prop where
  held : ∀ key, (v.order key).BackedBy (good key)
  lagC : v.desk.counters.strategyExposure .lagC = 0

/-- A chain of the engine keeps every pair backed. -/
theorem EngineSteps.backed {good : PairKey → PendingEntry → Prop}
    {allow : View → PairKey × Act → Prop} {v w : View} (h : EngineSteps setup allow v w)
    (hv : v.Inv setup) (hne : ∀ key entry, good key entry → AlphaType.lagC ≠ entry.alphaType)
    (hgood : ∀ v a, allow v a → ∀ entry ∈ a.2.entered, good a.1 entry) (hs : v.BackedBy good) :
    w.BackedBy good := by
  have hstep : ∀ v a w, v.Inv setup ∧ v.BackedBy good → allow v a → View.Move setup v a w →
      w.Inv setup ∧ w.BackedBy good := by
    intro v a w hboth hallow hmove
    refine ⟨hmove.inv hboth.1, ?_⟩
    obtain ⟨key, act⟩ := a
    obtain ⟨t, ht, rfl⟩ := hmove
    have hown := hgood v (key, act) hallow
    constructor
    · intro key'
      by_cases hkey : key' = key
      · subst hkey
        rw [View.put_order_self]
        exact ht.backed (hboth.1.wf key') (hboth.2.held key') hown
      · rw [View.put_order_of_ne v t hkey]
        exact hboth.2.held key'
    · exact (ht.exposure (hboth.1.wf key) (hboth.2.held key) hown (hne key)).trans hboth.2.lagC
  exact (Lib.Chain.inv (fun v => v.Inv setup ∧ v.BackedBy good) hstep h ⟨hv, hs⟩).2

end Backed

namespace Strategist

variable {setup : Setup} {sig : SignalConfig} {math : SignalMath} {now : ℤ}
variable {messages : List (Env × TradeMessage)}

/-- The entry was found at a bar of its pair and vetted there. -/
def FoundIn (setup : Setup) (sig : SignalConfig) (messages : List (Env × TradeMessage))
    (entry : PendingEntry) : Prop :=
  ∃ before env bar signal later, messages = before ++ (env, .pairBar bar signal) :: later ∧
    entry.bar = bar ∧ entry.Vetted setup.cfg sig ∧
      QuietData sig (barsOf entry.key (before ++ [(env, .pairBar bar signal)]))

theorem FoundIn.append {entry : PendingEntry} (h : FoundIn setup sig messages entry)
    (e : Env × TradeMessage) : FoundIn setup sig (messages ++ [e]) entry := by
  obtain ⟨before, env, bar, signal, later, rfl, hrest⟩ := h
  exact ⟨before, env, bar, signal, later ++ [e], by simp, hrest⟩

theorem pendingEntryOf_signal {inp : CandidateInput} {c : Candidate}
    (h : buildCandidate setup.cfg sig math inp = .ok c) :
    TradeEngine.pendingEntryOf inp.bar inp.flow inp.basePm c.signal = c.toPendingEntry := by
  unfold buildCandidate at h
  split at h
  · cases h
  · cases h
    rfl

/-- What an idle pair queues is what is found in the bar. -/
theorem candidate_read (s : Strategist) (env : Env) (bar : Bars1sPair) :
    (TradeEngine.flushPendingEntries setup env s.engine bar.barSecond).candidate setup bar
        ((s.found setup sig math env bar).map Candidate.signal) =
      (s.found setup sig math env bar).map Candidate.toPendingEntry := by
  cases hfound : s.found setup sig math env bar with
  | none =>
    unfold TradeEngine.candidate
    simp only [Option.map_none]
    split
    · rename_i heq
      cases heq
    · rfl
  | some c =>
    unfold found at hfound
    obtain ⟨⟨pmMid, basePm⟩, hprices, hidle⟩ := Option.bind_eq_some_iff.mp hfound
    obtain ⟨hstate, hcand⟩ := Option.ite_none_right_eq_some.mp hidle
    rw [TradeEngine.recordBar_state] at hstate
    unfold TradeEngine.candidate
    simp only [hprices, Option.map_some, if_pos hstate, Option.some.injEq]
    obtain ⟨opiMid, -, ⟨shock, -, -, -, hbuild⟩ | ⟨-, hbuild⟩⟩ := of_idleCandidate hcand
    · exact pendingEntryOf_signal hbuild
    · exact pendingEntryOf_signal hbuild

/-- Everything pending and everything held was found. -/
structure Traced (setup : Setup) (sig : SignalConfig) (messages : List (Env × TradeMessage))
    (s : Strategist) : Prop where
  pending : ∀ entry ∈ s.engine.pendingEntries, FoundIn setup sig messages entry
  held : s.engine.view.BackedBy fun key entry =>
    FoundIn setup sig messages entry ∧ entry.key = key

/-- Strategies A and B alone find entries. -/
theorem FoundIn.lagC_ne {entry : PendingEntry} (h : FoundIn setup sig messages entry) :
    AlphaType.lagC ≠ entry.alphaType := by
  obtain ⟨before, env, bar, signal, later, -, -, hvetted, -⟩ := h
  intro hC
  rcases hvetted.strategy with ⟨shock, hshock⟩ | hgap
  · cases hC.trans hshock.alphaType
  · cases hC.trans hgap.alphaType

/-- A longer run has found what the run had found. -/
theorem BackedBy.append {v : View} (e : Env × TradeMessage)
    (h : v.BackedBy fun key entry => FoundIn setup sig messages entry ∧ entry.key = key) :
    v.BackedBy fun key entry => FoundIn setup sig (messages ++ [e]) entry ∧ entry.key = key := by
  refine ⟨?_, h.lagC⟩
  intro key hheld
  obtain ⟨entry, ⟨hfound, hkey⟩, hsame⟩ := h.held key hheld
  exact ⟨entry, ⟨hfound.append e, hkey⟩, hsame⟩

theorem FoundIn.of_found {env : Env} {bar : Bars1sPair} {signal : Option EntrySignal}
    {c : Candidate}
    (h : (after setup sig math now messages).found setup sig math env bar = some c) :
    FoundIn setup sig (messages ++ [(env, .pairBar bar signal)]) c.toPendingEntry := by
  obtain ⟨hbar, hvetted, hquiet⟩ := Strategist.of_found h
  have hkey : c.key = (bar.pairId, bar.tokenSide) := by rw [hvetted.key, hbar]
  refine ⟨messages, env, bar, signal, [], rfl, hbar, hvetted, ?_⟩
  have hbars : barsOf c.key (messages ++ [(env, .pairBar bar signal)]) =
      barsOf (bar.pairId, bar.tokenSide) messages ++ [bar] := by
    rw [hkey, barsOf, SignalHistory.filterMap_append_singleton, barOf, if_pos rfl]
    rfl
  rw [hbars]
  exact hquiet

theorem mem_of_pending_handleBar {env : Env} {s : Strategist} {bar : Bars1sPair}
    {entry : PendingEntry}
    (h : entry ∈ (TradeEngine.handleBar setup env s.engine bar
      ((s.found setup sig math env bar).map Candidate.signal)).pendingEntries) :
    entry ∈ s.engine.pendingEntries ∨
      ∃ c, s.found setup sig math env bar = some c ∧ entry = c.toPendingEntry := by
  have hpending := congrArg PendingSet.entries (@TradeEngine.pending_handleBar setup env s.engine
    bar ((s.found setup sig math env bar).map Candidate.signal))
  rw [candidate_read] at hpending
  -- a flush only takes entries away
  have hflush : ∀ e ∈ (s.engine.pending.flush bar.barSecond).entries,
      e ∈ s.engine.pendingEntries := by
    intro e he
    have hsplit := PendingSet.ranked_append_flush s.engine.pending bar.barSecond
    change e ∈ s.engine.pending.entries
    rw [← hsplit]
    exact List.mem_append_right _ he
  change entry ∈ (TradeEngine.handleBar setup env s.engine bar
    ((s.found setup sig math env bar).map Candidate.signal)).pending.entries at h
  rw [hpending] at h
  cases hfound : s.found setup sig math env bar with
  | none =>
    rw [hfound] at h
    exact Or.inl (hflush entry h)
  | some c =>
    rw [hfound] at h
    rcases List.mem_append.mp h with hold | hnew
    · left
      apply hflush entry
      by_cases hother : (s.engine.pending.flush bar.barSecond).OtherSecond c.toPendingEntry
      · rw [PendingSet.target_of_other hother] at hold
        cases hold
      · rw [PendingSet.target_of_same hother] at hold
        exact hold
    · right
      refine ⟨c, rfl, ?_⟩
      unfold PendingSet.admitted at hnew
      split at hnew
      · cases hnew
      · exact List.mem_singleton.mp hnew

/-- What is due was pending. -/
theorem mem_of_dueEntries {eng : TradeEngine} {second : ℤ} {entry : PendingEntry}
    (h : entry ∈ TradeEngine.dueEntries setup eng second) : entry ∈ eng.pendingEntries := by
  unfold TradeEngine.dueEntries at h
  split at h
  · cases h
  · split at h
    · cases h
    · exact TradeEngine.mem_rankedEntries (TradeEngine.mem_idleEntries.mp h).1

/-- A bar enters what was pending, and what it queues was found in it. -/
theorem Traced.pairBar {env : Env} {bar : Bars1sPair} {signal : Option EntrySignal}
    (h : Traced setup sig messages (after setup sig math now messages)) :
    Traced setup sig (messages ++ [(env, .pairBar bar signal)])
      ((after setup sig math now messages).handle setup sig math (env, .pairBar bar signal)) := by
  have hinv := inv_of_reachable (@reachable_after setup sig math now messages)
  constructor
  · intro entry hentry
    rcases mem_of_pending_handleBar hentry with hold | ⟨c, hfound, rfl⟩
    · exact (h.pending entry hold).append _
    · exact FoundIn.of_found hfound
  · -- the flush enters what was pending, the check enters nothing
    have hflush := (@TradeEngine.flushPendingEntries_steps setup env
      (after setup sig math now messages).engine bar.barSecond hinv).1
    have hcheck := (@TradeEngine.handleBar_steps setup env
      (after setup sig math now messages).engine bar
      (((after setup sig math now messages).found setup sig math env bar).map Candidate.signal)
      hinv).1
    have hbefore := BackedBy.append (env, .pairBar bar signal) h.held
    have hmid := hflush.backed ⟨hinv.wf, hinv.bars⟩ (fun key entry hgood => hgood.1.lagC_ne)
      (fun v a hallow entry hentry => by
        obtain ⟨due, hdue, hkey, henters⟩ := hallow
        obtain rfl := henters.entered hentry
        exact ⟨(h.pending _ (mem_of_dueEntries hdue)).append _, hkey.symm⟩) hbefore
    exact hcheck.backed (hflush.inv ⟨hinv.wf, hinv.bars⟩)
      (fun key entry hgood => hgood.1.lagC_ne)
      (fun v a hallow entry hentry => by
        rw [Act.Checking.entered hallow] at hentry
        cases hentry) hmid

/-- Any other message enters and queues nothing. -/
theorem Traced.other {env : Env} {message : TradeMessage}
    (hbar : ∀ bar signal, message ≠ .pairBar bar signal)
    (h : Traced setup sig messages (after setup sig math now messages)) :
    Traced setup sig (messages ++ [(env, message)])
      ((after setup sig math now messages).handle setup sig math (env, message)) := by
  have hinv := inv_of_reachable (@reachable_after setup sig math now messages)
  have hread : (after setup sig math now messages).read setup sig math env message = message := by
    cases message with
    | pairBar bar signal => exact (hbar bar signal rfl).elim
    | _ => rfl
  have hengine : ((after setup sig math now messages).handle setup sig math (env, message)).engine =
      TradeEngine.handle setup env (after setup sig math now messages).engine message :=
    congrArg (TradeEngine.handle setup env (after setup sig math now messages).engine) hread
  constructor
  · intro entry hentry
    have hpending := congrArg PendingSet.entries (@TradeEngine.pending_handle setup env
      (after setup sig math now messages).engine message hbar)
    have hold : entry ∈ (after setup sig math now messages).engine.pending.entries := by
      rw [← hpending, ← hengine]
      exact hentry
    exact (h.pending entry hold).append _
  · rw [hengine]
    have hbefore := BackedBy.append (env, message) h.held
    by_cases hshock : ∃ pairKey signal, message = .shock pairKey signal
    · obtain ⟨pairKey, signal, rfl⟩ := hshock
      exact hbefore
    · have hsteps := @TradeEngine.handle_steps setup env
        (after setup sig math now messages).engine message hinv
      refine hsteps.backed ⟨hinv.wf, hinv.bars⟩ (fun key entry hgood => hgood.1.lagC_ne)
        (fun v a hallow entry hentry => ?_) hbefore
      rw [MessageAllow.entered hallow (fun pairKey signal heq => hshock ⟨pairKey, signal, heq⟩)
        hbar] at hentry
      cases hentry

theorem traced_after (messages : List (Env × TradeMessage)) :
    Traced setup sig messages (after setup sig math now messages) := by
  induction messages using List.reverseRecOn with
  | nil =>
    refine ⟨?_, fun key => .of_state (Or.inl rfl), rfl⟩
    intro entry hentry
    cases hentry
  | append_singleton messages e ih =>
    obtain ⟨env, message⟩ := e
    rw [after_append_singleton]
    by_cases hbar : ∃ bar signal, message = .pairBar bar signal
    · obtain ⟨bar, signal, rfl⟩ := hbar
      exact ih.pairBar
    · exact ih.other fun bar signal heq => hbar ⟨bar, signal, heq⟩

/-- Whatever a pair enters or holds was found at a bar of that pair in this run, was vetted there,
and against the pair's own bars up to that one. -/
theorem held_are_found (now : ℤ) (messages : List (Env × TradeMessage)) (key : PairKey)
    (hheld : ((after setup sig math now messages).engine.stateOf key).Entering ∨
      ((after setup sig math now messages).engine.stateOf key).Open) :
    ∃ (before later : List (Env × TradeMessage)) (env : Env) (bar : Bars1sPair)
      (signal : Option EntrySignal) (entry : PendingEntry),
      messages = before ++ (env, .pairBar bar signal) :: later ∧ entry.bar = bar ∧
        entry.key = key ∧ entry.Vetted setup.cfg sig ∧
        QuietData sig (barsOf key (before ++ [(env, .pairBar bar signal)])) ∧
        ((after setup sig math now messages).engine.stateOf key).direction = entry.direction ∧
        ((after setup sig math now messages).engine.stateOf key).alphaType =
          some entry.alphaType := by
  have htraced := @traced_after setup sig math now messages
  obtain ⟨entry, ⟨hfound, rfl⟩, hdir, halpha⟩ := htraced.held.held key hheld
  obtain ⟨before, env, bar, signal, later, hsplit, hbar, hvetted, hquiet⟩ := hfound
  exact ⟨before, later, env, bar, signal, entry, hsplit, hbar, rfl, hvetted, hquiet, hdir, halpha⟩

/-- Strategy B alone, with bounds on the gaps and the staleness. -/
def sampleSignals : SignalConfig where
  alphaAEnabled := false
  alphaBEnabled := true
  alphaCEnabled := false
  alphaSource := "none"
  alphaMin := 0
  alphaAOpiStaleSoftStartMs := 0
  alphaAOpiStaleSoftTauMs := 0
  alphaAOpiStaleSoftMinScale := 0
  alphaAUsePairQuantile := false
  alphaBUsePairQuantile := false
  alphaBPairP50PlusMs := 0
  softMinScale_le := zero_le_one
  alphaAEdgeNormMin := 0
  alphaBEdgeNormMin := 0
  alphaAEdgeRawMinAbs := 0
  alphaACostMult := 1
  alphaBCostMult := 1
  alphaBMoveMin := 1
  alphaBMomMin := 1
  alphaBOfiEntryMin := 50
  alphaBRetraceCancelRatio := 0
  alphaBOfiFlipCancelUsd := 0
  alphaCUseLagClamp := false
  alphaCLookbackFixedS := 0
  alphaCLookbackMinS := 0
  alphaCLookbackMaxS := 0
  alphaCMinAbsReturn := 0
  alphaCAlignBonus := 0
  alphaCConflictPenalty := 0
  alphaCBlockBOnConflict := false
  lookback_le := le_refl 0
  alphaAHorizonDefaultS := 60
  alphaBHorizonDefaultS := 60
  alphaAHorizonByShockType := fun _ => none
  alphaAEntryTtlFrac := 0
  alphaBEntryTtlFrac := 0
  alphaAEntryTtlCapMs := 0
  alphaBEntryTtlCapMs := 0
  rankWEdge := 1
  rankWDriver := 0
  rankWStale := 0
  rankWCost := 0
  rankWBookshape := 0
  rankOfiScale := 1
  followMinCorr := 0
  followMinLagConf := 0
  followMinRange := 0
  followCorrMinRange := 0
  followCorrMinSamples := 0
  maxBarGapRatio1m := 1 / 10
  maxOpiStalenessP90Ms := 1000
  maxPolyLatencyP99Ms := 0
  maxOpiLatencyP99Ms := 0

/-- The flow at Polymarket is up, and Opinion is still below. -/
def sampleGapBar (second : ℤ) : Bars1sPair :=
  { sampleBar second with opiMidState := some (2 / 5), polyOfi250ms := some 100 }

def sampleGap : List (Env × TradeMessage) :=
  [(sampleEnv 0 "x", .pairBar (sampleGapBar 0) none),
    (sampleEnv 1000 "x", .pairBar (sampleGapBar 1) none)]

/-- The bar of the next second places what the first bar found. -/
theorem held_are_found_gap :
    ((after sampleSetup sampleSignals ⟨id, id⟩ 0 sampleGap).engine.stateOf sampleKey).state =
        .entryPlacing ∧
      ∃ entry : PendingEntry, entry.Vetted sampleSetup.cfg sampleSignals ∧
        ((after sampleSetup sampleSignals ⟨id, id⟩ 0 sampleGap).engine.stateOf
          sampleKey).direction = entry.direction := by
  have hplacing : ((after sampleSetup sampleSignals ⟨id, id⟩ 0 sampleGap).engine.stateOf
      sampleKey).state = .entryPlacing := by decide +kernel
  obtain ⟨before, later, env, bar, signal, entry, -, -, -, hvetted, -, hdir, -⟩ :=
    held_are_found 0 sampleGap sampleKey (Or.inl (Or.inr (Or.inl hplacing)))
  exact ⟨hplacing, entry, hvetted, hdir⟩

/-- Strategy C is never charged with anything: its cap is out of use. -/
theorem lagC_unused (now : ℤ) (messages : List (Env × TradeMessage)) :
    (after setup sig math now messages).engine.desk.books.risk.strategyExposure .lagC = 0 :=
  (@traced_after setup sig math now messages).held.lagC

end Strategist

end AlphaMonitor.Trade
