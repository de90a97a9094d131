import AlphaMonitor.Trade.EntryCaps

/-!
# Shards that share the risk state

Every shard is an engine of its own with its own pairs; all of them read and write one
`TradeRiskState`.  Handlers of the shards run one after another, in any order.

## Main definitions

- `Shards.EntersAlone`: what the check of the caps relies on at a message

## Main results

- `capped_of_entersAlone`: then the caps hold in every state of a run
- `two_entries_exceed_cap`: two placements in flight overdraw a cap
-/

namespace AlphaMonitor.Trade

open Lib

variable {setup : Setup} {env : Env} {key : PairKey}

/-- No pair waits for a placement. -/
def TradeEngine.Quiet (eng : TradeEngine) : Prop := ∀ key, (eng.stateOf key).entryPlaceReqId = none

instance (eng : TradeEngine) : Decidable eng.Quiet :=
  decidable_of_iff (∀ known ∈ eng.states.entries, known.2.entryPlaceReqId = none) <| by
    constructor
    · intro h key
      unfold TradeEngine.stateOf
      cases hlookup : eng.states.lookup key with
      | none => rfl
      | some st => exact h ⟨key, st⟩ (AList.mem_lookup_iff.mp hlookup)
    · rintro h ⟨key, st⟩ hmem
      rw [← eng.stateOf_of_lookup (AList.mem_lookup_iff.mpr hmem)]
      exact h key

/-! ## Shards -/

/-- Engine shards and the risk state that they share. -/
structure Shards (ι : Type) where
  engine : ι → TradeEngine
  risk : TradeRiskState

/-- The engine with the shared risk state. -/
def TradeEngine.withRisk (eng : TradeEngine) (risk : TradeRiskState) : TradeEngine :=
  { eng with desk := { eng.desk with books := { eng.desk.books with risk := risk } } }

namespace Shards

variable {ι : Type}

/-- One shard as its handlers see it. -/
def shard (sys : Shards ι) (i : ι) : TradeEngine := (sys.engine i).withRisk sys.risk

def start (now : ι → ℤ) : Shards ι := ⟨fun i => TradeEngine.start (now i), TradeRiskState.start⟩

/-- A shard handles a message. -/
def handled [DecidableEq ι] (setup : Setup) (sys : Shards ι) (e : ι × Env × TradeMessage) :
    Shards ι :=
  let eng := TradeEngine.handle setup e.2.1 (sys.shard e.1) e.2.2
  ⟨Function.update sys.engine e.1 eng, eng.desk.books.risk⟩

/-- The exposure of every shard is under the caps. -/
def Capped (cfg : TradeConfig) (sys : Shards ι) : Prop :=
  ∀ i, (sys.shard i).desk.books.counters.Within cfg

/-- What the check of the caps relies on when a bar flushes entries: there is only one, no
placement is in flight, and the entry fits the budget that the caps leave. -/
structure FlushesAlone (setup : Setup) (env : Env) (sys : Shards ι) (i : ι) (barSecond : ℤ) :
    Prop where
  one : (TradeEngine.dueEntries setup (sys.shard i) barSecond).length ≤ 1
  quiet : ∀ j, (sys.shard j).Quiet
  fits : ∀ entry ∈ TradeEngine.dueEntries setup (sys.shard i) barSecond,
    ∀ notional ∈ (sys.shard i).flushBudget setup entry, entry.Fits setup.cfg env notional

instance [Fintype ι] (setup : Setup) (env : Env) (sys : Shards ι) (i : ι) (barSecond : ℤ) :
    Decidable (sys.FlushesAlone setup env i barSecond) :=
  decidable_of_iff
    ((TradeEngine.dueEntries setup (sys.shard i) barSecond).length ≤ 1 ∧
      (∀ j, (sys.shard j).Quiet) ∧
      ∀ entry ∈ TradeEngine.dueEntries setup (sys.shard i) barSecond,
        ∀ notional ∈ (sys.shard i).flushBudget setup entry, entry.Fits setup.cfg env notional)
    ⟨fun h => ⟨h.1, h.2.1, h.2.2⟩, fun h => ⟨h.one, h.quiet, h.fits⟩⟩

/-- A placement is checked while no other is in flight, and is not answered with a price above
the planned one. -/
def EntersAlone (setup : Setup) (sys : Shards ι) : ι × Env × TradeMessage → Prop
  | (i, env, .pairBar bar _) =>
    TradeEngine.dueEntries setup (sys.shard i) bar.barSecond = [] ∨
      sys.FlushesAlone setup env i bar.barSecond
  | (i, _, .orderResponse (.placeChase id pairKey result)) =>
    ((sys.shard i).stateOf pairKey).entryPlaceReqId = some id →
      ∀ price ∈ result.priceUsed, ∀ planned ∈ ((sys.shard i).stateOf pairKey).entryPrice,
        price ≤ planned
  | _ => True

instance [Fintype ι] (setup : Setup) (sys : Shards ι) : DecidablePred (sys.EntersAlone setup)
  | (_, _, .pairBar _ _) => inferInstanceAs (Decidable (_ ∨ _))
  | (_, _, .orderResponse (.placeChase _ _ _)) =>
    inferInstanceAs (Decidable (_ = _ → ∀ price ∈ _, ∀ planned ∈ _, price ≤ planned))
  | (_, _, .orderResponse (.cancelOrder _ _ _)) => isTrue trivial
  | (_, _, .orderResponse (.fetchFills _ _ _ _)) => isTrue trivial
  | (_, _, .shock _ _) => isTrue trivial
  | (_, _, .cancelCheckTick _) => isTrue trivial
  | (_, _, .orderUpdate _) => isTrue trivial
  | (_, _, .tradeRecord _) => isTrue trivial

/-- Any shard takes any message at any time. -/
def machine [DecidableEq ι] (setup : Setup) : Lib.Machine (Shards ι) (ι × Env × TradeMessage) where
  init sys := ∃ now, sys = start now
  step sys e := some (sys.handled setup e)

/-- The caps hold, and there is room for the one placement that may be in flight. -/
structure Safe (setup : Setup) (sys : Shards ι) : Prop where
  inv : ∀ i, (sys.shard i).Inv setup
  capped : sys.Capped setup.cfg
  nonneg : ∀ i, (sys.shard i).desk.books.counters.Nonneg
  alone : ∀ i key j key', ((sys.shard i).stateOf key).entryPlaceReqId ≠ none →
    ((sys.shard j).stateOf key').entryPlaceReqId ≠ none → i = j ∧ key = key'
  covered : ∀ i key, ((sys.shard i).stateOf key).entryPlaceReqId ≠ none →
    ((sys.shard i).stateOf key).Covered setup.cfg (sys.shard i).desk.books.counters key

theorem safe_start (hcaps : setup.cfg.CapsNonneg) (now : ι → ℤ) : (start now).Safe setup where
  inv i := TradeEngine.start_inv (now i)
  capped _ := Counters.within_start hcaps
  nonneg _ := Counters.nonneg_start
  alone _ _ _ _ hreq := absurd rfl hreq
  covered _ _ hreq := absurd rfl hreq

section

variable [DecidableEq ι]

theorem shard_handled_self (sys : Shards ι) (i : ι) (env : Env) (message : TradeMessage) :
    (sys.handled setup (i, env, message)).shard i =
      TradeEngine.handle setup env (sys.shard i) message := by
  unfold handled shard
  simp only [Function.update_self]
  rfl

theorem shard_handled_of_ne (sys : Shards ι) {i j : ι} (hne : j ≠ i) (env : Env)
    (message : TradeMessage) :
    (sys.handled setup (i, env, message)).shard j =
      (sys.shard j).withRisk (sys.handled setup (i, env, message)).risk := by
  unfold handled shard
  simp only [Function.update_of_ne hne]
  rfl

/-- The invariants of an engine are not about the risk state. -/
theorem inv_withRisk {eng : TradeEngine} (h : eng.Inv setup) (risk : TradeRiskState) :
    (eng.withRisk risk).Inv setup :=
  ⟨h.wf, h.bars, h.pending⟩

theorem inv_handled {sys : Shards ι} (h : ∀ i, (sys.shard i).Inv setup)
    (e : ι × Env × TradeMessage) : ∀ i, ((sys.handled setup e).shard i).Inv setup := by
  obtain ⟨i, env, message⟩ := e
  intro j
  by_cases hj : j = i
  · subst hj
    rw [shard_handled_self]
    exact TradeEngine.handle_inv (sys.shard j) message (h j)
  · rw [shard_handled_of_ne sys hj]
    exact inv_withRisk (h j) _

/-! ### What a step keeps -/

section

variable {sys : Shards ι} {i : ι}

/-- The other shards see the totals that the handler leaves, and the exposure of their own
pairs. -/
theorem counters_handled_of_ne (sys : Shards ι) {i j : ι} (hne : j ≠ i) (message : TradeMessage) :
    ((sys.handled setup (i, env, message)).shard j).desk.books.counters =
      { (TradeEngine.handle setup env (sys.shard i) message).desk.books.counters with
        pairExposure := (sys.shard j).desk.books.pairExposure
        added := (sys.shard j).desk.books.added } := by
  rw [shard_handled_of_ne sys hne]
  rfl

/-- A handler that only eases its engine. -/
theorem Safe.eased (h : sys.Safe setup) {message : TradeMessage}
    (heased : (sys.shard i).view.Eased
      (TradeEngine.handle setup env (sys.shard i) message).view) :
    (sys.handled setup (i, env, message)).Safe setup := by
  have hatMost : ∀ j, ((sys.handled setup (i, env, message)).shard j).desk.books.counters.AtMost
      (sys.shard j).desk.books.counters := by
    intro j
    by_cases hj : j = i
    · subst hj
      rw [shard_handled_self]
      exact heased.counters
    · rw [counters_handled_of_ne sys hj]
      exact ⟨heased.counters.used, heased.counters.positions, heased.counters.strategy,
        fun _ => le_refl _⟩
  have hwaiting : ∀ j key,
      (((sys.handled setup (i, env, message)).shard j).stateOf key).entryPlaceReqId ≠ none →
        ((sys.shard j).stateOf key).entryPlaceReqId ≠ none ∧
          (((sys.handled setup (i, env, message)).shard j).stateOf key).plan =
            ((sys.shard j).stateOf key).plan := by
    intro j key hreq
    by_cases hj : j = i
    · subst hj
      rw [shard_handled_self] at hreq ⊢
      exact heased.waiting key hreq
    · rw [shard_handled_of_ne sys hj] at hreq ⊢
      exact ⟨hreq, rfl⟩
  constructor
  · exact inv_handled h.inv _
  · exact fun j => (h.capped j).of_atMost (hatMost j)
  · intro j
    by_cases hj : j = i
    · subst hj
      rw [shard_handled_self]
      exact heased.nonneg
    · rw [counters_handled_of_ne sys hj]
      exact ⟨heased.nonneg.used, heased.nonneg.strategy, (h.nonneg j).pair⟩
  · intro j key j' key' hreq hreq'
    exact h.alone j key j' key' (hwaiting j key hreq).1 (hwaiting j' key' hreq').1
  · intro j key hreq
    obtain ⟨hbefore, hplan⟩ := hwaiting j key hreq
    exact (h.covered j key hbefore).of_plan hplan (hatMost j)

/-- A handler while no other shard waits: what its engine waits for is the only placement. -/
theorem Safe.only (h : sys.Safe setup) {message : TradeMessage} {eng : TradeEngine}
    (heng : TradeEngine.handle setup env (sys.shard i) message = eng)
    (hothers : ∀ j, j ≠ i → (sys.shard j).Quiet)
    (hwithin : eng.desk.books.counters.Within setup.cfg)
    (hnonneg : eng.desk.books.counters.Nonneg)
    (hone : ∀ key key', (eng.stateOf key).entryPlaceReqId ≠ none →
      (eng.stateOf key').entryPlaceReqId ≠ none → key = key')
    (hcovered : ∀ key, (eng.stateOf key).entryPlaceReqId ≠ none →
      (eng.stateOf key).Covered setup.cfg eng.desk.books.counters key) :
    (sys.handled setup (i, env, message)).Safe setup := by
  have hself : (sys.handled setup (i, env, message)).shard i = eng :=
    (shard_handled_self sys i env message).trans heng
  -- only the shard that handles the message can wait
  have hwaiting : ∀ j key,
      (((sys.handled setup (i, env, message)).shard j).stateOf key).entryPlaceReqId ≠ none →
        j = i := by
    intro j key hreq
    by_contra hj
    rw [shard_handled_of_ne sys hj] at hreq
    exact hreq (hothers j hj key)
  constructor
  · exact inv_handled h.inv _
  · intro j
    by_cases hj : j = i
    · rw [hj, hself]
      exact hwithin
    · rw [counters_handled_of_ne sys hj, heng]
      exact ⟨hwithin.used, hwithin.positions, hwithin.strategy, (h.capped j).pair⟩
  · intro j
    by_cases hj : j = i
    · rw [hj, hself]
      exact hnonneg
    · rw [counters_handled_of_ne sys hj, heng]
      exact ⟨hnonneg.used, hnonneg.strategy, (h.nonneg j).pair⟩
  · intro j key j' key' hreq hreq'
    obtain rfl := hwaiting j key hreq
    obtain rfl := hwaiting j' key' hreq'
    rw [hself] at hreq hreq'
    exact ⟨rfl, hone key key' hreq hreq'⟩
  · intro j key hreq
    obtain rfl := hwaiting j key hreq
    rw [hself] at hreq ⊢
    exact hcovered key hreq

/-- The response to the placement that a pair waits for. -/
theorem Safe.answered (h : sys.Safe setup) {reqId : ℕ} {result : PlaceResult}
    (hreq : ((sys.shard i).stateOf key).entryPlaceReqId = some reqId)
    (hprice : ∀ price ∈ result.priceUsed, ∀ planned ∈ ((sys.shard i).stateOf key).entryPrice,
      price ≤ planned) :
    (sys.handled setup (i, env, .orderResponse (.placeChase reqId key result))).Safe setup := by
  have hsome : ((sys.shard i).stateOf key).entryPlaceReqId ≠ none := by
    rw [hreq]
    exact Option.some_ne_none _
  obtain ⟨entry, planned, qty, hqty, hplan, hroom⟩ := h.covered i key hsome
  simp only [OrderState.plan, Prod.mk.injEq] at hplan
  obtain ⟨hentry, hplanned, hquantity, halpha⟩ := hplan
  have hconsumed := @TradeEngine.placement_consumed setup env key (sys.shard i) reqId entry result
    hreq hentry
  have hcounters := @TradeEngine.placeChase_counters setup env key (sys.shard i) reqId result
  generalize heng : TradeEngine.handle setup env (sys.shard i)
    (.orderResponse (.placeChase reqId key result)) = eng at hconsumed hcounters
  -- nobody waits any more
  have hquiet : eng.Quiet := by
    intro other
    by_cases hother : other = key
    · rw [hother]
      exact hconsumed.answered.1
    · rw [hconsumed.others other hother]
      by_contra hwaits
      exact hother (h.alone i other i key hwaits hsome).2
  have hothers : ∀ j, j ≠ i → (sys.shard j).Quiet := by
    intro j hj other
    by_contra hwaits
    exact hj (h.alone j other i key hwaits hsome).1
  have hbooks : eng.desk.books.counters.Within setup.cfg ∧ eng.desk.books.counters.Nonneg := by
    rw [hcounters]
    unfold TradeEngine.booked?
    simp only [hreq, hentry, hplanned, hquantity, halpha, Option.map_some, Option.getD_some,
      true_and]
    split
    · rename_i b hb
      split at hb
      · cases hb
        -- the booked price is at most the planned one
        have hle : (result.priceUsed.or (some planned)).getD 0 * qty ≤ planned * qty := by
          refine mul_le_mul_of_nonneg_right ?_ hqty
          cases hused : result.priceUsed with
          | none => exact le_refl _
          | some price => exact hprice price hused planned hplanned
        rw [counters_addExposure]
        exact ⟨(h.capped i).add (hroom.of_le hle), (h.nonneg i).add _ _ _⟩
      · cases hb
    · exact ⟨h.capped i, h.nonneg i⟩
  exact h.only heng hothers hbooks.1 hbooks.2 (fun other _ hwaits => absurd (hquiet other) hwaits)
    (fun other hwaits => absurd (hquiet other) hwaits)

/-- A response that no pair waits for. -/
theorem Safe.ignored (h : sys.Safe setup) {reqId : ℕ} {result : PlaceResult}
    (hreq : ((sys.shard i).stateOf key).entryPlaceReqId ≠ some reqId) :
    (sys.handled setup (i, env, .orderResponse (.placeChase reqId key result))).Safe setup := by
  have hcounters := @TradeEngine.placeChase_counters setup env key (sys.shard i) reqId result
  have hnone : (sys.shard i).booked? (.orderResponse (.placeChase reqId key result)) = none := by
    unfold TradeEngine.booked?
    simp only [hreq, false_and, if_false]
  rw [hnone] at hcounters
  refine h.eased ⟨?_, ?_, fun other hwaits => ?_⟩
  · show Counters.AtMost (TradeEngine.handle setup env (sys.shard i) _).desk.books.counters _
    rw [hcounters]
    exact .refl _
  · show Counters.Nonneg (TradeEngine.handle setup env (sys.shard i) _).desk.books.counters
    rw [hcounters]
    exact h.nonneg i
  · have hsame := @TradeEngine.placement_ignored setup env key (sys.shard i) reqId result hreq other
    have hstate : (TradeEngine.handle setup env (sys.shard i)
        (.orderResponse (.placeChase reqId key result))).view.order other =
          (sys.shard i).view.order other := congrArg (·.toOrderState) hsame
    rw [hstate] at hwaits ⊢
    exact ⟨hwaits, rfl⟩

/-- A bar that flushes nothing, or one entry alone. -/
theorem Safe.flushed (hlive : setup.isLive = true) (h : sys.Safe setup) {bar : Bars1sPair}
    {signal : Option EntrySignal}
    (halone : TradeEngine.dueEntries setup (sys.shard i) bar.barSecond = [] ∨
      sys.FlushesAlone setup env i bar.barSecond) :
    (sys.handled setup (i, env, .pairBar bar signal)).Safe setup := by
  have hinv := h.inv i
  obtain ⟨heased, hcounters⟩ :=
    @TradeEngine.eased_handleBar setup env (sys.shard i) hlive hinv (h.nonneg i) bar signal
  -- a flush that leaves the view alone
  have hidle : (TradeEngine.flushPendingEntries setup env (sys.shard i) bar.barSecond).view =
      (sys.shard i).view → (sys.handled setup (i, env, .pairBar bar signal)).Safe setup := by
    intro hsame
    rw [hsame] at heased
    exact h.eased heased
  cases hdue : TradeEngine.dueEntries setup (sys.shard i) bar.barSecond with
  | nil =>
    have hflush := (@TradeEngine.flushPendingEntries_steps setup env (sys.shard i) bar.barSecond
      hinv).1
    rw [hdue] at hflush
    apply hidle
    refine Lib.Chain.inv (fun v => v = (sys.shard i).view) ?_ hflush rfl
    rintro v a w - ⟨entry, hmem, -⟩
    exact absurd hmem List.not_mem_nil
  | cons entry more =>
    rw [hdue] at halone
    obtain ⟨hone, hquiet, hfits⟩ := halone.resolve_left (List.cons_ne_nil _ _)
    rw [hdue] at hone hfits
    obtain rfl : more = [] := by
      cases more with
      | nil => rfl
      | cons => simp at hone
    obtain ⟨second, hsecond, hpending, hstate, hsame | hput⟩ :=
      @TradeEngine.flushPendingEntries_one setup env (sys.shard i) hinv bar.barSecond entry hdue
    · exact hidle hsame
    · obtain ⟨hkey, hbar⟩ := hinv.pending entry hpending
      have hdesk : ((sys.shard i).flushDesk setup second).books.counters =
          (sys.shard i).desk.books.counters :=
        congrArg (fun v => v.desk.counters) (TradeEngine.view_flushDesk (sys.shard i) second)
      have hbudget : ∀ notional, (((sys.shard i).flushDesk setup second).books.budgetForEntry
          setup.cfg (entry.bar.pairId, entry.bar.tokenSide, entry.direction) entry.bar.barSecond
          ((sys.shard i).flushOverride setup second) entry.alphaType).2 = some notional →
            entry.Fits setup.cfg env notional := by
        intro notional hnotional
        refine hfits entry (List.mem_singleton_self entry) notional ?_
        unfold TradeEngine.flushBudget
        rw [hsecond]
        exact hnotional
      have hcovered := @maybeEnter_covered setup env hlive ((sys.shard i).flushDesk setup second)
        ((sys.shard i).stateOf entry.key) entry ((sys.shard i).flushOverride setup second) hstate
        hbar (hinv.wf entry.key) hkey (hdesk ▸ h.capped i) hbudget
      rw [hdesk] at hcovered
      -- behind the flush the entry's pair is the only one that can wait
      have hwaits : ∀ key, ((TradeEngine.flushPendingEntries setup env (sys.shard i)
          bar.barSecond).view.order key).entryPlaceReqId ≠ none → key = entry.key := by
        intro key hreq
        by_contra hne
        rw [hput, View.put_order_of_ne _ _ hne] at hreq
        exact hreq (hquiet i key)
      have hafter := heased.waiting
      have hatMost := heased.counters
      rw [hcounters] at hatMost
      refine h.only rfl (fun j _ => hquiet j) ((h.capped i).of_atMost hatMost) heased.nonneg
        ?_ ?_
      · intro key key' hreq hreq'
        rw [hwaits key (hafter key hreq).1, hwaits key' (hafter key' hreq').1]
      · intro key hreq
        obtain ⟨hbefore, hplan⟩ := hafter key hreq
        obtain rfl := hwaits key hbefore
        rw [hput, View.put_order_self] at hbefore hplan
        exact (hcovered hbefore).of_plan hplan hatMost

/-- Whatever a shard handles, if it enters alone. -/
theorem Safe.handled (hlive : setup.isLive = true) (h : sys.Safe setup)
    {e : ι × Env × TradeMessage} (halone : sys.EntersAlone setup e) :
    (sys.handled setup e).Safe setup := by
  obtain ⟨i, env, message⟩ := e
  by_cases hbar : ∃ bar signal, message = .pairBar bar signal
  · obtain ⟨bar, signal, rfl⟩ := hbar
    exact h.flushed hlive halone
  · by_cases hresponse : ∃ reqId key result,
        message = .orderResponse (.placeChase reqId key result)
    · obtain ⟨reqId, key, result, rfl⟩ := hresponse
      by_cases hreq : ((sys.shard i).stateOf key).entryPlaceReqId = some reqId
      · exact h.answered hreq (halone hreq)
      · exact h.ignored hreq
    · exact h.eased (TradeEngine.eased_of_message hlive (h.inv i) (h.nonneg i)
        (fun bar signal heq => hbar ⟨bar, signal, heq⟩)
        (fun reqId key result heq => hresponse ⟨reqId, key, result, heq⟩))

end

end

/-! ### Two shards, one cap -/

/-- A bar of the pair of the other shard. -/
def otherBar (second : ℤ) : Bars1sPair := { sampleBar second with pairId := 2 }

/-- One shard enters its pair, and the other looks at the caps when that is booked. -/
def oneAfterTheOther : List (Bool × Env × TradeMessage) :=
  sampleEntering.map (fun e => (false, e)) ++
    [(true, sampleEnv 1200 "x", .pairBar (otherBar 1) (some sampleSignal)),
      (true, sampleEnv 2000 "x", .pairBar (otherBar 2) none)]

/-- Both shards queue an entry of ten before either placement is answered. -/
def twoEntries : List (Bool × Env × TradeMessage) :=
  [(false, sampleEnv 0 "x", .pairBar (sampleBar 0) (some sampleSignal)),
    (false, sampleEnv 1000 "x", .pairBar (sampleBar 1) none),
    (true, sampleEnv 1000 "x", .pairBar (otherBar 1) (some sampleSignal)),
    (true, sampleEnv 2000 "x", .pairBar (otherBar 2) none),
    (false, sampleEnv 2100 "x", samplePlaced 1 "e1"),
    (true, sampleEnv 2200 "x", .orderResponse (.placeChase 1 (2, .yes)
      ⟨some ⟨"e2", some "client"⟩, some "client", some (1 / 2), 1, 0, none⟩))]

end Shards

end AlphaMonitor.Trade
