import AlphaMonitor.Lib.Run
import AlphaMonitor.Lib.Samples
import AlphaMonitor.Pair.Confluence

/-!
# Fees and gas of a pair bar

A row is built with the fees that are in force at its second and with the gas cost and the
congestion flag that the chain task has noted.  The chain task reads no chain: it notes the
base fee and the cost of the configuration, again and again.

## Main definitions

- `FeeScheduleState.feeBps`: the fee of a venue at a time
- `costMachine`: the fee refresher, the chain task and the rows

## Main results

- `FeeScheduleState.feeBps_perm`: the fee does not depend on the order of the rows
- `CostSystem.congestion_is_constant`: what the rows say of gas and congestion
-/

namespace AlphaMonitor.Pair

open AlphaMonitor.Lib

/-! ## Fees -/

structure FeeRow where
  venue : Venue
  feeBps : ℤ
  effectiveFromTsMs : ℤ
  effectiveToTsMs : Option ℤ
  deriving DecidableEq, Repr

structure FeeScheduleState where
  /-- For Polymarket and for Opinion. -/
  defaults : ℤ × ℤ
  rows : List FeeRow
  deriving DecidableEq, Repr

/-- The row is the venue's and is in force. -/
def FeeRow.InForce (venue : Venue) (tsMs : ℤ) (row : FeeRow) : Prop :=
  row.venue = venue ∧ row.effectiveFromTsMs ≤ tsMs ∧ ∀ t ∈ row.effectiveToTsMs, tsMs < t

instance (venue : Venue) (tsMs : ℤ) (row : FeeRow) : Decidable (row.InForce venue tsMs) :=
  inferInstanceAs (Decidable (_ ∧ _ ∧ ∀ t ∈ row.effectiveToTsMs, tsMs < t))

namespace FeeScheduleState

/-- A row in force takes the place of one that came into force earlier. -/
def keepLatest (venue : Venue) (tsMs : ℤ) (best : Option FeeRow) (row : FeeRow) : Option FeeRow :=
  if row.InForce venue tsMs then
    match best with
    | some b => if row.effectiveFromTsMs > b.effectiveFromTsMs then some row else best
    | none => some row
  else best

/-- `fee_bps`. -/
def feeBps (st : FeeScheduleState) (venue : Venue) (tsMs : ℤ) : ℤ :=
  match st.rows.foldl (keepLatest venue tsMs) none with
  | some row => row.feeBps
  | none =>
    match venue with
    | .polymarket => st.defaults.1
    | .opinion => st.defaults.2

/-- Of the rows in force, the one that came into force last. -/
structure Latest (venue : Venue) (tsMs : ℤ) (rows : List FeeRow) (row : FeeRow) : Prop where
  mem : row ∈ rows
  inForce : row.InForce venue tsMs
  latest : ∀ other ∈ rows, other.InForce venue tsMs →
    other.effectiveFromTsMs ≤ row.effectiveFromTsMs

variable {venue : Venue} {tsMs : ℤ} {rows seen : List FeeRow} {best : Option FeeRow}

/-- What the loop has found after the rows seen. -/
def Found (venue : Venue) (tsMs : ℤ) (seen : List FeeRow) : Option FeeRow → Prop
  | some row => Latest venue tsMs seen row
  | none => ∀ row ∈ seen, ¬row.InForce venue tsMs

theorem Found.keepLatest (h : Found venue tsMs seen best) (row : FeeRow) :
    Found venue tsMs (seen ++ [row]) (keepLatest venue tsMs best row) := by
  unfold FeeScheduleState.keepLatest
  by_cases hrow : row.InForce venue tsMs
  · rw [if_pos hrow]
    cases best with
    | none =>
      refine ⟨List.mem_append_right _ (List.mem_singleton.mpr rfl), hrow, ?_⟩
      intro other hother hforce
      rcases List.mem_append.mp hother with hother | hother
      · exact absurd hforce (h other hother)
      · rw [List.mem_singleton.mp hother]
    | some b =>
      by_cases hlater : row.effectiveFromTsMs > b.effectiveFromTsMs
      · simp only [if_pos hlater]
        refine ⟨List.mem_append_right _ (List.mem_singleton.mpr rfl), hrow, ?_⟩
        intro other hother hforce
        rcases List.mem_append.mp hother with hother | hother
        · exact (h.latest other hother hforce).trans hlater.le
        · rw [List.mem_singleton.mp hother]
      · simp only [if_neg hlater]
        refine ⟨List.mem_append_left _ h.mem, h.inForce, ?_⟩
        intro other hother hforce
        rcases List.mem_append.mp hother with hother | hother
        · exact h.latest other hother hforce
        · rw [List.mem_singleton.mp hother]
          exact not_lt.mp hlater
  · rw [if_neg hrow]
    cases best with
    | none =>
      intro other hother
      rcases List.mem_append.mp hother with hother | hother
      · exact h other hother
      · rw [List.mem_singleton.mp hother]
        exact hrow
    | some b =>
      refine ⟨List.mem_append_left _ h.mem, h.inForce, ?_⟩
      intro other hother hforce
      rcases List.mem_append.mp hother with hother | hother
      · exact h.latest other hother hforce
      · exact absurd (List.mem_singleton.mp hother ▸ hforce) hrow

theorem found_foldl (venue : Venue) (tsMs : ℤ) (rows : List FeeRow) :
    Found venue tsMs rows (rows.foldl (keepLatest venue tsMs) none) := by
  induction rows using List.reverseRecOn with
  | nil =>
    intro row hrow
    cases hrow
  | append_singleton rows row ih =>
    rw [List.foldl_append]
    exact ih.keepLatest row

/-- The fee does not depend on the order in which the database hands out the rows, unless two
rows of a venue come into force at once. -/
theorem feeBps_perm {defaults : ℤ × ℤ} {rows rows' : List FeeRow} (hperm : rows.Perm rows')
    (hdistinct : ∀ a ∈ rows, ∀ b ∈ rows, a.venue = b.venue →
      a.effectiveFromTsMs = b.effectiveFromTsMs → a.feeBps = b.feeBps)
    (venue : Venue) (tsMs : ℤ) :
    feeBps ⟨defaults, rows⟩ venue tsMs = feeBps ⟨defaults, rows'⟩ venue tsMs := by
  have hfound := found_foldl venue tsMs rows
  have hfound' := found_foldl venue tsMs rows'
  unfold feeBps
  simp only
  cases hbest : rows.foldl (keepLatest venue tsMs) none with
  | none =>
    rw [hbest] at hfound
    cases hbest' : rows'.foldl (keepLatest venue tsMs) none with
    | none => rfl
    | some row' =>
      rw [hbest'] at hfound'
      exact absurd hfound'.inForce (hfound row' (hperm.mem_iff.mpr hfound'.mem))
  | some row =>
    rw [hbest] at hfound
    cases hbest' : rows'.foldl (keepLatest venue tsMs) none with
    | none =>
      rw [hbest'] at hfound'
      exact absurd hfound.inForce (hfound' row (hperm.mem_iff.mp hfound.mem))
    | some row' =>
      rw [hbest'] at hfound'
      have hmem' := hperm.mem_iff.mpr hfound'.mem
      refine hdistinct row hfound.mem row' hmem' (hfound.inForce.1.trans hfound'.inForce.1.symm) ?_
      exact le_antisymm
        (hfound'.latest row (hperm.mem_iff.mp hfound.mem) hfound.inForce)
        (hfound.latest row' hmem' hfound'.inForce)

end FeeScheduleState

/-! ## Gas -/

structure ChainMetricsState where
  txCostValues : List (ℤ × ℚ)
  baseFeeValues : List ℚ
  maxLen : ℕ
  lastCongestionFlag : ℤ
  deriving DecidableEq, Repr

namespace ChainMetricsState

def new (maxLen : ℕ) : ChainMetricsState := ⟨[], [], maxLen, 0⟩

/-- `record`. -/
def record (st : ChainMetricsState) (tsMs : ℤ) (txCost baseFee : ℚ) (congestionFlag : ℤ) :
    ChainMetricsState :=
  { st with
    txCostValues :=
      (if st.txCostValues.length ≥ st.maxLen then st.txCostValues.tail else st.txCostValues) ++
        [(tsMs, txCost)]
    baseFeeValues :=
      (if st.baseFeeValues.length ≥ st.maxLen then st.baseFeeValues.tail
        else st.baseFeeValues) ++ [baseFee]
    lastCongestionFlag := congestionFlag }

/-- The index of a quantile of `percent` per cent, rounded half up. -/
def quantileIndex (length percent : ℕ) : ℕ := (2 * (length - 1) * percent + 100) / 200

/-- `p90_recent`. -/
def p90Recent (st : ChainMetricsState) (sinceMs : ℤ) : Option ℚ :=
  let data := (st.txCostValues.filter fun v => sinceMs ≤ v.1).map Prod.snd
  if data = [] then none else orderStat data (quantileIndex data.length 90)

/-- `p95_base_fee`. -/
def p95BaseFee (st : ChainMetricsState) : Option ℚ :=
  if st.baseFeeValues = [] then none
  else orderStat st.baseFeeValues (quantileIndex st.baseFeeValues.length 95)

end ChainMetricsState

structure ChainConfig where
  (baseFee priorityFee gasUsedEst : ℚ)
  deriving DecidableEq, Repr

def ChainConfig.txCost (cfg : ChainConfig) : ℚ := (cfg.baseFee + cfg.priorityFee) * cfg.gasUsedEst

/-- One turn of `run_chain_metrics`. -/
def ChainMetricsState.tick (cfg : ChainConfig) (nowMs : ℤ) (st : ChainMetricsState) :
    ChainMetricsState :=
  let p95 := st.p95BaseFee.getD cfg.baseFee
  let congestion := if 0 < p95 ∧ p95 ≤ cfg.baseFee then 1 else 0
  st.record nowMs cfg.txCost cfg.baseFee congestion

/-- The fees that `load_build_context` reads first, of Polymarket and of Opinion. -/
def loadFees (fees : FeeScheduleState) (barSecond : ℤ) : ℤ × ℤ :=
  (fees.feeBps .polymarket (barSecond * 1000), fees.feeBps .opinion (barSecond * 1000))

/-- `load_build_context`, once it has the fees. -/
def loadBuildContext (feeBps : ℤ × ℤ) (chain : ChainMetricsState) (barSecond : ℤ) :
    BuildContext where
  feeBpsPolymarket := feeBps.1
  feeBpsOpinion := feeBps.2
  gasCost := chain.p90Recent (barSecond * 1000 - 10000)
  congestionFlag := chain.lastCongestionFlag

/-! ## The machine -/

structure CostSystem where
  fees : FeeScheduleState
  chain : ChainMetricsState
  /-- The bars whose fees were read, and what they are. -/
  reading : List (BarKey × ℤ × ℤ)
  /-- The bars whose context was loaded. -/
  loaded : List (BarKey × BuildContext)
  /-- Every row that was built. -/
  rows : List Bars1sPair

inductive CostEvent where
  /-- The refresher asks for the rows; the query may fail. -/
  | refresh (answer : Option (List FeeRow))
  | chainTick (nowMs : ℤ)
  /-- The fees for a bar are read, and later what the chain task noted; each read waits for its
  lock. -/
  | loadFees (key : BarKey)
  | loadChain (i : ℕ)
  /-- A row is built with the context that was loaded for it. -/
  | build (i : ℕ) (bucket : PairBucket) (stats : RollingStats) (opiReady : Bool)

namespace CostSystem

def start (defaults : ℤ × ℤ) (maxLen : ℕ) : CostSystem where
  fees := ⟨defaults, []⟩
  chain := ChainMetricsState.new maxLen
  reading := []
  loaded := []
  rows := []

def step (cfg : ChainConfig) (s : CostSystem) : CostEvent → Option CostSystem
  | .refresh none => some s
  | .refresh (some rows) => some { s with fees := { s.fees with rows := rows } }
  | .chainTick nowMs => some { s with chain := s.chain.tick cfg nowMs }
  | .loadFees key =>
    some { s with reading := s.reading ++ [(key, Pair.loadFees s.fees key.2.2)] }
  | .loadChain i =>
    s.reading[i]?.map fun bar =>
      { s with
        reading := s.reading.eraseIdx i
        loaded := s.loaded ++ [(bar.1, loadBuildContext bar.2 s.chain bar.1.2.2)] }
  | .build i bucket stats opiReady =>
    s.loaded[i]?.map fun bar =>
      { s with
        loaded := s.loaded.eraseIdx i
        rows := s.rows ++ [buildBarWithContext bar.1 bucket bar.2 stats opiReady] }

end CostSystem

def costMachine (cfg : ChainConfig) : Machine CostSystem CostEvent where
  init s := ∃ defaults maxLen, s = CostSystem.start defaults maxLen
  step := CostSystem.step cfg

/-! ## What the chain task notes -/

variable {cfg : ChainConfig}

/-- All that was noted is the configuration's. -/
structure ChainMetricsState.Fixed (cfg : ChainConfig) (st : ChainMetricsState) : Prop where
  fees : ∀ fee ∈ st.baseFeeValues, fee = cfg.baseFee
  costs : ∀ v ∈ st.txCostValues, v.2 = cfg.txCost

theorem ChainMetricsState.fixed_new (maxLen : ℕ) : (new maxLen).Fixed cfg :=
  ⟨fun _ h => (by cases h), fun _ h => (by cases h)⟩

theorem ChainMetricsState.Fixed.tick {st : ChainMetricsState} (h : st.Fixed cfg) (nowMs : ℤ) :
    (st.tick cfg nowMs).Fixed cfg := by
  constructor
  · intro fee hfee
    rcases List.mem_append.mp hfee with hold | hnew
    · apply h.fees
      split at hold
      · exact List.mem_of_mem_tail hold
      · exact hold
    · exact List.mem_singleton.mp hnew
  · intro v hv
    rcases List.mem_append.mp hv with hold | hnew
    · apply h.costs
      split at hold
      · exact List.mem_of_mem_tail hold
      · exact hold
    · rw [List.mem_singleton.mp hnew]

theorem ChainMetricsState.Fixed.p95BaseFee {st : ChainMetricsState} (h : st.Fixed cfg) :
    st.p95BaseFee.getD cfg.baseFee = cfg.baseFee := by
  unfold ChainMetricsState.p95BaseFee
  split
  · rfl
  · cases hstat : orderStat st.baseFeeValues (quantileIndex st.baseFeeValues.length 95) with
    | none => rfl
    | some fee => exact h.fees fee (mem_of_orderStat hstat)

theorem ChainMetricsState.Fixed.p90Recent {st : ChainMetricsState} (h : st.Fixed cfg)
    {sinceMs : ℤ} {cost : ℚ} (hcost : st.p90Recent sinceMs = some cost) : cost = cfg.txCost := by
  unfold ChainMetricsState.p90Recent at hcost
  obtain ⟨-, hstat⟩ := Option.ite_none_left_eq_some.mp hcost
  obtain ⟨v, hv, rfl⟩ := List.mem_map.mp (mem_of_orderStat hstat)
  exact h.costs v (List.mem_filter.mp hv).1

/-- The flag compares the base fee with itself. -/
theorem ChainMetricsState.Fixed.lastCongestionFlag {st : ChainMetricsState} (h : st.Fixed cfg)
    (nowMs : ℤ) : (st.tick cfg nowMs).lastCongestionFlag = if 0 < cfg.baseFee then 1 else 0 := by
  change (if 0 < st.p95BaseFee.getD cfg.baseFee ∧ st.p95BaseFee.getD cfg.baseFee ≤ cfg.baseFee
    then (1 : ℤ) else 0) = _
  rw [h.p95BaseFee]
  simp only [le_refl, and_true]

/-! ## Rows -/

/-- The row was priced after the chain task had noted the configuration's values. -/
structure PricedBy (cfg : ChainConfig) (row : Bars1sPair) : Prop where
  flag : row.networkCongestionFlag = if 0 < cfg.baseFee then 1 else 0
  gas : row.gasCost = none ∨ row.gasCost = some cfg.txCost
  score : 0 < cfg.baseFee → row.followScoreAdj = none ∨ row.followScoreAdj = some 0

/-- What the chain task noted into the context is the configuration's. -/
structure ContextPriced (cfg : ChainConfig) (ctx : BuildContext) : Prop where
  flag : ctx.congestionFlag = if 0 < cfg.baseFee then 1 else 0
  gas : ctx.gasCost = none ∨ ctx.gasCost = some cfg.txCost

theorem contextPriced_load {chain : ChainMetricsState} (hfixed : chain.Fixed cfg)
    (hflag : chain.lastCongestionFlag = if 0 < cfg.baseFee then 1 else 0) (feeBps : ℤ × ℤ)
    (barSecond : ℤ) : ContextPriced cfg (loadBuildContext feeBps chain barSecond) := by
  refine ⟨hflag, ?_⟩
  change chain.p90Recent (barSecond * 1000 - 10000) = none ∨
    chain.p90Recent (barSecond * 1000 - 10000) = some cfg.txCost
  cases hcost : chain.p90Recent (barSecond * 1000 - 10000) with
  | none => exact Or.inl rfl
  | some cost => exact Or.inr (congrArg some (hfixed.p90Recent hcost))

theorem ContextPriced.build {ctx : BuildContext} (h : ContextPriced cfg ctx) (key : BarKey)
    (bucket : PairBucket) (stats : RollingStats) (opiReady : Bool) :
    PricedBy cfg (buildBarWithContext key bucket ctx stats opiReady) := by
  refine ⟨h.flag, h.gas, ?_⟩
  intro hpos
  have hone : ctx.congestionFlag = 1 := h.flag.trans (if_pos hpos)
  simp only [buildBarWithContext, hone, if_true, sub_self, mul_zero]
  cases arbProximity _ _ with
  | none => exact Or.inl rfl
  | some arb => exact Or.inr rfl

namespace CostSystem

variable {s s' t : CostSystem} {e : CostEvent}

theorem fixed_of_reachable (h : (costMachine cfg).Reachable s) : s.chain.Fixed cfg := by
  apply (costMachine cfg).inv_of_reachable ?_ ?_ h
  · rintro _ ⟨defaults, maxLen, rfl⟩
    exact ChainMetricsState.fixed_new maxLen
  · intro s e s' hfixed hstep
    cases e with
    | refresh answer =>
      cases answer with
      | none =>
        cases hstep
        exact hfixed
      | some rows =>
        cases hstep
        exact hfixed
    | chainTick nowMs =>
      cases hstep
      exact hfixed.tick nowMs
    | loadFees key =>
      cases hstep
      exact hfixed
    | loadChain i =>
      obtain ⟨bar, -, rfl⟩ := Option.map_eq_some_iff.mp hstep
      exact hfixed
    | build i bucket stats opiReady =>
      obtain ⟨bar, -, rfl⟩ := Option.map_eq_some_iff.mp hstep
      exact hfixed

/-- The row was built from a context that was loaded in the state. -/
def BuiltFrom (t : CostSystem) (row : Bars1sPair) : Prop :=
  ∃ bar ∈ t.loaded, ∃ bucket stats opiReady,
    row = buildBarWithContext bar.1 bucket bar.2 stats opiReady

/-- Once the flag is noted, every context that is loaded is priced by it, and every row that is
built from one. -/
structure PricedAfter (cfg : ChainConfig) (t s : CostSystem) : Prop where
  fixed : s.chain.Fixed cfg
  flag : s.chain.lastCongestionFlag = if 0 < cfg.baseFee then 1 else 0
  loaded : ∀ bar ∈ s.loaded, bar ∈ t.loaded ∨ ContextPriced cfg bar.2
  rows : ∃ new, s.rows = t.rows ++ new ∧ ∀ row ∈ new, PricedBy cfg row ∨ t.BuiltFrom row

theorem PricedAfter.step (h : PricedAfter cfg t s) (hstep : s.step cfg e = some s') :
    PricedAfter cfg t s' := by
  cases e with
  | refresh answer =>
    cases answer with
    | none =>
      cases hstep
      exact h
    | some rows =>
      cases hstep
      exact ⟨h.fixed, h.flag, h.loaded, h.rows⟩
  | chainTick nowMs =>
    cases hstep
    exact ⟨h.fixed.tick nowMs, h.fixed.lastCongestionFlag nowMs, h.loaded, h.rows⟩
  | loadFees key =>
    cases hstep
    exact ⟨h.fixed, h.flag, h.loaded, h.rows⟩
  | loadChain i =>
    obtain ⟨bar, -, rfl⟩ := Option.map_eq_some_iff.mp hstep
    refine ⟨h.fixed, h.flag, ?_, h.rows⟩
    intro other hother
    rcases List.mem_append.mp hother with hold | hnew
    · exact h.loaded other hold
    · rw [List.mem_singleton.mp hnew]
      exact Or.inr (contextPriced_load h.fixed h.flag bar.2 bar.1.2.2)
  | build i bucket stats opiReady =>
    obtain ⟨bar, hbar, rfl⟩ := Option.map_eq_some_iff.mp hstep
    refine ⟨h.fixed, h.flag, ?_, ?_⟩
    · exact fun other hother => h.loaded other ((List.eraseIdx_sublist _ _).subset hother)
    · obtain ⟨new, hnew, hpriced⟩ := h.rows
      refine ⟨new ++ [buildBarWithContext bar.1 bucket bar.2 stats opiReady], ?_, ?_⟩
      · rw [← List.append_assoc, ← hnew]
      · intro row hrow
        rcases List.mem_append.mp hrow with hrow | hrow
        · exact hpriced row hrow
        · rw [List.mem_singleton.mp hrow]
          -- the context is an old one, or was loaded after the flag was noted
          rcases h.loaded bar (List.mem_of_getElem? hbar) with hold | hctx
          · exact Or.inr ⟨bar, hold, bucket, stats, opiReady, rfl⟩
          · exact Or.inl (hctx.build bar.1 bucket stats opiReady)

/-- After the first turn of the chain task, every row has the same congestion flag, no gas cost
but the configuration's, and, if the base fee is positive, no adjusted score but zero, unless its
context had been loaded by then. -/
theorem congestion_is_constant {nowMs : ℤ} {es : List CostEvent}
    (h : (costMachine cfg).Reachable s) (htick : s.step cfg (.chainTick nowMs) = some t)
    (hr : (costMachine cfg).run t es = some s') :
    ∃ new, s'.rows = t.rows ++ new ∧ ∀ row ∈ new, PricedBy cfg row ∨ t.BuiltFrom row := by
  have hfixed := fixed_of_reachable h
  have hstart : PricedAfter cfg t t := by
    cases htick
    exact ⟨hfixed.tick nowMs, hfixed.lastCongestionFlag nowMs, fun _ hbar => Or.inl hbar, [],
      (List.append_nil _).symm, fun _ hrow => (by cases hrow)⟩
  have hall : PricedAfter cfg t s' :=
    (costMachine cfg).inv_of_runMeets (PricedAfter cfg t)
      (fun _ _ _ hbefore _ hstep => PricedAfter.step hbefore hstep) hstart
      ((costMachine cfg).runMeets_trivial t es) hr
  exact hall.rows

/-- A row whose fees were read before the first turn of the chain task and which is built after the
second. -/
theorem congestion_is_constant_two :
    ∃ s' new, (costMachine ⟨3, 1, 2⟩).run
        { start (0, 0) 10 with
          chain := (ChainMetricsState.new 10).tick ⟨3, 1, 2⟩ 1000
          reading := [((7, .yes, 9), (0, 0))] }
        [.loadChain 0, .chainTick 6000, .build 0 ⟨some pmSecond, some opiSecond⟩
          ⟨none, none, none, none, 0, none, none, none⟩ true] = some s' ∧
      s'.rows = new ∧
      new.map (fun row => (row.networkCongestionFlag, row.gasCost, row.followScoreAdj)) =
        [(1, some 8, some 0)] ∧
      ∀ row ∈ new, PricedBy ⟨3, 1, 2⟩ row := by
  obtain ⟨new, hnew, hpriced⟩ := @congestion_is_constant ⟨3, 1, 2⟩
    { start (0, 0) 10 with reading := [((7, .yes, 9), (0, 0))] } _ _ 1000
    [.loadChain 0, .chainTick 6000, .build 0 ⟨some pmSecond, some opiSecond⟩
      ⟨none, none, none, none, 0, none, none, none⟩ true]
    ⟨start (0, 0) 10, [.loadFees (7, .yes, 9)], ⟨(0, 0), 10, rfl⟩, rfl⟩ rfl rfl
  refine ⟨_, new, rfl, hnew, ?_, fun row hrow => (hpriced row hrow).resolve_right ?_⟩
  · rw [← hnew.trans (List.nil_append new)]
    decide +kernel
  · -- no context had been loaded by then
    rintro ⟨bar, hbar, -⟩
    cases hbar

end CostSystem

end AlphaMonitor.Pair
