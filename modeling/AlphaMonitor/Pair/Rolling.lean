import AlphaMonitor.Lib.Samples
import AlphaMonitor.Pair.Responses
import AlphaMonitor.Pair.RollingStats
import AlphaMonitor.Pair.TimeOrder

/-!
# The rolling columns of the rows

The aggregator and the flush worker build the rows of a pair one after another, each under the
lock of the state, and every row moves the pair's rolling statistics on.  The statistics are
bounded windows that are fed row by row.

## Main definitions

- `PairStats.next`: what one row does to the statistics, and what it gets from them
- `rollMachine`: aggregator and worker with the statistics
- `rollingOf`: the rolling columns, computed from the pair's rows alone

## Main results

- `rolling_columns_of_rows`: every row can be recomputed from the rows before it
- `lag_is_first_best`: the lag of a row is the first of the best among those rows' returns
-/

namespace AlphaMonitor.Pair

open AlphaMonitor.Lib

/-! ## Windows -/

/-- `trim_returns`. -/
def trimReturns {α : Type*} (values : List α) (maxLen : ℕ) : List α :=
  values.drop (values.length - maxLen)

/-- `push_window`. -/
def pushWindow {α : Type*} (values : List α) (value : α) (maxLen : ℕ) : List α :=
  (if values.length ≥ maxLen then values.tail else values) ++ [value]

/-- `sum_window`. -/
def sumWindow (values : List ℚ) : Option ℚ := if values = [] then none else some (sumF64 values)

theorem trimReturns_concat {α : Type*} (log : List α) (value : α) (maxLen : ℕ) :
    trimReturns (log.rtake maxLen ++ [value]) maxLen = (log ++ [value]).rtake maxLen :=
  keepLast_rtake maxLen log value

theorem pushWindow_rtake {α : Type*} (log : List α) (value : α) {maxLen : ℕ} (hpos : 0 < maxLen) :
    pushWindow (log.rtake maxLen) value maxLen = (log ++ [value]).rtake maxLen := by
  rw [← keepLast_rtake, keepLast, pushWindow]
  have hlen : (log.rtake maxLen).length ≤ maxLen := by
    rw [length_rtake]
    exact Nat.min_le_left _ _
  generalize log.rtake maxLen = window at hlen
  rw [List.rtake, List.length_append, List.length_singleton]
  split
  · have hfull : window.length + 1 - maxLen = 1 := by omega
    rw [hfull, List.drop_append_of_le_length (by omega), List.drop_one]
  · rw [Nat.sub_eq_zero_of_le (by omega), List.drop_zero]

/-! ## Statistics of a pair -/

structure PairStats where
  (lastPmMid lastOpiPrice : Option ℚ)
  returns : List ReturnPoint
  (pmBuyHist pmSellHist pmCvdHist : List ℚ)
  lastLagS : Option ℤ
  lastLagConfidence : Option ℚ

def PairStats.empty : PairStats := ⟨none, none, [], [], [], [], none, none⟩

variable (math : StatMath)

/-- The rolling part of `build_bar_with_context`; `pmCvd` is the flow of the Polymarket half. -/
def PairStats.next (order : MapOrder) (stats : PairStats) (barSecond : ℤ) (bucket : PairBucket)
    (pmCvd : ℚ) : PairStats × RollingStats :=
  let raw := rawColumns bucket.pm bucket.opi
  let pmMid := raw.polyMidState
  let opiPriceSignal := raw.opiLastPrice.or raw.opiMidState
  let returns := trimReturns (stats.returns ++ [{
    barSecond := barSecond
    pmRet := logReturn math pmMid stats.lastPmMid
    opiRet := logReturn math opiPriceSignal stats.lastOpiPrice }]) 600
  -- only a Polymarket half without gap and staleness moves the flow windows on
  let clean := bucket.pm.filter fun v => !v.barGapFlag && !v.barStaleFlag
  let pmBuyHist := match clean with
    | some v => pushWindow stats.pmBuyHist v.buyNotional1s 30
    | none => stats.pmBuyHist
  let pmSellHist := match clean with
    | some v => pushWindow stats.pmSellHist v.sellNotional1s 30
    | none => stats.pmSellHist
  let pmCvdHist := match clean with
    | some _ => pushWindow stats.pmCvdHist pmCvd 30
    | none => stats.pmCvdHist
  let corrBeta := computeCorrBeta math returns
  let lag := estimateLag math order returns 60
  ({ lastPmMid := pmMid.or stats.lastPmMid
     lastOpiPrice := opiPriceSignal.or stats.lastOpiPrice
     returns := returns
     pmBuyHist := pmBuyHist
     pmSellHist := pmSellHist
     pmCvdHist := pmCvdHist
     lastLagS := lag.1
     lastLagConfidence := lag.2 },
   { polyCvd30s := sumWindow pmCvdHist
     buy30 := sumWindow pmBuyHist
     sell30 := sumWindow pmSellHist
     rollingCorr5m := corrBeta.1
     corrSamples5m := corrBeta.2.2
     beta1m := corrBeta.2.1
     estimatedLagS := lag.1
     lagConfidence := lag.2 })

/-! ## The machine -/

/-- What the environment supplies when a row is built. -/
structure RollInputs where
  ctx : BuildContext
  opiReady : Bool
  order : MapOrder

/-- The events of `emitMachine`; the statistics are no input any more. -/
inductive RollEvent where
  | tokenBar (input : HistoryBar)
  | buildReady (env : RollInputs)
  | tick (barSecond : ℤ) (opiReady : Bool) (clock : ℕ)
  | drain (clock : ℕ)
  | build (env : RollInputs)
  | send (task : EmitTask) (taken : Bool)

structure RollSystem where
  emit : EmitSystem
  stats : PairKey → PairStats
  /-- The flow of the Polymarket half that came last for a key. -/
  pmCvd : BarKey → ℚ

namespace RollSystem

def start (lateArrivalBufferS : ℤ) : RollSystem where
  emit := EmitSystem.start lateArrivalBufferS
  stats := fun _ => PairStats.empty
  pmCvd := fun _ => 0

/-- Build a bucket: the pair's statistics move on, and the row gets its columns from them. -/
def roll (s : RollSystem) (env : RollInputs) (key : BarKey) (bucket : PairBucket) :
    RollSystem × BuildInputs :=
  let rolled := (s.stats (lane key)).next math env.order key.2.2 bucket (s.pmCvd key)
  ({ s with stats := Function.update s.stats (lane key) rolled.1 },
    ⟨env.ctx, rolled.2, env.opiReady⟩)

/-- A step of the tasks below the statistics. -/
def lift (captureEnabled : Bool) (s : RollSystem) (e : EmitEvent) : Option RollSystem :=
  (s.emit.step captureEnabled e).map fun emit => { s with emit := emit }

/-- One step of one task. -/
def step (captureEnabled : Bool) (s : RollSystem) : RollEvent → Option RollSystem
  | .tokenBar input =>
    let pmCvd := match input.venue with
      | .polymarket => Function.update s.pmCvd input.key input.cvdDelta1s
      | .opinion => s.pmCvd
    lift captureEnabled { s with pmCvd := pmCvd } (.tokenBar input.toPairInput)
  | .buildReady env =>
    match s.emit.ready with
    | some (key, bucket) =>
      let (s', inputs) := s.roll math env key bucket
      s'.lift captureEnabled (.buildReady inputs)
    | none => none
  | .tick barSecond opiReady clock => s.lift captureEnabled (.tick barSecond opiReady clock)
  | .drain clock => s.lift captureEnabled (.drain clock)
  | .build env =>
    match s.emit.drained with
    | [] => none
    | key :: _ =>
      match s.emit.agg.buckets.lookup key with
      | none =>
        -- no bucket, so no row: the statistics stay
        s.lift captureEnabled
          (.build ⟨env.ctx, ⟨none, none, none, none, 0, none, none, none⟩, env.opiReady⟩)
      | some bucket =>
        let (s', inputs) := s.roll math env key bucket
        s'.lift captureEnabled (.build inputs)
  | .send task taken => s.lift captureEnabled (.send task taken)

end RollSystem

def rollMachine (captureEnabled : Bool) : Machine RollSystem RollEvent where
  init s := ∃ lateArrivalBufferS, s = RollSystem.start lateArrivalBufferS
  step := RollSystem.step math captureEnabled

/-! ## Recomputing the columns from the rows -/

/-- The newest value of a column that is not empty. -/
def lastPresent (f : Bars1sPair → Option ℚ) (rows : List Bars1sPair) : Option ℚ :=
  (rows.filterMap f).getLast?

/-- The price by which Opinion's returns are taken. -/
def opiPriceSignal (row : Bars1sPair) : Option ℚ := row.opiLastPrice.or row.opiMidState

/-- The returns of a row after the rows before it. -/
def returnPoint (before : List Bars1sPair) (row : Bars1sPair) : ReturnPoint where
  barSecond := row.barSecond
  pmRet := logReturn math row.polyMidState (lastPresent (·.polyMidState) before)
  opiRet := logReturn math (opiPriceSignal row) (lastPresent opiPriceSignal before)

/-- The returns of rows that were built after others. -/
def returnsAfter (before : List Bars1sPair) : List Bars1sPair → List ReturnPoint
  | [] => []
  | row :: rest => returnPoint math before row :: returnsAfter (before ++ [row]) rest

/-- The returns of rows in the order of building. -/
def returnsOf (rows : List Bars1sPair) : List ReturnPoint := returnsAfter math [] rows

/-- A row whose Polymarket half is there, without a gap and not stale. -/
def CleanPoly (row : Bars1sPair) : Prop := row.polyBarGapFlag = 0 ∧ row.polyBarStaleFlag = 0

instance (row : Bars1sPair) : Decidable (CleanPoly row) :=
  inferInstanceAs (Decidable (row.polyBarGapFlag = 0 ∧ row.polyBarStaleFlag = 0))

/-- A flow column of the last thirty clean rows. -/
def flowOf (f : Bars1sPair → Option ℚ) (rows : List Bars1sPair) : List ℚ :=
  ((rows.filter CleanPoly).filterMap f).rtake 30

/-- The rolling columns of a row, but for the flow, whose seconds the rows do not have. -/
structure RowRolling where
  (rollingCorr5m beta1m : Option ℚ)
  rollingCorrSamples5m : Option ℤ
  estimatedLagS : Option ℤ
  (lagConfidence polyBuySellRatio30s : Option ℚ)
  deriving DecidableEq, Repr

def rollingColumns (row : Bars1sPair) : RowRolling where
  rollingCorr5m := row.rollingCorr5m
  beta1m := row.beta1m
  rollingCorrSamples5m := row.rollingCorrSamples5m
  estimatedLagS := row.estimatedLagS
  lagConfidence := row.lagConfidence
  polyBuySellRatio30s := row.polyBuySellRatio30s

/-- The rolling columns of the last of these rows of a pair, when the map hands out its entries in
this order. -/
def rollingOf (order : MapOrder) (rows : List Bars1sPair) : RowRolling :=
  let corrBeta := computeCorrBeta math (returnsOf math rows)
  let lag := estimateLag math order (returnsOf math rows) 60
  { rollingCorr5m := corrBeta.1
    beta1m := corrBeta.2.1
    rollingCorrSamples5m := some corrBeta.2.2
    estimatedLagS := lag.1
    lagConfidence := lag.2
    polyBuySellRatio30s :=
      match sumWindow (flowOf (·.polyBuyNotional1s) rows),
        sumWindow (flowOf (·.polySellNotional1s) rows) with
      | some buy, some sell => if sell > 0 then some (buy / sell) else none
      | _, _ => none }

/-- The rows of a pair. -/
def rowsOf (key : PairKey) (rows : List Bars1sPair) : List Bars1sPair :=
  rows.filter fun row => lane row.key = key

/-! ## One more row -/

theorem lastPresent_concat (f : Bars1sPair → Option ℚ) (rows : List Bars1sPair)
    (row : Bars1sPair) : lastPresent f (rows ++ [row]) = (f row).or (lastPresent f rows) := by
  unfold lastPresent
  rw [List.filterMap_append]
  cases hrow : f row with
  | none =>
    rw [List.filterMap_cons_none hrow, List.filterMap_nil, List.append_nil]
    rfl
  | some v =>
    rw [List.filterMap_cons_some hrow, List.filterMap_nil, List.getLast?_concat]
    rfl

theorem returnsAfter_concat (before rows : List Bars1sPair) (row : Bars1sPair) :
    returnsAfter math before (rows ++ [row]) =
      returnsAfter math before rows ++ [returnPoint math (before ++ rows) row] := by
  induction rows generalizing before with
  | nil => rw [List.append_nil]; rfl
  | cons first rest ih =>
    rw [List.cons_append, returnsAfter, ih, List.append_assoc, List.singleton_append]
    rfl

theorem returnsOf_concat (rows : List Bars1sPair) (row : Bars1sPair) :
    returnsOf math (rows ++ [row]) = returnsOf math rows ++ [returnPoint math rows row] :=
  returnsAfter_concat math [] rows row

theorem flowOf_concat_clean {f : Bars1sPair → Option ℚ} (rows : List Bars1sPair)
    {row : Bars1sPair} {v : ℚ} (hclean : CleanPoly row) (hv : f row = some v) :
    flowOf f (rows ++ [row]) = pushWindow (flowOf f rows) v 30 := by
  have hrow : [row].filter CleanPoly = [row] := by simp [hclean]
  rw [flowOf, flowOf, pushWindow_rtake _ _ (by omega), List.filter_append, List.filterMap_append,
    hrow, List.filterMap_cons_some hv, List.filterMap_nil]

theorem flowOf_concat_unclean {f : Bars1sPair → Option ℚ} (rows : List Bars1sPair)
    {row : Bars1sPair} (hunclean : ¬CleanPoly row) : flowOf f (rows ++ [row]) = flowOf f rows := by
  have hrow : [row].filter CleanPoly = [] := by simp [hunclean]
  rw [flowOf, flowOf, List.filter_append, hrow, List.append_nil]

theorem rowsOf_concat_self {key : PairKey} (rows : List Bars1sPair) {row : Bars1sPair}
    (h : lane row.key = key) : rowsOf key (rows ++ [row]) = rowsOf key rows ++ [row] := by
  simp [rowsOf, List.filter_append, h]

theorem rowsOf_concat_other {key : PairKey} (rows : List Bars1sPair) {row : Bars1sPair}
    (h : lane row.key ≠ key) : rowsOf key (rows ++ [row]) = rowsOf key rows := by
  simp [rowsOf, List.filter_append, h]

/-! ## The statistics hold the windows of the rows -/

/-- The statistics of a pair whose rows were these. -/
structure PairStats.Of (rows : List Bars1sPair) (stats : PairStats) : Prop where
  mid : stats.lastPmMid = lastPresent (·.polyMidState) rows
  price : stats.lastOpiPrice = lastPresent opiPriceSignal rows
  returns : stats.returns = (returnsOf math rows).rtake 600
  buys : stats.pmBuyHist = flowOf (·.polyBuyNotional1s) rows
  sells : stats.pmSellHist = flowOf (·.polySellNotional1s) rows

theorem PairStats.of_empty : PairStats.Of math [] PairStats.empty :=
  ⟨rfl, rfl, (List.rtake_nil 600).symm, (List.rtake_nil 30).symm, (List.rtake_nil 30).symm⟩

variable {math}

/-- The half's flags and the row's. -/
theorem cleanPoly_iff {key : BarKey} {bucket : PairBucket} {ctx : BuildContext}
    {stats : RollingStats} {opiReady : Bool} :
    CleanPoly (buildBarWithContext key bucket ctx stats opiReady) ↔
      ∃ v, bucket.pm = some v ∧ v.barGapFlag = false ∧ v.barStaleFlag = false := by
  have hgap : (buildBarWithContext key bucket ctx stats opiReady).polyBarGapFlag =
      flag ((bucket.pm.map (·.barGapFlag)).getD true) := rfl
  have hstale : (buildBarWithContext key bucket ctx stats opiReady).polyBarStaleFlag =
      flag ((bucket.pm.map (·.barStaleFlag)).getD false) := rfl
  rw [CleanPoly, hgap, hstale]
  cases hpm : bucket.pm with
  | none => simp [flag]
  | some v => cases hgap : v.barGapFlag <;> cases hstale : v.barStaleFlag <;> simp [flag, hgap, hstale]

variable {rows : List Bars1sPair} {stats : PairStats} {order : MapOrder} {key : BarKey}
  {bucket : PairBucket} {pmCvd : ℚ} {ctx : BuildContext} {opiReady : Bool}

/-- A flow window after one more row. -/
theorem flow_next {row : Bars1sPair} {f : Bars1sPair → Option ℚ} {g : PairInput → ℚ}
    (hclean : CleanPoly row ↔
      ∃ v, bucket.pm = some v ∧ v.barGapFlag = false ∧ v.barStaleFlag = false)
    (hf : f row = bucket.pm.map g) :
    (match bucket.pm.filter fun v => !v.barGapFlag && !v.barStaleFlag with
      | some v => pushWindow (flowOf f rows) (g v) 30
      | none => flowOf f rows) = flowOf f (rows ++ [row]) := by
  cases hfilter : bucket.pm.filter fun v => !v.barGapFlag && !v.barStaleFlag with
  | none =>
    have hunclean : ¬CleanPoly row := by
      intro hyes
      obtain ⟨v, hpm, hgap, hstale⟩ := hclean.mp hyes
      simp [hpm, hgap, hstale] at hfilter
    exact (flowOf_concat_unclean rows hunclean).symm
  | some v =>
    obtain ⟨hpm, hflags⟩ := Option.filter_eq_some_iff.mp hfilter
    rw [Bool.and_eq_true, Bool.not_eq_true', Bool.not_eq_true'] at hflags
    rw [hpm] at hf
    exact (flowOf_concat_clean rows (hclean.mpr ⟨v, hpm, hflags⟩) hf).symm

/-- One more row of the pair. -/
theorem PairStats.Of.next (h : PairStats.Of math rows stats) :
    PairStats.Of math
      (rows ++ [buildBarWithContext key bucket ctx (stats.next math order key.2.2 bucket pmCvd).2
        opiReady])
      (stats.next math order key.2.2 bucket pmCvd).1 := by
  generalize hrow : buildBarWithContext key bucket ctx
    (stats.next math order key.2.2 bucket pmCvd).2 opiReady = row
  have hraw : row.toRawColumns = rawColumns bucket.pm bucket.opi := by
    rw [← hrow]
    rfl
  have hsecond : row.barSecond = key.2.2 := by
    rw [← hrow]
    rfl
  have hclean : CleanPoly row ↔
      ∃ v, bucket.pm = some v ∧ v.barGapFlag = false ∧ v.barStaleFlag = false := by
    rw [← hrow]
    exact cleanPoly_iff
  have hsignal : opiPriceSignal row = (rawColumns bucket.pm bucket.opi).opiLastPrice.or
      (rawColumns bucket.pm bucket.opi).opiMidState := by
    rw [opiPriceSignal, hraw]
  constructor
  · rw [lastPresent_concat, hraw, ← h.mid]
    rfl
  · rw [lastPresent_concat, hsignal, ← h.price]
    rfl
  · have hpoint : returnPoint math rows row = {
        barSecond := key.2.2
        pmRet := logReturn math (rawColumns bucket.pm bucket.opi).polyMidState stats.lastPmMid
        opiRet := logReturn math ((rawColumns bucket.pm bucket.opi).opiLastPrice.or
          (rawColumns bucket.pm bucket.opi).opiMidState) stats.lastOpiPrice } := by
      rw [returnPoint, hsecond, hsignal, hraw, h.mid, h.price]
    rw [returnsOf_concat, ← trimReturns_concat, ← h.returns, hpoint]
    simp only [PairStats.next]
  · simp only [PairStats.next, h.buys]
    exact flow_next hclean (by rw [hraw]; rfl)
  · simp only [PairStats.next, h.sells]
    exact flow_next hclean (by rw [hraw]; rfl)

theorem computeCorrBeta_rtake (values : List ReturnPoint) :
    computeCorrBeta math (values.rtake 600) = computeCorrBeta math values := by
  simp only [computeCorrBeta, List.rtake_eq_reverse_take_reverse, List.reverse_reverse,
    List.take_take]
  rfl

theorem estimateLag_rtake (order : MapOrder) (values : List ReturnPoint) (maxShift : ℤ) :
    estimateLag math order (values.rtake 600) maxShift =
      estimateLag math order values maxShift := by
  have hmap : ∀ ret : ReturnPoint → Option ℚ,
      returnMap ret (values.rtake 600) = returnMap ret values := by
    intro ret
    simp only [returnMap, List.rtake_eq_reverse_take_reverse, List.reverse_reverse,
      List.take_take, Nat.min_self]
  have hcorr : lagCorr math order (values.rtake 600) = lagCorr math order values := by
    funext shift
    simp only [lagCorr, hmap]
  simp only [estimateLag, hcorr]

/-- The row's own columns. -/
theorem rollingColumns_build (rolling : RollingStats) :
    rollingColumns (buildBarWithContext key bucket ctx rolling opiReady) =
      { rollingCorr5m := rolling.rollingCorr5m
        beta1m := rolling.beta1m
        rollingCorrSamples5m := some rolling.corrSamples5m
        estimatedLagS := rolling.estimatedLagS
        lagConfidence := rolling.lagConfidence
        polyBuySellRatio30s :=
          match rolling.buy30, rolling.sell30 with
          | some buy, some sell => if sell > 0 then some (buy / sell) else none
          | _, _ => none } :=
  rfl

theorem PairStats.Of.columns (h : PairStats.Of math rows stats) :
    rollingColumns (buildBarWithContext key bucket ctx
        (stats.next math order key.2.2 bucket pmCvd).2 opiReady) =
      rollingOf math order (rows ++ [buildBarWithContext key bucket ctx
        (stats.next math order key.2.2 bucket pmCvd).2 opiReady]) := by
  have hnext := @PairStats.Of.next math rows stats order key bucket pmCvd ctx opiReady h
  generalize hrow : buildBarWithContext key bucket ctx
    (stats.next math order key.2.2 bucket pmCvd).2 opiReady = row at hnext
  have hcolumns : rollingColumns row =
      let after := (stats.next math order key.2.2 bucket pmCvd).1
      { rollingCorr5m := (computeCorrBeta math after.returns).1
        beta1m := (computeCorrBeta math after.returns).2.1
        rollingCorrSamples5m := some ((computeCorrBeta math after.returns).2.2 : ℤ)
        estimatedLagS := (estimateLag math order after.returns 60).1
        lagConfidence := (estimateLag math order after.returns 60).2
        polyBuySellRatio30s :=
          match sumWindow after.pmBuyHist, sumWindow after.pmSellHist with
          | some buy, some sell => if sell > 0 then some (buy / sell) else none
          | _, _ => none } := by
    rw [← hrow, rollingColumns_build]
    simp only [PairStats.next]
  rw [hcolumns]
  simp only [hnext.returns, hnext.buys, hnext.sells, computeCorrBeta_rtake, estimateLag_rtake,
    rollingOf]

/-! ## Runs -/

/-- The bucket of which an event builds a row. -/
def EmitSystem.Builds (t : EmitSystem) (key : BarKey) (bucket : PairBucket) : EmitEvent → Prop
  | .buildReady _ => t.ready = some (key, bucket)
  | .build _ => t.drained.head? = some key ∧ t.agg.buckets.lookup key = some bucket
  | _ => False

/-- Only a bucket that is built adds a row. -/
theorem EmitSystem.built_of_step {captureEnabled : Bool} {t t' : EmitSystem} {a : EmitEvent}
    (h : t.step captureEnabled a = some t') :
    (t'.built = t.built ∧ ∀ key bucket, ¬t.Builds key bucket a) ∨
    ∃ (env : BuildInputs) (key : BarKey) (bucket : PairBucket), t.Builds key bucket a ∧
      (a = .buildReady env ∨ a = .build env) ∧
      t'.built = t.built ++ [buildBarWithContext key bucket env.ctx env.stats env.opiReady] := by
  cases a with
  | tokenBar input =>
    obtain ⟨-, hemit⟩ := Option.ite_none_right_eq_some.mp h
    cases hemit
    exact Or.inl ⟨rfl, fun _ _ => id⟩
  | buildReady env =>
    simp only [step] at h
    split at h
    · rename_i key bucket hready
      cases h
      exact Or.inr ⟨env, key, bucket, hready, Or.inl rfl, rfl⟩
    · cases h
  | tick barSecond opiReady clock =>
    obtain ⟨-, hemit⟩ := Option.ite_none_right_eq_some.mp h
    cases hemit
    exact Or.inl ⟨rfl, fun _ _ => id⟩
  | drain clock =>
    obtain ⟨-, hemit⟩ := Option.ite_none_right_eq_some.mp h
    cases hemit
    exact Or.inl ⟨rfl, fun _ _ => id⟩
  | build env =>
    simp only [step] at h
    split at h
    · rename_i key rest hdrained hidle
      split at h
      · rename_i hnone
        cases h
        refine Or.inl ⟨rfl, fun other bucket hbuilds => ?_⟩
        have hhead := hbuilds.1
        rw [hdrained, List.head?_cons, Option.some.injEq] at hhead
        rw [← hhead] at hbuilds
        exact absurd (hnone.symm.trans hbuilds.2) (Option.some_ne_none bucket).symm
      · rename_i bucket hbucket
        cases h
        refine Or.inr ⟨env, key, bucket, ⟨?_, hbucket⟩, Or.inr rfl, rfl⟩
        rw [hdrained]
        rfl
    · cases h
  | send task taken =>
    simp only [step] at h
    split at h
    · cases h
    · cases h
      exact Or.inl ⟨rfl, fun _ _ => id⟩
    · cases h
      exact Or.inl ⟨rfl, fun _ _ => id⟩

namespace RollSystem

variable {captureEnabled : Bool} {s s' : RollSystem} {e : RollEvent}

theorem of_lift {t t' : RollSystem} {a : EmitEvent} (h : t.lift captureEnabled a = some t') :
    t.emit.step captureEnabled a = some t'.emit ∧ t'.stats = t.stats := by
  obtain ⟨emit, hstep, rfl⟩ := Option.map_eq_some_iff.mp h
  exact ⟨hstep, rfl⟩

theorem built_of_lift {t t' : RollSystem} {a : EmitEvent} (h : t.lift captureEnabled a = some t')
    (hnone : ∀ key bucket, ¬t.emit.Builds key bucket a) :
    t'.emit.built = t.emit.built ∧ t'.stats = t.stats := by
  obtain ⟨hstep, hstats⟩ := of_lift h
  rcases EmitSystem.built_of_step hstep with ⟨hbuilt, -⟩ | ⟨env, key, bucket, hbuilds, -⟩
  · exact ⟨hbuilt, hstats⟩
  · exact absurd hbuilds (hnone key bucket)

/-- The row of a bucket, with the columns that the pair's statistics give it. -/
def rolledRow (math : StatMath) (s : RollSystem) (env : RollInputs) (key : BarKey)
    (bucket : PairBucket) : Bars1sPair :=
  buildBarWithContext key bucket env.ctx
    ((s.stats (lane key)).next math env.order key.2.2 bucket (s.pmCvd key)).2 env.opiReady

theorem built_of_roll {env : RollInputs} {key : BarKey} {bucket : PairBucket} {a : EmitEvent}
    (ha : a = .buildReady (s.roll math env key bucket).2 ∨
      a = .build (s.roll math env key bucket).2)
    (hbuilds : s.emit.Builds key bucket a)
    (h : (s.roll math env key bucket).1.lift captureEnabled a = some s') :
    s'.emit.built = s.emit.built ++ [s.rolledRow math env key bucket] ∧
      s'.stats = Function.update s.stats (lane key)
        ((s.stats (lane key)).next math env.order key.2.2 bucket (s.pmCvd key)).1 := by
  obtain ⟨hstep, hstats⟩ := of_lift h
  rcases EmitSystem.built_of_step hstep with ⟨-, hnone⟩ |
    ⟨inputs, key', bucket', hbuilds', ha', hbuilt⟩
  · exact absurd hbuilds (hnone key bucket)
  · -- there is one bucket that the event can build
    have hsame : key' = key ∧ bucket' = bucket ∧ (s.roll math env key bucket).2 = inputs := by
      rcases ha with rfl | rfl
      · obtain ⟨rfl, rfl⟩ := Prod.mk.inj (Option.some.inj (hbuilds.symm.trans hbuilds'))
        exact ⟨rfl, rfl, by simpa using ha'⟩
      · obtain rfl := Option.some.inj (hbuilds.1.symm.trans hbuilds'.1)
        obtain rfl := Option.some.inj (hbuilds.2.symm.trans hbuilds'.2)
        exact ⟨rfl, rfl, by simpa using ha'⟩
    obtain ⟨rfl, rfl, rfl⟩ := hsame
    exact ⟨hbuilt, hstats⟩

/-- A step builds no row and leaves the statistics, or it builds one and moves its pair's on. -/
theorem step_cases (h : s.step math captureEnabled e = some s') :
    (s'.emit.built = s.emit.built ∧ s'.stats = s.stats) ∨
    ∃ (env : RollInputs) (key : BarKey) (bucket : PairBucket),
      s'.emit.built = s.emit.built ++ [s.rolledRow math env key bucket] ∧
      s'.stats = Function.update s.stats (lane key)
        ((s.stats (lane key)).next math env.order key.2.2 bucket (s.pmCvd key)).1 := by
  cases e with
  | tokenBar input =>
    refine Or.inl (built_of_lift (a := .tokenBar input.toPairInput) (t := { s with
      pmCvd := match input.venue with
        | .polymarket => Function.update s.pmCvd input.key input.cvdDelta1s
        | .opinion => s.pmCvd }) h ?_)
    exact fun _ _ => id
  | buildReady env =>
    simp only [step] at h
    split at h
    · rename_i key bucket hready
      exact Or.inr ⟨env, key, bucket, built_of_roll (Or.inl rfl) hready h⟩
    · cases h
  | tick barSecond opiReady clock => exact Or.inl (built_of_lift h fun _ _ => id)
  | drain clock => exact Or.inl (built_of_lift h fun _ _ => id)
  | build env =>
    simp only [step] at h
    split at h
    · cases h
    · rename_i key rest hdrained
      have hhead : s.emit.drained.head? = some key := by
        rw [hdrained]
        rfl
      split at h
      · rename_i hnone
        refine Or.inl (built_of_lift h fun other bucket hbuilds => ?_)
        have hother : key = other := Option.some.inj (hhead.symm.trans hbuilds.1)
        rw [hother] at hnone
        exact absurd (hnone.symm.trans hbuilds.2) (Option.some_ne_none bucket).symm
      · rename_i bucket hbucket
        exact Or.inr ⟨env, key, bucket, built_of_roll (Or.inr rfl) ⟨hhead, hbucket⟩ h⟩
  | send task taken => exact Or.inl (built_of_lift h fun _ _ => id)

/-- The statistics of every pair are those of its rows, and every row has the columns of its
place among them. -/
structure Rolled (math : StatMath) (s : RollSystem) : Prop where
  stats : ∀ key, PairStats.Of math (rowsOf key s.emit.built) (s.stats key)
  columns : ∀ before row after, s.emit.built = before ++ row :: after →
    ∃ order, rollingColumns row = rollingOf math order (rowsOf (lane row.key) before ++ [row])

theorem rolled_start (lateArrivalBufferS : ℤ) : Rolled math (start lateArrivalBufferS) where
  stats _ := PairStats.of_empty math
  columns _ _ _ hbuilt := absurd (congrArg List.length hbuilt) (by simp [start, EmitSystem.start])

theorem Rolled.step (hrolled : Rolled math s) (h : s.step math captureEnabled e = some s') :
    Rolled math s' := by
  rcases step_cases h with ⟨hbuilt, hstats⟩ | ⟨env, key, bucket, hbuilt, hstats⟩
  · constructor
    · rw [hbuilt, hstats]
      exact hrolled.stats
    · rw [hbuilt]
      exact hrolled.columns
  · have hlane : lane (s.rolledRow math env key bucket).key = lane key := by
      rw [rolledRow, buildBarWithContext_key]
    constructor
    · intro other
      rw [hbuilt, hstats]
      by_cases hother : lane key = other
      · -- the pair whose row it is
        subst hother
        rw [Function.update_self, rowsOf_concat_self _ hlane]
        exact (hrolled.stats (lane key)).next
      · rw [Function.update_of_ne (Ne.symm hother),
          rowsOf_concat_other _ (fun hsame => hother (hlane.symm.trans hsame))]
        exact hrolled.stats other
    · intro before row after hsplit
      rw [hbuilt] at hsplit
      rcases List.eq_nil_or_concat after with rfl | ⟨after', last, rfl⟩
      · -- the new row
        obtain ⟨rfl, hrow⟩ := List.append_inj' hsplit rfl
        obtain rfl := (List.cons.inj hrow).1
        rw [hlane]
        exact ⟨env.order, (hrolled.stats (lane key)).columns⟩
      · rw [List.concat_eq_append, ← List.cons_append, ← List.append_assoc] at hsplit
        obtain ⟨hold, -⟩ := List.append_inj' hsplit rfl
        exact hrolled.columns before row after' hold

theorem rolled_of_reachable (h : (rollMachine math captureEnabled).Reachable s) :
    Rolled math s := by
  apply (rollMachine math captureEnabled).inv_of_reachable ?_ ?_ h
  · rintro _ ⟨lateArrivalBufferS, rfl⟩
    exact rolled_start lateArrivalBufferS
  · intro s e s' hbefore hstep
    exact hbefore.step hstep

/-- In every order of the tasks' steps, the rolling columns of a row are those that the rows of
the pair give that were built before it, with the map in the order it had. -/
theorem rolling_columns_of_rows (h : (rollMachine math captureEnabled).Reachable s)
    {before after : List Bars1sPair} {row : Bars1sPair}
    (hrow : s.emit.built = before ++ row :: after) :
    ∃ order, rollingColumns row =
      rollingOf math order (rowsOf (lane row.key) before ++ [row]) :=
  (rolled_of_reachable h).columns before row after hrow

/-- Two complete seconds with the same prices. -/
def twoSeconds : List RollEvent :=
  let env : RollInputs := ⟨noContext.ctx, true, MapOrder.inserted⟩
  [.tokenBar ⟨pmSecond, none, 0, 0⟩, .tokenBar ⟨opiSecond, none, 0, 0⟩, .buildReady env,
    .send .aggregator true, .send .aggregator true,
    .tokenBar ⟨{ pmSecond with barSecond := 101 }, none, 0, 0⟩,
    .tokenBar ⟨{ opiSecond with barSecond := 101 }, none, 0, 0⟩, .buildReady env]

/-- The logarithm is taken of one only. -/
def flatMath : StatMath := ⟨fun x => x - 1, id⟩

theorem run_twoSeconds : ∃ (s : RollSystem) (first second : Bars1sPair),
    (rollMachine flatMath true).run (start 2) twoSeconds = some s ∧
      s.emit.built = [first, second] := by
  obtain ⟨s, hs⟩ : ∃ s, (rollMachine flatMath true).run (start 2) twoSeconds = some s :=
    Option.isSome_iff_exists.mp (by decide +kernel)
  have hlength : ∀ s ∈ (rollMachine flatMath true).run (start 2) twoSeconds,
      s.emit.built.length = 2 := by
    decide +kernel
  obtain ⟨first, second, hbuilt⟩ := List.length_eq_two.mp (hlength s hs)
  exact ⟨s, first, second, hs, hbuilt⟩

theorem rolling_columns_of_rows_two : ∃ (s : RollSystem) (first second : Bars1sPair),
    (rollMachine flatMath true).run (start 2) twoSeconds = some s ∧
      s.emit.built = [first, second] ∧
        ∃ order, rollingColumns second =
          rollingOf flatMath order (rowsOf (lane second.key) [first] ++ [second]) := by
  obtain ⟨s, first, second, hs, hbuilt⟩ := run_twoSeconds
  exact ⟨s, first, second, hs, hbuilt, @rolling_columns_of_rows flatMath true s
    ⟨start 2, twoSeconds, ⟨2, rfl⟩, hs⟩ [first] [] second hbuilt⟩

/-- The returns at which the lag of a row is searched. -/
def returnsAt (math : StatMath) (before : List Bars1sPair) (row : Bars1sPair) :
    List ReturnPoint :=
  returnsOf math (rowsOf (lane row.key) before ++ [row])

/-- In every order of the tasks' steps, a row has the smallest of the shifts with the largest
absolute correlation and that correlation, or it has neither, and then no shift has a correlation
other than zero; the correlations are those that are computed in the map's order. -/
theorem lag_is_first_best (h : (rollMachine math captureEnabled).Reachable s)
    {before after : List Bars1sPair} {row : Bars1sPair}
    (hrow : s.emit.built = before ++ row :: after) :
    ∃ order, (∃ (shift : ℤ) (confidence : ℚ), row.estimatedLagS = some shift ∧
      row.lagConfidence = some confidence ∧
        FirstBest (lagCorr math order (returnsAt math before row)) 60 shift confidence) ∨
    (row.estimatedLagS = none ∧ row.lagConfidence = none ∧
      ∀ shift c, -60 ≤ shift → shift ≤ 60 →
        lagCorr math order (returnsAt math before row) shift = some c → c = 0) := by
  obtain ⟨order, hcolumns⟩ := (rolled_of_reachable h).columns before row after hrow
  have hlag : row.estimatedLagS = (estimateLag math order (returnsAt math before row) 60).1 :=
    congrArg RowRolling.estimatedLagS hcolumns
  have hconfidence : row.lagConfidence =
      (estimateLag math order (returnsAt math before row) 60).2 :=
    congrArg RowRolling.lagConfidence hcolumns
  refine ⟨order, ?_⟩
  rcases estimateLag_first_best math order (returnsAt math before row) 60 with
    ⟨shift, confidence, hfound, hbest⟩ | ⟨hnone, hzero⟩
  · left
    rw [hfound] at hlag hconfidence
    exact ⟨shift, confidence, hlag, hconfidence, hbest⟩
  · right
    rw [hnone] at hlag hconfidence
    exact ⟨hlag, hconfidence, hzero⟩

theorem lag_is_first_best_two : ∃ (s : RollSystem) (first second : Bars1sPair),
    (rollMachine flatMath true).run (start 2) twoSeconds = some s ∧
      s.emit.built = [first, second] ∧ (second.estimatedLagS = none ∨
        ∃ order shift confidence, second.estimatedLagS = some shift ∧
          FirstBest (lagCorr flatMath order (returnsAt flatMath [first] second)) 60 shift
            confidence) := by
  obtain ⟨s, first, second, hs, hbuilt⟩ := run_twoSeconds
  refine ⟨s, first, second, hs, hbuilt, ?_⟩
  obtain ⟨order, ⟨shift, confidence, hlag, -, hbest⟩ | ⟨hnone, -⟩⟩ :=
    @lag_is_first_best flatMath true s ⟨start 2, twoSeconds, ⟨2, rfl⟩, hs⟩ [first] [] second hbuilt
  · exact Or.inr ⟨order, shift, confidence, hlag, hbest⟩
  · exact Or.inl hnone

end RollSystem

end AlphaMonitor.Pair
