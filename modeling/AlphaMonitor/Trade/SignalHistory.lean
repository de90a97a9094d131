import AlphaMonitor.Lib.Samples
import AlphaMonitor.Trade.Signals
import Mathlib.Algebra.GroupWithZero.Nat

/-!
# Signal histories

Next to its orders a pair keeps what the entry gates look back on: the staleness of the
Opinion book, the gaps of its bars, and the Polymarket prices.  The histories are bounded,
and a trade does not reset them.

## Main definitions

- `SignalConfig`: the configuration of the strategies
- `SignalHistory`: what a pair keeps for them

## Main results

- `SignalHistory.ofBars_eq`: what the histories are in terms of the bars
-/

namespace AlphaMonitor.Trade

open Lib (keepLast orderStat)

/-! ## Configuration -/

/-- The fields of `TradeConfig` that only the strategies read.  The bounds of a clamp are in
order; without that the clamp would panic. -/
structure SignalConfig where
  (alphaAEnabled alphaBEnabled alphaCEnabled : Bool)
  alphaSource : String
  alphaMin : ℚ
  /- staleness -/
  (alphaAOpiStaleSoftStartMs alphaAOpiStaleSoftTauMs : ℤ)
  alphaAOpiStaleSoftMinScale : ℚ
  (alphaAUsePairQuantile alphaBUsePairQuantile : Bool)
  alphaBPairP50PlusMs : ℤ
  softMinScale_le : alphaAOpiStaleSoftMinScale ≤ 1
  /- edge and cost -/
  (alphaAEdgeNormMin alphaBEdgeNormMin alphaAEdgeRawMinAbs : ℚ)
  (alphaACostMult alphaBCostMult : ℚ)
  /- strategy B -/
  (alphaBMoveMin alphaBMomMin alphaBOfiEntryMin : ℚ)
  (alphaBRetraceCancelRatio alphaBOfiFlipCancelUsd : ℚ)
  /- strategy C -/
  alphaCUseLagClamp : Bool
  (alphaCLookbackFixedS alphaCLookbackMinS alphaCLookbackMaxS : ℤ)
  (alphaCMinAbsReturn alphaCAlignBonus alphaCConflictPenalty : ℚ)
  alphaCBlockBOnConflict : Bool
  lookback_le : alphaCLookbackMinS ≤ alphaCLookbackMaxS
  /- horizon and time to live -/
  (alphaAHorizonDefaultS alphaBHorizonDefaultS : ℤ)
  alphaAHorizonByShockType : String → Option ℤ
  (alphaAEntryTtlFrac alphaBEntryTtlFrac : ℚ)
  (alphaAEntryTtlCapMs alphaBEntryTtlCapMs : ℤ)
  /- ranking -/
  (rankWEdge rankWDriver rankWStale rankWCost rankWBookshape rankOfiScale : ℚ)
  /- gates -/
  (followMinCorr followMinLagConf followMinRange followCorrMinRange : ℚ)
  followCorrMinSamples : ℕ
  maxBarGapRatio1m : ℚ
  (maxOpiStalenessP90Ms maxPolyLatencyP99Ms maxOpiLatencyP99Ms : ℤ)

/-- `OPI_STALE_WINDOW_LEN`. -/
def opiStaleWindowLen : ℕ := 120

/-- `GAP_WINDOW_LEN`. -/
def gapWindowLen : ℕ := 60

/-- The length of the price history: five seconds more than the longest lookback. -/
def SignalConfig.microLen (sig : SignalConfig) : ℕ :=
  (max (max sig.alphaCLookbackMaxS sig.alphaCLookbackFixedS) 1).toNat + 5

/-! ## Histories -/

/-- The fields of `PairTradeState` that the entry gates look back on. -/
structure SignalHistory where
  /-- Prices with their seconds. -/
  pmMicroHistory : List (ℤ × ℚ)
  opiStaleHist : List ℤ
  (opiStaleP50Ms opiStaleP90Ms : Option ℤ)
  gapHist : List ℤ
  gapRatio1m : Option ℚ
  deriving DecidableEq, Repr

namespace SignalHistory

def empty : SignalHistory := ⟨[], [], none, none, [], none⟩

variable (hist : SignalHistory)

/-- `update_opi_staleness`. -/
def updateOpiStaleness (bar : Bars1sPair) (maxLen : ℕ) : SignalHistory :=
  match bar.opiStalenessMs with
  | some stale =>
    let samples := keepLast maxLen hist.opiStaleHist (max stale 0)
    -- too few samples leave the quantiles as they are
    if samples.length ≥ 5 then
      { hist with
        opiStaleHist := samples
        opiStaleP50Ms := orderStat samples (samples.length / 2)
        opiStaleP90Ms := orderStat samples ((samples.length - 1) * 9 / 10) }
    else { hist with opiStaleHist := samples }
  | none => hist

/-- A bar as a sample of the gap ratio. -/
def gapSample (bar : Bars1sPair) : ℤ := if bar.barGapFlag ≠ 0 then 1 else 0

/-- `update_gap_ratio`. -/
def updateGapRatio (bar : Bars1sPair) (maxLen : ℕ) : SignalHistory :=
  let flags := keepLast maxLen hist.gapHist (gapSample bar)
  { hist with
    gapHist := flags
    gapRatio1m := if flags = [] then hist.gapRatio1m else some (flags.sum / flags.length) }

/-- `update_pm_micro_history`. -/
def updatePmMicroHistory (barSecond : ℤ) (price : ℚ) (maxLen : ℕ) : SignalHistory :=
  if price ≤ 0 then hist
  else
    match hist.pmMicroHistory.getLast? with
    | some (lastSecond, _) =>
      -- the second bar of a second replaces the first
      if lastSecond = barSecond then
        { hist with pmMicroHistory := hist.pmMicroHistory.dropLast ++ [(barSecond, price)] }
      else { hist with pmMicroHistory := keepLast maxLen hist.pmMicroHistory (barSecond, price) }
    | none => { hist with pmMicroHistory := keepLast maxLen hist.pmMicroHistory (barSecond, price) }

/-- The Polymarket price of a bar, as the histories take it. -/
def microOf (bar : Bars1sPair) : Option ℚ := bar.polyMicro.or (pmMidFromBar bar)

/-- What `handle_bar` makes of the histories. -/
def seeBar (sig : SignalConfig) (bar : Bars1sPair) : SignalHistory :=
  let hist := (hist.updateOpiStaleness bar opiStaleWindowLen).updateGapRatio bar gapWindowLen
  match microOf bar with
  | some price => hist.updatePmMicroHistory bar.barSecond price sig.microLen
  | none => hist

/-- The histories after some bars. -/
def ofBars (sig : SignalConfig) (bars : List Bars1sPair) : SignalHistory :=
  bars.foldl (fun hist bar => hist.seeBar sig bar) empty

/-! ## In terms of the bars -/

/-- The staleness samples of some bars. -/
def staleSamples (bars : List Bars1sPair) : List ℤ :=
  bars.filterMap fun bar => bar.opiStalenessMs.map (max · 0)

/-- The positive prices of some bars. -/
def priceSamples (bars : List Bars1sPair) : List (ℤ × ℚ) :=
  bars.filterMap fun bar => ((microOf bar).filter fun price => decide (0 < price)).map
    fun price => (bar.barSecond, price)

/-- Of samples of one second that follow each other the last one. -/
def lastOfSeconds : List (ℤ × ℚ) → List (ℤ × ℚ)
  | [] => []
  | [sample] => [sample]
  | sample :: next :: rest =>
    if sample.1 = next.1 then lastOfSeconds (next :: rest)
    else sample :: lastOfSeconds (next :: rest)

/-- What the histories should hold after some bars. -/
def windowsOf (sig : SignalConfig) (bars : List Bars1sPair) : SignalHistory :=
  let stales := (staleSamples bars).rtake opiStaleWindowLen
  let flags := (bars.map gapSample).rtake gapWindowLen
  { pmMicroHistory := (lastOfSeconds (priceSamples bars)).rtake sig.microLen
    opiStaleHist := stales
    opiStaleP50Ms := if stales.length ≥ 5 then orderStat stales (stales.length / 2) else none
    opiStaleP90Ms :=
      if stales.length ≥ 5 then orderStat stales ((stales.length - 1) * 9 / 10) else none
    gapHist := flags
    gapRatio1m := if flags = [] then none else some (flags.sum / flags.length) }

theorem filterMap_append_singleton {α β : Type} (f : α → Option β) (xs : List α) (x : α) :
    (xs ++ [x]).filterMap f = xs.filterMap f ++ (f x).toList := by
  rw [List.filterMap_append, List.filterMap_cons, List.filterMap_nil]
  cases f x with
  | none => rfl
  | some y => rfl

theorem getLast?_lastOfSeconds (samples : List (ℤ × ℚ)) :
    (lastOfSeconds samples).getLast? = samples.getLast? := by
  induction samples using lastOfSeconds.induct with
  | case1 => rfl
  | case2 sample => rfl
  | case3 sample next rest heq ih =>
    rw [lastOfSeconds, if_pos heq, ih]
    rfl
  | case4 sample next rest hne ih =>
    rw [lastOfSeconds, if_neg hne, List.getLast?_cons, ih, List.getLast?_cons (l := next :: rest)]

/-- A new sample replaces the last one, if that is of the same second. -/
theorem lastOfSeconds_append (samples : List (ℤ × ℚ)) (sample : ℤ × ℚ) :
    lastOfSeconds (samples ++ [sample]) =
      (if (samples.getLast?.map Prod.fst) = some sample.1 then (lastOfSeconds samples).dropLast
        else lastOfSeconds samples) ++ [sample] := by
  induction samples using lastOfSeconds.induct with
  | case1 => rfl
  | case2 first =>
    by_cases heq : first.1 = sample.1
    · simp [lastOfSeconds, heq]
    · simp [lastOfSeconds, heq]
  | case3 first next rest heq ih =>
    have hlast : (first :: next :: rest).getLast? = (next :: rest).getLast? := rfl
    rw [hlast, List.cons_append, List.cons_append, lastOfSeconds, if_pos heq, lastOfSeconds,
      if_pos heq]
    exact ih
  | case4 first next rest hne ih =>
    have hlast : (first :: next :: rest).getLast? = (next :: rest).getLast? := rfl
    have hsome : lastOfSeconds (next :: rest) ≠ [] := by
      intro hnil
      have hend := getLast?_lastOfSeconds (next :: rest)
      rw [hnil, List.getLast?_nil, List.getLast?_cons] at hend
      cases hend
    rw [hlast, List.cons_append, List.cons_append, lastOfSeconds, if_neg hne, lastOfSeconds,
      if_neg hne, ← List.cons_append, ih]
    split
    · rw [List.dropLast_cons_of_ne_nil hsome, List.cons_append]
    · rw [List.cons_append]

/-- What the price history makes of a sample, as a bounded history. -/
theorem updatePmMicroHistory_windows (sig : SignalConfig) (hist : SignalHistory)
    (samples : List (ℤ × ℚ)) (barSecond : ℤ) {price : ℚ} (hpos : 0 < price)
    (h : hist.pmMicroHistory = (lastOfSeconds samples).rtake sig.microLen) :
    hist.updatePmMicroHistory barSecond price sig.microLen =
      { hist with
        pmMicroHistory := (lastOfSeconds (samples ++ [(barSecond, price)])).rtake sig.microLen } := by
  obtain ⟨n, hlen⟩ : ∃ n, sig.microLen = n + 1 := ⟨_, rfl⟩
  have hlast : hist.pmMicroHistory.getLast? = samples.getLast? := by
    rw [h, ← getLast?_lastOfSeconds samples, hlen]
    rcases List.eq_nil_or_concat (lastOfSeconds samples) with hnil | ⟨front, last, hsplit⟩
    · rw [hnil, List.rtake_nil]
    · rw [hsplit, List.concat_eq_append, List.rtake_concat_succ, List.getLast?_concat,
        List.getLast?_concat]
  have hpush : keepLast sig.microLen hist.pmMicroHistory (barSecond, price) =
      (lastOfSeconds samples ++ [(barSecond, price)]).rtake sig.microLen := by
    rw [h, Lib.keepLast_rtake]
  unfold updatePmMicroHistory
  rw [if_neg (not_le.mpr hpos), hlast, lastOfSeconds_append]
  cases hend : samples.getLast? with
  | none => simp [hpush]
  | some last =>
    obtain ⟨second, old⟩ := last
    by_cases hsame : second = barSecond
    · simp only [hsame, if_true, Option.map_some]
      -- the last sample is replaced, the others stay
      have hfront := getLast?_lastOfSeconds samples
      rw [hend] at hfront
      obtain ⟨front, hsplit⟩ := List.getLast?_eq_some_iff.mp hfront
      rw [h, hsplit, hlen, List.rtake_concat_succ, List.dropLast_concat, List.dropLast_concat,
        List.rtake_concat_succ]
    · simp [hsame, hpush]

theorem updateOpiStaleness_windows (sig : SignalConfig) (bars : List Bars1sPair)
    (bar : Bars1sPair) :
    (windowsOf sig bars).updateOpiStaleness bar opiStaleWindowLen =
      { windowsOf sig bars with
        opiStaleHist := (windowsOf sig (bars ++ [bar])).opiStaleHist
        opiStaleP50Ms := (windowsOf sig (bars ++ [bar])).opiStaleP50Ms
        opiStaleP90Ms := (windowsOf sig (bars ++ [bar])).opiStaleP90Ms } := by
  unfold updateOpiStaleness
  simp only [windowsOf, staleSamples, filterMap_append_singleton]
  cases bar.opiStalenessMs with
  | none => simp
  | some stale =>
    simp only [Option.map_some, Option.toList_some, Lib.keepLast_rtake]
    have hgrows := Lib.length_rtake
      ((bars.filterMap fun bar => bar.opiStalenessMs.map (max · 0)) ++ [max stale 0]) opiStaleWindowLen
    have hbefore := Lib.length_rtake
      (bars.filterMap fun bar => bar.opiStalenessMs.map (max · 0)) opiStaleWindowLen
    rw [List.length_append, List.length_singleton] at hgrows
    by_cases henough : (((bars.filterMap fun bar => bar.opiStalenessMs.map (max · 0)) ++
        [max stale 0]).rtake opiStaleWindowLen).length ≥ 5
    · simp only [henough, if_true]
    · -- with too few samples now there were too few before
      have hfew : ¬((bars.filterMap fun bar => bar.opiStalenessMs.map (max · 0)).rtake
          opiStaleWindowLen).length ≥ 5 := by omega
      simp only [henough, hfew, if_false]

theorem updateGapRatio_windows (sig : SignalConfig) (bars : List Bars1sPair) (bar : Bars1sPair)
    (hist : SignalHistory) (h : hist.gapHist = (windowsOf sig bars).gapHist) :
    hist.updateGapRatio bar gapWindowLen =
      { hist with
        gapHist := (windowsOf sig (bars ++ [bar])).gapHist
        gapRatio1m := (windowsOf sig (bars ++ [bar])).gapRatio1m } := by
  have hnew : ((bars ++ [bar]).map gapSample).rtake gapWindowLen ≠ [] := by
    rw [List.map_append, List.map_singleton, gapWindowLen, List.rtake_concat_succ]
    exact List.concat_ne_nil _ _
  unfold updateGapRatio
  rw [h]
  simp only [windowsOf, Lib.keepLast_rtake, List.map_append, List.map_singleton] at hnew ⊢
  simp only [hnew, if_false]

/-- The histories are windows of the pair's own bars. -/
theorem ofBars_eq (sig : SignalConfig) (bars : List Bars1sPair) :
    ofBars sig bars = windowsOf sig bars := by
  induction bars using List.reverseRecOn with
  | nil => simp [ofBars, windowsOf, staleSamples, priceSamples, lastOfSeconds, empty]
  | append_singleton bars bar ih =>
    have hfold : ofBars sig (bars ++ [bar]) = (windowsOf sig bars).seeBar sig bar := by
      rw [← ih, ofBars, List.foldl_append]
      rfl
    have hstale := updateOpiStaleness_windows sig bars bar
    have hgap := updateGapRatio_windows sig bars bar
      ((windowsOf sig bars).updateOpiStaleness bar opiStaleWindowLen) (by rw [hstale])
    rw [hfold, seeBar, hgap, hstale]
    have hprices : priceSamples (bars ++ [bar]) = priceSamples bars ++
        (((microOf bar).filter fun price => decide (0 < price)).map
          fun price => (bar.barSecond, price)).toList := filterMap_append_singleton _ bars bar
    cases hmicro : microOf bar with
    | none =>
      rw [hmicro, Option.filter_none, Option.map_none, Option.toList_none, List.append_nil] at hprices
      simp only [windowsOf, hprices]
    | some price =>
      by_cases hpos : 0 < price
      · simp only [hmicro, Option.filter_some, hpos, decide_true, if_true, Option.map_some,
          Option.toList_some] at hprices
        simp only
        rw [updatePmMicroHistory_windows sig _ (priceSamples bars) bar.barSecond hpos rfl, ← hprices]
        simp only [windowsOf]
      · simp only [hmicro, Option.filter_some, hpos, decide_false, Bool.false_eq_true, if_false,
          Option.map_none, Option.toList_none, List.append_nil] at hprices
        simp only [updatePmMicroHistory, if_pos (not_lt.mp hpos), windowsOf, hprices]

end SignalHistory

end AlphaMonitor.Trade
