import AlphaMonitor.Lib.Bisect
import AlphaMonitor.Pair.BuildBar
import AlphaMonitor.Store.Messages
import Mathlib.Algebra.BigOperators.Group.List.Basic
import Mathlib.Algebra.Order.Group.Unbundled.Abs
import Mathlib.Data.List.Induction

/-!
# Opinion responses

A shock registers one pending response for each horizon.  When its target second has come,
the response is computed from the bars of the Opinion token that are kept in memory: how far
the price has moved, and how much was traded between the two seconds.

## Main definitions

- `storeBar`, `findBarWithLookback`, `firstIndexAfter`: the history of a token
- `pendingResponses`: what a shock registers
- `buildResponseFromHistory`: the row of a response
-/

namespace AlphaMonitor.Pair

open AlphaMonitor.Lib
open Store (OpinionResponseRow)

/-! ## Histories -/

/-- `PairInput` with the columns that only the responses read. -/
structure HistoryBar extends PairInput where
  spread : Option ℚ
  (volumeNotional1s cvdDelta1s : ℚ)
  deriving DecidableEq, Repr

/-- The bars of one token, oldest first. -/
abbrev History := List HistoryBar

/-- A history keeps the last 600 bars. -/
def historyCap : ℕ := 600

/-- `store_opi_bar` and `store_pm_bar`, for the vector of the bar's token. -/
def storeBar (history : History) (bar : HistoryBar) : History :=
  if (history ++ [bar]).length > historyCap then (history ++ [bar]).tail else history ++ [bar]

/-- The loop of `find_bar`, from the newest bar on. -/
def findBarLoop (barSecond : ℤ) : List HistoryBar → Option HistoryBar
  | [] => none
  | bar :: older =>
    if bar.barSecond = barSecond then some bar
    else if bar.barSecond < barSecond - 1 ∧ bar.barSecond + 5 < barSecond then none
    else findBarLoop barSecond older

/-- `find_bar`. -/
def findBar (history : History) (barSecond : ℤ) : Option HistoryBar :=
  findBarLoop barSecond history.reverse

/-- The loop of `find_bar_with_lookback`, from the newest bar on. -/
def lookbackLoop (barSecond minSecond : ℤ) : List HistoryBar → Option HistoryBar
  | [] => none
  | bar :: older =>
    if bar.barSecond > barSecond then lookbackLoop barSecond minSecond older
    else if bar.barSecond < minSecond then none
    else some bar

/-- `find_bar_with_lookback`. -/
def findBarWithLookback (history : History) (barSecond : ℤ) (gapAllow : ℕ) : Option HistoryBar :=
  lookbackLoop barSecond (barSecond - gapAllow) history.reverse

/-- `first_index_after`. -/
def firstIndexAfter (history : History) (barSecond : ℤ) : ℕ :=
  bisect (fun bar => decide (bar.barSecond ≤ barSecond)) history

/-! ## What a shock registers -/

/-- The `analysis_*` settings. -/
structure Analysis where
  gapAllow : ℕ
  stalenessMs : ℤ
  moveEps : ℚ

/-- The columns of `ShockInput` that the responses read. -/
structure ShockInput where
  (shockId pairId : ℤ)
  tokenSide : TokenSide
  triggerBarSecond : ℤ
  obsLatencyPolyP99Ms : Option ℤ
  deriving DecidableEq, Repr

/-- `PendingResponse`. -/
structure PendingResponse where
  (shockId pairId : ℤ)
  tokenSide : TokenSide
  (triggerBarSecond horizonS : ℤ)
  opiTokenKey : Option String
  (baselineMid baselineSpread : Option ℚ)
  baselineStaleness : Option ℤ
  baselineDepth : Option ℚ
  baselineLiquidityPullFlag : Option ℤ
  trueNetSpreadAtT0 : Option ℚ
  (arbModeFlagAtT0 estimatedLagSAtT0 : Option ℤ)
  lagConfidenceAtT0 : Option ℚ
  (obsLatencyPolyP99AtT0 obsLatencyOpiP99AtT0 : Option ℤ)
  deriving DecidableEq, Repr

/-- The second at which the response is due. -/
def PendingResponse.target (pending : PendingResponse) : ℤ :=
  pending.triggerBarSecond + pending.horizonS

def HistoryBar.bestBidNow (bar : HistoryBar) : Option ℚ := bar.bestBidState.or bar.bestBid

def HistoryBar.bestAskNow (bar : HistoryBar) : Option ℚ := bar.bestAskState.or bar.bestAsk

/-- `compute_true_net_spread`. -/
def computeTrueNetSpread (ctx : BuildContext) (pm opi : Option HistoryBar) :
    Option ℚ × Option ℤ :=
  let polyFee : ℚ := ctx.feeBpsPolymarket / 10000
  let opiFee : ℚ := ctx.feeBpsOpinion / 10000
  let gas := ctx.gasCost.getD 0
  let buy := netSpread (pm.bind (·.bestBidNow)) (opi.bind (·.bestAskNow)) polyFee opiFee gas
  let sell := netSpread (opi.bind (·.bestBidNow)) (pm.bind (·.bestAskNow)) opiFee polyFee gas
  (match buy, sell with
    | some buy, some sell => some (max buy sell)
    | some buy, none => some buy
    | none, some sell => some sell
    | none, none => none,
    some (flag (decide (buy.getD 0 > 0) || decide (sell.getD 0 > 0))))

/-- The price that a response compares. -/
def HistoryBar.priceSignal (bar : HistoryBar) : Option ℚ :=
  (bar.lastPrice.or bar.midState).or bar.mid

def HistoryBar.depth (bar : HistoryBar) : ℚ := bar.top10DepthBid.getD 0 + bar.top10DepthAsk.getD 0

/-- What the aggregator knows besides the histories when a shock arrives. -/
structure ShockContext where
  ctx : BuildContext
  /-- `last_lag_s` and `last_lag_confidence` of the pair. -/
  lag : Option ℤ × Option ℚ

/-- `horizons`. -/
def horizons : List ℤ := [10, 30, 60, 120, 300]

/-- The entries that `handle_shock` pushes, given the tokens and histories of the pair. -/
def pendingResponses (gapAllow : ℕ) (opiTokenKey pmTokenKey : Option String)
    (opiHistory pmHistory : String → Option History) (shock : ShockInput) (env : ShockContext) :
    List PendingResponse :=
  let trigger := shock.triggerBarSecond
  let baselineOpi := (opiTokenKey.bind opiHistory).bind fun hist =>
    findBarWithLookback hist trigger gapAllow
  let baselinePm := (pmTokenKey.bind pmHistory).bind fun hist => findBar hist trigger
  let spread := computeTrueNetSpread env.ctx baselinePm baselineOpi
  horizons.map fun horizon =>
    { shockId := shock.shockId
      pairId := shock.pairId
      tokenSide := shock.tokenSide
      triggerBarSecond := trigger
      horizonS := horizon
      opiTokenKey := opiTokenKey
      baselineMid := baselineOpi.bind (·.priceSignal)
      baselineSpread := baselineOpi.bind (·.spread)
      baselineStaleness := baselineOpi.bind (·.stalenessMs)
      baselineDepth := baselineOpi.map (·.depth)
      baselineLiquidityPullFlag := baselineOpi.map (·.liquidityPullFlag)
      trueNetSpreadAtT0 := spread.1
      arbModeFlagAtT0 := spread.2
      estimatedLagSAtT0 := env.lag.1
      lagConfidenceAtT0 := env.lag.2
      obsLatencyPolyP99AtT0 := shock.obsLatencyPolyP99Ms
      obsLatencyOpiP99AtT0 := baselineOpi.bind (·.obsLatencyP99Ms) }

/-! ## The row of a response -/

/-- `is_bar_valid`. -/
def HistoryBar.isValid (analysis : Analysis) (bar : HistoryBar) : Bool :=
  bar.priceSignal.isSome &&
    (bar.stalenessMs.map fun value => decide (value ≤ analysis.stalenessMs)).getD false

/-- The bars from `range_start` to `range_end`. -/
def responseRange (history : History) (trigger target : ℤ) : List HistoryBar :=
  let start := firstIndexAfter history trigger
  (history.take (max (firstIndexAfter history target) start)).drop start

/-- The row that `build_response_from_history` makes of a history. -/
def responseRow (ln : ℚ → ℚ) (analysis : Analysis) (history : History) (pending : PendingResponse)
    (target : ℤ) : OpinionResponseRow :=
  let baseline := findBarWithLookback history pending.triggerBarSecond analysis.gapAllow
  let targetBar := findBarWithLookback history target analysis.gapAllow
  let baselineMid := baseline.bind (·.priceSignal)
  let targetMid := targetBar.bind (·.priceSignal)
  let range := responseRange history pending.triggerBarSecond target
  let valid (bar : Option HistoryBar) : Bool := (bar.map (·.isValid analysis)).getD false
  { shockId := pending.shockId
    horizonS := pending.horizonS
    sampleValidFlag := flag (valid baseline && valid targetBar)
    moveFlag :=
      match baselineMid, targetMid with
      | some first, some last => flag (decide (|last - first| > analysis.moveEps))
      | _, _ => 0
    firstMoveLagS := baselineMid.bind fun mid =>
      (range.find? fun bar => bar.isValid analysis &&
        (bar.priceSignal.map fun price => decide (|price - mid| > analysis.moveEps)).getD false).map
          fun bar => bar.barSecond - pending.triggerBarSecond
    opiReturn :=
      match baselineMid, targetMid with
      | some first, some last => if first > 0 ∧ last > 0 then some (ln (last / first)) else none
      | _, _ => none
    opiPriceDelta := gap targetMid baselineMid
    opiVolumeSum := some (range.map (·.volumeNotional1s)).sum
    opiCvdSum := some (range.map (·.cvdDelta1s)).sum
    opiSpreadChange := gap (targetBar.bind (·.spread)) (baseline.bind (·.spread))
    opiDepthChange := gap (targetBar.map (·.depth)) (baseline.map (·.depth))
    opiStalenessAtT0Ms := baseline.bind (·.stalenessMs)
    opiLiquidityPullFlagAtT0 := baseline.map (·.liquidityPullFlag)
    trueNetSpreadAtT0 := pending.trueNetSpreadAtT0
    arbModeFlagAtT0 := pending.arbModeFlagAtT0
    estimatedLagSAtT0 := pending.estimatedLagSAtT0
    lagConfidenceAtT0 := pending.lagConfidenceAtT0
    obsLatencyPolyP99AtT0 := pending.obsLatencyPolyP99AtT0
    obsLatencyOpiP99AtT0 := pending.obsLatencyOpiP99AtT0 }

/-- `build_response_from_history`: no row without a token and its history. -/
def buildResponseFromHistory (ln : ℚ → ℚ) (analysis : Analysis)
    (opiHistory : String → Option History) (pending : PendingResponse) (target : ℤ) :
    Option OpinionResponseRow :=
  (pending.opiTokenKey.bind opiHistory).map fun history =>
    responseRow ln analysis history pending target

/-! ## What a history holds -/

/-- After any sequence of bars, the last 600 of them are kept. -/
theorem foldl_storeBar (bars : List HistoryBar) :
    bars.foldl storeBar [] = bars.drop (bars.length - historyCap) := by
  induction bars using List.reverseRecOn with
  | nil => rfl
  | append_singleton bars bar ih =>
    have hkeep : bars.drop (bars.length - historyCap) ++ [bar] =
        (bars ++ [bar]).drop (bars.length - historyCap) := by
      rw [List.drop_append_of_le_length (Nat.sub_le _ _)]
    rw [List.foldl_append, List.foldl_cons, List.foldl_nil, ih]
    unfold storeBar
    rw [hkeep, List.length_drop, List.length_append, List.length_singleton]
    generalize historyCap = cap
    split
    · rw [List.tail_drop]
      exact congrArg (fun n => (bars ++ [bar]).drop n) (by omega)
    · exact congrArg (fun n => (bars ++ [bar]).drop n) (by omega)

/-- In a history in time order, the range of a response holds what lies after the trigger and
up to the target. -/
theorem responseRange_eq {history : History}
    (hsorted : history.Pairwise fun a b => a.barSecond ≤ b.barSecond) {trigger target : ℤ}
    (hle : trigger ≤ target) :
    responseRange history trigger target =
      history.filter fun bar => decide (trigger < bar.barSecond ∧ bar.barSecond ≤ target) := by
  have hdown : ∀ second : ℤ, history.Pairwise fun a b =>
      decide (b.barSecond ≤ second) = true → decide (a.barSecond ≤ second) = true := by
    intro second
    refine hsorted.imp fun hab hb => ?_
    exact decide_eq_true (hab.trans (of_decide_eq_true hb))
  have hmore : ∀ bar ∈ history, decide (bar.barSecond ≤ trigger) = true →
      decide (bar.barSecond ≤ target) = true :=
    fun bar _ hbar => decide_eq_true ((of_decide_eq_true hbar).trans hle)
  have hindex : firstIndexAfter history trigger ≤ firstIndexAfter history target := by
    unfold firstIndexAfter
    rw [bisect_eq_length_filter (hdown trigger), bisect_eq_length_filter (hdown target)]
    apply List.Sublist.length_le
    exact List.monotone_filter_right history fun bar hbar =>
      decide_eq_true ((of_decide_eq_true hbar).trans hle)
  unfold responseRange
  simp only
  rw [max_eq_left hindex]
  unfold firstIndexAfter
  rw [drop_take_bisect (hdown trigger) (hdown target) hmore]
  apply List.filter_congr
  intro bar _
  rw [Bool.and_comm, Bool.decide_and, ← decide_not]
  congr 1
  exact decide_eq_decide.mpr not_le

/-- What the lookback finds is stored and not after the second. -/
theorem lookbackLoop_mem {barSecond minSecond : ℤ} {bars : List HistoryBar} {bar : HistoryBar}
    (h : lookbackLoop barSecond minSecond bars = some bar) :
    bar ∈ bars ∧ bar.barSecond ≤ barSecond := by
  induction bars with
  | nil => cases h
  | cons first older ih =>
    unfold lookbackLoop at h
    split at h
    · obtain ⟨hmem, hle⟩ := ih h
      exact ⟨List.mem_cons_of_mem _ hmem, hle⟩
    · rename_i hle
      split at h
      · cases h
      · cases h
        exact ⟨List.mem_cons_self, not_lt.mp hle⟩

/-- A stored second is found, whatever the gap. -/
theorem lookbackLoop_of_stored {barSecond minSecond : ℤ} (hmin : minSecond ≤ barSecond)
    {bars : List HistoryBar} (hsorted : bars.Pairwise fun a b => b.barSecond ≤ a.barSecond)
    (hstored : ∃ bar ∈ bars, bar.barSecond = barSecond) :
    ∃ bar, lookbackLoop barSecond minSecond bars = some bar ∧ bar.barSecond = barSecond := by
  induction bars with
  | nil =>
    obtain ⟨bar, hbar, -⟩ := hstored
    cases hbar
  | cons first older ih =>
    obtain ⟨hfirst, holder⟩ := List.pairwise_cons.mp hsorted
    obtain ⟨bar, hbar, hsecond⟩ := hstored
    unfold lookbackLoop
    by_cases hlater : first.barSecond > barSecond
    · rw [if_pos hlater]
      apply ih holder
      rcases List.mem_cons.mp hbar with rfl | hmem
      · omega
      · exact ⟨bar, hmem, hsecond⟩
    · have hsame : first.barSecond = barSecond := by
        rcases List.mem_cons.mp hbar with rfl | hmem
        · exact hsecond
        · have hle := hfirst bar hmem
          omega
      rw [if_neg hlater, if_neg (by omega)]
      exact ⟨first, rfl, hsame⟩

theorem findBarWithLookback_mem {history : History} {barSecond : ℤ} {gapAllow : ℕ}
    {bar : HistoryBar} (h : findBarWithLookback history barSecond gapAllow = some bar) :
    bar ∈ history ∧ bar.barSecond ≤ barSecond := by
  obtain ⟨hmem, hle⟩ := lookbackLoop_mem h
  exact ⟨List.mem_reverse.mp hmem, hle⟩

theorem findBarWithLookback_of_stored {history : History}
    (hsorted : history.Pairwise fun a b => a.barSecond ≤ b.barSecond) {barSecond : ℤ}
    (gapAllow : ℕ) (hstored : ∃ bar ∈ history, bar.barSecond = barSecond) :
    ∃ bar, findBarWithLookback history barSecond gapAllow = some bar ∧
      bar.barSecond = barSecond := by
  apply lookbackLoop_of_stored (by omega) (List.pairwise_reverse.mpr hsorted)
  obtain ⟨bar, hbar, hsecond⟩ := hstored
  exact ⟨bar, List.mem_reverse.mpr hbar, hsecond⟩

/-- Of bars in time order, a second is kept unless 600 later bars have come since. -/
theorem stored_iff {bars : List HistoryBar}
    (hsorted : bars.Pairwise fun a b => a.barSecond ≤ b.barSecond) {barSecond : ℤ} :
    (∃ bar ∈ bars.foldl storeBar [], bar.barSecond = barSecond) ↔
      (∃ bar ∈ bars, bar.barSecond = barSecond) ∧
        (bars.filter fun bar => decide (barSecond < bar.barSecond)).length < historyCap := by
  have hcap : 0 < historyCap := by decide
  rw [foldl_storeBar]
  generalize historyCap = cap at hcap
  have hsplit : bars.take (bars.length - cap) ++ bars.drop (bars.length - cap) = bars :=
    List.take_append_drop _ _
  have hlength : (bars.drop (bars.length - cap)).length = bars.length - (bars.length - cap) :=
    List.length_drop
  have hbefore : ∀ a ∈ bars.take (bars.length - cap), ∀ b ∈ bars.drop (bars.length - cap),
      a.barSecond ≤ b.barSecond := by
    rw [← hsplit] at hsorted
    exact (List.pairwise_append.mp hsorted).2.2
  have hfilter : (bars.filter fun bar => decide (barSecond < bar.barSecond)) =
      (bars.take (bars.length - cap)).filter (fun bar => decide (barSecond < bar.barSecond)) ++
        (bars.drop (bars.length - cap)).filter fun bar => decide (barSecond < bar.barSecond) := by
    rw [← List.filter_append, hsplit]
  constructor
  · rintro ⟨bar, hbar, hsecond⟩
    refine ⟨⟨bar, List.mem_of_mem_drop hbar, hsecond⟩, ?_⟩
    -- only what comes after the kept bar is later, so the bar itself leaves room
    have hnone : (bars.take (bars.length - cap)).filter
        (fun bar => decide (barSecond < bar.barSecond)) = [] := by
      rw [List.filter_eq_nil_iff]
      intro a ha hlater
      have hle := hbefore a ha bar hbar
      have hlt := of_decide_eq_true hlater
      omega
    have hshorter : ((bars.drop (bars.length - cap)).filter
        fun bar => decide (barSecond < bar.barSecond)).length <
          (bars.drop (bars.length - cap)).length := by
      apply List.length_filter_lt_length_iff_exists.mpr
      exact ⟨bar, hbar, by simp [hsecond]⟩
    rw [hfilter, hnone, List.nil_append]
    omega
  · rintro ⟨⟨bar, hbar, hsecond⟩, hfew⟩
    rw [← hsplit] at hbar
    rcases List.mem_append.mp hbar with htaken | hkept
    · by_contra hmissing
      -- then all kept bars are later, and there are 600 of them
      have hall : (bars.drop (bars.length - cap)).filter
          (fun bar => decide (barSecond < bar.barSecond)) = bars.drop (bars.length - cap) := by
        rw [List.filter_eq_self]
        intro b hb
        have hle := hbefore bar htaken b hb
        have hne : b.barSecond ≠ barSecond := fun heq => hmissing ⟨b, hb, heq⟩
        exact decide_eq_true (by omega)
      have hpos : 0 < (bars.take (bars.length - cap)).length := List.length_pos_of_mem htaken
      rw [hfilter, hall, List.length_append] at hfew
      rw [List.length_take] at hpos
      omega
    · exact ⟨bar, hkept, hsecond⟩

end AlphaMonitor.Pair
