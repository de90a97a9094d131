import AlphaMonitor.Trade.Engine
import AlphaMonitor.Trade.SignalHistory
import Mathlib.Algebra.Order.Field.Rat
import Mathlib.Algebra.Order.Ring.Abs

/-!
# Entry candidates

What an idle pair makes of a bar.  Strategy A follows a recent shock, strategy B the gap
between the venues; strategy C, which compares the Polymarket price with an earlier one,
only changes the score of the others.  A candidate has to pass a row of gates, of which
the first one that fails blocks it.

## Main definitions

- `buildCandidate`: the gates and the score
- `idleCandidate`: which strategy is tried, and with which direction

- `PendingEntry.Vetted`: what the gates let through

## Main results

- `vetted_of_idleCandidate`: what an idle pair finds is vetted
-/

namespace AlphaMonitor.Trade

/-- `f64::exp` and `f64::ln`. -/
structure SignalMath where
  (exp ln : ℚ → ℚ)

/-- `clamp`. -/
def clampTo {α : Type} [Max α] [Min α] (lo hi x : α) : α := max lo (min x hi)

/-! ## Signals -/

/-- `opi_mid_state_from_bar`. -/
def opiMidStateFromBar (bar : Bars1sPair) : Option ℚ :=
  bar.opiMidState.or (midOf bar.opiBestBidState bar.opiBestAskState)

/-- `alpha_source`, lower-cased. -/
def SignalConfig.alphaSourceLower (sig : SignalConfig) : String :=
  String.ofList (sig.alphaSource.toList.map Char.toLower)

/-- `alpha_source_value`. -/
def alphaSourceValue (sig : SignalConfig) (bar : Bars1sPair) : Option ℚ :=
  if sig.alphaSourceLower = "follow_score_raw" then bar.followScoreRaw
  else if sig.alphaSourceLower = "follow_score_adj" then bar.followScoreAdj
  else if sig.alphaSourceLower = "book_alpha_raw" then bar.bookAlphaRaw
  else if sig.alphaSourceLower = "book_alpha_adj" then bar.bookAlphaAdj
  else none

/-- `alpha_source_is_book_alpha`. -/
def alphaSourceIsBookAlpha (sig : SignalConfig) : Bool :=
  decide (sig.alphaSourceLower = "book_alpha_raw") || decide (sig.alphaSourceLower = "book_alpha_adj")

/-- `pm_range_ratio`. -/
def pmRangeRatio (hist : SignalHistory) (basePm : ℚ) : Option ℚ :=
  if basePm ≤ 0 then none
  else if hist.pmMicroHistory.length < 10 then none
  else
    let prices := (hist.pmMicroHistory.map Prod.snd).filter fun price => decide (price > 0)
    match prices.min?, prices.max? with
    | some lo, some hi => if hi ≤ lo then none else some ((hi - lo) / basePm)
    | _, _ => none

/-- `pick_shock_candidate`: the latest of the pair's shocks that is recent and allowed. -/
def pickShockCandidate (cfg : TradeConfig) (signals : List ShockSignal) (barSecond : ℤ) :
    Option ShockSignal :=
  signals.reverse.find? fun s =>
    decide (barSecond - s.triggerBarSecond ≤ max cfg.alphaAMaxAgeS 0) && shockAllowed cfg s

/-- `lookback_s` of `alpha_c_signal`. -/
def lookbackS (sig : SignalConfig) (bar : Bars1sPair) : ℤ :=
  if sig.alphaCUseLagClamp then
    match bar.estimatedLagS with
    | some lag => clampTo sig.alphaCLookbackMinS sig.alphaCLookbackMaxS lag
    | none => sig.alphaCLookbackFixedS
  else sig.alphaCLookbackFixedS

/-- `alpha_c_signal`: the predicted direction, the return and the lookback. -/
def alphaCSignal (math : SignalMath) (sig : SignalConfig) (hist : SignalHistory)
    (bar : Bars1sPair) : Option (ℤ × ℚ × ℤ) :=
  if !sig.alphaCEnabled then none
  else
    let lookback := lookbackS sig bar
    let targetSecond := bar.barSecond - max lookback 1
    match hist.pmMicroHistory.getLast?,
      hist.pmMicroHistory.reverse.find? fun entry => decide (entry.1 ≤ targetSecond) with
    | some (curSec, curPrice), some (_, prevPrice) =>
      -- the newest price is older than the lookback
      if curSec < targetSecond then none
      else if prevPrice ≤ 0 ∨ curPrice ≤ 0 then none
      else
        let ret := math.ln (curPrice / prevPrice)
        if |ret| < sig.alphaCMinAbsReturn then none
        else some (if ret ≥ 0 then 1 else -1, ret, lookback)
    | _, _ => none

/-! ## The gates -/

/-- Why a candidate is blocked, under the reason that is logged. -/
inductive Blocked where
  /-- There is nothing to block; this is not logged. -/
  | noDirection
  | alphaMin
  | corrInsufficient
  | followMinCorr
  | followMinLagConf
  | rangeInsufficient
  | followMinRange
  | barGapRatio1m
  | opiStaleP90
  | polyLatencyP99
  | opiLatencyP99
  | opiStaleMissing
  | opiStaleGate
  | edgeRawBand
  | edgeRawNonpositive
  | edgeNormMin
  | edgeRawAbsMin
  | gapbRetraceCancel
  | gapbOfiFlip
  | gapbCConflict
  deriving DecidableEq, Repr

/-- The arguments of `build_candidate`. -/
structure CandidateInput where
  bar : Bars1sPair
  alphaType : AlphaType
  direction : ℤ
  flow : PmFlow
  (basePm pmMid opiMid : ℚ)
  alphaValue : Option ℚ
  shock : Option ShockSignal
  cSignal : Option (ℤ × ℚ × ℤ)
  opiStaleP50Ms : Option ℤ
  (pmPeak pmRangeRatio gapRatio1m : Option ℚ)
  opiStaleP90Ms : Option ℤ

variable (cfg : TradeConfig) (sig : SignalConfig)

/-- `alpha_stale_max_ms`. -/
def alphaStaleMaxMs (alphaType : AlphaType) (opiP50Ms : Option ℤ) : ℤ :=
  match alphaType with
  | .shockA => cfg.alphaAOpiStaleMaxMs
  | .gapB | .lagC =>
    match opiP50Ms with
    | some p50 =>
      if sig.alphaBUsePairQuantile then
        min cfg.alphaBOpiStaleMaxMs (p50 + max sig.alphaBPairP50PlusMs 0)
      else cfg.alphaBOpiStaleMaxMs
    | none => cfg.alphaBOpiStaleMaxMs

/-- `alpha_edge_norm_min`. -/
def alphaEdgeNormMin : AlphaType → ℚ
  | .shockA => sig.alphaAEdgeNormMin
  | .gapB | .lagC => sig.alphaBEdgeNormMin

/-- `alpha_edge_raw_min_abs`. -/
def alphaEdgeRawMinAbs : AlphaType → ℚ
  | .shockA => sig.alphaAEdgeRawMinAbs
  | _ => 0

/-- `alpha_cost_mult`. -/
def alphaCostMult : AlphaType → ℚ
  | .shockA => max sig.alphaACostMult 1
  | .gapB => max sig.alphaBCostMult 1
  | .lagC => 1

namespace CandidateInput

variable (inp : CandidateInput)

/-- `edge_raw` of `compute_edge`. -/
def edgeRaw : ℚ := inp.direction * (inp.pmMid - inp.opiMid)

/-- `edge_norm` of `compute_edge`. -/
def edgeNorm : ℚ := if inp.basePm > 0 then inp.edgeRaw / inp.basePm else 0

/-- `corr_samples_ok`. -/
def corrSamplesOk : Bool :=
  decide (sig.followCorrMinSamples = 0) ||
    decide ((max (inp.bar.rollingCorrSamples5m.getD 0) 0).toNat ≥ sig.followCorrMinSamples)

/-- `corr_ready`. -/
def corrReady : Bool :=
  inp.corrSamplesOk sig && (decide (sig.followCorrMinRange ≤ 0) ||
    decide (inp.pmRangeRatio.getD 0 ≥ sig.followCorrMinRange))

/-- The value is over a bound that is switched on. -/
def exceeds {α : Type} [LinearOrder α] [Zero α] (bound : α) (value : Option α) : Bool :=
  decide (bound > 0) && ((value.map fun v => decide (v > bound)).getD false)

/-- The gates for how closely Opinion follows; those that the data are too few for only
block strategy B. -/
def followGates : Option Blocked :=
  if sig.followMinCorr > 0 ∧ inp.corrReady sig = false ∧ inp.alphaType = .gapB then
    some .corrInsufficient
  else if sig.followMinCorr > 0 ∧ inp.corrReady sig = true ∧
      inp.bar.rollingCorr5m.getD (-1) < sig.followMinCorr then some .followMinCorr
  else if sig.followMinLagConf > 0 ∧ inp.bar.lagConfidence.getD 0 < sig.followMinLagConf ∧
      inp.alphaType = .gapB then some .followMinLagConf
  else if sig.followMinRange > 0 ∧ inp.corrReady sig = false ∧ inp.alphaType = .gapB then
    some .rangeInsufficient
  else if sig.followMinRange > 0 ∧ inp.corrReady sig = true ∧
      inp.pmRangeRatio.getD 0 < sig.followMinRange ∧ inp.alphaType = .gapB then
    some .followMinRange
  else none

/-- The gates for the quality of the data. -/
def qualityGates : Option Blocked :=
  if exceeds sig.maxBarGapRatio1m inp.gapRatio1m then some .barGapRatio1m
  else if exceeds sig.maxOpiStalenessP90Ms inp.opiStaleP90Ms then some .opiStaleP90
  else if exceeds sig.maxPolyLatencyP99Ms inp.bar.polyObsLatencyP99Ms then some .polyLatencyP99
  else if exceeds sig.maxOpiLatencyP99Ms inp.bar.opiObsLatencyP99Ms then some .opiLatencyP99
  else none

/-- `stale_limit`. -/
def staleLimit : ℤ := alphaStaleMaxMs cfg sig inp.alphaType inp.opiStaleP50Ms

/-- The gates for the age of the Opinion book. -/
def staleGates : Option Blocked :=
  match inp.bar.opiStalenessMs with
  | none => some .opiStaleMissing
  | some opiStale => if opiStale > inp.staleLimit cfg sig then some .opiStaleGate else none

/-- The gates for the edge. -/
def edgeGates : Option Blocked :=
  if inp.alphaType = .shockA then
    -- a shock may be traded against a small edge
    if inp.edgeRaw < -opiEdgeBandPx cfg inp.bar then some .edgeRawBand else none
  else if inp.edgeRaw ≤ 0 then some .edgeRawNonpositive
  else if inp.edgeNorm < alphaEdgeNormMin sig inp.alphaType then some .edgeNormMin
  else if alphaEdgeRawMinAbs sig inp.alphaType > 0 ∧
      |inp.edgeRaw| < alphaEdgeRawMinAbs sig inp.alphaType then some .edgeRawAbsMin
  else none

/-- The gates of strategy B for a move that is over or turns. -/
def turnGates : Option Blocked :=
  if inp.alphaType ≠ .gapB then none
  else if sig.alphaBRetraceCancelRatio > 0 ∧
      ((retraceRatio inp.flow.pmMove inp.pmPeak inp.direction).map
        fun ratio => decide (ratio ≥ sig.alphaBRetraceCancelRatio)).getD false = true then
    some .gapbRetraceCancel
  else if sig.alphaBOfiFlipCancelUsd > 0 ∧
      against inp.direction inp.flow.ofiValue sig.alphaBOfiFlipCancelUsd = true then
    some .gapbOfiFlip
  else none

/-- The gate for a prediction of strategy C against strategy B. -/
def conflictGate : Option Blocked :=
  match inp.cSignal with
  | some (predDir, _, _) =>
    if inp.alphaType = .gapB ∧ predDir ≠ inp.direction ∧ sig.alphaCBlockBOnConflict = true then
      some .gapbCConflict
    else none
  | none => none

/-- The gate for the configured alpha. -/
def alphaGate : Option Blocked :=
  match inp.alphaValue with
  | some value => if sig.alphaMin > 0 ∧ |value| < sig.alphaMin then some .alphaMin else none
  | none => none

/-- The first gate of `build_candidate` that fails. -/
def blocked : Option Blocked :=
  if inp.direction = 0 then some .noDirection
  else
    (inp.alphaGate sig).or <| (inp.followGates sig).or <| (inp.qualityGates sig).or <|
      (inp.staleGates cfg sig).or <| (inp.edgeGates cfg sig).or <| (inp.turnGates sig).or <|
        inp.conflictGate sig

/-! ## The candidate -/

/-- `soft_start_ms`. -/
def softStartMs : ℤ :=
  let start := max sig.alphaAOpiStaleSoftStartMs 0
  let start :=
    if sig.alphaAUsePairQuantile then
      match inp.opiStaleP50Ms with
      | some p50 => if p50 > 0 then p50 else start
      | none => start
    else start
  min start (max (inp.staleLimit cfg sig) 0)

/-- `stale_scale`: an aging Opinion book makes an entry on a shock smaller. -/
def staleScale (math : SignalMath) (opiStale : ℤ) : ℚ :=
  let tauMs := max sig.alphaAOpiStaleSoftTauMs 0
  if inp.alphaType = .shockA ∧ inp.softStartMs cfg sig > 0 ∧ tauMs > 0 ∧
      opiStale > inp.softStartMs cfg sig then
    clampTo sig.alphaAOpiStaleSoftMinScale 1
      (math.exp (-(opiStale - inp.softStartMs cfg sig : ℤ) / tauMs))
  else 1

/-- `driver_strength`. -/
def driverStrength : ℚ :=
  match inp.alphaType with
  | .shockA => (inp.shock.map fun s => |s.magnitude|).getD 0
  | .gapB => |inp.flow.pmMove| + |inp.flow.pmMom| + |inp.flow.ofiValue| / max sig.rankOfiScale 1
  | .lagC => |inp.flow.pmMove|

/-- `compute_score`. -/
def computeScore (opiStale : ℤ) : ℚ :=
  let costMult := alphaCostMult sig inp.alphaType
  let bookScale := ((bookShape cfg inp.bar inp.direction).map (·.scale)).getD 1
  sig.rankWEdge * (|inp.edgeNorm| / max costMult 1) + sig.rankWDriver * inp.driverStrength sig -
    sig.rankWStale * ((max opiStale 0 : ℤ) / 1000) - sig.rankWCost * costMult -
      sig.rankWBookshape * max (1 - bookScale) 0

/-- What a prediction of strategy C adds to the score. -/
def modifier : Option ℚ :=
  inp.cSignal.map fun c =>
    if c.1 = inp.direction then sig.alphaCAlignBonus else -sig.alphaCConflictPenalty

/-- `horizon_for`. -/
def horizonFor : ℤ :=
  let byLag (default : ℤ) : ℤ :=
    match inp.bar.estimatedLagS with
    | some lag => clampTo sig.alphaCLookbackMinS sig.alphaCLookbackMaxS lag
    | none => default
  match inp.alphaType with
  | .shockA =>
    -- the configured horizon of the type of the shock comes first
    match inp.shock.bind fun s => sig.alphaAHorizonByShockType s.shockType with
    | some value => clampTo 30 120 value
    | none => clampTo 30 120 (byLag sig.alphaAHorizonDefaultS)
  | .gapB | .lagC => byLag sig.alphaBHorizonDefaultS

/-- `entry_ttl_override_ms`. -/
def entryTtlOverrideMs (math : SignalMath) (opiStale : ℤ) : Option ℤ :=
  let horizonMs := inp.horizonFor sig * 1000
  let (ttlFrac, ttlCapMs) :=
    match inp.alphaType with
    | .shockA => (sig.alphaAEntryTtlFrac, sig.alphaAEntryTtlCapMs)
    | .gapB => (sig.alphaBEntryTtlFrac, sig.alphaBEntryTtlCapMs)
    | .lagC => (0, 0)
  if ttlFrac > 0 ∧ horizonMs > 0 then
    let ttlMs := roundHalfAway (horizonMs * ttlFrac)
    let ttlMs := if ttlCapMs > 0 then min ttlMs ttlCapMs else ttlMs
    let scale := inp.staleScale cfg sig math opiStale
    let ttlMs :=
      if inp.alphaType = .shockA ∧ scale < 1 then roundHalfAway (ttlMs * scale) else ttlMs
    if ttlMs > 0 then some ttlMs else none
  else none

/-- `alpha_source` of the candidate. -/
def alphaSource : String :=
  match inp.alphaType with
  | .shockA =>
    match inp.shock with
    | some s => "A_SHOCK:" ++ s.shockType
    | none => "A_SHOCK"
  | .gapB =>
    if |inp.flow.pmMove| ≥ sig.alphaBMoveMin ∧ |inp.flow.pmMom| ≥ sig.alphaBMomMin then
      "B_GAP:MOVE_MOM"
    else if |inp.flow.ofiValue| ≥ sig.alphaBOfiEntryMin then "B_GAP:OFI_ONLY"
    else "B_GAP"
  | .lagC => "C_LAG_MOD"

end CandidateInput

/-- `PendingEntry` with the fields that only logs and the ranking's explanation show. -/
structure Candidate extends PendingEntry where
  (ofiValue pmMid edgeNorm score : ℚ)
  alphaSource : String
  alphaValue : Option ℚ
  cPredDir : Option ℤ
  cRet : Option ℚ
  deriving DecidableEq, Repr

/-- `build_candidate`. -/
def buildCandidate (math : SignalMath) (inp : CandidateInput) : Except Blocked Candidate :=
  match inp.blocked cfg sig with
  | some reason => .error reason
  | none =>
    let opiStale := inp.bar.opiStalenessMs.getD 0
    let score := inp.computeScore cfg sig opiStale + (inp.modifier sig).getD 0
    .ok
      { key := (inp.bar.pairId, inp.bar.tokenSide)
        bar := inp.bar
        pmMove := inp.flow.pmMove
        pmMom := inp.flow.pmMom
        direction := inp.direction
        alphaType := inp.alphaType
        shock := inp.shock
        opiMid := some inp.opiMid
        basePm := inp.basePm
        edgeRaw := inp.edgeRaw
        confScore := score
        costMult := alphaCostMult sig inp.alphaType
        horizonS := some (inp.horizonFor sig)
        staleScale := inp.staleScale cfg sig math opiStale
        entryTtlOverrideMs := inp.entryTtlOverrideMs cfg sig math opiStale
        cModifier := inp.modifier sig
        ofiValue := inp.flow.ofiValue
        pmMid := inp.pmMid
        edgeNorm := inp.edgeNorm
        score := score
        alphaSource := inp.alphaSource sig
        alphaValue := inp.alphaValue
        cPredDir := inp.cSignal.map (·.1)
        cRet := inp.cSignal.map (·.2.1) }

/-! ## The strategies -/

/-- The direction of strategy B. -/
def gapDirection (flow : PmFlow) (alphaValue : Option ℚ) : ℤ :=
  let direction : ℤ :=
    if |flow.pmMove| ≥ sig.alphaBMoveMin ∧ |flow.pmMom| ≥ sig.alphaBMomMin then
      if flow.pmMove ≥ 0 then 1 else -1
    else if |flow.ofiValue| ≥ sig.alphaBOfiEntryMin then
      if flow.ofiValue ≥ 0 then 1 else -1
    else 0
  -- the book's alpha is asked last
  if direction = 0 ∧ alphaSourceIsBookAlpha sig = true then
    match alphaValue with
    | some value =>
      if sig.alphaMin ≤ 0 ∨ |value| ≥ sig.alphaMin then if value ≥ 0 then 1 else -1 else 0
    | none => 0
  else direction

/-- What the idle branch of `handle_bar` gives `build_candidate`, but for the strategy. -/
def idleInput (math : SignalMath) (hist : SignalHistory) (pmPeak : Option ℚ) (bar : Bars1sPair)
    (flow : PmFlow) (pmMid basePm opiMid : ℚ) (alphaType : AlphaType) (direction : ℤ)
    (shock : Option ShockSignal) : CandidateInput where
  bar := bar
  alphaType := alphaType
  direction := direction
  flow := flow
  basePm := basePm
  pmMid := pmMid
  opiMid := opiMid
  alphaValue := alphaSourceValue sig bar
  shock := shock
  cSignal := alphaCSignal math sig hist bar
  opiStaleP50Ms := hist.opiStaleP50Ms
  pmPeak := pmPeak
  pmRangeRatio := pmRangeRatio hist basePm
  gapRatio1m := hist.gapRatio1m
  opiStaleP90Ms := hist.opiStaleP90Ms

/-- The idle branch of `handle_bar`: strategy A with the latest shock, then strategy B. -/
def idleCandidate (math : SignalMath) (hist : SignalHistory) (signals : List ShockSignal)
    (pmPeak : Option ℚ) (bar : Bars1sPair) (flow : PmFlow) (pmMid basePm : ℚ) :
    Option Candidate :=
  -- without an Opinion price neither is tried
  (opiMidStateFromBar bar).bind fun opiMid =>
    let build (alphaType : AlphaType) (direction : ℤ) (shock : Option ShockSignal) :=
      if direction = 0 then none
      else (buildCandidate cfg sig math (idleInput sig math hist pmPeak bar flow pmMid basePm opiMid
        alphaType direction shock)).toOption
    let onShock :=
      if sig.alphaAEnabled then
        (pickShockCandidate cfg signals bar.barSecond).bind fun shock =>
          build .shockA shock.direction (some shock)
      else none
    onShock.or <|
      if sig.alphaBEnabled then build .gapB (gapDirection sig flow (alphaSourceValue sig bar)) none
      else none

/-! ## What the gates let through -/

/-- Strategy A: a recent and allowed shock in the direction of the entry. -/
structure PendingEntry.OnShock (entry : PendingEntry) (shock : ShockSignal) : Prop where
  alphaType : entry.alphaType = .shockA
  isShock : entry.shock = some shock
  direction : entry.direction = shock.direction ∧ entry.direction ≠ 0
  allowed : shockAllowed cfg shock = true
  recent : entry.bar.barSecond - shock.triggerBarSecond ≤ max cfg.alphaAMaxAgeS 0
  stale : ∀ stale ∈ entry.bar.opiStalenessMs, stale ≤ cfg.alphaAOpiStaleMaxMs
  edge : -opiEdgeBandPx cfg entry.bar ≤ entry.edgeRaw
  ttl : ∀ ttl ∈ entry.entryTtlOverrideMs, sig.alphaAEntryTtlCapMs > 0 → ttl ≤ sig.alphaAEntryTtlCapMs
  scale : sig.alphaAOpiStaleSoftMinScale ≤ entry.staleScale ∧ entry.staleScale ≤ 1

/-- Strategy B: a gap that is worth something in the direction of the entry. -/
structure PendingEntry.OnGap (entry : PendingEntry) : Prop where
  alphaType : entry.alphaType = .gapB
  noShock : entry.shock = none
  direction : entry.direction = 1 ∨ entry.direction = -1
  stale : ∀ stale ∈ entry.bar.opiStalenessMs, stale ≤ cfg.alphaBOpiStaleMaxMs
  edge : 0 < entry.edgeRaw ∧ sig.alphaBEdgeNormMin ≤ entry.edgeRaw / entry.basePm
  follows : sig.followMinCorr > 0 → sig.followMinCorr ≤ entry.bar.rollingCorr5m.getD (-1)
  lag : sig.followMinLagConf > 0 → sig.followMinLagConf ≤ entry.bar.lagConfidence.getD 0
  ttl : ∀ ttl ∈ entry.entryTtlOverrideMs, sig.alphaBEntryTtlCapMs > 0 → ttl ≤ sig.alphaBEntryTtlCapMs
  scale : entry.staleScale = 1

/-- What holds of every entry that passed the gates. -/
structure PendingEntry.Vetted (entry : PendingEntry) : Prop where
  key : entry.key = (entry.bar.pairId, entry.bar.tokenSide)
  basePm : 0 < entry.basePm
  /-- The edge is the distance of the two venues, along the direction. -/
  edgeRaw : ∃ pmMid opiMid, pmMidFromBar entry.bar = some pmMid ∧
    opiMidStateFromBar entry.bar = some opiMid ∧ entry.opiMid = some opiMid ∧
      entry.edgeRaw = entry.direction * (pmMid - opiMid)
  fresh : entry.bar.opiStalenessMs.isSome = true
  polyLatency : sig.maxPolyLatencyP99Ms > 0 →
    ∀ lat ∈ entry.bar.polyObsLatencyP99Ms, lat ≤ sig.maxPolyLatencyP99Ms
  opiLatency : sig.maxOpiLatencyP99Ms > 0 →
    ∀ lat ∈ entry.bar.opiObsLatencyP99Ms, lat ≤ sig.maxOpiLatencyP99Ms
  modifier : ∀ m ∈ entry.cModifier, m = sig.alphaCAlignBonus ∨ m = -sig.alphaCConflictPenalty
  costMult : 1 ≤ entry.costMult
  ttl : ∀ ttl ∈ entry.entryTtlOverrideMs, 0 < ttl
  strategy : (∃ shock, entry.OnShock cfg sig shock) ∨ entry.OnGap cfg sig

namespace CandidateInput

variable {cfg : TradeConfig} {sig : SignalConfig} {inp : CandidateInput} {math : SignalMath}

theorem le_of_not_exceeds {α : Type} [LinearOrder α] [Zero α] {bound : α} {value : Option α}
    (h : exceeds bound value = false) (hon : bound > 0) : ∀ v ∈ value, v ≤ bound := by
  intro v hv
  rw [Option.mem_def.mp hv, exceeds, decide_eq_true hon, Bool.true_and, Option.map_some,
    Option.getD_some] at h
  exact not_lt.mp (of_decide_eq_false h)

/-- The gates that a candidate has passed. -/
structure Passes (cfg : TradeConfig) (sig : SignalConfig) (inp : CandidateInput) : Prop where
  direction : inp.direction ≠ 0
  follow : inp.followGates sig = none
  quality : inp.qualityGates sig = none
  stale : inp.staleGates cfg sig = none
  edge : inp.edgeGates cfg sig = none
  turn : inp.turnGates sig = none

theorem passes_of_not_blocked (h : inp.blocked cfg sig = none) : inp.Passes cfg sig := by
  unfold blocked at h
  by_cases hdir : inp.direction = 0
  · rw [if_pos hdir] at h
    cases h
  · rw [if_neg hdir] at h
    simp only [Option.or_eq_none_iff] at h
    obtain ⟨-, hfollow, hquality, hstale, hedge, hturn, -⟩ := h
    exact ⟨hdir, hfollow, hquality, hstale, hedge, hturn⟩

theorem Passes.quality_le (h : inp.Passes cfg sig) :
    exceeds sig.maxBarGapRatio1m inp.gapRatio1m = false ∧
      exceeds sig.maxOpiStalenessP90Ms inp.opiStaleP90Ms = false ∧
      exceeds sig.maxPolyLatencyP99Ms inp.bar.polyObsLatencyP99Ms = false ∧
      exceeds sig.maxOpiLatencyP99Ms inp.bar.opiObsLatencyP99Ms = false := by
  have hgates := h.quality
  unfold qualityGates at hgates
  split at hgates
  · cases hgates
  · split at hgates
    · cases hgates
    · split at hgates
      · cases hgates
      · split at hgates
        · cases hgates
        · rename_i hgap hstale hpoly hopi
          exact ⟨Bool.eq_false_iff.mpr hgap, Bool.eq_false_iff.mpr hstale,
            Bool.eq_false_iff.mpr hpoly, Bool.eq_false_iff.mpr hopi⟩

theorem Passes.stale_le (h : inp.Passes cfg sig) :
    ∃ stale, inp.bar.opiStalenessMs = some stale ∧ stale ≤ inp.staleLimit cfg sig := by
  have hgates := h.stale
  unfold staleGates at hgates
  cases hstale : inp.bar.opiStalenessMs with
  | none =>
    rw [hstale] at hgates
    cases hgates
  | some stale =>
    rw [hstale] at hgates
    simp only at hgates
    split at hgates
    · cases hgates
    · rename_i hle
      exact ⟨stale, rfl, not_lt.mp hle⟩

theorem Passes.edge_shock (h : inp.Passes cfg sig) (hA : inp.alphaType = .shockA) :
    -opiEdgeBandPx cfg inp.bar ≤ inp.edgeRaw := by
  have hgates := h.edge
  unfold edgeGates at hgates
  rw [if_pos hA] at hgates
  split at hgates
  · cases hgates
  · rename_i hband
    exact not_lt.mp hband

theorem Passes.edge_gap (h : inp.Passes cfg sig) (hB : inp.alphaType = .gapB) :
    0 < inp.edgeRaw ∧ sig.alphaBEdgeNormMin ≤ inp.edgeNorm := by
  have hgates := h.edge
  have hne : inp.alphaType ≠ .shockA := by
    rw [hB]
    decide
  unfold edgeGates at hgates
  rw [if_neg hne] at hgates
  split at hgates
  · cases hgates
  · split at hgates
    · cases hgates
    · rename_i hpos hnorm
      rw [hB] at hnorm
      exact ⟨not_le.mp hpos, not_lt.mp hnorm⟩

/-- Strategy B is only used while Opinion follows well enough. -/
theorem Passes.follow_gap (h : inp.Passes cfg sig) (hB : inp.alphaType = .gapB) :
    (sig.followMinCorr > 0 → sig.followMinCorr ≤ inp.bar.rollingCorr5m.getD (-1)) ∧
      (sig.followMinLagConf > 0 → sig.followMinLagConf ≤ inp.bar.lagConfidence.getD 0) := by
  have hgates := h.follow
  unfold followGates at hgates
  simp only [hB, and_true] at hgates
  split at hgates
  · cases hgates
  · rename_i hready
    split at hgates
    · cases hgates
    · rename_i hcorr
      split at hgates
      · cases hgates
      · rename_i hlag
        refine ⟨fun hon => ?_, fun hon => ?_⟩
        · have hyes : inp.corrReady sig = true := by
            by_contra hno
            exact hready ⟨hon, Bool.eq_false_iff.mpr hno⟩
          exact not_lt.mp fun hlow => hcorr ⟨hon, hyes, hlow⟩
        · exact not_lt.mp fun hlow => hlag ⟨hon, hlow⟩

theorem staleLimit_le : inp.staleLimit cfg sig ≤
    if inp.alphaType = .shockA then cfg.alphaAOpiStaleMaxMs else cfg.alphaBOpiStaleMaxMs := by
  unfold staleLimit alphaStaleMaxMs
  cases inp.alphaType with
  | shockA => exact le_refl _
  | gapB =>
    simp only [reduceCtorEq, if_false]
    split
    · split
      · exact min_le_left _ _
      · exact le_refl _
    · exact le_refl _
  | lagC =>
    simp only [reduceCtorEq, if_false]
    split
    · split
      · exact min_le_left _ _
      · exact le_refl _
    · exact le_refl _

theorem staleScale_bounds (opiStale : ℤ) :
    (inp.alphaType ≠ .shockA → inp.staleScale cfg sig math opiStale = 1) ∧
      sig.alphaAOpiStaleSoftMinScale ≤ inp.staleScale cfg sig math opiStale ∧
      inp.staleScale cfg sig math opiStale ≤ 1 := by
  unfold staleScale
  simp only
  split
  · rename_i hsoft
    refine ⟨fun hne => (hne hsoft.1).elim, le_max_left _ _, ?_⟩
    exact max_le sig.softMinScale_le (min_le_right _ _)
  · exact ⟨fun _ => rfl, sig.softMinScale_le, le_refl _⟩

theorem roundHalfAway_le_of_le {q : ℚ} {n : ℤ} (h : q ≤ n) : roundHalfAway q ≤ n := by
  unfold roundHalfAway
  split
  · rw [← Int.lt_add_one_iff, Int.floor_lt]
    push_cast
    linarith
  · have hfloor : -n ≤ ⌊-q + 1 / 2⌋ := by
      rw [Int.le_floor]
      push_cast
      linarith
    omega

theorem roundHalfAway_nonneg {q : ℚ} (h : 0 ≤ q) : 0 ≤ roundHalfAway q := by
  rw [roundHalfAway, if_pos h]
  exact Int.floor_nonneg.mpr (by linarith)

/-- A positive time to live that respects the cap. -/
theorem entryTtl_le (opiStale : ℤ) :
    ∀ ttl ∈ inp.entryTtlOverrideMs cfg sig math opiStale, 0 < ttl ∧
      (inp.alphaType = .shockA → sig.alphaAEntryTtlCapMs > 0 → ttl ≤ sig.alphaAEntryTtlCapMs) ∧
      (inp.alphaType = .gapB → sig.alphaBEntryTtlCapMs > 0 → ttl ≤ sig.alphaBEntryTtlCapMs) := by
  -- the same steps for both strategies, but for the scale
  have hcapped : ∀ (q : ℚ) (cap : ℤ), 0 ≤ q →
      0 ≤ (if cap > 0 then min (roundHalfAway q) cap else roundHalfAway q) ∧
        (cap > 0 → (if cap > 0 then min (roundHalfAway q) cap else roundHalfAway q) ≤ cap) := by
    intro q cap hq
    have hround := roundHalfAway_nonneg hq
    split
    · rename_i hcap
      exact ⟨le_min hround hcap.le, fun _ => min_le_right _ _⟩
    · rename_i hcap
      exact ⟨hround, fun hpos => (hcap hpos).elim⟩
  intro ttl httl
  have hmem := Option.mem_def.mp httl
  unfold entryTtlOverrideMs at hmem
  cases htype : inp.alphaType with
  | shockA =>
    simp only [htype, true_and, Option.ite_none_right_eq_some, Option.some.injEq] at hmem
    obtain ⟨hon, hlive, httl⟩ := hmem
    have hpos : (0 : ℚ) ≤ ((inp.horizonFor sig * 1000 : ℤ) : ℚ) * sig.alphaAEntryTtlFrac :=
      mul_nonneg (by exact_mod_cast hon.2.le) hon.1.le
    obtain ⟨hnonneg, hcap⟩ := hcapped _ sig.alphaAEntryTtlCapMs hpos
    generalize (if sig.alphaAEntryTtlCapMs > 0 then
      min (roundHalfAway (((inp.horizonFor sig * 1000 : ℤ) : ℚ) * sig.alphaAEntryTtlFrac))
        sig.alphaAEntryTtlCapMs
      else roundHalfAway (((inp.horizonFor sig * 1000 : ℤ) : ℚ) * sig.alphaAEntryTtlFrac)) = full
      at hlive httl hnonneg hcap
    rw [httl] at hlive
    refine ⟨hlive, fun _ hc => le_trans ?_ (hcap hc), fun hB => by cases hB⟩
    rw [← httl]
    split
    · -- the scale only shortens it
      rename_i hscale
      apply roundHalfAway_le_of_le
      exact mul_le_of_le_one_right (by exact_mod_cast hnonneg) hscale.le
    · exact le_refl _
  | gapB =>
    simp only [htype, reduceCtorEq, false_and, if_false, Option.ite_none_right_eq_some,
      Option.some.injEq] at hmem
    obtain ⟨hon, hlive, httl⟩ := hmem
    have hpos : (0 : ℚ) ≤ ((inp.horizonFor sig * 1000 : ℤ) : ℚ) * sig.alphaBEntryTtlFrac :=
      mul_nonneg (by exact_mod_cast hon.2.le) hon.1.le
    obtain ⟨-, hcap⟩ := hcapped _ sig.alphaBEntryTtlCapMs hpos
    rw [httl] at hlive hcap
    refine ⟨hlive, ?_, fun _ hc => hcap hc⟩
    intro hA
    cases hA
  | lagC =>
    simp only [htype, lt_irrefl, false_and, if_false, gt_iff_lt] at hmem
    cases hmem

end CandidateInput

/-! ## Candidates are vetted -/

section Found

variable {cfg : TradeConfig} {sig : SignalConfig} {math : SignalMath} {hist : SignalHistory}
variable {signals : List ShockSignal} {pmPeak : Option ℚ} {bar : Bars1sPair} {flow : PmFlow}
variable {pmMid basePm : ℚ}

/-- A candidate is the input with the score, and the input passes. -/
theorem passes_of_buildCandidate {inp : CandidateInput} {c : Candidate}
    (h : buildCandidate cfg sig math inp = .ok c) :
    inp.Passes cfg sig ∧ c.key = (inp.bar.pairId, inp.bar.tokenSide) ∧ c.bar = inp.bar ∧
      c.direction = inp.direction ∧ c.alphaType = inp.alphaType ∧ c.shock = inp.shock ∧
      c.opiMid = some inp.opiMid ∧ c.basePm = inp.basePm ∧ c.edgeRaw = inp.edgeRaw ∧
      c.costMult = alphaCostMult sig inp.alphaType ∧ c.cModifier = inp.modifier sig ∧
      c.staleScale = inp.staleScale cfg sig math (inp.bar.opiStalenessMs.getD 0) ∧
      c.entryTtlOverrideMs =
        inp.entryTtlOverrideMs cfg sig math (inp.bar.opiStalenessMs.getD 0) := by
  unfold buildCandidate at h
  cases hblocked : inp.blocked cfg sig with
  | some reason =>
    rw [hblocked] at h
    cases h
  | none =>
    rw [hblocked] at h
    cases h
    exact ⟨CandidateInput.passes_of_not_blocked hblocked, rfl, rfl, rfl, rfl, rfl, rfl, rfl, rfl,
      rfl, rfl, rfl, rfl⟩

theorem one_le_alphaCostMult (alphaType : AlphaType) : 1 ≤ alphaCostMult sig alphaType := by
  cases alphaType with
  | shockA => exact le_max_right _ _
  | gapB => exact le_max_right _ _
  | lagC => exact le_refl _

theorem modifier_cases {inp : CandidateInput} :
    ∀ m ∈ inp.modifier sig, m = sig.alphaCAlignBonus ∨ m = -sig.alphaCConflictPenalty := by
  intro m hm
  obtain ⟨c, -, rfl⟩ := Option.map_eq_some_iff.mp hm
  split
  · exact Or.inl rfl
  · exact Or.inr rfl

theorem gapDirection_cases (alphaValue : Option ℚ) (h : gapDirection sig flow alphaValue ≠ 0) :
    gapDirection sig flow alphaValue = 1 ∨ gapDirection sig flow alphaValue = -1 := by
  have hsign : ∀ value : ℚ, (if value ≥ 0 then (1 : ℤ) else -1) = 1 ∨
      (if value ≥ 0 then (1 : ℤ) else -1) = -1 := by
    intro value
    split
    · exact Or.inl rfl
    · exact Or.inr rfl
  revert h
  unfold gapDirection
  simp only
  generalize hby : (if |flow.pmMove| ≥ sig.alphaBMoveMin ∧ |flow.pmMom| ≥ sig.alphaBMomMin then
      if flow.pmMove ≥ 0 then (1 : ℤ) else -1
    else if |flow.ofiValue| ≥ sig.alphaBOfiEntryMin then if flow.ofiValue ≥ 0 then 1 else -1
    else 0) = byFlow
  have hflow : byFlow = 0 ∨ byFlow = 1 ∨ byFlow = -1 := by
    rw [← hby]
    split
    · exact Or.inr (hsign _)
    · split
      · exact Or.inr (hsign _)
      · exact Or.inl rfl
  intro h
  split at h
  · rename_i hbook
    rw [if_pos hbook]
    cases alphaValue with
    | none => exact (h rfl).elim
    | some value =>
      simp only at h ⊢
      split at h
      · rename_i hstrong
        rw [if_pos hstrong]
        exact hsign value
      · exact (h rfl).elim
  · rename_i hno
    rw [if_neg hno]
    exact hflow.resolve_left h

/-- Whichever strategy found it, a candidate is built from the bar. -/
theorem of_idleCandidate {c : Candidate}
    (h : idleCandidate cfg sig math hist signals pmPeak bar flow pmMid basePm = some c) :
    ∃ opiMid, opiMidStateFromBar bar = some opiMid ∧
      ((∃ shock ∈ signals, pickShockCandidate cfg signals bar.barSecond = some shock ∧
          shock.direction ≠ 0 ∧
          buildCandidate cfg sig math (idleInput sig math hist pmPeak bar flow pmMid basePm opiMid
            .shockA shock.direction (some shock)) = .ok c) ∨
        (gapDirection sig flow (alphaSourceValue sig bar) ≠ 0 ∧
          buildCandidate cfg sig math (idleInput sig math hist pmPeak bar flow pmMid basePm opiMid
            .gapB (gapDirection sig flow (alphaSourceValue sig bar)) none) = .ok c)) := by
  unfold idleCandidate at h
  obtain ⟨opiMid, hmid, h⟩ := Option.bind_eq_some_iff.mp h
  have hok : ∀ {result : Except Blocked Candidate}, result.toOption = some c → result = .ok c := by
    intro result hresult
    cases result with
    | error reason => cases hresult
    | ok found =>
      cases hresult
      rfl
  refine ⟨opiMid, hmid, ?_⟩
  rcases Option.or_eq_some_iff.mp h with hshock | ⟨-, hgap⟩
  · split at hshock
    · obtain ⟨shock, hpick, hbuild⟩ := Option.bind_eq_some_iff.mp hshock
      simp only at hbuild
      split at hbuild
      · cases hbuild
      · rename_i hdir
        have hmem := List.mem_reverse.mp (List.mem_of_find?_eq_some hpick)
        exact Or.inl ⟨shock, hmem, hpick, hdir, hok hbuild⟩
    · cases hshock
  · split at hgap
    · simp only at hgap
      split at hgap
      · cases hgap
      · rename_i hdir
        exact Or.inr ⟨hdir, hok hgap⟩
    · cases hgap

/-- What an idle pair finds is vetted. -/
theorem vetted_of_idleCandidate {c : Candidate} (hmid : pmMidFromBar bar = some pmMid)
    (hbase : 0 < basePm)
    (h : idleCandidate cfg sig math hist signals pmPeak bar flow pmMid basePm = some c) :
    c.toPendingEntry.Vetted cfg sig := by
  obtain ⟨opiMid, hopi, hfound⟩ := of_idleCandidate h
  -- which strategy it is does not matter for most of it
  have hcommon : ∀ {alphaType : AlphaType} {direction : ℤ} {shock : Option ShockSignal},
      buildCandidate cfg sig math (idleInput sig math hist pmPeak bar flow pmMid basePm opiMid
        alphaType direction shock) = .ok c →
      ((∃ shock, c.toPendingEntry.OnShock cfg sig shock) ∨ c.toPendingEntry.OnGap cfg sig) →
      c.toPendingEntry.Vetted cfg sig := by
    intro alphaType direction shock hbuild hstrategy
    obtain ⟨hpass, hkey, hbar, hdir, -, -, hopiMid, hbasePm, hedge, hcost, hmod, -, httl⟩ :=
      passes_of_buildCandidate hbuild
    obtain ⟨-, -, hpoly, hopiLat⟩ := hpass.quality_le
    obtain ⟨stale, hstale, -⟩ := hpass.stale_le
    refine ⟨?_, ?_, ⟨pmMid, opiMid, ?_, ?_, hopiMid, ?_⟩, ?_, ?_, ?_, ?_, ?_, ?_, hstrategy⟩
    · rw [hkey, hbar]
    · rw [hbasePm]
      exact hbase
    · rw [hbar]
      exact hmid
    · rw [hbar]
      exact hopi
    · rw [hedge, hdir]
      rfl
    · rw [hbar, hstale]
      rfl
    · rw [hbar]
      exact fun hon => CandidateInput.le_of_not_exceeds hpoly hon
    · rw [hbar]
      exact fun hon => CandidateInput.le_of_not_exceeds hopiLat hon
    · rw [hmod]
      exact modifier_cases
    · rw [hcost]
      exact one_le_alphaCostMult _
    · rw [httl]
      exact fun ttl hmem => (CandidateInput.entryTtl_le _ ttl hmem).1
  rcases hfound with ⟨shock, -, hpick, hne, hbuild⟩ | ⟨hne, hbuild⟩
  · refine hcommon hbuild (Or.inl ⟨shock, ?_⟩)
    obtain ⟨hpass, -, hbar, hdir, htype, hshock, -, -, hedge, -, -, hscale, httl⟩ :=
      passes_of_buildCandidate hbuild
    obtain ⟨stale, hstale, hlimit⟩ := hpass.stale_le
    have hrecent := List.find?_some hpick
    simp only [Bool.and_eq_true, decide_eq_true_eq] at hrecent
    have hbounds := (@CandidateInput.staleScale_bounds cfg sig (idleInput sig math hist pmPeak bar
      flow pmMid basePm opiMid .shockA shock.direction (some shock)) math
      (bar.opiStalenessMs.getD 0)).2
    refine ⟨htype, hshock, ⟨hdir, ?_⟩, hrecent.2, ?_, ?_, ?_, ?_, ?_⟩
    · rw [hdir]
      exact hne
    · rw [hbar]
      exact hrecent.1
    · rw [hbar, hstale]
      intro value hvalue
      cases hvalue
      exact hlimit
    · rw [hbar, hedge]
      exact hpass.edge_shock rfl
    · rw [httl]
      exact fun ttl hmem => (CandidateInput.entryTtl_le _ ttl hmem).2.1 rfl
    · rw [hscale]
      exact hbounds
  · refine hcommon hbuild (Or.inr ?_)
    obtain ⟨hpass, -, hbar, hdir, htype, hshock, -, hbasePm, hedge, -, -, hscale, httl⟩ :=
      passes_of_buildCandidate hbuild
    obtain ⟨stale, hstale, hlimit⟩ := hpass.stale_le
    obtain ⟨hpos, hnorm⟩ := hpass.edge_gap rfl
    obtain ⟨hcorr, hlag⟩ := hpass.follow_gap rfl
    refine ⟨htype, hshock, ?_, ?_, ⟨?_, ?_⟩, ?_, ?_, ?_, ?_⟩
    · rw [hdir]
      exact gapDirection_cases _ hne
    · rw [hbar, hstale]
      intro value hvalue
      cases hvalue
      exact le_trans hlimit CandidateInput.staleLimit_le
    · rw [hedge]
      exact hpos
    · rw [hedge, hbasePm]
      exact hnorm.trans_eq (if_pos hbase)
    · rw [hbar]
      exact hcorr
    · rw [hbar]
      exact hlag
    · rw [httl]
      exact fun ttl hmem => (CandidateInput.entryTtl_le _ ttl hmem).2.2 rfl
    · rw [hscale]
      exact (CandidateInput.staleScale_bounds _).1 (by intro hA; cases hA)

end Found

end AlphaMonitor.Trade
