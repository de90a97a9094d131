import AlphaMonitor.Shard.Book

/-!
# What the shock detectors see

The shock engine keeps short histories of a token's bars and long windows of the metrics
computed from them.  A metric that is among the largest of its window is a shock.

Logarithm and square root are those of the machine and are taken as parameters.

## Main definitions

- `Histories.push`: the histories and windows after a bar
- `Histories.metric`: the metric of each type of shock in the current bar
- `Histories.detect`: the detector of each type of shock
-/

namespace AlphaMonitor.Shock

open Shard (DenseBook)

/-- The functions of the machine's floating point numbers. -/
structure FloatMath where
  (ln sqrt : ℚ → ℚ)

/-! ## Types of shocks -/

/-- The types of shocks, in the order in which `on_bar` looks for them. -/
inductive ShockType where
  | priceVelocity5s
  | priceAccel10s
  | rvJump5s
  | rvJump1m
  | largeTrade
  | takerImbalance30s
  | cvdSpike30s
  | quoteBurstAdd
  | quoteBurstCancel
  | ofiSpike10s
  | sweep
  | fakeWallPull
  | washTrade
  deriving DecidableEq, Repr

namespace ShockType

def asStr : ShockType → String
  | priceVelocity5s => "PRICE_VELOCITY_5S"
  | priceAccel10s => "PRICE_ACCEL_10S"
  | rvJump5s => "RV_JUMP_5S"
  | rvJump1m => "RV_JUMP_1M"
  | largeTrade => "LARGE_TRADE"
  | takerImbalance30s => "TAKER_IMBALANCE_30S"
  | cvdSpike30s => "CVD_SPIKE_30S"
  | quoteBurstAdd => "QUOTE_BURST_ADD"
  | quoteBurstCancel => "QUOTE_BURST_CANCEL"
  | ofiSpike10s => "OFI_SPIKE_10S"
  | sweep => "SWEEP"
  | fakeWallPull => "FAKE_WALL_PULL"
  | washTrade => "WASH_TRADE"

/-- All types, in order. -/
def all : List ShockType :=
  [priceVelocity5s, priceAccel10s, rvJump5s, rvJump1m, largeTrade, takerImbalance30s, cvdSpike30s,
    quoteBurstAdd, quoteBurstCancel, ofiSpike10s, sweep, fakeWallPull, washTrade]

theorem mem_all (shockType : ShockType) : shockType ∈ all := by
  cases shockType <;> decide

theorem all_nodup : all.Nodup := by decide

end ShockType

/-- The arguments of `on_bar`. -/
structure ShockBar where
  barSecond : ℤ
  (microPx tickPx : Option ℚ)
  (addUpdates1s cancelUpdates1s : ℤ)
  (volumeNotional1s buyNotional1s sellNotional1s cvdDelta1s ofi1s : ℚ)
  (levelsCrossed1s tradeCount1s tradeSideMissingCount1s : ℤ)
  maxTradeNotional1s : ℚ
  wallPull : Option DenseBook.WallPullSignal
  deriving DecidableEq, Repr

/-- The time of a bar. -/
def ShockBar.tsMs (bar : ShockBar) : ℤ := bar.barSecond * 1000

/-- The micro price, if it is positive; `on_bar` passes over bars without one. -/
def ShockBar.micro (bar : ShockBar) : Option ℚ := bar.microPx.filter fun value => decide (value > 0)

/-! ## Histories, newest entry first -/

def historyMax : ℕ := 64
def windowMax : ℕ := 21600
def tradeNotionalWindow : ℕ := 3600

/-- Push a value; the oldest ones go. -/
def pushMax {α : Type} (maxLen : ℕ) (value : α) (values : List α) : List α :=
  (value :: values).take maxLen

/-- Push a value, if there is one. -/
def pushSome {α : Type} (maxLen : ℕ) (value : Option α) (values : List α) : List α :=
  value.elim values (pushMax maxLen · values)

/-- `sum_last`. -/
def sumLast (values : List ℚ) (count : ℕ) : Option ℚ :=
  if values = [] then none else some (values.take count).sum

/-- `sum_last_i64`. -/
def sumLastI64 (values : List ℤ) (count : ℕ) : ℤ := (values.take count).sum

/-- `realized_vol`. -/
def realizedVol (math : FloatMath) (returns : List ℚ) (count : ℕ) : Option ℚ :=
  if returns.length < count then none
  else some (math.sqrt ((returns.take count).map fun value => value * value).sum)

/-- `log_return_at`; with no offset it is `log_return`. -/
def logReturnAt (math : FloatMath) (history : List ℚ) (lag offset : ℕ) : Option ℚ :=
  match history[offset]?, history[offset + lag]? with
  | some current, some past =>
    if current > 0 ∧ past > 0 then some (math.ln (current / past)) else none
  | _, _ => none

/-- `missing_ratio_30s`. -/
def missingRatio30s (tradeCounts missingCounts : List ℤ) : ℚ :=
  let trades := sumLastI64 tradeCounts 30
  if trades ≤ 0 then 1 else (sumLastI64 missingCounts 30 : ℚ) / trades

/-- `RollingWindow::quantile`. -/
def quantile (values : List ℚ) (q : ℚ) : Option ℚ :=
  let data := values.insertionSort (· ≤ ·)
  data[(roundHalfAway (((data.length : ℚ) - 1) * q)).toNat]?

/-- `EwmaStats`, with its factor 1/10. -/
structure EwmaStats where
  (mean var : Option ℚ)
  deriving DecidableEq, Repr

namespace EwmaStats

def update (stats : EwmaStats) (value : ℚ) : EwmaStats :=
  match stats.mean with
  | some mean =>
    let delta := value - mean
    ⟨some (mean + 1 / 10 * delta),
      some ((1 - 1 / 10) * (stats.var.getD 0 + 1 / 10 * delta * delta))⟩
  | none => ⟨some value, some 0⟩

/-- The mean and the standard deviation. -/
def snapshot (math : FloatMath) (stats : EwmaStats) : ℚ × ℚ :=
  (stats.mean.getD 0, math.sqrt (stats.var.getD 0))

end EwmaStats

/-- `zscore`. -/
def zscore (value mean std : ℚ) : ℚ := if std ≤ 0 then 0 else (value - mean) / std

/-- The histories and windows of a `ShockEngine`. -/
structure Histories where
  (micro returns ofi buy sell cvd vol : List ℚ)
  (tradeCounts tradeMissing : List ℤ)
  (absR5 absA10 rv5 rv60 vol1 vol30 absCvd30 absOfi10 absR3 absR30 : List ℚ)
  (qAdd qCancel tradeNotional : List ℚ)
  (qAddStats qCancelStats : EwmaStats)
  deriving DecidableEq, Repr

namespace Histories

def empty : Histories where
  micro := []
  returns := []
  ofi := []
  buy := []
  sell := []
  cvd := []
  vol := []
  tradeCounts := []
  tradeMissing := []
  absR5 := []
  absA10 := []
  rv5 := []
  rv60 := []
  vol1 := []
  vol30 := []
  absCvd30 := []
  absOfi10 := []
  absR3 := []
  absR30 := []
  qAdd := []
  qCancel := []
  tradeNotional := []
  qAddStats := ⟨none, none⟩
  qCancelStats := ⟨none, none⟩

variable (math : FloatMath) (hist : Histories)

/-! ## What is computed from the histories -/

def r3 : Option ℚ := logReturnAt math hist.micro 3 0
def r5 : Option ℚ := logReturnAt math hist.micro 5 0
def r30 : Option ℚ := logReturnAt math hist.micro 30 0

/-- The return of the last five seconds less that of the five before. -/
def a10 : Option ℚ :=
  match hist.r5 math, logReturnAt math hist.micro 5 5 with
  | some current, some previous => some (current - previous)
  | _, _ => none

def rv5Now : Option ℚ := realizedVol math hist.returns 5
def rv60Now : Option ℚ := realizedVol math hist.returns 60
def ofi10 : Option ℚ := sumLast hist.ofi 10
def cvd30 : Option ℚ := sumLast hist.cvd 30
def buy30 : Option ℚ := sumLast hist.buy 30
def sell30 : Option ℚ := sumLast hist.sell 30
def vol30Now : Option ℚ := sumLast hist.vol 30

/-- The ratio of bought to sold notional. -/
def takerRatio : Option ℚ :=
  match hist.buy30, hist.sell30 with
  | some buy, some sell => some ((buy + 1 / 1000000000) / (sell + 1 / 1000000000))
  | _, _ => none

/-! ## One bar -/

/-- The short histories after a bar with this micro price. -/
def pushBar (bar : ShockBar) (micro : ℚ) : Histories :=
  let previous := hist.micro.head?.filter fun value => decide (value > 0)
  { hist with
    micro := pushMax historyMax micro hist.micro
    returns := pushSome historyMax (previous.map fun value => math.ln (micro / value)) hist.returns
    ofi := pushMax historyMax bar.ofi1s hist.ofi
    buy := pushMax historyMax bar.buyNotional1s hist.buy
    sell := pushMax historyMax bar.sellNotional1s hist.sell
    cvd := pushMax historyMax bar.cvdDelta1s hist.cvd
    vol := pushMax historyMax bar.volumeNotional1s hist.vol
    tradeCounts := pushMax historyMax bar.tradeCount1s hist.tradeCounts
    tradeMissing := pushMax historyMax bar.tradeSideMissingCount1s hist.tradeMissing }

/-- The windows after a bar, from the histories that have it already. -/
def pushWindows (bar : ShockBar) : Histories :=
  { hist with
    absR5 := pushSome windowMax ((hist.r5 math).map abs) hist.absR5
    absA10 := pushSome windowMax ((hist.a10 math).map abs) hist.absA10
    rv5 := pushSome windowMax (hist.rv5Now math) hist.rv5
    rv60 := pushSome windowMax (hist.rv60Now math) hist.rv60
    vol1 := pushMax windowMax bar.volumeNotional1s hist.vol1
    vol30 := pushSome windowMax hist.vol30Now hist.vol30
    absCvd30 := pushSome windowMax (hist.cvd30.map abs) hist.absCvd30
    absOfi10 := pushSome windowMax (hist.ofi10.map abs) hist.absOfi10
    absR3 := pushSome windowMax ((hist.r3 math).map abs) hist.absR3
    absR30 := pushSome windowMax ((hist.r30 math).map abs) hist.absR30
    qAdd := pushMax windowMax bar.addUpdates1s hist.qAdd
    qCancel := pushMax windowMax bar.cancelUpdates1s hist.qCancel
    tradeNotional := pushMax tradeNotionalWindow bar.maxTradeNotional1s hist.tradeNotional
    qAddStats := hist.qAddStats.update bar.addUpdates1s
    qCancelStats := hist.qCancelStats.update bar.cancelUpdates1s }

/-- Histories and windows after a bar. -/
def push (bar : ShockBar) (micro : ℚ) : Histories :=
  (hist.pushBar math bar micro).pushWindows math bar

/-! ## Metrics -/

/-- `current_metrics`: the metric of each type in the current bar. -/
def metric (bar : ShockBar) : ShockType → Option ℚ
  | .priceVelocity5s => (hist.r5 math).map abs
  | .priceAccel10s => (hist.a10 math).map abs
  | .rvJump5s => hist.rv5Now math
  | .rvJump1m => hist.rv60Now math
  | .largeTrade => if bar.maxTradeNotional1s > 0 then some bar.maxTradeNotional1s else none
  | .takerImbalance30s => hist.takerRatio.map fun ratio => if ratio ≥ 1 then ratio else 1 / ratio
  | .cvdSpike30s => hist.cvd30.map abs
  | .quoteBurstAdd => some bar.addUpdates1s
  | .quoteBurstCancel => some bar.cancelUpdates1s
  | .ofiSpike10s => hist.ofi10.map abs
  | .sweep => some bar.volumeNotional1s
  | .fakeWallPull => none
  | .washTrade => hist.vol30Now

end Histories

/-! ## Detectors -/

/-- A value of `context_json`. -/
inductive ContextValue where
  | num (value : ℚ)
  | text (value : String)
  deriving DecidableEq, Repr

/-- What a detector that fires hands to `schedule_shock`. -/
structure Detection where
  (direction noiseFlag : ℤ)
  (magnitude strongThreshold : ℚ)
  context : List (String × ContextValue)
  deriving DecidableEq, Repr

/-- The sign of a value, where only positive values count as up. -/
def upIfPositive (value : ℚ) : ℤ := if value > 0 then 1 else -1

/-- The sign of a value, where zero counts as up; also `signum`. -/
def upUnlessNegative (value : ℚ) : ℤ := if value ≥ 0 then 1 else -1

/-- `{:?}` of a side. -/
def sideText : BookSide → String
  | .bid => "Bid"
  | .ask => "Ask"

namespace Histories

variable (math : FloatMath) (hist : Histories) (bar : ShockBar) (micro : ℚ)

/-- A quote burst: the updates of the second against their mean and against their window. -/
def detectBurst (updates : ℤ) (stats : EwmaStats) (window : List ℚ) (name : String) :
    Option Detection :=
  let (mean, std) := stats.snapshot math
  let z := zscore updates mean std
  let p99 := (quantile window (99 / 100)).getD 0
  if z ≥ 5 ∨ (updates : ℚ) ≥ p99 then
    some ⟨0, 0, updates, max p99 (mean + 5 * std),
      [(name, .num updates), ("z", .num z), ("p99", .num p99)]⟩
  else none

/-- The detector of each type. -/
def detect : ShockType → Option Detection
  | .priceVelocity5s =>
    (hist.r5 math).bind fun value =>
      let p99 := (quantile hist.absR5 (99 / 100)).getD 0
      let tickFloor := (bar.tickPx.map fun tick => if tick > 0 then 5 * tick / micro else 0).getD 0
      let threshold := max p99 tickFloor
      if |value| ≥ threshold then
        some ⟨upIfPositive value, 0, |value|, threshold,
          [("r5", .num value), ("threshold", .num threshold)]⟩
      else none
  | .priceAccel10s =>
    (hist.a10 math).bind fun value =>
      let p99 := (quantile hist.absA10 (99 / 100)).getD 0
      if |value| ≥ p99 then
        some ⟨upIfPositive value, 0, |value|, p99, [("a10", .num value), ("threshold", .num p99)]⟩
      else none
  | .rvJump5s =>
    (hist.rv5Now math).bind fun value =>
      let p99 := (quantile hist.rv5 (99 / 100)).getD 0
      let p50 := (quantile hist.rv5 (1 / 2)).getD 0
      if value ≥ p99 ∧ value ≥ 3 * p50 then
        some ⟨0, 0, value, p99, [("rv5", .num value), ("p99", .num p99), ("p50", .num p50)]⟩
      else none
  | .rvJump1m =>
    (hist.rv60Now math).bind fun value =>
      let p99 := (quantile hist.rv60 (99 / 100)).getD 0
      if value ≥ p99 then
        some ⟨0, 0, value, p99, [("rv60", .num value), ("p99", .num p99)]⟩
      else none
  | .largeTrade =>
    let notional := bar.maxTradeNotional1s
    let threshold := max ((quantile hist.tradeNotional (99 / 100)).getD 0) 1000
    let direction := upUnlessNegative bar.cvdDelta1s
    if notional > 0 ∧ notional ≥ threshold ∧ (hist.r3 math).map upUnlessNegative = some direction
    then
      some ⟨direction, 0, notional, threshold,
        [("max_trade_notional", .num notional), ("threshold", .num threshold)]⟩
    else none
  | .takerImbalance30s =>
    hist.takerRatio.bind fun ratio =>
      let imbalance := if ratio ≥ 1 then ratio else 1 / ratio
      if ratio ≥ 3 ∨ ratio ≤ 1 / 3 then
        some ⟨if ratio ≥ 1 then 1 else -1, 0, imbalance, 3,
          [("ratio", .num ratio), ("buy_30", .num (hist.buy30.getD 0)),
            ("sell_30", .num (hist.sell30.getD 0))]⟩
      else none
  | .cvdSpike30s =>
    hist.cvd30.bind fun cvd =>
      let p99 := (quantile hist.absCvd30 (99 / 100)).getD 0
      let missingRatio := missingRatio30s hist.tradeCounts hist.tradeMissing
      if missingRatio < 1 / 2 ∧ |cvd| ≥ p99 then
        some ⟨upIfPositive cvd, 0, |cvd|, p99,
          [("cvd_30", .num cvd), ("threshold", .num p99), ("missing_ratio", .num missingRatio)]⟩
      else none
  | .quoteBurstAdd => detectBurst math bar.addUpdates1s hist.qAddStats hist.qAdd "q_add"
  | .quoteBurstCancel =>
    detectBurst math bar.cancelUpdates1s hist.qCancelStats hist.qCancel "q_cancel"
  | .ofiSpike10s =>
    hist.ofi10.bind fun ofi =>
      let p99 := (quantile hist.absOfi10 (99 / 100)).getD 0
      if |ofi| ≥ p99 then
        some ⟨upIfPositive ofi, 0, |ofi|, p99, [("ofi_10", .num ofi), ("threshold", .num p99)]⟩
      else none
  | .sweep =>
    let p95 := (quantile hist.vol1 (95 / 100)).getD 0
    if bar.levelsCrossed1s ≥ 3 ∧ bar.volumeNotional1s ≥ p95 then
      some ⟨upUnlessNegative bar.cvdDelta1s, 0, bar.volumeNotional1s, p95,
        [("levels_crossed", .num bar.levelsCrossed1s), ("vol_1s", .num bar.volumeNotional1s)]⟩
    else none
  | .fakeWallPull =>
    bar.wallPull.bind fun signal =>
      let absR3 := ((hist.r3 math).map abs).getD 0
      let absOfi10 := (hist.ofi10.map abs).getD 0
      if absR3 ≤ (quantile hist.absR3 (20 / 100)).getD 0 ∧
          absOfi10 ≤ (quantile hist.absOfi10 (20 / 100)).getD 0 then
        some ⟨0, 1, signal.sizeBefore, signal.sizeBefore,
          [("wall_price", .num signal.price), ("wall_size", .num signal.sizeBefore),
            ("pull_ratio", .num signal.pullRatio), ("side", .text (sideText signal.side))]⟩
      else none
  | .washTrade =>
    match hist.vol30Now, hist.r30 math, hist.ofi10 with
    | some vol30, some r30, some ofi10 =>
      let p99 := (quantile hist.vol30 (99 / 100)).getD 0
      if vol30 ≥ p99 ∧ |r30| ≤ (quantile hist.absR30 (20 / 100)).getD 0 ∧
          |ofi10| ≤ (quantile hist.absOfi10 (20 / 100)).getD 0 then
        some ⟨0, 1, vol30, p99,
          [("vol_30", .num vol30), ("r30", .num r30), ("ofi_10", .num ofi10)]⟩
      else none
    | _, _, _ => none

/-- What fires under a condition has the values it is given. -/
theorem magnitude_of_ite {c : Prop} [Decidable c] {found detection : Detection}
    (h : (if c then some found else none) = some detection) :
    found.magnitude = detection.magnitude := by
  split at h
  · rw [Option.some.inj h]
  · cases h

/-- A detector fires with the metric of its type, but for pulled walls, which have none. -/
theorem detect_magnitude {shockType : ShockType} {detection : Detection}
    (h : hist.detect math bar micro shockType = some detection)
    (hmetric : hist.metric math bar shockType ≠ none) :
    hist.metric math bar shockType = some detection.magnitude := by
  cases shockType with
  | priceVelocity5s =>
    obtain ⟨value, hvalue, hfires⟩ := Option.bind_eq_some_iff.mp h
    rw [metric, hvalue, ← magnitude_of_ite hfires]
    rfl
  | priceAccel10s =>
    obtain ⟨value, hvalue, hfires⟩ := Option.bind_eq_some_iff.mp h
    rw [metric, hvalue, ← magnitude_of_ite hfires]
    rfl
  | rvJump5s =>
    obtain ⟨value, hvalue, hfires⟩ := Option.bind_eq_some_iff.mp h
    rw [metric, hvalue, ← magnitude_of_ite hfires]
  | rvJump1m =>
    obtain ⟨value, hvalue, hfires⟩ := Option.bind_eq_some_iff.mp h
    rw [metric, hvalue, ← magnitude_of_ite hfires]
  | largeTrade =>
    rw [← magnitude_of_ite h]
    unfold metric at hmetric ⊢
    dsimp only at hmetric ⊢
    split at hmetric
    · rename_i hpos
      rw [if_pos hpos]
    · exact absurd rfl hmetric
  | takerImbalance30s =>
    obtain ⟨ratio, hratio, hfires⟩ := Option.bind_eq_some_iff.mp h
    rw [metric, hratio, ← magnitude_of_ite hfires]
    rfl
  | cvdSpike30s =>
    obtain ⟨cvd, hcvd, hfires⟩ := Option.bind_eq_some_iff.mp h
    rw [metric, hcvd, ← magnitude_of_ite hfires]
    rfl
  | quoteBurstAdd => exact congrArg some (magnitude_of_ite h)
  | quoteBurstCancel => exact congrArg some (magnitude_of_ite h)
  | ofiSpike10s =>
    obtain ⟨ofi, hofi, hfires⟩ := Option.bind_eq_some_iff.mp h
    rw [metric, hofi, ← magnitude_of_ite hfires]
    rfl
  | sweep => exact congrArg some (magnitude_of_ite h)
  | fakeWallPull => exact absurd rfl hmetric
  | washTrade =>
    unfold detect at h
    dsimp only at h
    unfold metric
    dsimp only
    split at h
    · rename_i hvol _ _
      rw [hvol, ← magnitude_of_ite h]
    · cases h

end Histories

end AlphaMonitor.Shock
