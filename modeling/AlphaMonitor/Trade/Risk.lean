import AlphaMonitor.Trade.Config
import Mathlib.Algebra.Order.Field.Rat

/-!
# Exposure and entry budget

`TradeRiskState` is shared by all engine shards; `pair_exposure` belongs to one
engine.  `Books` is what one engine sees of both.  Entries of the source's maps
that are absent read as zero.
-/

namespace AlphaMonitor.Trade

/-- `ExposureKey`: pair, side and direction. -/
abbrev ExposureKey := ℤ × TokenSide × ℤ

/-- `TradeRiskState`. -/
structure TradeRiskState where
  exposureUsed : ℚ
  strategyExposure : AlphaType → ℚ
  openPositions : ℕ
  entryPoolSecond : Option ℤ
  entryPoolRemaining : ℚ

def TradeRiskState.start : TradeRiskState := ⟨0, fun _ => 0, 0, none, 0⟩

/-- The shared risk state and the engine's own exposure by pair. -/
structure Books where
  risk : TradeRiskState
  pairExposure : ExposureKey → ℚ
  /-- What the last `add_exposure` of a key added.  No function of the engine reads it;
  it is kept to say what the sums should be. -/
  added : ExposureKey → ℚ

def Books.start : Books := ⟨TradeRiskState.start, fun _ => 0, fun _ => 0⟩

/-! ## Exposure -/

/-- `add_exposure`. -/
def Books.addExposure (books : Books) (key : ExposureKey) (notional : ℚ) (alphaType : AlphaType) :
    Books :=
  -- nothing is added, and nothing would have to be released
  if notional ≤ 0 then { books with added := Function.update books.added key 0 }
  else
    { risk :=
        { books.risk with
          exposureUsed := books.risk.exposureUsed + notional
          openPositions := books.risk.openPositions + 1
          strategyExposure := Function.update books.risk.strategyExposure alphaType
            (books.risk.strategyExposure alphaType + notional) }
      pairExposure :=
        Function.update books.pairExposure key (books.pairExposure key + notional)
      added := Function.update books.added key notional }

/-- `release_exposure`. -/
def Books.releaseExposure (books : Books) (key : ExposureKey) (notional : ℚ)
    (alphaType : AlphaType) : Books :=
  -- releasing nothing leaves the position count alone
  if notional ≤ 0 then books
  else
    { books with
      risk :=
        { books.risk with
          -- `max(0.0)`: a release of too much is cut off
          exposureUsed := max (books.risk.exposureUsed - notional) 0
          openPositions := books.risk.openPositions - 1
          strategyExposure := Function.update books.risk.strategyExposure alphaType
            (max (books.risk.strategyExposure alphaType - notional) 0) }
      pairExposure :=
        Function.update books.pairExposure key (max (books.pairExposure key - notional) 0) }

/-! ## Entry pool -/

namespace TradeRiskState

variable (cfg : TradeConfig) (risk : TradeRiskState)

/-- `reset_entry_pool`. -/
def resetEntryPool (barSecond : ℤ) : TradeRiskState :=
  -- once a second
  if risk.entryPoolSecond = some barSecond then risk
  else
    { risk with
      entryPoolSecond := some barSecond
      entryPoolRemaining := cfg.balanceTotalUsd * cfg.entryPoolFrac }

/-- `entry_pool_available`: the pool after a reset, and what is left of it. -/
def entryPoolAvailable (barSecond : ℤ) : TradeRiskState × ℚ :=
  let risk := risk.resetEntryPool cfg barSecond
  (risk, max risk.entryPoolRemaining 0)

/-- `reserve_entry_pool`. -/
def reserveEntryPool (barSecond : ℤ) (notional : ℚ) : TradeRiskState :=
  let risk := risk.resetEntryPool cfg barSecond
  -- the pool never goes below zero
  { risk with entryPoolRemaining := max (risk.entryPoolRemaining - notional) 0 }

/-- `release_entry_pool`. -/
def releaseEntryPool (barSecond : ℤ) (notional : ℚ) : TradeRiskState :=
  let risk := risk.resetEntryPool cfg barSecond
  { risk with
    entryPoolRemaining :=
      -- and never above its size
      min (risk.entryPoolRemaining + notional) (cfg.balanceTotalUsd * cfg.entryPoolFrac) }

end TradeRiskState

/-! ## Budget -/

/-- The bound is applied only where its cap is configured. -/
def capIf (configured : Bool) (bound notional : ℚ) : ℚ :=
  if configured then min notional bound else notional

/-- What is left of the global cap. -/
def Books.availableGlobal (cfg : TradeConfig) (books : Books) : ℚ :=
  -- an overdrawn cap leaves nothing
  max (cfg.balanceTotalUsd * cfg.maxGlobalExposureFrac - books.risk.exposureUsed) 0

/-- What is left of the pair's cap. -/
def Books.availablePair (cfg : TradeConfig) (books : Books) (key : ExposureKey) : ℚ :=
  max (cfg.balanceTotalUsd * cfg.maxPerPairExposureFrac - books.pairExposure key) 0

/-- What is left of the strategy's cap. -/
def Books.availableStrategy (cfg : TradeConfig) (books : Books) (alphaType : AlphaType) : ℚ :=
  max (cfg.balanceTotalUsd * cfg.strategyCap alphaType - books.risk.strategyExposure alphaType) 0

/-- The `notional` of `budget_for_entry`: the smallest of what every cap leaves. -/
def Books.notionalLeft (cfg : TradeConfig) (books : Books) (key : ExposureKey)
    (poolOverride : Option ℚ) (alphaType : AlphaType) : ℚ :=
  let total := cfg.balanceTotalUsd
  let free := cfg.balanceFreeUsd
  -- fractions of the free and of the total balance, where they are configured
  let base := capIf (decide (cfg.entryFractionFree > 0)) (free * cfg.entryFractionFree)
    (capIf (decide (cfg.entryFraction > 0)) (total * cfg.entryFraction)
      (min free (total * cfg.entryPoolFrac)))
  -- the caller of a flush brings the pool it has seen
  let poolAvailable :=
    match poolOverride with
    | some pool => min pool books.risk.entryPoolRemaining
    | none => books.risk.entryPoolRemaining
  let notional := min (min (min base poolAvailable) (books.availableGlobal cfg))
    (books.availablePair cfg key)
  -- a cap of zero is switched off
  let notional := capIf (decide (total * cfg.strategyCap alphaType > 0))
    (books.availableStrategy cfg alphaType) notional
  capIf (decide (total * cfg.perTradeCap alphaType > 0)) (total * cfg.perTradeCap alphaType)
    notional

/-- `budget_for_entry`: the notional that all caps leave, if it is positive.  The
entry pool is reset on the way. -/
def Books.budgetForEntry (cfg : TradeConfig) (books : Books) (key : ExposureKey) (barSecond : ℤ)
    (poolOverride : Option ℚ) (alphaType : AlphaType) : Books × Option ℚ :=
  -- without a balance the pool is not even reset
  if cfg.balanceTotalUsd ≤ 0 ∨ cfg.balanceFreeUsd ≤ 0 then (books, none)
  else
    let books := { books with risk := books.risk.resetEntryPool cfg barSecond }
    if books.risk.openPositions ≥ cfg.maxOpenPositions then (books, none)
    else if books.availableGlobal cfg ≤ 0 then (books, none)
    else
      let notional := books.notionalLeft cfg key poolOverride alphaType
      if notional ≤ 0 then (books, none) else (books, some notional)

/-! ## Counters -/

/-- The counters that the caps are about: the books without the entry pool. -/
structure Counters where
  exposureUsed : ℚ
  strategyExposure : AlphaType → ℚ
  openPositions : ℕ
  pairExposure : ExposureKey → ℚ
  added : ExposureKey → ℚ

def Counters.start : Counters := ⟨0, fun _ => 0, 0, fun _ => 0, fun _ => 0⟩

namespace Counters

/-- What `add_exposure` does to the counters. -/
def add (c : Counters) (key : ExposureKey) (notional : ℚ) (alphaType : AlphaType) : Counters :=
  if notional ≤ 0 then { c with added := Function.update c.added key 0 }
  else
    { exposureUsed := c.exposureUsed + notional
      openPositions := c.openPositions + 1
      strategyExposure := Function.update c.strategyExposure alphaType
        (c.strategyExposure alphaType + notional)
      pairExposure := Function.update c.pairExposure key (c.pairExposure key + notional)
      added := Function.update c.added key notional }

/-- What `release_exposure` does to the counters. -/
def release (c : Counters) (key : ExposureKey) (notional : ℚ) (alphaType : AlphaType) : Counters :=
  if notional ≤ 0 then c
  else
    { c with
      exposureUsed := max (c.exposureUsed - notional) 0
      openPositions := c.openPositions - 1
      strategyExposure := Function.update c.strategyExposure alphaType
        (max (c.strategyExposure alphaType - notional) 0)
      pairExposure := Function.update c.pairExposure key (max (c.pairExposure key - notional) 0) }

end Counters

def Books.counters (books : Books) : Counters where
  exposureUsed := books.risk.exposureUsed
  strategyExposure := books.risk.strategyExposure
  openPositions := books.risk.openPositions
  pairExposure := books.pairExposure
  added := books.added

section Effects

variable (cfg : TradeConfig) (books : Books)

@[simp] theorem counters_start : Books.start.counters = Counters.start := rfl

@[simp] theorem counters_addExposure (key : ExposureKey) (notional : ℚ) (alphaType : AlphaType) :
    (books.addExposure key notional alphaType).counters =
      books.counters.add key notional alphaType := by
  unfold Books.addExposure Counters.add
  split <;> rfl

@[simp] theorem counters_releaseExposure (key : ExposureKey) (notional : ℚ)
    (alphaType : AlphaType) :
    (books.releaseExposure key notional alphaType).counters =
      books.counters.release key notional alphaType := by
  unfold Books.releaseExposure Counters.release
  split <;> rfl

/-- The entry pool is no counter: resetting it changes none. -/
@[simp] theorem counters_resetEntryPool (barSecond : ℤ) :
    Books.counters { books with risk := books.risk.resetEntryPool cfg barSecond } =
      books.counters := by
  unfold TradeRiskState.resetEntryPool
  split <;> rfl

@[simp] theorem counters_entryPoolAvailable (barSecond : ℤ) :
    Books.counters { books with risk := (books.risk.entryPoolAvailable cfg barSecond).1 } =
      books.counters :=
  counters_resetEntryPool cfg books barSecond

@[simp] theorem counters_reserveEntryPool (barSecond : ℤ) (notional : ℚ) :
    Books.counters { books with risk := books.risk.reserveEntryPool cfg barSecond notional } =
      books.counters :=
  counters_resetEntryPool cfg books barSecond

@[simp] theorem counters_releaseEntryPool (barSecond : ℤ) (notional : ℚ) :
    Books.counters { books with risk := books.risk.releaseEntryPool cfg barSecond notional } =
      books.counters :=
  counters_resetEntryPool cfg books barSecond

@[simp] theorem counters_budgetForEntry (key : ExposureKey) (barSecond : ℤ)
    (poolOverride : Option ℚ) (alphaType : AlphaType) :
    (books.budgetForEntry cfg key barSecond poolOverride alphaType).1.counters =
      books.counters := by
  have hreset := counters_resetEntryPool cfg books barSecond
  unfold Books.budgetForEntry
  simp only
  split
  · rfl
  · split
    · exact hreset
    · split
      · exact hreset
      · split
        · exact hreset
        · exact hreset

end Effects

end AlphaMonitor.Trade
