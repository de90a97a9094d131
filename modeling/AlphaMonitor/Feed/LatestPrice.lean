import AlphaMonitor.Feed.Snapshotter
import AlphaMonitor.Feed.RateLimiter
import AlphaMonitor.Lib.LeastRecent
import Mathlib.Algebra.Order.Floor.Div
import Mathlib.Data.Prod.Lex
import Mathlib.Data.Rat.Floor
import Mathlib.Data.String.Basic

/-!
# The budget of latest prices

A tick asks for the latest prices of the tokens that its filters leave.  Where there are more of
them than the budget allows, those whose price was asked for least recently come first.

## Main definitions

- `Snapshotter.latestPriceBatch`: the filters of a tick
- `LatestPrices.select`: the budget
- `latestMachine`: ticks

## Main results

- `step_latestPriceBatch`: the machine takes every batch that the filters leave
- `one_le_latestPriceBudget`: a budget has room for one token
- `latest_prices_fair`: nobody waits for long
-/

namespace AlphaMonitor.Feed

open Lib (Machine least serve ahead Outrun)

/-! ## Filters -/

/-- What the ticks are set to. -/
structure LatestPriceConfig where
  (restActiveOnly latestPriceAll restWsPrimary : Bool)
  (inactiveSec wsLastPriceStaleMs wsBookStaleMs : ℤ)
  deriving DecidableEq, Repr

/-- `is_recent_activity`. -/
def isRecentActivity (lastWsSeenMs lastArrivalTsMs cutoffMs : ℤ) (wsPrimary : Bool) : Bool :=
  if wsPrimary then decide (lastWsSeenMs > 0 ∧ lastWsSeenMs > cutoffMs)
  else decide (lastWsSeenMs > 0 ∧ lastWsSeenMs > cutoffMs ∨
    lastArrivalTsMs > 0 ∧ lastArrivalTsMs > cutoffMs)

namespace Snapshotter

variable (cfg : LatestPriceConfig) (nowMs : ℤ) (snapshotter : Snapshotter)

/-- `partition_targets_by_activity`: the active targets, and the others. -/
def partitionTargetsByActivity (cutoffMs : ℤ) (targets : List String) :
    List String × List String :=
  targets.partition fun tokenKey =>
    isRecentActivity ((snapshotter.lastWsSeenMs tokenKey).getD 0)
      ((snapshotter.lastArrivalTsMs tokenKey).getD 0) cutoffMs cfg.restWsPrimary

/-- The WebSocket task has reported neither a price nor a book of the token lately. -/
def latestPriceStale (tokenKey : String) : Bool :=
  let lastPriceMs := (snapshotter.lastWsLastPriceMs tokenKey).getD 0
  let lastBookMs := (snapshotter.lastWsBookMs tokenKey).getD 0
  let priceStale := if cfg.wsLastPriceStaleMs ≤ 0 then true
    else decide (lastPriceMs = 0 ∨ nowMs - lastPriceMs > cfg.wsLastPriceStaleMs)
  let bookStale := if cfg.wsBookStaleMs ≤ 0 then true
    else decide (lastBookMs = 0 ∨ nowMs - lastBookMs > cfg.wsBookStaleMs)
  priceStale && bookStale

/-- The tokens that a tick is left with before the budget. -/
def latestPriceBatch (targets : List String) : List String × Snapshotter :=
  let cutoffMs := nowMs - cfg.inactiveSec * 1000
  let (active, inactive) := snapshotter.partitionTargetsByActivity cfg cutoffMs targets
  let batch := if cfg.restActiveOnly then active
    else if cfg.latestPriceAll then targets else inactive
  let stale := batch.filter (snapshotter.latestPriceStale cfg nowMs)
  let warm := snapshotter.filterCooldown nowMs stale
  warm.2.filterTargetsByBackoff nowMs false warm.1

theorem filterTargetsByBackoff_sublist (allowPriority : Bool) (targets : List String) :
    (snapshotter.filterTargetsByBackoff nowMs allowPriority targets).1.Sublist targets := by
  unfold filterTargetsByBackoff
  split
  · exact List.Sublist.refl targets
  · exact List.filter_sublist

theorem latestPriceBatch_sublist (targets : List String) :
    (snapshotter.latestPriceBatch cfg nowMs targets).1.Sublist targets := by
  unfold latestPriceBatch partitionTargetsByActivity
  simp only [List.partition_eq_filter_filter]
  refine (filterTargetsByBackoff_sublist _ _ _ _).trans ?_
  refine (List.filter_sublist.trans List.filter_sublist).trans ?_
  split
  · exact List.filter_sublist
  · split
    · exact List.Sublist.refl targets
    · exact List.filter_sublist

end Snapshotter

/-! ## The budget -/

/-- `latest_price_budget`: as many as the rate gives between two ticks, but one at least. -/
def latestPriceBudget (latestPriceIntervalSec : ℕ) (sharedMaxRps : ℚ) : Option ℕ :=
  if latestPriceIntervalSec > 0 ∧ sharedMaxRps > 0 then
    some (max ⌊sharedMaxRps * latestPriceIntervalSec⌋.toNat 1)
  else none

theorem one_le_latestPriceBudget {latestPriceIntervalSec : ℕ} {sharedMaxRps : ℚ} {budget : ℕ}
    (h : latestPriceBudget latestPriceIntervalSec sharedMaxRps = some budget) : 1 ≤ budget := by
  obtain ⟨-, hmax⟩ := Option.ite_none_right_eq_some.mp h
  exact Option.some.inj hmax ▸ le_max_right _ _

/-- When the price of each token was last asked for, and when that was last done. -/
structure LatestPrices where
  lastLatestPriceFetchMs : TokenTimes
  clock : ℤ

/-- A tick, with the tokens that its filters leave; none where all tokens are left alone. -/
structure LatestTick where
  nowMs : ℤ
  batch : Option (List String)
  deriving DecidableEq, Repr

namespace LatestPrices

variable (s : LatestPrices)

/-- The time at which a price was last asked for. -/
def lastFetch (tokenKey : String) : ℤ := (s.lastLatestPriceFetchMs tokenKey).getD 0

/-- What the batch is sorted by: that time, then the key. -/
def score (tokenKey : String) : ℤ ×ₗ String := toLex (s.lastFetch tokenKey, tokenKey)

/-- The tokens of a batch that the budget allows. -/
def select (budget : Option ℕ) (batch : List String) : List String :=
  match budget with
  | none => batch
  | some budget =>
    if batch.length ≤ budget then batch
    else
      let scored := batch.map s.score
      (least (min budget scored.length) scored).map fun entry => (ofLex entry).2

/-- The tokens that a tick asks for. -/
def fetched (budget : Option ℕ) (tick : LatestTick) : List String :=
  match tick.batch with
  | none => []
  | some batch => s.select budget batch

/-- Every token that is asked for is stamped. -/
def apply (budget : Option ℕ) (tick : LatestTick) : LatestPrices where
  lastLatestPriceFetchMs := fun tokenKey =>
    if tokenKey ∈ s.fetched budget tick then some tick.nowMs else s.lastLatestPriceFetchMs tokenKey
  clock := tick.nowMs

end LatestPrices

/-- Ticks at times that increase, each with any part of the targets. -/
def latestMachine (targets : List String) (budget : Option ℕ) : Machine LatestPrices LatestTick where
  init s := s.lastLatestPriceFetchMs = (fun _ => none) ∧ 0 ≤ s.clock
  step s tick :=
    if s.clock < tick.nowMs ∧ (tick.batch.getD []).Sublist targets then some (s.apply budget tick)
    else none

/-! ## One tick -/

namespace LatestPrices

variable {s : LatestPrices} {budget : ℕ} {batch targets : List String} {tokenKey : String}

theorem select_of_fits (hfits : batch.length ≤ budget) : s.select (some budget) batch = batch :=
  if_pos hfits

/-- A batch that does not fit is cut to the budget. -/
theorem select_of_not_fits (hfits : ¬batch.length ≤ budget) :
    s.select (some budget) batch =
      (least budget (batch.map s.score)).map fun entry => (ofLex entry).2 := by
  have hkeep : min budget (batch.map s.score).length = budget := by
    rw [List.length_map]
    exact min_eq_left (not_le.mp hfits).le
  refine (if_neg hfits).trans ?_
  rw [hkeep]

theorem length_select_le : (s.select (some budget) batch).length ≤ budget := by
  by_cases hfits : batch.length ≤ budget
  · rw [select_of_fits hfits]
    exact hfits
  · rw [select_of_not_fits hfits, List.length_map, Lib.length_least]
    exact min_le_left _ _

/-- The least scores carry their tokens. -/
theorem score_of_mem_least {n : ℕ} {entry : ℤ ×ₗ String}
    (h : entry ∈ least n (batch.map s.score)) :
    (ofLex entry).2 ∈ batch ∧ s.score (ofLex entry).2 = entry := by
  obtain ⟨key, hkey, rfl⟩ := List.mem_map.mp (Lib.mem_of_mem_least h)
  exact ⟨hkey, rfl⟩

/-- Where a token is left out, the budget is used up by tokens that come before it. -/
theorem outrun_of_left_out {nowMs : ℤ} (hdistinct : targets.Nodup) (hbatch : batch.Sublist targets)
    (hmem : tokenKey ∈ batch) (hout : tokenKey ∉ s.select (some budget) batch)
    (hlater : s.lastFetch tokenKey < nowMs) :
    Outrun s.lastFetch targets.toFinset nowMs (s.select (some budget) batch) tokenKey ∧
      (s.select (some budget) batch).length = budget := by
  have hfits : ¬batch.length ≤ budget := by
    intro hfits
    rw [select_of_fits hfits] at hout
    exact hout hmem
  have hscores : (batch.map s.score).Nodup := by
    apply (hdistinct.sublist hbatch).map
    intro a b hab
    exact congrArg (fun entry => (ofLex entry).2) hab
  have hmine : s.score tokenKey ∉ least budget (batch.map s.score) := by
    intro hleast
    rw [select_of_not_fits hfits] at hout
    exact hout (List.mem_map.mpr ⟨_, hleast, rfl⟩)
  rw [select_of_not_fits hfits] at hout ⊢
  constructor
  · constructor
    · apply (Lib.nodup_least hscores).map_on
      intro a ha b hb hab
      rw [← (score_of_mem_least ha).2, ← (score_of_mem_least hb).2, hab]
    · exact hout
    · exact hlater
    · intro a ha
      obtain ⟨entry, hentry, rfl⟩ := List.mem_map.mp ha
      obtain ⟨hinBatch, hscore⟩ := score_of_mem_least hentry
      have hle := Lib.le_of_mem_least hentry (List.mem_map_of_mem hmem) hmine
      rw [← hscore] at hle
      apply Finset.mem_filter.mpr
      exact ⟨List.mem_toFinset.mpr (hbatch.subset hinBatch), Prod.Lex.monotone_fst _ _ hle⟩
  · rw [List.length_map, Lib.length_least, List.length_map]
    exact min_eq_left (not_le.mp hfits).le

theorem apply_lastFetch (budget : Option ℕ) (tick : LatestTick) :
    (s.apply budget tick).lastFetch = serve s.lastFetch tick.nowMs (s.fetched budget tick) := by
  funext tokenKey
  unfold lastFetch apply serve
  dsimp only
  split
  · rfl
  · rfl

/-- No fetch is stamped later than the clock. -/
def Stamped (s : LatestPrices) : Prop := ∀ tokenKey, s.lastFetch tokenKey ≤ s.clock

theorem Stamped.apply (h : s.Stamped) {tick : LatestTick} (hlater : s.clock < tick.nowMs)
    (budget : Option ℕ) : (s.apply budget tick).Stamped := by
  intro tokenKey
  rw [apply_lastFetch]
  show serve s.lastFetch tick.nowMs _ tokenKey ≤ tick.nowMs
  unfold serve
  split
  · exact le_refl _
  · exact (h tokenKey).trans hlater.le

/-- A tick that leaves a token out takes its budget from those that are ahead of the token. -/
theorem card_ahead_apply (h : s.Stamped) (hdistinct : targets.Nodup) {tick : LatestTick}
    (hlater : s.clock < tick.nowMs) (hbatch : (tick.batch.getD []).Sublist targets)
    (heligible : ∀ batch ∈ tick.batch, tokenKey ∈ batch)
    (hout : tokenKey ∉ s.fetched (some budget) tick) :
    (ahead (s.apply (some budget) tick).lastFetch targets.toFinset tokenKey).card +
        budget * (if tick.batch.isSome then 1 else 0) =
      (ahead s.lastFetch targets.toFinset tokenKey).card := by
  rw [apply_lastFetch]
  obtain ⟨nowMs, batch⟩ := tick
  cases batch with
  | none => rfl
  | some batch =>
    have hsublist : batch.Sublist targets := hbatch
    obtain ⟨hrun, hlength⟩ := outrun_of_left_out hdistinct hsublist (heligible batch rfl) hout
      ((h tokenKey).trans_lt hlater)
    have htaken := Lib.card_ahead_serve hrun
    rw [hlength] at htaken
    show _ + budget * 1 = _
    rw [mul_one]
    exact htaken

end LatestPrices

/-! ## Runs -/

/-- The ticks that select. -/
def selecting (ticks : List LatestTick) : ℕ := ticks.countP fun tick => tick.batch.isSome

section
variable {targets : List String} {s t final : LatestPrices}

theorem step_latestMachine {budget : Option ℕ} {tick : LatestTick}
    (h : (latestMachine targets budget).step s tick = some t) :
    s.clock < tick.nowMs ∧ (tick.batch.getD []).Sublist targets ∧ s.apply budget tick = t := by
  obtain ⟨⟨hlater, hbatch⟩, happly⟩ := Option.ite_none_right_eq_some.mp h
  exact ⟨hlater, hbatch, Option.some.inj happly⟩

/-- What the filters of a tick leave is a batch that the machine takes. -/
theorem step_latestPriceBatch (cfg : LatestPriceConfig) (snapshotter : Snapshotter)
    (budget : Option ℕ) {nowMs : ℤ} (hlater : s.clock < nowMs) :
    ((latestMachine targets budget).step s
      ⟨nowMs, some (snapshotter.latestPriceBatch cfg nowMs targets).1⟩).isSome = true := by
  apply Option.isSome_iff_exists.mpr
  exact ⟨_, if_pos ⟨hlater, snapshotter.latestPriceBatch_sublist cfg nowMs targets⟩⟩

theorem stamped_of_run {budget : Option ℕ} {ticks : List LatestTick}
    (hinit : (latestMachine targets budget).init s)
    (hrun : (latestMachine targets budget).run s ticks = some t) : t.Stamped := by
  refine (latestMachine targets budget).inv_of_runMeets LatestPrices.Stamped ?_ ?_
    ((latestMachine targets budget).runMeets_trivial s ticks) hrun
  · intro s tick s' hs _ hstep
    obtain ⟨hlater, -, rfl⟩ := step_latestMachine hstep
    exact hs.apply hlater budget
  · intro tokenKey
    unfold LatestPrices.lastFetch
    rw [hinit.1]
    exact hinit.2

/-- While a token is left out, the ticks use up those that are ahead of it. -/
theorem selecting_of_left_out {budget : ℕ} {window : List LatestTick} {tokenKey : String}
    (hdistinct : targets.Nodup) (hstamped : t.Stamped)
    (hrun : (latestMachine targets (some budget)).run t window = some final)
    (heligible : ∀ tick ∈ window, ∀ batch ∈ tick.batch, tokenKey ∈ batch)
    (hout : (latestMachine targets (some budget)).RunMeets
      (fun u tick => tokenKey ∉ u.fetched (some budget) tick) t window) :
    budget * selecting window + (ahead final.lastFetch targets.toFinset tokenKey).card =
      (ahead t.lastFetch targets.toFinset tokenKey).card := by
  induction window generalizing t with
  | nil =>
    cases hrun
    exact Nat.zero_add _
  | cons tick rest ih =>
    obtain ⟨u, hu, hrest⟩ := Machine.run_cons_eq_some _ hrun
    obtain ⟨hlater, hbatch, happly⟩ := step_latestMachine hu
    have hone := LatestPrices.card_ahead_apply hstamped hdistinct hlater hbatch
      (heligible tick List.mem_cons_self) hout.1
    rw [happly] at hone
    have hothers := ih (happly ▸ hstamped.apply hlater (some budget)) hrest
      (fun tick htick => heligible tick (List.mem_cons_of_mem _ htick)) (hout.2 u hu)
    have hselecting : selecting (tick :: rest) =
        selecting rest + if tick.batch.isSome then 1 else 0 := by
      unfold selecting
      rw [List.countP_cons]
    rw [hselecting, mul_add]
    omega

end

/-- A token that the filters leave in as many selecting ticks in a row as the budget needs for all
targets is asked for in one of them, and no tick asks for more than the budget. -/
theorem latest_prices_fair {targets : List String} (hdistinct : targets.Nodup) {budget : ℕ}
    (hbudget : 1 ≤ budget) {s t final : LatestPrices} {before window : List LatestTick}
    (hinit : (latestMachine targets (some budget)).init s)
    (hbefore : (latestMachine targets (some budget)).run s before = some t)
    (hrun : (latestMachine targets (some budget)).run t window = some final) :
    (∀ tokenKey ∈ targets, (∀ tick ∈ window, ∀ batch ∈ tick.batch, tokenKey ∈ batch) →
        targets.length ⌈/⌉ budget ≤ selecting window →
      ∃ served tick later u, window = served ++ tick :: later ∧
        (latestMachine targets (some budget)).run t served = some u ∧
        tokenKey ∈ u.fetched (some budget) tick) ∧
      (latestMachine targets (some budget)).RunMeets
        (fun u tick => (u.fetched (some budget) tick).length ≤ budget) t window := by
  constructor
  · intro tokenKey hmem heligible hlong
    by_contra hnever
    have hout : (latestMachine targets (some budget)).RunMeets
        (fun u tick => tokenKey ∉ u.fetched (some budget) tick) t window := by
      by_contra hsome
      obtain ⟨served, tick, later, u, hsplit, hserved, hnot⟩ :=
        (latestMachine targets (some budget)).exists_of_not_runMeets hsome hrun
      exact hnever ⟨served, tick, later, u, hsplit, hserved, not_not.mp hnot⟩
    have hcount := selecting_of_left_out hdistinct (stamped_of_run hinit hbefore) hrun heligible hout
    have hfirst : (ahead t.lastFetch targets.toFinset tokenKey).card ≤ targets.length :=
      (Finset.card_filter_le _ _).trans (List.toFinset_card_le targets)
    -- The token itself is still ahead.
    have hself : 0 < (ahead final.lastFetch targets.toFinset tokenKey).card :=
      Finset.card_pos.mpr ⟨tokenKey, Lib.mem_ahead_self (List.mem_toFinset.mpr hmem)⟩
    have hall : targets.length ≤ budget * selecting window := by
      rw [← smul_eq_mul, ← ceilDiv_le_iff_le_smul hbudget]
      exact hlong
    omega
  · apply Machine.runMeets_of_forall
    intro tick _ u
    unfold LatestPrices.fetched
    cases tick.batch with
    | none => exact Nat.zero_le budget
    | some batch => exact LatestPrices.length_select_le

def sampleTargets : List String := ["a:yes", "b:yes", "c:yes"]

/-- Two ticks for all three targets, of which the budget allows two. -/
def sampleTicks : List LatestTick := [⟨1000, some sampleTargets⟩, ⟨2000, some sampleTargets⟩]

def samplePrices : LatestPrices := ⟨fun _ => none, 0⟩

theorem latest_prices_fair_three :
    ∃ served tick later u, sampleTicks = served ++ tick :: later ∧
      (latestMachine sampleTargets (some 2)).run samplePrices served = some u ∧
      "c:yes" ∈ u.fetched (some 2) tick := by
  have hrun : ∃ final, (latestMachine sampleTargets (some 2)).run samplePrices sampleTicks =
      some final := ⟨_, rfl⟩
  obtain ⟨final, hrun⟩ := hrun
  have hinit : (latestMachine sampleTargets (some 2)).init samplePrices := ⟨rfl, le_refl 0⟩
  have hbefore : (latestMachine sampleTargets (some 2)).run samplePrices [] = some samplePrices := rfl
  have hfair := latest_prices_fair (by decide) one_le_two hinit hbefore hrun
  refine hfair.1 "c:yes" (by decide) ?_ ?_
  · simp [sampleTicks, sampleTargets]
  · decide

end AlphaMonitor.Feed
