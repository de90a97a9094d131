import AlphaMonitor.Trade.Runs
import Mathlib.Algebra.Order.Round
import Mathlib.Tactic.Linarith
import Mathlib.Tactic.Ring

/-!
# Prices that the order builder takes

The builder takes prices between 0.001 and 0.999 with at most six decimals, and the venue
has a grid of 0.001.  Entry candidates are rounded to the grid.  Exit candidates start at
the price that `check_exit` wants and go on in steps of some ticks, without rounding.

All of it is computed in floats: a tick below 0.011 may be below 0.001.

## Main results

- `entryCandidates_onFloatGrid`: entry candidates are the floats of the grid
- `mem_exitCandidatePrices_iff`: the exit candidates are the steps away from the first price
- `PricesFit.of_decimal`: prices and ticks of the grid with some room keep within the bounds
- `exit_prices_acceptable_iff`: when all prices of an exit are taken
-/

namespace AlphaMonitor.Trade

open Lib

variable {setup : Setup} {env : Env} {key : PairKey}

/-! ## The builder and the grid -/

/-- `format_price_checked`: the price rounded to six decimals, if that is the price; how
ties are rounded does not matter. -/
def formatPriceChecked (value : ℚ) : Option ℚ :=
  let rounded : ℚ := round (f64 value * 1000000) / 1000000
  if |F64.sub value rounded| > f64 (1 / 1000000000) then none else some rounded

/-- `validate_price`. -/
def validatePrice (value : ℚ) : Option ℚ :=
  if f64 value < f64 (1 / 1000) ∨ f64 value > f64 (999 / 1000) then none
  else formatPriceChecked value

/-- The price lies on the grid of the venue. -/
def OnGrid (price : ℚ) : Prop := ∃ n : ℤ, price = n / 1000

/-- The price is the float of a point of the grid. -/
def OnFloatGrid (price : ℚ) : Prop := ∃ n : ℤ, price = f64 (n / 1000)

/-- The price is a point of the grid as exactly as the builder asks for. -/
def NearGrid (price : ℚ) : Prop := ∃ n : ℤ, |F64.sub price (n / 1000)| ≤ f64 (1 / 1000000000)

/-- The builder takes the price, and what it posts is on the grid. -/
def AcceptablePrice (price : ℚ) : Prop :=
  ∃ posted, validatePrice price = some posted ∧ OnGrid posted

/-- What passes the comparison of the builder is close. -/
theorem abs_sub_le_of_checked {x y : ℚ} (h : |F64.sub x y| ≤ f64 (1 / 1000000000)) :
    |f64 x - f64 y| ≤ 1001 / 1000000000000 := by
  have hlimit : f64 (1 / 1000000000) ≤ 1 / 1000000000 + 1 / 1000000000 / 2 ^ 53 :=
    f64_le_of (by norm_num)
  unfold F64.sub at h
  -- the difference is rounded by far less than the precision
  have hdiff := abs_le_two_mul_abs_f64 (f64 x - f64 y)
  have hround : |f64 (f64 x - f64 y) - (f64 x - f64 y)| ≤ 1 / 10 ^ 9 / 2 ^ 50 :=
    (abs_f64_sub_le_of (b := 3 / 10 ^ 9) (by linarith)).trans (by norm_num)
  rw [abs_le] at h hround ⊢
  constructor <;> linarith

theorem round_eq_of_close {x : ℚ} {n : ℤ} (h : |x - n| < 1 / 2) : round x = n := by
  rw [abs_lt] at h
  rw [round_eq, Int.floor_eq_iff]
  constructor <;> linarith

/-- Between the bounds, only the distance from the grid matters. -/
theorem acceptablePrice_iff {p : ℚ} :
    AcceptablePrice p ↔ NearGrid p ∧ f64 (1 / 1000) ≤ f64 p ∧ f64 p ≤ f64 (999 / 1000) := by
  constructor
  · rintro ⟨posted, hvalid, n, rfl⟩
    obtain ⟨hbounds, hformat⟩ := Option.ite_none_left_eq_some.mp hvalid
    obtain ⟨hlow, hhigh⟩ := not_or.mp hbounds
    obtain ⟨hclose, hrounded⟩ := Option.ite_none_left_eq_some.mp hformat
    rw [Option.some.inj hrounded] at hclose
    exact ⟨⟨n, not_lt.mp hclose⟩, not_lt.mp hlow, not_lt.mp hhigh⟩
  · rintro ⟨⟨n, hclose⟩, hlow, hhigh⟩
    have hone : f64 (999 / 1000) ≤ 1 := (f64_le_of (by norm_num)).trans (by norm_num)
    have hzero : 0 ≤ f64 (1 / 1000) := f64_nonneg (by norm_num)
    have hnear := abs_sub_le_of_checked hclose
    have hn : |(n : ℚ) / 1000| ≤ 3 := by
      have htwice := abs_le_two_mul_abs_f64 ((n : ℚ) / 1000)
      have hfloat : |f64 ((n : ℚ) / 1000)| ≤ 3 / 2 := by
        rw [abs_le] at hnear ⊢
        constructor <;> linarith
      linarith
    have hmoved := abs_f64_sub_le_of hn
    have hround : round (f64 p * 1000000) = n * 1000 := by
      apply round_eq_of_close
      push_cast
      rw [abs_le] at hnear hmoved
      rw [abs_lt]
      constructor <;> linarith
    refine ⟨n / 1000, ?_, n, rfl⟩
    have hsame : ((n * 1000 : ℤ) : ℚ) / 1000000 = n / 1000 := by
      push_cast
      ring
    unfold validatePrice formatPriceChecked
    rw [if_neg (not_or.mpr ⟨not_lt.mpr hlow, not_lt.mpr hhigh⟩)]
    simp only [hround, hsame]
    rw [if_neg (not_lt.mpr hclose)]

theorem onFloatGrid_div (n : ℤ) : OnFloatGrid (F64.div n 1000) := by
  obtain ⟨m, hm⟩ := f64_intCast n
  have hthousand : f64 1000 = 1000 := by
    have h := f64_eq (m := 1000) (e := 0) (by decide)
    rwa [zpow_zero, mul_one] at h
  refine ⟨m, ?_⟩
  unfold F64.div
  rw [hm, hthousand]

theorem onFloatGrid_roundPriceForSide (price : ℚ) (side : OrderSide) :
    OnFloatGrid (roundPriceForSide price side) := by
  cases side with
  | buy => exact onFloatGrid_div _
  | sell => exact onFloatGrid_div _

/-! ## Entry candidates -/

theorem ladderLoop_onFloatGrid {side : OrderSide} {price₀ limit bestBid bestAsk tick : ℚ}
    {stepTicks : ℤ} {n : ℕ} {idx : ℤ} {acc : List ℚ} (hacc : ∀ price ∈ acc, OnFloatGrid price) :
    ∀ price ∈ ladderLoop side price₀ limit bestBid bestAsk tick stepTicks n idx acc,
      OnFloatGrid price := by
  induction n generalizing idx acc with
  | zero => exact hacc
  | succ n ih =>
    simp only [ladderLoop]
    generalize hround : roundPriceForSide _ side = next
    have hnext : OnFloatGrid next := by
      rw [← hround]
      exact onFloatGrid_roundPriceForSide _ side
    split
    · exact hacc
    · split
      · exact ih hacc
      · apply ih
        intro price hmem
        rcases List.mem_append.mp hmem with hmem | hmem
        · exact hacc price hmem
        · rw [List.mem_singleton.mp hmem]
          exact hnext

/-- Entry candidates are floats of the grid, whatever the signal and the book are. -/
theorem entryCandidates_onFloatGrid (cfg : TradeConfig) (entry : PendingEntry) (now : ℤ)
    (bestBid bestAsk limit : ℚ) :
    ∀ price ∈ entryCandidates cfg entry now bestBid bestAsk limit, OnFloatGrid price := by
  unfold entryCandidates
  apply ladderLoop_onFloatGrid
  intro price hmem
  cases hmem

/-! ## Exit candidates -/

theorem TradeConfig.tick_pos (cfg : TradeConfig) : 0 < cfg.tick := by
  unfold TradeConfig.tick
  split
  · assumption
  · norm_num

theorem TradeConfig.chaseStep_nonneg (cfg : TradeConfig) : 0 ≤ max cfg.chaseStepTicks 1 :=
  le_max_of_le_right (by decide)

/-- How far the `i`-th price that is looked at is from the first one. -/
def TradeConfig.chaseOffset (cfg : TradeConfig) (i : ℕ) : ℚ :=
  F64.mul cfg.tick (max cfg.chaseStepTicks 1 * i : ℤ)

theorem TradeConfig.chaseOffset_mono (cfg : TradeConfig) : Monotone cfg.chaseOffset := by
  intro i j hij
  have hticks : max cfg.chaseStepTicks 1 * (i : ℤ) ≤ max cfg.chaseStepTicks 1 * (j : ℤ) :=
    mul_le_mul_of_nonneg_left (by exact_mod_cast hij) cfg.chaseStep_nonneg
  exact F64.mul_le_mul_left cfg.tick_pos.le (by exact_mod_cast hticks)

/-- The `i`-th price that is looked at. -/
def exitStepPrice (cfg : TradeConfig) (direction : ℤ) (basePrice : ℚ) (i : ℕ) : ℚ :=
  if direction > 0 then F64.add basePrice (cfg.chaseOffset i)
  else F64.sub basePrice (cfg.chaseOffset i)

@[simp] theorem f64_exitStepPrice (cfg : TradeConfig) (direction : ℤ) (basePrice : ℚ) (i : ℕ) :
    f64 (exitStepPrice cfg direction basePrice i) = exitStepPrice cfg direction basePrice i := by
  unfold exitStepPrice
  split
  · exact F64.f64_add _ _
  · exact F64.f64_sub _ _

/-- Steps go away from the first price, so a positive one has only positive ones before it. -/
theorem exitStepPrice_pos_of_le {cfg : TradeConfig} {direction : ℤ} {basePrice : ℚ} {i j : ℕ}
    (hbase : 0 < basePrice) (hij : i ≤ j)
    (hpos : 0 < exitStepPrice cfg direction basePrice j) :
    0 < exitStepPrice cfg direction basePrice i := by
  unfold exitStepPrice at hpos ⊢
  split at hpos
  · rename_i hdir
    rw [if_pos hdir]
    have hzero : 0 ≤ cfg.chaseOffset i := by
      have hmono := cfg.chaseOffset_mono (Nat.zero_le i)
      simpa [TradeConfig.chaseOffset, F64.mul] using hmono
    have hadd := F64.add_le_add (le_refl basePrice) hzero
    have hsame : F64.add basePrice 0 = f64 basePrice := by simp [F64.add]
    rw [hsame] at hadd
    exact (f64_pos hbase).trans_le hadd
  · rename_i hdir
    rw [if_neg hdir]
    exact hpos.trans_le (F64.sub_le_sub (le_refl basePrice) (cfg.chaseOffset_mono hij))

theorem mem_exitCandidateLoop_iff {cfg : TradeConfig} {bar : Bars1sPair} {direction : ℤ}
    {basePrice price : ℚ} (hbase : 0 < basePrice) (n i : ℕ) :
    price ∈ exitCandidateLoop bar direction basePrice cfg.tick (max cfg.chaseStepTicks 1) n i ↔
      ∃ j, i ≤ j ∧ j < i + n ∧ price = exitStepPrice cfg direction basePrice j ∧ 0 < price ∧
        exitMakerOk bar direction price = true := by
  induction n generalizing i with
  | zero =>
    constructor
    · intro hmem
      cases hmem
    · rintro ⟨j, hlow, hhigh, -⟩
      omega
  | succ n ih =>
    have hcast : ((i : ℤ) + 1) = ((i + 1 : ℕ) : ℤ) := by push_cast; ring
    have hnext : exitCandidateLoop bar direction basePrice cfg.tick (max cfg.chaseStepTicks 1)
        (n + 1) i =
        if exitStepPrice cfg direction basePrice i ≤ 0 then []
        else if exitMakerOk bar direction (exitStepPrice cfg direction basePrice i) = true then
          exitStepPrice cfg direction basePrice i :: exitCandidateLoop bar direction basePrice
            cfg.tick (max cfg.chaseStepTicks 1) n (i + 1 : ℕ)
        else exitCandidateLoop bar direction basePrice cfg.tick (max cfg.chaseStepTicks 1) n
          (i + 1 : ℕ) := by
      rw [← hcast]
      rfl
    rw [hnext]
    split
    · -- the price has left the positive range, and so have all that follow
      rename_i hneg
      constructor
      · intro hmem
        cases hmem
      · rintro ⟨j, hlow, -, rfl, hpos, -⟩
        exact absurd (exitStepPrice_pos_of_le hbase hlow hpos) (not_lt.mpr hneg)
    · rename_i hpos
      split
      · rename_i hmaker
        rw [List.mem_cons, ih (i + 1)]
        constructor
        · rintro (rfl | ⟨j, hlow, hhigh, hprice⟩)
          · exact ⟨i, le_refl i, by omega, rfl, not_le.mp hpos, hmaker⟩
          · exact ⟨j, by omega, by omega, hprice⟩
        · rintro ⟨j, hlow, hhigh, hprice⟩
          rcases Nat.eq_or_lt_of_le hlow with rfl | hlow
          · exact Or.inl hprice.1
          · exact Or.inr ⟨j, hlow, by omega, hprice⟩
      · rename_i htaker
        rw [ih (i + 1)]
        constructor
        · rintro ⟨j, hlow, hhigh, hprice⟩
          exact ⟨j, by omega, by omega, hprice⟩
        · rintro ⟨j, hlow, hhigh, rfl, hprice, hmaker⟩
          rcases Nat.eq_or_lt_of_le hlow with rfl | hlow
          · exact absurd hmaker htaker
          · exact ⟨j, hlow, by omega, rfl, hprice, hmaker⟩

/-- The last step that is looked at. -/
def TradeConfig.lastExitStep (cfg : TradeConfig) : ℕ := (max cfg.maxChaseTicks 0).toNat

/-- A step away from the first price that is offered: it is positive and rests in the book. -/
structure OfferedStep (cfg : TradeConfig) (bar : Bars1sPair) (direction : ℤ) (basePrice : ℚ)
    (i : ℕ) : Prop where
  last : i ≤ cfg.lastExitStep
  base : 0 < basePrice
  pos : 0 < exitStepPrice cfg direction basePrice i
  rests : exitMakerOk bar direction (exitStepPrice cfg direction basePrice i) = true

/-- The exit candidates are the steps that are offered. -/
theorem mem_exitCandidatePrices_iff {cfg : TradeConfig} {bar : Bars1sPair} {direction : ℤ}
    {basePrice price : ℚ} :
    price ∈ exitCandidatePrices cfg bar direction basePrice ↔
      ∃ i, OfferedStep cfg bar direction basePrice i ∧
        price = exitStepPrice cfg direction basePrice i := by
  unfold exitCandidatePrices
  split
  · rename_i hneg
    constructor
    · intro hmem
      cases hmem
    · rintro ⟨i, hstep, -⟩
      exact absurd hstep.base (not_lt.mpr hneg)
  · rename_i hbase
    have hbase := not_le.mp hbase
    have hloop := @mem_exitCandidateLoop_iff cfg bar direction _ price hbase
      (cfg.lastExitStep + 1) 0
    rw [Nat.cast_zero] at hloop
    refine hloop.trans ⟨?_, ?_⟩
    · rintro ⟨i, -, hlast, rfl, hpos, hmaker⟩
      exact ⟨i, ⟨by omega, hbase, hpos, hmaker⟩, rfl⟩
    · rintro ⟨i, hstep, rfl⟩
      exact ⟨i, Nat.zero_le i, by have := hstep.last; omega, rfl, hstep.pos, hstep.rests⟩

/-! ## Where the candidates start -/

/-- The second price is the better one for the holder of the position. -/
def Better (direction : ℤ) (p q : ℚ) : Prop := if direction > 0 then p < q else q < p

instance (direction : ℤ) (p q : ℚ) : Decidable (Better direction p q) :=
  inferInstanceAs (Decidable (if direction > 0 then p < q else q < p))

/-- Some way from a price toward the position's own side of the book. -/
def inward (direction : ℤ) (price way : ℚ) : ℚ :=
  if direction > 0 then F64.sub price way else F64.add price way

def outward (direction : ℤ) (price way : ℚ) : ℚ :=
  if direction > 0 then F64.add price way else F64.sub price way

/-- The best price of those who want what the position offers: it must not be crossed. -/
def ownQuote (bar : Bars1sPair) (direction : ℤ) : Option ℚ :=
  if direction > 0 then opiBestBidFromBar bar else opiBestAskFromBar bar

/-- The best price of the side that the exit joins. -/
def joinedQuote (bar : Bars1sPair) (direction : ℤ) : Option ℚ :=
  if direction > 0 then opiBestAskFromBar bar else opiBestBidFromBar bar

/-- The joined price less the configured offset, or the target where the side is empty. -/
def TradeConfig.joinedPrice (cfg : TradeConfig) (bar : Bars1sPair) (direction : ℤ) (target : ℚ) :
    ℚ :=
  ((joinedQuote bar direction).map fun best =>
    inward direction best (F64.mul (max cfg.exitTickOffset 0 : ℤ) cfg.tick)).getD (f64 target)

/-- The price that the book leaves to an exit. -/
inductive BookPrice (cfg : TradeConfig) (bar : Bars1sPair) (direction : ℤ) (target : ℚ) : ℚ → Prop
  /-- Near the best price of the joined side, where that rests. -/
  | joined (hfree : ∀ own, ownQuote bar direction = some own →
        Better direction (f64 own) (cfg.joinedPrice bar direction target)) :
      BookPrice cfg bar direction target (cfg.joinedPrice bar direction target)
  /-- A tick from the price that would be crossed. -/
  | kept {own : ℚ} (hown : ownQuote bar direction = some own)
      (hcross : ¬ Better direction (f64 own) (cfg.joinedPrice bar direction target)) :
      BookPrice cfg bar direction target (outward direction own cfg.tick)

theorem BookPrice.unique {cfg : TradeConfig} {bar : Bars1sPair} {direction : ℤ} {target p q : ℚ}
    (hp : BookPrice cfg bar direction target p) (hq : BookPrice cfg bar direction target q) :
    p = q := by
  cases hp with
  | joined hfree =>
    cases hq with
    | joined => rfl
    | kept hown hcross => exact absurd (hfree _ hown) hcross
  | kept hown hcross =>
    cases hq with
    | joined hfree => exact absurd (hfree _ hown) hcross
    | kept hown' =>
      rw [hown] at hown'
      cases hown'
      rfl

/-- The price of the book as `check_exit` computes it. -/
theorem bookPrice_of_quote (cfg : TradeConfig) (bar : Bars1sPair) (direction : ℤ) (target : ℚ) :
    BookPrice cfg bar direction target
      (match ownQuote bar direction with
        | some own =>
          if Better direction (f64 own) (cfg.joinedPrice bar direction target) then
            cfg.joinedPrice bar direction target
          else outward direction own cfg.tick
        | none => cfg.joinedPrice bar direction target) := by
  cases hown : ownQuote bar direction with
  | none =>
    refine .joined fun own hsome => ?_
    rw [hown] at hsome
    cases hsome
  | some own =>
    simp only
    split
    · rename_i hbetter
      refine .joined fun own' hsome => ?_
      rw [hown] at hsome
      cases hsome
      exact hbetter
    · rename_i hcross
      exact .kept hown hcross

/-- The exit starts at the price of the book or, where that is better, at the target. -/
theorem exitPriceFor_cases (cfg : TradeConfig) (bar : Bars1sPair) (direction : ℤ) (target : ℚ) :
    ∃ p, BookPrice cfg bar direction target p ∧
      (Better direction (f64 target) p ∧ exitPriceFor cfg bar direction target = p ∨
        ¬ Better direction (f64 target) p ∧ exitPriceFor cfg bar direction target = f64 target) := by
  refine ⟨_, bookPrice_of_quote cfg bar direction target, ?_⟩
  unfold exitPriceFor TradeConfig.joinedPrice ownQuote joinedQuote Better inward outward
  generalize f64 target = wanted
  by_cases hdir : direction > 0
  · have hmax : ∀ p : ℚ, wanted < p ∧ max p wanted = p ∨ ¬ wanted < p ∧ max p wanted = wanted := by
      intro p
      rcases lt_or_ge wanted p with hlt | hge
      · exact Or.inl ⟨hlt, max_eq_left hlt.le⟩
      · exact Or.inr ⟨not_lt.mpr hge, max_eq_right hge⟩
    simp only [if_pos hdir]
    generalize ((opiBestAskFromBar bar).map _).getD wanted = joined
    cases opiBestBidFromBar bar with
    | none => exact hmax joined
    | some bid =>
      simp only
      rcases le_or_gt joined (f64 bid) with hcross | hfree
      · rw [if_pos hcross, if_neg (not_lt.mpr hcross)]
        exact hmax _
      · rw [if_neg (not_le.mpr hfree), if_pos hfree]
        exact hmax joined
  · have hmin : ∀ p : ℚ, p < wanted ∧ min p wanted = p ∨ ¬ p < wanted ∧ min p wanted = wanted := by
      intro p
      rcases lt_or_ge p wanted with hlt | hge
      · exact Or.inl ⟨hlt, min_eq_left hlt.le⟩
      · exact Or.inr ⟨not_lt.mpr hge, min_eq_right hge⟩
    simp only [if_neg hdir]
    generalize ((opiBestBidFromBar bar).map _).getD wanted = joined
    cases opiBestAskFromBar bar with
    | none => exact hmin joined
    | some ask =>
      simp only
      rcases le_or_gt (f64 ask) joined with hcross | hfree
      · rw [if_pos hcross, if_neg (not_lt.mpr hcross)]
        exact hmin _
      · rw [if_neg (not_le.mpr hfree), if_pos hfree]
        exact hmin joined

/-! ## When the candidates are taken -/

/-- The steps away from a first price are near the grid and within the bounds of the builder. -/
structure PricesFit (cfg : TradeConfig) (bar : Bars1sPair) (direction : ℤ) (basePrice : ℚ) :
    Prop where
  nearGrid : ∀ i, OfferedStep cfg bar direction basePrice i →
    NearGrid (exitStepPrice cfg direction basePrice i)
  lowest : ∀ i, OfferedStep cfg bar direction basePrice i →
    f64 (1 / 1000) ≤ exitStepPrice cfg direction basePrice i
  highest : ∀ i, OfferedStep cfg bar direction basePrice i →
    exitStepPrice cfg direction basePrice i ≤ f64 (999 / 1000)

/-- The thousandths of the `i`-th price where first price and tick are so many thousandths. -/
def gridStep (cfg : TradeConfig) (direction first tick : ℤ) (i : ℕ) : ℤ :=
  if direction > 0 then first + tick * (max cfg.chaseStepTicks 1 * i)
  else first - tick * (max cfg.chaseStepTicks 1 * i)

/-- So many ticks of the grid are hardly moved by rounding. -/
theorem mul_ticks_close {x : ℚ} {tick ticks : ℤ} (hx : x = tick / 1000) (hpos : 0 < tick)
    (hticks : 0 ≤ ticks) (hway : tick * ticks ≤ 1000) :
    |F64.mul x ticks - tick * ticks / 1000| ≤ 3 / 2 ^ 53 := by
  have hexact : f64 (ticks : ℚ) = ticks := by
    have hsmall : ticks ≤ 1000 := le_trans (le_mul_of_one_le_left hticks hpos) hway
    have h := f64_eq (m := ticks) (e := 0) (by rw [abs_of_nonneg hticks]; omega)
    rwa [zpow_zero, mul_one] at h
  have hposCast : (0 : ℚ) < tick := by exact_mod_cast hpos
  have hticksCast : (0 : ℚ) ≤ ticks := by exact_mod_cast hticks
  have hlow : (0 : ℚ) ≤ tick * ticks := mul_nonneg hposCast.le hticksCast
  have hhigh : (tick * ticks : ℚ) ≤ 1000 := by exact_mod_cast hway
  -- the tick is rounded once, and the product once more
  have hproduct : |f64 x * ticks - tick * ticks / 1000| ≤ 1 / 2 ^ 53 := by
    have herror := abs_f64_sub_le x
    have hscaled : f64 x * ticks - tick * ticks / 1000 = (f64 x - x) * ticks := by
      rw [hx]
      ring
    have hnonneg : 0 ≤ x := by
      rw [hx]
      exact div_nonneg hposCast.le (by norm_num)
    rw [hscaled, abs_mul, abs_of_nonneg hticksCast]
    rw [abs_of_nonneg hnonneg, hx] at herror
    rw [hx]
    calc _ ≤ (tick / 1000 : ℚ) / 2 ^ 53 * ticks := mul_le_mul_of_nonneg_right herror hticksCast
      _ = tick * ticks / 1000 / 2 ^ 53 := by ring
      _ ≤ 1 / 2 ^ 53 := by
        apply div_le_div_of_nonneg_right _ (by positivity)
        linarith
  unfold F64.mul
  rw [hexact]
  have hround := abs_f64_sub_le_of (x := f64 x * ticks) (b := 2) (by
    rw [abs_le] at hproduct ⊢
    constructor <;> linarith)
  rw [abs_le] at hproduct hround ⊢
  constructor <;> linarith

/-- Rounding moves what is close to a price by little more. -/
theorem f64_close {x y : ℚ} (hlow : 0 ≤ y) (hhigh : y ≤ 1) (hclose : |x - y| ≤ 4 / 2 ^ 53) :
    |f64 x - y| ≤ 6 / 2 ^ 53 := by
  have hround := abs_f64_sub_le_of (x := x) (b := 2) (by
    rw [abs_le] at hclose ⊢
    constructor <;> linarith)
  rw [abs_le] at hclose hround ⊢
  constructor <;> linarith

/-- The steps from a first price of the grid by ticks of the grid are hardly moved by rounding. -/
theorem exitStepPrice_close {cfg : TradeConfig} {direction first tick : ℤ} {i : ℕ}
    (htick : cfg.tick = tick / 1000) (hfirst : 0 ≤ first ∧ first ≤ 1000)
    (hstep : 0 ≤ gridStep cfg direction first tick i ∧ gridStep cfg direction first tick i ≤ 1000) :
    |exitStepPrice cfg direction (f64 (first / 1000)) i -
        gridStep cfg direction first tick i / 1000| ≤ 6 / 2 ^ 53 := by
  have hpos : (0 : ℤ) < tick := by
    have hpos := cfg.tick_pos
    rw [htick] at hpos
    have hcast : (0 : ℚ) < tick := by linarith
    exact_mod_cast hcast
  unfold exitStepPrice TradeConfig.chaseOffset gridStep at *
  have hsteps : (0 : ℤ) ≤ max cfg.chaseStepTicks 1 * i :=
    mul_nonneg cfg.chaseStep_nonneg (by positivity)
  generalize max cfg.chaseStepTicks 1 * (i : ℤ) = ticks at *
  have hway : tick * ticks ≤ 1000 := by split at hstep <;> omega
  have hoffset := mul_ticks_close htick hpos hsteps hway
  have hfirstCast : (0 : ℚ) ≤ first ∧ (first : ℚ) ≤ 1000 := by exact_mod_cast hfirst
  have hbase := abs_f64_sub_le_of (x := (first : ℚ) / 1000) (b := 1) (by
    rw [abs_of_nonneg (by linarith)]
    linarith)
  have hbase' := f64_f64 ((first : ℚ) / 1000)
  have hoffset' := F64.f64_mul cfg.tick ticks
  generalize f64 ((first : ℚ) / 1000) = base at *
  generalize F64.mul cfg.tick ticks = offset at *
  split
  · rename_i hdir
    rw [if_pos hdir] at hstep
    unfold F64.add
    rw [hbase', hoffset']
    have hlow : (0 : ℚ) ≤ first + tick * ticks := by exact_mod_cast hstep.1
    have hhigh : (first + tick * ticks : ℚ) ≤ 1000 := by exact_mod_cast hstep.2
    push_cast
    apply f64_close
    · linarith
    · linarith
    · rw [abs_le] at hbase hoffset ⊢
      constructor <;> linarith
  · rename_i hdir
    rw [if_neg hdir] at hstep
    unfold F64.sub
    rw [hbase', hoffset']
    have hlow : (0 : ℚ) ≤ first - tick * ticks := by exact_mod_cast hstep.1
    have hhigh : (first - tick * ticks : ℚ) ≤ 1000 := by exact_mod_cast hstep.2
    push_cast
    apply f64_close
    · linarith
    · linarith
    · rw [abs_le] at hbase hoffset ⊢
      constructor <;> linarith

/-- Steps on the grid with a thousandth of room to the bounds of the builder are taken. -/
theorem PricesFit.of_decimal {cfg : TradeConfig} {bar : Bars1sPair} {direction first tick : ℤ}
    (htick : cfg.tick = tick / 1000) (hfirst : 0 ≤ first ∧ first ≤ 1000)
    (hroom : ∀ i ≤ cfg.lastExitStep, 2 ≤ gridStep cfg direction first tick i ∧
      gridStep cfg direction first tick i ≤ 998) :
    PricesFit cfg bar direction (f64 (first / 1000)) := by
  have hclose : ∀ i, OfferedStep cfg bar direction (f64 (first / 1000)) i →
      ∃ n : ℤ, 2 ≤ n ∧ n ≤ 998 ∧
        |exitStepPrice cfg direction (f64 (first / 1000)) i - n / 1000| ≤ 6 / 2 ^ 53 := by
    intro i hstep
    obtain ⟨hlow, hhigh⟩ := hroom i hstep.last
    exact ⟨_, hlow, hhigh, exitStepPrice_close htick hfirst ⟨by omega, by omega⟩⟩
  refine ⟨?_, ?_, ?_⟩
  · intro i hstep
    obtain ⟨n, hlow, hhigh, hnear⟩ := hclose i hstep
    refine ⟨n, ?_⟩
    have hlowCast : (2 : ℚ) ≤ n := by exact_mod_cast hlow
    have hhighCast : (n : ℚ) ≤ 998 := by exact_mod_cast hhigh
    have hlimit := le_f64_of (x := 1 / 1000000000) (by norm_num)
    have hpoint := abs_f64_sub_le_of (x := (n : ℚ) / 1000) (b := 1) (by
      rw [abs_of_nonneg (by linarith)]
      linarith)
    unfold F64.sub
    rw [f64_exitStepPrice]
    have hdiff : |exitStepPrice cfg direction (f64 (first / 1000)) i - f64 (n / 1000)| ≤
        7 / 2 ^ 53 := by
      rw [abs_le] at hnear hpoint ⊢
      constructor <;> linarith
    have hround := abs_f64_sub_le_of hdiff
    rw [abs_le] at hdiff hround ⊢
    constructor <;> linarith
  · intro i hstep
    obtain ⟨n, hlow, -, hnear⟩ := hclose i hstep
    have hcast : (2 : ℚ) ≤ n := by exact_mod_cast hlow
    have hbound := f64_le_of (x := 1 / 1000) (by norm_num)
    linarith [(abs_le.mp hnear).1]
  · intro i hstep
    obtain ⟨n, -, hhigh, hnear⟩ := hclose i hstep
    have hcast : (n : ℚ) ≤ 998 := by exact_mod_cast hhigh
    have hbound := le_f64_of (x := 999 / 1000) (by norm_num)
    linarith [(abs_le.mp hnear).2]

/-- The condition on the target of an exit, the book, the tick and the steps. -/
structure ExitFits (cfg : TradeConfig) (bar : Bars1sPair) (direction : ℤ) (target : ℚ) :
    Prop where
  /-- The price of the book counts where it is better than the target. -/
  book : ∀ p, BookPrice cfg bar direction target p → Better direction (f64 target) p →
    PricesFit cfg bar direction p
  /-- Elsewhere the target is offered as it is. -/
  target : ∀ p, BookPrice cfg bar direction target p → ¬ Better direction (f64 target) p →
    PricesFit cfg bar direction (f64 target)

theorem exitFits_iff {cfg : TradeConfig} {bar : Bars1sPair} {direction : ℤ} {target : ℚ} :
    ExitFits cfg bar direction target ↔
      PricesFit cfg bar direction (exitPriceFor cfg bar direction target) := by
  obtain ⟨p, hbook, hcase⟩ := exitPriceFor_cases cfg bar direction target
  constructor
  · intro h
    rcases hcase with ⟨hbetter, hprice⟩ | ⟨hworse, hprice⟩
    · rw [hprice]
      exact h.book p hbook hbetter
    · rw [hprice]
      exact h.target p hbook hworse
  · intro h
    rcases hcase with ⟨hbetter, hprice⟩ | ⟨hworse, hprice⟩
    · rw [hprice] at h
      refine ⟨fun q hq _ => hq.unique hbook ▸ h, fun q hq hworse => ?_⟩
      exact absurd hbetter (hq.unique hbook ▸ hworse)
    · rw [hprice] at h
      refine ⟨fun q hq hbetter => ?_, fun _ _ _ => h⟩
      exact absurd (hq.unique hbook ▸ hbetter) hworse

/-- The candidates of an exit are all taken exactly when its target fits. -/
theorem exitCandidatePrices_acceptable_iff {cfg : TradeConfig} {bar : Bars1sPair}
    {direction : ℤ} {target : ℚ} :
    (∀ price ∈ exitCandidatePrices cfg bar direction (exitPriceFor cfg bar direction target),
        AcceptablePrice price) ↔ ExitFits cfg bar direction target := by
  rw [exitFits_iff]
  generalize exitPriceFor cfg bar direction target = basePrice
  constructor
  · intro h
    have htaken : ∀ i, OfferedStep cfg bar direction basePrice i →
        AcceptablePrice (exitStepPrice cfg direction basePrice i) :=
      fun i hstep => h _ (mem_exitCandidatePrices_iff.mpr ⟨i, hstep, rfl⟩)
    simp only [acceptablePrice_iff, f64_exitStepPrice] at htaken
    exact ⟨fun i hstep => (htaken i hstep).1, fun i hstep => (htaken i hstep).2.1,
      fun i hstep => (htaken i hstep).2.2⟩
  · intro h price hmem
    obtain ⟨i, hstep, rfl⟩ := mem_exitCandidatePrices_iff.mp hmem
    rw [acceptablePrice_iff, f64_exitStepPrice]
    exact ⟨h.nearGrid i hstep, h.lowest i hstep, h.highest i hstep⟩

/-! ## What reaches the exchange -/

/-- A post-only rejection as the exchange words it. -/
def postOnlyReply : PlaceReply := .apiError 1 "post only"

theorem postOnlyReply_retried (u : LowerTable) (checkMissing : Bool) :
    postOnlyReply.Retried u checkMissing := by
  refine ⟨apiErrorText 1 "post only", rfl, ?_, ?_⟩
  · rintro ⟨-, hmissing⟩
    have hlow := toLowercase_ascii u (apiErrorText 1 "post only") (by decide +kernel)
    simp only [isOrderIdMissing, hlow] at hmissing
    revert hmissing
    decide +kernel
  · have hlow := toLowercase_ascii u (apiErrorText 1 "post only") (by decide +kernel)
    simp only [isPostOnlyReject, hlow]
    decide +kernel

/-- A chase whose calls are all rejected goes through all candidates. -/
theorem chaseLoop_prices_of_retried {u : LowerTable} {checkMissing : Bool}
    {attempt : ℕ → ℚ → Submission} (hprice : ∀ i price, (attempt i price).price = price)
    (hretry : ∀ i price, (attempt i price).reply.Retried u checkMissing) (prices : List ℚ)
    (i : ℕ) (acc : PlaceResult) :
    (chaseLoop u checkMissing attempt i acc prices).2.map (·.price) = prices := by
  induction prices generalizing i acc with
  | nil => rfl
  | cons price rest ih =>
    rcases chaseLoop_log_cons u checkMissing attempt i acc price rest with
      ⟨hstop, -⟩ | ⟨-, acc', hlog⟩
    · exact absurd (hretry i price) hstop
    · rw [hlog, List.map_cons, ih (i + 1) acc', hprice]

/-- The exit chase calls only candidates, and may have to call all of them. -/
theorem placeExitWithChase_all_iff (u : LowerTable) (key : PairKey) (side : OrderSide) (qty : ℚ)
    (clientPrefix : String) (clock : ℕ → ℤ) (candidates : List ℚ) (P : ℚ → Prop) :
    (∀ replies : ℕ → PlaceReply, ∀ call ∈
        (placeExitWithChase u true true key side qty clientPrefix clock replies candidates).2,
        P call.price) ↔
      ∀ price ∈ candidates, P price := by
  constructor
  · intro h price hmem
    have hall : (placeExitWithChase u true true key side qty clientPrefix clock
        (fun _ => postOnlyReply) candidates).2.map (·.price) = candidates :=
      chaseLoop_prices_of_retried (fun _ _ => rfl) (fun _ _ => postOnlyReply_retried u false) _ _ _
    rw [← hall] at hmem
    obtain ⟨call, hcall, rfl⟩ := List.mem_map.mp hmem
    exact h _ call hcall
  · intro h replies call hcall
    exact h _ ((placeExitWithChase_outcome u true true key side qty clientPrefix clock replies
      candidates).calls call hcall).2.2

theorem placeExit_exitCalls (desk : Desk) (st : PairTradeState) (bar : Bars1sPair)
    (exitPrice qty : ℚ) :
    (placeExit setup env desk st bar key exitPrice qty).1.exitCalls =
      desk.exitCalls ++ (placeExitWithChase env.lower (setup.orderTargets key).isSome
        setup.opinionClient (bar.pairId, bar.tokenSide) (exitSide st.direction) qty
        setup.cfg.orderClientPrefix env.clock (env.exitReplies key)
        (exitCandidatePrices setup.cfg bar st.direction exitPrice)).2.map fun call =>
          (key, call) := by
  unfold placeExit
  simp only
  split
  · rfl
  · rfl

/-- A position that needs an exit order gets exactly one chase. -/
theorem exitPlacements_exitCalls (desk : Desk) (st : PairTradeState) (bar : Bars1sPair)
    (plan : ExitPlan) (qty : ℚ) (hlive : setup.isLive = true)
    (hfree : st.state = .exitWorking →
      st.exitOrderId = none ∧ st.exitClientId = none ∧ plan.canReprice = true) :
    (exitPlacements setup env desk st bar key plan qty).1.exitCalls =
      desk.exitCalls ++ (placeExitWithChase env.lower (setup.orderTargets key).isSome
        setup.opinionClient (bar.pairId, bar.tokenSide) (exitSide st.direction) qty
        setup.cfg.orderClientPrefix env.clock (env.exitReplies key)
        (exitCandidatePrices setup.cfg bar st.direction plan.exitPrice)).2.map fun call =>
          (key, call) := by
  unfold exitPlacements
  by_cases hstate : st.state = .exitWorking
  · obtain ⟨horder, hclient, hready⟩ := hfree hstate
    have hfirst : setup.isLive = true ∧
        (decide (st.state = .exitWorking) && st.exitOrderId.isNone && st.exitClientId.isNone) =
          true ∧ plan.canReprice = true := by
      rw [horder, hclient, decide_eq_true hstate]
      exact ⟨hlive, rfl, hready⟩
    have hafter : (placeExit setup env desk st bar key plan.exitPrice qty).2.state =
        .exitWorking := (placeExit_state desk st bar plan.exitPrice qty).trans hstate
    simp only [if_pos hfirst, if_pos hafter]
    exact placeExit_exitCalls desk st bar plan.exitPrice qty
  · have hfirst : ¬ (setup.isLive = true ∧
        (decide (st.state = .exitWorking) && st.exitOrderId.isNone && st.exitClientId.isNone) =
          true ∧ plan.canReprice = true) := by
      rw [decide_eq_false hstate]
      rintro ⟨-, hneeds, -⟩
      cases hneeds
    simp only [if_neg hfirst, if_neg hstate, if_pos hlive]
    exact placeExit_exitCalls desk _ bar plan.exitPrice qty

theorem exitPoll_exitCalls (desk : Desk) (st : PairTradeState) :
    (exitPoll setup env desk st key).1.exitCalls = desk.exitCalls := by
  unfold exitPoll
  split
  · rfl
  · rfl

/-- `check_exit` places or re-places an exit order: no cancel is pending, and an exit that
is worked already has no order and may be placed again. -/
structure PlacesExit (setup : Setup) (env : Env) (key : PairKey) (st : PairTradeState) :
    Prop where
  live : setup.isLive = true
  client : setup.opinionClient = true
  target : (setup.orderTargets key).isSome = true
  noCancel : st.exitCancelPending = false
  free : st.state = .exitWorking → st.exitOrderId = none ∧ st.exitClientId = none ∧
    (st.lastExitPlaceMs.map fun last =>
      decide (env.now - last ≥ setup.orderPollIntervalMs)).getD true = true

/-- The orders that `check_exit` hands to the client. -/
def exitSubmissions (setup : Setup) (env : Env) (signals : List ShockSignal) (desk : Desk)
    (st : PairTradeState) (bar : Bars1sPair) (flow : PmFlow) (basePm : ℚ) (key : PairKey) :
    List Submission :=
  ((checkExit setup env signals desk st bar flow basePm key).1.exitCalls.drop
    desk.exitCalls.length).map (·.2)

/-- Exactly one exit chase is made. -/
theorem PlacesExit.submissions {signals : List ShockSignal} {desk : Desk} {st : PairTradeState}
    {bar : Bars1sPair} {flow : PmFlow} {basePm entryPrice qty : ℚ}
    (h : PlacesExit setup env key st) (hprice : st.entryPrice = some entryPrice)
    (hqty : st.entryQty = some qty) :
    exitSubmissions setup env signals desk st bar flow basePm key =
      (placeExitWithChase env.lower true true (bar.pairId, bar.tokenSide)
        (exitSide st.direction) qty setup.cfg.orderClientPrefix env.clock (env.exitReplies key)
        (exitCandidatePrices setup.cfg bar st.direction
          (exitPlan setup env desk.books signals st bar flow basePm entryPrice qty).exitPrice)).2
      := by
  have hcan : (exitPlan setup env desk.books signals st bar flow basePm entryPrice
      qty).canReprice = (st.lastExitPlaceMs.map fun last =>
        decide (env.now - last ≥ setup.orderPollIntervalMs)).getD true := rfl
  unfold exitSubmissions checkExit
  simp only [hprice, hqty]
  generalize exitPlan setup env desk.books signals st bar flow basePm entryPrice qty = plan
    at hcan ⊢
  rw [if_neg (by simp [h.noCancel]), if_pos h.live]
  have hwaits : ¬ (setup.isLive = true ∧ st.state = .exitWorking ∧ plan.repriceNeeded = true ∧
      plan.canReprice = true ∧ st.exitPlaceReqId = none ∧
      (st.exitOrderId.isSome = true ∨ st.exitClientId.isSome = true)) := by
    rintro ⟨-, hstate, -, -, -, hid⟩
    obtain ⟨horder, hclient, -⟩ := h.free hstate
    rw [horder, hclient] at hid
    rcases hid with hid | hid
    · cases hid
    · cases hid
  rw [if_neg hwaits, exitPoll_exitCalls]
  rw [exitPlacements_exitCalls desk _ bar plan qty h.live ?_, h.target, h.client,
    List.drop_left, List.map_map]
  · exact List.map_id _
  · intro hstate
    obtain ⟨horder, hclient, hready⟩ := h.free hstate
    exact ⟨horder, hclient, hcan.trans hready⟩

/-- The time to live of the exit order is over. -/
def exitTtlOver (cfg : TradeConfig) (env : Env) (st : PairTradeState) : Bool :=
  decide (cfg.exitTtlMs > 0) &&
    ((st.lastExitPlaceMs.map fun last => decide (env.now - last ≥ cfg.exitTtlMs)).getD false)

/-- The target that an exit is priced at: that of `compute_exit_target`, closer to the entry under
any reason but the time to live. -/
def pricedTarget (setup : Setup) (env : Env) (books : Books) (signals : List ShockSignal)
    (st : PairTradeState) (bar : Bars1sPair) (flow : PmFlow) (basePm entryPrice qty : ℚ) : ℚ :=
  hurriedTarget entryPrice (computeExitTarget setup env books st flow basePm entryPrice qty)
    (exitReason setup.cfg signals st bar flow (exitTtlOver setup.cfg env st))

/-- The sample entry is filled and its exit is to be placed. -/
def sampleFilled : PairTradeState :=
  { (sampleEngine sampleEntering).stateOf sampleKey with
    state := .positionOpen
    entryPrice := some (1 / 2)
    entryQty := some 20 }

/-- The sample market with gas that takes 7/60 of a share of profit. -/
def gasSetup : Setup :=
  { sampleSetup with cfg := { sampleCfg with gasEstUsd := 7 / 3, gasMult := 1 } }

/-- The sample entry with a larger edge is placed and filled. -/
def gasRun : List (Env × TradeMessage) :=
  [(sampleEnv 0 "x", .pairBar (sampleBar 0) (some { sampleSignal with edgeRaw := 1 })),
    (sampleEnv 1000 "x", .pairBar (sampleBar 1) none),
    (sampleEnv 1100 "x", samplePlaced 1 "e1"),
    (sampleEnv 1200 "x1", sampleTrade "e1" "BUY" (1 / 2) 20)]

end AlphaMonitor.Trade
