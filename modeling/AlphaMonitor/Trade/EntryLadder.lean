import AlphaMonitor.Trade.ExitPrices

/-!
# The entry ladder

The candidates of an entry start inside the spread, no further than the price limit, and go
on in steps away from the opposite side of the book.  Each is rounded to the grid, down for a
buy and up for a sell, which can make neighbours equal; equal neighbours are dropped.  The prices
are floats: the product of a price and 1000 may be rounded over a point of the grid.

## Main results

- `entry_ladder_valid`: the candidates are positive, on the grid, within the limit, on the
  maker side, and strictly monotone
- `mem_entryCandidates_iff`: the candidates are the rounded steps that pass the checks
-/

namespace AlphaMonitor.Trade

open Lib

/-! ## Away from the touch -/

/-- A price further from the opposite side of the book. -/
def OrderSide.away (side : OrderSide) (price distance : ℚ) : ℚ :=
  match side with
  | .buy => F64.sub price distance
  | .sell => F64.add price distance

/-- Prices of a side in the order in which they go away from the opposite side. -/
def OrderSide.depth (side : OrderSide) (price : ℚ) : ℚ :=
  match side with
  | .buy => -price
  | .sell => price

theorem OrderSide.depth_injective (side : OrderSide) : Function.Injective side.depth := by
  cases side with
  | buy => exact neg_injective
  | sell => exact Function.injective_id

/-- The `i`-th step of a ladder, rounded. -/
def ladderPrice (side : OrderSide) (price₀ tick : ℚ) (stepTicks : ℤ) (i : ℕ) : ℚ :=
  roundPriceForSide (side.away price₀ (F64.mul tick (stepTicks * i : ℤ))) side

theorem roundPriceForSide_mono (side : OrderSide) {p q : ℚ} (h : p ≤ q) :
    roundPriceForSide p side ≤ roundPriceForSide q side := by
  have hscaled : F64.mul p 1000 ≤ F64.mul q 1000 := F64.mul_le_mul_right (by norm_num) h
  cases side with
  | buy =>
    have hfloor : (⌊F64.mul p 1000⌋ : ℚ) ≤ ⌊F64.mul q 1000⌋ := by
      exact_mod_cast Int.floor_le_floor hscaled
    exact F64.div_le_div_right (by norm_num) hfloor
  | sell =>
    have hceil : (⌈F64.mul p 1000⌉ : ℚ) ≤ ⌈F64.mul q 1000⌉ := by
      exact_mod_cast Int.ceil_le_ceil hscaled
    exact F64.div_le_div_right (by norm_num) hceil

theorem OrderSide.depth_away_mono (side : OrderSide) (price : ℚ) {d e : ℚ} (h : d ≤ e) :
    side.depth (roundPriceForSide (side.away price d) side) ≤
      side.depth (roundPriceForSide (side.away price e) side) := by
  cases side with
  | buy => exact neg_le_neg (roundPriceForSide_mono .buy (F64.sub_le_sub le_rfl h))
  | sell => exact roundPriceForSide_mono .sell (F64.add_le_add le_rfl h)

theorem depth_ladderPrice_mono (side : OrderSide) (price₀ : ℚ) {tick : ℚ} {stepTicks : ℤ}
    (htick : 0 ≤ tick) (hsteps : 0 ≤ stepTicks) {i j : ℕ} (hij : i ≤ j) :
    side.depth (ladderPrice side price₀ tick stepTicks i) ≤
      side.depth (ladderPrice side price₀ tick stepTicks j) := by
  have hticks : stepTicks * (i : ℤ) ≤ stepTicks * (j : ℤ) :=
    mul_le_mul_of_nonneg_left (by exact_mod_cast hij) hsteps
  exact side.depth_away_mono price₀ (F64.mul_le_mul_left htick (by exact_mod_cast hticks))

/-! ## The loop -/

section

variable {side : OrderSide} {price₀ limit bestBid bestAsk tick : ℚ} {stepTicks : ℤ}

theorem ladderLoop_succ (n i : ℕ) (acc : List ℚ) :
    ladderLoop side price₀ limit bestBid bestAsk tick stepTicks (n + 1) i acc =
      if ladderPrice side price₀ tick stepTicks i ≤ 0 then acc
      else if withinLimit side (ladderPrice side price₀ tick stepTicks i) limit = false ∨
          isTaker side (ladderPrice side price₀ tick stepTicks i) bestBid bestAsk = true ∨
          acc.getLast? = some (ladderPrice side price₀ tick stepTicks i) then
        ladderLoop side price₀ limit bestBid bestAsk tick stepTicks n (i + 1 : ℕ) acc
      else
        ladderLoop side price₀ limit bestBid bestAsk tick stepTicks n (i + 1 : ℕ)
          (acc ++ [ladderPrice side price₀ tick stepTicks i]) := by
  cases side <;> rfl

/-- What is added to the candidates passes the loop's checks. -/
theorem ladderLoop_allowed (n i : ℕ) {acc : List ℚ}
    (hacc : ∀ price ∈ acc, withinLimit side price limit = true ∧
      isTaker side price bestBid bestAsk = false) :
    ∀ price ∈ ladderLoop side price₀ limit bestBid bestAsk tick stepTicks n i acc,
      withinLimit side price limit = true ∧ isTaker side price bestBid bestAsk = false := by
  induction n generalizing i acc with
  | zero => exact hacc
  | succ n ih =>
    rw [ladderLoop_succ]
    split
    · -- a price that is not positive ends the loop
      exact hacc
    · split
      · -- the candidate is left out, the steps go on
        exact ih (i + 1) hacc
      · rename_i hchecks
        obtain ⟨hlimit, htaker, -⟩ := not_or.mp hchecks |>.imp_right not_or.mp
        apply ih (i + 1)
        intro price hmem
        rcases List.mem_append.mp hmem with hmem | hmem
        · exact hacc price hmem
        · rw [List.mem_singleton.mp hmem]
          exact ⟨Bool.not_eq_false _ ▸ hlimit, Bool.not_eq_true _ ▸ htaker⟩

/-- Behind the last candidate comes a price that is at most as good and not the same, so it is
strictly behind all of them. -/
theorem pairwise_depth_append {acc : List ℚ} {next : ℚ}
    (hacc : acc.Pairwise fun p q => side.depth p < side.depth q)
    (hbound : ∀ p ∈ acc, side.depth p ≤ side.depth next) (hlast : acc.getLast? ≠ some next) :
    (acc ++ [next]).Pairwise fun p q => side.depth p < side.depth q := by
  refine List.pairwise_append.mpr ⟨hacc, List.pairwise_singleton _ _, ?_⟩
  intro p hp q hq
  rw [List.mem_singleton.mp hq]
  apply lt_of_le_of_ne (hbound p hp)
  intro heq
  -- A candidate as deep as the next one would have to be the last one.
  obtain ⟨front, last, rfl⟩ := List.eq_nil_or_concat acc |>.resolve_left (List.ne_nil_of_mem hp)
  rw [List.concat_eq_append] at hp hacc hbound hlast
  rw [List.getLast?_append_of_ne_nil _ (List.cons_ne_nil _ _)] at hlast
  obtain rfl : p = next := side.depth_injective heq
  rcases List.mem_append.mp hp with hfront | hback
  · have hlt := (List.pairwise_append.mp hacc).2.2 p hfront last List.mem_cons_self
    have hle := hbound last (List.mem_append_right _ List.mem_cons_self)
    exact absurd hlt (not_lt.mpr hle)
  · rw [List.mem_singleton.mp hback] at hlast
    exact hlast rfl

theorem ladderLoop_sorted (htick : 0 ≤ tick) (hsteps : 0 ≤ stepTicks) (n i : ℕ) {acc : List ℚ}
    (hacc : acc.Pairwise fun p q => side.depth p < side.depth q)
    (hbound : ∀ p ∈ acc,
      side.depth p ≤ side.depth (ladderPrice side price₀ tick stepTicks i)) :
    (ladderLoop side price₀ limit bestBid bestAsk tick stepTicks n i acc).Pairwise
      fun p q => side.depth p < side.depth q := by
  induction n generalizing i acc with
  | zero => exact hacc
  | succ n ih =>
    -- deeper with each step, rounded or not
    have hnext := depth_ladderPrice_mono side price₀ htick hsteps (Nat.le_succ i)
    rw [ladderLoop_succ]
    split
    · exact hacc
    · split
      · -- the next step is at least as deep as the one that is left out
        exact ih (i + 1) hacc fun p hp => (hbound p hp).trans hnext
      · rename_i hchecks
        obtain ⟨-, -, hlast⟩ := not_or.mp hchecks |>.imp_right not_or.mp
        apply ih (i + 1) (pairwise_depth_append hacc hbound hlast)
        intro p hp
        rcases List.mem_append.mp hp with hp | hp
        · exact (hbound p hp).trans hnext
        · rw [List.mem_singleton.mp hp]
          exact hnext

/-- A step of a ladder that is kept, reached from the `i`-th one within `n` steps, through positive
prices. -/
def ReachedStep (keeps : ℚ → Prop) (ladder : ℕ → ℚ) (i n : ℕ) (price : ℚ) : Prop :=
  ∃ j, i ≤ j ∧ j < i + n ∧ price = ladder j ∧ keeps price ∧ ∀ k, i ≤ k → k ≤ j → 0 < ladder k

theorem reachedStep_succ_iff {keeps : ℚ → Prop} {ladder : ℕ → ℚ} {i n : ℕ} {price : ℚ}
    (hpos : 0 < ladder i) :
    ReachedStep keeps ladder i (n + 1) price ↔
      price = ladder i ∧ keeps price ∨ ReachedStep keeps ladder (i + 1) n price := by
  constructor
  · rintro ⟨j, hlow, hhigh, rfl, hkeeps, hall⟩
    -- the first step, or one behind it
    rcases Nat.eq_or_lt_of_le hlow with rfl | hlow
    · exact Or.inl ⟨rfl, hkeeps⟩
    · exact Or.inr ⟨j, hlow, by omega, rfl, hkeeps, fun k hk => hall k (by omega)⟩
  · rintro (⟨rfl, hkeeps⟩ | ⟨j, hlow, hhigh, rfl, hkeeps, hall⟩)
    · refine ⟨i, le_refl i, by omega, rfl, hkeeps, ?_⟩
      intro k hk hki
      obtain rfl : i = k := Nat.le_antisymm hk hki
      exact hpos
    · refine ⟨j, by omega, by omega, rfl, hkeeps, ?_⟩
      intro k hk hkj
      rcases Nat.eq_or_lt_of_le hk with rfl | hk
      · exact hpos
      · exact hall k hk hkj

/-- The loop collects the steps that pass the checks, up to the first one that is not positive. -/
theorem mem_ladderLoop_iff (n i : ℕ) {acc : List ℚ} {price : ℚ} :
    price ∈ ladderLoop side price₀ limit bestBid bestAsk tick stepTicks n i acc ↔
      price ∈ acc ∨
        ReachedStep (fun p => withinLimit side p limit = true ∧
            isTaker side p bestBid bestAsk = false)
          (ladderPrice side price₀ tick stepTicks) i n price := by
  induction n generalizing i acc with
  | zero =>
    refine ⟨Or.inl, ?_⟩
    rintro (hmem | ⟨j, hlow, hhigh, -⟩)
    · exact hmem
    · omega
  | succ n ih =>
    rw [ladderLoop_succ]
    split
    · rename_i hneg
      refine ⟨Or.inl, ?_⟩
      rintro (hmem | ⟨j, hlow, -, -, -, hpos⟩)
      · exact hmem
      · exact absurd (hpos i (le_refl i) hlow) (not_lt.mpr hneg)
    · rename_i hpos
      rw [reachedStep_succ_iff (not_le.mp hpos)]
      split
      · -- the price fails a check, or is the last candidate already
        rename_i hout
        rw [ih (i + 1)]
        constructor
        · exact Or.imp_right Or.inr
        · rintro (hmem | ⟨rfl, hlimit, hmaker⟩ | hstep)
          · exact Or.inl hmem
          · rcases hout with hover | htaker | hlast
            · rw [hlimit] at hover
              cases hover
            · rw [hmaker] at htaker
              cases htaker
            · exact Or.inl (List.mem_of_getLast? hlast)
          · exact Or.inr hstep
      · rename_i hin
        obtain ⟨hlimit, hmaker, -⟩ := not_or.mp hin |>.imp_right not_or.mp
        rw [ih (i + 1), List.mem_append, List.mem_singleton, or_assoc]
        have hkept : price = ladderPrice side price₀ tick stepTicks i ↔
            price = ladderPrice side price₀ tick stepTicks i ∧
              withinLimit side price limit = true ∧
                isTaker side price bestBid bestAsk = false := by
          refine ⟨?_, And.left⟩
          rintro rfl
          exact ⟨rfl, Bool.not_eq_false _ ▸ hlimit, Bool.not_eq_true _ ▸ hmaker⟩
        rw [← hkept]

end

/-! ## The candidates -/

/-- A buy below the best ask, a sell above the best bid. -/
def OrderSide.Makes (side : OrderSide) (bestBid bestAsk price : ℚ) : Prop :=
  match side with
  | .buy => price < bestAsk
  | .sell => bestBid < price

/-- A buy not above the limit, a sell not below it. -/
def OrderSide.Respects (side : OrderSide) (limit price : ℚ) : Prop :=
  match side with
  | .buy => price ≤ limit
  | .sell => limit ≤ price

theorem withinLimit_iff (side : OrderSide) (price limit : ℚ) :
    withinLimit side price limit = true ↔ side.Respects (f64 limit) price := by
  cases side with
  | buy => exact decide_eq_true_iff
  | sell => exact decide_eq_true_iff

theorem isTaker_iff (side : OrderSide) (price bestBid bestAsk : ℚ) :
    isTaker side price bestBid bestAsk = false ↔
      side.Makes (f64 bestBid) (f64 bestAsk) price := by
  cases side with
  | buy => exact decide_eq_false_iff_not.trans not_le
  | sell => exact decide_eq_false_iff_not.trans not_le

/-- What candidates have to be, and the order to try them in. -/
structure LadderValid (side : OrderSide) (bestBid bestAsk limit : ℚ) (prices : List ℚ) : Prop where
  positive : ∀ price ∈ prices, 0 < price
  onGrid : ∀ price ∈ prices, OnFloatGrid price
  limited : ∀ price ∈ prices, side.Respects limit price
  maker : ∀ price ∈ prices, side.Makes bestBid bestAsk price
  /-- Buys go down and sells go up. -/
  monotone : prices.Pairwise fun p q => side.depth p < side.depth q

/-- Candidates of an entry are valid for every book, signal and limit. -/
theorem entry_ladder_valid (cfg : TradeConfig) (entry : PendingEntry) (now : ℤ)
    (bestBid bestAsk limit : ℚ) :
    LadderValid (entrySide entry.direction) (f64 bestBid) (f64 bestAsk) (f64 limit)
      (entryCandidates cfg entry now bestBid bestAsk limit) := by
  have hallowed : ∀ price ∈ entryCandidates cfg entry now bestBid bestAsk limit,
      withinLimit (entrySide entry.direction) price limit = true ∧
        isTaker (entrySide entry.direction) price bestBid bestAsk = false := by
    -- nothing is collected at the start
    apply ladderLoop_allowed _ 0
    intro price hmem
    cases hmem
  refine ⟨entryCandidates_pos cfg entry now bestBid bestAsk limit,
    entryCandidates_onFloatGrid cfg entry now bestBid bestAsk limit, ?_, ?_, ?_⟩
  · intro price hmem
    exact (withinLimit_iff _ _ _).mp (hallowed price hmem).1
  · intro price hmem
    exact (isTaker_iff _ _ _ _).mp (hallowed price hmem).2
  · apply ladderLoop_sorted cfg.tick_pos.le cfg.chaseStep_nonneg _ 0 List.Pairwise.nil
    intro price hmem
    cases hmem

/-! ## Which candidates there are -/

/-- Where the ladder starts: some ticks inside the spread, no better than the limit. -/
def entryBase (cfg : TradeConfig) (entry : PendingEntry) (now : ℤ)
    (bestBid bestAsk limit : ℚ) : ℚ :=
  let start := F64.mul cfg.tick (entryStartTicks cfg entry now (F64.sub bestAsk bestBid))
  match entrySide entry.direction with
  | .buy => min (F64.add bestBid start) (f64 limit)
  | .sell => max (F64.sub bestAsk start) (f64 limit)

/-- The `i`-th price that is looked at. -/
def entryStepPrice (cfg : TradeConfig) (entry : PendingEntry) (now : ℤ)
    (bestBid bestAsk limit : ℚ) (i : ℕ) : ℚ :=
  ladderPrice (entrySide entry.direction) (entryBase cfg entry now bestBid bestAsk limit)
    cfg.tick (max cfg.chaseStepTicks 1) i

theorem entryStepPrice_depth_mono (cfg : TradeConfig) (entry : PendingEntry) (now : ℤ)
    (bestBid bestAsk limit : ℚ) {i j : ℕ} (hij : i ≤ j) :
    (entrySide entry.direction).depth (entryStepPrice cfg entry now bestBid bestAsk limit i) ≤
      (entrySide entry.direction).depth (entryStepPrice cfg entry now bestBid bestAsk limit j) :=
  depth_ladderPrice_mono _ _ cfg.tick_pos.le cfg.chaseStep_nonneg hij

/-- A step of the ladder that is a candidate.  Rounding can leave the first steps out: a price that
is rounded down may still be above the limit. -/
structure EntryStep (cfg : TradeConfig) (entry : PendingEntry) (now : ℤ)
    (bestBid bestAsk limit : ℚ) (i : ℕ) : Prop where
  last : i ≤ (max cfg.maxChaseTicks 0).toNat
  pos₀ : 0 < entryStepPrice cfg entry now bestBid bestAsk limit 0
  pos : 0 < entryStepPrice cfg entry now bestBid bestAsk limit i
  limited : (entrySide entry.direction).Respects (f64 limit)
    (entryStepPrice cfg entry now bestBid bestAsk limit i)
  maker : (entrySide entry.direction).Makes (f64 bestBid) (f64 bestAsk)
    (entryStepPrice cfg entry now bestBid bestAsk limit i)

section

variable (cfg : TradeConfig) (entry : PendingEntry) (now : ℤ) {bestBid bestAsk limit : ℚ}

theorem mem_entryCandidates_iff (price : ℚ) :
    price ∈ entryCandidates cfg entry now bestBid bestAsk limit ↔
      ∃ i, EntryStep cfg entry now bestBid bestAsk limit i ∧
        price = entryStepPrice cfg entry now bestBid bestAsk limit i := by
  have hloop : price ∈ entryCandidates cfg entry now bestBid bestAsk limit ↔
      price ∈ ([] : List ℚ) ∨
        ReachedStep (fun p => withinLimit (entrySide entry.direction) p limit = true ∧
            isTaker (entrySide entry.direction) p bestBid bestAsk = false)
          (entryStepPrice cfg entry now bestBid bestAsk limit) 0
          ((max cfg.maxChaseTicks 0).toNat + 1) price :=
    mem_ladderLoop_iff _ 0
  rw [hloop]
  constructor
  · rintro (hmem | ⟨i, -, hlast, rfl, ⟨hlimit, hmaker⟩, hpos⟩)
    · cases hmem
    · exact ⟨i, ⟨by omega, hpos 0 le_rfl (Nat.zero_le i), hpos i (Nat.zero_le i) le_rfl,
        (withinLimit_iff _ _ _).mp hlimit, (isTaker_iff _ _ _ _).mp hmaker⟩, rfl⟩
  · rintro ⟨i, hstep, rfl⟩
    refine Or.inr ⟨i, Nat.zero_le i, by have := hstep.last; omega, rfl,
      ⟨(withinLimit_iff _ _ _).mpr hstep.limited, (isTaker_iff _ _ _ _).mpr hstep.maker⟩, ?_⟩
    -- buys before a positive one are higher, sells after a positive one are
    intro k _ hki
    cases hside : entrySide entry.direction with
    | buy =>
      have hmono := entryStepPrice_depth_mono cfg entry now bestBid bestAsk limit hki
      rw [hside] at hmono
      exact hstep.pos.trans_le (neg_le_neg_iff.mp hmono)
    | sell =>
      have hmono := entryStepPrice_depth_mono cfg entry now bestBid bestAsk limit (Nat.zero_le k)
      rw [hside] at hmono
      exact hstep.pos₀.trans_le hmono

/-- The first candidate is the first step that is one. -/
theorem entryCandidates_head {first : ℚ} {rest : List ℚ}
    (h : entryCandidates cfg entry now bestBid bestAsk limit = first :: rest) :
    ∃ j, EntryStep cfg entry now bestBid bestAsk limit j ∧
      (∀ i < j, ¬ EntryStep cfg entry now bestBid bestAsk limit i) ∧
      first = entryStepPrice cfg entry now bestBid bestAsk limit j := by
  have hvalid := entry_ladder_valid cfg entry now bestBid bestAsk limit
  have hmem := @mem_entryCandidates_iff cfg entry now bestBid bestAsk limit
  rw [h] at hvalid hmem
  obtain ⟨i, hstep, hfirst⟩ := (hmem first).mp List.mem_cons_self
  classical
  have hsome : ∃ j, EntryStep cfg entry now bestBid bestAsk limit j := ⟨i, hstep⟩
  refine ⟨Nat.find hsome, Nat.find_spec hsome, fun k hk => Nat.find_min hsome hk, ?_⟩
  -- the first candidate is no deeper than that step, and no shallower
  have hmono := entryStepPrice_depth_mono cfg entry now bestBid bestAsk limit
    (Nat.find_min' hsome hstep)
  rw [← hfirst] at hmono
  rcases List.mem_cons.mp ((hmem _).mpr ⟨_, Nat.find_spec hsome, rfl⟩) with heq | hrest
  · exact heq.symm
  · have hlt := (List.pairwise_cons.mp hvalid.monotone).1 _ hrest
    exact absurd hlt (not_lt.mpr hmono)

end

end AlphaMonitor.Trade
