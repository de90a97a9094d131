import AlphaMonitor.Shard.Scan
import Mathlib.Data.Finset.Card
import Mathlib.Order.Bounds.Basic
import Mathlib.Order.Interval.Finset.Nat

/-!
# The dense book against a scan of its levels

A side of the dense book keeps the number of its levels and its best level beside
the sizes, and the loops over it start at the best level.  A scan of all the prices
needs neither.  Here the two agree after any snapshots and level updates.

## Main definitions

- `BookHalf.Exact`: number and best level are those of the sizes
- `BookCall`: one call that changes a book
- `I64Half`: a side with the signed sizes the program stores

## Main results

- `run_represented`: after any calls the sizes are non-negative, numbers and best
  levels are exact, and what is read off the book is what a scan gives
-/

namespace AlphaMonitor.Shard

namespace BookHalf

/-! ## Exact sides -/

/-- The levels that have a size. -/
def levelSet (sizes : ℕ → ℕ) : Finset ℕ := (Finset.range priceLevels).filter fun idx => 0 < sizes idx

variable (side : BookSide)

/-- Number and best level are those of the sizes, and there are no sizes off the grid. -/
structure Exact (half : BookHalf) : Prop where
  bounded : ∀ idx, 0 < half.sizes idx → idx < priceLevels
  counted : half.nonzero = (levelSet half.sizes).card
  best : BestOf side (fun idx => 0 < half.sizes idx) half.best

theorem exact_empty : Exact side empty := by
  refine ⟨?_, ?_, ?_⟩
  · intro idx hpos
    exact absurd hpos (lt_irrefl 0)
  · have hnone : levelSet empty.sizes = ∅ := by
      rw [levelSet, Finset.filter_eq_empty_iff]
      intro idx _
      exact lt_irrefl 0
    rw [hnone]
    rfl
  · intro idx
    exact lt_irrefl 0

/-- A level that gets a size is among the levels. -/
theorem levelSet_update_pos (sizes : ℕ → ℕ) {idx size : ℕ} (hidx : idx < priceLevels)
    (hpos : 0 < size) : levelSet (Function.update sizes idx size) = insert idx (levelSet sizes) := by
  ext other
  simp only [levelSet, Finset.mem_filter, Finset.mem_range, Finset.mem_insert]
  by_cases hsame : other = idx
  · subst hsame
    rw [Function.update_self]
    simp only [hidx, hpos, and_self, true_or]
  · rw [Function.update_of_ne hsame]
    simp only [hsame, false_or]

/-- A level that loses its size is not. -/
theorem levelSet_update_zero (sizes : ℕ → ℕ) (idx : ℕ) :
    levelSet (Function.update sizes idx 0) = (levelSet sizes).erase idx := by
  ext other
  simp only [levelSet, Finset.mem_filter, Finset.mem_range, Finset.mem_erase]
  by_cases hsame : other = idx
  · subst hsame
    rw [Function.update_self]
    simp only [lt_irrefl, and_false, ne_eq, not_true_eq_false, false_and]
  · rw [Function.update_of_ne hsame]
    simp only [ne_eq, hsame, not_false_eq_true, true_and]

theorem mem_levelSet {sizes : ℕ → ℕ} {idx : ℕ} :
    idx ∈ levelSet sizes ↔ idx < priceLevels ∧ 0 < sizes idx := by
  rw [levelSet, Finset.mem_filter, Finset.mem_range]

variable {side} {half : BookHalf}

/-- The counting of a level that gets a size. -/
theorem Exact.counted_pos (h : Exact side half) {idx size : ℕ} (hidx : idx < priceLevels)
    (hpos : 0 < size) :
    (levelSet (Function.update half.sizes idx size)).card =
      if half.sizes idx = 0 then half.nonzero + 1 else half.nonzero := by
  rw [levelSet_update_pos half.sizes hidx hpos, h.counted]
  by_cases hzero : half.sizes idx = 0
  · rw [if_pos hzero, Finset.card_insert_of_notMem]
    rw [mem_levelSet, hzero]
    exact fun hmem => lt_irrefl 0 hmem.2
  · rw [if_neg hzero, Finset.insert_eq_of_mem]
    exact mem_levelSet.mpr ⟨hidx, Nat.pos_of_ne_zero hzero⟩

/-- The counting of a level that loses its size, or had none. -/
theorem Exact.counted_zero (h : Exact side half) {idx : ℕ} (hidx : idx < priceLevels) :
    (levelSet (Function.update half.sizes idx 0)).card =
      if half.sizes idx = 0 then half.nonzero else half.nonzero - 1 := by
  rw [levelSet_update_zero, h.counted]
  by_cases hzero : half.sizes idx = 0
  · rw [if_pos hzero, Finset.erase_eq_of_notMem]
    rw [mem_levelSet, hzero]
    exact fun hmem => lt_irrefl 0 hmem.2
  · rw [if_neg hzero, Finset.card_erase_of_mem]
    exact mem_levelSet.mpr ⟨hidx, Nat.pos_of_ne_zero hzero⟩

/-- With a size for one more level, that level is the best if it is better than the best. -/
theorem Exact.best_putLevel (h : Exact side half) {idx size : ℕ} (hpos : 0 < size) :
    BestOf side (fun other => 0 < (half.putLevel side idx size).sizes other)
      (half.putLevel side idx size).best := by
  have hat : 0 < Function.update half.sizes idx size idx := by rwa [Function.update_self]
  have hbest := h.best
  unfold putLevel
  dsimp only
  revert hbest
  cases half.best with
  | none =>
    intro hnone
    refine ⟨hat, ?_⟩
    intro other hother
    by_cases hsame : other = idx
    · rw [hsame]
      exact isBetter_self side idx
    · rw [Function.update_of_ne hsame] at hother
      exact absurd hother (hnone other)
  | some best =>
    rintro ⟨hbest, hall⟩
    dsimp only
    by_cases hbetter : isBetter side idx best = true
    · rw [if_pos hbetter]
      refine ⟨hat, ?_⟩
      intro other hother
      by_cases hsame : other = idx
      · rw [hsame]
        exact isBetter_self side idx
      · rw [Function.update_of_ne hsame] at hother
        exact isBetter_trans hbetter (hall other hother)
    · rw [if_neg hbetter]
      constructor
      · show 0 < Function.update half.sizes idx size best
        by_cases hsame : best = idx
        · rw [hsame]
          exact hat
        · rwa [Function.update_of_ne hsame]
      · intro other hother
        by_cases hsame : other = idx
        · rw [hsame]
          exact eq_false_of_ne_true hbetter
        · rw [Function.update_of_ne hsame] at hother
          exact hall other hother

theorem Exact.bounded_update (h : Exact side half) {idx size : ℕ} (hidx : idx < priceLevels) :
    ∀ other, 0 < Function.update half.sizes idx size other → other < priceLevels := by
  intro other hother
  by_cases hsame : other = idx
  · rw [hsame]
    exact hidx
  · rw [Function.update_of_ne hsame] at hother
    exact h.bounded other hother

theorem Exact.putLevel (h : Exact side half) {idx size : ℕ} (hidx : idx < priceLevels)
    (hpos : 0 < size) : Exact side (half.putLevel side idx size) where
  bounded := h.bounded_update hidx
  counted := (h.counted_pos hidx hpos).symm
  best := h.best_putLevel hpos

/-! ## Loading and updating -/

theorem loadLevel_exact (h : Exact side half) (invalid : ℕ) (level : BookLevel) :
    Exact side (loadLevel side (half, invalid) level).1 := by
  rw [loadLevel_eq]
  cases hgrid : gridLevel level with
  | none => exact h
  | some entry =>
    refine h.putLevel ?_ (gridLevel_pos hgrid)
    simp only [gridLevel, Option.bind_eq_some_iff] at hgrid
    obtain ⟨idx, hidx, hentry⟩ := hgrid
    split at hentry
    · cases hentry
    · rw [← Option.some.inj hentry]
      exact priceToIdx_lt hidx

theorem load_exact (side : BookSide) (levels : List BookLevel) : Exact side (load side levels).1 := by
  have hall : ∀ (levels : List BookLevel) (half : BookHalf × ℕ), Exact side half.1 →
      Exact side (levels.foldl (loadLevel side) half).1 := by
    intro levels
    induction levels with
    | nil => exact fun half h => h
    | cons level rest ih => exact fun half h => ih _ (loadLevel_exact h half.2 level)
  exact hall levels (empty, 0) (exact_empty side)

/-- A level update with a size puts the level on the side. -/
theorem setLevel_of_pos (side : BookSide) (half : BookHalf) (idx : ℕ) {size : ℕ} (hpos : 0 < size) :
    half.setLevel side idx size = half.putLevel side idx size := by
  have hne : size ≠ 0 := Nat.pos_iff_ne_zero.mp hpos
  cases hbest : half.best with
  | none => simp [setLevel, putLevel, hbest, hpos, hne]
  | some best => simp [setLevel, putLevel, hbest, hpos, hne]

/-- The search from a level that goes finds the best of the worse levels. -/
theorem bestOf_findNext (side : BookSide) (sizes : ℕ → ℕ) (start : ℕ)
    (hbounded : ∀ idx, 0 < sizes idx → idx < priceLevels) :
    BestOf side (fun idx => isBetter side start idx = true ∧ 0 < sizes idx)
      (findNext side sizes start) := by
  cases side with
  | bid =>
    show BestOf .bid _ ((levelsDown sizes start).head?.map Prod.fst)
    rw [levelsDown_eq]
    refine (bestOf_levelsAt sizes (range_reverse_sorted start)).congr ?_
    intro idx
    rw [List.mem_reverse, List.mem_range, isBetter, decide_eq_true_eq]
  | ask =>
    show BestOf .ask _ ((levelsUp sizes (priceMaxIdx - start) (start + 1)).head?.map Prod.fst)
    rw [levelsUp_eq]
    refine (bestOf_levelsAt sizes (range'_sorted (start + 1) (priceMaxIdx - start))).congr ?_
    intro idx
    rw [List.mem_range'_1, isBetter, decide_eq_true_eq]
    constructor
    · rintro ⟨⟨hlow, _⟩, hpos⟩
      exact ⟨hlow, hpos⟩
    · rintro ⟨hlow, hpos⟩
      have hhigh := hbounded idx hpos
      refine ⟨⟨hlow, ?_⟩, hpos⟩
      unfold priceLevels at hhigh
      omega

/-- A level update without a size takes the level away; the search replaces the best one. -/
theorem Exact.best_remove (h : Exact side half) {idx : ℕ} (hidx : idx < priceLevels) :
    BestOf side (fun other => 0 < (half.setLevel side idx 0).sizes other)
      (half.setLevel side idx 0).best := by
  have hbest := h.best
  have hbounded : ∀ other, 0 < Function.update half.sizes idx 0 other → other < priceLevels :=
    h.bounded_update hidx
  unfold setLevel
  dsimp only
  simp only [gt_iff_lt, lt_irrefl, false_and, if_false, and_true]
  revert hbest
  cases half.best with
  | none =>
    intro hnone other hother
    by_cases hsame : other = idx
    · rw [hsame, Function.update_self] at hother
      exact lt_irrefl 0 hother
    · rw [Function.update_of_ne hsame] at hother
      exact hnone other hother
  | some best =>
    rintro ⟨hbest, hall⟩
    dsimp only
    by_cases hsame : idx = best
    · subst hsame
      rw [if_pos rfl]
      refine (bestOf_findNext side _ idx hbounded).congr ?_
      intro other
      constructor
      · exact fun hother => hother.2
      · intro hother
        refine ⟨?_, hother⟩
        -- the other levels were not better than the one that goes
        by_contra hworse
        have hne : other ≠ idx := by
          rintro rfl
          rw [Function.update_self] at hother
          exact lt_irrefl 0 hother
        rw [Function.update_of_ne hne] at hother
        exact hne (eq_of_not_better (hall other hother) (eq_false_of_ne_true hworse))
    · rw [if_neg hsame]
      constructor
      · show 0 < Function.update half.sizes idx 0 best
        rwa [Function.update_of_ne (Ne.symm hsame)]
      · intro other hother
        by_cases hother' : other = idx
        · rw [hother', Function.update_self] at hother
          exact absurd hother (lt_irrefl 0)
        · rw [Function.update_of_ne hother'] at hother
          exact hall other hother

theorem Exact.setLevel (h : Exact side half) {idx : ℕ} (hidx : idx < priceLevels) (size : ℕ) :
    Exact side (half.setLevel side idx size) := by
  rcases Nat.eq_zero_or_pos size with rfl | hpos
  · refine ⟨h.bounded_update hidx, ?_, h.best_remove hidx⟩
    refine Eq.trans ?_ (h.counted_zero hidx).symm
    -- a level without a size is not counted down
    by_cases hzero : half.sizes idx = 0
    · simp [BookHalf.setLevel, hzero]
    · simp [BookHalf.setLevel, hzero, Nat.pos_of_ne_zero hzero]
  · rw [setLevel_of_pos side half idx hpos]
    exact h.putLevel hidx hpos

/-! ## The loops over an exact side -/

/-- What the loops over an exact side meet is what a scan finds. -/
theorem Exact.levels_eq (h : Exact side half) : half.levels side = scan side half.sizes := by
  have hbest := h.best
  unfold levels scan
  revert hbest
  cases half.best with
  | none =>
    intro hnone
    exact (levelsAt_eq_nil half.sizes fun idx _ => Nat.eq_zero_of_not_pos (hnone idx)).symm
  | some best =>
    rintro ⟨hbest, hall⟩
    have hlt := h.bounded best hbest
    -- the prices better than the best one have no size
    have hzero : ∀ idx, isBetter side idx best = true → half.sizes idx = 0 := by
      intro idx hbetter
      by_contra hpos
      rw [hall idx (Nat.pos_of_ne_zero hpos)] at hbetter
      exact Bool.false_ne_true hbetter
    cases side with
    | bid =>
      dsimp only
      have hnil : levelsAt half.sizes
          (List.range' (best + 1) (priceLevels - (best + 1))).reverse = [] := by
        apply levelsAt_eq_nil
        intro idx hmem
        rw [List.mem_reverse, List.mem_range'_1] at hmem
        exact hzero idx (decide_eq_true hmem.1)
      rw [levelsDown_eq, gridPrices, range_split hlt, List.reverse_append, levelsAt_append, hnil,
        List.nil_append]
    | ask =>
      dsimp only
      have hnil : levelsAt half.sizes (List.range best) = [] := by
        apply levelsAt_eq_nil
        intro idx hmem
        exact hzero idx (decide_eq_true (List.mem_range.mp hmem))
      rw [levelsUp_eq, gridPrices, range_split hlt.le, levelsAt_append, hnil, List.nil_append]

end BookHalf

/-! ## Books -/

/-- One call that changes a book. -/
inductive BookCall
  | applySnapshot (bids asks : Option (List BookLevel)) (localTsMs : ℤ)
  | applyDelta (side : BookSide) (price size : ℚ) (localTsMs : ℤ)

namespace DenseBook

/-- The book after one call. -/
def call (book : DenseBook) : BookCall → DenseBook
  | .applySnapshot bids asks localTsMs => (book.applySnapshot bids asks localTsMs).1
  | .applyDelta side price size localTsMs => (book.applyDelta side price size localTsMs).1

/-- The book after some calls. -/
def run (calls : List BookCall) : DenseBook := calls.foldl call empty

/-- Both sides are exact. -/
def Exact (book : DenseBook) : Prop := ∀ side, (book.half side).Exact side

variable {book : DenseBook}

theorem Exact.applySnapshot (h : book.Exact) (bids asks : Option (List BookLevel))
    (localTsMs : ℤ) : (book.applySnapshot bids asks localTsMs).1.Exact := by
  intro side
  cases side with
  | bid =>
    cases bids with
    | none => exact h .bid
    | some levels => exact BookHalf.load_exact .bid levels
  | ask =>
    cases asks with
    | none => exact h .ask
    | some levels => exact BookHalf.load_exact .ask levels

theorem Exact.setLevel (h : book.Exact) (side : BookSide) {idx : ℕ} (hidx : idx < priceLevels)
    (size : ℕ) : (book.setLevel side idx size).Exact := by
  intro other
  cases side with
  | bid =>
    cases other with
    | bid => exact (h .bid).setLevel hidx size
    | ask => exact h .ask
  | ask =>
    cases other with
    | bid => exact h .bid
    | ask => exact (h .ask).setLevel hidx size

theorem Exact.applyDelta (h : book.Exact) (side : BookSide) (price size : ℚ) (localTsMs : ℤ) :
    (book.applyDelta side price size localTsMs).1.Exact := by
  unfold DenseBook.applyDelta
  cases hidx : priceToIdx price with
  | none => exact h
  | some idx =>
    have htouched : ({ book with lastUpdateTsMs := localTsMs } : DenseBook).Exact := by
      intro other
      cases other with
      | bid => exact h .bid
      | ask => exact h .ask
    exact htouched.setLevel side (priceToIdx_lt hidx) _

theorem Exact.call (h : book.Exact) (bookCall : BookCall) : (book.call bookCall).Exact := by
  cases bookCall with
  | applySnapshot bids asks localTsMs => exact h.applySnapshot bids asks localTsMs
  | applyDelta side price size localTsMs => exact h.applyDelta side price size localTsMs

theorem exact_empty : empty.Exact := by
  intro side
  cases side with
  | bid => exact BookHalf.exact_empty .bid
  | ask => exact BookHalf.exact_empty .ask

theorem exact_run (calls : List BookCall) : (run calls).Exact := by
  have hall : ∀ (calls : List BookCall) (book : DenseBook), book.Exact →
      (calls.foldl DenseBook.call book).Exact := by
    intro calls
    induction calls with
    | nil => exact fun book h => h
    | cons bookCall rest ih => exact fun book h => ih _ (h.call bookCall)
  exact hall calls empty exact_empty

/-! ## What is read off a book -/

theorem Exact.topLevels_eq (h : book.Exact) (side : BookSide) (n : ℕ) :
    book.topLevels side n = (scan side (book.half side).sizes).take (max n 1) := by
  rw [DenseBook.topLevels, BookHalf.topLevels, (h side).levels_eq]

end DenseBook

/-- The first level of a scan, if there is one, with its price and size. -/
def scannedBest (side : BookSide) (sizes : ℕ → ℕ) : Option (ℚ × ℚ) :=
  (scan side sizes).head?.map fun level => (idxToPrice level.1, sizeToFloat level.2)

/-- The worth of some levels, if there are any. -/
def worthOf (levels : List (ℕ × ℕ)) : Option ℚ :=
  if levels = [] then none else some (levels.map levelNotional).sum

/-- The price of the level is within one percent of the mid price. -/
def within1pct (side : BookSide) (mid : ℚ) (level : ℕ × ℕ) : Bool :=
  match side with
  | .bid => decide (mid * (99 / 100) ≤ idxToPrice level.1)
  | .ask => decide (idxToPrice level.1 ≤ mid * (101 / 100))

theorem idxToPrice_le {idx other : ℕ} (h : idx ≤ other) : idxToPrice idx ≤ idxToPrice other := by
  unfold idxToPrice priceScale
  have hcast : (idx : ℚ) ≤ other := by exact_mod_cast h
  linarith

/-- Better prices than one within the range are within the range. -/
theorem within1pct_of_better {side : BookSide} {mid : ℚ} {level other : ℕ × ℕ}
    (hbetter : isBetter side level.1 other.1 = true) (h : within1pct side mid other = true) :
    within1pct side mid level = true := by
  cases side with
  | bid =>
    have hle : other.1 ≤ level.1 := (of_decide_eq_true hbetter).le
    exact decide_eq_true ((of_decide_eq_true h).trans (idxToPrice_le hle))
  | ask =>
    have hle : level.1 ≤ other.1 := (of_decide_eq_true hbetter).le
    exact decide_eq_true ((idxToPrice_le hle).trans (of_decide_eq_true h))

/-- From the best level on, the loop stops only behind the last level within the range. -/
theorem takeWhile_within1pct (side : BookSide) (mid : ℚ) {levels : List (ℕ × ℕ)}
    (hsorted : levels.Pairwise fun a b => isBetter side a.1 b.1 = true) :
    levels.takeWhile (within1pct side mid) = levels.filter (within1pct side mid) := by
  induction levels with
  | nil => rfl
  | cons level rest ih =>
    obtain ⟨hfirst, hrest⟩ := List.pairwise_cons.mp hsorted
    by_cases hnear : within1pct side mid level = true
    · rw [List.takeWhile_cons_of_pos hnear, List.filter_cons_of_pos hnear, ih hrest]
    · rw [List.takeWhile_cons_of_neg hnear, List.filter_cons_of_neg hnear]
      symm
      rw [List.filter_eq_nil_iff]
      intro other hother hnear'
      exact hnear (within1pct_of_better (hfirst other hother) hnear')

/-- What the queries give is what a scan of the sizes gives.  The loops over the levels
stop after the level that makes their number `n`, so they meet one even for `n = 0`. -/
structure DenseBook.ReadsAsScanned (book : DenseBook) : Prop where
  bestBidAskSize : book.bestBidAskSize =
    (scannedBest .bid book.bids.sizes, scannedBest .ask book.asks.sizes)
  depthTopN : ∀ side n, book.depthTopN side n =
    worthOf ((scan side (book.half side).sizes).take (max n 1))
  topLevelsNotional : ∀ side n, book.topLevelsNotional side n =
    (((scan side (book.half side).sizes).take (max n 1)).map levelNotional).rightpad n 0
  depth1pct : ∀ side mid, book.depth1pct side (some mid) =
    worthOf ((scan side (book.half side).sizes).filter (within1pct side mid))
  topnHash : ∀ n, book.topnHash n =
    if scan .bid book.bids.sizes = [] ∧ scan .ask book.asks.sizes = [] then none
    else some (hashText ((scan .bid book.bids.sizes).take (max n 1))
      ((scan .ask book.asks.sizes).take (max n 1)))

namespace BookHalf

variable {side : BookSide} {half : BookHalf}

/-- The best level is the first one of a scan. -/
theorem Exact.best_eq (h : Exact side half) :
    half.best = (scan side half.sizes).head?.map Prod.fst := by
  have hscan := bestOf_levelsAt half.sizes (gridPrices_sorted side)
  refine h.best.unique (hscan.congr ?_)
  intro idx
  rw [mem_gridPrices]
  exact ⟨fun hidx => hidx.2, fun hpos => ⟨h.bounded idx hpos, hpos⟩⟩

theorem Exact.bestLevel_eq (h : Exact side half) : half.bestLevel = scannedBest side half.sizes := by
  unfold bestLevel scannedBest
  rw [h.best_eq]
  cases hfirst : (scan side half.sizes).head? with
  | none => rfl
  | some level =>
    obtain ⟨_, hpos, hsize⟩ := (mem_levelsAt half.sizes).mp (List.mem_of_mem_head? hfirst)
    rw [hsize] at hpos
    rw [Option.map_some, Option.map_some, Option.bind_some, if_pos hpos, hsize]

theorem Exact.nonzero_eq_zero_iff (h : Exact side half) :
    half.nonzero = 0 ↔ scan side half.sizes = [] := by
  rw [h.counted, Finset.card_eq_zero, Finset.eq_empty_iff_forall_notMem,
    List.eq_nil_iff_forall_not_mem]
  constructor
  · intro hnone level hlevel
    obtain ⟨hmem, hpos, hsize⟩ := (mem_levelsAt half.sizes).mp hlevel
    exact hnone level.1 (mem_levelSet.mpr ⟨mem_gridPrices.mp hmem, hsize ▸ hpos⟩)
  · intro hnil idx hidx
    obtain ⟨hlt, hpos⟩ := mem_levelSet.mp hidx
    exact hnil (idx, half.sizes idx)
      ((mem_levelsAt half.sizes).mpr ⟨mem_gridPrices.mpr hlt, hpos, rfl⟩)

end BookHalf

theorem DenseBook.Exact.readsAsScanned {book : DenseBook} (h : book.Exact) :
    book.ReadsAsScanned where
  bestBidAskSize := by
    have hbid : book.bids.Exact .bid := h .bid
    have hask : book.asks.Exact .ask := h .ask
    rw [bestBidAskSize, hbid.bestLevel_eq, hask.bestLevel_eq]
  depthTopN := by
    intro side n
    unfold depthTopN
    rw [h.topLevels_eq]
    cases (scan side (book.half side).sizes).take (max n 1) <;> rfl
  topLevelsNotional := by
    intro side n
    unfold topLevelsNotional
    rw [h.topLevels_eq]
    rfl
  depth1pct := by
    intro side mid
    rw [← takeWhile_within1pct side mid (scan_sorted side (book.half side).sizes)]
    unfold depth1pct
    rw [Option.bind_some, (h side).levels_eq]
    dsimp only
    cases side with
    | bid =>
      have hnear : within1pct .bid mid = fun level =>
          decide (mid * (99 / 100) ≤ idxToPrice level.1) := rfl
      rw [hnear]
      dsimp only
      cases (scan .bid _).takeWhile _ <;> rfl
    | ask =>
      have hnear : within1pct .ask mid = fun level =>
          decide (idxToPrice level.1 ≤ mid * (101 / 100)) := rfl
      rw [hnear]
      dsimp only
      cases (scan .ask _).takeWhile _ <;> rfl
  topnHash := by
    intro n
    unfold topnHash levelsLen
    rw [h.topLevels_eq, h.topLevels_eq]
    have hiff := and_congr (h .bid).nonzero_eq_zero_iff (h .ask).nonzero_eq_zero_iff
    rw [← Nat.add_eq_zero_iff] at hiff
    exact if_congr hiff rfl rfl

/-! ## Signed sizes

The program stores the sizes as signed numbers.  Its calls, taken over signed sizes,
stay with those of the book over natural ones. -/

/-- One side of the book with signed sizes. -/
structure I64Half where
  sizes : ℕ → ℤ
  nonzero : ℕ
  best : Option ℕ

namespace I64Half

def empty : I64Half := ⟨fun _ => 0, 0, none⟩

/-- `find_next_bid`: the search below a price. -/
def findNextBid (sizes : ℕ → ℤ) : ℕ → Option ℕ
  | 0 => none
  | idx + 1 => if sizes idx > 0 then some idx else findNextBid sizes idx

/-- `find_next_ask`: the search among the next `count` prices. -/
def findNextAsk (sizes : ℕ → ℤ) : ℕ → ℕ → Option ℕ
  | 0, _ => none
  | count + 1, idx => if sizes idx > 0 then some idx else findNextAsk sizes count (idx + 1)

variable (side : BookSide) (half : I64Half)

/-- One level of a snapshot. -/
def loadLevel (level : BookLevel) : I64Half :=
  match priceToIdx level.price with
  | none => half
  | some idx =>
    let size := sizeToInt level.size
    if size > 0 then
      { sizes := Function.update half.sizes idx size
        nonzero := if half.sizes idx = 0 then half.nonzero + 1 else half.nonzero
        best :=
          match half.best with
          | none => some idx
          | some best => if isBetter side idx best then some idx else some best }
    else half

/-- `set_level`. -/
def setLevel (idx : ℕ) (size : ℤ) : I64Half :=
  let prev := half.sizes idx
  let sizes := Function.update half.sizes idx size
  { sizes := sizes
    nonzero :=
      if prev = 0 ∧ size > 0 then half.nonzero + 1
      else if prev > 0 ∧ size = 0 then half.nonzero - 1
      else half.nonzero
    best :=
      match half.best with
      | none => if size > 0 then some idx else none
      | some best =>
        if size > 0 ∧ isBetter side idx best = true then some idx
        else if idx = best ∧ size = 0 then
          match side with
          | .bid => findNextBid sizes best
          | .ask => findNextAsk sizes (priceMaxIdx - best) (best + 1)
        else some best }

/-- The side after a call. -/
def call : BookCall → I64Half
  | .applySnapshot bids asks _ =>
    match side with
    | .bid => bids.elim half fun levels => levels.foldl (loadLevel .bid) empty
    | .ask => asks.elim half fun levels => levels.foldl (loadLevel .ask) empty
  | .applyDelta changed price size _ =>
    if changed = side then
      match priceToIdx price with
      | none => half
      | some idx =>
        let size := sizeToInt size
        half.setLevel side idx (if size ≤ 0 then 0 else size)
    else half

/-- The side after some calls. -/
def run (calls : List BookCall) : I64Half := calls.foldl (call side) empty

end I64Half

namespace BookHalf

/-- The side with its sizes as signed numbers. -/
def signed (half : BookHalf) : I64Half := ⟨fun idx => half.sizes idx, half.nonzero, half.best⟩

variable (side : BookSide) (half : BookHalf)

theorem signed_update (sizes : ℕ → ℕ) (idx size : ℕ) :
    (fun other => ((Function.update sizes idx size other : ℕ) : ℤ)) =
      Function.update (fun other => (sizes other : ℤ)) idx (size : ℤ) := by
  funext other
  by_cases hsame : other = idx
  · rw [hsame, Function.update_self, Function.update_self]
  · rw [Function.update_of_ne hsame, Function.update_of_ne hsame]

theorem findNextBid_signed (sizes : ℕ → ℕ) (start : ℕ) :
    I64Half.findNextBid (fun idx => sizes idx) start = findNext .bid sizes start := by
  induction start with
  | zero => rfl
  | succ idx ih =>
    unfold findNext at ih ⊢
    dsimp only at ih ⊢
    rw [I64Half.findNextBid, levelsDown]
    by_cases hpos : sizes idx > 0
    · rw [if_pos hpos, if_pos (by exact_mod_cast hpos)]
      rfl
    · rw [if_neg hpos, if_neg (by exact_mod_cast hpos), ih]

theorem findNextAsk_signed (sizes : ℕ → ℕ) (count idx : ℕ) :
    I64Half.findNextAsk (fun idx => sizes idx) count idx =
      (levelsUp sizes count idx).head?.map Prod.fst := by
  induction count generalizing idx with
  | zero => rfl
  | succ count ih =>
    rw [I64Half.findNextAsk, levelsUp]
    by_cases hpos : sizes idx > 0
    · rw [if_pos hpos, if_pos (by exact_mod_cast hpos)]
      rfl
    · rw [if_neg hpos, if_neg (by exact_mod_cast hpos), ih]

theorem loadLevel_signed (invalid : ℕ) (level : BookLevel) :
    (loadLevel side (half, invalid) level).1.signed = half.signed.loadLevel side level := by
  unfold loadLevel I64Half.loadLevel
  dsimp only
  cases priceToIdx level.price with
  | none => rfl
  | some idx =>
    dsimp only
    by_cases hsize : sizeToInt level.size ≤ 0
    · rw [if_pos hsize, if_neg (not_lt.mpr hsize)]
    · have hcast : ((sizeToInt level.size).toNat : ℤ) = sizeToInt level.size := by omega
      rw [if_neg hsize, if_pos (not_le.mp hsize)]
      unfold signed
      dsimp only
      rw [signed_update, hcast]
      congr 1
      simp only [Nat.cast_eq_zero]

theorem setLevel_signed (idx size : ℕ) :
    (half.setLevel side idx size).signed = half.signed.setLevel side idx size := by
  unfold setLevel I64Half.setLevel signed
  dsimp only
  rw [← signed_update]
  simp only [Nat.cast_eq_zero, gt_iff_lt, Nat.cast_pos]
  congr 1
  cases half.best with
  | none => rfl
  | some best =>
    dsimp only
    cases side with
    | bid => rw [findNextBid_signed]
    | ask =>
      rw [findNextAsk_signed]
      rfl

theorem load_signed (levels : List BookLevel) :
    (load side levels).1.signed = levels.foldl (I64Half.loadLevel side) I64Half.empty := by
  have hall : ∀ (levels : List BookLevel) (half : BookHalf × ℕ),
      (levels.foldl (loadLevel side) half).1.signed =
        levels.foldl (I64Half.loadLevel side) half.1.signed := by
    intro levels
    induction levels with
    | nil => exact fun half => rfl
    | cons level rest ih =>
      intro half
      rw [List.foldl_cons, List.foldl_cons, ih, ← loadLevel_signed side half.1 half.2]
  exact hall levels (empty, 0)

end BookHalf

/-- A call over signed sizes does to each side what it does to the book. -/
theorem DenseBook.call_signed (book : DenseBook) (bookCall : BookCall) (side : BookSide) :
    ((book.call bookCall).half side).signed = (book.half side).signed.call side bookCall := by
  cases bookCall with
  | applySnapshot bids asks localTsMs =>
    cases side with
    | bid =>
      cases bids with
      | none => rfl
      | some levels => exact BookHalf.load_signed .bid levels
    | ask =>
      cases asks with
      | none => rfl
      | some levels => exact BookHalf.load_signed .ask levels
  | applyDelta changed price size localTsMs =>
    have hsize : (if sizeToInt size ≤ 0 then 0 else sizeToInt size) =
        (((sizeToInt size).toNat : ℕ) : ℤ) := by
      split <;> omega
    unfold DenseBook.call I64Half.call applyDelta
    dsimp only
    rw [hsize]
    cases priceToIdx price with
    | none =>
      dsimp only
      rw [ite_self]
    | some idx =>
      dsimp only
      rw [← BookHalf.setLevel_signed]
      cases changed <;> cases side <;> rfl

theorem DenseBook.run_signed (calls : List BookCall) (side : BookSide) :
    ((run calls).half side).signed = I64Half.run side calls := by
  have hall : ∀ (calls : List BookCall) (book : DenseBook),
      ((calls.foldl DenseBook.call book).half side).signed =
        calls.foldl (I64Half.call side) (book.half side).signed := by
    intro calls
    induction calls with
    | nil => exact fun book => rfl
    | cons bookCall rest ih =>
      intro book
      rw [List.foldl_cons, List.foldl_cons, ih, DenseBook.call_signed]
  refine (hall calls empty).trans ?_
  cases side <;> rfl

/-! ## The representation of a book -/

/-- Numbers and best levels are those of the sizes, all within the arrays. -/
structure DenseBook.Represented (book : DenseBook) : Prop where
  inArray : ∀ side idx, 0 < (book.half side).sizes idx → idx < priceLevels
  nonzero : ∀ side, (book.half side).nonzero = (BookHalf.levelSet (book.half side).sizes).card
  bestBid : ∀ best, book.bids.best = some best ↔ IsGreatest {idx | 0 < book.bids.sizes idx} best
  bestAsk : ∀ best, book.asks.best = some best ↔ IsLeast {idx | 0 < book.asks.sizes idx} best
  bestNone : ∀ side, (book.half side).best = none ↔ ∀ idx, (book.half side).sizes idx = 0

namespace BookHalf

variable {side : BookSide} {half : BookHalf}

theorem Exact.best_eq_none_iff (h : Exact side half) :
    half.best = none ↔ ∀ idx, half.sizes idx = 0 := by
  have hbest := h.best
  revert hbest
  cases half.best with
  | none => exact fun hnone => iff_of_true rfl fun idx => Nat.eq_zero_of_not_pos (hnone idx)
  | some best =>
    rintro ⟨hpos, _⟩
    refine iff_of_false (Option.some_ne_none best) ?_
    intro hzero
    exact hpos.ne' (hzero best)

theorem Exact.best_eq_some_iff (h : Exact side half) (best : ℕ) :
    half.best = some best ↔ BestOf side (fun idx => 0 < half.sizes idx) (some best) := by
  constructor
  · intro hbest
    rw [← hbest]
    exact h.best
  · exact h.best.unique

end BookHalf

theorem bestOf_bid_iff {P : ℕ → Prop} {best : ℕ} :
    BestOf .bid P (some best) ↔ IsGreatest {idx | P idx} best := by
  refine and_congr Iff.rfl (forall_congr' fun idx => imp_congr Iff.rfl ?_)
  rw [isBetter, decide_eq_false_iff_not, gt_iff_lt, not_lt]

theorem bestOf_ask_iff {P : ℕ → Prop} {best : ℕ} :
    BestOf .ask P (some best) ↔ IsLeast {idx | P idx} best := by
  refine and_congr Iff.rfl (forall_congr' fun idx => imp_congr Iff.rfl ?_)
  rw [isBetter, decide_eq_false_iff_not, not_lt]

theorem DenseBook.Exact.represented {book : DenseBook} (h : book.Exact) : book.Represented where
  inArray := fun side => (h side).bounded
  nonzero := fun side => (h side).counted
  bestBid := fun best => ((h .bid).best_eq_some_iff best).trans bestOf_bid_iff
  bestAsk := fun best => ((h .ask).best_eq_some_iff best).trans bestOf_ask_iff
  bestNone := fun side => (h side).best_eq_none_iff

/-- After any calls the stored sizes are non-negative, numbers and best levels are those
of the sizes, and what is read off the book is what a scan of its arrays gives. -/
theorem run_represented (calls : List BookCall) :
    (∀ side idx, 0 ≤ (I64Half.run side calls).sizes idx) ∧
      (∀ side, I64Half.run side calls = ((DenseBook.run calls).half side).signed) ∧
      (DenseBook.run calls).Represented ∧ (DenseBook.run calls).ReadsAsScanned := by
  have hexact := DenseBook.exact_run calls
  refine ⟨?_, ?_, hexact.represented, hexact.readsAsScanned⟩
  · intro side idx
    rw [← DenseBook.run_signed calls side]
    exact Int.natCast_nonneg _
  · intro side
    exact (DenseBook.run_signed calls side).symm

end AlphaMonitor.Shard
