import AlphaMonitor.Events
import Mathlib.Algebra.BigOperators.Group.List.Basic
import Mathlib.Algebra.Order.Ring.Rat
import Mathlib.Data.List.Sort
import Mathlib.Data.Nat.Digits.Defs

/-!
# The dense order book

`DenseBook` keeps the size of every price level of a token's market, and beside
the sizes of each side the number of its levels and its best level.  The two
sides are handled alike, up to which price is the better one.

Prices are on a grid of 1/10000 and sizes on one of 1/1000000.

## Main definitions

- `DenseBook.applySnapshot`, `DenseBook.applyDelta`: the two ways to change it
- `DenseBook.topLevels`: the best levels of a side, which everything read off it uses
- `snapshotMetrics`: the same numbers read off a snapshot
-/

namespace AlphaMonitor.Shard

/-! ## Prices and sizes -/

def priceScale : ℚ := 10000
def priceMaxIdx : ℕ := 10000
def priceLevels : ℕ := priceMaxIdx + 1
def sizeScale : ℚ := 1000000

/-- `value as i64`, for a rounded number: the cast saturates. -/
def toI64 (value : ℤ) : ℤ := max (-2 ^ 63) (min value (2 ^ 63 - 1))

/-- `price_to_idx`. -/
def priceToIdx (value : ℚ) : Option ℕ :=
  let idx := toI64 (roundHalfAway (value * priceScale))
  if idx < 0 ∨ idx > priceMaxIdx then none else some idx.toNat

/-- `idx_to_price`. -/
def idxToPrice (idx : ℕ) : ℚ := idx / priceScale

/-- `size_to_int`. -/
def sizeToInt (value : ℚ) : ℤ := toI64 (roundHalfAway (value * sizeScale))

/-- `size_to_float`. -/
def sizeToFloat (value : ℕ) : ℚ := value / sizeScale

theorem priceToIdx_lt {value : ℚ} {idx : ℕ} (h : priceToIdx value = some idx) :
    idx < priceLevels := by
  simp only [priceToIdx] at h
  split at h
  · cases h
  · rename_i hrange
    cases h
    simp only [not_or, not_lt] at hrange
    unfold priceLevels
    omega

/-! ## Hashes -/

/-- The eight bytes of a number, lowest first. -/
def leBytes (n : ℕ) : List ℕ := (List.range 8).map fun k => n / 256 ^ k % 256

/-- One byte of the FNV hash. -/
def hashByte (hash byte : ℕ) : ℕ := ((hash ^^^ byte) * 0x100000001b3) % 2 ^ 64

/-- `hash_pair`. -/
def hashPair (hash priceIdx size : ℕ) : ℕ :=
  (leBytes size).foldl hashByte ((leBytes priceIdx).foldl hashByte hash)

def hashLevels (hash : ℕ) (levels : List (ℕ × ℕ)) : ℕ :=
  levels.foldl (fun hash level => hashPair hash level.1 level.2) hash

/-- `format!("{:x}", hash)` of the hash of both sides. -/
def hashText (bids asks : List (ℕ × ℕ)) : String :=
  String.ofList (Nat.toDigits 16 (hashLevels (hashLevels 0xcbf29ce484222325 bids) asks))

/-! ## One side of a book -/

/-- The price index is a better one for the side. -/
def isBetter : BookSide → ℕ → ℕ → Bool
  | .bid, idx, best => decide (idx > best)
  | .ask, idx, best => decide (idx < best)

/-- The non-empty levels below a price, by falling price. -/
def levelsDown (sizes : ℕ → ℕ) : ℕ → List (ℕ × ℕ)
  | 0 => []
  | idx + 1 => if sizes idx > 0 then (idx, sizes idx) :: levelsDown sizes idx
    else levelsDown sizes idx

/-- The non-empty levels among the next `count` ones, by rising price. -/
def levelsUp (sizes : ℕ → ℕ) : ℕ → ℕ → List (ℕ × ℕ)
  | 0, _ => []
  | count + 1, idx => if sizes idx > 0 then (idx, sizes idx) :: levelsUp sizes count (idx + 1)
    else levelsUp sizes count (idx + 1)

/-- The sizes of one side of a `DenseBook`, with their number and the best of them. -/
structure BookHalf where
  sizes : ℕ → ℕ
  nonzero : ℕ
  best : Option ℕ

namespace BookHalf

def empty : BookHalf := ⟨fun _ => 0, 0, none⟩

variable (side : BookSide) (half : BookHalf)

/-- One level of a snapshot; the second component counts prices off the grid. -/
def loadLevel : BookHalf × ℕ → BookLevel → BookHalf × ℕ
  | (half, invalid), level =>
    match priceToIdx level.price with
    | none => (half, invalid + 1)
    | some idx =>
      let size := sizeToInt level.size
      if size ≤ 0 then (half, invalid)
      else
        ({ sizes := Function.update half.sizes idx size.toNat
           nonzero := if half.sizes idx = 0 then half.nonzero + 1 else half.nonzero
           best :=
            match half.best with
            | none => some idx
            | some best => if isBetter side idx best then some idx else some best }, invalid)

/-- The side after a snapshot. -/
def load (levels : List BookLevel) : BookHalf × ℕ := levels.foldl (loadLevel side) (empty, 0)

/-- `find_next_bid` and `find_next_ask`. -/
def findNext (sizes : ℕ → ℕ) (start : ℕ) : Option ℕ :=
  match side with
  | .bid => (levelsDown sizes start).head?.map (·.1)
  | .ask => (levelsUp sizes (priceMaxIdx - start) (start + 1)).head?.map (·.1)

/-- `set_level`. -/
def setLevel (idx size : ℕ) : BookHalf :=
  let prev := half.sizes idx
  let sizes := Function.update half.sizes idx size
  { sizes := sizes
    nonzero :=
      if prev = 0 ∧ size > 0 then half.nonzero + 1
      else if prev > 0 ∧ size = 0 then half.nonzero - 1
      else half.nonzero
    best :=
      match half.best with
      | none => if size > 0 then some idx else none
      | some best =>
        if size > 0 ∧ isBetter side idx best = true then some idx
        else if idx = best ∧ size = 0 then findNext side sizes best
        else some best }

/-- The non-empty levels from the best one on, best first. -/
def levels : List (ℕ × ℕ) :=
  match half.best with
  | none => []
  | some best =>
    match side with
    | .bid => levelsDown half.sizes (best + 1)
    | .ask => levelsUp half.sizes (priceLevels - best) best

/-- The best `n` levels; the loops of the source stop only once they have one. -/
def topLevels (n : ℕ) : List (ℕ × ℕ) := (half.levels side).take (max n 1)

/-- The best price with its size, if the best level has one. -/
def bestLevel : Option (ℚ × ℚ) :=
  half.best.bind fun idx =>
    if half.sizes idx > 0 then some (idxToPrice idx, sizeToFloat (half.sizes idx)) else none

end BookHalf

/-- The worth of a level. -/
def levelNotional (level : ℕ × ℕ) : ℚ := idxToPrice level.1 * sizeToFloat level.2

/-! ## The book -/

/-- `DenseBook`. -/
structure DenseBook where
  (bids asks : BookHalf)
  tickPx : Option ℚ
  lastUpdateTsMs : ℤ

namespace DenseBook

def empty : DenseBook := ⟨BookHalf.empty, BookHalf.empty, none, 0⟩

variable (book : DenseBook)

def half : BookSide → BookHalf
  | .bid => book.bids
  | .ask => book.asks

/-- `levels_len`. -/
def levelsLen : ℕ := book.bids.nonzero + book.asks.nonzero

/-- `apply_snapshot`; the second component counts prices off the grid. -/
def applySnapshot (bids asks : Option (List BookLevel)) (localTsMs : ℤ) : DenseBook × ℕ :=
  let (bidHalf, bidInvalid) :=
    match bids with
    | some levels => BookHalf.load .bid levels
    | none => (book.bids, 0)
  let (askHalf, askInvalid) :=
    match asks with
    | some levels => BookHalf.load .ask levels
    | none => (book.asks, 0)
  ({ book with bids := bidHalf, asks := askHalf, lastUpdateTsMs := localTsMs },
    bidInvalid + askInvalid)

/-- `set_level`. -/
def setLevel (side : BookSide) (idx size : ℕ) : DenseBook :=
  match side with
  | .bid => { book with bids := book.bids.setLevel .bid idx size }
  | .ask => { book with asks := book.asks.setLevel .ask idx size }

/-- `apply_delta`; the second component says that the price is off the grid. -/
def applyDelta (side : BookSide) (price size : ℚ) (localTsMs : ℤ) : DenseBook × Bool :=
  match priceToIdx price with
  | none => (book, true)
  | some idx =>
    (setLevel { book with lastUpdateTsMs := localTsMs } side idx (sizeToInt size).toNat, false)

/-- `best_bid_ask_idx`. -/
def bestBidAskIdx : Option ℕ × Option ℕ := (book.bids.best, book.asks.best)

/-- `best_bid_ask`. -/
def bestBidAsk : Option ℚ × Option ℚ :=
  (book.bids.best.map idxToPrice, book.asks.best.map idxToPrice)

/-- `best_bid_ask_size`: the best bid and ask, each with its size. -/
def bestBidAskSize : Option (ℚ × ℚ) × Option (ℚ × ℚ) :=
  (book.bids.bestLevel, book.asks.bestLevel)

/-- `microprice`. -/
def microprice : Option ℚ :=
  match book.bestBidAskSize with
  | (some (bidPx, bidSz), some (askPx, askSz)) =>
    if bidSz + askSz ≤ 0 then none else some ((bidPx * askSz + askPx * bidSz) / (bidSz + askSz))
  | _ => none

/-- The best `n` levels of a side. -/
def topLevels (side : BookSide) (n : ℕ) : List (ℕ × ℕ) := (book.half side).topLevels side n

/-- `depth_top_n`. -/
def depthTopN (side : BookSide) (n : ℕ) : Option ℚ :=
  match book.topLevels side n with
  | [] => none
  | levels => some (levels.map levelNotional).sum

/-- `top_levels_notional`. -/
def topLevelsNotional (side : BookSide) (n : ℕ) : List ℚ :=
  let worth := (book.topLevels side n).map levelNotional
  worth ++ List.replicate (n - worth.length) 0

/-- `depth_1pct`. -/
def depth1pct (side : BookSide) (mid : Option ℚ) : Option ℚ :=
  mid.bind fun mid =>
    let near (level : ℕ × ℕ) : Bool :=
      match side with
      | .bid => decide (mid * (99 / 100) ≤ idxToPrice level.1)
      | .ask => decide (idxToPrice level.1 ≤ mid * (101 / 100))
    match ((book.half side).levels side).takeWhile near with
    | [] => none
    | levels => some (levels.map levelNotional).sum

/-- `air_pocket_ticks` of one side: how far the second level is from the best. -/
def airPocket (side : BookSide) (tick : ℚ) : Option ℤ :=
  (book.half side).best.bind fun best =>
    (BookHalf.findNext side (book.half side).sizes best).map fun second =>
      match side with
      | .bid => roundHalfAway ((idxToPrice best - idxToPrice second) / tick)
      | .ask => roundHalfAway ((idxToPrice second - idxToPrice best) / tick)

/-- `air_pocket_ticks`. -/
def airPocketTicks (tickPx : Option ℚ) : Option ℤ × Option ℤ :=
  match tickPx with
  | some tick => if tick > 0 then (book.airPocket .bid tick, book.airPocket .ask tick)
    else (none, none)
  | none => (none, none)

/-- `topn_hash`. -/
def topnHash (n : ℕ) : Option String :=
  if book.levelsLen = 0 then none
  else some (hashText (book.topLevels .bid n) (book.topLevels .ask n))

/-- `size_at`. -/
def sizeAt (side : BookSide) (price : ℚ) : ℚ :=
  match priceToIdx price with
  | none => 0
  | some idx => sizeToFloat ((book.half side).sizes idx)

/-- `median_size_top_n`. -/
def medianSizeTopN (side : BookSide) (n : ℕ) : Option ℚ :=
  let sizes := ((book.topLevels side n).map fun level => sizeToFloat level.2).insertionSort (· ≤ ·)
  sizes[sizes.length / 2]?

/-- `WallPullSignal`. -/
structure WallPullSignal where
  side : BookSide
  (price sizeBefore pullRatio : ℚ)
  deriving DecidableEq, Repr

/-- `check_wall_pull`: a level near the touch that was ten times the median loses
nine tenths of its size. -/
def checkWallPull (side : BookSide) (price newSize : ℚ) : Option WallPullSignal :=
  book.tickPx.bind fun tick =>
    if tick ≤ 0 then none
    else
      ((book.half side).best.map idxToPrice).bind fun touch =>
        let prevSize := book.sizeAt side price
        if |price - touch| > 2 * tick ∨ prevSize ≤ 0 ∨ newSize > prevSize * (1 / 10) then none
        else
          (book.medianSizeTopN side 10).bind fun median =>
            if median ≤ 0 ∨ prevSize < 10 * median then none
            else some ⟨side, price, prevSize, (prevSize - newSize) / prevSize⟩

end DenseBook

/-! ## Metrics of a snapshot -/

/-- Put a level into the list of the best `n`, best first. -/
def insertTop (side : BookSide) (idx size : ℕ) : List (ℕ × ℕ) → List (ℕ × ℕ)
  | [] => [(idx, size)]
  | level :: rest =>
    if isBetter side idx level.1 then (idx, size) :: level :: rest
    else level :: insertTop side idx size rest

/-- One level of `collect_top_levels`. -/
def collectLevel (side : BookSide) (n : ℕ) (top : List (ℕ × ℕ)) (level : BookLevel) :
    List (ℕ × ℕ) :=
  match priceToIdx level.price with
  | none => top
  | some idx =>
    let size := sizeToInt level.size
    if size ≤ 0 then top
    else if top.any (·.1 == idx) then
      top.map fun entry => if entry.1 = idx then (idx, size.toNat) else entry
    else (insertTop side idx size.toNat top).take n

/-- `collect_top_levels`. -/
def collectTopLevels (levels : List BookLevel) (side : BookSide) (n : ℕ) : List (ℕ × ℕ) :=
  levels.foldl (collectLevel side n) []

/-- `SnapshotMetrics`. -/
structure SnapshotMetrics where
  (bestBidIdx bestAskIdx : Option ℕ)
  topnHash : Option String
  depthTop10 : ℚ
  deriving DecidableEq, Repr

/-- `sum_top_levels`. -/
def sumTopLevels (levels : List (ℕ × ℕ)) (n : ℕ) : ℚ := ((levels.take n).map levelNotional).sum

/-- `snapshot_metrics`. -/
def snapshotMetrics (bids asks : List BookLevel) : SnapshotMetrics :=
  let bidLevels := collectTopLevels bids .bid 20
  let askLevels := collectTopLevels asks .ask 20
  { bestBidIdx := bidLevels.head?.map (·.1)
    bestAskIdx := askLevels.head?.map (·.1)
    topnHash := if bidLevels = [] ∧ askLevels = [] then none
      else some (hashText bidLevels askLevels)
    depthTop10 := sumTopLevels bidLevels 10 + sumTopLevels askLevels 10 }

end AlphaMonitor.Shard
