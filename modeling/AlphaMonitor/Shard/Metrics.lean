import AlphaMonitor.Shard.Dense
import AlphaMonitor.Shard.TokenState

/-!
# The metrics of a snapshot and of the book it gives

Drift is judged by numbers read off a snapshot without loading it: a list of the best
levels is kept while the snapshot is read.  That list is the head of the levels of the
loaded book, for any order and any repetition of the snapshot's levels.

## Main results

- `collectTopLevels_eq`: the list is the head of a scan of the loaded side
- `snapshotMetrics_eq_metrics`: the metrics of a snapshot are those of the book it gives
- `QuoteState.driftMismatch_iff`: the drift check finds the differences of the metrics
-/

namespace AlphaMonitor.Shard

open Lib (writeAll writeAll_cons)

variable {side : BookSide}

/-! ## Lists of the best levels -/

/-- A level that is better than all others goes first. -/
theorem insertTop_of_better {idx size : ℕ} {levels : List (ℕ × ℕ)}
    (h : ∀ level ∈ levels, isBetter side idx level.1 = true) :
    insertTop side idx size levels = (idx, size) :: levels := by
  cases levels with
  | nil => rfl
  | cons level rest => rw [insertTop, if_pos (h level List.mem_cons_self)]

/-- What is cut off the list has no part in its head. -/
theorem take_insertTop_take (idx size n : ℕ) (levels : List (ℕ × ℕ)) :
    (insertTop side idx size (levels.take n)).take n = (insertTop side idx size levels).take n := by
  induction levels generalizing n with
  | nil => rw [List.take_nil]
  | cons level rest ih =>
    cases n with
    | zero => rw [List.take_zero, List.take_zero]
    | succ n =>
      rw [List.take_succ_cons, insertTop, insertTop]
      by_cases hbetter : isBetter side idx level.1 = true
      · rw [if_pos hbetter, if_pos hbetter, List.take_succ_cons, List.take_succ_cons]
        congr 1
        cases n with
        | zero => rfl
        | succ n =>
          rw [List.take_succ_cons, List.take_succ_cons, List.take_take]
          congr 2
          omega
      · rw [if_neg hbetter, if_neg hbetter, List.take_succ_cons, List.take_succ_cons, ih]

/-- A level behind the first `n` ones does not get among them. -/
theorem take_insertTop_of_worse {idx size n : ℕ} {levels : List (ℕ × ℕ)}
    (hlength : n ≤ levels.length)
    (h : ∀ level ∈ levels.take n, isBetter side idx level.1 = false) :
    (insertTop side idx size levels).take n = levels.take n := by
  induction levels generalizing n with
  | nil =>
    rw [Nat.le_zero.mp hlength]
    rfl
  | cons level rest ih =>
    cases n with
    | zero => rfl
    | succ n =>
      rw [List.take_succ_cons] at h ⊢
      have hfirst := h level List.mem_cons_self
      rw [insertTop, if_neg (Bool.eq_false_iff.mp hfirst), List.take_succ_cons]
      congr 1
      exact ih (Nat.le_of_succ_le_succ hlength)
        fun other hother => h other (List.mem_cons_of_mem level hother)

/-- The level of the list at this price gets the size. -/
def replaceSize (idx size : ℕ) (level : ℕ × ℕ) : ℕ × ℕ :=
  if level.1 = idx then (idx, size) else level

theorem map_replaceSize_of_notMem {idx size : ℕ} {levels : List (ℕ × ℕ)}
    (h : ∀ level ∈ levels, level.1 ≠ idx) : levels.map (replaceSize idx size) = levels := by
  have hid : ∀ level ∈ levels, replaceSize idx size level = id level := by
    intro level hlevel
    exact if_neg (h level hlevel)
  rw [List.map_congr_left hid, List.map_id]

/-! ## Scans after a write -/

section
variable {sizes : ℕ → ℕ} {idx size : ℕ} {prices : List ℕ}

theorem levelsAt_update_of_notMem (h : idx ∉ prices) :
    levelsAt (Function.update sizes idx size) prices = levelsAt sizes prices := by
  induction prices with
  | nil => rfl
  | cons price rest ih =>
    rw [List.mem_cons, not_or] at h
    rw [levelsAt_cons, levelsAt_cons, ih h.2, Function.update_of_ne (Ne.symm h.1)]

/-- Among sorted prices the price that comes first is none of the later ones. -/
theorem notMem_of_sorted (h : ∀ other ∈ prices, isBetter side idx other = true) : idx ∉ prices := by
  intro hmem
  have hself := h idx hmem
  rw [BookHalf.isBetter_self] at hself
  exact Bool.false_ne_true hself

/-- A level that was empty is inserted at its place. -/
theorem levelsAt_update_of_zero (hsorted : prices.Pairwise fun a b => isBetter side a b = true)
    (hidx : idx ∈ prices) (hzero : sizes idx = 0) (hpos : 0 < size) :
    levelsAt (Function.update sizes idx size) prices =
      insertTop side idx size (levelsAt sizes prices) := by
  induction prices with
  | nil => cases hidx
  | cons price rest ih =>
    obtain ⟨hfirst, hrest⟩ := List.pairwise_cons.mp hsorted
    rw [levelsAt_cons, levelsAt_cons]
    by_cases hsame : price = idx
    · subst hsame
      rw [Function.update_self, if_pos hpos, hzero, if_neg (lt_irrefl 0),
        levelsAt_update_of_notMem (notMem_of_sorted hfirst)]
      symm
      apply insertTop_of_better
      intro level hlevel
      exact hfirst level.1 ((mem_levelsAt sizes).mp hlevel).1
    · have hmem : idx ∈ rest := (List.mem_cons.mp hidx).resolve_left (Ne.symm hsame)
      rw [Function.update_of_ne hsame, ih hrest hmem]
      by_cases hsize : 0 < sizes price
      · have hworse := isBetter_irrefl_of_better (hfirst idx hmem)
        rw [if_pos hsize, if_pos hsize, insertTop, if_neg (Bool.eq_false_iff.mp hworse)]
      · rw [if_neg hsize, if_neg hsize]

/-- A level that had a size gets the new one. -/
theorem levelsAt_update_of_pos (hsorted : prices.Pairwise fun a b => isBetter side a b = true)
    (hold : 0 < sizes idx) (hpos : 0 < size) :
    levelsAt (Function.update sizes idx size) prices =
      (levelsAt sizes prices).map (replaceSize idx size) := by
  induction prices with
  | nil => rfl
  | cons price rest ih =>
    obtain ⟨hfirst, hrest⟩ := List.pairwise_cons.mp hsorted
    rw [levelsAt_cons, levelsAt_cons]
    by_cases hsame : price = idx
    · subst hsame
      rw [Function.update_self, if_pos hpos, if_pos hold, ih hrest, List.map_cons, replaceSize,
        if_pos rfl]
    · rw [Function.update_of_ne hsame, ih hrest]
      by_cases hsize : 0 < sizes price
      · rw [if_pos hsize, if_pos hsize, List.map_cons, replaceSize, if_neg hsame]
      · rw [if_neg hsize, if_neg hsize]

end

/-! ## Collecting the best levels -/

/-- One level with a size keeps the list the head of the scan. -/
theorem collect_step (sizes : ℕ → ℕ) {idx size : ℕ} (n : ℕ) (hidx : idx < priceLevels)
    (hpos : 0 < size) :
    (if ((scan side sizes).take n).any (·.1 == idx) then
      ((scan side sizes).take n).map (replaceSize idx size)
    else (insertTop side idx size ((scan side sizes).take n)).take n) =
      (scan side (Function.update sizes idx size)).take n := by
  have hsorted := gridPrices_sorted side
  have hmem : idx ∈ gridPrices side := mem_gridPrices.mpr hidx
  by_cases hin : ((scan side sizes).take n).any (·.1 == idx) = true
  · obtain ⟨level, hlevel, hkey⟩ := List.any_eq_true.mp hin
    have hold : 0 < sizes idx := by
      obtain ⟨_, hlevelpos, hlevelsize⟩ := (mem_levelsAt sizes).mp (List.mem_of_mem_take hlevel)
      rwa [hlevelsize, eq_of_beq hkey] at hlevelpos
    rw [if_pos hin, List.map_take]
    unfold scan
    rw [levelsAt_update_of_pos hsorted hold hpos]
  · rw [if_neg hin, take_insertTop_take]
    rcases Nat.eq_zero_or_pos (sizes idx) with hzero | hold
    · unfold scan
      rw [levelsAt_update_of_zero hsorted hmem hzero hpos]
    · -- the level is there, but was cut off; so it is worse than the whole list
      have houtside : ∀ level ∈ (scan side sizes).take n, level.1 ≠ idx := by
        intro level hlevel hkey
        exact hin (List.any_eq_true.mpr ⟨level, hlevel, beq_iff_eq.mpr hkey⟩)
      have hdropped : (idx, sizes idx) ∈ (scan side sizes).drop n := by
        have hscan : (idx, sizes idx) ∈ scan side sizes :=
          (mem_levelsAt sizes).mpr ⟨hmem, hold, rfl⟩
        rw [← List.take_append_drop n (scan side sizes), List.mem_append] at hscan
        exact hscan.resolve_left fun htop => houtside _ htop rfl
      have hlength : n ≤ (scan side sizes).length := by
        have hsome := List.length_pos_of_mem hdropped
        rw [List.length_drop] at hsome
        omega
      have hworse : ∀ level ∈ (scan side sizes).take n, isBetter side idx level.1 = false := by
        intro level hlevel
        have hall := scan_sorted side sizes
        rw [← List.take_append_drop n (scan side sizes), List.pairwise_append] at hall
        exact isBetter_irrefl_of_better (hall.2.2 level hlevel _ hdropped)
      rw [take_insertTop_of_worse hlength hworse]
      have hafter : scan side (Function.update sizes idx size) =
          (scan side sizes).map (replaceSize idx size) := levelsAt_update_of_pos hsorted hold hpos
      rw [hafter, ← List.map_take, map_replaceSize_of_notMem houtside]

theorem collectLevel_scan (sizes : ℕ → ℕ) (n : ℕ) (level : BookLevel) :
    collectLevel side n ((scan side sizes).take n) level =
      (scan side (writeAll sizes (gridLevel level).toList)).take n := by
  unfold collectLevel gridLevel
  cases hidx : priceToIdx level.price with
  | none => rfl
  | some idx =>
    rw [Option.bind_some]
    dsimp only
    by_cases hsize : sizeToInt level.size ≤ 0
    · rw [if_pos hsize, if_pos hsize]
      rfl
    · rw [if_neg hsize, if_neg hsize]
      exact collect_step sizes n (priceToIdx_lt hidx) (Int.pos_iff_toNat_pos.mp (not_le.mp hsize))

/-- The list kept while a snapshot is read is the head of a scan of its sizes. -/
theorem collectTopLevels_eq (levels : List BookLevel) (side : BookSide) (n : ℕ) :
    collectTopLevels levels side n = (scan side (sideSizes levels)).take n := by
  have hall : ∀ (levels : List BookLevel) (sizes : ℕ → ℕ),
      levels.foldl (collectLevel side n) ((scan side sizes).take n) =
        (scan side (writeAll sizes (levels.filterMap gridLevel))).take n := by
    intro levels
    induction levels with
    | nil => exact fun sizes => rfl
    | cons level rest ih =>
      intro sizes
      rw [List.foldl_cons, collectLevel_scan, ih, ← Lib.writeAll_append]
      congr 3
      cases hgrid : gridLevel level with
      | none => rw [List.filterMap_cons_none hgrid, Option.toList_none, List.nil_append]
      | some entry => rw [List.filterMap_cons_some hgrid, Option.toList_some, List.singleton_append]
  have hempty : (scan side fun _ => 0).take n = [] := by
    unfold scan
    rw [levelsAt_eq_nil (fun _ => 0) (fun _ _ => rfl), List.take_nil]
  unfold collectTopLevels sideSizes
  rw [← hempty, hall]

/-! ## Metrics -/

/-- What a book is compared by: best levels, hash of the top 20 and depth of the top 10. -/
def DenseBook.metrics (book : DenseBook) : SnapshotMetrics where
  bestBidIdx := book.bids.best
  bestAskIdx := book.asks.best
  topnHash := book.topnHash 20
  depthTop10 := (book.depthTopN .bid 10).getD 0 + (book.depthTopN .ask 10).getD 0

theorem worthOf_getD (levels : List (ℕ × ℕ)) :
    (worthOf levels).getD 0 = (levels.map levelNotional).sum := by
  unfold worthOf
  by_cases hnil : levels = []
  · rw [if_pos hnil, hnil]
    rfl
  · rw [if_neg hnil, Option.getD_some]

/-- The metrics of a snapshot are those of a book with its sizes. -/
theorem DenseBook.Exact.metrics_eq {book : DenseBook} (h : book.Exact)
    {bids asks : List BookLevel} (hbids : book.bids.sizes = sideSizes bids)
    (hasks : book.asks.sizes = sideSizes asks) : book.metrics = snapshotMetrics bids asks := by
  have hbid : book.bids.Exact .bid := h .bid
  have hask : book.asks.Exact .ask := h .ask
  have hreads := h.readsAsScanned
  have hdepthBid := hreads.depthTopN .bid 10
  have hdepthAsk := hreads.depthTopN .ask 10
  dsimp only [DenseBook.half] at hdepthBid hdepthAsk
  unfold DenseBook.metrics snapshotMetrics sumTopLevels
  dsimp only
  rw [hbid.best_eq, hask.best_eq, hdepthBid, hdepthAsk, hreads.topnHash, worthOf_getD, worthOf_getD,
    collectTopLevels_eq, collectTopLevels_eq, ← hbids, ← hasks, List.take_take, List.take_take]
  generalize scan .bid book.bids.sizes = bidLevels
  generalize scan .ask book.asks.sizes = askLevels
  have hnil : ∀ levels : List (ℕ × ℕ), levels.take 20 = [] ↔ levels = [] := by
    intro levels
    cases levels <;> simp
  have hhead : ∀ levels : List (ℕ × ℕ), (levels.take 20).head? = levels.head? := by
    intro levels
    cases levels <;> rfl
  rw [hhead, hhead]
  congr 1
  exact if_congr (and_congr (hnil bidLevels).symm (hnil askLevels).symm) rfl rfl

theorem exact_applySnapshot (book : DenseBook) (bids asks : List BookLevel) (localTsMs : ℤ) :
    (book.applySnapshot (some bids) (some asks) localTsMs).1.Exact := by
  intro side
  cases side with
  | bid => exact BookHalf.load_exact .bid bids
  | ask => exact BookHalf.load_exact .ask asks

/-- A book has not drifted from its own metrics. -/
theorem QuoteState.driftMismatch_metrics (q : QuoteState) :
    q.driftMismatch q.orderbook.metrics = false := by
  unfold QuoteState.driftMismatch DenseBook.metrics
  dsimp only
  generalize (q.orderbook.depthTopN .bid 10).getD 0 + (q.orderbook.depthTopN .ask 10).getD 0 = depth
  have hdepth : (if depth > 0 ∧ depth > 0 then
      decide (|depth - depth| / max depth (1 / 1000000000) ≥ opiResyncDepthRatio)
      else decide ((depth > 0) ≠ (depth > 0))) = false := by
    by_cases hpos : depth > 0
    · rw [if_pos ⟨hpos, hpos⟩, sub_self, abs_zero, zero_div]
      apply decide_eq_false
      unfold opiResyncDepthRatio
      norm_num
    · rw [if_neg (fun hboth => hpos hboth.1)]
      exact decide_eq_false fun hne => hne rfl
  rw [hdepth]
  cases q.orderbook.topnHash 20 <;> simp

/-- The metrics of a snapshot are those of the book it gives, whatever the book was. -/
theorem snapshotMetrics_eq_metrics (book : DenseBook) (bids asks : List BookLevel)
    (localTsMs : ℤ) :
    snapshotMetrics bids asks =
      (book.applySnapshot (some bids) (some asks) localTsMs).1.metrics := by
  have hgrid := applySnapshot_grid book bids asks localTsMs
  have hbids : (book.applySnapshot (some bids) (some asks) localTsMs).1.bids.sizes =
      sideSizes bids := funext fun idx => congrFun hgrid (.bid, idx)
  have hasks : (book.applySnapshot (some bids) (some asks) localTsMs).1.asks.sizes =
      sideSizes asks := funext fun idx => congrFun hgrid (.ask, idx)
  exact ((exact_applySnapshot book bids asks localTsMs).metrics_eq hbids hasks).symm

/-- The metrics of a snapshot are those of the book it gives, whatever the book was
before; so a snapshot like the one just applied shows no drift. -/
theorem snapshotMetrics_agree (book : DenseBook) (bids asks : List BookLevel) (localTsMs : ℤ) :
    snapshotMetrics bids asks =
        (book.applySnapshot (some bids) (some asks) localTsMs).1.metrics ∧
      ∀ (q : QuoteState) (event : Event),
        QuoteState.checkOpinionSnapshotDrift
          { q with orderbook := (book.applySnapshot (some bids) (some asks) localTsMs).1 }
          { event with payload := { event.payload with bids := some bids, asks := some asks } } =
          none := by
  have hmetrics := snapshotMetrics_eq_metrics book bids asks localTsMs
  refine ⟨hmetrics, ?_⟩
  intro q event
  have hnone := QuoteState.driftMismatch_metrics
    { q with orderbook := (book.applySnapshot (some bids) (some asks) localTsMs).1 }
  rw [← hmetrics] at hnone
  unfold QuoteState.checkOpinionSnapshotDrift
  rw [Option.bind_some, Option.bind_some]
  exact if_pos hnone

/-! ## What counts as a difference -/

namespace SnapshotMetrics

/-- The depths differ beyond the ratio, or only one side has any. -/
def DepthDiffers (here there : SnapshotMetrics) : Prop :=
  if here.depthTop10 > 0 ∧ there.depthTop10 > 0 then
    |there.depthTop10 - here.depthTop10| / max here.depthTop10 (1 / 1000000000) ≥
      opiResyncDepthRatio
  else (here.depthTop10 > 0) ≠ (there.depthTop10 > 0)

instance (here there : SnapshotMetrics) : Decidable (here.DepthDiffers there) := by
  unfold DepthDiffers
  infer_instance

/-- Best levels, hash or depth differ. -/
def Differs (here there : SnapshotMetrics) : Prop :=
  here.bestBidIdx ≠ there.bestBidIdx ∨ here.bestAskIdx ≠ there.bestAskIdx ∨
    here.topnHash ≠ there.topnHash ∨ here.DepthDiffers there

instance (here there : SnapshotMetrics) : Decidable (here.Differs there) := by
  unfold Differs
  infer_instance

end SnapshotMetrics

/-- A book without levels has no hash, and only such a book has none. -/
theorem DenseBook.Exact.topnHash_eq_none_iff {book : DenseBook} (h : book.Exact) :
    book.metrics.topnHash = none ↔ book.bids.best = none ∧ book.asks.best = none := by
  have hbid : book.bids.Exact .bid := h .bid
  have hask : book.asks.Exact .ask := h .ask
  show book.topnHash 20 = none ↔ _
  rw [h.readsAsScanned.topnHash, hbid.best_eq, hask.best_eq]
  simp

/-- The check finds a drift just in case the metrics of book and snapshot differ. -/
theorem QuoteState.driftMismatch_iff {q : QuoteState} (h : q.orderbook.Exact)
    (bids asks : List BookLevel) :
    q.driftMismatch (snapshotMetrics bids asks) = true ↔
      q.orderbook.metrics.Differs (snapshotMetrics bids asks) := by
  have hhere := h.topnHash_eq_none_iff
  have hthere : (snapshotMetrics bids asks).topnHash = none ↔
      (snapshotMetrics bids asks).bestBidIdx = none ∧
        (snapshotMetrics bids asks).bestAskIdx = none := by
    rw [(snapshotMetrics_eq_metrics DenseBook.empty bids asks 0)]
    exact (exact_applySnapshot DenseBook.empty bids asks 0).topnHash_eq_none_iff
  generalize snapshotMetrics bids asks = snap at hthere ⊢
  have hdepth : (if q.orderbook.metrics.depthTop10 > 0 ∧ snap.depthTop10 > 0 then
      decide (|snap.depthTop10 - q.orderbook.metrics.depthTop10| /
        max q.orderbook.metrics.depthTop10 (1 / 1000000000) ≥ opiResyncDepthRatio)
      else decide ((q.orderbook.metrics.depthTop10 > 0) ≠ (snap.depthTop10 > 0))) = true ↔
      q.orderbook.metrics.DepthDiffers snap := by
    unfold SnapshotMetrics.DepthDiffers
    split
    · exact decide_eq_true_iff
    · exact decide_eq_true_iff
  -- where the best levels agree, both hashes are there or none is
  have hhash : q.orderbook.bids.best = snap.bestBidIdx → q.orderbook.asks.best = snap.bestAskIdx →
      (q.orderbook.topnHash 20 = none ↔ snap.topnHash = none) := by
    intro hbid hask
    rw [hbid, hask, ← hthere] at hhere
    exact hhere
  unfold QuoteState.driftMismatch SnapshotMetrics.Differs
  dsimp only
  rw [Bool.or_eq_true, Bool.or_eq_true, Bool.or_eq_true, decide_eq_true_eq, decide_eq_true_eq]
  by_cases hbid : q.orderbook.bids.best = snap.bestBidIdx
  · by_cases hask : q.orderbook.asks.best = snap.bestAskIdx
    · apply (or_congr (d := q.orderbook.topnHash 20 ≠ snap.topnHash) (or_congr Iff.rfl hdepth)
        ?_).trans
      · exact or_assoc.trans (or_assoc.trans (or_congr Iff.rfl (or_congr Iff.rfl or_comm)))
      · have hboth := hhash hbid hask
        revert hboth
        cases q.orderbook.topnHash 20 <;> cases snap.topnHash <;> simp
    · exact iff_of_true (Or.inl (Or.inl (Or.inr hask))) (Or.inr (Or.inl hask))
  · exact iff_of_true (Or.inl (Or.inl (Or.inl hbid))) (Or.inl hbid)

end AlphaMonitor.Shard
