import AlphaMonitor.Shard.Grid

/-!
# Scans of a side

A scan looks at all prices of the grid and takes the levels that have a size, best
price first.  Its levels are sorted by price, and its first one is the best level.

## Main definitions

- `scan`: the levels of a side, best first, found without the best level
- `BestOf`: the best of the prices with a property
-/

namespace AlphaMonitor.Shard

/-! ## Scans -/

/-- The non-empty levels at some prices. -/
def levelsAt (sizes : ℕ → ℕ) (prices : List ℕ) : List (ℕ × ℕ) :=
  (prices.filter fun idx => 0 < sizes idx).map fun idx => (idx, sizes idx)

/-- All prices of the grid, best first. -/
def gridPrices : BookSide → List ℕ
  | .bid => (List.range priceLevels).reverse
  | .ask => List.range priceLevels

/-- The non-empty levels among all prices, best first. -/
def scan (side : BookSide) (sizes : ℕ → ℕ) : List (ℕ × ℕ) := levelsAt sizes (gridPrices side)

section
variable (sizes : ℕ → ℕ)

theorem levelsAt_append (xs ys : List ℕ) :
    levelsAt sizes (xs ++ ys) = levelsAt sizes xs ++ levelsAt sizes ys := by
  unfold levelsAt
  rw [List.filter_append, List.map_append]

theorem levelsAt_cons (idx : ℕ) (prices : List ℕ) :
    levelsAt sizes (idx :: prices) =
      if 0 < sizes idx then (idx, sizes idx) :: levelsAt sizes prices
      else levelsAt sizes prices := by
  unfold levelsAt
  by_cases hsize : 0 < sizes idx
  · rw [List.filter_cons_of_pos (by simpa using hsize), List.map_cons, if_pos hsize]
  · rw [List.filter_cons_of_neg (by simpa using hsize), if_neg hsize]

theorem mem_levelsAt {prices : List ℕ} {level : ℕ × ℕ} :
    level ∈ levelsAt sizes prices ↔
      level.1 ∈ prices ∧ 0 < level.2 ∧ level.2 = sizes level.1 := by
  simp only [levelsAt, List.mem_map, List.mem_filter, decide_eq_true_eq]
  constructor
  · rintro ⟨idx, ⟨hmem, hpos⟩, rfl⟩
    exact ⟨hmem, hpos, rfl⟩
  · rintro ⟨hmem, hpos, hsize⟩
    exact ⟨level.1, ⟨hmem, hsize ▸ hpos⟩, Prod.ext rfl hsize.symm⟩

/-- Empty levels do not show. -/
theorem levelsAt_eq_nil {prices : List ℕ} (h : ∀ idx ∈ prices, sizes idx = 0) :
    levelsAt sizes prices = [] := by
  rw [List.eq_nil_iff_forall_not_mem]
  intro level hlevel
  obtain ⟨hmem, hpos, hsize⟩ := (mem_levelsAt sizes).mp hlevel
  rw [hsize, h _ hmem] at hpos
  exact lt_irrefl 0 hpos

theorem levelsDown_eq (start : ℕ) :
    levelsDown sizes start = levelsAt sizes (List.range start).reverse := by
  induction start with
  | zero => rfl
  | succ idx ih =>
    rw [List.range_succ, List.reverse_append, List.reverse_singleton, List.singleton_append,
      levelsAt_cons, ← ih]
    rfl

theorem levelsUp_eq (count idx : ℕ) :
    levelsUp sizes count idx = levelsAt sizes (List.range' idx count) := by
  induction count generalizing idx with
  | zero => rfl
  | succ count ih =>
    rw [List.range'_succ, levelsAt_cons, ← ih]
    rfl

end

/-! ## Prices in order -/

theorem isBetter_irrefl_of_better {side : BookSide} {idx other : ℕ}
    (h : isBetter side idx other = true) : isBetter side other idx = false := by
  cases side <;> simp only [isBetter, decide_eq_true_eq, decide_eq_false_iff_not] at * <;> omega

/-- Of two prices that are not the same one is better. -/
theorem eq_of_not_better {side : BookSide} {idx other : ℕ} (h : isBetter side idx other = false)
    (h' : isBetter side other idx = false) : idx = other := by
  cases side <;> simp only [isBetter, decide_eq_false_iff_not] at * <;> omega

theorem range_split {k n : ℕ} (h : k ≤ n) :
    List.range n = List.range k ++ List.range' k (n - k) := by
  have happend := @List.range'_append_1 0 k (n - k)
  rw [Nat.zero_add, Nat.add_sub_cancel' h] at happend
  rw [List.range_eq_range', List.range_eq_range', happend]

theorem range_sorted (n : ℕ) : (List.range n).Pairwise fun a b => isBetter .ask a b = true := by
  refine List.pairwise_lt_range.imp ?_
  intro a b hlt
  exact decide_eq_true hlt

theorem range'_sorted (start count : ℕ) :
    (List.range' start count).Pairwise fun a b => isBetter .ask a b = true := by
  have hlt : (List.range' start count).Pairwise fun a b => a < b := List.pairwise_lt_range'
  refine hlt.imp ?_
  intro a b hlt
  exact decide_eq_true hlt

theorem range_reverse_sorted (n : ℕ) :
    (List.range n).reverse.Pairwise fun a b => isBetter .bid a b = true := by
  rw [List.pairwise_reverse]
  exact List.pairwise_lt_range.imp fun hlt => decide_eq_true hlt

theorem gridPrices_sorted (side : BookSide) :
    (gridPrices side).Pairwise fun a b => isBetter side a b = true := by
  cases side with
  | bid => exact range_reverse_sorted priceLevels
  | ask => exact range_sorted priceLevels

theorem mem_gridPrices {side : BookSide} {idx : ℕ} :
    idx ∈ gridPrices side ↔ idx < priceLevels := by
  cases side with
  | bid => rw [gridPrices, List.mem_reverse, List.mem_range]
  | ask => rw [gridPrices, List.mem_range]

/-- The best of the prices with a property; none if no price has it. -/
def BestOf (side : BookSide) (P : ℕ → Prop) : Option ℕ → Prop
  | none => ∀ idx, ¬ P idx
  | some best => P best ∧ ∀ idx, P idx → isBetter side idx best = false

theorem BestOf.congr {side : BookSide} {P Q : ℕ → Prop} {best : Option ℕ}
    (h : BestOf side P best) (hPQ : ∀ idx, P idx ↔ Q idx) : BestOf side Q best := by
  have heq : P = Q := funext fun idx => propext (hPQ idx)
  rwa [← heq]

/-- There is at most one best price. -/
theorem BestOf.unique {side : BookSide} {P : ℕ → Prop} {best other : Option ℕ}
    (h : BestOf side P best) (h' : BestOf side P other) : best = other := by
  cases best with
  | none =>
    cases other with
    | none => rfl
    | some idx => exact absurd h'.1 (h idx)
  | some best =>
    cases other with
    | none => exact absurd h.1 (h' best)
    | some idx => rw [eq_of_not_better (h'.2 best h.1) (h.2 idx h'.1)]

/-- The first level found among sorted prices is the best of those prices. -/
theorem bestOf_levelsAt {side : BookSide} (sizes : ℕ → ℕ) {prices : List ℕ}
    (hsorted : prices.Pairwise fun a b => isBetter side a b = true) :
    BestOf side (fun idx => idx ∈ prices ∧ 0 < sizes idx)
      ((levelsAt sizes prices).head?.map Prod.fst) := by
  induction prices with
  | nil =>
    intro idx h
    cases h.1
  | cons price rest ih =>
    obtain ⟨hfirst, hrest⟩ := List.pairwise_cons.mp hsorted
    rw [levelsAt_cons]
    by_cases hsize : 0 < sizes price
    · rw [if_pos hsize]
      refine ⟨⟨List.mem_cons_self, hsize⟩, ?_⟩
      rintro idx ⟨hmem, _⟩
      rcases List.mem_cons.mp hmem with rfl | hmem
      · exact BookHalf.isBetter_self side idx
      · exact isBetter_irrefl_of_better (hfirst idx hmem)
    · rw [if_neg hsize]
      refine (ih hrest).congr ?_
      intro idx
      constructor
      · rintro ⟨hmem, hpos⟩
        exact ⟨List.mem_cons_of_mem price hmem, hpos⟩
      · rintro ⟨hmem, hpos⟩
        rcases List.mem_cons.mp hmem with rfl | hmem
        · exact absurd hpos hsize
        · exact ⟨hmem, hpos⟩

theorem scan_sorted (side : BookSide) (sizes : ℕ → ℕ) :
    (scan side sizes).Pairwise fun a b => isBetter side a.1 b.1 = true := by
  unfold scan levelsAt
  rw [List.pairwise_map]
  exact (gridPrices_sorted side).filter _

end AlphaMonitor.Shard
