import AlphaMonitor.Lib.Writes
import AlphaMonitor.Shard.Book

/-!
# A book as the sizes of its levels

For synchronisation only the sizes matter.  As a function from levels to sizes a
snapshot and a level update are writes: the snapshot's levels to an empty book,
the update's level to the book there is.

## Main results

- `applySnapshot_grid`, `applyDelta_grid`: the dense book does these writes
- `load_spec`: the best level of a loaded side is the best of its levels
-/

namespace AlphaMonitor.Shard

open Lib (writeAll)

/-- A book as the size of each level of each side. -/
abbrev Grid := BookSide × ℕ → ℕ

/-- One level gets a size. -/
abbrev LevelWrite := (BookSide × ℕ) × ℕ

def DenseBook.grid (book : DenseBook) : Grid := fun level => (book.half level.1).sizes level.2

/-! ## Snapshots -/

/-- A level as it is on the grid; off the grid or without a size it is none. -/
def gridLevel (level : BookLevel) : Option (ℕ × ℕ) :=
  (priceToIdx level.price).bind fun idx =>
    if sizeToInt level.size ≤ 0 then none else some (idx, (sizeToInt level.size).toNat)

/-- The sizes of one side of a snapshot: the last of the levels with one price counts. -/
def sideSizes (levels : List BookLevel) : ℕ → ℕ :=
  writeAll (fun _ => 0) (levels.filterMap gridLevel)

/-- The sizes of a snapshot. -/
def Grid.ofLevels (bids asks : List BookLevel) : Grid
  | (.bid, idx) => sideSizes bids idx
  | (.ask, idx) => sideSizes asks idx

namespace BookHalf

variable (side : BookSide)

/-- The best level is one of the levels, and none is better. -/
structure Sound (half : BookHalf) : Prop where
  none_of : half.best = none → ∀ idx, half.sizes idx = 0
  pos : ∀ best ∈ half.best, 0 < half.sizes best
  best : ∀ best ∈ half.best, ∀ idx, 0 < half.sizes idx → isBetter side idx best = false
  counted : half.best.isSome = true → 0 < half.nonzero

theorem sound_empty : Sound side empty := by
  refine ⟨fun _ _ => rfl, ?_, ?_, ?_⟩
  · intro best hbest
    cases hbest
  · intro best hbest
    cases hbest
  · intro hsome
    cases hsome

theorem isBetter_trans {side : BookSide} {idx best other : ℕ}
    (hbetter : isBetter side idx best = true) (hother : isBetter side other best = false) :
    isBetter side other idx = false := by
  cases side <;> simp only [isBetter, decide_eq_true_eq, decide_eq_false_iff_not] at * <;> omega

theorem isBetter_self (side : BookSide) (idx : ℕ) : isBetter side idx idx = false := by
  cases side <;> simp [isBetter]

/-- A level with a size is put on the side. -/
def putLevel (half : BookHalf) (idx size : ℕ) : BookHalf where
  sizes := Function.update half.sizes idx size
  nonzero := if half.sizes idx = 0 then half.nonzero + 1 else half.nonzero
  best :=
    match half.best with
    | none => some idx
    | some best => if isBetter side idx best then some idx else some best

theorem loadLevel_eq (half : BookHalf) (invalid : ℕ) (level : BookLevel) :
    (loadLevel side (half, invalid) level).1 =
      (gridLevel level).elim half fun entry => half.putLevel side entry.1 entry.2 := by
  unfold loadLevel gridLevel
  dsimp only
  generalize sizeToInt level.size = size
  cases priceToIdx level.price with
  | none => rfl
  | some idx =>
    simp only [Option.bind_some]
    by_cases hsize : size ≤ 0
    · simp only [if_pos hsize, Option.elim_none]
    · rw [if_neg hsize, if_neg hsize]
      rfl

theorem gridLevel_pos {level : BookLevel} {entry : ℕ × ℕ} (h : gridLevel level = some entry) :
    0 < entry.2 := by
  simp only [gridLevel, Option.bind_eq_some_iff] at h
  obtain ⟨idx, _, hsize⟩ := h
  split at hsize
  · cases hsize
  · rename_i hsome
    have hentry := Option.some.inj hsize
    rw [← hentry]
    exact Int.pos_iff_toNat_pos.mp (not_le.mp hsome)

variable {side}

theorem Sound.putLevel {half : BookHalf} (h : Sound side half) {idx size : ℕ} (hpos : 0 < size) :
    Sound side (half.putLevel side idx size) := by
  have hself : ∀ other, other = idx → isBetter side other idx = false := by
    rintro other rfl
    exact isBetter_self side other
  cases hbest : half.best with
  | none =>
    have hzero := h.none_of hbest
    have hput : half.putLevel side idx size =
        ⟨Function.update half.sizes idx size, half.nonzero + 1, some idx⟩ := by
      simp [BookHalf.putLevel, hbest, hzero idx]
    rw [hput]
    refine ⟨?_, ?_, ?_, fun _ => Nat.succ_pos _⟩
    · intro hnone
      cases hnone
    · rintro best ⟨⟩
      simpa using hpos
    · rintro best ⟨⟩ other hother
      apply hself
      by_contra hne
      simp only [Function.update_of_ne hne, hzero other, lt_irrefl] at hother
  | some best =>
    have hcount := h.counted (by rw [hbest]; rfl)
    have hcounted : 0 < (if half.sizes idx = 0 then half.nonzero + 1 else half.nonzero) := by
      split <;> omega
    -- the new level is the best one now, or the old best one stays
    by_cases hbetter : isBetter side idx best = true
    · have hput : (half.putLevel side idx size).best = some idx := by
        simp [BookHalf.putLevel, hbest, hbetter]
      refine ⟨?_, ?_, ?_, fun _ => hcounted⟩
      · intro hnone
        rw [hput] at hnone
        cases hnone
      · rw [hput]
        rintro top ⟨⟩
        simpa [BookHalf.putLevel] using hpos
      · rw [hput]
        rintro top ⟨⟩ other hother
        by_cases hsame : other = idx
        · exact hself other hsame
        · simp only [BookHalf.putLevel, Function.update_of_ne hsame] at hother
          exact isBetter_trans hbetter (h.best best hbest other hother)
    · have hput : (half.putLevel side idx size).best = some best := by
        simp [BookHalf.putLevel, hbest, hbetter]
      refine ⟨?_, ?_, ?_, fun _ => hcounted⟩
      · intro hnone
        rw [hput] at hnone
        cases hnone
      · rw [hput]
        rintro top ⟨⟩
        by_cases hsame : best = idx
        · simpa [BookHalf.putLevel, hsame] using hpos
        · simp only [BookHalf.putLevel, Function.update_of_ne hsame]
          exact h.pos best hbest
      · rw [hput]
        rintro top ⟨⟩ other hother
        by_cases hsame : other = idx
        · rw [hsame]
          exact eq_false_of_ne_true hbetter
        · simp only [BookHalf.putLevel, Function.update_of_ne hsame] at hother
          exact h.best best hbest other hother

/-- A level of the snapshot that is on the grid is put on the side, the others are not. -/
theorem loadLevel_spec {half : BookHalf} (invalid : ℕ) (level : BookLevel) (h : Sound side half) :
    Sound side (loadLevel side (half, invalid) level).1 ∧
      (loadLevel side (half, invalid) level).1.sizes =
        writeAll half.sizes (gridLevel level).toList := by
  rw [loadLevel_eq]
  cases hgrid : gridLevel level with
  | none => exact ⟨h, rfl⟩
  | some entry => exact ⟨h.putLevel (gridLevel_pos hgrid), rfl⟩

variable (side)

theorem load_spec (levels : List BookLevel) :
    Sound side (load side levels).1 ∧ (load side levels).1.sizes = sideSizes levels := by
  have hall : ∀ (levels : List BookLevel) (half : BookHalf) (invalid : ℕ), Sound side half →
      Sound side (levels.foldl (loadLevel side) (half, invalid)).1 ∧
        (levels.foldl (loadLevel side) (half, invalid)).1.sizes =
          writeAll half.sizes (levels.filterMap gridLevel) := by
    intro levels
    induction levels with
    | nil => exact fun half invalid h => ⟨h, rfl⟩
    | cons level rest ih =>
      intro half invalid h
      obtain ⟨hsound, hsizes⟩ := loadLevel_spec invalid level h
      obtain ⟨hsound', hsizes'⟩ := ih (loadLevel side (half, invalid) level).1
        (loadLevel side (half, invalid) level).2 hsound
      refine ⟨hsound', ?_⟩
      rw [List.foldl_cons]
      refine hsizes'.trans ?_
      rw [hsizes, ← Lib.writeAll_append]
      congr 1
      cases hgrid : gridLevel level with
      | none => simp [hgrid]
      | some entry => simp [hgrid]
  exact hall levels empty 0 (sound_empty side)

end BookHalf

/-- A loaded book holds the levels of the snapshot that are on the grid, and no other. -/
theorem applySnapshot_grid (book : DenseBook) (bids asks : List BookLevel) (localTsMs : ℤ) :
    (book.applySnapshot (some bids) (some asks) localTsMs).1.grid = Grid.ofLevels bids asks := by
  funext ⟨side, idx⟩
  cases side with
  | bid => exact congrFun (BookHalf.load_spec .bid bids).2 idx
  | ask => exact congrFun (BookHalf.load_spec .ask asks).2 idx

/-! ## Level updates -/

/-- The write of a level update; off the grid it writes nothing. -/
def levelWrite (side : BookSide) (price size : ℚ) : List LevelWrite :=
  ((priceToIdx price).map fun idx => ((side, idx), (sizeToInt size).toNat)).toList

/-- The writes of an event: those of its level update, if it has one. -/
def levelWritesOf (event : Event) : List LevelWrite :=
  match event.payload.side, event.payload.price, event.payload.size with
  | some side, some price, some size => levelWrite side price size
  | _, _, _ => []

theorem grid_setLevel (book : DenseBook) (side : BookSide) (idx size : ℕ) :
    (book.setLevel side idx size).grid = Function.update book.grid (side, idx) size := by
  funext ⟨other, i⟩
  by_cases h : (other, i) = (side, idx)
  · rw [h, Function.update_self]
    cases side <;> simp [DenseBook.grid, DenseBook.setLevel, DenseBook.half, BookHalf.setLevel]
  · rw [Function.update_of_ne h]
    rw [Prod.mk.injEq, not_and_or] at h
    cases side <;> cases other <;>
      simp_all [DenseBook.grid, DenseBook.setLevel, DenseBook.half, BookHalf.setLevel]

theorem applyDelta_grid (book : DenseBook) (side : BookSide) (price size : ℚ) (localTsMs : ℤ) :
    (book.applyDelta side price size localTsMs).1.grid =
      writeAll book.grid (levelWrite side price size) := by
  unfold DenseBook.applyDelta levelWrite
  cases priceToIdx price with
  | none => rfl
  | some idx => exact grid_setLevel _ side idx _

end AlphaMonitor.Shard
