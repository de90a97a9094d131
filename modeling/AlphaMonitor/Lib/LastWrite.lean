import Mathlib.Data.List.Nodup
import Mathlib.Data.Option.NAry
import Mathlib.Logic.Function.Basic

/-!
# Keyed rows where the last write wins

A batch of rows is deduplicated by key (the last row of a key takes the place of
the first), and the rows are then upserted into a table whose conflict rule
merges the stored row with the new one.  As long as a projection of the row is
always taken from the new row, that projection of the table is decided by the
last row written for each key, however the rows were cut into batches.
-/

namespace AlphaMonitor.Lib

variable {κ α β : Type*} [DecidableEq κ] (key : α → κ)

/-! ## Lists of rows -/

/-- Replace the row that has `x`'s key by `x`, or append `x`. -/
def putRow (x : α) : List α → List α
  | [] => [x]
  | y :: ys => if key y = key x then x :: ys else y :: putRow x ys

/-- Keep one row for each key: the last one, at the place of the first. -/
def dedupeRows (rows : List α) : List α :=
  rows.foldl (fun acc x => putRow key x acc) []

/-- The first row of a key. -/
def findRow (k : κ) (rows : List α) : Option α :=
  rows.find? (fun x => key x = k)

/-- The last row of a key. -/
def lastRow (k : κ) (rows : List α) : Option α :=
  findRow key k rows.reverse

@[simp] theorem findRow_nil (k : κ) : findRow key k ([] : List α) = none := rfl

theorem findRow_cons (k : κ) (x : α) (rows : List α) :
    findRow key k (x :: rows) = if key x = k then some x else findRow key k rows := by
  by_cases h : key x = k <;> simp [findRow, h]

theorem findRow_append (k : κ) (xs ys : List α) :
    findRow key k (xs ++ ys) = (findRow key k xs).or (findRow key k ys) := by
  simp [findRow, List.find?_append]

@[simp] theorem lastRow_nil (k : κ) : lastRow key k ([] : List α) = none := rfl

theorem lastRow_cons (k : κ) (x : α) (rows : List α) :
    lastRow key k (x :: rows) = (lastRow key k rows).or (if key x = k then some x else none) := by
  simp [lastRow, findRow_append, findRow_cons]

theorem lastRow_append (k : κ) (xs ys : List α) :
    lastRow key k (xs ++ ys) = (lastRow key k ys).or (lastRow key k xs) := by
  simp [lastRow, findRow_append]

theorem lastRow_append_singleton (k : κ) (xs : List α) (x : α) :
    lastRow key k (xs ++ [x]) = if key x = k then some x else lastRow key k xs := by
  rw [lastRow_append, lastRow_cons]
  by_cases h : key x = k <;> simp [h]

theorem mem_of_lastRow {key : α → κ} {k : κ} {rows : List α} {row : α}
    (h : lastRow key k rows = some row) : row ∈ rows :=
  List.mem_reverse.mp (List.mem_of_find?_eq_some h)

theorem key_of_lastRow {key : α → κ} {k : κ} {rows : List α} {row : α}
    (h : lastRow key k rows = some row) : key row = k := by
  simpa using List.find?_some h

/-- Only a key without rows has no last one. -/
theorem lastRow_eq_none {key : α → κ} {k : κ} {rows : List α} :
    lastRow key k rows = none ↔ ∀ x ∈ rows, key x ≠ k := by
  simp [lastRow, findRow]

/-- Putting a row sets what is found for its key and nothing else. -/
theorem findRow_putRow (k : κ) (x : α) (rows : List α) :
    findRow key k (putRow key x rows) = if key x = k then some x else findRow key k rows := by
  induction rows with
  | nil => simp [putRow, findRow_cons]
  | cons y ys ih =>
    by_cases hy : key y = key x
    · rw [putRow, if_pos hy, findRow_cons, findRow_cons]
      by_cases hk : key x = k <;> simp [hk, hy]
    · rw [putRow, if_neg hy, findRow_cons, ih, findRow_cons]
      by_cases hk : key x = k
      · simp [hk, hk ▸ hy]
      · simp [hk]

theorem findRow_foldl_putRow (k : κ) (rows acc : List α) :
    findRow key k (rows.foldl (fun acc x => putRow key x acc) acc) =
      (lastRow key k rows).or (findRow key k acc) := by
  induction rows generalizing acc with
  | nil => simp
  | cons x rows ih =>
    rw [List.foldl_cons, ih, findRow_putRow, lastRow_cons, Option.or_assoc]
    by_cases hk : key x = k <;> simp [hk]

/-- The row that deduplication keeps for a key is the last one of the batch. -/
theorem findRow_dedupeRows (k : κ) (rows : List α) :
    findRow key k (dedupeRows key rows) = lastRow key k rows := by
  rw [dedupeRows, findRow_foldl_putRow]
  simp

theorem map_key_putRow (x : α) (rows : List α) :
    (putRow key x rows).map key =
      if key x ∈ rows.map key then rows.map key else rows.map key ++ [key x] := by
  induction rows with
  | nil => simp [putRow]
  | cons y ys ih =>
    by_cases hy : key y = key x
    · simp [putRow, hy]
    · have hy' : key x ≠ key y := fun h => hy h.symm
      rw [putRow, if_neg hy, List.map_cons, ih, List.map_cons]
      by_cases hmem : key x ∈ ys.map key <;> simp [hmem, hy']

/-- A deduplicated batch names every key at most once. -/
theorem nodup_dedupeRows (rows : List α) : ((dedupeRows key rows).map key).Nodup := by
  suffices h : ∀ acc : List α, (acc.map key).Nodup →
      ((rows.foldl (fun acc x => putRow key x acc) acc).map key).Nodup from
    h [] List.nodup_nil
  induction rows with
  | nil => exact fun acc h => h
  | cons x rows ih =>
    intro acc hacc
    refine ih _ ?_
    rw [map_key_putRow]
    split
    · exact hacc
    · rename_i hmem
      simpa only [List.concat_eq_append] using List.Nodup.concat hmem hacc

/-- Deduplication keeps the keys of a batch. -/
theorem mem_map_key_dedupeRows (rows : List α) (k : κ) :
    k ∈ (dedupeRows key rows).map key ↔ k ∈ rows.map key := by
  suffices h : ∀ acc : List α, k ∈ (rows.foldl (fun acc x => putRow key x acc) acc).map key ↔
      k ∈ acc.map key ∨ k ∈ rows.map key by
    rw [dedupeRows, h]
    simp
  induction rows with
  | nil => simp
  | cons x rows ih =>
    intro acc
    rw [List.foldl_cons, ih, map_key_putRow, List.map_cons, List.mem_cons]
    by_cases hmem : key x ∈ acc.map key
    · rw [if_pos hmem]
      by_cases hk : k = key x
      · simp [hk, hmem]
      · simp [hk]
    · rw [if_neg hmem, List.mem_append, List.mem_singleton, or_assoc]

theorem findRow_eq_none {k : κ} {rows : List α} (h : k ∉ rows.map key) :
    findRow key k rows = none := by
  rw [findRow, List.find?_eq_none]
  intro x hx hk
  exact h (List.mem_map.mpr ⟨x, hx, by simpa using hk⟩)

/-- Where every key occurs once, its last row is its only one. -/
theorem lastRow_of_nodup {rows : List α} (h : (rows.map key).Nodup) (k : κ) :
    lastRow key k rows = findRow key k rows := by
  induction rows with
  | nil => rfl
  | cons x rows ih =>
    rw [List.map_cons, List.nodup_cons] at h
    rw [lastRow_cons, ih h.2, findRow_cons]
    by_cases hk : key x = k
    · have hnone : findRow key k rows = none := findRow_eq_none key (hk ▸ h.1)
      simp [hk, hnone]
    · simp [hk]

/-! ## Tables -/

/-- Insert a row, or merge it into the stored row of its key. -/
def upsertRow (merge : α → α → α) (table : κ → Option α) (x : α) : κ → Option α :=
  Function.update table (key x) (some (match table (key x) with
    | none => x
    | some old => merge old x))

/-- Upsert rows one after another. -/
def upsertRows (merge : α → α → α) (table : κ → Option α) (rows : List α) : κ → Option α :=
  rows.foldl (upsertRow key merge) table

variable {key} {merge : α → α → α}

theorem upsertRows_append (table : κ → Option α) (xs ys : List α) :
    upsertRows key merge table (xs ++ ys) =
      upsertRows key merge (upsertRows key merge table xs) ys := by
  simp [upsertRows]

/-- A projection that a merge takes from the new row is that of the last row
written for the key. -/
theorem upsertRows_map (proj : α → β) (hproj : ∀ old new, proj (merge old new) = proj new)
    (table : κ → Option α) (rows : List α) (k : κ) :
    (upsertRows key merge table rows k).map proj =
      ((lastRow key k rows).or (table k)).map proj := by
  induction rows generalizing table with
  | nil => simp [upsertRows]
  | cons x rows ih =>
    have hstep : (upsertRow key merge table x k).map proj =
        ((if key x = k then some x else none).or (table k)).map proj := by
      by_cases hk : key x = k
      · subst hk
        cases htab : table (key x) <;> simp [upsertRow, htab, hproj]
      · have hk' : k ≠ key x := fun h => hk h.symm
        simp [upsertRow, hk, hk']
    have htail : upsertRows key merge table (x :: rows) =
        upsertRows key merge (upsertRow key merge table x) rows := rfl
    rw [htail, ih, lastRow_cons, Option.or_assoc]
    cases lastRow key k rows with
    | none => simpa using hstep
    | some y => simp

/-- Writing a batch deduplicated or as it is gives the same projection. -/
theorem upsertRows_dedupe_map (proj : α → β) (hproj : ∀ old new, proj (merge old new) = proj new)
    (table : κ → Option α) (rows : List α) (k : κ) :
    (upsertRows key merge table (dedupeRows key rows) k).map proj =
      ((lastRow key k rows).or (table k)).map proj := by
  rw [upsertRows_map proj hproj, lastRow_of_nodup key (nodup_dedupeRows key rows),
    findRow_dedupeRows]

/-- A merge that takes each column from one fixed side: what lies between the first and
the last row does not show. -/
structure Columnwise (merge : α → α → α) : Prop where
  same : ∀ a, merge a a = a
  ends : ∀ a b c, merge (merge a b) c = merge a c

/-- A columnwise merge leaves the first row of the key, merged with the last one. -/
theorem Columnwise.upsertRows (hmerge : Columnwise merge) (table : κ → Option α) (rows : List α)
    (k : κ) :
    upsertRows key merge table rows k =
      Option.map₂ merge ((table k).or (findRow key k rows)) ((lastRow key k rows).or (table k)) := by
  induction rows generalizing table with
  | nil => cases htable : table k <;> simp [Lib.upsertRows, htable, hmerge.same]
  | cons x rows ih =>
    have htail : Lib.upsertRows key merge table (x :: rows) =
        Lib.upsertRows key merge (upsertRow key merge table x) rows := rfl
    rw [htail, ih, lastRow_cons, findRow_cons]
    by_cases hk : key x = k
    · subst hk
      rw [upsertRow, Function.update_self, if_pos rfl, if_pos rfl]
      cases table (key x) with
      | none => cases lastRow key (key x) rows <;> simp [hmerge.same]
      | some old => cases lastRow key (key x) rows <;> simp [hmerge.same, hmerge.ends]
    · have hk' : k ≠ key x := fun h => hk h.symm
      rw [upsertRow, Function.update_of_ne hk', if_neg hk, if_neg hk, Option.or_none]

/-- Write batches one after another, each deduplicated. -/
def writeBatches (key : α → κ) (merge : α → α → α) (table : κ → Option α)
    (batches : List (List α)) : κ → Option α :=
  batches.foldl (fun table batch => Lib.upsertRows key merge table (dedupeRows key batch)) table

/-- The row of a key that is stored first: the one of the table, or the last one of the
first batch that has the key. -/
def firstStored (key : α → κ) (table : κ → Option α) (batches : List (List α)) (k : κ) :
    Option α :=
  (table k).or (batches.findSome? (lastRow key k))

/-- A key has a first row in the batches just in case it has a last one. -/
theorem isSome_findSome?_lastRow (batches : List (List α)) (k : κ) :
    (batches.findSome? (lastRow key k)).isSome = (lastRow key k batches.flatten).isSome := by
  induction batches with
  | nil => rfl
  | cons batch rest ih =>
    rw [List.findSome?_cons, List.flatten_cons, lastRow_append]
    cases lastRow key k batch with
    | none => rw [Option.or_none, ← ih]
    | some row => cases lastRow key k rest.flatten <;> rfl

/-- What batches leave for a key, however they are cut: the row stored first, merged with
the last one. -/
theorem Columnwise.writeBatches (hmerge : Columnwise merge) (table : κ → Option α)
    (batches : List (List α)) (k : κ) :
    writeBatches key merge table batches k =
      Option.map₂ merge (firstStored key table batches k)
        ((lastRow key k batches.flatten).or (table k)) := by
  induction batches generalizing table with
  | nil => cases htable : table k <;> simp [Lib.writeBatches, firstStored, htable, hmerge.same]
  | cons batch rest ih =>
    have htail : Lib.writeBatches key merge table (batch :: rest) =
        Lib.writeBatches key merge (Lib.upsertRows key merge table (dedupeRows key batch)) rest :=
      rfl
    rw [htail, ih, firstStored, hmerge.upsertRows, findRow_dedupeRows,
      lastRow_of_nodup key (nodup_dedupeRows key batch), findRow_dedupeRows, List.flatten_cons,
      lastRow_append, firstStored, List.findSome?_cons]
    generalize rest.findSome? (lastRow key k) = first
    generalize lastRow key k rest.flatten = last
    cases table k with
    | none =>
      cases lastRow key k batch with
      | none => simp
      | some row => cases last <;> simp [hmerge.same]
    | some old =>
      cases lastRow key k batch with
      | none => cases last <;> simp [hmerge.same]
      | some row => cases last <;> simp [hmerge.same, hmerge.ends]

/-! ## Chunks -/

private theorem flatten_toChunks_go (n : ℕ) (xs : List α) (acc₁ : Array α)
    (acc₂ : Array (List α)) :
    (List.toChunks.go n xs acc₁ acc₂).flatten = acc₂.toList.flatten ++ acc₁.toList ++ xs := by
  induction xs generalizing acc₁ acc₂ with
  | nil => simp [List.toChunks.go]
  | cons x xs ih =>
    unfold List.toChunks.go
    split
    · rw [ih]
      simp
    · rw [ih]
      simp

/-- Cutting a list into chunks loses nothing. -/
theorem flatten_toChunks (n : ℕ) (xs : List α) : (xs.toChunks n).flatten = xs := by
  cases xs with
  | nil => cases n <;> rfl
  | cons x xs =>
    cases n with
    | zero => simp [List.toChunks]
    | succ n =>
      rw [List.toChunks]
      · rw [flatten_toChunks_go]
        simp
      · simp

/-- Upserting chunk by chunk is upserting the whole list. -/
theorem foldl_upsertRows (table : κ → Option α) (chunks : List (List α)) :
    chunks.foldl (upsertRows key merge) table = upsertRows key merge table chunks.flatten := by
  induction chunks generalizing table with
  | nil => rfl
  | cons chunk rest ih => rw [List.foldl_cons, ih, List.flatten_cons, upsertRows_append]

end AlphaMonitor.Lib
