import Mathlib.Data.List.Nodup
import Mathlib.Logic.Function.Basic

/-!
# Plain inserts under a primary key

A row goes into a table only if its key is still free there.  Rows inserted one after
another, or all by one statement, succeed just in case no key is taken and none comes
twice.
-/

namespace AlphaMonitor.Lib

variable {κ α : Type*} [DecidableEq κ] (key : α → κ)

/-- Insert a row; `none` when its key is taken. -/
def insertRow (table : κ → Option α) (x : α) : Option (κ → Option α) :=
  if (table (key x)).isNone then some (Function.update table (key x) (some x)) else none

/-- Insert rows one after another; one taken key fails them all. -/
def insertRows (table : κ → Option α) (rows : List α) : Option (κ → Option α) :=
  rows.foldlM (insertRow key) table

@[simp] theorem insertRows_nil (table : κ → Option α) : insertRows key table [] = some table := rfl

@[simp] theorem insertRows_cons (table : κ → Option α) (x : α) (rows : List α) :
    insertRows key table (x :: rows) = (insertRow key table x).bind (insertRows key · rows) := rfl

theorem insertRows_append (table : κ → Option α) (xs ys : List α) :
    insertRows key table (xs ++ ys) = (insertRows key table xs).bind (insertRows key · ys) := by
  simp only [insertRows, List.foldlM_append]
  rfl

variable {key} {table table' : κ → Option α}

theorem insertRow_eq_some {x : α} :
    insertRow key table x = some table' ↔
      table (key x) = none ∧ Function.update table (key x) (some x) = table' := by
  unfold insertRow
  by_cases h : table (key x) = none
  · simp [h]
  · simp [h]

/-- After an insert the keys of the new rows are taken, and no others are that were not. -/
theorem insertRows_taken {rows : List α} (h : insertRows key table rows = some table') (k : κ) :
    table' k = none ↔ table k = none ∧ k ∉ rows.map key := by
  induction rows generalizing table with
  | nil =>
    cases h
    simp
  | cons x rows ih =>
    obtain ⟨middle, hx, hrest⟩ := Option.bind_eq_some_iff.mp h
    obtain ⟨_, rfl⟩ := insertRow_eq_some.mp hx
    rw [ih hrest]
    by_cases hk : k = key x
    · simp [hk]
    · simp [hk]

/-- Rows can be inserted just in case their keys are free and distinct. -/
theorem insertRows_isSome_iff (table : κ → Option α) (rows : List α) :
    (insertRows key table rows).isSome ↔
      (∀ x ∈ rows, table (key x) = none) ∧ (rows.map key).Nodup := by
  induction rows generalizing table with
  | nil => simp
  | cons x rows ih =>
    rw [insertRows_cons, List.forall_mem_cons, List.map_cons, List.nodup_cons]
    by_cases hx : table (key x) = none
    · have hins : insertRow key table x = some (Function.update table (key x) (some x)) :=
        insertRow_eq_some.mpr ⟨hx, rfl⟩
      rw [hins, Option.bind_some, ih]
      -- The first row takes its key, so the others need a key of their own.
      have hfree : (∀ y ∈ rows, Function.update table (key x) (some x) (key y) = none) ↔
          key x ∉ rows.map key ∧ ∀ y ∈ rows, table (key y) = none := by
        constructor
        · intro h
          refine ⟨fun hmem => ?_, fun y hy => ?_⟩
          · obtain ⟨y, hy, hyx⟩ := List.mem_map.mp hmem
            simpa [hyx] using h y hy
          · have hne : key y ≠ key x := fun he => by simpa [he] using h y hy
            simpa [hne] using h y hy
        · rintro ⟨hnotMem, h⟩ y hy
          have hne : key y ≠ key x := fun he => hnotMem (List.mem_map.mpr ⟨y, hy, he⟩)
          rw [Function.update_of_ne hne]
          exact h y hy
      rw [hfree]
      tauto
    · have hins : insertRow key table x = none := by simp [insertRow, hx]
      simp [hins, hx]

end AlphaMonitor.Lib
