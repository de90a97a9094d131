import Mathlib.Data.List.DropRight
import Mathlib.Data.List.Sort
import Mathlib.Order.Lattice

/-!
# Bounded histories and their order statistics

A bounded history keeps the newest entries of a log.  An order statistic is the entry
at an index of the sorted samples; it says how many samples are not above it, and how
many are.

## Main results

- `keepLast_rtake`: a bounded history is the end of the log
- `countP_le_of_orderStat`, `countP_lt_of_orderStat`: what an order statistic says
-/

namespace AlphaMonitor.Lib

variable {α : Type*}

/-! ## Bounded histories -/

/-- A new entry, for which the oldest ones make room. -/
def keepLast (cap : ℕ) (window : List α) (entry : α) : List α := (window ++ [entry]).rtake cap

theorem length_rtake (log : List α) (cap : ℕ) : (log.rtake cap).length = min cap log.length := by
  rw [List.rtake, List.length_drop]
  omega

/-- What has gone out of a history is of no effect on it. -/
theorem keepLast_rtake (cap : ℕ) (log : List α) (entry : α) :
    keepLast cap (log.rtake cap) entry = (log ++ [entry]).rtake cap := by
  cases cap with
  | zero => rw [keepLast, List.rtake_zero, List.rtake_zero]
  | succ cap =>
    rw [keepLast, List.rtake_concat_succ, List.rtake_concat_succ, List.rtake, List.rtake, List.rtake,
      List.drop_drop, List.length_drop]
    congr 2
    omega

/-! ## Order statistics -/

variable [LinearOrder α]

/-- The sample with the given index among the sorted ones. -/
def orderStat (samples : List α) (i : ℕ) : Option α := (samples.insertionSort (· ≤ ·))[i]?

theorem orderStat_isSome_iff (samples : List α) (i : ℕ) :
    (orderStat samples i).isSome = true ↔ i < samples.length := by
  rw [orderStat, isSome_getElem?, List.length_insertionSort]

variable {samples : List α} {i : ℕ} {v : α}

theorem mem_of_orderStat (h : orderStat samples i = some v) : v ∈ samples :=
  (List.perm_insertionSort (· ≤ ·) samples).mem_iff.mp (List.mem_of_getElem? h)

/-- The order statistics grow with their index. -/
theorem orderStat_le {j : ℕ} {w : α} (h : orderStat samples i = some v)
    (hw : orderStat samples j = some w) (hij : i ≤ j) : v ≤ w := by
  obtain ⟨hi, hv⟩ := List.getElem?_eq_some_iff.mp h
  obtain ⟨hj, hw⟩ := List.getElem?_eq_some_iff.mp hw
  rcases Nat.eq_or_lt_of_le hij with rfl | hlt
  · rw [← hv, ← hw]
  · rw [← hv, ← hw]
    exact List.pairwise_iff_getElem.mp (List.pairwise_insertionSort (· ≤ ·) samples) i j hi hj hlt

/-- So many samples at least are not above it. -/
theorem countP_le_of_orderStat (h : orderStat samples i = some v) :
    i + 1 ≤ samples.countP fun x => decide (x ≤ v) := by
  obtain ⟨hi, hv⟩ := List.getElem?_eq_some_iff.mp h
  have hperm := List.perm_insertionSort (· ≤ ·) samples
  rw [← hperm.countP_eq]
  -- the samples up to the index are sorted before it
  have hall : ((samples.insertionSort (· ≤ ·)).take (i + 1)).countP (fun x => decide (x ≤ v)) =
      i + 1 := by
    rw [List.countP_eq_length.mpr, List.length_take, Nat.min_eq_left hi]
    intro x hx
    obtain ⟨j, hj, rfl⟩ := List.getElem_of_mem hx
    rw [List.length_take] at hj
    rw [List.getElem_take, decide_eq_true_eq]
    exact orderStat_le (List.getElem?_eq_getElem (by omega)) h (by omega)
  calc i + 1 = ((samples.insertionSort (· ≤ ·)).take (i + 1)).countP (fun x => decide (x ≤ v)) :=
        hall.symm
    _ ≤ (samples.insertionSort (· ≤ ·)).countP (fun x => decide (x ≤ v)) :=
        (List.take_sublist _ _).countP_le

/-- No more samples than are left are above it. -/
theorem countP_lt_of_orderStat (h : orderStat samples i = some v) :
    samples.countP (fun x => decide (v < x)) + (i + 1) ≤ samples.length := by
  have hbelow := countP_le_of_orderStat h
  have hsplit := List.length_eq_countP_add_countP (fun x => decide (x ≤ v)) (l := samples)
  have hneg : samples.countP (fun x => !decide (x ≤ v)) = samples.countP fun x => decide (v < x) := by
    apply List.countP_congr
    intro x _
    simp
  simp only [decide_not, Bool.not_eq_true, decide_eq_false_iff_not] at hsplit
  omega

end AlphaMonitor.Lib
