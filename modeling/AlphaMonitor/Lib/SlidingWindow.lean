import Mathlib.Algebra.BigOperators.Group.List.Basic
import Mathlib.Data.List.Pairwise
import Mathlib.Order.Lattice

/-!
# Sliding windows

A window keeps the newest entries of a log.  A new entry goes to its end, and what is older
than a cutoff is taken from its front.  As long as the entries come in the order of their times,
the window holds the entries of the log from the cutoff on.  A later reader, who has not trimmed
the window, also finds entries in it that have grown too old since.

Nothing here mentions the monitor.

## Main results

- `Slides.push`: a new entry
- `Slides.sum_map`: what a later reader finds
-/

namespace AlphaMonitor.Lib

variable {α K : Type*} [LinearOrder K] (ts : α → K)

/-- The entries from a time on. -/
def since (cutoff : K) (log : List α) : List α := log.filter fun entry => decide (cutoff ≤ ts entry)

/-- The entries before a time. -/
def before (cutoff : K) (log : List α) : List α := log.filter fun entry => decide (ts entry < cutoff)

/-- The entries of the log come in the order of their times, and the window holds those from the
cutoff on. -/
structure Slides (cutoff : K) (log window : List α) : Prop where
  sorted : log.Pairwise fun a b => ts a ≤ ts b
  holds : window = since ts cutoff log

variable {ts}

theorem slides_nil (cutoff : K) : Slides ts cutoff [] [] := ⟨List.Pairwise.nil, rfl⟩

/-- In the order of their times the entries before the cutoff are in front. -/
theorem dropWhile_eq_since {log : List α} (hsorted : log.Pairwise fun a b => ts a ≤ ts b)
    (cutoff : K) : log.dropWhile (fun entry => decide (ts entry < cutoff)) = since ts cutoff log := by
  induction log with
  | nil => rfl
  | cons entry rest ih =>
    rw [List.pairwise_cons] at hsorted
    by_cases hold : ts entry < cutoff
    · have hskip : since ts cutoff (entry :: rest) = since ts cutoff rest :=
        List.filter_cons_of_neg (by simpa using hold)
      rw [hskip, ← ih hsorted.2]
      exact List.dropWhile_cons_of_pos (decide_eq_true hold)
    · have hall : ∀ other ∈ entry :: rest, cutoff ≤ ts other := by
        intro other hmem
        rcases List.mem_cons.mp hmem with rfl | hrest
        · exact not_lt.mp hold
        · exact (not_lt.mp hold).trans (hsorted.1 other hrest)
      have hkept : since ts cutoff (entry :: rest) = entry :: rest :=
        List.filter_eq_self.mpr fun other hmem => decide_eq_true (hall other hmem)
      rw [hkept]
      exact List.dropWhile_cons_of_neg (by simpa using hold)

theorem since_since {cutoff later : K} (h : cutoff ≤ later) (log : List α) :
    since ts later (since ts cutoff log) = since ts later log := by
  unfold since
  rw [List.filter_filter]
  apply List.filter_congr
  intro entry _
  rw [Bool.and_eq_left_iff_imp]
  exact fun hlater => decide_eq_true (h.trans (of_decide_eq_true hlater))

theorem since_append (cutoff : K) (log more : List α) :
    since ts cutoff (log ++ more) = since ts cutoff log ++ since ts cutoff more :=
  List.filter_append ..

/-- What is summed over newer and older entries is summed over all. -/
theorem sum_since_add_sum_before {M : Type*} [AddCommMonoid M] (cutoff : K) (log : List α)
    (value : α → M) :
    ((since ts cutoff log).map value).sum + ((before ts cutoff log).map value).sum =
      (log.map value).sum := by
  induction log with
  | nil => exact add_zero 0
  | cons entry rest ih =>
    rw [List.map_cons, List.sum_cons, ← ih]
    unfold since before
    by_cases hold : ts entry < cutoff
    · simp only [List.filter_cons, hold, not_le.mpr hold, decide_true, decide_false, if_true,
        Bool.false_eq_true, if_false, List.map_cons, List.sum_cons]
      exact add_left_comm _ _ _
    · simp only [List.filter_cons, hold, not_lt.mp hold, decide_true, decide_false, if_true,
        Bool.false_eq_true, if_false, List.map_cons, List.sum_cons]
      exact add_assoc _ _ _

namespace Slides

variable {cutoff : K} {log window : List α}

/-- A later reader who looks at the newer entries only finds those of the log. -/
theorem since_eq (h : Slides ts cutoff log window) {later : K} (hlater : cutoff ≤ later) :
    since ts later window = since ts later log := by
  rw [h.holds, since_since hlater]

/-- A new entry is put at the end, and the cutoff moves on. -/
theorem push (h : Slides ts cutoff log window) {later : K} (hlater : cutoff ≤ later) {entry : α}
    (hlast : ∀ other ∈ log, ts other ≤ ts entry) :
    Slides ts later (log ++ [entry])
      ((window ++ [entry]).dropWhile fun other => decide (ts other < later)) := by
  have hsorted : (log ++ [entry]).Pairwise fun a b => ts a ≤ ts b := by
    rw [List.pairwise_append]
    refine ⟨h.sorted, List.pairwise_singleton _ _, fun a ha b hb => ?_⟩
    rw [List.mem_singleton.mp hb]
    exact hlast a ha
  have hwindow : (window ++ [entry]).Sublist (log ++ [entry]) := by
    rw [h.holds]
    exact List.filter_sublist.append (List.Sublist.refl _)
  refine ⟨hsorted, ?_⟩
  rw [dropWhile_eq_since (hsorted.sublist hwindow), since_append, since_append, h.since_eq hlater]

/-- The cutoff moves on without a new entry. -/
theorem trim (h : Slides ts cutoff log window) {later : K} (hlater : cutoff ≤ later) :
    Slides ts later log (window.dropWhile fun other => decide (ts other < later)) := by
  have hwindow : window.Sublist log := by
    rw [h.holds]
    exact List.filter_sublist
  refine ⟨h.sorted, ?_⟩
  rw [dropWhile_eq_since (h.sorted.sublist hwindow), h.since_eq hlater]

/-- What a later reader finds: the newer entries, and what has grown too old since. -/
theorem sum_map {M : Type*} [AddCommMonoid M] (h : Slides ts cutoff log window) {later : K}
    (hlater : cutoff ≤ later) (value : α → M) :
    (window.map value).sum =
      ((since ts later log).map value).sum + ((before ts later window).map value).sum := by
  rw [← h.since_eq hlater, sum_since_add_sum_before]

end Slides

end AlphaMonitor.Lib
