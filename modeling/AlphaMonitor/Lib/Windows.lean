import Mathlib.Algebra.BigOperators.Group.List.Basic
import Mathlib.Algebra.Order.Group.Int
import Mathlib.Logic.Function.Basic

/-!
# Tumbling windows with a watermark

Events carry a time and are gathered in the window of their time.  The watermark
is the latest time seen; windows far enough behind it are closed, in order, and
an event for a closed window is late.

`Accounted` relates the windows to what was closed and to what arrived: the closed
windows are consecutive, and nothing that arrived in time is missing or counted twice.

Nothing here mentions the monitor.
-/

namespace AlphaMonitor.Lib

/-! ## Consecutive times -/

/-- `n` consecutive times from `t` on. -/
def consecutive : ℤ → ℕ → List ℤ
  | _, 0 => []
  | t, n + 1 => t :: consecutive (t + 1) n

theorem mem_consecutive {t s : ℤ} {n : ℕ} : s ∈ consecutive t n ↔ t ≤ s ∧ s < t + n := by
  induction n generalizing t with
  | zero =>
    simp only [consecutive, List.not_mem_nil, false_iff]
    omega
  | succ n ih =>
    simp only [consecutive, List.mem_cons, ih]
    omega

theorem consecutive_append (t : ℤ) (m n : ℕ) :
    consecutive t m ++ consecutive (t + m) n = consecutive t (m + n) := by
  induction m generalizing t with
  | zero => simp [consecutive]
  | succ m ih =>
    have hstep : m + 1 + n = (m + n) + 1 := by omega
    have hshift : t + ((m + 1 : ℕ) : ℤ) = t + 1 + m := by omega
    rw [hstep, hshift]
    simp only [consecutive, List.cons_append, ih]

@[simp] theorem length_consecutive (t : ℤ) (n : ℕ) : (consecutive t n).length = n := by
  induction n generalizing t with
  | zero => rfl
  | succ n ih => rw [consecutive, List.length_cons, ih]

theorem pairwise_consecutive (t : ℤ) (n : ℕ) : (consecutive t n).Pairwise (· < ·) := by
  induction n generalizing t with
  | zero => exact List.Pairwise.nil
  | succ n ih =>
    refine List.Pairwise.cons ?_ (ih (t + 1))
    intro s hs
    have hrange := mem_consecutive.mp hs
    omega

/-! ## Totals by time -/

section Totals

variable {M : Type*} [AddCommMonoid M]

/-- The sum of the entries of one time. -/
def totalAt (entries : List (ℤ × M)) (t : ℤ) : M :=
  ((entries.filter fun entry => decide (entry.1 = t)).map Prod.snd).sum

@[simp] theorem totalAt_nil (t : ℤ) : totalAt ([] : List (ℤ × M)) t = 0 := rfl

theorem totalAt_append (xs ys : List (ℤ × M)) (t : ℤ) :
    totalAt (xs ++ ys) t = totalAt xs t + totalAt ys t := by
  simp [totalAt]

theorem totalAt_cons (entry : ℤ × M) (entries : List (ℤ × M)) (t : ℤ) :
    totalAt (entry :: entries) t = (if entry.1 = t then entry.2 else 0) + totalAt entries t := by
  by_cases h : entry.1 = t
  · simp [totalAt, h]
  · simp [totalAt, h]

theorem totalAt_consecutive (f : ℤ → M) (t s : ℤ) (n : ℕ) :
    totalAt ((consecutive t n).map fun u => (u, f u)) s =
      if t ≤ s ∧ s < t + n then f s else 0 := by
  induction n generalizing t with
  | zero =>
    rw [if_neg (by omega)]
    rfl
  | succ n ih =>
    rw [consecutive, List.map_cons, totalAt_cons, ih]
    by_cases h : t = s
    · subst h
      rw [if_pos rfl, if_neg (by omega), if_pos (by omega), add_zero]
    · rw [if_neg h, zero_add]
      by_cases hs : t + 1 ≤ s ∧ s < t + 1 + n
      · rw [if_pos hs, if_pos (by omega)]
      · rw [if_neg hs, if_neg (by omega)]

end Totals

/-! ## Windows -/

/-- The open windows with what they gathered, the watermark, and the last closed window. -/
structure Windows (α : Type*) where
  (watermark closed : ℤ)
  acc : ℤ → Option α

namespace Windows

variable {α M : Type*} [AddCommMonoid M] (μ : α → M) (w : Windows α)

/-- A time is seen. -/
def see (t : ℤ) : Windows α := { w with watermark := max w.watermark t }

/-- A window gets new contents. -/
def put (t : ℤ) (a : α) : Windows α := { w with acc := Function.update w.acc t (some a) }

/-- What a window has gathered so far. -/
def gathered (t : ℤ) : M := ((w.acc t).map μ).getD 0

/-- Close all windows up to the cutoff. -/
def close (cutoff : ℤ) : Windows α :=
  { w with
    closed := cutoff
    acc := fun t => if w.closed < t ∧ t ≤ cutoff then none else w.acc t }

/-- Closing leaves the windows that are closed already as they are. -/
theorem close_acc_of_le {t : ℤ} (ht : t ≤ w.closed) (cutoff : ℤ) :
    (w.close cutoff).acc t = w.acc t := if_neg (fun h => absurd h.1 (not_lt.mpr ht))

/-- What the closed windows had gathered. -/
def closing (cutoff : ℤ) : List (ℤ × M) :=
  (consecutive (w.closed + 1) (cutoff - w.closed).toNat).map fun t => (t, w.gathered μ t)

/-- The windows from `first` on are closed in order, the open ones lie between the last
closed one and the watermark, and closed and open windows together hold what arrived. -/
structure Accounted (first : ℤ) (w : Windows α) (closings : List (ℤ × M)) (arrived : ℤ → M) :
    Prop where
  inOrder : closings.map Prod.fst = consecutive first (w.closed + 1 - first).toNat
  start : first ≤ w.closed + 1
  behind : w.closed ≤ w.watermark
  opened : ∀ t, (w.acc t).isSome = true → w.closed < t ∧ t ≤ w.watermark
  total : ∀ t, totalAt closings t + w.gathered μ t = arrived t

namespace Accounted

variable {μ} {w} {first : ℤ} {closings : List (ℤ × M)} {arrived : ℤ → M}

theorem see (h : w.Accounted μ first closings arrived) (t : ℤ) :
    (w.see t).Accounted μ first closings arrived where
  inOrder := h.inOrder
  start := h.start
  behind := le_trans h.behind (le_max_left _ _)
  opened s hs := ⟨(h.opened s hs).1, le_trans (h.opened s hs).2 (le_max_left _ _)⟩
  total := h.total

/-- An event of a window that is not closed is gathered there. -/
theorem put (h : w.Accounted μ first closings arrived) {t : ℤ} {a : α} {x : M}
    (hopen : w.closed < t) (hseen : t ≤ w.watermark) (ha : μ a = w.gathered μ t + x) :
    (w.put t a).Accounted μ first closings (Function.update arrived t (arrived t + x)) where
  inOrder := h.inOrder
  start := h.start
  behind := h.behind
  opened s hs := by
    by_cases hst : s = t
    · subst hst
      exact ⟨hopen, hseen⟩
    · apply h.opened s
      simpa only [Windows.put, Function.update_of_ne hst] using hs
  total s := by
    by_cases hst : s = t
    · subst hst
      have hgathered : (w.put s a).gathered μ s = w.gathered μ s + x := by
        simp [gathered, Windows.put, ha]
      rw [hgathered, Function.update_self, ← add_assoc, h.total s]
    · have hgathered : (w.put t a).gathered μ s = w.gathered μ s := by
        simp [gathered, Windows.put, hst]
      rw [hgathered, Function.update_of_ne hst, h.total s]

/-- Closing moves what was gathered to what was closed. -/
theorem close (h : w.Accounted μ first closings arrived) {cutoff : ℤ} (hcut : w.closed ≤ cutoff)
    (hseen : cutoff ≤ w.watermark) :
    (w.close cutoff).Accounted μ first (closings ++ w.closing μ cutoff) arrived where
  inOrder := by
    have hstart := h.start
    have hnext : w.closed + 1 = first + ((w.closed + 1 - first).toNat : ℤ) := by omega
    have hlen : (w.close cutoff).closed + 1 - first = cutoff + 1 - first := rfl
    have hsum : (cutoff + 1 - first).toNat =
        (w.closed + 1 - first).toNat + (cutoff - w.closed).toNat := by omega
    have hfst : (w.closing μ cutoff).map Prod.fst =
        consecutive (w.closed + 1) (cutoff - w.closed).toNat := by
      simp [closing, Function.comp_def]
    rw [List.map_append, hfst, h.inOrder, hlen, hsum, ← consecutive_append, ← hnext]
  start := le_trans h.start (by simp only [Windows.close]; omega)
  behind := hseen
  opened t ht := by
    simp only [Windows.close] at ht ⊢
    split at ht
    · cases ht
    · rename_i hout
      have hopen := h.opened t ht
      omega
  total t := by
    rw [totalAt_append, closing, totalAt_consecutive, ← h.total t]
    by_cases hin : w.closed < t ∧ t ≤ cutoff
    · have hrange : w.closed + 1 ≤ t ∧ t < w.closed + 1 + ((cutoff - w.closed).toNat : ℤ) := by
        omega
      have hgone : (w.close cutoff).gathered μ t = 0 := by
        simp [gathered, Windows.close, hin]
      rw [if_pos hrange, hgone, add_zero]
    · have hrange : ¬ (w.closed + 1 ≤ t ∧ t < w.closed + 1 + ((cutoff - w.closed).toNat : ℤ)) := by
        omega
      have hkept : (w.close cutoff).gathered μ t = w.gathered μ t := by
        simp only [gathered, Windows.close, if_neg hin]
      rw [if_neg hrange, hkept, add_zero]

/-- Exactly the windows from the first to the last closed one were closed. -/
theorem mem_closings (h : w.Accounted μ first closings arrived) {t : ℤ} :
    t ∈ closings.map Prod.fst ↔ first ≤ t ∧ t ≤ w.closed := by
  have hstart := h.start
  rw [h.inOrder, mem_consecutive]
  omega

end Accounted

/-- Before the first event. -/
theorem accounted_start (first : ℤ) :
    (Windows.mk first (first - 1) fun _ => none).Accounted μ first [] fun _ => 0 where
  inOrder := by
    have hzero : (first - 1 + 1 - first).toNat = 0 := by omega
    rw [hzero]
    rfl
  start := by simp
  behind := by
    show first - 1 ≤ first
    omega
  opened t ht := by cases ht
  total t := by simp [gathered]

end Windows

end AlphaMonitor.Lib
