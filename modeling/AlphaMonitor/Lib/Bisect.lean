import Mathlib.Data.List.Basic
import Mathlib.Data.List.Pairwise

/-!
# Binary search in a list

A list in which a predicate holds up to some index and fails from there on is searched for
that index.  What comes before the index is what the predicate selects.

Nothing here mentions the monitor.
-/

namespace AlphaMonitor.Lib

variable {α : Type*} {p q : α → Bool}

/-- The loop of the search: the index lies between `lo` and `hi`. -/
def bisectLoop (p : α → Bool) (xs : List α) : ℕ → ℕ → ℕ → ℕ
  | 0, lo, _ => lo
  | fuel + 1, lo, hi =>
    if lo < hi then
      let mid := (lo + hi) / 2
      if (xs[mid]?.map p).getD false then bisectLoop p xs fuel (mid + 1) hi
      else bisectLoop p xs fuel lo mid
    else lo

/-- The first index at which the predicate fails. -/
def bisect (p : α → Bool) (xs : List α) : ℕ := bisectLoop p xs xs.length 0 xs.length

theorem bisectLoop_append {ys zs : List α} (hys : ∀ y ∈ ys, p y = true)
    (hzs : ∀ z ∈ zs, p z = false) {fuel lo hi : ℕ} (hlo : lo ≤ ys.length) (hhi : ys.length ≤ hi)
    (hle : hi ≤ (ys ++ zs).length) (hfuel : hi - lo ≤ fuel) :
    bisectLoop p (ys ++ zs) fuel lo hi = ys.length := by
  induction fuel generalizing lo hi with
  | zero =>
    unfold bisectLoop
    omega
  | succ fuel ih =>
    unfold bisectLoop
    split
    · rename_i hlt
      have hmid : (lo + hi) / 2 < (ys ++ zs).length := by omega
      simp only [List.getElem?_eq_getElem hmid, Option.map_some, Option.getD_some]
      by_cases hbefore : (lo + hi) / 2 < ys.length
      · have hp : p ((ys ++ zs)[(lo + hi) / 2]) = true := by
          rw [List.getElem_append_left hbefore]
          exact hys _ (List.getElem_mem hbefore)
        rw [if_pos hp]
        exact ih (by omega) hhi hle (by omega)
      · have hp : p ((ys ++ zs)[(lo + hi) / 2]) = false := by
          rw [List.getElem_append_right (Nat.not_lt.mp hbefore)]
          exact hzs _ (List.getElem_mem _)
        rw [hp, if_neg Bool.false_ne_true]
        exact ih hlo (Nat.not_lt.mp hbefore) (by omega) (by omega)
    · omega

theorem bisect_append {ys zs : List α} (hys : ∀ y ∈ ys, p y = true)
    (hzs : ∀ z ∈ zs, p z = false) : bisect p (ys ++ zs) = ys.length :=
  bisectLoop_append hys hzs (Nat.zero_le _) (by simp) (Nat.le_refl _) (Nat.sub_le _ _)

/-- A predicate that does not come back splits the list in two. -/
theorem filter_append_filter_not {xs : List α}
    (h : xs.Pairwise fun a b => p b = true → p a = true) :
    xs.filter p ++ xs.filter (fun x => !p x) = xs := by
  induction xs with
  | nil => rfl
  | cons x xs ih =>
    obtain ⟨hx, hxs⟩ := List.pairwise_cons.mp h
    cases hp : p x with
    | true => simp [hp, ih hxs]
    | false =>
      have hnone : xs.filter p = [] := by
        rw [List.filter_eq_nil_iff]
        intro y hy hpy
        rw [hx y hy hpy] at hp
        cases hp
      have hall : xs.filter (fun x => !p x) = xs := by
        simpa [hnone] using ih hxs
      simp [hp, hnone, hall]

theorem bisect_eq_length_filter {xs : List α}
    (h : xs.Pairwise fun a b => p b = true → p a = true) :
    bisect p xs = (xs.filter p).length := by
  conv_lhs => rw [← filter_append_filter_not h]
  apply bisect_append
  · exact fun y hy => (List.mem_filter.mp hy).2
  · intro z hz
    simpa using (List.mem_filter.mp hz).2

/-- What comes before the index. -/
theorem take_bisect {xs : List α} (h : xs.Pairwise fun a b => p b = true → p a = true) :
    xs.take (bisect p xs) = xs.filter p := by
  rw [bisect_eq_length_filter h]
  conv_lhs => rw [← filter_append_filter_not h, List.filter_append]
  simp

/-- What comes from the index on. -/
theorem drop_bisect {xs : List α} (h : xs.Pairwise fun a b => p b = true → p a = true) :
    xs.drop (bisect p xs) = xs.filter fun x => !p x := by
  rw [bisect_eq_length_filter h]
  conv_lhs => rw [← filter_append_filter_not h, List.filter_append]
  simp

/-- What lies between two indices, if the first predicate selects less than the second. -/
theorem drop_take_bisect {xs : List α} (hp : xs.Pairwise fun a b => p b = true → p a = true)
    (hq : xs.Pairwise fun a b => q b = true → q a = true)
    (hpq : ∀ x ∈ xs, p x = true → q x = true) :
    (xs.take (bisect q xs)).drop (bisect p xs) = xs.filter fun x => q x && !p x := by
  have hsub : (xs.filter q).Pairwise fun a b => p b = true → p a = true := hp.filter _
  have hsame : xs.filter p = (xs.filter q).filter p := by
    rw [List.filter_filter]
    apply List.filter_congr
    intro x hx
    cases hpx : p x with
    | true => simp [hpq x hx hpx]
    | false => simp
  rw [take_bisect hq, bisect_eq_length_filter hp, hsame, ← bisect_eq_length_filter hsub,
    drop_bisect hsub, List.filter_filter]
  apply List.filter_congr
  intro x _
  exact Bool.and_comm _ _

end AlphaMonitor.Lib
