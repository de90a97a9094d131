import Mathlib.Algebra.BigOperators.Group.Finset.Basic
import Mathlib.Algebra.Order.BigOperators.Group.Finset

/-!
# Sums over what is held

Keys hold at most one item each, and only finitely many keys hold one.  A tally
is the sum of a value over the items held.  The rules below say how a tally
changes when one key takes an item or gives it up.

Nothing here mentions the monitor.
-/

namespace AlphaMonitor.Lib

variable {ι α M : Type*}

/-- The set contains every key that holds an item. -/
def Covers (S : Finset ι) (held : ι → Option α) : Prop :=
  ∀ key, held key ≠ none → key ∈ S

/-- The sum of `value` over the items that the keys of `S` hold. -/
def tally [AddCommMonoid M] (S : Finset ι) (value : α → M) (held : ι → Option α) : M :=
  ∑ key ∈ S, (held key).elim 0 value

section Monoid

variable [AddCommMonoid M] {S T : Finset ι} {value : α → M} {held : ι → Option α} {key : ι}
  {item : α}

/-- Keys without an item count for nothing. -/
theorem tally_eq_of_covers (hS : Covers S held) (hsub : S ⊆ T) :
    tally S value held = tally T value held := by
  apply Finset.sum_subset hsub
  intro key _ hkey
  have hnone : held key = none := by
    by_contra hsome
    exact hkey (hS key hsome)
  rw [hnone]
  rfl

theorem tally_none (S : Finset ι) (value : α → M) :
    tally S value (fun _ => none) = 0 :=
  Finset.sum_const_zero

/-- Only what is held on `S` matters. -/
theorem tally_congr {held' : ι → Option α} (h : ∀ key ∈ S, held key = held' key) :
    tally S value held = tally S value held' := by
  apply Finset.sum_congr rfl
  intro key hkey
  rw [h key hkey]

/-- One key and the others. -/
theorem tally_insert [DecidableEq ι] (hkey : key ∉ S) :
    tally (insert key S) value held = (held key).elim 0 value + tally S value held :=
  Finset.sum_insert hkey

/-- A key that held nothing takes an item. -/
theorem tally_take [DecidableEq ι] (hkey : key ∈ S) (hnone : held key = none) :
    tally S value (Function.update held key (some item)) = value item + tally S value held := by
  rw [← Finset.insert_erase hkey, tally_insert (Finset.notMem_erase key S),
    tally_insert (Finset.notMem_erase key S), hnone, Function.update_self]
  have hrest : tally (S.erase key) value (Function.update held key (some item)) =
      tally (S.erase key) value held := by
    apply tally_congr
    intro other hother
    exact Function.update_of_ne (Finset.ne_of_mem_erase hother) _ _
  rw [hrest]
  simp

/-- A key gives its item up. -/
theorem tally_drop [DecidableEq ι] (hkey : key ∈ S) (hitem : held key = some item) :
    value item + tally S value (Function.update held key none) = tally S value held := by
  have hback : tally S value (Function.update (Function.update held key none) key (some item)) =
      value item + tally S value (Function.update held key none) :=
    tally_take hkey (Function.update_self key none held)
  rw [Function.update_idem, ← hitem, Function.update_eq_self] at hback
  exact hback.symm

end Monoid

theorem Covers.update_some [DecidableEq ι] {S : Finset ι} {held : ι → Option α} {key : ι} {item : α}
    (h : Covers S (Function.update held key (some item))) (hnone : held key = none) :
    key ∈ S ∧ Covers S held := by
  constructor
  · apply h key
    rw [Function.update_self]
    simp
  · intro other hother
    apply h other
    have hne : other ≠ key := by
      rintro rfl
      exact hother hnone
    rw [Function.update_of_ne hne]
    exact hother

theorem Covers.update_none [DecidableEq ι] {S : Finset ι} {held : ι → Option α} {key : ι}
    (h : Covers S (Function.update held key none)) : Covers (insert key S) held := by
  intro other hother
  by_cases hkey : other = key
  · exact Finset.mem_insert.mpr (Or.inl hkey)
  · apply Finset.mem_insert_of_mem
    apply h other
    rw [Function.update_of_ne hkey]
    exact hother

end AlphaMonitor.Lib
