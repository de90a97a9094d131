import Mathlib.Data.List.Basic
import Mathlib.Data.List.Pairwise
import Mathlib.Order.Lattice

/-!
# Passing in turn

Items of several lanes wait at a gate and pass it one at a time.  As long as an item passes
only when no earlier one of its lane waits, and comes to wait only when no later one has
passed, each lane passes in the order of time.

Nothing here mentions the monitor.
-/

namespace AlphaMonitor.Lib

variable {κ γ τ : Type*} [LinearOrder τ] {lane : κ → γ} {time : κ → τ}

/-- The items of a lane have passed in the order of their times, and those that wait are later. -/
structure InTurn (lane : κ → γ) (time : κ → τ) (waiting passed : List κ) : Prop where
  sorted : passed.Pairwise fun a b => lane a = lane b → time a < time b
  behind : ∀ k ∈ waiting, ∀ o ∈ passed, lane o = lane k → time o < time k

/-- No earlier item of the lane waits. -/
def IsNext (lane : κ → γ) (time : κ → τ) (waiting : List κ) (k : κ) : Prop :=
  ∀ other ∈ waiting, lane other = lane k → time k ≤ time other

instance [DecidableEq γ] (waiting : List κ) (k : κ) : Decidable (IsNext lane time waiting k) :=
  inferInstanceAs (Decidable (∀ other ∈ waiting, lane other = lane k → time k ≤ time other))

variable {waiting waiting' passed : List κ} {k : κ}

theorem InTurn.nil : InTurn lane time [] [] :=
  ⟨List.Pairwise.nil, List.forall_mem_nil _⟩

/-- Items leave without passing, and others come that are later than what has passed. -/
theorem InTurn.wait (h : InTurn lane time waiting passed)
    (hnew : ∀ k ∈ waiting', k ∈ waiting ∨ ∀ o ∈ passed, lane o = lane k → time o < time k) :
    InTurn lane time waiting' passed where
  sorted := h.sorted
  behind k hk := by
    rcases hnew k hk with hold | hlater
    · exact h.behind k hold
    · exact hlater

/-- The next item of a lane passes. -/
theorem InTurn.pass (hinj : ∀ a b, lane a = lane b → time a = time b → a = b)
    (h : InTurn lane time waiting passed) (hk : k ∈ waiting)
    (hnext : IsNext lane time waiting k) (hrest : ∀ o ∈ waiting', o ∈ waiting ∧ o ≠ k) :
    InTurn lane time waiting' (passed ++ [k]) where
  sorted := by
    rw [List.pairwise_append]
    refine ⟨h.sorted, List.pairwise_singleton _ _, ?_⟩
    intro o ho last hlast hlane
    rw [List.mem_singleton.mp hlast] at hlane ⊢
    exact h.behind k hk o ho hlane
  behind other hother o ho hlane := by
    obtain ⟨hwaits, hne⟩ := hrest other hother
    rcases List.mem_append.mp ho with hold | hlast
    · exact h.behind other hwaits o hold hlane
    · rw [List.mem_singleton.mp hlast] at hlane ⊢
      -- the other one waited too, so it is not earlier
      have hle := hnext other hwaits hlane.symm
      exact lt_of_le_of_ne hle fun htime => hne (hinj other k hlane.symm htime.symm)

/-- What has passed does not wait. -/
theorem InTurn.notMem (h : InTurn lane time waiting passed) (hk : k ∈ passed) : k ∉ waiting :=
  fun hwaits => lt_irrefl _ (h.behind k hwaits k hk rfl)

end AlphaMonitor.Lib
