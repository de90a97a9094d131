import Mathlib.Data.List.Basic
import Mathlib.Order.Lattice

/-!
# Peaks of timed values

A peak is kept while timed values come in: it is replaced by a value that is larger, and
not by an equal one.  In the end it is the earliest of the largest values.

Nothing here mentions the monitor.
-/

namespace AlphaMonitor.Lib

variable {τ β : Type*} [LinearOrder τ] [LinearOrder β]

/-- A larger value takes the place of the peak. -/
def keepPeak (peak point : τ × β) : τ × β := if peak.2 < point.2 then point else peak

/-- The peak after some more values. -/
def peakOf (first : τ × β) (points : List (τ × β)) : τ × β := points.foldl keepPeak first

/-- A largest value, and the earliest of them. -/
structure IsPeak (points : List (τ × β)) (peak : τ × β) : Prop where
  mem : peak ∈ points
  max : ∀ point ∈ points, point.2 ≤ peak.2
  earliest : ∀ point ∈ points, point.2 = peak.2 → peak.1 ≤ point.1

theorem isPeak_singleton (point : τ × β) : IsPeak [point] point := by
  refine ⟨List.mem_singleton.mpr rfl, ?_, ?_⟩
  · intro other hother
    rw [List.mem_singleton.mp hother]
  · intro other hother _
    rw [List.mem_singleton.mp hother]

/-- One later value. -/
theorem IsPeak.concat {points : List (τ × β)} {peak point : τ × β} (h : IsPeak points peak)
    (hlater : ∀ other ∈ points, other.1 < point.1) :
    IsPeak (points ++ [point]) (keepPeak peak point) := by
  unfold keepPeak
  by_cases hlarger : peak.2 < point.2
  · rw [if_pos hlarger]
    refine ⟨List.mem_append_right _ (List.mem_singleton.mpr rfl), ?_, ?_⟩
    · intro other hother
      rcases List.mem_append.mp hother with hother | hother
      · exact (h.max other hother).trans hlarger.le
      · rw [List.mem_singleton.mp hother]
    · intro other hother hsame
      rcases List.mem_append.mp hother with hother | hother
      · exact absurd (hsame ▸ h.max other hother) (not_le.mpr hlarger)
      · rw [List.mem_singleton.mp hother]
  · rw [if_neg hlarger]
    refine ⟨List.mem_append_left _ h.mem, ?_, ?_⟩
    · intro other hother
      rcases List.mem_append.mp hother with hother | hother
      · exact h.max other hother
      · rw [List.mem_singleton.mp hother]
        exact not_lt.mp hlarger
    · intro other hother hsame
      rcases List.mem_append.mp hother with hother | hother
      · exact h.earliest other hother hsame
      · rw [List.mem_singleton.mp hother]
        exact (hlater peak h.mem).le

/-- The peak kept over values in order of time is the earliest of the largest. -/
theorem peakOf_isPeak {seen points : List (τ × β)} {peak : τ × β} (h : IsPeak seen peak)
    (hsorted : (seen ++ points).Pairwise fun a b => a.1 < b.1) :
    IsPeak (seen ++ points) (peakOf peak points) := by
  induction points generalizing seen peak with
  | nil =>
    rw [List.append_nil]
    exact h
  | cons point rest ih =>
    rw [List.append_cons] at hsorted ⊢
    refine ih (h.concat ?_) hsorted
    intro other hother
    have hearlier := (List.pairwise_append.mp hsorted).1
    exact (List.pairwise_append.mp hearlier).2.2 other hother point (List.mem_singleton.mpr rfl)

end AlphaMonitor.Lib
