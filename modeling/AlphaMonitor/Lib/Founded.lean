import Mathlib.Data.List.Infix

/-!
# Lists in which everything comes after what it needs

An item may need another one to be there before it.  A list is founded when every item
has what it needs among those in front of it.  Such lists are built up one item at a
time, and a beginning of one is founded too.

Nothing here mentions the monitor.
-/

namespace AlphaMonitor.Lib

variable {α : Type*} {needs : α → Option α}

/-- Every item comes after the one that it needs. -/
def Founded (needs : α → Option α) (items : List α) : Prop :=
  ∀ pre item post, items = pre ++ item :: post → ∀ need ∈ needs item, need ∈ pre

namespace Founded

theorem nil : Founded needs [] := by
  intro pre item post hsplit
  exact absurd hsplit.symm (List.append_ne_nil_of_right_ne_nil pre (List.cons_ne_nil item post))

theorem of_prefix {xs ys : List α} (h : Founded needs ys) (hpre : xs <+: ys) :
    Founded needs xs := by
  obtain ⟨rest, rfl⟩ := hpre
  intro pre item post hsplit
  refine h pre item (post ++ rest) ?_
  rw [hsplit, List.append_assoc, List.cons_append]

/-- The last item of a list, or one in front of it. -/
theorem concat_iff {xs : List α} {x : α} :
    Founded needs (xs ++ [x]) ↔ Founded needs xs ∧ ∀ need ∈ needs x, need ∈ xs := by
  constructor
  · intro h
    exact ⟨h.of_prefix (List.prefix_append xs [x]), h xs x [] rfl⟩
  · rintro ⟨h, hlast⟩ pre item post hsplit
    rcases List.eq_nil_or_concat post with rfl | ⟨post, last, rfl⟩
    · obtain ⟨rfl, heq⟩ := List.append_inj' hsplit rfl
      cases heq
      exact hlast
    · rw [List.concat_eq_append, ← List.cons_append, ← List.append_assoc] at hsplit
      exact h pre item post (List.append_inj' hsplit rfl).1

end Founded

end AlphaMonitor.Lib
