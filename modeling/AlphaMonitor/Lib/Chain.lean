import Mathlib.Logic.Relation

/-!
# Chains of labelled moves

One call of a handler is often several small moves one after another.  A chain
is such a sequence, where a predicate says which labels are allowed in which
state.  The rules below carry an invariant through a chain and map a chain
along a function on states.

Nothing here mentions the monitor.
-/

namespace AlphaMonitor.Lib

variable {σ τ α : Type*}

/-- Finitely many moves, each with a label that is allowed where it is made. -/
def Chain (move : σ → α → σ → Prop) (allow : σ → α → Prop) : σ → σ → Prop :=
  Relation.ReflTransGen fun s t => ∃ a, allow s a ∧ move s a t

namespace Chain

variable {move : σ → α → σ → Prop} {allow allow' : σ → α → Prop} {r s t : σ}

theorem refl (s : σ) : Chain move allow s s := Relation.ReflTransGen.refl

theorem single {a : α} (ha : allow s a) (h : move s a t) : Chain move allow s t :=
  Relation.ReflTransGen.single ⟨a, ha, h⟩

theorem trans (h : Chain move allow r s) (h' : Chain move allow s t) : Chain move allow r t :=
  Relation.ReflTransGen.trans h h'

/-- A chain stays one when more labels are allowed. -/
theorem mono (hallow : ∀ s a, allow s a → allow' s a) (h : Chain move allow s t) :
    Chain move allow' s t := by
  induction h with
  | refl => exact refl s
  | tail _ hlast ih =>
    obtain ⟨a, ha, hmove⟩ := hlast
    exact ih.trans (single (hallow _ a ha) hmove)

/-- What every allowed move keeps, a chain keeps. -/
theorem inv (Inv : σ → Prop) (hstep : ∀ s a t, Inv s → allow s a → move s a t → Inv t)
    (h : Chain move allow s t) (hs : Inv s) : Inv t := by
  induction h with
  | refl => exact hs
  | tail _ hlast ih =>
    obtain ⟨a, ha, hmove⟩ := hlast
    exact hstep _ a _ ih ha hmove

/-- A chain is mapped along functions on states and labels that map every allowed
move to one. -/
theorem map {β : Type*} {move' : τ → β → τ → Prop} {allow' : τ → β → Prop} (f : σ → τ) (g : α → β)
    (hstep : ∀ s a t, allow s a → move s a t →
      allow' (f s) (g a) ∧ move' (f s) (g a) (f t))
    (h : Chain move allow s t) : Chain move' allow' (f s) (f t) := by
  induction h with
  | refl => exact refl (f s)
  | tail _ hlast ih =>
    obtain ⟨a, ha, hmove⟩ := hlast
    obtain ⟨ha', hmove'⟩ := hstep _ a _ ha hmove
    exact ih.trans (single ha' hmove')

end Chain

end AlphaMonitor.Lib
