import Mathlib.Data.List.Basic
import Mathlib.Data.List.Perm.Basic
import Mathlib.Order.Lattice

/-!
# Items by time

A map from times to lists of items, kept as a list by increasing time.  An item is pushed to
the end of its time's list.

Nothing here mentions the monitor.
-/

namespace AlphaMonitor.Lib

variable {τ α : Type*} [LinearOrder τ]

/-- `entry(time).or_default().push(item)`. -/
def pushAt (time : τ) (item : α) : List (τ × List α) → List (τ × List α)
  | [] => [(time, [item])]
  | (t, items) :: rest =>
    if time < t then (time, [item]) :: (t, items) :: rest
    else if time = t then (t, items ++ [item]) :: rest
    else (t, items) :: pushAt time item rest

omit [LinearOrder τ] in
/-- All items, by time. -/
def itemsOf (index : List (τ × List α)) : List α := index.flatMap (·.2)

/-- Times come in order, and every item stands under its own time. -/
structure InTimeOrder (timeOf : α → τ) (index : List (τ × List α)) : Prop where
  sorted : index.Pairwise fun e e' => e.1 < e'.1
  filed : ∀ entry ∈ index, ∀ item ∈ entry.2, timeOf item = entry.1

variable {timeOf : α → τ} {index : List (τ × List α)} {time : τ} {item : α}

theorem InTimeOrder.nil : InTimeOrder timeOf ([] : List (τ × List α)) :=
  ⟨List.Pairwise.nil, List.forall_mem_nil _⟩

theorem InTimeOrder.of_cons {entry : τ × List α} (h : InTimeOrder timeOf (entry :: index)) :
    InTimeOrder timeOf index :=
  ⟨h.sorted.of_cons, fun e he => h.filed e (List.mem_cons_of_mem _ he)⟩

/-- The items of the first time may be replaced by some of them. -/
theorem InTimeOrder.keep {items items' : List α} (h : InTimeOrder timeOf ((time, items) :: index))
    (hsub : ∀ x ∈ items', x ∈ items) : InTimeOrder timeOf ((time, items') :: index) := by
  refine ⟨List.pairwise_cons.mpr ⟨(List.pairwise_cons.mp h.sorted).1, h.of_cons.sorted⟩, ?_⟩
  intro entry hentry x hx
  rcases List.mem_cons.mp hentry with rfl | hentry
  · exact h.filed (time, items) List.mem_cons_self x (hsub x hx)
  · exact h.of_cons.filed entry hentry x hx

/-- An item is pushed, and all others stay. -/
theorem itemsOf_pushAt (time : τ) (item : α) (index : List (τ × List α)) :
    (itemsOf (pushAt time item index)).Perm (item :: itemsOf index) := by
  induction index with
  | nil => exact List.Perm.refl _
  | cons entry rest ih =>
    obtain ⟨t, items⟩ := entry
    unfold pushAt
    split
    · exact List.Perm.refl _
    · split
      · show ((items ++ [item]) ++ itemsOf rest).Perm (item :: (items ++ itemsOf rest))
        rw [List.append_assoc]
        exact List.perm_middle
      · show (items ++ itemsOf (pushAt time item rest)).Perm (item :: (items ++ itemsOf rest))
        exact (ih.append_left items).trans List.perm_middle

theorem mem_itemsOf_pushAt {x : α} :
    x ∈ itemsOf (pushAt time item index) ↔ x = item ∨ x ∈ itemsOf index := by
  rw [(itemsOf_pushAt time item index).mem_iff, List.mem_cons]

/-- The times of the index and the new one. -/
theorem fst_of_mem_pushAt {entry : τ × List α} (h : entry ∈ pushAt time item index) :
    entry.1 = time ∨ ∃ e ∈ index, entry.1 = e.1 := by
  induction index with
  | nil =>
    rw [List.mem_singleton.mp h]
    exact Or.inl rfl
  | cons first rest ih =>
    obtain ⟨t, items⟩ := first
    unfold pushAt at h
    split at h
    · rcases List.mem_cons.mp h with rfl | h
      · exact Or.inl rfl
      · exact Or.inr ⟨entry, h, rfl⟩
    · split at h
      · rcases List.mem_cons.mp h with rfl | h
        · exact Or.inr ⟨(t, items), List.mem_cons_self, rfl⟩
        · exact Or.inr ⟨entry, List.mem_cons_of_mem _ h, rfl⟩
      · rcases List.mem_cons.mp h with rfl | h
        · exact Or.inr ⟨(t, items), List.mem_cons_self, rfl⟩
        · refine (ih h).imp_right ?_
          rintro ⟨e, he, heq⟩
          exact ⟨e, List.mem_cons_of_mem _ he, heq⟩

theorem InTimeOrder.pushAt (h : InTimeOrder timeOf index) (item : α) :
    InTimeOrder timeOf (pushAt (timeOf item) item index) := by
  induction index with
  | nil =>
    refine ⟨List.pairwise_singleton _ _, fun entry hentry x hx => ?_⟩
    rw [List.mem_singleton.mp hentry] at hx ⊢
    rw [List.mem_singleton.mp hx]
  | cons entry rest ih =>
    obtain ⟨t, items⟩ := entry
    obtain ⟨hlater, hrest⟩ := List.pairwise_cons.mp h.sorted
    unfold AlphaMonitor.Lib.pushAt
    split
    · rename_i hlt
      constructor
      · refine List.pairwise_cons.mpr ⟨fun e he => ?_, h.sorted⟩
        rcases List.mem_cons.mp he with rfl | he
        · exact hlt
        · exact lt_trans hlt (hlater e he)
      · intro e he x hx
        rcases List.mem_cons.mp he with rfl | he
        · rw [List.mem_singleton.mp hx]
        · exact h.filed e he x hx
    · split
      · rename_i heq
        refine ⟨List.pairwise_cons.mpr ⟨hlater, hrest⟩, fun e he x hx => ?_⟩
        rcases List.mem_cons.mp he with rfl | he
        · rcases List.mem_append.mp hx with hx | hx
          · exact h.filed (t, items) List.mem_cons_self x hx
          · rw [List.mem_singleton.mp hx]
            exact heq
        · exact h.filed e (List.mem_cons_of_mem _ he) x hx
      · rename_i hge hne
        have hpushed := ih h.of_cons
        constructor
        · refine List.pairwise_cons.mpr ⟨fun e he => ?_, hpushed.sorted⟩
          rcases fst_of_mem_pushAt he with heq | ⟨e', he', heq⟩
          · rw [heq]
            exact lt_of_le_of_ne (not_lt.mp hge) (Ne.symm hne)
          · rw [heq]
            exact hlater e' he'
        · intro e he x hx
          rcases List.mem_cons.mp he with rfl | he
          · exact h.filed (t, items) List.mem_cons_self x hx
          · exact hpushed.filed e he x hx

end AlphaMonitor.Lib
