import AlphaMonitor.Lib.LastWrite

/-!
# Groups and the pointers to them

Members are enrolled in groups, each group under its key, and a pointer names the group that
stands for an address.  A member is enrolled once and stays; a pointer is overwritten.  So a
group holds all that was ever enrolled in it, and a pointer names the group of its last
assignment.
-/

namespace AlphaMonitor.Lib

variable {κ α β : Type*} [DecidableEq κ] [DecidableEq α]

/-! ## Members -/

/-- Append a member that is not there yet. -/
def addMember (xs : List α) (x : α) : List α := if x ∈ xs then xs else xs ++ [x]

@[simp] theorem mem_addMember {xs : List α} {x y : α} : y ∈ addMember xs x ↔ y ∈ xs ∨ y = x := by
  unfold addMember
  split
  · rename_i hmem
    constructor
    · exact Or.inl
    · rintro (hy | rfl)
      · exact hy
      · exact hmem
  · simp

/-- Append the members that are not there yet. -/
def addMembers (xs ys : List α) : List α := ys.foldl addMember xs

@[simp] theorem mem_addMembers {xs ys : List α} {y : α} :
    y ∈ addMembers xs ys ↔ y ∈ xs ∨ y ∈ ys := by
  induction ys generalizing xs with
  | nil => simp [addMembers]
  | cons x ys ih =>
    have hstep : addMembers xs (x :: ys) = addMembers (addMember xs x) ys := rfl
    rw [hstep, ih, mem_addMember, List.mem_cons, or_assoc]

/-! ## Groups -/

/-- Enrol members in the group of a key. -/
def enroll (groups : κ → List α) (k : κ) (xs : List α) : κ → List α :=
  Function.update groups k (addMembers (groups k) xs)

theorem mem_enroll {groups : κ → List α} {k k' : κ} {xs : List α} {y : α} :
    y ∈ enroll groups k xs k' ↔ y ∈ groups k' ∨ (k = k' ∧ y ∈ xs) := by
  unfold enroll
  by_cases hk : k = k'
  · subst hk
    simp
  · rw [Function.update_of_ne (Ne.symm hk)]
    simp [hk]

/-! ## Pointers -/

/-- Assign pointers one after another. -/
def assign (pointers : κ → Option β) (writes : List (κ × β)) : κ → Option β :=
  writes.foldl (fun acc w => Function.update acc w.1 (some w.2)) pointers

/-- A pointer is the one that was assigned last. -/
theorem assign_apply (pointers : κ → Option β) (writes : List (κ × β)) (k : κ) :
    assign pointers writes k =
      ((lastRow Prod.fst k writes).map Prod.snd).or (pointers k) := by
  induction writes generalizing pointers with
  | nil => rfl
  | cons w writes ih =>
    have hstep : assign pointers (w :: writes) =
        assign (Function.update pointers w.1 (some w.2)) writes := rfl
    rw [hstep, ih, lastRow_cons]
    cases lastRow Prod.fst k writes with
    -- A later assignment overwrites this one; else this one is the last.
    | some row => rfl
    | none =>
      by_cases hk : w.1 = k
      · subst hk
        simp
      · simp [hk, Function.update_of_ne (Ne.symm hk)]

end AlphaMonitor.Lib
