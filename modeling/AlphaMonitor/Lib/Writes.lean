import Mathlib.Data.List.Basic
import Mathlib.Logic.Function.Basic

/-!
# Writes to a function

A list of writes sets values of a function.  Written keys forget what they had, the
others keep it.  So two copies agree after the same writes just in case they agreed
on what was not written.

Nothing here mentions the monitor.
-/

namespace AlphaMonitor.Lib

variable {κ β : Type*} [DecidableEq κ] (f : κ → β) (writes : List (κ × β))

/-- Do the writes, from left to right. -/
def writeAll : κ → β := writes.foldl (fun f write => Function.update f write.1 write.2) f

@[simp] theorem writeAll_nil : writeAll f [] = f := rfl

theorem writeAll_cons (write : κ × β) :
    writeAll f (write :: writes) = writeAll (Function.update f write.1 write.2) writes := rfl

theorem writeAll_append (later : List (κ × β)) :
    writeAll f (writes ++ later) = writeAll (writeAll f writes) later := by
  unfold writeAll
  exact List.foldl_append

/-- Keys that are not written keep their values. -/
theorem writeAll_of_notMem {k : κ} (h : k ∉ writes.map Prod.fst) : writeAll f writes k = f k := by
  induction writes generalizing f with
  | nil => rfl
  | cons write rest ih =>
    rw [List.map_cons, List.mem_cons, not_or] at h
    rw [writeAll_cons, ih _ h.2, Function.update_of_ne h.1]

/-- Written keys forget what they had. -/
theorem writeAll_of_mem (g : κ → β) {k : κ} (h : k ∈ writes.map Prod.fst) :
    writeAll f writes k = writeAll g writes k := by
  induction writes generalizing f g with
  | nil => cases h
  | cons write rest ih =>
    rw [writeAll_cons, writeAll_cons]
    by_cases hrest : k ∈ rest.map Prod.fst
    · exact ih _ _ hrest
    · rw [writeAll_of_notMem _ _ hrest, writeAll_of_notMem _ _ hrest]
      rw [List.map_cons, List.mem_cons] at h
      have hkey := h.resolve_right hrest
      subst hkey
      rw [Function.update_self, Function.update_self]

/-- Two copies agree after the same writes just in case they agreed on all other keys. -/
theorem writeAll_eq_iff (g : κ → β) :
    writeAll f writes = writeAll g writes ↔ ∀ k, k ∉ writes.map Prod.fst → f k = g k := by
  constructor
  · intro heq k hk
    rw [← writeAll_of_notMem f writes hk, heq, writeAll_of_notMem g writes hk]
  · intro hagree
    funext k
    by_cases hk : k ∈ writes.map Prod.fst
    · exact writeAll_of_mem f writes g hk
    · rw [writeAll_of_notMem f writes hk, writeAll_of_notMem g writes hk, hagree k hk]

end AlphaMonitor.Lib
