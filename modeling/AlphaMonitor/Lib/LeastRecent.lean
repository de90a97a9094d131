import Mathlib.Data.Finset.Card
import Mathlib.Data.Finset.Dedup
import Mathlib.Data.List.Sort

/-!
# The least recent first

Clients carry the time at which they were last served, and a round serves some of them.  A client
that a round leaves out is outrun by others, none of which was served after it.  Each such round
takes those that it serves out of the set that can still outrun the client.

Nothing here mentions the monitor.

## Main results

- `le_of_mem_least`: the least elements are no greater than one that is left out
- `card_ahead_serve`: what a round takes
-/

namespace AlphaMonitor.Lib

/-! ## The least elements -/

section
variable {β : Type*} [LinearOrder β]

/-- The least elements, in their order. -/
def least (n : ℕ) (l : List β) : List β := (l.insertionSort (· ≤ ·)).take n

variable {n : ℕ} {l : List β}

theorem length_least : (least n l).length = min n l.length := by
  unfold least
  rw [List.length_take, List.length_insertionSort]

theorem mem_of_mem_least {a : β} (h : a ∈ least n l) : a ∈ l :=
  (List.mem_insertionSort (· ≤ ·)).mp (List.mem_of_mem_take h)

theorem nodup_least (h : l.Nodup) : (least n l).Nodup :=
  ((List.perm_insertionSort (· ≤ ·) l).nodup_iff.mpr h).sublist (List.take_sublist n _)

theorem le_of_mem_least {a b : β} (ha : a ∈ least n l) (hb : b ∈ l) (hout : b ∉ least n l) :
    a ≤ b := by
  have hsorted := List.pairwise_insertionSort (· ≤ ·) l
  rw [← List.take_append_drop n (l.insertionSort (· ≤ ·)), List.pairwise_append] at hsorted
  have hdrop : b ∈ (l.insertionSort (· ≤ ·)).drop n := by
    rw [← List.mem_insertionSort (· ≤ ·), ← List.take_append_drop n (l.insertionSort (· ≤ ·)),
      List.mem_append] at hb
    exact hb.resolve_left hout
  exact hsorted.2.2 a ha b hdrop

end

/-! ## Rounds -/

section
variable {α τ : Type*} [LinearOrder τ]

/-- Those that were last served no later than one of them. -/
def ahead (stamp : α → τ) (clients : Finset α) (x : α) : Finset α :=
  clients.filter fun a => stamp a ≤ stamp x

/-- A round leaves one out, and serves only clients that are ahead of it. -/
structure Outrun (stamp : α → τ) (clients : Finset α) (now : τ) (served : List α) (x : α) :
    Prop where
  nodup : served.Nodup
  out : x ∉ served
  later : stamp x < now
  ahead : ∀ a ∈ served, a ∈ ahead stamp clients x

variable {stamp : α → τ} {clients : Finset α} {now : τ} {served : List α} {x : α}

theorem mem_ahead_self (h : x ∈ clients) : x ∈ ahead stamp clients x :=
  Finset.mem_filter.mpr ⟨h, le_refl _⟩

variable [DecidableEq α]

/-- Those that are served are stamped with the time. -/
def serve (stamp : α → τ) (now : τ) (served : List α) : α → τ :=
  fun a => if a ∈ served then now else stamp a

/-- Whoever is served falls behind the one that is left out. -/
theorem ahead_serve (h : Outrun stamp clients now served x) :
    ahead (serve stamp now served) clients x = ahead stamp clients x \ served.toFinset := by
  ext a
  unfold ahead serve
  rw [if_neg h.out, Finset.mem_sdiff, Finset.mem_filter, Finset.mem_filter, List.mem_toFinset]
  by_cases ha : a ∈ served
  · rw [if_pos ha]
    exact iff_of_false (fun hle => absurd hle.2 (not_le.mpr h.later)) fun hnot => hnot.2 ha
  · rw [if_neg ha]
    exact (and_iff_left ha).symm

/-- A round takes those that it serves out of the set that is ahead. -/
theorem card_ahead_serve (h : Outrun stamp clients now served x) :
    (ahead (serve stamp now served) clients x).card + served.length =
      (ahead stamp clients x).card := by
  have hsubset : served.toFinset ⊆ ahead stamp clients x := by
    intro a ha
    exact h.ahead a (List.mem_toFinset.mp ha)
  rw [ahead_serve h, ← List.toFinset_card_of_nodup h.nodup]
  exact Finset.card_sdiff_add_card_eq_card hsubset

end

end AlphaMonitor.Lib
