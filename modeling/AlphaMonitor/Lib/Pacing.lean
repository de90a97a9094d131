import Mathlib.Algebra.Order.Field.Basic
import Mathlib.Data.List.Chain
import Mathlib.Tactic.Linarith
import Mathlib.Tactic.Ring

/-!
# Paced times

Times keep a rate if every window of a length holds at most one more of them than the rate gives
in that length.  For times in their order this is the case just in case each comes a full gap
after the one before it.

Nothing here mentions the monitor.

## Main results

- `rated_iff_spaced`: a rate and its gap
- `countIn_le_of_scheduled`: times that may be late for the ones they are scheduled for
-/

set_option linter.unusedSectionVars false

namespace AlphaMonitor.Lib

variable {K : Type*} [Field K] [LinearOrder K] [IsStrictOrderedRing K]

/-- The number of times in the window of a length. -/
def countIn (start length : K) (times : List K) : ℕ :=
  (times.filter fun t => decide (start ≤ t ∧ t ≤ start + length)).length

theorem countIn_map {α : Type*} (time : α → K) (l : List α) (start length : K) :
    countIn start length (l.map time) =
      (l.filter fun a => decide (start ≤ time a ∧ time a ≤ start + length)).length := by
  unfold countIn
  rw [List.filter_map, List.length_map]
  rfl

/-- No window holds more than one and what the rate gives. -/
def Rated (rate : K) (times : List K) : Prop :=
  ∀ start length, 0 ≤ length → (countIn start length times : K) ≤ 1 + rate * length

/-- Each time comes a gap after the one before it. -/
def Spaced (gap : K) (times : List K) : Prop := times.IsChain fun s t => s + gap ≤ t

variable {rate gap : K} {times : List K}

theorem Spaced.pairwise (h : Spaced gap times) (hgap : 0 ≤ gap) :
    times.Pairwise fun s t => s + gap ≤ t := by
  have htrans : IsTrans K fun s t => s + gap ≤ t := by
    constructor
    intro a b c hab hbc
    linarith
  exact List.isChain_iff_pairwise.mp h

/-- Spaced times up to a bound are few. -/
theorem length_le_of_spaced {bound : K} {t : K} {rest : List K}
    (h : (t :: rest).Pairwise fun s t => s + gap ≤ t) (hbound : ∀ s ∈ t :: rest, s ≤ bound) :
    t + rest.length * gap ≤ bound := by
  induction rest generalizing t with
  | nil => simpa using hbound t List.mem_cons_self
  | cons next rest ih =>
    rw [List.pairwise_cons] at h
    have hnext := h.1 next List.mem_cons_self
    have htail := ih h.2 fun s hs => hbound s (List.mem_cons_of_mem t hs)
    push_cast [List.length_cons]
    linarith

theorem countIn_le_of_spaced (h : Spaced gap times) (hgap : 0 < gap) {start length : K}
    (hlength : 0 ≤ length) : (countIn start length times : K) ≤ 1 + length / gap := by
  have hpairs := (h.pairwise hgap.le).sublist
    (List.filter_sublist (p := fun t => decide (start ≤ t ∧ t ≤ start + length)))
  unfold countIn
  cases hfound : times.filter fun t => decide (start ≤ t ∧ t ≤ start + length) with
  | nil =>
    have hnonneg := div_nonneg hlength hgap.le
    simp only [List.length_nil, Nat.cast_zero]
    linarith
  | cons t rest =>
    rw [hfound] at hpairs
    have hmem : ∀ s ∈ t :: rest, start ≤ s ∧ s ≤ start + length := by
      intro s hs
      rw [← hfound, List.mem_filter] at hs
      exact of_decide_eq_true hs.2
    have hfew := length_le_of_spaced hpairs fun s hs => (hmem s hs).2
    have hstart := (hmem t List.mem_cons_self).1
    have hrest : (rest.length : K) ≤ length / gap := by
      rw [le_div_iff₀ hgap]
      linarith
    push_cast [List.length_cons]
    linarith

/-- The times of one kind and those of the others make up all of them. -/
theorem countIn_filter_add {α : Type*} (p : α → Bool) (time : α → K) (l : List α)
    (start length : K) :
    countIn start length ((l.filter p).map time) +
        countIn start length ((l.filter fun a => !p a).map time) =
      countIn start length (l.map time) := by
  have hcount : ∀ r : α → Bool, countIn start length ((l.filter r).map time) =
      ((l.filter fun a => decide (start ≤ time a ∧ time a ≤ start + length)).filter r).length := by
    intro r
    rw [countIn_map, List.filter_filter, List.filter_filter]
    apply congrArg List.length
    apply List.filter_congr
    intro a _
    exact Bool.and_comm _ _
  rw [hcount, hcount, ← List.length_eq_length_filter_add, countIn_map]

/-! ## A rate and its gap -/

theorem countIn_sublist {some all : List K} (h : some.Sublist all) (start length : K) :
    countIn start length some ≤ countIn start length all :=
  (h.filter _).length_le

/-- Two times that are closer than the gap are too many for the window between them. -/
theorem spaced_of_rated (hrate : 0 < rate) (hsorted : times.Pairwise (· ≤ ·))
    (h : Rated rate times) : Spaced (1 / rate) times := by
  unfold Spaced
  induction times with
  | nil => exact List.IsChain.nil
  | cons s rest ih =>
    rw [List.pairwise_cons] at hsorted
    have hrest : Rated rate rest := by
      intro start length hlength
      have hless := countIn_sublist (List.sublist_cons_self s rest) start length
      have hall := h start length hlength
      have hcast : (countIn start length rest : K) ≤ countIn start length (s :: rest) := by
        exact_mod_cast hless
      linarith
    cases rest with
    | nil => exact List.isChain_singleton s
    | cons t rest =>
      rw [List.isChain_cons_cons]
      refine ⟨?_, ih hsorted.2 hrest⟩
      have hle : s ≤ t := hsorted.1 t List.mem_cons_self
      have hboth : 2 ≤ countIn s (t - s) (s :: t :: rest) := by
        have hpair : countIn s (t - s) [s, t] = 2 := by
          simp [countIn, hle]
        rw [← hpair]
        apply countIn_sublist
        simp
      have hwindow := h s (t - s) (sub_nonneg.mpr hle)
      have hcast : (2 : K) ≤ countIn s (t - s) (s :: t :: rest) := by
        exact_mod_cast hboth
      have hgap : 1 ≤ rate * (t - s) := by linarith
      rw [← le_sub_iff_add_le', div_le_iff₀ hrate, mul_comm]
      exact hgap

/-- Times in their order keep a rate just in case they are spaced by its gap. -/
theorem rated_iff_spaced (hrate : 0 < rate) (hsorted : times.Pairwise (· ≤ ·)) :
    Rated rate times ↔ Spaced (1 / rate) times := by
  constructor
  · exact spaced_of_rated hrate hsorted
  · intro hspaced start length hlength
    have hcount : (countIn start length times : K) ≤ 1 + length / (1 / rate) :=
      countIn_le_of_spaced hspaced (one_div_pos.mpr hrate) hlength
    rw [div_div_eq_mul_div, div_one, mul_comm] at hcount
    exact hcount

/-! ## Late times -/

/-- Each time is not before the one it is scheduled for, and the next one is scheduled a gap later,
and not before it. -/
structure Scheduled (gap : K) (times : List (K × K)) : Prop where
  late : ∀ time ∈ times, time.1 ≤ time.2
  spaced : times.IsChain fun s t => s.1 + gap ≤ t.1 ∧ s.2 ≤ t.1

/-- A late time makes room for one more. -/
theorem countIn_le_of_scheduled {times : List (K × K)} (h : Scheduled gap times) (hgap : 0 < gap)
    {start length : K} (hlength : 0 ≤ length) :
    (countIn start length (times.map Prod.snd) : K) ≤ 2 + length / gap := by
  have htrans : IsTrans (K × K) fun s t => s.1 + gap ≤ t.1 ∧ s.2 ≤ t.1 := by
    constructor
    rintro a b c ⟨hab, hlate⟩ ⟨hbc, -⟩
    constructor
    · linarith
    · linarith
  have hpairs := (List.isChain_iff_pairwise.mp h.spaced).sublist (List.filter_sublist
    (p := fun time : K × K => decide (start ≤ time.2 ∧ time.2 ≤ start + length)))
  rw [countIn_map]
  cases hfound : times.filter fun time => decide (start ≤ time.2 ∧ time.2 ≤ start + length) with
  | nil =>
    have hnonneg := div_nonneg hlength hgap.le
    simp only [List.length_nil, Nat.cast_zero]
    linarith
  | cons first rest =>
    rw [hfound, List.pairwise_cons] at hpairs
    have hmem : ∀ time ∈ first :: rest,
        time.1 ≤ time.2 ∧ start ≤ time.2 ∧ time.2 ≤ start + length := by
      intro time htime
      rw [← hfound, List.mem_filter] at htime
      exact ⟨h.late time htime.1, of_decide_eq_true htime.2⟩
    -- All but the first one are scheduled within the window.
    have hspaced : Spaced gap (rest.map Prod.fst) := by
      apply List.Pairwise.isChain
      rw [List.pairwise_map]
      exact hpairs.2.imp fun hst => hst.1
    have hall : countIn start length (rest.map Prod.fst) = rest.length := by
      rw [countIn_map, List.filter_eq_self.mpr]
      intro time htime
      obtain ⟨hlate, -, hend⟩ := hmem time (List.mem_cons_of_mem first htime)
      have hafter := (hpairs.1 time htime).2
      have hstart := (hmem first List.mem_cons_self).2.1
      exact decide_eq_true ⟨hstart.trans hafter, hlate.trans hend⟩
    have hrest : (countIn start length (rest.map Prod.fst) : K) ≤ 1 + length / gap :=
      countIn_le_of_spaced hspaced hgap hlength
    rw [hall] at hrest
    push_cast [List.length_cons]
    linarith

end AlphaMonitor.Lib
