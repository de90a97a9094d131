import Mathlib.Algebra.Order.Field.Basic
import Mathlib.Algebra.Order.Ring.Cast
import Mathlib.Data.List.Basic
import Mathlib.Data.List.Pairwise
import Mathlib.Tactic.Linarith
import Mathlib.Tactic.Ring

/-!
# Token buckets

A bucket is refilled as time passes, up to its burst, and a request takes one token if enough is
left.  What has to be left is chosen by the request: a class of requests that must leave something
behind gives way to one that need not.

The refill is lazy, so the level is only brought up to date when a request comes.  It need not be
exact: levels may be rounded, as long as a refill lies between those of two constant rates.  Times
are ticks of a clock.

Nothing here mentions the monitor.

## Main definitions

- `TokenBucket`, `TokenBucket.ask`: a bucket, and a request to it
- `Pours`: what is known of its refills

## Main results

- `TokenBucket.grants_window`: the grants in a stretch of time
- `TokenBucket.reserve_run`: what requests that leave a reserve leave behind
-/

set_option linter.unusedSectionVars false

namespace AlphaMonitor.Lib

/-- The level at the time of the last refill. -/
@[ext]
structure TokenBucket (K : Type*) where
  level : K
  last : ℤ

variable {K : Type*} [Field K] [LinearOrder K] [IsStrictOrderedRing K]

/-- Levels lie between nothing and the burst, a token can be taken out of them exactly, and what is
poured in after some ticks lies between a lower and an upper rate. -/
structure Pours (Level : K → Prop) (burst low high : K) (pour : K → ℤ → K) : Prop where
  nonneg : ∀ {x}, Level x → 0 ≤ x
  le_burst : ∀ {x}, Level x → x ≤ burst
  take : ∀ {x}, Level x → 1 ≤ x → Level (x - 1)
  closed : ∀ {x} {elapsed : ℤ}, Level x → 0 < elapsed → Level (pour x elapsed)
  grows : ∀ {x} {elapsed : ℤ}, Level x → 0 < elapsed → x ≤ pour x elapsed
  le_high : ∀ {x} {elapsed : ℤ}, Level x → 0 < elapsed → pour x elapsed ≤ x + elapsed * high
  low_le : ∀ {x} {elapsed : ℤ}, Level x → 0 < elapsed → min burst (x + elapsed * low) ≤ pour x elapsed
  low_nonneg : 0 ≤ low
  high_nonneg : 0 ≤ high

namespace TokenBucket

variable (pour : K → ℤ → K)

/-- Bring the level up to date; a time that is not later changes nothing. -/
def refill (b : TokenBucket K) (now : ℤ) : TokenBucket K :=
  if now - b.last ≤ 0 then b else ⟨pour b.level (now - b.last), now⟩

/-- A request at a time, which has to leave `keep` behind. -/
structure Request (K : Type*) where
  time : ℤ
  keep : K

/-- Take a token, if that leaves enough. -/
def ask (b : TokenBucket K) (request : Request K) : TokenBucket K × Bool :=
  let b := b.refill pour request.time
  if request.keep ≤ b.level - 1 then ({ b with level := b.level - 1 }, true) else (b, false)

/-- The bucket after some requests. -/
def run (b : TokenBucket K) (requests : List (Request K)) : TokenBucket K :=
  requests.foldl (fun b request => (b.ask pour request).1) b

/-- The times of the requests that are granted. -/
def grants : TokenBucket K → List (Request K) → List ℤ
  | _, [] => []
  | b, request :: rest =>
    let later := grants (b.ask pour request).1 rest
    if (b.ask pour request).2 then request.time :: later else later

variable {pour} {Level : K → Prop} {burst low high : K} {b : TokenBucket K} {request : Request K}

/-! ## One request -/

/-- The ticks from one time to another. -/
def span (last now : ℤ) : K := ((max last now - last : ℤ) : K)

theorem span_nonneg (last now : ℤ) : (0 : K) ≤ span last now :=
  Int.cast_nonneg (sub_nonneg.mpr (le_max_left _ _))

/-- A span can be split at a time in between. -/
theorem span_split (last now : ℤ) {time : ℤ} (h : time ≤ now) :
    (span last now : K) = span last time + span (max last time) now := by
  unfold span
  rw [max_assoc, max_eq_right h, ← Int.cast_add]
  congr 1
  ring

theorem refill_last (b : TokenBucket K) (now : ℤ) : (b.refill pour now).last = max b.last now := by
  unfold refill
  split
  · rename_i hle
    exact (max_eq_left (sub_nonpos.mp hle)).symm
  · rename_i hlt
    exact (max_eq_right (le_of_lt (sub_pos.mp (not_le.mp hlt)))).symm

theorem refill_level (h : Pours Level burst low high pour) (hb : Level b.level) (now : ℤ) :
    Level (b.refill pour now).level := by
  unfold refill
  split
  · exact hb
  · rename_i hlt
    exact h.closed hb (not_le.mp hlt)

/-- What a refill adds at most. -/
theorem refill_level_le (h : Pours Level burst low high pour) (hb : Level b.level) (now : ℤ) :
    (b.refill pour now).level ≤ b.level + span b.last now * high := by
  unfold refill
  split
  · exact le_add_of_nonneg_right (mul_nonneg (span_nonneg _ _) h.high_nonneg)
  · rename_i hlt
    have hlater : max b.last now = now := max_eq_right (sub_pos.mp (not_le.mp hlt)).le
    have hle := h.le_high hb (not_le.mp hlt)
    unfold span
    rw [hlater]
    exact hle

/-- A refill takes nothing away. -/
theorem le_refill_level (h : Pours Level burst low high pour) (hb : Level b.level) (now : ℤ) :
    b.level ≤ (b.refill pour now).level := by
  unfold refill
  split
  · exact le_refl _
  · rename_i hlt
    exact h.grows hb (not_le.mp hlt)

/-- A level that the bucket can hold is reached in time. -/
theorem min_le_refill_level (h : Pours Level burst low high pour) (hb : Level b.level) {floor : K}
    (hfloor : floor ≤ burst) (now : ℤ) :
    min floor (b.level + span b.last now * low) ≤ (b.refill pour now).level := by
  unfold refill
  split
  · rename_i hle
    have hsame : max b.last now = b.last := max_eq_left (sub_nonpos.mp hle)
    unfold span
    rw [hsame, sub_self, Int.cast_zero, zero_mul, add_zero]
    exact min_le_right _ _
  · rename_i hlt
    have hlater : max b.last now = now := max_eq_right (sub_pos.mp (not_le.mp hlt)).le
    unfold span
    rw [hlater]
    exact (min_le_min_right _ hfloor).trans (h.low_le hb (not_le.mp hlt))

theorem ask_last (b : TokenBucket K) (request : Request K) :
    (b.ask pour request).1.last = max b.last request.time := by
  unfold ask
  simp only
  split
  · exact refill_last b request.time
  · exact refill_last b request.time

/-- A grant takes one token off the level, a refusal none. -/
theorem ask_level (b : TokenBucket K) (request : Request K) :
    (b.ask pour request).1.level = (b.refill pour request.time).level -
      (if (b.ask pour request).2 then 1 else 0) := by
  unfold ask
  simp only
  split
  · rw [if_pos rfl]
  · rw [if_neg (by simp), sub_zero]

theorem ask_granted :
    (b.ask pour request).2 = true ↔ request.keep ≤ (b.refill pour request.time).level - 1 := by
  unfold ask
  simp only
  split
  · rename_i henough
    exact iff_of_true rfl henough
  · rename_i hshort
    exact iff_of_false (by simp) hshort

/-- A request leaves a level behind. -/
theorem level_ask (h : Pours Level burst low high pour) (hb : Level b.level)
    (hkeep : 0 ≤ request.keep) : Level (b.ask pour request).1.level := by
  have hrefill := refill_level h hb request.time
  rw [ask_level]
  by_cases hgranted : (b.ask pour request).2 = true
  · rw [if_pos hgranted]
    exact h.take hrefill (sub_nonneg.mp (hkeep.trans (ask_granted.mp hgranted)))
  · rw [if_neg hgranted, sub_zero]
    exact hrefill

theorem level_run (h : Pours Level burst low high pour) (requests : List (Request K))
    (hkeep : ∀ r ∈ requests, 0 ≤ r.keep) (hb : Level b.level) :
    Level (b.run pour requests).level := by
  induction requests generalizing b with
  | nil => exact hb
  | cons request rest ih =>
    exact ih (fun r hr => hkeep r (List.mem_cons_of_mem _ hr))
      (level_ask h hb (hkeep request List.mem_cons_self))

/-! ## The grants in a stretch of time -/

/-- Later requests come at later times. -/
def InOrder (requests : List (Request K)) : Prop :=
  requests.Pairwise fun r r' => r.time ≤ r'.time

theorem grants_mem {requests : List (Request K)} :
    ∀ t ∈ grants pour b requests, ∃ request ∈ requests, request.time = t := by
  induction requests generalizing b with
  | nil => exact List.forall_mem_nil _
  | cons request rest ih =>
    intro t ht
    simp only [grants] at ht
    have hrest : t ∈ grants pour (b.ask pour request).1 rest →
        ∃ r ∈ request :: rest, r.time = t := by
      intro hmem
      obtain ⟨r, hr, heq⟩ := ih t hmem
      exact ⟨r, List.mem_cons_of_mem _ hr, heq⟩
    split at ht
    · rcases List.mem_cons.mp ht with rfl | ht
      · exact ⟨request, List.mem_cons_self, rfl⟩
      · exact hrest ht
    · exact hrest ht

theorem grants_length_filter_cons (P : ℤ → Prop) [DecidablePred P] (b : TokenBucket K)
    (request : Request K) (rest : List (Request K)) (h : P request.time) :
    (((grants pour b (request :: rest)).filter P).length : K) =
      (if (b.ask pour request).2 then 1 else 0) +
        ((grants pour (b.ask pour request).1 rest).filter P).length := by
  simp only [grants]
  split
  · rw [List.filter_cons_of_pos (by simpa using h), List.length_cons, Nat.cast_succ, add_comm]
  · rw [zero_add]

/-- The grants up to a time are paid from what the bucket holds and what it is refilled with. -/
theorem grants_until (h : Pours Level burst low high pour) (requests : List (Request K))
    (hkeep : ∀ r ∈ requests, 0 ≤ r.keep) (horder : InOrder requests) (until_ : ℤ) :
    ∀ b : TokenBucket K, Level b.level →
      (((grants pour b requests).filter (· ≤ until_)).length : K) ≤
        b.level + span b.last until_ * high := by
  induction requests with
  | nil =>
    intro b hb
    have hrefill := mul_nonneg (span_nonneg b.last until_) h.high_nonneg
    simpa [grants] using add_nonneg (h.nonneg hb) hrefill
  | cons request rest ih =>
    intro b hb
    obtain ⟨hfirst, horder⟩ := List.pairwise_cons.mp horder
    by_cases htime : request.time ≤ until_
    · -- The head is paid from the level, and the refill is split at its time.
      have hb' := level_ask h hb (hkeep request List.mem_cons_self)
      have hrest := ih (fun r hr => hkeep r (List.mem_cons_of_mem _ hr)) horder _ hb'
      have hrefill := refill_level_le h hb request.time
      rw [grants_length_filter_cons _ _ _ _ htime]
      rw [ask_level, ask_last] at hrest
      rw [span_split b.last until_ htime]
      linarith
    · -- The head comes too late, and with it everything after it.
      have hnone : (grants pour b (request :: rest)).filter (· ≤ until_) = [] := by
        rw [List.filter_eq_nil_iff]
        intro t ht
        obtain ⟨r, hr, rfl⟩ := grants_mem t ht
        have hlate : request.time ≤ r.time := by
          rcases List.mem_cons.mp hr with rfl | hr
          · exact le_refl _
          · exact hfirst r hr
        simpa using lt_of_lt_of_le (not_le.mp htime) hlate
      have hrefill := mul_nonneg (span_nonneg b.last until_) h.high_nonneg
      simpa [hnone] using add_nonneg (h.nonneg hb) hrefill

/-- A request finds the bucket as it has been refilled for it. -/
theorem ask_refill (b : TokenBucket K) (request : Request K) :
    (b.refill pour request.time).ask pour request = b.ask pour request := by
  have hagain : (b.refill pour request.time).refill pour request.time =
      b.refill pour request.time := by
    apply if_pos
    rw [refill_last]
    exact sub_nonpos.mpr (le_max_right _ _)
  unfold ask
  rw [hagain]

/-- In a stretch of time no more requests are granted than a full bucket pays for at its start
and the refill during it. -/
theorem grants_window (h : Pours Level burst low high pour) (requests : List (Request K))
    (hkeep : ∀ r ∈ requests, 0 ≤ r.keep) (horder : InOrder requests) {start stop : ℤ}
    (hstart : start ≤ stop) : ∀ b : TokenBucket K, Level b.level →
      (((grants pour b requests).filter fun t => start ≤ t ∧ t ≤ stop).length : K) ≤
        burst + ((stop - start : ℤ) : K) * high := by
  have hlong : (0 : K) ≤ ((stop - start : ℤ) : K) * high :=
    mul_nonneg (Int.cast_nonneg (sub_nonneg.mpr hstart)) h.high_nonneg
  induction requests with
  | nil =>
    intro b hb
    simpa [grants] using add_nonneg ((h.nonneg hb).trans (h.le_burst hb)) hlong
  | cons request rest ih =>
    intro b hb
    have hkeep' : ∀ r ∈ rest, 0 ≤ r.keep := fun r hr => hkeep r (List.mem_cons_of_mem _ hr)
    have hb' := level_ask h hb (hkeep request List.mem_cons_self)
    by_cases htime : request.time < start
    · -- Before the stretch begins nothing is counted.
      have hskip : ((grants pour b (request :: rest)).filter fun t => start ≤ t ∧ t ≤ stop) =
          (grants pour (b.ask pour request).1 rest).filter fun t => start ≤ t ∧ t ≤ stop := by
        simp only [grants]
        split
        · exact List.filter_cons_of_neg (by simp [not_le.mpr htime])
        · rfl
      rw [hskip]
      exact ih hkeep' (List.pairwise_cons.mp horder).2 _ hb'
    · -- At the first request of the stretch the bucket holds the burst at most.
      have hhigh := h.le_burst (refill_level h hb request.time)
      have huntil := grants_until h (request :: rest) hkeep horder stop
        (b.refill pour request.time) (refill_level h hb request.time)
      have hsame : grants pour (b.refill pour request.time) (request :: rest) =
          grants pour b (request :: rest) := by
        simp only [grants, ask_refill]
      rw [hsame, refill_last] at huntil
      have hspan : (span (max b.last request.time) stop : K) ≤ ((stop - start : ℤ) : K) := by
        apply Int.cast_le.mpr
        have hlate := not_lt.mp htime
        omega
      calc (_ : K) ≤ ((grants pour b (request :: rest)).filter (· ≤ stop)).length := by
            apply Nat.cast_le.mpr
            apply List.Sublist.length_le
            apply List.monotone_filter_right
            intro t ht
            exact decide_eq_true (of_decide_eq_true ht).2
        _ ≤ _ := huntil
        _ ≤ burst + ((stop - start : ℤ) : K) * high :=
            add_le_add hhigh (mul_le_mul_of_nonneg_right hspan h.high_nonneg)

/-! ## What is left for a later request -/

/-- Requests that leave a reserve behind do not delay the moment by which it is there. -/
theorem reserve_run (h : Pours Level burst low high pour) {reserve : K} (hzero : 0 ≤ reserve)
    (hreserve : reserve ≤ burst) (requests : List (Request K))
    (hkeep : ∀ r ∈ requests, reserve ≤ r.keep) (time : ℤ) :
    ∀ b : TokenBucket K, Level b.level → reserve ≤ b.level + span b.last time * low →
      reserve ≤ (b.run pour requests).level + span (b.run pour requests).last time * low := by
  induction requests with
  | nil => exact fun _ _ h => h
  | cons request rest ih =>
    intro b hb hfirst
    have hkept := hkeep request List.mem_cons_self
    apply ih (fun r hr => hkeep r (List.mem_cons_of_mem _ hr)) _ (level_ask h hb (hzero.trans hkept))
    have hadd : 0 ≤ span (max b.last request.time) time * low :=
      mul_nonneg (span_nonneg _ _) h.low_nonneg
    rw [ask_level, ask_last]
    by_cases hgranted : (b.ask pour request).2 = true
    · -- A grant leaves the reserve itself.
      rw [if_pos hgranted]
      exact le_add_of_le_of_nonneg (hkept.trans (ask_granted.mp hgranted)) hadd
    · rw [if_neg hgranted, sub_zero]
      -- A refusal changes the level by the refill only.
      rcases min_le_iff.mp (min_le_refill_level h hb (le_refl burst) request.time) with
        hburst | hlevel
      · exact le_add_of_le_of_nonneg (hreserve.trans hburst) hadd
      · have hspan : (span b.last time : K) ≤
            span b.last request.time + span (max b.last request.time) time := by
          unfold span
          rw [← Int.cast_add]
          apply Int.cast_le.mpr
          omega
        have hmul := mul_le_mul_of_nonneg_right hspan h.low_nonneg
        linarith

end TokenBucket

end AlphaMonitor.Lib
