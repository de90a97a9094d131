import AlphaMonitor.Lib.TokenBucket
import AlphaMonitor.Trade.Requests
import Mathlib.Tactic.NormNum

/-!
# The rate limiter of the cancels

All pairs of an engine draw on one limiter.  It is a token bucket with two classes of
requests: an entry cancel has to leave the exit reserve behind, an exit cancel nothing.  The
tokens are floats, so refills in parts do not quite add up to one refill.

## Main definitions

- `CancelAsk`: a request for a token
- `CancelRateLimiter.grants`: the requests of a run that get one

## Main results

- `pours`: a refill lies between two rates
- `grants_in_window`: the grants in a stretch of time
- `reserve_kept`: what entry requests leave behind
- `exit_after_entries`: an exit request after any number of entry requests
-/

namespace AlphaMonitor.Trade

open Lib

/-- A request for a token, by the entry or by the exit of some pair. -/
structure CancelAsk where
  time : ℤ
  isExit : Bool
  deriving DecidableEq, Repr

/-- What a request has to leave in the bucket. -/
def CancelAsk.keep (ask : CancelAsk) : ℚ :=
  if ask.isExit then 0 else cancelRateExitReserve

/-- `CANCEL_RATE_LIMIT_RPS` for each millisecond. -/
def cancelRatePerMs : ℚ := cancelRateLimitRps / 1000

/-- What rounding may add to a refill or take from it, for each millisecond. -/
def cancelRounding : ℚ := 1 / 2 ^ 48

namespace CancelRateLimiter

/-- `CancelRateLimiter::new`. -/
def new (now : ℤ) : CancelRateLimiter := ⟨cancelRateLimitBurst, now⟩

/-- The limiter after some requests. -/
def run (lim : CancelRateLimiter) (asks : List CancelAsk) : CancelRateLimiter :=
  asks.foldl (fun lim ask => (lim.allow ask.time ask.isExit).1) lim

/-- The requests that get a token. -/
def grants : CancelRateLimiter → List CancelAsk → List CancelAsk
  | _, [] => []
  | lim, ask :: rest =>
    let later := grants (lim.allow ask.time ask.isExit).1 rest
    if (lim.allow ask.time ask.isExit).2 then ask :: later else later

/-! ## Refills -/

/-- A level that the limiter can have: a float up to the burst. -/
structure Level (tokens : ℚ) : Prop where
  float : f64 tokens = tokens
  nonneg : 0 ≤ tokens
  le_burst : tokens ≤ cancelRateLimitBurst

/-- The refill of so many milliseconds. -/
def refillOf (elapsed : ℤ) : ℚ := F64.mul (F64.div elapsed 1000) cancelRateLimitRps

/-- The tokens after a refill. -/
def pour (tokens : ℚ) (elapsed : ℤ) : ℚ :=
  min (F64.add tokens (refillOf elapsed)) cancelRateLimitBurst

theorem f64_rate : f64 cancelRateLimitRps = cancelRateLimitRps := by decide +kernel

theorem f64_burst : f64 cancelRateLimitBurst = cancelRateLimitBurst := by decide +kernel

/-- Three roundings away from the exact refill. -/
theorem refillOf_bounds {elapsed : ℤ} (hpos : 0 < elapsed) :
    elapsed * (cancelRatePerMs - 1 / 2 ^ 53) ≤ refillOf elapsed ∧
      refillOf elapsed ≤ elapsed * (cancelRatePerMs + 1 / 2 ^ 53) := by
  have he : (0 : ℚ) ≤ elapsed := by exact_mod_cast hpos.le
  have hthousand : f64 1000 = 1000 := by decide +kernel
  have hlow := Lib.le_f64_of he
  have hhigh := Lib.f64_le_of he
  have hdiv : (0 : ℚ) ≤ f64 elapsed / 1000 := div_nonneg (Lib.f64_nonneg he) (by norm_num)
  have hlow' := Lib.le_f64_of hdiv
  have hhigh' := Lib.f64_le_of hdiv
  have hmul : (0 : ℚ) ≤ f64 (f64 elapsed / 1000) * 5 :=
    mul_nonneg (Lib.f64_nonneg hdiv) (by norm_num)
  have hlow'' := Lib.le_f64_of hmul
  have hhigh'' := Lib.f64_le_of hmul
  have hrefill : refillOf elapsed = f64 (f64 (f64 elapsed / 1000) * 5) := by
    unfold refillOf F64.mul
    rw [F64.f64_div, f64_rate]
    unfold F64.div
    rw [hthousand]
    rfl
  rw [hrefill]
  unfold cancelRatePerMs cancelRateLimitRps
  constructor <;> linarith

theorem refillOf_nonneg {elapsed : ℤ} (hpos : 0 < elapsed) : 0 ≤ refillOf elapsed := by
  have he : (0 : ℚ) < elapsed := by exact_mod_cast hpos
  refine le_trans (mul_nonneg he.le ?_) (refillOf_bounds hpos).1
  norm_num [cancelRatePerMs, cancelRateLimitRps]

theorem f64_refillOf (elapsed : ℤ) : f64 (refillOf elapsed) = refillOf elapsed :=
  F64.f64_mul _ _

theorem add_refillOf {tokens : ℚ} (h : Level tokens) (elapsed : ℤ) :
    F64.add tokens (refillOf elapsed) = f64 (tokens + refillOf elapsed) := by
  unfold F64.add
  rw [h.float, f64_refillOf]

/-- A float less one is not rounded. -/
theorem Level.sub_one {tokens : ℚ} (h : Level tokens) (hone : 1 ≤ tokens) :
    F64.sub tokens 1 = tokens - 1 ∧ Level (tokens - 1) := by
  have hle := h.le_burst
  have hfloat : f64 (tokens - 1) = tokens - 1 := by
    have hrep : Representable 53 tokens := by
      rw [← h.float]
      exact Lib.representable_roundTo 53 tokens
    refine (hrep.sub_one hone ?_).roundTo_eq (by decide)
    unfold cancelRateLimitBurst at hle
    linarith
  refine ⟨?_, hfloat, sub_nonneg.mpr hone, by linarith⟩
  have honeFloat : f64 1 = 1 := by decide +kernel
  unfold F64.sub
  rw [h.float, honeFloat, hfloat]

/-- A refill lies between those at two constant rates. -/
theorem pours : Pours Level cancelRateLimitBurst (cancelRatePerMs - cancelRounding)
    (cancelRatePerMs + cancelRounding) pour where
  nonneg h := h.nonneg
  le_burst h := h.le_burst
  take h hone := (h.sub_one hone).2
  closed := by
    intro tokens elapsed h hpos
    have hsum := add_nonneg h.nonneg (refillOf_nonneg hpos)
    unfold pour
    refine ⟨?_, le_min ?_ (by norm_num [cancelRateLimitBurst]), min_le_right _ _⟩
    · rcases min_choice (F64.add tokens (refillOf elapsed)) cancelRateLimitBurst with h' | h'
      · rw [h', F64.f64_add]
      · rw [h', f64_burst]
    · rw [add_refillOf h]
      exact Lib.f64_nonneg hsum
  grows := by
    intro tokens elapsed h hpos
    refine le_min ?_ h.le_burst
    rw [add_refillOf h]
    conv_lhs => rw [← h.float]
    exact Lib.f64_mono (le_add_of_nonneg_right (refillOf_nonneg hpos))
  le_high := by
    intro tokens elapsed h hpos
    have hone : (1 : ℚ) ≤ elapsed := by exact_mod_cast hpos
    have hsum := Lib.f64_le_of (add_nonneg h.nonneg (refillOf_nonneg hpos))
    have hrefill := (refillOf_bounds hpos).2
    have hle := h.le_burst
    have hnonneg := h.nonneg
    refine (min_le_left _ _).trans ?_
    rw [add_refillOf h]
    unfold cancelRounding cancelRatePerMs cancelRateLimitRps cancelRateLimitBurst at *
    linarith
  low_le := by
    intro tokens elapsed h hpos
    have hone : (1 : ℚ) ≤ elapsed := by exact_mod_cast hpos
    have hle := h.le_burst
    refine le_min ?_ (min_le_left _ _)
    rw [add_refillOf h]
    by_cases hfull : cancelRateLimitBurst ≤ refillOf elapsed
    · -- the refill alone fills the bucket
      refine (min_le_left _ _).trans ?_
      rw [← f64_burst]
      exact Lib.f64_mono (hfull.trans (le_add_of_nonneg_left h.nonneg))
    · have hsum := Lib.le_f64_of (add_nonneg h.nonneg (refillOf_nonneg hpos))
      have hrefill := (refillOf_bounds hpos).1
      refine (min_le_right _ _).trans ?_
      unfold cancelRounding cancelRatePerMs cancelRateLimitRps cancelRateLimitBurst at *
      linarith
  low_nonneg := by norm_num [cancelRatePerMs, cancelRateLimitRps, cancelRounding]
  high_nonneg := by norm_num [cancelRatePerMs, cancelRateLimitRps, cancelRounding]

/-! ## The limiter is a token bucket -/

def toBucket (lim : CancelRateLimiter) : TokenBucket ℚ := ⟨lim.tokens, lim.lastRefillMs⟩

/-- The bucket's request that a request for a token is. -/
def bucketAsk (ask : CancelAsk) : TokenBucket.Request ℚ := ⟨ask.time, ask.keep⟩

theorem toBucket_refill (lim : CancelRateLimiter) (now : ℤ) :
    (lim.refill now).toBucket = lim.toBucket.refill pour now := by
  unfold refill TokenBucket.refill toBucket
  dsimp only
  split
  · rfl
  · rfl

theorem toBucket_allow (lim : CancelRateLimiter) (ask : CancelAsk) :
    (lim.allow ask.time ask.isExit).1.toBucket = (lim.toBucket.ask pour (bucketAsk ask)).1 ∧
      (lim.allow ask.time ask.isExit).2 = (lim.toBucket.ask pour (bucketAsk ask)).2 := by
  have hexit : (1 : ℚ) ≤ (lim.refill ask.time).tokens ↔ 0 ≤ (lim.refill ask.time).tokens - 1 :=
    sub_nonneg.symm
  simp only [TokenBucket.ask, bucketAsk, ← toBucket_refill]
  unfold allow CancelAsk.keep
  -- An exit request asks for a whole token, an entry request for the reserve on top.
  cases ask.isExit with
  | true =>
    simp only [if_true, ge_iff_le, hexit, toBucket]
    split
    · exact ⟨rfl, rfl⟩
    · exact ⟨rfl, rfl⟩
  | false =>
    simp only [Bool.false_eq_true, if_false, ge_iff_le, toBucket]
    split
    · exact ⟨rfl, rfl⟩
    · exact ⟨rfl, rfl⟩

theorem toBucket_run (lim : CancelRateLimiter) (asks : List CancelAsk) :
    (lim.run asks).toBucket = lim.toBucket.run pour (asks.map bucketAsk) := by
  induction asks generalizing lim with
  | nil => rfl
  | cons ask rest ih =>
    have hone := ih (lim.allow ask.time ask.isExit).1
    rw [(toBucket_allow lim ask).1] at hone
    exact hone

/-- The times of the grants are those of the bucket's grants. -/
theorem grants_times (lim : CancelRateLimiter) (asks : List CancelAsk) :
    (lim.grants asks).map (·.time) =
      TokenBucket.grants pour lim.toBucket (asks.map bucketAsk) := by
  induction asks generalizing lim with
  | nil => rfl
  | cons ask rest ih =>
    obtain ⟨hlim, hgranted⟩ := toBucket_allow lim ask
    simp only [grants, List.map_cons, TokenBucket.grants, ← hlim, ← hgranted, ← ih]
    split
    · rfl
    · rfl

theorem keep_nonneg (ask : CancelAsk) : 0 ≤ ask.keep := by
  unfold CancelAsk.keep
  split
  · exact le_refl 0
  · norm_num [cancelRateExitReserve]

theorem bucketAsk_keep_nonneg (asks : List CancelAsk) : ∀ r ∈ asks.map bucketAsk, 0 ≤ r.keep := by
  intro r hr
  obtain ⟨ask, -, rfl⟩ := List.mem_map.mp hr
  exact keep_nonneg ask

theorem level_new (now : ℤ) : Level (new now).tokens :=
  ⟨f64_burst, by norm_num [new, cancelRateLimitBurst], le_refl _⟩

/-- The tokens are a level in every run. -/
theorem level_run {lim : CancelRateLimiter} (h : Level lim.tokens) (asks : List CancelAsk) :
    Level (lim.run asks).tokens := by
  have hbucket := TokenBucket.level_run pours (asks.map bucketAsk) (bucketAsk_keep_nonneg asks)
    (b := lim.toBucket) h
  rw [← toBucket_run] at hbucket
  exact hbucket

/-! ## The grants in a stretch of time -/

/-- The grants of a stretch of whole milliseconds. -/
def grantsIn (lim : CancelRateLimiter) (asks : List CancelAsk) (start stop : ℤ) : ℕ :=
  ((lim.grants asks).filter fun ask => start ≤ ask.time ∧ ask.time ≤ stop).length

/-- No more tokens are granted than the burst and the refill allow. -/
theorem grants_in_window {lim : CancelRateLimiter} (h : Level lim.tokens) (asks : List CancelAsk)
    (horder : asks.Pairwise fun ask ask' => ask.time ≤ ask'.time) {start stop : ℤ}
    (hle : start ≤ stop) :
    (lim.grantsIn asks start stop : ℚ) ≤
      cancelRateLimitBurst + (stop - start : ℤ) * (cancelRatePerMs + cancelRounding) := by
  have horder' : TokenBucket.InOrder (asks.map bucketAsk) := List.pairwise_map.mpr horder
  have hwindow := TokenBucket.grants_window pours (asks.map bucketAsk) (bucketAsk_keep_nonneg asks)
    horder' hle lim.toBucket h
  rw [← grants_times, List.filter_map, List.length_map] at hwindow
  exact hwindow

/-- In 10 ^ 12 milliseconds the rounding does not add up to a grant. -/
theorem grants_in_short_window {lim : CancelRateLimiter} (h : Level lim.tokens)
    (asks : List CancelAsk) (horder : asks.Pairwise fun ask ask' => ask.time ≤ ask'.time)
    {start stop : ℤ} (hle : start ≤ stop) (hshort : stop - start ≤ 10 ^ 12) :
    (lim.grantsIn asks start stop : ℚ) ≤
      cancelRateLimitBurst + (stop - start : ℤ) * cancelRatePerMs := by
  have hwindow := grants_in_window h asks horder hle
  have hshort' : ((stop - start : ℤ) : ℚ) ≤ 10 ^ 12 := by exact_mod_cast hshort
  unfold cancelRateLimitBurst cancelRatePerMs cancelRateLimitRps cancelRounding at *
  -- two hundred times the grants are an integer
  have hint : (200 * (lim.grantsIn asks start stop : ℤ) : ℚ) <
      ((2000 + (stop - start) + 1 : ℤ) : ℚ) := by
    push_cast at hwindow hshort' ⊢
    linarith
  have hint' : 200 * (lim.grantsIn asks start stop : ℤ) < 2000 + (stop - start) + 1 := by
    exact_mod_cast hint
  have hcast : ((200 * (lim.grantsIn asks start stop : ℤ) : ℤ) : ℚ) ≤
      ((2000 + (stop - start) : ℤ) : ℚ) := by
    exact_mod_cast Int.lt_add_one_iff.mp hint'
  push_cast at hcast ⊢
  linarith

/-! ## The reserve of the exits -/

/-- An entry request takes no token out of the reserve. -/
theorem reserve_kept {lim : CancelRateLimiter} (h : Level lim.tokens) (now : ℤ) :
    min lim.tokens cancelRateExitReserve ≤ (lim.allow now false).1.tokens := by
  have hrefill : lim.tokens ≤ (lim.refill now).tokens := by
    have hbucket := TokenBucket.le_refill_level pours (b := lim.toBucket) h now
    rw [← toBucket_refill] at hbucket
    exact hbucket
  unfold CancelRateLimiter.allow
  simp only [Bool.false_eq_true, if_false]
  split
  · rename_i henough
    exact (min_le_right _ _).trans henough
  · -- A refusal only refills.
    exact (min_le_left _ _).trans hrefill

/-- An exit request is granted after any entry requests, once the bucket would hold the reserve
without them at the lower rate. -/
theorem exit_after_entries {lim : CancelRateLimiter} (h : Level lim.tokens)
    (entries : List CancelAsk) (hentries : ∀ ask ∈ entries, ask.isExit = false) (now : ℤ)
    (hheld : cancelRateExitReserve ≤
      lim.tokens + (max lim.lastRefillMs now - lim.lastRefillMs : ℤ) *
        (cancelRatePerMs - cancelRounding)) :
    ((lim.run entries).allow now true).2 = true := by
  have hkeep : ∀ r ∈ entries.map bucketAsk, cancelRateExitReserve ≤ r.keep := by
    intro r hr
    obtain ⟨ask, hask, rfl⟩ := List.mem_map.mp hr
    simp [bucketAsk, CancelAsk.keep, hentries ask hask]
  have hreserve : cancelRateExitReserve ≤ cancelRateLimitBurst := by
    norm_num [cancelRateExitReserve, cancelRateLimitBurst]
  -- The entries leave the reserve, so the refill reaches it by the same time.
  have hlater := TokenBucket.reserve_run pours (by norm_num [cancelRateExitReserve]) hreserve _ hkeep
    now lim.toBucket h hheld
  have hlevel : Level (lim.toBucket.run pour (entries.map bucketAsk)).level := by
    rw [← toBucket_run]
    exact level_run h entries
  have hfilled := (le_min (le_refl _) hlater).trans
    (TokenBucket.min_le_refill_level pours hlevel hreserve now)
  rw [← toBucket_run, ← toBucket_refill] at hfilled
  unfold CancelRateLimiter.allow
  simp only [if_true]
  have hone : ((lim.run entries).refill now).tokens ≥ 1 := hfilled
  rw [if_pos hone]

end CancelRateLimiter

open CancelRateLimiter

/-- From a full limiter on: the grants are bounded in every stretch of time, entry requests leave
the reserve alone, and an exit request gets its token after any run of entry requests, as soon as
the refill of the whole time, less what rounding may take from it, reaches the reserve. -/
theorem cancel_limiter_law (started : ℤ) (asks : List CancelAsk)
    (horder : asks.Pairwise fun ask ask' => ask.time ≤ ask'.time) :
    (∀ start stop : ℤ, start ≤ stop → stop - start ≤ 10 ^ 12 →
        ((new started).grantsIn asks start stop : ℚ) ≤
          cancelRateLimitBurst + (stop - start : ℤ) * cancelRatePerMs) ∧
      (∀ start stop : ℤ, start ≤ stop → ((new started).grantsIn asks start stop : ℚ) ≤
          cancelRateLimitBurst + (stop - start : ℤ) * (cancelRatePerMs + cancelRounding)) ∧
      (∀ now, min ((new started).run asks).tokens cancelRateExitReserve ≤
          (((new started).run asks).allow now false).1.tokens) ∧
      (∀ (entries : List CancelAsk) (now : ℤ), (∀ ask ∈ entries, ask.isExit = false) →
        cancelRateExitReserve ≤ ((new started).run asks).tokens +
            (max ((new started).run asks).lastRefillMs now -
              ((new started).run asks).lastRefillMs : ℤ) * (cancelRatePerMs - cancelRounding) →
          ((((new started).run asks).run entries).allow now true).2 = true) := by
  have hlevel := level_run (level_new started) asks
  refine ⟨?_, ?_, fun now => reserve_kept hlevel now, ?_⟩
  · intro start stop hle hshort
    exact grants_in_short_window (level_new started) asks horder hle hshort
  · intro start stop hle
    exact grants_in_window (level_new started) asks horder hle
  · intro entries now hentries hheld
    exact exit_after_entries hlevel entries hentries now hheld

/-- Twelve entry cancels at once. -/
def entryCancels : List CancelAsk := List.replicate 12 ⟨0, false⟩

/-- Nine of them get a token, and the exit cancel that comes next as well. -/
theorem entry_cancels_leave_one :
    ((new 0).grants entryCancels).length = 9 ∧
      ((((new 0).run []).run entryCancels).allow 0 true).2 = true ∧
      ((new 0).grantsIn entryCancels 0 0 : ℚ) ≤
        cancelRateLimitBurst + (0 - 0 : ℤ) * cancelRatePerMs :=
  ⟨by decide +kernel,
    (cancel_limiter_law 0 [] List.Pairwise.nil).2.2.2 entryCancels 0
      (fun _ hask => by rw [List.eq_of_mem_replicate hask])
      (by decide +kernel),
    (cancel_limiter_law 0 entryCancels (List.pairwise_replicate_of_refl)).1 0 0 (le_refl 0)
      (by decide)⟩

/-- Nine entry cancels and an exit cancel empty the bucket. -/
def emptying : List CancelAsk := List.replicate 9 ⟨0, false⟩ ++ [⟨0, true⟩]

/-- After 200 milliseconds the empty bucket holds a token; refilled after 172 of them for an entry
request that is refused, it holds a little less. -/
theorem exit_refused_after_entry :
    ¬ ∀ (started : ℤ) (asks entries : List CancelAsk) (now : ℤ),
      (asks.Pairwise fun ask ask' => ask.time ≤ ask'.time) → (∀ ask ∈ entries, ask.isExit = false) →
        cancelRateExitReserve ≤ (((new started).run asks).refill now).tokens →
          ((((new started).run asks).run entries).allow now true).2 = true := by
  intro hgranted
  have h := hgranted 0 emptying [⟨172, false⟩] 200 (by decide) (by decide) (by decide +kernel)
  have hrefused : ((((new 0).run emptying).run [⟨172, false⟩]).allow 200 true).2 = false := by
    decide +kernel
  rw [hrefused] at h
  cases h

end AlphaMonitor.Trade
