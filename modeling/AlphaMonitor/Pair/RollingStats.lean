import AlphaMonitor.Lib.Binary
import AlphaMonitor.Lib.Peak
import Mathlib.Data.List.AList
import Mathlib.Order.WithBot

/-!
# Rolling statistics of a pair

`build_bar_with_context` keeps the log returns of both venues and derives from them the
correlation, the beta and the lag at which Opinion follows Polymarket.  The lag is the shift
with the largest absolute correlation; it is searched through two hash maps, which hand out
their entries in any order.

All arithmetic is that of floats, so a correlation depends on the order of its pairs, and an
exact tie or a correlation of exactly one need not come out as such.  `ln` and `sqrt` are
parameters.

## Main results

- `estimateLag_first_best`: the shift that is found is the first of those with the largest
  computed correlation
-/

namespace AlphaMonitor.Pair

open AlphaMonitor.Lib

/-- `f64::ln` and `f64::sqrt`. -/
structure StatMath where
  (ln sqrt : ℚ → ℚ)

structure ReturnPoint where
  barSecond : ℤ
  (pmRet opiRet : Option ℚ)
  deriving DecidableEq, Repr

/-- A hash map from seconds to returns. -/
abbrev ReturnMap := AList (fun _ : ℤ => ℚ)

/-- The order in which the entries of a hash map are handed out. -/
structure MapOrder where
  arrange : List (Sigma fun _ : ℤ => ℚ) → List (Sigma fun _ : ℤ => ℚ)
  perm : ∀ entries, (arrange entries).Perm entries

/-- The order of insertion. -/
def MapOrder.inserted : MapOrder := ⟨id, fun _ => List.Perm.refl _⟩

variable (math : StatMath)

/-- `iter().sum::<f64>()`. -/
def sumF64 (values : List ℚ) : ℚ := values.foldl F64.add 0

/-- `log_return`. -/
def logReturn (current prev : Option ℚ) : Option ℚ :=
  match current, prev with
  | some cur, some prev => if 0 < cur ∧ 0 < prev then some (math.ln (F64.div cur prev)) else none
  | _, _ => none

/-! ## Correlation -/

/-- The loop of `correlation`. -/
def correlationSums (meanX meanY : ℚ) (points : List (ℚ × ℚ)) : ℚ × ℚ × ℚ :=
  points.foldl (fun sums p =>
    let dx := F64.sub p.1 meanX
    let dy := F64.sub p.2 meanY
    (F64.add sums.1 (F64.mul dx dy), F64.add sums.2.1 (F64.mul dx dx),
      F64.add sums.2.2 (F64.mul dy dy))) (0, 0, 0)

/-- `correlation`. -/
def correlation (xs ys : List ℚ) : Option ℚ :=
  if xs.length < 2 ∨ xs.length ≠ ys.length then none
  else
    let meanX := F64.div (sumF64 xs) xs.length
    let meanY := F64.div (sumF64 ys) ys.length
    let sums := correlationSums meanX meanY (xs.zip ys)
    if sums.2.1 ≤ 0 ∨ sums.2.2 ≤ 0 then none
    else some (F64.div sums.1 (F64.mul (math.sqrt sums.2.1) (math.sqrt sums.2.2)))

/-- `beta`. -/
def beta (xs ys : List ℚ) : Option ℚ :=
  if xs.length < 2 ∨ xs.length ≠ ys.length then none
  else
    let meanX := F64.div (sumF64 xs) xs.length
    let meanY := F64.div (sumF64 ys) ys.length
    let sums := (xs.zip ys).foldl (fun sums p =>
      let dx := F64.sub p.1 meanX
      (F64.add sums.1 (F64.mul dx (F64.sub p.2 meanY)), F64.add sums.2 (F64.mul dx dx)))
        ((0, 0) : ℚ × ℚ)
    if sums.2 ≤ 0 then none else some (F64.div sums.1 sums.2)

/-- `compute_corr_beta`, over the newest returns first. -/
def computeCorrBeta (values : List ReturnPoint) : Option ℚ × Option ℚ × ℕ :=
  let points := (values.reverse.take 300).filterMap fun point =>
    match point.pmRet, point.opiRet with
    | some x, some y => some (x, y)
    | _, _ => none
  let xs := points.map Prod.fst
  let ys := points.map Prod.snd
  (correlation math xs ys, beta xs ys, xs.length)

/-! ## Lag -/

/-- The returns of one venue by second: of two with one second the older one stays. -/
def returnMap (ret : ReturnPoint → Option ℚ) (values : List ReturnPoint) : ReturnMap :=
  (values.reverse.take 600).foldl (fun m point =>
    match ret point with
    | some r => m.insert point.barSecond r
    | none => m) ∅

/-- The pairs of a Polymarket return and the Opinion return that comes `shift` later. -/
def shiftedPairs (entries : List (Sigma fun _ : ℤ => ℚ)) (opiMap : ReturnMap) (shift : ℤ) :
    List (ℚ × ℚ) :=
  entries.filterMap fun e => (opiMap.lookup (e.1 + shift)).map fun opi => (e.2, opi)

/-- The correlation at a shift, if there are enough pairs. -/
def corrAt (entries : List (Sigma fun _ : ℤ => ℚ)) (opiMap : ReturnMap) (shift : ℤ) : Option ℚ :=
  let points := shiftedPairs entries opiMap shift
  if points.length < 30 then none
  else correlation math (points.map Prod.fst) (points.map Prod.snd)

/-- The correlation of the returns that are `shift` apart, in the order of the map. -/
def lagCorr (order : MapOrder) (values : List ReturnPoint) (shift : ℤ) : Option ℚ :=
  corrAt math (order.arrange (returnMap (·.pmRet) values).entries) (returnMap (·.opiRet) values)
    shift

/-- `-max_shift..=max_shift`. -/
def shifts (maxShift : ℤ) : List ℤ :=
  (List.range (2 * maxShift + 1).toNat).map fun i : ℕ => (i : ℤ) - maxShift

/-- A shift with a larger absolute correlation takes the place of the best one. -/
def keepShift (corr : ℤ → Option ℚ) (best : Option ℤ × ℚ) (shift : ℤ) : Option ℤ × ℚ :=
  match corr shift with
  | some c => if |best.2| < |c| then (some shift, c) else best
  | none => best

/-- The loop over the shifts. -/
def bestShift (corr : ℤ → Option ℚ) (candidates : List ℤ) : Option ℤ × ℚ :=
  candidates.foldl (keepShift corr) (none, 0)

/-- `estimate_lag`; the order is that in which the map hands out its entries. -/
def estimateLag (order : MapOrder) (values : List ReturnPoint) (maxShift : ℤ) :
    Option ℤ × Option ℚ :=
  let best := bestShift (lagCorr math order values) (shifts maxShift)
  match best.1 with
  | none => (none, none)
  | some shift => (some shift, some |best.2|)

/-! ## The best shift -/

/-- The best shift and its absolute correlation; no shift comes before all others. -/
def asPeak (best : Option ℤ × ℚ) : WithBot ℤ × ℚ :=
  (best.1.elim ⊥ fun shift => (shift : WithBot ℤ), |best.2|)

/-- The candidates with their absolute correlations. -/
def lagPoints (corr : ℤ → Option ℚ) (candidates : List ℤ) : List (WithBot ℤ × ℚ) :=
  candidates.filterMap fun shift => (corr shift).map fun c => ((shift : WithBot ℤ), |c|)

/-- The loop keeps a peak of the absolute correlations. -/
theorem asPeak_foldl (corr : ℤ → Option ℚ) (candidates : List ℤ) (best : Option ℤ × ℚ) :
    asPeak (candidates.foldl (keepShift corr) best) =
      peakOf (asPeak best) (lagPoints corr candidates) := by
  induction candidates generalizing best with
  | nil => rfl
  | cons shift rest ih =>
    rw [List.foldl_cons, ih, keepShift]
    cases hcorr : corr shift with
    | none =>
      have hpoints : lagPoints corr (shift :: rest) = lagPoints corr rest := by
        rw [lagPoints, List.filterMap_cons, hcorr]
        rfl
      rw [hpoints]
    | some c =>
      have hpoints : lagPoints corr (shift :: rest) =
          ((shift : WithBot ℤ), |c|) :: lagPoints corr rest := by
        rw [lagPoints, List.filterMap_cons, hcorr]
        rfl
      rw [hpoints]
      change _ = peakOf (keepPeak (asPeak best) ((shift : WithBot ℤ), |c|)) (lagPoints corr rest)
      congr 1
      by_cases hbetter : |best.2| < |c|
      · exact (congrArg asPeak (if_pos hbetter)).trans (if_pos hbetter).symm
      · exact (congrArg asPeak (if_neg hbetter)).trans (if_neg hbetter).symm

theorem mem_shifts {maxShift shift : ℤ} :
    shift ∈ shifts maxShift ↔ -maxShift ≤ shift ∧ shift ≤ maxShift := by
  rw [shifts, List.mem_map]
  constructor
  · rintro ⟨i, hi, rfl⟩
    have hlt := List.mem_range.mp hi
    omega
  · intro h
    exact ⟨(shift + maxShift).toNat, List.mem_range.mpr (by omega), by omega⟩

theorem pairwise_shifts (maxShift : ℤ) : (shifts maxShift).Pairwise fun a b => a < b := by
  rw [shifts, List.pairwise_map]
  exact List.pairwise_lt_range.imp fun h => by omega

/-- Of the shifts with the largest absolute correlation, the smallest. -/
structure FirstBest (corr : ℤ → Option ℚ) (maxShift shift : ℤ) (confidence : ℚ) : Prop where
  inside : -maxShift ≤ shift ∧ shift ≤ maxShift
  attained : ∃ c, corr shift = some c ∧ |c| = confidence
  pos : 0 < confidence
  best : ∀ other c, -maxShift ≤ other → other ≤ maxShift → corr other = some c → |c| ≤ confidence
  first : ∀ other c, -maxShift ≤ other → other < shift → corr other = some c → |c| < confidence

theorem isPeak_bestShift (corr : ℤ → Option ℚ) (maxShift : ℤ) :
    IsPeak ((⊥, 0) :: lagPoints corr (shifts maxShift))
      (asPeak (bestShift corr (shifts maxShift))) := by
  have hsorted : ([(⊥, 0)] ++ lagPoints corr (shifts maxShift)).Pairwise
      fun a b : WithBot ℤ × ℚ => a.1 < b.1 := by
    rw [List.singleton_append, List.pairwise_cons]
    constructor
    · intro point hpoint
      obtain ⟨shift, -, hshift⟩ := List.mem_filterMap.mp hpoint
      obtain ⟨c, -, rfl⟩ := Option.map_eq_some_iff.mp hshift
      exact WithBot.bot_lt_coe shift
    · apply (pairwise_shifts maxShift).filterMap
      intro a a' hlt b hb b' hb'
      obtain ⟨c, -, rfl⟩ := Option.map_eq_some_iff.mp hb
      obtain ⟨c', -, rfl⟩ := Option.map_eq_some_iff.mp hb'
      exact WithBot.coe_lt_coe.mpr hlt
  have hpeak := peakOf_isPeak (isPeak_singleton ((⊥, 0) : WithBot ℤ × ℚ)) hsorted
  rw [bestShift, asPeak_foldl]
  have hstart : asPeak ((none, 0) : Option ℤ × ℚ) = (⊥, 0) := by
    rw [asPeak, abs_zero]
    rfl
  rw [hstart]
  exact hpeak

theorem mem_lagPoints {corr : ℤ → Option ℚ} {maxShift other : ℤ} {c : ℚ}
    (hlow : -maxShift ≤ other) (hhigh : other ≤ maxShift) (hcorr : corr other = some c) :
    ((other : WithBot ℤ), |c|) ∈ (⊥, 0) :: lagPoints corr (shifts maxShift) :=
  List.mem_cons_of_mem _ (List.mem_filterMap.mpr
    ⟨other, mem_shifts.mpr ⟨hlow, hhigh⟩, congrArg _ hcorr⟩)

/-- What is found is the first of the best shifts. -/
theorem firstBest_of_bestShift {corr : ℤ → Option ℚ} {maxShift shift : ℤ} {c : ℚ}
    (h : bestShift corr (shifts maxShift) = (some shift, c)) :
    FirstBest corr maxShift shift |c| := by
  have hpeak := isPeak_bestShift corr maxShift
  rw [h] at hpeak
  change IsPeak _ ((shift : WithBot ℤ), |c|) at hpeak
  have hmem : ((shift : WithBot ℤ), |c|) ∈ lagPoints corr (shifts maxShift) := by
    rcases List.mem_cons.mp hpeak.mem with hnone | hmem
    · cases hnone
    · exact hmem
  obtain ⟨other, hother, hpoint⟩ := List.mem_filterMap.mp hmem
  obtain ⟨c', hcorr, heq⟩ := Option.map_eq_some_iff.mp hpoint
  rw [Prod.mk.injEq, WithBot.coe_inj] at heq
  obtain ⟨rfl, habs⟩ := heq
  constructor
  · exact mem_shifts.mp hother
  · exact ⟨c', hcorr, habs⟩
  · -- a correlation of zero would come after the start
    have hmax := hpeak.max (⊥, 0) List.mem_cons_self
    rcases hmax.lt_or_eq with hlt | hzero
    · exact hlt
    · have hbot := hpeak.earliest (⊥, 0) List.mem_cons_self hzero
      exact absurd hbot (not_le.mpr (WithBot.bot_lt_coe other))
  · intro t d hlow hhigh hd
    exact hpeak.max _ (mem_lagPoints hlow hhigh hd)
  · intro t d hlow hlt hd
    have hin := mem_lagPoints hlow (hlt.le.trans (mem_shifts.mp hother).2) hd
    refine lt_of_le_of_ne (hpeak.max _ hin) fun hsame => ?_
    have hearly := hpeak.earliest _ hin hsame
    exact absurd (WithBot.coe_le_coe.mp hearly) (not_le.mpr hlt)

theorem zero_of_bestShift_none {corr : ℤ → Option ℚ} {maxShift : ℤ}
    (h : (bestShift corr (shifts maxShift)).1 = none) {other : ℤ} {c : ℚ}
    (hlow : -maxShift ≤ other) (hhigh : other ≤ maxShift) (hcorr : corr other = some c) : c = 0 := by
  have hpeak := isPeak_bestShift corr maxShift
  have hzero : |(bestShift corr (shifts maxShift)).2| = 0 := by
    rcases List.mem_cons.mp hpeak.mem with hnone | hmem
    · exact congrArg Prod.snd hnone
    · obtain ⟨shift, -, hpoint⟩ := List.mem_filterMap.mp hmem
      obtain ⟨d, -, heq⟩ := Option.map_eq_some_iff.mp hpoint
      rw [asPeak, h] at heq
      cases congrArg Prod.fst heq
  have hmax := hpeak.max _ (mem_lagPoints hlow hhigh hcorr)
  change |c| ≤ |(bestShift corr (shifts maxShift)).2| at hmax
  rw [hzero] at hmax
  exact abs_nonpos_iff.mp hmax

/-- The lag is the first of the best shifts, and there is none only if no shift has a correlation
other than zero. -/
theorem estimateLag_first_best (order : MapOrder) (values : List ReturnPoint) (maxShift : ℤ) :
    (∃ shift confidence, estimateLag math order values maxShift = (some shift, some confidence) ∧
      FirstBest (lagCorr math order values) maxShift shift confidence) ∨
    (estimateLag math order values maxShift = (none, none) ∧
      ∀ shift c, -maxShift ≤ shift → shift ≤ maxShift →
        lagCorr math order values shift = some c → c = 0) := by
  unfold estimateLag
  cases hbest : bestShift (lagCorr math order values) (shifts maxShift) with
  | mk found c =>
    cases found with
    | some shift => exact Or.inl ⟨shift, |c|, rfl, firstBest_of_bestShift hbest⟩
    | none =>
      refine Or.inr ⟨rfl, fun shift d hlow hhigh hd => ?_⟩
      exact zero_of_bestShift_none (congrArg Prod.fst hbest) hlow hhigh hd

end AlphaMonitor.Pair
