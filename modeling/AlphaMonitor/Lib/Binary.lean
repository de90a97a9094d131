import Mathlib.Algebra.Order.Field.Power
import Mathlib.Algebra.Order.Round
import Mathlib.Data.Int.Log
import Mathlib.Data.Rat.Floor
import Mathlib.Tactic.Linarith
import Mathlib.Tactic.Positivity

/-!
# Binary floating point

A number is rounded to a significand of some bits, to the nearest one and half-way to the even
one.  Exponents have no bounds, so nothing overflows or underflows.

## Main definitions

- `roundEven`: the nearest integer
- `roundTo`: the nearest number with `p` bits
- `Representable`: the numbers with `p` bits
- `f64`, `F64.add`, `F64.sub`, `F64.mul`, `F64.div`: the arithmetic with 53 bits

## Main results

- `roundTo_mono`: rounding keeps the order
- `Representable.roundTo_eq`: what has `p` bits stays as it is
- `abs_roundTo_sub_le`: how far a number is moved
- `F64.mul_eq_mul`, `F64.div_eq_mul`: products and quotients are exact up to a factor
-/

namespace AlphaMonitor.Lib

/-! ## To an integer -/

/-- The nearest integer, of two the even one. -/
def roundEven (x : ℚ) : ℤ :=
  if Int.fract x < 1 / 2 then ⌊x⌋
  else if Int.fract x > 1 / 2 then ⌊x⌋ + 1
  else if ⌊x⌋ % 2 = 0 then ⌊x⌋ else ⌊x⌋ + 1

@[simp] theorem roundEven_intCast (n : ℤ) : roundEven n = n := by
  simp [roundEven]

/-- The neighbour below or the one above. -/
theorem roundEven_cases (x : ℚ) :
    roundEven x = ⌊x⌋ ∧ Int.fract x ≤ 1 / 2 ∨ roundEven x = ⌊x⌋ + 1 ∧ 1 / 2 ≤ Int.fract x := by
  unfold roundEven
  split
  · rename_i hlow
    exact Or.inl ⟨rfl, hlow.le⟩
  · rename_i hlow
    have hlow := not_lt.mp hlow
    split
    · exact Or.inr ⟨rfl, hlow⟩
    · rename_i hhigh
      have hhigh := not_lt.mp hhigh
      split
      · exact Or.inl ⟨rfl, hhigh⟩
      · exact Or.inr ⟨rfl, hlow⟩

theorem abs_roundEven_sub (x : ℚ) : |(roundEven x : ℚ) - x| ≤ 1 / 2 := by
  have hsplit := Int.floor_add_fract x
  have hone := Int.fract_lt_one x
  have hzero := Int.fract_nonneg x
  rw [abs_le]
  rcases roundEven_cases x with ⟨hround, hle⟩ | ⟨hround, hle⟩
  · rw [hround]
    constructor <;> linarith
  · rw [hround]
    push_cast
    constructor <;> linarith

theorem roundEven_mono {x y : ℚ} (hxy : x ≤ y) : roundEven x ≤ roundEven y := by
  rcases (Int.floor_le_floor hxy).lt_or_eq with hlt | heq
  · -- another integer lies between them
    have hx : roundEven x ≤ ⌊x⌋ + 1 := by
      rcases roundEven_cases x with ⟨hround, -⟩ | ⟨hround, -⟩ <;> omega
    have hy : ⌊y⌋ ≤ roundEven y := by
      rcases roundEven_cases y with ⟨hround, -⟩ | ⟨hround, -⟩ <;> omega
    omega
  · have hfract : Int.fract x ≤ Int.fract y := by
      unfold Int.fract
      rw [heq]
      linarith
    unfold roundEven
    rw [heq]
    split_ifs <;> first | omega | (exfalso; linarith)

theorem roundEven_neg (x : ℚ) : roundEven (-x) = -roundEven x := by
  by_cases hint : Int.fract x = 0
  · obtain ⟨n, rfl⟩ : ∃ n : ℤ, x = n := ⟨⌊x⌋, (Int.self_sub_fract x).symm ▸ by rw [hint, sub_zero]⟩
    rw [roundEven_intCast, ← Int.cast_neg, roundEven_intCast]
  · have hfract : Int.fract (-x) = 1 - Int.fract x := Int.fract_neg hint
    have hfloor : ⌊-x⌋ = -⌊x⌋ - 1 := by
      have hsum := Int.floor_add_fract (-x)
      have hsum' := Int.floor_add_fract x
      have hcast : ((⌊-x⌋ : ℤ) : ℚ) = ((-⌊x⌋ - 1 : ℤ) : ℚ) := by
        push_cast
        linarith
      exact_mod_cast hcast
    unfold roundEven
    rw [hfract, hfloor]
    split_ifs <;> first | omega | (exfalso; linarith)

/-! ## To some bits -/

/-- The exponent of the last of `p` bits. -/
def lastPlace (p : ℕ) (x : ℚ) : ℤ := Int.log 2 |x| + 1 - p

/-- The nearest number with `p` bits, of two the one with an even significand. -/
def roundTo (p : ℕ) (x : ℚ) : ℚ := roundEven (x / 2 ^ lastPlace p x) * 2 ^ lastPlace p x

/-- A number with a significand of `p` bits. -/
def Representable (p : ℕ) (x : ℚ) : Prop := ∃ m e : ℤ, |m| ≤ 2 ^ p ∧ x = m * 2 ^ e

variable {p : ℕ} {x y : ℚ}

@[simp] theorem roundTo_zero (p : ℕ) : roundTo p 0 = 0 := by
  simp [roundTo, roundEven]

@[simp] theorem roundTo_neg (p : ℕ) (x : ℚ) : roundTo p (-x) = -roundTo p x := by
  have hplace : lastPlace p (-x) = lastPlace p x := by
    unfold lastPlace
    rw [abs_neg]
  unfold roundTo
  rw [hplace, neg_div, roundEven_neg]
  push_cast
  ring

theorem two_zpow_log_le (hx : x ≠ 0) : (2 : ℚ) ^ Int.log 2 |x| ≤ |x| := by
  have h := Int.zpow_log_le_self (b := 2) (by decide) (abs_pos.mpr hx)
  exact_mod_cast h

theorem lt_two_zpow_log (x : ℚ) : |x| < (2 : ℚ) ^ (Int.log 2 |x| + 1) := by
  have h := Int.lt_zpow_succ_log_self (b := 2) (by decide) |x|
  exact_mod_cast h

/-- A number is moved by half of its last place at most. -/
theorem abs_roundTo_sub_le (p : ℕ) (x : ℚ) : |roundTo p x - x| ≤ |x| / 2 ^ p := by
  by_cases hx : x = 0
  · rw [hx, roundTo_zero, sub_zero, abs_zero, zero_div]
  · have hpos : (0 : ℚ) < 2 ^ lastPlace p x := by positivity
    have hscaled : roundTo p x - x =
        ((roundEven (x / 2 ^ lastPlace p x) : ℚ) - x / 2 ^ lastPlace p x) *
          2 ^ lastPlace p x := by
      rw [sub_mul, div_mul_cancel₀ _ hpos.ne', roundTo]
    have hplace : (1 / 2 : ℚ) * 2 ^ lastPlace p x = 2 ^ Int.log 2 |x| / 2 ^ p := by
      have htwo : (2 : ℚ) ≠ 0 := two_ne_zero
      rw [lastPlace, sub_eq_add_neg, zpow_add₀ htwo, zpow_add₀ htwo, zpow_one, zpow_neg,
        zpow_natCast]
      ring
    calc |roundTo p x - x|
        = |(roundEven (x / 2 ^ lastPlace p x) : ℚ) - x / 2 ^ lastPlace p x| *
            2 ^ lastPlace p x := by rw [hscaled, abs_mul, abs_of_pos hpos]
      _ ≤ 1 / 2 * 2 ^ lastPlace p x := mul_le_mul_of_nonneg_right (abs_roundEven_sub _) hpos.le
      _ = 2 ^ Int.log 2 |x| / 2 ^ p := hplace
      _ ≤ |x| / 2 ^ p := div_le_div_of_nonneg_right (two_zpow_log_le hx) (by positivity)

/-- A multiple of the last place, in units of it. -/
theorem multiple_div {m e : ℤ} (hy : y = m * 2 ^ e) (hplace : lastPlace p x ≤ e) :
    ∃ n : ℤ, y / 2 ^ lastPlace p x = n ∧ (n : ℚ) * 2 ^ lastPlace p x = y := by
  obtain ⟨k, hk⟩ := Int.eq_ofNat_of_zero_le (sub_nonneg.mpr hplace)
  have hpos : (2 : ℚ) ^ lastPlace p x ≠ 0 := by positivity
  have hint : y / 2 ^ lastPlace p x = ((m * 2 ^ k : ℤ) : ℚ) := by
    rw [div_eq_iff hpos]
    push_cast
    rw [mul_assoc, ← zpow_natCast, ← zpow_add₀ two_ne_zero, ← hk, sub_add_cancel]
    exact hy
  exact ⟨_, hint, by rw [← hint, div_mul_cancel₀ _ hpos]⟩

/-- A multiple of the last place stays as it is. -/
theorem roundTo_of_multiple {m e : ℤ} (hx : x = m * 2 ^ e) (hplace : lastPlace p x ≤ e) :
    roundTo p x = x := by
  obtain ⟨n, hdiv, hmul⟩ := multiple_div hx hplace
  unfold roundTo
  rw [hdiv, roundEven_intCast, hmul]

/-- Rounding does not go past a multiple of the last place. -/
theorem roundTo_le_multiple {m e : ℤ} (hy : y = m * 2 ^ e) (hplace : lastPlace p x ≤ e)
    (hxy : x ≤ y) : roundTo p x ≤ y := by
  have hpos : (0 : ℚ) < 2 ^ lastPlace p x := by positivity
  obtain ⟨n, hdiv, hmul⟩ := multiple_div hy hplace
  have hle : roundEven (x / 2 ^ lastPlace p x) ≤ n := by
    rw [← roundEven_intCast n, ← hdiv]
    exact roundEven_mono (div_le_div_of_nonneg_right hxy hpos.le)
  have hcast : ((roundEven (x / 2 ^ lastPlace p x) : ℤ) : ℚ) ≤ n := by exact_mod_cast hle
  rw [← hmul]
  exact mul_le_mul_of_nonneg_right hcast hpos.le

theorem multiple_le_roundTo {m e : ℤ} (hy : y = m * 2 ^ e) (hplace : lastPlace p x ≤ e)
    (hyx : y ≤ x) : y ≤ roundTo p x := by
  have hneg := @roundTo_le_multiple p (-x) (-y) (-m) e (by rw [hy]; push_cast; ring)
    (by unfold lastPlace at hplace ⊢; rwa [abs_neg]) (neg_le_neg hyx)
  rw [roundTo_neg] at hneg
  exact neg_le_neg_iff.mp hneg

theorem lastPlace_le {m e : ℤ} (hm : |m| < 2 ^ p) (hm0 : m ≠ 0) (hx : x = m * 2 ^ e) :
    lastPlace p x ≤ e := by
  have hx0 : x ≠ 0 := by
    rw [hx]
    positivity
  have hbound : (2 : ℚ) ^ Int.log 2 |x| < 2 ^ (p + e : ℤ) := by
    have habs : |x| = ((|m| : ℤ) : ℚ) * 2 ^ e := by
      rw [hx, abs_mul, abs_of_pos (show (0 : ℚ) < 2 ^ e by positivity), Int.cast_abs]
    have hcast : ((|m| : ℤ) : ℚ) < 2 ^ p := by exact_mod_cast hm
    calc (2 : ℚ) ^ Int.log 2 |x| ≤ |x| := two_zpow_log_le hx0
      _ = ((|m| : ℤ) : ℚ) * 2 ^ e := habs
      _ < 2 ^ p * 2 ^ e := mul_lt_mul_of_pos_right hcast (by positivity)
      _ = 2 ^ (p + e : ℤ) := by rw [zpow_add₀ two_ne_zero, zpow_natCast]
  have hlog := (zpow_lt_zpow_iff_right₀ (by norm_num : (1 : ℚ) < 2)).mp hbound
  unfold lastPlace
  omega

/-- What has `p` bits stays as it is. -/
theorem Representable.roundTo_eq (hp : 0 < p) (h : Representable p x) : roundTo p x = x := by
  obtain ⟨m, e, hm, hx⟩ := h
  by_cases hm0 : m = 0
  · rw [hx, hm0]
    simp
  rcases hm.lt_or_eq with hlt | heq
  · exact roundTo_of_multiple hx (lastPlace_le hlt hm0 hx)
  · -- a power of two has one bit
    obtain ⟨q, rfl⟩ : ∃ q, p = q + 1 := ⟨p - 1, by omega⟩
    obtain ⟨s, hs, hms⟩ : ∃ s : ℤ, |s| = 2 ^ q ∧ m = s * 2 := by
      rcases abs_eq (by positivity) |>.mp heq with hm | hm
      · exact ⟨2 ^ q, abs_of_pos (by positivity), by rw [hm, pow_succ]⟩
      · exact ⟨-2 ^ q, by rw [abs_neg, abs_of_pos (by positivity)], by rw [hm, pow_succ]; ring⟩
    have hx' : x = s * 2 ^ (e + 1) := by
      rw [hx, hms, zpow_add₀ two_ne_zero, zpow_one]
      push_cast
      ring
    refine roundTo_of_multiple hx' (lastPlace_le ?_ ?_ hx')
    · rw [hs, pow_succ]
      have hpos : (0 : ℤ) < 2 ^ q := by positivity
      omega
    · rintro rfl
      simp at hms
      exact hm0 hms

theorem representable_roundTo (p : ℕ) (x : ℚ) : Representable p (roundTo p x) := by
  refine ⟨roundEven (x / 2 ^ lastPlace p x), lastPlace p x, ?_, rfl⟩
  have hpos : (0 : ℚ) < 2 ^ lastPlace p x := by positivity
  have hbound : |x / 2 ^ lastPlace p x| ≤ ((2 ^ p : ℤ) : ℚ) := by
    rw [abs_div, abs_of_pos hpos, div_le_iff₀ hpos]
    push_cast
    rw [← zpow_natCast, ← zpow_add₀ two_ne_zero]
    have hexp : (p : ℤ) + lastPlace p x = Int.log 2 |x| + 1 := by
      unfold lastPlace
      omega
    rw [hexp]
    exact (lt_two_zpow_log x).le
  rw [abs_le] at hbound ⊢
  have hhigh := roundEven_mono hbound.2
  have hlow := roundEven_mono hbound.1
  rw [← Int.cast_neg] at hlow
  rw [roundEven_intCast] at hlow hhigh
  exact ⟨hlow, hhigh⟩

theorem roundTo_roundTo (hp : 0 < p) (x : ℚ) : roundTo p (roundTo p x) = roundTo p x :=
  (representable_roundTo p x).roundTo_eq hp

theorem roundTo_nonneg (p : ℕ) (hx : 0 ≤ x) : 0 ≤ roundTo p x := by
  have h := abs_roundTo_sub_le p x
  rw [abs_of_nonneg hx, abs_le] at h
  have hle : x / 2 ^ p ≤ x := div_le_self hx (one_le_pow₀ one_le_two)
  linarith [h.1]

theorem roundTo_pos (hp : 0 < p) (hx : 0 < x) : 0 < roundTo p x := by
  have h := abs_roundTo_sub_le p x
  rw [abs_of_pos hx, abs_le] at h
  have hlt : x / 2 ^ p < x := div_lt_self hx (one_lt_pow₀ one_lt_two hp.ne')
  linarith [h.1]

/-- Rounding keeps the order of numbers that are not negative. -/
theorem roundTo_le_of_nonneg (hp : 0 < p) (hx : 0 ≤ x) (hxy : x ≤ y) :
    roundTo p x ≤ roundTo p y := by
  rcases hx.lt_or_eq with hx | rfl
  · have hy : 0 < y := hx.trans_le hxy
    have hlog : Int.log 2 |x| ≤ Int.log 2 |y| := by
      rw [abs_of_pos hx, abs_of_pos hy]
      exact Int.log_mono_right hx hxy
    have hplaceX : (0 : ℚ) < 2 ^ lastPlace p x := by positivity
    rcases hlog.lt_or_eq with hlt | heq
    · -- a power of two lies between them
      have hpower : (2 : ℚ) ^ Int.log 2 |y| = ((1 : ℤ) : ℚ) * 2 ^ Int.log 2 |y| := by
        rw [Int.cast_one, one_mul]
      have hxpow : x ≤ 2 ^ Int.log 2 |y| := by
        calc x = |x| := (abs_of_pos hx).symm
          _ ≤ 2 ^ (Int.log 2 |x| + 1) := (lt_two_zpow_log x).le
          _ ≤ 2 ^ Int.log 2 |y| := zpow_le_zpow_right₀ (by norm_num) (by omega)
      have hypow : (2 : ℚ) ^ Int.log 2 |y| ≤ y := by
        have h := two_zpow_log_le hy.ne'
        rwa [abs_of_pos hy] at h ⊢
      exact (roundTo_le_multiple hpower (by unfold lastPlace; omega) hxpow).trans
        (multiple_le_roundTo hpower (by unfold lastPlace; omega) hypow)
    · have hplace : lastPlace p x = lastPlace p y := by
        unfold lastPlace
        rw [heq]
      unfold roundTo
      rw [← hplace]
      have hdiv : x / 2 ^ lastPlace p x ≤ y / 2 ^ lastPlace p x :=
        div_le_div_of_nonneg_right hxy hplaceX.le
      have hround : ((roundEven (x / 2 ^ lastPlace p x) : ℤ) : ℚ) ≤
          roundEven (y / 2 ^ lastPlace p x) := by exact_mod_cast roundEven_mono hdiv
      exact mul_le_mul_of_nonneg_right hround hplaceX.le
  · rw [roundTo_zero]
    exact roundTo_nonneg p hxy

/-- Rounding keeps the order. -/
theorem roundTo_mono (hp : 0 < p) : Monotone (roundTo p) := by
  intro x y hxy
  rcases le_total 0 x with hx | hx
  · exact roundTo_le_of_nonneg hp hx hxy
  · rcases le_total 0 y with hy | hy
    · have hneg := roundTo_nonneg p (neg_nonneg.mpr hx)
      rw [roundTo_neg] at hneg
      exact (neg_nonneg.mp hneg).trans (roundTo_nonneg p hy)
    · have hle := roundTo_le_of_nonneg hp (neg_nonneg.mpr hy) (neg_le_neg hxy)
      rwa [roundTo_neg, roundTo_neg, neg_le_neg_iff] at hle

/-- One can be subtracted from a number above it without rounding. -/
theorem Representable.sub_one (h : Representable p x) (hone : 1 ≤ x)
    (hle : x ≤ 2 ^ p) : Representable p (x - 1) := by
  obtain ⟨m, e, hm, rfl⟩ := h
  rcases le_or_gt e 0 with he | he
  · obtain ⟨k, hk⟩ := Int.eq_ofNat_of_zero_le (neg_nonneg.mpr he)
    have hscale : ((2 ^ k : ℤ) : ℚ) * 2 ^ e = 1 := by
      push_cast
      rw [← zpow_natCast, ← zpow_add₀ two_ne_zero, ← hk, neg_add_cancel, zpow_zero]
    have hpos : (0 : ℚ) < 2 ^ e := by positivity
    have hkm : (2 ^ k : ℤ) ≤ m := by
      have hle' : ((2 ^ k : ℤ) : ℚ) * 2 ^ e ≤ m * 2 ^ e := by rw [hscale]; exact hone
      exact_mod_cast le_of_mul_le_mul_right hle' hpos
    have hk0 : (0 : ℤ) < 2 ^ k := by positivity
    refine ⟨m - 2 ^ k, e, ?_, ?_⟩
    · rw [abs_of_nonneg (by omega)]
      rw [abs_of_nonneg (by omega)] at hm
      omega
    · push_cast at hscale ⊢
      rw [sub_mul, hscale]
  · obtain ⟨k, rfl⟩ := Int.eq_ofNat_of_zero_le he.le
    have hcast : (m : ℚ) * 2 ^ (k : ℤ) = ((m * 2 ^ k : ℤ) : ℚ) := by
      push_cast
      rw [zpow_natCast]
    rw [hcast] at hone hle ⊢
    have hone' : (1 : ℤ) ≤ m * 2 ^ k := by exact_mod_cast hone
    have hle' : m * 2 ^ k ≤ (2 ^ p : ℤ) := by exact_mod_cast hle
    refine ⟨m * 2 ^ k - 1, 0, ?_, ?_⟩
    · rw [abs_of_nonneg (by omega)]
      omega
    · push_cast
      rw [mul_one]

/-! ## Arithmetic with 53 bits -/

/-- The number as a `f64`. -/
def f64 (x : ℚ) : ℚ := roundTo 53 x

@[simp] theorem f64_zero : f64 0 = 0 := roundTo_zero 53

@[simp] theorem f64_f64 (x : ℚ) : f64 (f64 x) = f64 x := roundTo_roundTo (by decide) x

theorem f64_mono : Monotone f64 := roundTo_mono (by decide)

theorem f64_pos (hx : 0 < x) : 0 < f64 x := roundTo_pos (by decide) hx

theorem f64_nonneg (hx : 0 ≤ x) : 0 ≤ f64 x := roundTo_nonneg 53 hx

theorem f64_pos_iff : 0 < f64 x ↔ 0 < x := by
  refine ⟨fun h => ?_, f64_pos⟩
  by_contra hneg
  have hle := f64_mono (not_lt.mp hneg)
  rw [f64_zero] at hle
  exact absurd h (not_lt.mpr hle)

theorem abs_f64_sub_le (x : ℚ) : |f64 x - x| ≤ |x| / 2 ^ 53 := abs_roundTo_sub_le 53 x

theorem le_f64_of (hx : 0 ≤ x) : x - x / 2 ^ 53 ≤ f64 x := by
  have h := abs_f64_sub_le x
  rw [abs_of_nonneg hx] at h
  linarith [(abs_le.mp h).1]

theorem f64_le_of (hx : 0 ≤ x) : f64 x ≤ x + x / 2 ^ 53 := by
  have h := abs_f64_sub_le x
  rw [abs_of_nonneg hx] at h
  linarith [(abs_le.mp h).2]

/-- The error in terms of a bound of the number. -/
theorem abs_f64_sub_le_of {b : ℚ} (hx : |x| ≤ b) : |f64 x - x| ≤ b / 2 ^ 53 :=
  (abs_f64_sub_le x).trans (div_le_div_of_nonneg_right hx (by positivity))

/-- A number is not made much smaller. -/
theorem abs_le_two_mul_abs_f64 (x : ℚ) : |x| ≤ 2 * |f64 x| := by
  have h := abs_f64_sub_le x
  have htri := abs_sub_abs_le_abs_sub x (f64 x)
  rw [abs_sub_comm] at htri
  have hpos := abs_nonneg x
  linarith

/-- An integer of 53 bits, times a power of two. -/
theorem f64_eq {m e : ℤ} (hm : |m| ≤ 2 ^ 53) : f64 (m * 2 ^ e) = m * 2 ^ e :=
  Representable.roundTo_eq (by decide) ⟨m, e, hm, rfl⟩

/-- An integer stays an integer. -/
theorem f64_intCast (n : ℤ) : ∃ m : ℤ, f64 n = m := by
  by_cases hn : |n| ≤ 2 ^ 53
  · have h := f64_eq (e := 0) hn
    rw [zpow_zero, mul_one] at h
    exact ⟨n, h⟩
  · -- the last place of a large one is an integer
    have hlog : 53 ≤ Int.log 2 |(n : ℚ)| := by
      have hle : ((2 : ℕ) : ℚ) ^ (53 : ℤ) ≤ |(n : ℚ)| := by
        rw [← Int.cast_abs]
        exact_mod_cast (not_le.mp hn).le
      have hmono := Int.log_mono_right (b := 2) (by positivity) hle
      rwa [Int.log_zpow (by decide)] at hmono
    obtain ⟨k, hk⟩ := Int.eq_ofNat_of_zero_le (show 0 ≤ lastPlace 53 (n : ℚ) by
      unfold lastPlace
      omega)
    refine ⟨roundEven ((n : ℚ) / 2 ^ lastPlace 53 (n : ℚ)) * 2 ^ k, ?_⟩
    unfold f64 roundTo
    rw [hk, zpow_natCast]
    push_cast
    rfl

namespace F64

def add (x y : ℚ) : ℚ := f64 (f64 x + f64 y)

def sub (x y : ℚ) : ℚ := f64 (f64 x - f64 y)

def mul (x y : ℚ) : ℚ := f64 (f64 x * f64 y)

def div (x y : ℚ) : ℚ := f64 (f64 x / f64 y)

@[simp] theorem f64_add (x y : ℚ) : f64 (add x y) = add x y := f64_f64 _

@[simp] theorem f64_sub (x y : ℚ) : f64 (sub x y) = sub x y := f64_f64 _

@[simp] theorem f64_mul (x y : ℚ) : f64 (mul x y) = mul x y := f64_f64 _

@[simp] theorem f64_div (x y : ℚ) : f64 (div x y) = div x y := f64_f64 _

variable {x' y' : ℚ}

theorem add_le_add (hx : x ≤ x') (hy : y ≤ y') : add x y ≤ add x' y' :=
  f64_mono (by linarith [f64_mono hx, f64_mono hy])

theorem sub_le_sub (hx : x ≤ x') (hy : y' ≤ y) : sub x y ≤ sub x' y' :=
  f64_mono (by linarith [f64_mono hx, f64_mono hy])

theorem mul_comm (x y : ℚ) : mul x y = mul y x := by
  unfold mul
  ring_nf

theorem mul_le_mul_left (hx : 0 ≤ x) (hy : y ≤ y') : mul x y ≤ mul x y' :=
  f64_mono (mul_le_mul_of_nonneg_left (f64_mono hy) (f64_nonneg hx))

theorem mul_le_mul_right (hy : 0 ≤ y) (hx : x ≤ x') : mul x y ≤ mul x' y := by
  rw [mul_comm x, mul_comm x']
  exact mul_le_mul_left hy hx

theorem div_le_div_right (hy : 0 ≤ y) (hx : x ≤ x') : div x y ≤ div x' y :=
  f64_mono (div_le_div_of_nonneg_right (f64_mono hx) (f64_nonneg hy))

end F64

/-! ## Relative errors -/

/-- The factor that one rounding stays within. -/
def roundingUnit : ℚ := 1 + 1 / 2 ^ 52

theorem one_le_roundingUnit : 1 ≤ roundingUnit := by
  norm_num [roundingUnit]

/-- A factor that `n` roundings stay within. -/
structure RoundingFactor (n : ℕ) (ρ : ℚ) : Prop where
  pos : 0 < ρ
  le : ρ ≤ roundingUnit ^ n
  ge : 1 ≤ ρ * roundingUnit ^ n

namespace RoundingFactor

variable {m n : ℕ} {ρ σ : ℚ}

theorem mul (hρ : RoundingFactor m ρ) (hσ : RoundingFactor n σ) :
    RoundingFactor (m + n) (ρ * σ) := by
  refine ⟨mul_pos hρ.pos hσ.pos, ?_, ?_⟩
  · rw [pow_add]
    exact mul_le_mul hρ.le hσ.le hσ.pos.le (hρ.pos.le.trans hρ.le)
  · calc (1 : ℚ) = 1 * 1 := (one_mul 1).symm
      _ ≤ ρ * roundingUnit ^ m * (σ * roundingUnit ^ n) :=
        mul_le_mul hρ.ge hσ.ge zero_le_one (zero_le_one.trans hρ.ge)
      _ = ρ * σ * roundingUnit ^ (m + n) := by ring

theorem inv (hρ : RoundingFactor n ρ) : RoundingFactor n ρ⁻¹ := by
  refine ⟨inv_pos.mpr hρ.pos, ?_, ?_⟩
  · rw [inv_le_iff_one_le_mul₀' hρ.pos]
    exact hρ.ge
  · rw [inv_mul_eq_div, one_le_div hρ.pos]
    exact hρ.le

theorem mono (hρ : RoundingFactor m ρ) (hmn : m ≤ n) : RoundingFactor n ρ := by
  have hpow : roundingUnit ^ m ≤ roundingUnit ^ n := pow_le_pow_right₀ one_le_roundingUnit hmn
  exact ⟨hρ.pos, hρ.le.trans hpow, hρ.ge.trans (mul_le_mul_of_nonneg_left hpow hρ.pos.le)⟩

/-- The factor is about one. -/
theorem abs_sub_one_le (hρ : RoundingFactor n ρ) : |ρ - 1| ≤ roundingUnit ^ n - 1 := by
  have hone : 1 ≤ roundingUnit ^ n := one_le_pow₀ one_le_roundingUnit
  rw [abs_le]
  constructor
  · have hle : ρ * roundingUnit ^ n ≤ ρ + (roundingUnit ^ n - 1) * roundingUnit ^ n := by
      have hmul := mul_le_mul_of_nonneg_right hρ.le (sub_nonneg.mpr hone)
      linarith
    nlinarith [hρ.ge]
  · linarith [hρ.le]

end RoundingFactor

theorem f64_eq_mul (x : ℚ) : ∃ ρ, RoundingFactor 1 ρ ∧ f64 x = x * ρ := by
  by_cases hx : x = 0
  · refine ⟨1, ⟨one_pos, ?_, ?_⟩, by rw [hx, f64_zero, zero_mul]⟩
    · rw [pow_one]
      exact one_le_roundingUnit
    · rw [pow_one, one_mul]
      exact one_le_roundingUnit
  · have hpos : 0 < |x| := abs_pos.mpr hx
    have herror := abs_f64_sub_le x
    have hratio : |f64 x / x - 1| ≤ 1 / 2 ^ 53 := by
      rw [div_sub_one hx, abs_div, div_le_iff₀ hpos]
      linarith
    rw [abs_le] at hratio
    refine ⟨f64 x / x, ⟨?_, ?_, ?_⟩, (mul_div_cancel₀ _ hx).symm⟩
    · linarith
    · rw [pow_one, roundingUnit]
      linarith
    · rw [pow_one, roundingUnit]
      linarith

namespace F64

theorem mul_eq_mul (x y : ℚ) : ∃ ρ, RoundingFactor 3 ρ ∧ mul x y = x * y * ρ := by
  obtain ⟨ρ, hρ, hx⟩ := f64_eq_mul x
  obtain ⟨σ, hσ, hy⟩ := f64_eq_mul y
  obtain ⟨τ, hτ, hprod⟩ := f64_eq_mul (f64 x * f64 y)
  refine ⟨ρ * σ * τ, (hρ.mul hσ).mul hτ, ?_⟩
  rw [mul, hprod, hx, hy]
  ring

theorem div_eq_mul (x y : ℚ) : ∃ ρ, RoundingFactor 3 ρ ∧ div x y = x / y * ρ := by
  obtain ⟨ρ, hρ, hx⟩ := f64_eq_mul x
  obtain ⟨σ, hσ, hy⟩ := f64_eq_mul y
  obtain ⟨τ, hτ, hquot⟩ := f64_eq_mul (f64 x / f64 y)
  refine ⟨ρ * σ⁻¹ * τ, (hρ.mul hσ.inv).mul hτ, ?_⟩
  rw [div, hquot, hx, hy, mul_div_mul_comm, div_eq_mul_inv ρ σ]
  ring

end F64

end AlphaMonitor.Lib
