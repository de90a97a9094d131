import AlphaMonitor.Exchange.OrderAmounts
import AlphaMonitor.Trade.ExitPrices
import Mathlib.Data.Nat.Digits.Lemmas

/-!
# From an order of the engine to signed amounts

The engine asks for a quantity at a price.  The client turns both into decimals, and those
into the amounts of an order, which are signed.  On the way the quantity is rounded three
times: to eighteen places, to the units of the token, and to four significant digits that
are then cut to a multiple of the price's units.

## Main definitions

- `computeMakerAmount`, `safeAmountToWei`: what the maker is to give
- `buildOrder`: the part of `place_limit_order` before the signature

## Main results

- `signed_amounts_error`: the amount that is signed against the amount that was asked for
- `signed_shares_error`: the shares that are signed against the engine's quantity
-/

namespace AlphaMonitor.Exchange

open Lib (f64 f64_le_of le_f64_of abs_f64_sub_le_of abs_le_two_mul_abs_f64)
open Trade (OnGrid OrderAmount OrderSide abs_sub_le_of_checked formatPriceChecked orderAmount
  validatePrice)

/-! ## Decimals -/

/-- `MAX_DECIMALS`. -/
def maxDecimals : ℕ := 18

/-- The mantissa of a decimal has 96 bits. -/
def decimalBound : ℚ := 2 ^ 96

/-- A product or a quotient of decimals; the library panics when there is no room for it. -/
def decimalResult (value : ℚ) : Except String ℚ :=
  if |value| < decimalBound then .ok value else .error "overflowed"

/-- `decimal_from_f64`: eighteen places; how ties are rounded does not matter. -/
def decimalFromF64 (value : ℚ) : Except String ℚ :=
  let rounded : ℚ := round (value * 10 ^ 18) / 10 ^ 18
  if |rounded| < decimalBound then .ok rounded else .error "invalid decimal format"

/-- `{:.6}` of a price below one, given in millionths. -/
def sixDecimals (millionths : ℕ) : String :=
  String.ofList ('0' :: '.' ::
    [100000, 10000, 1000, 100, 10, 1].map fun place => (millionths / place % 10).digitChar)

/-! ## Amounts -/

/-- An amount of one at least. -/
def minimalAmount (name : String) (value : ℚ) : Except String ℚ :=
  (decimalFromF64 value).bind fun amount =>
    if amount < 1 then .error (name ++ " must be at least 1") else .ok amount

/-- The amount of the maker, before it is checked to be positive. -/
def makerAmountOf (side : OrderSide) (amount : OrderAmount) (price : ℚ) : Except String ℚ :=
  match side with
  | .buy =>
    match amount with
    | .base value =>
      (minimalAmount "makerAmountInBaseToken" value).bind fun base => decimalResult (base * price)
    | .quote value => minimalAmount "makerAmountInQuoteToken" value
  | .sell =>
    match amount with
    | .base value => minimalAmount "makerAmountInBaseToken" value
    | .quote value =>
      (minimalAmount "makerAmountInQuoteToken" value).bind fun quote =>
        if price = 0 then
          .error "Price cannot be zero for SELL orders with makerAmountInQuoteToken"
        else decimalResult (quote / price)

/-- `compute_maker_amount`. -/
def computeMakerAmount (fromStr : String → Option Decimal) (side : OrderSide)
    (amount : OrderAmount) (priceStr : String) : Except String ℚ :=
  match fromStr priceStr with
  | none => .error "invalid price"
  | some price =>
    (makerAmountOf side amount price.value).bind fun makerAmount =>
      if makerAmount ≤ 0 then .error "Calculated makerAmount must be positive"
      else .ok makerAmount

/-- `safe_amount_to_wei`. -/
def safeAmountToWei (amount : ℚ) (decimals : ℕ) : Except String ℕ :=
  if amount ≤ 0 then .error "Amount must be positive"
  else if decimals > maxDecimals then .error "Decimals must be between 0 and 18"
  else
    (decimalResult (amount * 10 ^ decimals)).bind fun product =>
      if ⌊product⌋ ≤ 0 then .error "Calculated amount is zero or negative"
      else .ok ⌊product⌋.toNat

/-! ## The order -/

/-- What is signed of an order, with the price that is posted beside it. -/
structure SignedOrder where
  price : String
  (makerAmount takerAmount : ℕ)
  deriving DecidableEq, Repr

/-- The price and the amounts of `place_limit_order`; `decimals` are those of the quote token. -/
def buildOrder (fromStr : String → Option Decimal) (side : OrderSide) (price : ℚ)
    (amount : OrderAmount) (decimals : ℕ) : Except String SignedOrder :=
  match validatePrice price with
  | none => .error "Price must be between 0.001 and 0.999 (inclusive)"
  | some rounded =>
    let priceStr := sixDecimals (round (rounded * 1000000)).toNat
    (computeMakerAmount fromStr side amount priceStr).bind fun makerAmount =>
      (safeAmountToWei makerAmount decimals).bind fun makerAmountWei =>
        (calculateOrderAmounts fromStr priceStr makerAmountWei side).map fun amounts =>
          ⟨priceStr, amounts.1, amounts.2⟩

/-- The shares that change hands when the order is filled. -/
def SignedOrder.shares (order : SignedOrder) : OrderSide → ℕ
  | .buy => order.takerAmount
  | .sell => order.makerAmount

/-! ## The text of a price -/

theorem isDigit_digitChar {d : ℕ} (h : d < 10) :
    d.digitChar.isDigit = true ∧ d.digitChar.toNat - 48 = d := by
  have hall : ∀ d : Fin 10,
      (d : ℕ).digitChar.isDigit = true ∧ (d : ℕ).digitChar.toNat - 48 = d := by decide
  exact hall ⟨d, h⟩

/-- The six places. -/
def places (millionths : ℕ) : List Char :=
  [100000, 10000, 1000, 100, 10, 1].map fun place => (millionths / place % 10).digitChar

theorem isDigit_places (millionths : ℕ) : ∀ c ∈ places millionths, c.isDigit = true := by
  intro c hc
  obtain ⟨place, -, rfl⟩ := List.mem_map.mp hc
  exact (isDigit_digitChar (Nat.mod_lt _ (by omega))).1

theorem digitsValue_places {millionths : ℕ} (h : millionths < 1000000) :
    digitsValue (places millionths) = millionths := by
  have hdigit : ∀ place, (millionths / place % 10).digitChar.toNat - 48 = millionths / place % 10 :=
    fun place => (isDigit_digitChar (Nat.mod_lt _ (by omega))).2
  simp only [digitsValue, places, List.map_cons, List.map_nil, List.foldl_cons, List.foldl_nil,
    hdigit]
  omega

theorem toList_sixDecimals (millionths : ℕ) :
    (sixDecimals millionths).toList = ['0'] ++ '.' :: places millionths := by
  rw [sixDecimals, String.toList_ofList]
  rfl

theorem splitOn_sixDecimals (millionths : ℕ) :
    (sixDecimals millionths).toList.splitOn '.' = [['0'], places millionths] := by
  have hpoint : '.' ∉ places millionths := fun hin => absurd (isDigit_places _ _ hin) (by decide)
  rw [toList_sixDecimals, List.splitOn_append_cons_self_of_not_mem (by decide),
    List.splitOn_eq_singleton hpoint]

theorem plainDigits_sixDecimals (millionths : ℕ) :
    plainDigits (sixDecimals millionths).toList = some (['0'], places millionths) := by
  have hstrip : stripPlus (sixDecimals millionths).toList = (sixDecimals millionths).toList := by
    rw [toList_sixDecimals]
    rfl
  unfold plainDigits
  rw [hstrip, splitOn_sixDecimals]
  exact if_pos ⟨rfl, List.all_eq_true.mpr (isDigit_places millionths)⟩

theorem plainValue_places {millionths : ℕ} (h : millionths < 1000000) :
    plainValue ['0'] (places millionths) = millionths / 1000000 := by
  have hlength : (places millionths).length = 6 := rfl
  rw [plainValue, digitsValue_append, digitsValue_places h, hlength]
  have hzero : digitsValue ['0'] = 0 := rfl
  rw [hzero, zero_mul, zero_add]
  norm_num

/-- The price that the text posts. -/
theorem postedPrice_sixDecimals {millionths : ℕ} (h : millionths < 1000000) :
    postedPrice (sixDecimals millionths) = some ((millionths : ℚ) / 1000000) := by
  rw [postedPrice, plainDigits_sixDecimals, Option.map_some, plainValue_places h]

/-- Its fraction in lowest terms. -/
theorem priceToFraction_sixDecimals {fromStr : String → Option Decimal} {millionths num denom : ℕ}
    (hlt : millionths < 1000000)
    (h : priceToFraction fromStr (sixDecimals millionths) = .ok (num, denom)) :
    num * Nat.gcd millionths 1000000 = millionths ∧
      denom * Nat.gcd millionths 1000000 = 1000000 := by
  obtain ⟨-, -, -, -, -, hcases⟩ := priceToFraction_ok h
  rw [splitOn_sixDecimals] at hcases
  rcases hcases with ⟨whole, -, hparts, -⟩ | ⟨whole, frac, wholeVal, fracVal, hparts, hwhole,
    hfrac, hreduce⟩ | hlong
  · exact absurd (List.cons.inj hparts).2 (List.cons_ne_nil _ _)
  · obtain ⟨rfl, htail⟩ := List.cons.inj hparts
    obtain ⟨rfl, -⟩ := List.cons.inj htail
    have hplaces : places millionths ≠ [] := List.cons_ne_nil _ _
    have hstrip : stripPlus (places millionths) = places millionths := by
      rcases stripPlus_cases (places millionths) with hsame | hplus
      · exact hsame
      · -- there is no sign among the digits
        have hsign : '+' ∈ places millionths := by
          rw [hplus]
          exact List.mem_cons_self
        exact absurd (isDigit_places _ _ hsign) (by decide)
    have hzero : wholeVal = 0 := (parseU64_some hwhole).2.2
    rw [if_neg hplaces] at hfrac
    have hvalue := (parseU64_some hfrac).2.2
    rw [hstrip, digitsValue_places hlt] at hvalue
    have hlength : (10 : ℕ) ^ (places millionths).length = 1000000 := by
      have hsix : (places millionths).length = 6 := rfl
      rw [hsix]
      norm_num
    rw [hzero, hvalue, hlength, zero_mul, zero_add, reduceFraction, if_neg (by omega),
      gcd_eq (by omega)] at hreduce
    obtain ⟨rfl, rfl⟩ := Prod.mk.inj (Except.ok.inj hreduce)
    exact ⟨Nat.div_mul_cancel (Nat.gcd_dvd_left _ _), Nat.div_mul_cancel (Nat.gcd_dvd_right _ _)⟩
  · exact absurd hlong (lt_irrefl 2)

/-! ## Four significant digits -/

theorem satMul_eq {a b : ℕ} (h : a * b ≤ u256Max) : satMul a b = a * b := min_eq_left h

theorem iterate_satMul {e : ℕ} (h : 10 ^ e ≤ u256Max) :
    (fun d => satMul d 10)^[e] 1 = 10 ^ e := by
  induction e with
  | zero => rfl
  | succ e ih =>
    rw [pow_succ] at h
    rw [Function.iterate_succ_apply', ih (le_trans (Nat.le_mul_of_pos_right _ (by omega)) h),
      satMul_eq h, pow_succ]

/-- The nearest multiple is at most half a divisor away. -/
theorem nearest_multiple {quotient remainder divisor rounded : ℕ} (hlt : remainder < divisor)
    (h : (rounded = quotient ∧ 2 * remainder ≤ divisor) ∨
      (rounded = quotient + 1 ∧ divisor ≤ 2 * remainder)) :
    2 * (rounded * divisor) ≤ 2 * (divisor * quotient + remainder) + divisor ∧
      2 * (divisor * quotient + remainder) ≤ 2 * (rounded * divisor) + divisor := by
  rcases h with ⟨rfl, hlow⟩ | ⟨rfl, hhigh⟩
  · rw [Nat.mul_comm rounded divisor]
    omega
  · rw [Nat.add_mul, one_mul, Nat.mul_comm quotient divisor]
    omega

/-- An amount keeps its significant digits. -/
theorem roundToSignificantDigits_error {value n : ℕ} (hn : 0 < n) (hfits : 2 * value ≤ u256Max) :
    |(roundToSignificantDigits value n : ℚ) - value| ≤ value / (2 * 10 ^ (n - 1)) := by
  have hnonneg : (0 : ℚ) ≤ value / (2 * 10 ^ (n - 1)) := by positivity
  unfold roundToSignificantDigits
  split
  · rename_i hzero
    simp [hzero]
  · rename_i hpos
    simp only
    split
    · simpa using hnonneg
    · rename_i hlong
      rw [not_le] at hlong
      -- the divisor is a thousandth of the value at most, for four digits
      have hdigits := Nat.base_pow_length_digits_le 10 value (by omega) hpos
      generalize (Nat.digits 10 value).length = magnitude at hlong hdigits
      have hsplit : 10 ^ magnitude = 10 * (10 ^ (n - 1) * 10 ^ (magnitude - n)) := by
        rw [← pow_add, ← pow_succ']
        congr 1
        omega
      rw [hsplit] at hdigits
      have hdivisor : 10 ^ (n - 1) * 10 ^ (magnitude - n) ≤ value := by omega
      have hone : 1 ≤ 10 ^ (n - 1) := Nat.one_le_pow _ _ (by omega)
      have hsmall : 10 ^ (magnitude - n) ≤ value :=
        le_trans (Nat.le_mul_of_pos_left _ hone) hdivisor
      rw [iterate_satMul (by omega)]
      have hpow : 0 < 10 ^ (magnitude - n) := Nat.pow_pos (by omega)
      generalize 10 ^ (magnitude - n) = divisor at hdivisor hsmall hpow
      have hlt := Nat.mod_lt value hpow
      have hvalue := Nat.div_add_mod value divisor
      have hquotient : value / divisor ≤ value := Nat.div_le_self _ _
      -- half a divisor is half a thousandth
      have hhalf : ∀ rounded : ℕ, 2 * (rounded * divisor) ≤ 2 * value + divisor →
          2 * value ≤ 2 * (rounded * divisor) + divisor →
            |((satMul rounded divisor : ℕ) : ℚ) - value| ≤ value / (2 * 10 ^ (n - 1)) := by
        intro rounded hhigh hlow
        rw [satMul_eq (by omega), le_div_iff₀ (by positivity)]
        have hhigh' : 2 * ((rounded * divisor : ℕ) : ℚ) ≤ 2 * value + divisor := by
          exact_mod_cast hhigh
        have hlow' : 2 * (value : ℚ) ≤ 2 * (rounded * divisor : ℕ) + divisor := by
          exact_mod_cast hlow
        have hdivisor' : (10 : ℚ) ^ (n - 1) * divisor ≤ value := by exact_mod_cast hdivisor
        have hdist : |((rounded * divisor : ℕ) : ℚ) - value| * 2 ≤ divisor := by
          rw [← le_div_iff₀ (by norm_num), abs_le]
          constructor <;> linarith
        calc |((rounded * divisor : ℕ) : ℚ) - value| * (2 * 10 ^ (n - 1))
            = |((rounded * divisor : ℕ) : ℚ) - value| * 2 * 10 ^ (n - 1) := by ring
          _ ≤ divisor * 10 ^ (n - 1) := mul_le_mul_of_nonneg_right hdist (by positivity)
          _ ≤ value := by rwa [mul_comm]
      have htwice : satMul (value % divisor) 2 = value % divisor * 2 := satMul_eq (by omega)
      have hnext : satAdd (value / divisor) 1 = value / divisor + 1 := min_eq_left (by omega)
      rw [htwice, hnext]
      have hnear : ∀ rounded, (rounded = value / divisor ∧ 2 * (value % divisor) ≤ divisor) ∨
          (rounded = value / divisor + 1 ∧ divisor ≤ 2 * (value % divisor)) →
            |((satMul rounded divisor : ℕ) : ℚ) - value| ≤ value / (2 * 10 ^ (n - 1)) := by
        intro rounded hcases
        obtain ⟨hhigh, hlow⟩ := nearest_multiple hlt hcases
        rw [hvalue] at hhigh hlow
        exact hhalf rounded hhigh hlow
      apply hnear
      split
      · exact Or.inr ⟨rfl, by omega⟩
      · split
        · exact Or.inr ⟨rfl, by omega⟩
        · exact Or.inl ⟨rfl, by omega⟩

/-! ## From the request to the amounts -/

/-- What succeeds has succeeded step by step. -/
theorem bind_ok {ε α β : Type*} {x : Except ε α} {f : α → Except ε β} {result : β}
    (h : x.bind f = .ok result) : ∃ a, x = .ok a ∧ f a = .ok result := by
  cases x with
  | error err => cases h
  | ok a => exact ⟨a, rfl, h⟩

/-- Half a unit of the eighteenth place. -/
def decimalError : ℚ := 1 / (2 * 10 ^ 18)

/-- What the maker is asked to give at a price. -/
def makerPart (side : OrderSide) (amount : OrderAmount) (price : ℚ) : ℚ :=
  match side, amount with
  | .buy, .base value => value * price
  | .buy, .quote value => value
  | .sell, .base value => value
  | .sell, .quote value => value / price

theorem decimalFromF64_ok {value amount : ℚ} (h : decimalFromF64 value = .ok amount) :
    |amount - value| ≤ decimalError := by
  simp only [decimalFromF64] at h
  split at h
  · cases h
    have hround := abs_sub_round (value * 10 ^ 18)
    rw [abs_sub_comm] at hround
    have hscale : (round (value * 10 ^ 18) : ℚ) / 10 ^ 18 - value =
        ((round (value * 10 ^ 18) : ℚ) - value * 10 ^ 18) / 10 ^ 18 := by
      rw [sub_div, mul_div_cancel_right₀ _ (by norm_num)]
    rw [hscale, abs_div, abs_of_pos (show (0 : ℚ) < 10 ^ 18 by norm_num), div_le_iff₀ (by norm_num)]
    rw [decimalError]
    linarith
  · cases h

theorem minimalAmount_ok {name : String} {value amount : ℚ}
    (h : minimalAmount name value = .ok amount) : |amount - value| ≤ decimalError := by
  obtain ⟨decimal, hdecimal, hcheck⟩ := bind_ok h
  split at hcheck
  · cases hcheck
  · cases hcheck
    exact decimalFromF64_ok hdecimal

theorem decimalResult_ok {value result : ℚ} (h : decimalResult value = .ok result) :
    result = value ∧ |value| < decimalBound := by
  unfold decimalResult at h
  split at h
  · rename_i hlt
    cases h
    exact ⟨rfl, hlt⟩
  · cases h

/-- A price between the bounds makes the error of the decimal at most a thousand times larger. -/
theorem makerAmountOf_ok {side : OrderSide} {amount : OrderAmount} {price makerAmount : ℚ}
    (hlow : 1 / 1000 ≤ price) (hhigh : price ≤ 1)
    (h : makerAmountOf side amount price = .ok makerAmount) :
    |makerAmount - makerPart side amount price| ≤ 1000 * decimalError := by
  have hweak : ∀ {error : ℚ}, error ≤ decimalError → error ≤ 1000 * decimalError :=
    fun herror => herror.trans (le_mul_of_one_le_left (by norm_num [decimalError]) (by norm_num))
  have hpos : 0 < price := lt_of_lt_of_le (by norm_num) hlow
  cases side with
  | buy =>
    cases amount with
    | base value =>
      obtain ⟨base, hbase, hresult⟩ := bind_ok h
      obtain ⟨rfl, -⟩ := decimalResult_ok hresult
      rw [makerPart, ← sub_mul, abs_mul, abs_of_pos hpos]
      exact hweak ((mul_le_of_le_one_right (abs_nonneg _) hhigh).trans (minimalAmount_ok hbase))
    | quote value => exact hweak (minimalAmount_ok h)
  | sell =>
    cases amount with
    | base value => exact hweak (minimalAmount_ok h)
    | quote value =>
      obtain ⟨quote, hquote, hresult⟩ := bind_ok h
      rw [if_neg hpos.ne'] at hresult
      obtain ⟨rfl, -⟩ := decimalResult_ok hresult
      rw [makerPart, ← sub_div, abs_div, abs_of_pos hpos, div_le_iff₀ hpos]
      calc |quote - value| ≤ decimalError := minimalAmount_ok hquote
        _ = 1000 * decimalError * (1 / 1000) := by ring
        _ ≤ 1000 * decimalError * price :=
          mul_le_mul_of_nonneg_left hlow (by norm_num [decimalError])

/-- The engine's amounts are in the token that the maker gives. -/
theorem makerAmountOf_live {side : OrderSide} {price qty value makerAmount : ℚ}
    (h : makerAmountOf side (orderAmount side price qty) value = .ok makerAmount) :
    |makerAmount - makerPart side (orderAmount side price qty) value| ≤ decimalError := by
  cases side with
  | buy => exact minimalAmount_ok h
  | sell => exact minimalAmount_ok h

theorem safeAmountToWei_ok {amount : ℚ} {decimals wei : ℕ}
    (h : safeAmountToWei amount decimals = .ok wei) :
    decimals ≤ 18 ∧ 0 < amount ∧ |(wei : ℚ) - amount * 10 ^ decimals| ≤ 1 ∧ wei < 2 ^ 96 := by
  unfold safeAmountToWei at h
  split at h
  · cases h
  · rename_i hpos
    split at h
    · cases h
    · rename_i hdecimals
      obtain ⟨product, hproduct, hcheck⟩ := bind_ok h
      obtain ⟨rfl, hbound⟩ := decimalResult_ok hproduct
      split at hcheck
      · cases hcheck
      · rename_i hfloor
        obtain rfl := (Except.ok.inj hcheck).symm
        rw [not_le] at hpos hfloor
        have hwei : ((⌊amount * 10 ^ decimals⌋.toNat : ℕ) : ℚ) = ⌊amount * 10 ^ decimals⌋ := by
          have hint := Int.toNat_of_nonneg hfloor.le
          exact_mod_cast congrArg (fun n : ℤ => (n : ℚ)) hint
        have hle := Int.floor_le (amount * 10 ^ decimals)
        have hlt := Int.lt_floor_add_one (amount * 10 ^ decimals)
        refine ⟨not_lt.mp hdecimals, hpos, ?_, ?_⟩
        · rw [hwei, abs_le]
          constructor <;> linarith
        · have hsmall : (⌊amount * 10 ^ decimals⌋.toNat : ℚ) < 2 ^ 96 := by
            rw [hwei]
            exact lt_of_le_of_lt (hle.trans (le_abs_self _)) hbound
          exact_mod_cast hsmall

/-- Whole units of a rounded amount are at most one unit away from it. -/
theorem unitCount_mul_error {amount unit : ℕ} (hunit : 0 < unit)
    (hfits : 2 * amount ≤ u256Max) :
    |((unitCount amount unit * unit : ℕ) : ℚ) - amount| ≤ amount / 2000 + unit := by
  have hround := roundToSignificantDigits_error (n := 4) (by omega) hfits
  have hunits : |((unitCount amount unit * unit : ℕ) : ℚ) - roundToSignificantDigits amount 4| ≤
      unit := by
    unfold unitCount
    generalize roundToSignificantDigits amount 4 = rounded
    have hdiv := Nat.div_add_mod rounded unit
    have hmod := Nat.mod_lt rounded hunit
    rw [abs_le]
    simp only
    split
    · -- one unit is taken for less than one
      rename_i hk
      rw [hk, Nat.mul_zero, Nat.zero_add] at hdiv
      have hle : (rounded : ℚ) ≤ unit := by exact_mod_cast hdiv ▸ hmod.le
      have hnonneg : (0 : ℚ) ≤ rounded := Nat.cast_nonneg _
      rw [Nat.one_mul]
      constructor <;> linarith
    · have hlow : (rounded : ℚ) ≤ (rounded / unit * unit : ℕ) + unit := by
        have hnat : rounded ≤ rounded / unit * unit + unit := by
          rw [Nat.mul_comm]
          omega
        exact_mod_cast hnat
      have hhigh : ((rounded / unit * unit : ℕ) : ℚ) ≤ rounded := by
        exact_mod_cast Nat.div_mul_le_self rounded unit
      have hnonneg : (0 : ℚ) ≤ unit := Nat.cast_nonneg _
      constructor <;> linarith
  calc |((unitCount amount unit * unit : ℕ) : ℚ) - amount|
      ≤ |((unitCount amount unit * unit : ℕ) : ℚ) - roundToSignificantDigits amount 4| +
          |(roundToSignificantDigits amount 4 : ℚ) - amount| := abs_sub_le _ _ _
    _ ≤ unit + amount / (2 * 10 ^ (4 - 1)) := add_le_add hunits hround
    _ = amount / 2000 + unit := by norm_num; ring

/-- The errors of the three roundings together. -/
theorem signed_amount_error {makerAmount requested error : ℚ} {decimals wei unit : ℕ}
    (hunit : 0 < unit) (herror : |makerAmount - requested| ≤ error)
    (hwei : safeAmountToWei makerAmount decimals = .ok wei) :
    |((unitCount wei unit * unit : ℕ) : ℚ) - requested * 10 ^ decimals| ≤
      requested * 10 ^ decimals / 2000 + unit + (1 + error * 10 ^ decimals) * (2001 / 2000) := by
  obtain ⟨-, -, hunits, hsmall⟩ := safeAmountToWei_ok hwei
  have hfits : 2 * wei ≤ u256Max := by
    have hbound : 2 * 2 ^ 96 ≤ u256Max := by decide
    omega
  have hscaled : |makerAmount * 10 ^ decimals - requested * 10 ^ decimals| ≤
      error * 10 ^ decimals := by
    rw [← sub_mul, abs_mul, abs_of_pos (show (0 : ℚ) < 10 ^ decimals by positivity)]
    exact mul_le_mul_of_nonneg_right herror (by positivity)
  have hcount := unitCount_mul_error hunit hfits
  rw [abs_le] at hcount hunits hscaled ⊢
  constructor <;> linarith

/-! ## The steps of an order -/

section

variable {fromStr : String → Option Decimal} {side : OrderSide} {price qty : ℚ}
  {amount : OrderAmount} {decimals : ℕ} {order : SignedOrder}

/-- An accepted price is posted in millionths. -/
theorem validatePrice_eq_some {rounded : ℚ} (h : validatePrice price = some rounded) :
    ∃ millionths : ℕ, 1000 ≤ millionths ∧ millionths < 1000000 ∧
      rounded = millionths / 1000000 ∧ |price - rounded| ≤ 1002 / 1000000000000 := by
  unfold validatePrice at h
  obtain ⟨hbounds, hformat⟩ := Option.ite_none_left_eq_some.mp h
  simp only [formatPriceChecked] at hformat
  obtain ⟨hclose, hrounded⟩ := Option.ite_none_left_eq_some.mp hformat
  obtain ⟨hlow, hhigh⟩ := not_or.mp hbounds
  rw [not_lt] at hlow hhigh hclose
  obtain rfl := (Option.some.inj hrounded).symm
  generalize round (f64 price * 1000000) = n at hclose ⊢
  have hnear := abs_sub_le_of_checked hclose
  have hbottom := le_f64_of (x := 1 / 1000) (by norm_num)
  have htop := f64_le_of (x := 999 / 1000) (by norm_num)
  -- neither the price nor what is posted is moved further than by its last place
  have hmoved : |f64 price - price| ≤ 2 / 2 ^ 53 := by
    apply abs_f64_sub_le_of
    have htwice := abs_le_two_mul_abs_f64 price
    rw [abs_of_nonneg (by linarith : 0 ≤ f64 price)] at htwice
    linarith
  have hposted : |f64 ((n : ℚ) / 1000000) - n / 1000000| ≤ 3 / 2 ^ 53 := by
    apply abs_f64_sub_le_of
    have htwice := abs_le_two_mul_abs_f64 ((n : ℚ) / 1000000)
    have hbound : |f64 ((n : ℚ) / 1000000)| ≤ 3 / 2 := by
      rw [abs_le] at hnear ⊢
      constructor <;> linarith
    linarith
  have herror : |price - n / 1000000| ≤ 1002 / 1000000000000 := by
    rw [abs_le] at hnear hmoved hposted ⊢
    constructor <;> linarith
  have hn : 1000 ≤ n ∧ n < 1000000 := by
    rw [abs_le] at hnear hposted
    constructor
    · have hcast : (999 : ℚ) < n := by linarith [hnear.2]
      have hint : (999 : ℤ) < n := by exact_mod_cast hcast
      omega
    · have hcast : (n : ℚ) < 1000000 := by linarith [hnear.1]
      exact_mod_cast hcast
  obtain ⟨millionths, rfl⟩ := Int.eq_ofNat_of_zero_le (by omega : 0 ≤ n)
  exact ⟨millionths, by omega, by omega, by push_cast; rfl, herror⟩

/-- The amount of the maker at a price that was posted. -/
theorem computeMakerAmount_ok (hlaw : DecimalFromStr fromStr) {millionths : ℕ}
    (hlt : millionths < 1000000) {makerAmount : ℚ}
    (h : computeMakerAmount fromStr side amount (sixDecimals millionths) = .ok makerAmount) :
    makerAmountOf side amount (millionths / 1000000) = .ok makerAmount := by
  unfold computeMakerAmount at h
  split at h
  · cases h
  · rename_i decimal hdecimal
    obtain ⟨maker, hmaker, hcheck⟩ := bind_ok h
    have hlength : (places millionths).length ≤ 28 := by
      have hsix : (places millionths).length = 6 := rfl
      omega
    have hbelow : (millionths : ℚ) / 1000000 < 1 := by
      rw [div_lt_one (by norm_num)]
      exact_mod_cast hlt
    have hvalue := (hlaw.exact _ decimal _ _ hdecimal (plainDigits_sixDecimals millionths)
      ((plainValue_places hlt).trans_lt hbelow) hlength).1
    rw [plainValue_places hlt] at hvalue
    rw [hvalue] at hmaker
    split at hcheck
    · cases hcheck
    · cases hcheck
      exact hmaker

/-- An order that is signed went through every step. -/
theorem buildOrder_ok (hlaw : DecimalFromStr fromStr)
    (h : buildOrder fromStr side price amount decimals = .ok order) :
    ∃ (millionths wei : ℕ) (makerAmount : ℚ), 1000 ≤ millionths ∧ millionths < 1000000 ∧
      |price - millionths / 1000000| ≤ 1002 / 1000000000000 ∧ order.price = sixDecimals millionths ∧
      makerAmountOf side amount (millionths / 1000000) = .ok makerAmount ∧
      safeAmountToWei makerAmount decimals = .ok wei ∧
      calculateOrderAmounts fromStr order.price wei side =
        .ok (order.makerAmount, order.takerAmount) := by
  unfold buildOrder at h
  split at h
  · cases h
  · rename_i rounded hrounded
    obtain ⟨millionths, hlow, hhigh, rfl, hclose⟩ := validatePrice_eq_some hrounded
    have htext : (round ((millionths : ℚ) / 1000000 * 1000000)).toNat = millionths := by
      rw [div_mul_cancel₀ _ (by norm_num), round_natCast, Int.toNat_natCast]
    simp only [htext] at h
    obtain ⟨makerAmount, hmaker, hrest⟩ := bind_ok h
    obtain ⟨wei, hwei, hamounts⟩ := bind_ok hrest
    cases hcalc : calculateOrderAmounts fromStr (sixDecimals millionths) wei side with
    | error err =>
      rw [hcalc] at hamounts
      cases hamounts
    | ok amounts =>
      rw [hcalc] at hamounts
      cases hamounts
      exact ⟨millionths, wei, makerAmount, hlow, hhigh, hclose, rfl,
        computeMakerAmount_ok hlaw hhigh hmaker, hwei, hcalc⟩

/-- The amounts of a request of 96 bits are units of the price; nothing saturates. -/
theorem amounts_eq_units (hlaw : DecimalFromStr fromStr) {priceStr : String} {wei maker taker : ℕ}
    (hwei : wei < 2 ^ 96)
    (h : calculateOrderAmounts fromStr priceStr wei side = .ok (maker, taker)) :
    ∃ num denom, priceToFraction fromStr priceStr = .ok (num, denom) ∧ 0 < num ∧ 0 < denom ∧
      postedPrice priceStr = some ((num : ℚ) / denom) ∧
      maker = unitCount wei (makerUnit side num denom) * makerUnit side num denom ∧
      taker = unitCount wei (makerUnit side num denom) * takerUnit side num denom := by
  obtain ⟨num, denom, hprice, hmaker, htaker⟩ := calculateOrderAmounts_ok h
  obtain ⟨hnum, hle, hdenom, hposted⟩ := priceToFraction_spec hlaw hprice
  have hpos : 0 < makerUnit side num denom ∧ 0 < takerUnit side num denom ∧
      makerUnit side num denom ≤ 10 ^ 6 ∧ takerUnit side num denom ≤ 10 ^ 6 := by
    cases side with
    | buy => exact ⟨hnum, hnum.trans_le hle, hle.trans hdenom, hdenom⟩
    | sell => exact ⟨hnum.trans_le hle, hnum, hdenom, hle.trans hdenom⟩
  obtain ⟨hmakerPos, htakerPos, hmakerLe, htakerLe⟩ := hpos
  refine ⟨num, denom, hprice, hnum, by omega, hposted, ?_⟩
  have hfits : 2 * wei ≤ u256Max := by
    have hbound : 2 * 2 ^ 96 ≤ u256Max := by decide
    omega
  generalize makerUnit side num denom = unit at *
  generalize takerUnit side num denom = other at *
  -- the count is at most twice the request, or a single unit
  have hcount : unitCount wei unit ≤ 2 ^ 98 := by
    have herror := unitCount_mul_error hmakerPos hfits
    have hle : ((unitCount wei unit * unit : ℕ) : ℚ) ≤ 2 ^ 98 := by
      have hweiCast : (wei : ℚ) < 2 ^ 96 := by exact_mod_cast hwei
      have hunitCast : (unit : ℚ) ≤ 10 ^ 6 := by exact_mod_cast hmakerLe
      have hsides := (abs_le.mp herror).2
      linarith
    have hnat : unitCount wei unit * unit ≤ 2 ^ 98 := by exact_mod_cast hle
    exact le_trans (Nat.le_mul_of_pos_right _ hmakerPos) hnat
  have hroom : ∀ u, u ≤ 10 ^ 6 → unitCount wei unit * u ≤ u256Max := by
    intro u hu
    have hmul := Nat.mul_le_mul hcount hu
    have hbound : 2 ^ 98 * 10 ^ 6 ≤ u256Max := by decide
    exact hmul.trans hbound
  rw [atLeastOne_satMul (unitCount_pos _ _) hmakerPos, satMul_eq (hroom _ hmakerLe)] at hmaker
  rw [atLeastOne_satMul (unitCount_pos _ _) htakerPos, satMul_eq (hroom _ htakerLe)] at htaker
  exact ⟨hmaker, htaker⟩

/-- The count cancels out of the price. -/
theorem encodedPrice_units {k num denom : ℕ} (hk : 0 < k) :
    encodedPrice side (k * makerUnit side num denom) (k * takerUnit side num denom) =
      (num : ℚ) / denom := by
  have hcancel : ((k * num : ℕ) : ℚ) / (k * denom : ℕ) = num / denom := by
    push_cast
    exact mul_div_mul_left _ _ (Nat.cast_ne_zero.mpr hk.ne')
  cases side with
  | buy => exact hcancel
  | sell => exact hcancel

/-- An order that is signed posts the price up to a billionth and its rounding, its amounts have
exactly the posted price as their ratio, and the maker gives what was asked for up to one part in
two thousand, one unit of the price, and a few hundred of the smallest units. -/
theorem signed_amounts_error (hlaw : DecimalFromStr fromStr)
    (h : buildOrder fromStr side price amount decimals = .ok order) :
    ∃ num denom : ℕ, priceToFraction fromStr order.price = .ok (num, denom) ∧
      postedPrice order.price = some ((num : ℚ) / denom) ∧
      |price - (num : ℚ) / denom| ≤ 1002 / 1000000000000 ∧
      encodedPrice side order.makerAmount order.takerAmount = (num : ℚ) / denom ∧
      |(order.makerAmount : ℚ) - makerPart side amount (num / denom) * 10 ^ decimals| ≤
        makerPart side amount (num / denom) * 10 ^ decimals / 2000 + makerUnit side num denom +
          502 := by
  obtain ⟨millionths, wei, makerAmount, hlow, hhigh, hclose, hposts, hmaker, hwei, hamounts⟩ :=
    buildOrder_ok hlaw h
  obtain ⟨hdecimals, -, -, hsmall⟩ := safeAmountToWei_ok hwei
  obtain ⟨num, denom, hprice, hnum, hdenom, hposted, hmakerEq, htakerEq⟩ :=
    amounts_eq_units hlaw hsmall hamounts
  have hvalue : (millionths : ℚ) / 1000000 = num / denom := by
    rw [hposts, postedPrice_sixDecimals hhigh] at hposted
    exact Option.some.inj hposted
  rw [hvalue] at hclose hmaker
  refine ⟨num, denom, hprice, hposted, hclose, ?_, ?_⟩
  · rw [hmakerEq, htakerEq]
    exact encodedPrice_units (unitCount_pos _ _)
  · have hunit : 0 < makerUnit side num denom := by
      cases side with
      | buy => exact hnum
      | sell => exact hdenom
    have hbounds : 1 / 1000 ≤ (num : ℚ) / denom ∧ (num : ℚ) / denom ≤ 1 := by
      rw [← hvalue]
      have hlow' : (1000 : ℚ) ≤ millionths := by exact_mod_cast hlow
      have hhigh' : (millionths : ℚ) < 1000000 := by exact_mod_cast hhigh
      constructor <;> linarith
    have herror := signed_amount_error hunit (makerAmountOf_ok hbounds.1 hbounds.2 hmaker) hwei
    rw [← hmakerEq] at herror
    have hscale : (10 : ℚ) ^ decimals ≤ 10 ^ 18 := pow_le_pow_right₀ (by norm_num) hdecimals
    have hrest : (1 + 1000 * decimalError * 10 ^ decimals) * (2001 / 2000) ≤ 502 := by
      rw [decimalError]
      linarith
    linarith

/-- A sale of shares for 12.34567 of the quote token. -/
theorem quoted_sale_amounts_error :
    ∃ num denom : ℕ, priceToFraction plainFromStr "0.527000" = .ok (num, denom) ∧
      postedPrice "0.527000" = some ((num : ℚ) / denom) ∧
      |527 / 1000 - (num : ℚ) / denom| ≤ 1002 / 1000000000000 ∧
      encodedPrice .sell 23430000000000000000 12347610000000000000 = (num : ℚ) / denom ∧
      |((23430000000000000000 : ℕ) : ℚ) -
          makerPart .sell (.quote (1234567 / 100000)) (num / denom) * 10 ^ 18| ≤
        makerPart .sell (.quote (1234567 / 100000)) (num / denom) * 10 ^ 18 / 2000 +
          makerUnit .sell num denom + 502 :=
  signed_amounts_error plainFromStr_law
    (show buildOrder plainFromStr .sell (527 / 1000) (.quote (1234567 / 100000)) 18 =
      .ok ⟨"0.527000", 23430000000000000000, 12347610000000000000⟩ by decide +kernel)

/-- A price on the grid is posted as it is, in terms of a thousand at most. -/
theorem denom_le_of_onGrid {millionths num denom : ℕ} (hgrid : OnGrid price)
    (hclose : |price - millionths / 1000000| ≤ 1002 / 1000000000000) (hlt : millionths < 1000000)
    (h : priceToFraction fromStr (sixDecimals millionths) = .ok (num, denom)) :
    price = millionths / 1000000 ∧ denom ≤ 1000 := by
  obtain ⟨n, rfl⟩ := hgrid
  have hsame : n * 1000 = millionths := by
    have hsides := abs_le.mp hclose
    have hlow : (-1 : ℚ) < n * 1000 - millionths := by linarith [hsides.1]
    have hhigh : (n * 1000 - millionths : ℚ) < 1 := by linarith [hsides.2]
    have hlow' : (-1 : ℤ) < n * 1000 - millionths := by exact_mod_cast hlow
    have hhigh' : (n * 1000 - millionths : ℤ) < 1 := by exact_mod_cast hhigh
    omega
  have hcast : (n : ℚ) * 1000 = millionths := by exact_mod_cast hsame
  constructor
  · rw [← hcast]
    ring
  · obtain ⟨-, hdenom⟩ := priceToFraction_sixDecimals hlt h
    have hdvd : 1000 ∣ Nat.gcd millionths 1000000 := Nat.dvd_gcd (by omega) (by decide)
    have hgcd : 1000 ≤ Nat.gcd millionths 1000000 :=
      Nat.le_of_dvd (Nat.gcd_pos_of_pos_right _ (by decide)) hdvd
    have hmul := Nat.mul_le_mul_left denom hgcd
    omega

/-- The shares of an order of the engine at a price on the venue's grid are its quantity up to one
part in two thousand and a few thousand of the smallest units. -/
theorem signed_shares_error (hlaw : DecimalFromStr fromStr) (hgrid : OnGrid price)
    (h : buildOrder fromStr side price (orderAmount side price qty) decimals = .ok order) :
    encodedPrice side order.makerAmount order.takerAmount = price ∧
      |(order.shares side : ℚ) - qty * 10 ^ decimals| ≤ qty * 10 ^ decimals / 2000 + 3000 := by
  obtain ⟨millionths, wei, makerAmount, hlow, hhigh, hclose, hposts, hmaker, hwei, hamounts⟩ :=
    buildOrder_ok hlaw h
  obtain ⟨hdecimals, -, -, hsmall⟩ := safeAmountToWei_ok hwei
  obtain ⟨num, denom, hprice, hnum, hdenom, hposted, hmakerEq, htakerEq⟩ :=
    amounts_eq_units hlaw hsmall hamounts
  have hvalue : (millionths : ℚ) / 1000000 = num / denom := by
    rw [hposts, postedPrice_sixDecimals hhigh] at hposted
    exact Option.some.inj hposted
  rw [hposts] at hprice
  obtain ⟨hsame, hthousand⟩ := denom_le_of_onGrid hgrid hclose hhigh hprice
  rw [hvalue] at hsame hmaker
  have hcast : (denom : ℚ) ≤ 1000 := by exact_mod_cast hthousand
  have hunit : 0 < makerUnit side num denom := by
    cases side with
    | buy => exact hnum
    | sell => exact hdenom
  have herror := signed_amount_error hunit (makerAmountOf_live hmaker) hwei
  rw [← hmakerEq] at herror
  have hrest : (1 + decimalError * 10 ^ decimals) * (2001 / 2000) ≤ 2 := by
    have hscale : (10 : ℚ) ^ decimals ≤ 10 ^ 18 := pow_le_pow_right₀ (by norm_num) hdecimals
    rw [decimalError]
    linarith
  constructor
  · rw [hmakerEq, htakerEq, hsame]
    exact encodedPrice_units (unitCount_pos _ _)
  · cases side with
    | buy =>
      -- the shares are the quote divided by the price
      have hnumCast : (0 : ℚ) < num := Nat.cast_pos.mpr hnum
      have hdenomCast : (0 : ℚ) < denom := Nat.cast_pos.mpr hdenom
      have hpos : 0 < price := by
        rw [hsame]
        exact div_pos hnumCast hdenomCast
      have hprod : price * denom = num := by
        rw [hsame]
        exact div_mul_cancel₀ _ hdenomCast.ne'
      have hshares : (order.takerAmount : ℚ) * price = order.makerAmount := by
        rw [hmakerEq, htakerEq]
        simp only [makerUnit, takerUnit]
        push_cast
        rw [← hprod]
        ring
      have hthousandth : 1 / 1000 ≤ price := by
        have hlow' : (1000 : ℚ) ≤ millionths := by exact_mod_cast hlow
        rw [hsame, ← hvalue]
        linarith
      simp only [SignedOrder.shares]
      apply le_of_mul_le_mul_right _ hpos
      calc |(order.takerAmount : ℚ) - qty * 10 ^ decimals| * price
          = |(order.makerAmount : ℚ) - price * qty * 10 ^ decimals| := by
            rw [← abs_of_pos hpos, ← abs_mul, abs_of_pos hpos, sub_mul, hshares]
            congr 1
            ring
        _ ≤ price * qty * 10 ^ decimals / 2000 + num + 2 :=
            herror.trans (add_le_add le_rfl hrest)
        _ ≤ (qty * 10 ^ decimals / 2000 + 3000) * price := by
            have hterm : (num : ℚ) ≤ 1000 * price := by
              rw [← hprod, mul_comm]
              exact mul_le_mul_of_nonneg_right hcast hpos.le
            linarith
    | sell =>
      have hsell : |(order.makerAmount : ℚ) - qty * 10 ^ decimals| ≤
          qty * 10 ^ decimals / 2000 + denom + 2 := herror.trans (add_le_add le_rfl hrest)
      simp only [SignedOrder.shares]
      linarith

/-- A sale of 12.34567 shares at one half. -/
theorem half_sale_shares_error :
    encodedPrice .sell 12350000000000000000 6175000000000000000 = 1 / 2 ∧
      |((12350000000000000000 : ℕ) : ℚ) - 1234567 / 100000 * 10 ^ 18| ≤
        1234567 / 100000 * 10 ^ 18 / 2000 + 3000 :=
  signed_shares_error plainFromStr_law ⟨500, by norm_num⟩
    (show buildOrder plainFromStr .sell (1 / 2)
        (orderAmount .sell (1 / 2) (1234567 / 100000)) 18 =
      .ok ⟨"0.500000", 12350000000000000000, 6175000000000000000⟩ by decide +kernel)

end

end AlphaMonitor.Exchange
