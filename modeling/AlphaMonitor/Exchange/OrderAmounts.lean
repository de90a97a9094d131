import AlphaMonitor.Trade.Chase
import Mathlib.Algebra.Order.Field.Basic
import Mathlib.Data.Nat.Cast.Field
import Mathlib.Data.Nat.Digits.Defs
import Mathlib.Data.Rat.Cast.Order
import Mathlib.Tactic.FieldSimp
import Mathlib.Tactic.Linarith
import Mathlib.Tactic.NormNum
import Mathlib.Tactic.Ring

/-!
# The amounts of a signed order

An order for the exchange names no price.  It names what the maker gives and what the taker
gives, and the price is their ratio, so that the amounts have to be multiples of the two
terms of the price in lowest terms.  The requested amount is rounded to four significant
digits before it is taken apart.

## Main definitions

- `priceToFraction`: the price string in lowest terms
- `roundToSignificantDigits`: half to even
- `calculateOrderAmounts`: what the maker and the taker give
- `DecimalFromStr`: what is asked of the decimal library

## Main results

- `priceToFraction_spec`: the fraction is the posted price
- `amounts_encode_price`: the ratio of the amounts is the posted price
- `maker_amount_law`: the amount of the maker, and when it exceeds the requested one
-/

namespace AlphaMonitor.Exchange

open Trade (OrderSide)

/-! ## Numbers -/

def u64Bound : ℕ := 2 ^ 64

/-- The largest value of a `U256`. -/
def u256Max : ℕ := 2 ^ 256 - 1

/-- `saturating_mul` of `U256`. -/
def satMul (a b : ℕ) : ℕ := min (a * b) u256Max

/-- `saturating_add` of `U256`. -/
def satAdd (a b : ℕ) : ℕ := min (a + b) u256Max

/-- The number that a list of digits writes. -/
def digitsValue (digits : List Char) : ℕ :=
  digits.foldl (fun value c => value * 10 + (c.toNat - 48)) 0

def stripPlus : List Char → List Char
  | '+' :: rest => rest
  | text => text

/-- `parse::<u64>`: an optional plus sign and digits. -/
def parseU64 (text : List Char) : Option ℕ :=
  let digits := stripPlus text
  if digits ≠ [] ∧ digits.all Char.isDigit ∧ digitsValue digits < u64Bound then
    some (digitsValue digits)
  else none

/-- The loop of `gcd`. -/
def gcdLoop (a b : ℕ) : ℕ :=
  if b = 0 then a else gcdLoop b (a % b)
termination_by b
decreasing_by exact Nat.mod_lt a (Nat.pos_of_ne_zero (by assumption))

/-- `gcd`. -/
def gcd (a b : ℕ) : ℕ := if gcdLoop a b = 0 then 1 else gcdLoop a b

/-! ## Prices -/

/-- A value of the decimal library, with the number of its decimal places. -/
structure Decimal where
  value : ℚ
  scale : ℕ

/-- The end of `price_to_fraction`. -/
def reduceFraction (numerator denominator : ℕ) : Except String (ℕ × ℕ) :=
  if denominator = 0 then .error "invalid price denominator"
  else
    .ok (numerator / gcd numerator denominator, denominator / gcd numerator denominator)

/-- `price_to_fraction`, over the library's `Decimal::from_str`. -/
def priceToFraction (fromStr : String → Option Decimal) (price : String) :
    Except String (ℕ × ℕ) :=
  match fromStr price with
  | none => .error "invalid price"
  | some decimal =>
    if decimal.value < 1 / 1000 ∨ decimal.value > 999 / 1000 then
      .error ("Price must be between 0.001 and 0.999 (inclusive), got " ++ price)
    else if decimal.scale > 6 then
      .error ("Price precision cannot exceed 6 decimal places, got " ++ price)
    else
      match price.toList.splitOn '.' with
      | [whole] =>
        match parseU64 whole with
        | some numerator => reduceFraction numerator 1
        | none => .error "invalid price numerator"
      | [whole, frac] =>
        match parseU64 whole with
        | none => .error "invalid price whole"
        | some whole =>
          -- nothing after the point counts as zero
          match if frac = [] then some 0 else parseU64 frac with
          | none => .error "invalid price fraction"
          | some fracVal =>
            -- the check of the precision leaves no power that a `u64` does not hold
            let pow := 10 ^ frac.length
            if whole * pow < u64Bound ∧ whole * pow + fracVal < u64Bound then
              reduceFraction (whole * pow + fracVal) pow
            else .error "price overflow"
      -- the variables keep their first values
      | _ => reduceFraction 0 1

/-! ## Amounts -/

/-- `round_to_significant_digits`. -/
def roundToSignificantDigits (value n : ℕ) : ℕ :=
  if value = 0 then 0
  else
    let magnitude := (Nat.digits 10 value).length
    if magnitude ≤ n then value
    else
      let divisor := (fun d => satMul d 10)^[magnitude - n] 1
      let quotient := value / divisor
      let twice := satMul (value % divisor) 2
      let rounded :=
        if twice > divisor then satAdd quotient 1
        -- half goes to the even neighbour
        else if twice = divisor ∧ quotient % 2 = 1 then satAdd quotient 1
        else quotient
      satMul rounded divisor

/-- The term of the price that the maker's amount is a multiple of. -/
def makerUnit (side : OrderSide) (num denom : ℕ) : ℕ :=
  match side with
  | .buy => num
  | .sell => denom

/-- The other term. -/
def takerUnit (side : OrderSide) (num denom : ℕ) : ℕ :=
  match side with
  | .buy => denom
  | .sell => num

/-- `k` of `calculate_order_amounts`: how many units are traded. -/
def unitCount (amount unit : ℕ) : ℕ :=
  let k := roundToSignificantDigits amount 4 / unit
  if k = 0 then 1 else k

/-- An amount of zero is raised to one. -/
def atLeastOne (amount : ℕ) : ℕ := if amount = 0 then 1 else amount

/-- `calculate_order_amounts`: the amounts of the maker and of the taker. -/
def calculateOrderAmounts (fromStr : String → Option Decimal) (price : String)
    (makerAmount : ℕ) (side : OrderSide) : Except String (ℕ × ℕ) :=
  match priceToFraction fromStr price with
  | .error err => .error err
  | .ok (num, denom) =>
    let k := unitCount makerAmount (makerUnit side num denom)
    let recalculated := atLeastOne (satMul k (makerUnit side num denom))
    let taker := atLeastOne (satMul k (takerUnit side num denom))
    if (num : ℚ) / denom < 1 / 1000 ∨ (num : ℚ) / denom > 999 / 1000 then
      .error "invalid taker_amount and recalculated_maker_amount"
    else .ok (recalculated, taker)

/-! ## The posted price -/

/-- The digits of a decimal string before and after its point. -/
def plainDigits (text : List Char) : Option (List Char × List Char) :=
  match (stripPlus text).splitOn '.' with
  | [whole] => if whole.all Char.isDigit then some (whole, []) else none
  | [whole, frac] =>
    if whole.all Char.isDigit ∧ frac.all Char.isDigit then some (whole, frac) else none
  | _ => none

/-- The number that a decimal string writes. -/
def plainValue (whole frac : List Char) : ℚ := digitsValue (whole ++ frac) / 10 ^ frac.length

/-- The price that a price string posts. -/
def postedPrice (price : String) : Option ℚ :=
  (plainDigits price.toList).map fun parts => plainValue parts.1 parts.2

/-- What the decimal library documents for `Decimal::from_str`. -/
structure DecimalFromStr (fromStr : String → Option Decimal) : Prop where
  /-- Below one, up to 28 decimal places are read exactly, with their number as the scale. -/
  exact : ∀ text decimal whole frac, fromStr text = some decimal →
    plainDigits text.toList = some (whole, frac) → plainValue whole frac < 1 → frac.length ≤ 28 →
      decimal.value = plainValue whole frac ∧ decimal.scale = frac.length
  /-- From one on, places that do not fit are rounded, but not to less than one. -/
  large : ∀ text decimal whole frac, fromStr text = some decimal →
    plainDigits text.toList = some (whole, frac) → 1 ≤ plainValue whole frac → 1 ≤ decimal.value
  /-- More places are rounded to those that fit; below one there is room for 28 of them. -/
  long : ∀ text decimal whole frac, fromStr text = some decimal →
    plainDigits text.toList = some (whole, frac) → 28 < frac.length →
      decimal.scale > 6 ∨ decimal.value ≥ 1
  /-- What is read beyond plain decimals has a minus sign or underscores, and one point at most. -/
  strict : ∀ text decimal, fromStr text = some decimal →
    (text.toList.splitOn '.').length ≤ 2 ∧
      (plainDigits text.toList = none → '-' ∈ text.toList ∨ '_' ∈ text.toList)

/-! ## Reading numbers -/

theorem digitsValue_append (digits digits' : List Char) :
    digitsValue (digits ++ digits') =
      digitsValue digits * 10 ^ digits'.length + digitsValue digits' := by
  induction digits' using List.reverseRecOn with
  | nil => simp [digitsValue]
  | append_singleton rest c ih =>
    -- The digits are folded from the front, so the induction is on the last one.
    rw [← List.append_assoc]
    unfold digitsValue at ih ⊢
    simp only [List.foldl_append, List.foldl_cons, List.foldl_nil, List.length_append,
      List.length_cons, List.length_nil, ih, pow_succ]
    ring

/-- What `parse::<u64>` reads are the digits after an optional plus sign. -/
theorem parseU64_some {text : List Char} {value : ℕ} (h : parseU64 text = some value) :
    stripPlus text ≠ [] ∧ (∀ c ∈ stripPlus text, c.isDigit = true) ∧
      value = digitsValue (stripPlus text) := by
  unfold parseU64 at h
  simp only at h
  split at h
  · rename_i hdigits
    obtain ⟨hne, hall, -⟩ := hdigits
    cases h
    exact ⟨hne, List.all_eq_true.mp hall, rfl⟩
  · cases h

theorem stripPlus_cases (text : List Char) :
    stripPlus text = text ∨ text = '+' :: stripPlus text := by
  unfold stripPlus
  split
  · exact .inr rfl
  · exact .inl rfl

theorem mem_of_mem_text {text : List Char} (h : ∀ c ∈ stripPlus text, c.isDigit = true) :
    ∀ c ∈ text, c = '+' ∨ c.isDigit = true := by
  intro c hc
  rcases stripPlus_cases text with hsame | hplus
  · rw [hsame] at h
    exact .inr (h c hc)
  · rw [hplus] at hc
    rcases List.mem_cons.mp hc with rfl | hc
    · exact .inl rfl
    · exact .inr (h c hc)

theorem not_mem_of_text {text : List Char} (h : ∀ c ∈ stripPlus text, c.isDigit = true) {c : Char}
    (hplus : c ≠ '+') (hdigit : c.isDigit = false) : c ∉ text := by
  intro hc
  rcases mem_of_mem_text h c hc with rfl | hisDigit
  · exact hplus rfl
  · rw [hdigit] at hisDigit
    cases hisDigit

theorem stripPlus_append {text : List Char} (h : stripPlus text ≠ []) (rest : List Char) :
    stripPlus (text ++ rest) = stripPlus text ++ rest := by
  cases text with
  | nil => exact absurd rfl h
  | cons c text =>
    unfold stripPlus
    by_cases hplus : c = '+'
    · subst hplus
      rfl
    · simp only [List.cons_append]
      split
      · rename_i heq
        exact absurd (List.cons.inj heq).1 hplus
      · split
        · rename_i heq
          exact absurd (List.cons.inj heq).1 hplus
        · rfl

theorem gcdLoop_eq (a b : ℕ) : gcdLoop a b = Nat.gcd a b := by
  induction b using Nat.strong_induction_on generalizing a with
  | _ b ih =>
    unfold gcdLoop
    split
    · rename_i hzero
      rw [hzero, Nat.gcd_zero_right]
    · -- The source keeps the remainder second, Mathlib first.
      rename_i hne
      rw [ih (a % b) (Nat.mod_lt a (Nat.pos_of_ne_zero hne)), Nat.gcd_comm, ← Nat.gcd_rec,
        Nat.gcd_comm]

theorem gcd_eq {a b : ℕ} (h : 0 < b) : gcd a b = Nat.gcd a b := by
  unfold gcd
  rw [gcdLoop_eq, if_neg (Nat.gcd_pos_of_pos_right a h).ne']

/-- The reduced fraction is the fraction. -/
theorem reduceFraction_ok {numerator denominator num denom : ℕ}
    (h : reduceFraction numerator denominator = .ok (num, denom)) (hdenom : 0 < denominator) :
    0 < denom ∧ denom ≤ denominator ∧ (num : ℚ) / denom = numerator / denominator := by
  unfold reduceFraction at h
  rw [if_neg hdenom.ne', gcd_eq hdenom] at h
  cases h
  have hg := Nat.gcd_pos_of_pos_right numerator hdenom
  have hle := Nat.le_of_dvd hdenom (Nat.gcd_dvd_right numerator denominator)
  refine ⟨Nat.div_pos hle hg, Nat.div_le_self _ _, ?_⟩
  have hcast : ((Nat.gcd numerator denominator : ℕ) : ℚ) ≠ 0 := Nat.cast_ne_zero.mpr hg.ne'
  rw [Nat.cast_div (Nat.gcd_dvd_left _ _) hcast, Nat.cast_div (Nat.gcd_dvd_right _ _) hcast,
    div_div_div_cancel_right₀ hcast]

/-! ## A reading of plain decimals -/

/-- A parser of plain decimals with up to 28 places. -/
def plainFromStr (text : String) : Option Decimal :=
  (plainDigits text.toList).bind fun parts =>
    if parts.2.length ≤ 28 then some ⟨plainValue parts.1 parts.2, parts.2.length⟩ else none

theorem length_splitOn_stripPlus (text : List Char) :
    ((stripPlus text).splitOn '.').length = (text.splitOn '.').length := by
  rcases stripPlus_cases text with hsame | hplus
  · rw [hsame]
  · rw [hplus, List.splitOn_cons_eq_if_modifyHead]
    simp [stripPlus]

theorem plainFromStr_law : DecimalFromStr plainFromStr := by
  constructor
  · intro text decimal whole frac hread hplain _ hlen
    rw [plainFromStr, hplain, Option.bind_some, if_pos hlen] at hread
    cases hread
    exact ⟨rfl, rfl⟩
  · intro text decimal whole frac hread hplain hone
    rw [plainFromStr, hplain, Option.bind_some] at hread
    split at hread
    · cases hread
      exact hone
    · cases hread
  · intro text decimal whole frac hread hplain hlen
    rw [plainFromStr, hplain, Option.bind_some, if_neg (not_le.mpr hlen)] at hread
    cases hread
  · intro text decimal hread
    have hplain : plainDigits text.toList ≠ none := by
      intro hnone
      rw [plainFromStr, hnone] at hread
      cases hread
    refine ⟨?_, fun hnone => absurd hnone hplain⟩
    rw [← length_splitOn_stripPlus]
    unfold plainDigits at hplain
    split at hplain
    · rename_i hparts
      rw [hparts]
      simp
    · rename_i hparts
      rw [hparts]
      simp
    · exact absurd rfl hplain

/-! ## The fraction of a price -/

section

variable {fromStr : String → Option Decimal} {price : String}

/-- An accepted price is in range, and is taken apart at its point. -/
theorem priceToFraction_ok {num denom : ℕ} (h : priceToFraction fromStr price = .ok (num, denom)) :
    ∃ decimal, fromStr price = some decimal ∧ 1 / 1000 ≤ decimal.value ∧
      decimal.value ≤ 999 / 1000 ∧ decimal.scale ≤ 6 ∧
      ((∃ whole numerator, price.toList.splitOn '.' = [whole] ∧
          parseU64 whole = some numerator ∧ reduceFraction numerator 1 = .ok (num, denom)) ∨
        (∃ whole frac wholeVal fracVal, price.toList.splitOn '.' = [whole, frac] ∧
          parseU64 whole = some wholeVal ∧
          (if frac = [] then some 0 else parseU64 frac) = some fracVal ∧
          reduceFraction (wholeVal * 10 ^ frac.length + fracVal) (10 ^ frac.length) =
            .ok (num, denom)) ∨
        2 < (price.toList.splitOn '.').length) := by
  unfold priceToFraction at h
  split at h
  · cases h
  rename_i decimal hdecimal
  split at h
  · cases h
  rename_i hrange
  obtain ⟨hlow, hhigh⟩ := not_or.mp hrange
  split at h
  · cases h
  rename_i hscale
  refine ⟨decimal, hdecimal, not_lt.mp hlow, not_lt.mp hhigh, not_lt.mp hscale, ?_⟩
  split at h
  · rename_i whole hparts
    split at h
    · rename_i numerator hwhole
      exact .inl ⟨whole, numerator, hparts, hwhole, h⟩
    · cases h
  · rename_i whole frac hparts
    split at h
    · cases h
    rename_i wholeVal hwhole
    split at h
    · cases h
    rename_i fracVal hfrac
    simp only at h
    split at h
    · exact .inr (.inl ⟨whole, frac, wholeVal, fracVal, hparts, hwhole, hfrac, h⟩)
    · cases h
  · -- The last branch is taken for three parts or more.
    rename_i hone htwo
    apply Or.inr ∘ Or.inr
    cases hparts : price.toList.splitOn '.' with
    | nil => exact absurd hparts (List.splitOn_ne_nil _ _)
    | cons first rest =>
      cases rest with
      | nil => exact absurd hparts (hone first)
      | cons second rest =>
        cases rest with
        | nil => exact absurd hparts (htwo first second)
        | cons third rest => simp

/-- The digits of a price without a point. -/
theorem plainDigits_whole {whole : List Char} {numerator : ℕ}
    (hparts : price.toList.splitOn '.' = [whole]) (hwhole : parseU64 whole = some numerator) :
    plainDigits price.toList = some (stripPlus whole, []) ∧
      numerator = digitsValue (stripPlus whole) := by
  obtain ⟨hne, hdigits, hvalue⟩ := parseU64_some hwhole
  have htext : price.toList = whole := by
    have hinter := @List.intercalate_splitOn _ price.toList _ _ '.'
    rw [hparts] at hinter
    simpa using hinter.symm
  have hpoint : '.' ∉ stripPlus whole := fun hin => absurd (hdigits _ hin) (by decide)
  refine ⟨?_, hvalue⟩
  unfold plainDigits
  rw [htext, List.splitOn_eq_singleton hpoint]
  simp only
  rw [if_pos (List.all_eq_true.mpr hdigits)]

/-- Without a sign or an underscore, what the library reads is a plain decimal. -/
theorem plainDigits_isSome (hlaw : DecimalFromStr fromStr) {decimal : Decimal}
    (hdecimal : fromStr price = some decimal) {whole frac : List Char}
    (htext : price.toList = whole ++ '.' :: frac)
    (hwhole : ∀ c ∈ stripPlus whole, c.isDigit = true)
    (hfrac : ∀ c ∈ stripPlus frac, c.isDigit = true) : plainDigits price.toList ≠ none := by
  intro hnone
  have hother : ∀ c : Char, c ≠ '+' → c.isDigit = false → c ≠ '.' → c ∉ price.toList := by
    intro c hplus hdigit hne
    rw [htext, List.mem_append, List.mem_cons]
    rintro (hin | heq | hin)
    · exact not_mem_of_text hwhole hplus hdigit hin
    · exact hne heq
    · exact not_mem_of_text hfrac hplus hdigit hin
  rcases (hlaw.strict price decimal hdecimal).2 hnone with hminus | hunder
  · exact hother _ (by decide) (by decide) (by decide) hminus
  · exact hother _ (by decide) (by decide) (by decide) hunder

/-- The digits of a price with a point. -/
theorem plainDigits_point (hlaw : DecimalFromStr fromStr) {decimal : Decimal}
    (hdecimal : fromStr price = some decimal) {whole frac : List Char} {wholeVal fracVal : ℕ}
    (hparts : price.toList.splitOn '.' = [whole, frac]) (hwhole : parseU64 whole = some wholeVal)
    (hfrac : (if frac = [] then some 0 else parseU64 frac) = some fracVal) :
    plainDigits price.toList = some (stripPlus whole, frac) ∧
      wholeVal = digitsValue (stripPlus whole) ∧ fracVal = digitsValue frac := by
  obtain ⟨hne, hdigits, hvalue⟩ := parseU64_some hwhole
  have htext : price.toList = whole ++ '.' :: frac := by
    have hinter := @List.intercalate_splitOn _ price.toList _ _ '.'
    rw [hparts] at hinter
    simpa using hinter.symm
  have hfracDigits : ∀ c ∈ stripPlus frac, c.isDigit = true := by
    split at hfrac
    · rename_i hempty
      rw [hempty]
      exact fun c hc => absurd hc List.not_mem_nil
    · exact (parseU64_some hfrac).2.1
  have hpoint : '.' ∉ stripPlus whole := fun hin => absurd (hdigits _ hin) (by decide)
  have hsplit : (stripPlus price.toList).splitOn '.' = [stripPlus whole, frac] := by
    rw [htext, List.splitOn_append_cons_self_of_not_mem
      (not_mem_of_text hdigits (by decide) (by decide))] at hparts
    rw [htext, stripPlus_append hne, List.splitOn_append_cons_self_of_not_mem hpoint]
    rw [(List.cons.inj hparts).2]
  have hplain := plainDigits_isSome hlaw hdecimal htext hdigits hfracDigits
  unfold plainDigits at hplain ⊢
  rw [hsplit] at hplain ⊢
  simp only at hplain ⊢
  split
  · rename_i hall
    refine ⟨rfl, hvalue, ?_⟩
    -- `parse::<u64>` would skip a plus sign behind the point; a decimal has none there.
    have hstrip : stripPlus frac = frac := by
      rcases stripPlus_cases frac with hsame | hplus
      · exact hsame
      · rw [hplus] at hall
        exact absurd hall.2 (by simp)
    split at hfrac
    · rename_i hempty
      rw [hempty]
      exact (Option.some.inj hfrac).symm
    · rw [(parseU64_some hfrac).2.2, hstrip]
  · rename_i hnot
    rw [if_neg hnot] at hplain
    exact absurd rfl hplain

/-- The fraction of an accepted price is the posted price, and lies between its bounds. -/
theorem priceToFraction_spec (hlaw : DecimalFromStr fromStr) {num denom : ℕ}
    (h : priceToFraction fromStr price = .ok (num, denom)) :
    0 < num ∧ num ≤ denom ∧ denom ≤ 10 ^ 6 ∧ postedPrice price = some ((num : ℚ) / denom) := by
  obtain ⟨decimal, hdecimal, hlow, hhigh, hscale, hcases⟩ := priceToFraction_ok h
  have hspec : ∃ whole frac, plainDigits price.toList = some (whole, frac) ∧ 0 < denom ∧
      denom ≤ 10 ^ frac.length ∧ (num : ℚ) / denom = plainValue whole frac := by
    rcases hcases with ⟨whole, numerator, hparts, hwhole, hok⟩ |
      ⟨whole, frac, wholeVal, fracVal, hparts, hwhole, hfrac, hok⟩ | hmany
    · obtain ⟨hplain, hvalue⟩ := plainDigits_whole hparts hwhole
      obtain ⟨hdenom, hle, heq⟩ := reduceFraction_ok hok one_pos
      refine ⟨_, _, hplain, hdenom, hle, ?_⟩
      rw [heq, hvalue]
      simp [plainValue]
    · obtain ⟨hplain, hwholeVal, hfracVal⟩ := plainDigits_point hlaw hdecimal hparts hwhole hfrac
      obtain ⟨hdenom, hle, heq⟩ := reduceFraction_ok hok (pow_pos (by norm_num) _)
      refine ⟨_, _, hplain, hdenom, hle, ?_⟩
      rw [heq, hwholeVal, hfracVal, plainValue, digitsValue_append]
      push_cast
      rfl
    · -- A second point is never read, so the first values of the variables are not used.
      exact absurd (hlaw.strict price decimal hdecimal).1 (not_le.mpr hmany)
  obtain ⟨whole, frac, hplain, hdenom, hle, heq⟩ := hspec
  have hexact : decimal.value = plainValue whole frac ∧ decimal.scale = frac.length := by
    have hlt : plainValue whole frac < 1 := by
      by_contra hone
      linarith [hlaw.large price decimal whole frac hdecimal hplain (not_lt.mp hone)]
    -- Places that the library cuts off leave a scale, or a value, that the checks refuse.
    by_cases hlen : frac.length ≤ 28
    · exact hlaw.exact price decimal whole frac hdecimal hplain hlt hlen
    · rcases hlaw.long price decimal whole frac hdecimal hplain (not_le.mp hlen) with hmore | hone
      · omega
      · linarith
  obtain ⟨hvalue, hlen⟩ := hexact
  rw [hvalue, ← heq] at hlow hhigh
  have hdenomCast : (0 : ℚ) < denom := Nat.cast_pos.mpr hdenom
  refine ⟨?_, ?_, hle.trans (Nat.pow_le_pow_right (by norm_num) (hlen ▸ hscale)), ?_⟩
  · apply Nat.pos_of_ne_zero
    rintro rfl
    rw [Nat.cast_zero, zero_div] at hlow
    linarith
  · rw [div_le_iff₀ hdenomCast] at hhigh
    have hcast : (num : ℚ) ≤ denom := by linarith
    exact Nat.cast_le.mp hcast
  · unfold postedPrice
    rw [hplain, heq]
    rfl

/-! ## The amounts -/

/-- The price that a pair of amounts encodes. -/
def encodedPrice (side : OrderSide) (maker taker : ℕ) : ℚ :=
  match side with
  | .buy => maker / taker
  | .sell => taker / maker

/-- Neither product of `calculate_order_amounts` saturates. -/
def Unsaturated (fromStr : String → Option Decimal) (price : String) (makerAmount : ℕ)
    (side : OrderSide) : Prop :=
  ∀ num denom, priceToFraction fromStr price = .ok (num, denom) →
    unitCount makerAmount (makerUnit side num denom) * num ≤ u256Max ∧
      unitCount makerAmount (makerUnit side num denom) * denom ≤ u256Max

theorem unitCount_pos (amount unit : ℕ) : 0 < unitCount amount unit := by
  unfold unitCount
  simp only
  split
  · exact one_pos
  · rename_i hk
    exact Nat.pos_of_ne_zero hk

theorem atLeastOne_satMul {a b : ℕ} (ha : 0 < a) (hb : 0 < b) :
    atLeastOne (satMul a b) = satMul a b := by
  have hpos : 0 < satMul a b := lt_min (Nat.mul_pos ha hb) (by decide)
  exact if_neg hpos.ne'

theorem calculateOrderAmounts_ok {makerAmount maker taker : ℕ} {side : OrderSide}
    (h : calculateOrderAmounts fromStr price makerAmount side = .ok (maker, taker)) :
    ∃ num denom, priceToFraction fromStr price = .ok (num, denom) ∧
      maker = atLeastOne (satMul (unitCount makerAmount (makerUnit side num denom))
        (makerUnit side num denom)) ∧
      taker = atLeastOne (satMul (unitCount makerAmount (makerUnit side num denom))
        (takerUnit side num denom)) := by
  unfold calculateOrderAmounts at h
  split at h
  · cases h
  · rename_i num denom hprice
    simp only at h
    split at h
    · cases h
    · cases h
      exact ⟨num, denom, hprice, rfl, rfl⟩

/-- The ratio of the amounts is the posted price. -/
theorem amounts_encode_price (hlaw : DecimalFromStr fromStr) {makerAmount maker taker : ℕ}
    {side : OrderSide}
    (h : calculateOrderAmounts fromStr price makerAmount side = .ok (maker, taker))
    (hfits : Unsaturated fromStr price makerAmount side) :
    0 < maker ∧ 0 < taker ∧ postedPrice price = some (encodedPrice side maker taker) := by
  obtain ⟨num, denom, hprice, hmaker, htaker⟩ := calculateOrderAmounts_ok h
  obtain ⟨hnum, hle, -, hposted⟩ := priceToFraction_spec hlaw hprice
  have hdenom : 0 < denom := hnum.trans_le hle
  obtain ⟨hnumFits, hdenomFits⟩ := hfits num denom hprice
  have hk := unitCount_pos makerAmount (makerUnit side num denom)
  -- Whatever the number of units is, it cancels out of the ratio.
  generalize unitCount makerAmount (makerUnit side num denom) = k at *
  have hkcast : (k : ℚ) ≠ 0 := Nat.cast_ne_zero.mpr hk.ne'
  have hnumMul : atLeastOne (satMul k num) = k * num := by
    rw [atLeastOne_satMul hk hnum]
    exact min_eq_left hnumFits
  have hdenomMul : atLeastOne (satMul k denom) = k * denom := by
    rw [atLeastOne_satMul hk hdenom]
    exact min_eq_left hdenomFits
  have hratio : ((k * num : ℕ) : ℚ) / (k * denom : ℕ) = num / denom := by
    push_cast
    exact mul_div_mul_left _ _ hkcast
  cases side with
  | buy =>
    have hmaker : maker = k * num := hmaker.trans hnumMul
    have htaker : taker = k * denom := htaker.trans hdenomMul
    subst hmaker htaker
    refine ⟨Nat.mul_pos hk hnum, Nat.mul_pos hk hdenom, ?_⟩
    rw [hposted, encodedPrice, hratio]
  | sell =>
    have hmaker : maker = k * denom := hmaker.trans hdenomMul
    have htaker : taker = k * num := htaker.trans hnumMul
    subst hmaker htaker
    refine ⟨Nat.mul_pos hk hdenom, Nat.mul_pos hk hnum, ?_⟩
    rw [hposted, encodedPrice, hratio]

/-- A purchase at a price of 21/40, of an amount that is no multiple of 21. -/
theorem purchase_encodes_price :
    0 < 10119999999999999984 ∧ 0 < 19276190476190476160 ∧
      postedPrice "0.525000" =
        some (encodedPrice .buy 10119999999999999984 19276190476190476160) := by
  apply amounts_encode_price plainFromStr_law
    (show calculateOrderAmounts plainFromStr "0.525000" 10123456000000000000 .buy =
      .ok (10119999999999999984, 19276190476190476160) by decide +kernel)
  intro num denom hprice
  have hfraction : priceToFraction plainFromStr "0.525000" = .ok (21, 40) := by decide +kernel
  cases hfraction.symm.trans hprice
  decide +kernel

/-! ## What the maker gives -/

theorem roundToSignificantDigits_le (value n : ℕ) (h : value ≤ u256Max) :
    roundToSignificantDigits value n ≤ u256Max := by
  unfold roundToSignificantDigits
  split
  · exact Nat.zero_le _
  · simp only
    split
    · exact h
    · exact min_le_right _ _

/-- The maker gives as many units as the rounded amount holds, and one at least; that is not more
than what was requested unless the rounding reaches a further unit, or less than one unit was
requested. -/
theorem maker_amount_law (hlaw : DecimalFromStr fromStr) {makerAmount maker taker : ℕ}
    {side : OrderSide} (hamount : makerAmount ≤ u256Max)
    (h : calculateOrderAmounts fromStr price makerAmount side = .ok (maker, taker)) :
    ∃ num denom, priceToFraction fromStr price = .ok (num, denom) ∧
      maker = max (roundToSignificantDigits makerAmount 4 / makerUnit side num denom) 1 *
        makerUnit side num denom ∧
      maker ≤ max (roundToSignificantDigits makerAmount 4) (makerUnit side num denom) ∧
      (maker ≤ makerAmount ↔ makerUnit side num denom ≤ makerAmount ∧
        roundToSignificantDigits makerAmount 4 / makerUnit side num denom ≤
          makerAmount / makerUnit side num denom) := by
  obtain ⟨num, denom, hprice, hmaker, -⟩ := calculateOrderAmounts_ok h
  obtain ⟨hnum, hle, hbound, -⟩ := priceToFraction_spec hlaw hprice
  refine ⟨num, denom, hprice, ?_⟩
  have hunit : 0 < makerUnit side num denom ∧ makerUnit side num denom ≤ u256Max := by
    have hmax : 10 ^ 6 ≤ u256Max := by decide
    cases side with
    | buy => exact ⟨hnum, (hle.trans hbound).trans hmax⟩
    | sell => exact ⟨hnum.trans_le hle, hbound.trans hmax⟩
  obtain ⟨hunit, hfits⟩ := hunit
  have hround := roundToSignificantDigits_le makerAmount 4 hamount
  rw [atLeastOne_satMul (unitCount_pos _ _) hunit] at hmaker
  unfold unitCount at hmaker
  generalize makerUnit side num denom = unit at *
  generalize roundToSignificantDigits makerAmount 4 = rounded at *
  have hmul : rounded / unit * unit ≤ rounded := Nat.div_mul_le_self rounded unit
  by_cases hk : rounded / unit = 0
  · -- Less than one unit: one is taken.
    have hmaker : maker = unit := by
      rw [hmaker, hk, satMul]
      simp only [if_true, one_mul]
      exact min_eq_left hfits
    rw [hmaker, hk]
    refine ⟨by simp, le_max_right _ _, by simp⟩
  · -- The product is below the rounded amount, so it does not saturate.
    have hpos : 1 ≤ rounded / unit := Nat.pos_of_ne_zero hk
    have hmaker : maker = rounded / unit * unit := by
      simp only [hk, if_false] at hmaker
      rw [hmaker, satMul]
      exact min_eq_left (hmul.trans hround)
    rw [max_eq_left hpos]
    refine ⟨hmaker, hmaker ▸ hmul.trans (le_max_left _ _), ?_⟩
    rw [hmaker, ← Nat.le_div_iff_mul_le hunit]
    constructor
    · intro hfew
      have hone := hpos.trans hfew
      exact ⟨by simpa using (Nat.le_div_iff_mul_le hunit).mp hone, hfew⟩
    · exact And.right

/-- A sale at one half, of an amount that rounds up to a further multiple of two. -/
theorem sale_rounds_up :
    ∃ num denom, priceToFraction plainFromStr "0.500000" = .ok (num, denom) ∧
      12350000000000000000 = max (roundToSignificantDigits 12345670000000000000 4 /
        makerUnit .sell num denom) 1 * makerUnit .sell num denom ∧
      12350000000000000000 ≤ max (roundToSignificantDigits 12345670000000000000 4)
        (makerUnit .sell num denom) ∧
      (12350000000000000000 ≤ 12345670000000000000 ↔
        makerUnit .sell num denom ≤ 12345670000000000000 ∧
          roundToSignificantDigits 12345670000000000000 4 / makerUnit .sell num denom ≤
            12345670000000000000 / makerUnit .sell num denom) :=
  maker_amount_law plainFromStr_law (by decide +kernel)
    (show calculateOrderAmounts plainFromStr "0.500000" 12345670000000000000 .sell =
      .ok (12350000000000000000, 6175000000000000000) by decide +kernel)

/-- The sale offers more shares than it was asked to. -/
theorem sale_exceeds_request :
    calculateOrderAmounts plainFromStr "0.500000" 12345670000000000000 .sell =
        .ok (12350000000000000000, 6175000000000000000) ∧
      ¬ 12350000000000000000 ≤ 12345670000000000000 := by
  constructor
  · decide +kernel
  · decide

end

end AlphaMonitor.Exchange
