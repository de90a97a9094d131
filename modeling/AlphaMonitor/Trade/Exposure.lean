import AlphaMonitor.Lib.Tally
import AlphaMonitor.Trade.Runs

/-!
# Exposure accounting

What the exposure counters should say is a matter of which pairs hold an order or
a position and what was added for them: the counters are tallies of these stakes.
Every move adds one stake, releases one, or changes neither, as long as an entry
fill does not change the notional that is released later.

## Main results

- `Move.stakeEffect`: what a move does to the stake of its pair
- `conserved_of_runMeets`: the counters are the sums of the stakes
-/

namespace AlphaMonitor.Trade

open Lib (Covers tally)

variable {setup : Setup} {env : Env} {key : PairKey}

/-! ## Stakes -/

/-- What a pair that holds an order or a position stands for in the counters. -/
structure Stake where
  exposureKey : ExposureKey
  alphaType : AlphaType
  amount : ℚ

/-- The stake of a pair: the notional that was added for it, if it holds anything. -/
def stakeOf (added : ExposureKey → ℚ) (key : PairKey) (o : OrderState) : Option Stake :=
  if o.Holding then
    some ⟨exposureKey key o.direction, o.alphaType.getD .gapB, added (exposureKey key o.direction)⟩
  else none

def Slot.stake (key : PairKey) (s : Slot) : Option Stake :=
  stakeOf s.desk.counters.added key s.order

def View.stakes (v : View) (key : PairKey) : Option Stake :=
  stakeOf v.desk.counters.added key (v.order key)

theorem stakeOf_of_holding {added : ExposureKey → ℚ} {o : OrderState} (h : o.Holding) :
    stakeOf added key o =
      some ⟨exposureKey key o.direction, o.alphaType.getD .gapB,
        added (exposureKey key o.direction)⟩ :=
  if_pos h

theorem stakeOf_of_not_holding {added : ExposureKey → ℚ} {o : OrderState} (h : ¬ o.Holding) :
    stakeOf added key o = none :=
  if_neg h

theorem exposureKey_ne {key key' : PairKey} (h : key ≠ key') (direction direction' : ℤ) :
    exposureKey key direction ≠ exposureKey key' direction' := by
  intro heq
  apply h
  simp only [exposureKey, Prod.mk.injEq] at heq
  exact Prod.ext heq.1 heq.2.1

/-! ## Counters as tallies -/

/-- The counters are the tallies of the stakes. -/
structure Counters.Tallies (c : Counters) (stakes : PairKey → Option Stake) : Prop where
  finite : ∃ S, Covers S stakes
  used : ∀ S, Covers S stakes → c.exposureUsed = tally S (fun s => s.amount) stakes
  positions : ∀ S, Covers S stakes → c.openPositions = tally S (fun _ => 1) stakes
  strategy : ∀ alphaType S, Covers S stakes → c.strategyExposure alphaType =
    tally S (fun s => if s.alphaType = alphaType then s.amount else 0) stakes
  pair : ∀ x S, Covers S stakes → c.pairExposure x =
    tally S (fun s => if s.exposureKey = x then s.amount else 0) stakes

namespace Counters.Tallies

variable {c : Counters} {stakes : PairKey → Option Stake} {stake : Stake}

theorem start : Counters.start.Tallies fun _ => none where
  finite := ⟨∅, fun _ hkey => absurd rfl hkey⟩
  used S _ := (Lib.tally_none S _).symm
  positions S _ := (Lib.tally_none S _).symm
  strategy _ S _ := (Lib.tally_none S _).symm
  pair _ S _ := (Lib.tally_none S _).symm

theorem add (h : c.Tallies stakes) (hnone : stakes key = none) (hpos : 0 < stake.amount) :
    (c.add stake.exposureKey stake.amount stake.alphaType).Tallies
      (Function.update stakes key (some stake)) := by
  have hadd : c.add stake.exposureKey stake.amount stake.alphaType =
      { exposureUsed := c.exposureUsed + stake.amount
        openPositions := c.openPositions + 1
        strategyExposure := Function.update c.strategyExposure stake.alphaType
          (c.strategyExposure stake.alphaType + stake.amount)
        pairExposure := Function.update c.pairExposure stake.exposureKey
          (c.pairExposure stake.exposureKey + stake.amount)
        added := Function.update c.added stake.exposureKey stake.amount } :=
    if_neg (not_le.mpr hpos)
  rw [hadd]
  constructor
  · obtain ⟨S, hS⟩ := h.finite
    refine ⟨insert key S, fun other hother => ?_⟩
    by_cases hkey : other = key
    · exact Finset.mem_insert.mpr (Or.inl hkey)
    · rw [Function.update_of_ne hkey] at hother
      exact Finset.mem_insert_of_mem (hS other hother)
  · intro S hS
    obtain ⟨hmem, hcovers⟩ := hS.update_some hnone
    rw [Lib.tally_take hmem hnone, ← h.used S hcovers]
    exact add_comm _ _
  · intro S hS
    obtain ⟨hmem, hcovers⟩ := hS.update_some hnone
    rw [Lib.tally_take hmem hnone, ← h.positions S hcovers]
    exact add_comm _ _
  · intro alphaType S hS
    obtain ⟨hmem, hcovers⟩ := hS.update_some hnone
    rw [Lib.tally_take hmem hnone, ← h.strategy alphaType S hcovers]
    by_cases halpha : alphaType = stake.alphaType
    · subst halpha
      simp only [Function.update_self, if_true]
      rw [add_comm]
    · simp only [Function.update_of_ne halpha, if_neg (Ne.symm halpha), zero_add]
  · intro x S hS
    obtain ⟨hmem, hcovers⟩ := hS.update_some hnone
    rw [Lib.tally_take hmem hnone, ← h.pair x S hcovers]
    by_cases hx : x = stake.exposureKey
    · subst hx
      simp only [Function.update_self, if_true]
      rw [add_comm]
    · simp only [Function.update_of_ne hx, if_neg (Ne.symm hx), zero_add]

/-- Releasing what was added: no counter is cut off at zero. -/
theorem release (h : c.Tallies stakes) (hstake : stakes key = some stake)
    (hpos : ∀ other item, stakes other = some item → 0 < item.amount) :
    (c.release stake.exposureKey stake.amount stake.alphaType).Tallies
      (Function.update stakes key none) := by
  have hamount : 0 < stake.amount := hpos key stake hstake
  have hrelease : c.release stake.exposureKey stake.amount stake.alphaType =
      { c with
        exposureUsed := max (c.exposureUsed - stake.amount) 0
        openPositions := c.openPositions - 1
        strategyExposure := Function.update c.strategyExposure stake.alphaType
          (max (c.strategyExposure stake.alphaType - stake.amount) 0)
        pairExposure := Function.update c.pairExposure stake.exposureKey
          (max (c.pairExposure stake.exposureKey - stake.amount) 0) } :=
    if_neg (not_le.mpr hamount)
  -- a set that covers the stakes after the release covers them before, with the key
  have hbefore : ∀ {M : Type} [AddCommMonoid M] (value : Stake → M) (S : Finset PairKey),
      Covers S (Function.update stakes key none) →
        Covers (insert key S) stakes ∧
          value stake + tally S value (Function.update stakes key none) =
            tally (insert key S) value stakes := by
    intro M _ value S hS
    refine ⟨hS.update_none, ?_⟩
    rw [Lib.tally_eq_of_covers hS (Finset.subset_insert key S)]
    exact Lib.tally_drop (Finset.mem_insert_self key S) hstake
  have hcut : ∀ {used rest amount : ℚ}, amount + rest = used → 0 ≤ rest →
      max (used - amount) 0 = rest := by
    intro used rest amount hsum hrest
    rw [← hsum, add_sub_cancel_left, max_eq_left hrest]
  have hnonneg : ∀ (value : Stake → ℚ) (S : Finset PairKey),
      (∀ item : Stake, 0 < item.amount → 0 ≤ value item) →
        0 ≤ tally S value (Function.update stakes key none) := by
    intro value S hvalue
    apply Finset.sum_nonneg
    intro other _
    by_cases hkey : other = key
    · subst hkey
      rw [Function.update_self]
      exact le_rfl
    · rw [Function.update_of_ne hkey]
      cases hother : stakes other with
      | none => exact le_rfl
      | some item => exact hvalue item (hpos other item hother)
  rw [hrelease]
  constructor
  · obtain ⟨S, hS⟩ := h.finite
    refine ⟨S, fun other hother => hS other ?_⟩
    intro hnone
    by_cases hkey : other = key
    · rw [hkey, hstake] at hnone
      cases hnone
    · rw [Function.update_of_ne hkey, hnone] at hother
      exact hother rfl
  · intro S hS
    obtain ⟨hcovers, hsum⟩ := hbefore (fun s => s.amount) S hS
    rw [← h.used _ hcovers] at hsum
    exact hcut hsum (hnonneg _ S fun item hitem => hitem.le)
  · intro S hS
    obtain ⟨hcovers, hsum⟩ := hbefore (fun _ => 1) S hS
    rw [← h.positions _ hcovers] at hsum
    simp only [← hsum, Nat.add_sub_cancel_left]
  · intro alphaType S hS
    obtain ⟨hcovers, hsum⟩ :=
      hbefore (fun s => if s.alphaType = alphaType then s.amount else 0) S hS
    rw [← h.strategy alphaType _ hcovers] at hsum
    by_cases halpha : alphaType = stake.alphaType
    · subst halpha
      simp only [if_true] at hsum
      simp only [Function.update_self]
      apply hcut hsum
      apply hnonneg
      intro item hitem
      split
      · exact hitem.le
      · exact le_rfl
    · simp only [if_neg (Ne.symm halpha), zero_add] at hsum
      simp only [Function.update_of_ne halpha, hsum]
  · intro x S hS
    obtain ⟨hcovers, hsum⟩ := hbefore (fun s => if s.exposureKey = x then s.amount else 0) S hS
    rw [← h.pair x _ hcovers] at hsum
    by_cases hx : x = stake.exposureKey
    · subst hx
      simp only [if_true] at hsum
      simp only [Function.update_self]
      apply hcut hsum
      apply hnonneg
      intro item hitem
      split
      · exact hitem.le
      · exact le_rfl
    · simp only [if_neg (Ne.symm hx), zero_add] at hsum
      simp only [Function.update_of_ne hx, hsum]

end Counters.Tallies

/-! ## What a move does to the stake -/

theorem added_add (c : Counters) (x : ExposureKey) {notional : ℚ} (hpos : 0 < notional)
    (alphaType : AlphaType) :
    (c.add x notional alphaType).added = Function.update c.added x notional := by
  unfold Counters.add
  rw [if_neg (not_le.mpr hpos)]

theorem added_release (c : Counters) (x : ExposureKey) (notional : ℚ) (alphaType : AlphaType) :
    (c.release x notional alphaType).added = c.added := by
  unfold Counters.release
  split <;> rfl

/-- What is released later for a pair is what was added for it. -/
def Slot.Backed (key : PairKey) (s : Slot) : Prop :=
  s.order.Holding →
    s.order.entryNotional = some (s.desk.counters.added (exposureKey key s.order.direction)) ∧
      0 < s.desk.counters.added (exposureKey key s.order.direction)

/-- The labels that leave the accounting intact: a fill keeps the notional, and a
placement is not made at a price of zero or less. -/
def Act.Sound (o : OrderState) : Act → Prop
  | .entryFill fill => ∀ size, fill.size = some size →
      (fill.price.or o.entryPrice).map (· * size) = o.entryNotional
  | .placed _ result => ∀ price, result.priceUsed = some price → 0 < price
  | _ => True

/-- A move adds a stake, releases one, or changes neither stake nor counters. -/
inductive StakeEffect (key : PairKey) (s t : Slot) : Prop
  | same (hstake : t.stake key = s.stake key) (hcounters : t.desk.counters = s.desk.counters)
  | add (stake : Stake) (hnone : s.stake key = none) (hsome : t.stake key = some stake)
      (hkey : stake.exposureKey = exposureKey key t.order.direction) (hpos : 0 < stake.amount)
      (hcounters : t.desk.counters =
        s.desk.counters.add stake.exposureKey stake.amount stake.alphaType)
  | release (stake : Stake) (hsome : s.stake key = some stake) (hnone : t.stake key = none)
      (hcounters : t.desk.counters =
        s.desk.counters.release stake.exposureKey stake.amount stake.alphaType)

/-- Nothing was added for another pair. -/
theorem StakeEffect.added_of_ne {s t : Slot} (h : StakeEffect key s t) {other : PairKey}
    (hkey : other ≠ key) (direction : ℤ) :
    t.desk.counters.added (exposureKey other direction) =
      s.desk.counters.added (exposureKey other direction) := by
  cases h with
  | same _ hcounters => rw [hcounters]
  | add stake _ _ hstake hpos hcounters =>
    rw [hcounters, added_add _ _ hpos, hstake, Function.update_of_ne (exposureKey_ne hkey _ _)]
  | release stake _ _ hcounters => rw [hcounters, added_release]

theorem StakeEffect.of_order {s t : Slot} (hhold : t.order.Holding ↔ s.order.Holding)
    (hdir : t.order.direction = s.order.direction) (halpha : t.order.alphaType = s.order.alphaType)
    (hcounters : t.desk.counters = s.desk.counters) : StakeEffect key s t := by
  refine StakeEffect.same ?_ hcounters
  simp only [Slot.stake, stakeOf, hhold, hdir, halpha, hcounters]

theorem StakeEffect.of_not_holding {s t : Slot} (hs : ¬ s.order.Holding) (ht : ¬ t.order.Holding)
    (hcounters : t.desk.counters = s.desk.counters) : StakeEffect key s t := by
  refine StakeEffect.same ?_ hcounters
  simp only [Slot.stake, stakeOf_of_not_holding hs, stakeOf_of_not_holding ht]

theorem Slot.backed_of_not_holding {s : Slot} (h : ¬ s.order.Holding) : s.Backed key :=
  fun hhold => absurd hhold h

/-- The same holding with the same notional. -/
theorem Slot.Backed.of_order {s t : Slot} (h : s.Backed key)
    (hhold : t.order.Holding → s.order.Holding) (hdir : t.order.direction = s.order.direction)
    (hnotional : t.order.entryNotional = s.order.entryNotional)
    (hcounters : t.desk.counters = s.desk.counters) : t.Backed key := by
  intro ht
  have hs := h (hhold ht)
  rwa [hnotional, hdir, hcounters]

theorem not_holding_cooldown (o : OrderState) : ¬ o.cooldown.Holding := by
  simp [OrderState.Holding, OrderState.Open, OrderState.cooldown]

theorem not_holding_idle : ¬ OrderState.idle.Holding := by
  simp [OrderState.Holding, OrderState.Open, OrderState.idle]

theorem not_holding_of_state {o : OrderState} {state : TradeState} (h : o.state = state)
    (hwork : state ≠ .entryWorking) (hopen : state ≠ .positionOpen) (hexit : state ≠ .exitWorking) :
    ¬ o.Holding := by
  rintro (hs | hs | hs)
  · exact hwork (h.symm.trans hs)
  · exact hopen (h.symm.trans hs)
  · exact hexit (h.symm.trans hs)

/-- A pair that holds something and is backed gives its stake up. -/
theorem StakeEffect.of_release {s t : Slot} (hhold : s.order.Holding) (hbacked : s.Backed key)
    (ht : ¬ t.order.Holding)
    (hcounters : t.desk.counters = s.desk.counters.releaseOf key s.order) :
    StakeEffect key s t := by
  refine StakeEffect.release _ (stakeOf_of_holding hhold) (stakeOf_of_not_holding ht) ?_
  rw [hcounters, Counters.releaseOf, (hbacked hhold).1]

/-- A pair that held nothing gets an order worth `notional`. -/
theorem StakeEffect.of_add {s t : Slot} {notional : ℚ} {alphaType : AlphaType}
    (hs : ¬ s.order.Holding) (ht : t.order.Holding) (hpos : 0 < notional)
    (halpha : t.order.alphaType = some alphaType)
    (hcounters : t.desk.counters =
      s.desk.counters.add (exposureKey key t.order.direction) notional alphaType) :
    StakeEffect key s t := by
  have hadded : t.desk.counters.added (exposureKey key t.order.direction) = notional := by
    rw [hcounters, added_add _ _ hpos, Function.update_self]
  refine StakeEffect.add ⟨exposureKey key t.order.direction, alphaType, notional⟩
    (stakeOf_of_not_holding hs) ?_ rfl hpos hcounters
  rw [Slot.stake, stakeOf_of_holding ht, hadded, halpha]
  rfl

theorem Slot.backed_of_add {s t : Slot} {notional : ℚ} {alphaType : AlphaType} (hpos : 0 < notional)
    (hnotional : t.order.entryNotional = some notional)
    (hcounters : t.desk.counters =
      s.desk.counters.add (exposureKey key t.order.direction) notional alphaType) :
    t.Backed key := by
  intro _
  rw [hcounters, added_add _ _ hpos, Function.update_self]
  exact ⟨hnotional, hpos⟩

/-- A move that is neither a placement nor the end of a holding. -/
theorem Slot.Backed.keep {s t : Slot} (h : s.Backed key)
    (hhold : t.order.Holding ↔ s.order.Holding) (hdir : t.order.direction = s.order.direction)
    (halpha : t.order.alphaType = s.order.alphaType)
    (hnotional : t.order.entryNotional = s.order.entryNotional)
    (hcounters : t.desk.counters = s.desk.counters) : StakeEffect key s t ∧ t.Backed key :=
  ⟨StakeEffect.of_order hhold hdir halpha hcounters,
    h.of_order hhold.mp hdir hnotional hcounters⟩

/-- Nothing is held before or after. -/
theorem Slot.backed_idle {s t : Slot} (hs : ¬ s.order.Holding) (ht : ¬ t.order.Holding)
    (hcounters : t.desk.counters = s.desk.counters) : StakeEffect key s t ∧ t.Backed key :=
  ⟨StakeEffect.of_not_holding hs ht hcounters, Slot.backed_of_not_holding ht⟩

theorem Upkeep.stakeEffect {s t : Slot} (h : Upkeep key s t) {live : Bool}
    (hwf : s.order.Wf live s.hasBar) (hbacked : s.Backed key) :
    StakeEffect key s t ∧ t.Backed key := by
  cases h with
  | expire hstate =>
    exact Slot.backed_idle (not_holding_of_state hstate (by simp) (by simp) (by simp))
      not_holding_idle rfl
  | forget hstate hdir =>
    refine Slot.backed_idle (fun hhold => ?_) not_holding_idle rfl
    exact (hwf.held hhold).2.2.2.2.2 hdir
  | giveUp hstate hbar =>
    exact Slot.backed_idle (not_holding_of_state hstate (by simp) (by simp) (by simp))
      (not_holding_cooldown _) rfl
  | giveUpSending entry qty price hstate hbar =>
    exact Slot.backed_idle (not_holding_of_state hstate (by simp) (by simp) (by simp))
      (not_holding_cooldown _) rfl
  | _ => exact hbacked.keep Iff.rfl rfl rfl rfl rfl

/-- What a move does to the stake of its pair, and that the pair stays backed. -/
theorem Move.stakeEffect {s t : Slot} {a : Act} (h : Move setup key s a t)
    (hwf : s.order.Wf setup.isLive s.hasBar) (hplanned : s.order.Planned)
    (hbacked : s.Backed key) (hsound : a.Sound s.order) :
    StakeEffect key s t ∧ t.Backed key := by
  have hidle : s.order.state = .idle → ¬ s.order.Holding := fun hs =>
    not_holding_of_state hs (by simp) (by simp) (by simp)
  cases h with
  | upkeep hup => exact hup.stakeEffect hwf hbacked
  | queueEntry entry qty first rest target _ hstate =>
    refine Slot.backed_idle (hidle hstate) ?_ rfl
    exact @not_holding_of_state _ .entryPlacing rfl (by simp) (by simp) (by simp)
  | enterPaper entry qty price rest now _ hstate _ _ _ hsized =>
    obtain ⟨hqty, hprices⟩ := hsized.pos
    have hpos : 0 < price * qty := mul_pos (hprices price List.mem_cons_self) hqty
    exact ⟨StakeEffect.of_add (hidle hstate) (Or.inl rfl) hpos rfl rfl,
      Slot.backed_of_add hpos rfl rfl⟩
  | placed reqId result entry price qty now hreq hentry _ hprice hqty =>
    have hstate : s.order.state = .entryPlacing := hwf.placing.mpr (by simp [hreq])
    obtain ⟨entry', hentry', hdir, halpha, _⟩ := hwf.pending reqId hreq
    rw [hentry] at hentry'
    cases hentry'
    obtain ⟨qty', hqty', hqtypos⟩ := hplanned.qty (Or.inr (Or.inl hstate))
    obtain ⟨price', hprice', hpricepos⟩ := hplanned.price hstate
    have hpos : 0 < price * qty := by
      rw [hqty, hqty', hprice, hprice']
      refine mul_pos ?_ hqtypos
      cases hused : result.priceUsed with
      | none => exact hpricepos
      | some used => exact hsound used hused
    have hcounters : s.desk.counters.add (exposureKey key entry.direction) (price * qty)
        (s.order.alphaType.getD entry.alphaType) =
        s.desk.counters.add (exposureKey key s.order.direction) (price * qty) entry.alphaType := by
      rw [hdir, halpha]
      rfl
    have hnot : ¬ s.order.Holding := not_holding_of_state hstate (by simp) (by simp) (by simp)
    exact ⟨StakeEffect.of_add hnot (Or.inl rfl) hpos halpha hcounters,
      Slot.backed_of_add hpos rfl hcounters⟩
  | refused reqId hreq =>
    have hstate : s.order.state = .entryPlacing := hwf.placing.mpr (by simp [hreq])
    exact Slot.backed_idle (not_holding_of_state hstate (by simp) (by simp) (by simp))
      (not_holding_cooldown _) rfl
  | entryFill fill now hbar htakes =>
    have hhold := hwf.holding_of_takesEntryFill htakes
    refine hbacked.keep (iff_of_true (Or.inr (Or.inl rfl)) hhold) rfl rfl ?_ rfl
    simp only [OrderState.entryFilled]
    cases hsize : fill.size with
    | none => rfl
    | some size => exact hsound size hsize
  | openExit qty prices result calls _ hstate =>
    have hopen : s.order.Holding := Or.inr (Or.inl hstate)
    have hstart : OrderState.SameEntry s.order { s.order with state := .exitWorking } :=
      ⟨rfl, rfl, rfl, rfl, rfl, rfl, rfl, rfl⟩
    have hsame := hstart.trans (OrderState.exitPlaced_sameEntry _ result)
    exact hbacked.keep
      (iff_of_true (Or.inr (Or.inr (OrderState.exitPlaced_state _ result))) hopen)
      hsame.direction hsame.alphaType hsame.notional rfl
  | retryExit qty prices result calls _ hstate =>
    have hopen : s.order.Holding := Or.inr (Or.inr hstate)
    have hsame := OrderState.exitPlaced_sameEntry s.order result
    exact hbacked.keep
      (iff_of_true (Or.inr (Or.inr ((OrderState.exitPlaced_state _ result).trans hstate))) hopen)
      hsame.direction hsame.alphaType hsame.notional rfl
  | exitFill fill hbar htakes hsome =>
    have hhold : s.order.Holding := Or.inr (hwf.open_of_takesExitFill htakes)
    exact ⟨StakeEffect.of_release hhold hbacked (not_holding_cooldown _) rfl,
      Slot.backed_of_not_holding (not_holding_cooldown _)⟩
  | cancelEntry cause hcause hpaper hbar =>
    have hhold : s.order.Holding := hwf.holding_of_cause hcause hpaper
    exact ⟨StakeEffect.of_release hhold hbacked (not_holding_cooldown _) rfl,
      Slot.backed_of_not_holding (not_holding_cooldown _)⟩
  | abandonEntry cause hcause hbar =>
    have hbar' := hwf.bar (hwf.not_idle_of_cause hcause)
    rw [hbar] at hbar'
    cases hbar'
  | cancelExit => exact hbacked.keep Iff.rfl rfl rfl rfl rfl
  | entryPaper price now hdry hent =>
    have hwork := hwf.working_of_entering hent (hwf.dry hdry)
    exact hbacked.keep (iff_of_true (Or.inr (Or.inl rfl)) (Or.inl hwork)) rfl rfl rfl rfl
  | openPaper hdry hstate =>
    have hopen : s.order.Holding := Or.inr (Or.inl hstate)
    exact hbacked.keep (iff_of_true (Or.inr (Or.inr rfl)) hopen) rfl rfl rfl rfl
  | exitPaper hdry hstate =>
    have hhold : s.order.Holding := Or.inr (Or.inr hstate)
    exact ⟨StakeEffect.of_release hhold hbacked (not_holding_cooldown _) rfl,
      Slot.backed_of_not_holding (not_holding_cooldown _)⟩

/-! ## Whole engines -/

/-- The books of a view balance: the counters are the tallies of the stakes, and
every stake is what will be released. -/
structure View.Balanced (setup : Setup) (v : View) : Prop where
  inv : v.Inv setup
  planned : ∀ key, (v.order key).Planned
  tallies : v.desk.counters.Tallies v.stakes
  backed : ∀ key, (v.slot key).Backed key

/-- Only the stake of the moved pair changes. -/
theorem View.stakes_put {v : View} {t : Slot} (h : StakeEffect key (v.slot key) t) :
    (v.put key t).stakes = Function.update v.stakes key (t.stake key) := by
  funext other
  by_cases hkey : other = key
  · subst hkey
    rw [Function.update_self]
    simp only [View.stakes, View.put_desk, View.put_order_self, Slot.stake]
  · rw [Function.update_of_ne hkey]
    simp only [View.stakes, View.put_desk, View.put_order_of_ne v t hkey, stakeOf]
    rw [h.added_of_ne hkey]
    rfl

theorem View.Balanced.amount_pos {v : View} (h : v.Balanced setup) (other : PairKey) (item : Stake)
    (hitem : v.stakes other = some item) : 0 < item.amount := by
  simp only [View.stakes, stakeOf] at hitem
  split at hitem
  · rename_i hhold
    cases hitem
    exact (h.backed other hhold).2
  · cases hitem

/-- A backed pair stays backed when another pair moves. -/
theorem View.backed_put_of_ne {v : View} {t : Slot} {other : PairKey}
    (h : StakeEffect key (v.slot key) t) (hkey : other ≠ key)
    (hbacked : (v.slot other).Backed other) : ((v.put key t).slot other).Backed other := by
  intro hhold
  simp only [View.slot_order, View.slot_desk, View.put_desk,
    View.put_order_of_ne v t hkey] at hhold ⊢
  rw [h.added_of_ne hkey]
  exact hbacked hhold

/-- One sound move of any pair. -/
theorem View.Balanced.move {v : View} {a : Act} {t : Slot} (h : v.Balanced setup)
    (hmove : Trade.Move setup key (v.slot key) a t) (hsound : a.Sound (v.order key)) :
    (v.put key t).Balanced setup := by
  obtain ⟨heffect, hbacked⟩ :=
    hmove.stakeEffect (h.inv.wf key) (h.planned key) (h.backed key) hsound
  have hview : View.Move setup v (key, a) (v.put key t) := ⟨t, hmove, rfl⟩
  refine ⟨hview.inv h.inv, ?_, ?_, ?_⟩
  · intro other
    by_cases hkey : other = key
    · subst hkey
      rw [View.put_order_self]
      exact hmove.planned (h.inv.wf other) (h.planned other)
    · rw [View.put_order_of_ne v t hkey]
      exact h.planned other
  · rw [View.stakes_put heffect, View.put_desk]
    cases heffect with
    | same hstake hcounters =>
      rw [hcounters, hstake]
      have hself : Function.update v.stakes key ((v.slot key).stake key) = v.stakes :=
        Function.update_eq_self key v.stakes
      rw [hself]
      exact h.tallies
    | add stake hnone hsome _ hpos hcounters =>
      rw [hcounters, hsome]
      exact h.tallies.add hnone hpos
    | release stake hsome hnone hcounters =>
      rw [hcounters, hnone]
      exact h.tallies.release hsome h.amount_pos
  · intro other
    by_cases hkey : other = key
    · subst hkey
      rw [View.slot_put_self]
      exact hbacked
    · exact View.backed_put_of_ne heffect hkey (h.backed other)

/-! ## Sound messages -/

/-- An entry fill that the message makes the engine take keeps the notional of its
pair: the fill is worth what was added. -/
def TradeMessage.KeepsNotional (env : Env) (eng : TradeEngine) (message : TradeMessage) : Prop :=
  ∀ taken ∈ message.takenEntryFill env eng, ∀ size ∈ taken.2.size,
    (taken.2.price.or (eng.stateOf taken.1).entryPrice).map (· * size) =
      (eng.stateOf taken.1).entryNotional

/-- A placement that the message reports was not made at a price of zero or less. -/
def TradeMessage.PlacesAtPrice : TradeMessage → Prop
  | .orderResponse (.placeChase _ _ result) => ∀ price ∈ result.priceUsed, 0 < price
  | _ => True

instance (env : Env) (eng : TradeEngine) (message : TradeMessage) :
    Decidable (message.KeepsNotional env eng) :=
  inferInstanceAs (Decidable (∀ taken ∈ _, ∀ size ∈ _, _ = _))

instance (message : TradeMessage) : Decidable message.PlacesAtPrice :=
  match message with
  | .orderResponse (.placeChase _ _ _) => inferInstanceAs (Decidable (∀ price ∈ _, 0 < price))
  | .orderResponse (.cancelOrder _ _ _) => inferInstanceAs (Decidable True)
  | .orderResponse (.fetchFills _ _ _ _) => inferInstanceAs (Decidable True)
  | .pairBar _ _ => inferInstanceAs (Decidable True)
  | .shock _ _ => inferInstanceAs (Decidable True)
  | .cancelCheckTick _ => inferInstanceAs (Decidable True)
  | .orderUpdate _ => inferInstanceAs (Decidable True)
  | .tradeRecord _ => inferInstanceAs (Decidable True)

/-- The moves of a sound message are sound. -/
theorem MessageAllow.sound {eng : TradeEngine} {message : TradeMessage} {s : Slot} {a : Act}
    (hkeeps : message.KeepsNotional env eng) (hplaces : message.PlacesAtPrice)
    (h : MessageAllow setup env eng message key s a) : a.Sound s.order := by
  cases a with
  | entryFill fill =>
    obtain ⟨htaken, horder⟩ := h.takenEntryFill
    intro size hsize
    rw [horder]
    exact hkeeps _ htaken size hsize
  | placed reqId result =>
    have hmessage := h.placed_message
    subst hmessage
    exact fun price hprice => hplaces price hprice
  | _ => trivial

/-- The counters say what is held. -/
theorem handle_balanced {eng : TradeEngine} {message : TradeMessage} (hinv : eng.Inv setup)
    (h : eng.view.Balanced setup) (hkeeps : message.KeepsNotional env eng)
    (hplaces : message.PlacesAtPrice) :
    (TradeEngine.handle setup env eng message).view.Balanced setup := by
  have hsteps := @TradeEngine.handle_steps setup env eng message hinv
  refine Lib.Chain.inv (View.Balanced setup) ?_ hsteps h
  rintro v ⟨key, a⟩ w hv hallow ⟨t, hmove, rfl⟩
  exact hv.move hmove (hallow.sound hkeeps hplaces)

/-! ## The sums -/

namespace TradeEngine

variable (eng : TradeEngine)

/-- The pairs that hold an order or a position. -/
def holders : Finset PairKey :=
  eng.states.keys.toFinset.filter fun key => (eng.stateOf key).Holding

/-- What `add_exposure` added for the order or position of a pair. -/
def addedFor (key : PairKey) : ℚ :=
  eng.desk.books.added (exposureKey key (eng.stateOf key).direction)

/-- Every counter is the sum, over the pairs that hold an order or a position, of what
was added for them. -/
structure Conserved : Prop where
  used : eng.desk.books.risk.exposureUsed = ∑ key ∈ eng.holders, eng.addedFor key
  positions : eng.desk.books.risk.openPositions = eng.holders.card
  strategy : ∀ alphaType, eng.desk.books.risk.strategyExposure alphaType =
    ∑ key ∈ eng.holders with (eng.stateOf key).alphaType = some alphaType, eng.addedFor key
  pair : ∀ x, eng.desk.books.pairExposure x =
    ∑ key ∈ eng.holders with exposureKey key (eng.stateOf key).direction = x, eng.addedFor key
  released : (∀ key, (eng.stateOf key).state = .idle ∨ (eng.stateOf key).state = .cooldown) →
    eng.desk.books.risk.exposureUsed = 0 ∧ eng.desk.books.risk.openPositions = 0 ∧
      (∀ alphaType, eng.desk.books.risk.strategyExposure alphaType = 0) ∧
      ∀ x, eng.desk.books.pairExposure x = 0

theorem covers_keys : Covers eng.states.keys.toFinset eng.view.stakes := by
  intro key hstake
  rw [List.mem_toFinset, ← AList.mem_keys]
  by_contra hkey
  have hidle : eng.stateOf key = PairTradeState.default := by
    unfold stateOf
    rw [AList.lookup_eq_none.mpr hkey]
    rfl
  apply hstake
  have hnot : ¬ (eng.view.order key).Holding := by
    simp only [view, hidle]
    exact not_holding_idle
  exact stakeOf_of_not_holding hnot

/-- A tally of the stakes is a sum over the holders. -/
theorem tally_stakes {M : Type} [AddCommMonoid M] (value : Stake → M) :
    tally eng.states.keys.toFinset value eng.view.stakes =
      ∑ key ∈ eng.holders, value
        ⟨exposureKey key (eng.stateOf key).direction, (eng.stateOf key).alphaType.getD .gapB,
          eng.addedFor key⟩ := by
  unfold tally holders
  rw [Finset.sum_filter]
  apply Finset.sum_congr rfl
  intro key _
  by_cases hhold : (eng.stateOf key).Holding
  · rw [if_pos hhold]
    have hstake : eng.view.stakes key = some _ := stakeOf_of_holding hhold
    rw [hstake]
    rfl
  · rw [if_neg hhold]
    have hstake : eng.view.stakes key = none := stakeOf_of_not_holding hhold
    rw [hstake]
    rfl

theorem conserved_of_balanced (h : eng.view.Balanced setup) : eng.Conserved := by
  have hcovers := eng.covers_keys
  have hused : eng.desk.books.risk.exposureUsed = ∑ key ∈ eng.holders, eng.addedFor key := by
    rw [← eng.tally_stakes fun s => s.amount]
    exact h.tallies.used _ hcovers
  have hpositions : eng.desk.books.risk.openPositions = eng.holders.card := by
    rw [Finset.card_eq_sum_ones, ← eng.tally_stakes fun _ => 1]
    exact h.tallies.positions _ hcovers
  have hstrategy : ∀ alphaType, eng.desk.books.risk.strategyExposure alphaType =
      ∑ key ∈ eng.holders with (eng.stateOf key).alphaType = some alphaType,
        eng.addedFor key := by
    intro alphaType
    have htally : eng.desk.books.risk.strategyExposure alphaType = _ :=
      h.tallies.strategy alphaType _ hcovers
    rw [htally, eng.tally_stakes, Finset.sum_filter]
    apply Finset.sum_congr rfl
    intro key hkey
    have hhold : (eng.stateOf key).Holding := (Finset.mem_filter.mp hkey).2
    obtain ⟨alpha, halpha⟩ := Option.isSome_iff_exists.mp
      ((h.inv.wf key).held hhold).2.2.2.2.1
    have halpha' : (eng.stateOf key).alphaType = some alpha := halpha
    simp only [halpha', Option.getD_some, Option.some.injEq]
  have hpair : ∀ x, eng.desk.books.pairExposure x =
      ∑ key ∈ eng.holders with exposureKey key (eng.stateOf key).direction = x,
        eng.addedFor key := by
    intro x
    have htally : eng.desk.books.pairExposure x = _ := h.tallies.pair x _ hcovers
    rw [htally, eng.tally_stakes, Finset.sum_filter]
  refine ⟨hused, hpositions, hstrategy, hpair, fun hidle => ?_⟩
  have hnone : eng.holders = ∅ := by
    rw [Finset.eq_empty_iff_forall_notMem]
    intro key hkey
    have hhold : (eng.stateOf key).Holding := (Finset.mem_filter.mp hkey).2
    rcases hidle key with hs | hs
    · exact not_holding_of_state hs (by simp) (by simp) (by simp) hhold
    · exact not_holding_of_state hs (by simp) (by simp) (by simp) hhold
  rw [hnone] at hused hpositions
  refine ⟨hused, hpositions, fun alphaType => ?_, fun x => ?_⟩
  · rw [hstrategy, hnone]
    rfl
  · rw [hpair, hnone]
    rfl

end TradeEngine

theorem balanced_start (now : ℤ) : (TradeEngine.start now).view.Balanced setup := by
  have hinv := @TradeEngine.start_inv setup now
  refine ⟨⟨hinv.wf, hinv.bars⟩,
    fun _ => OrderState.planned_of_not_entering OrderState.not_entering_idle, ?_,
    fun _ => Slot.backed_of_not_holding not_holding_idle⟩
  have hnone : (TradeEngine.start now).view.stakes = fun _ => none := by
    funext key
    exact stakeOf_of_not_holding not_holding_idle
  rw [hnone]
  exact Counters.Tallies.start

/-- In a run whose entry fills keep the notional of their pair, and whose placements are
at positive prices, exposure is conserved. -/
theorem conserved_of_runMeets (now : ℤ) (messages : List (Env × TradeMessage))
    (hguard : (engineMachine setup).RunMeets
      (fun eng e => e.2.KeepsNotional e.1 eng ∧ e.2.PlacesAtPrice) (TradeEngine.start now)
      messages) :
    ((TradeEngine.start now).handleAll setup messages).Conserved := by
  have hboth : ((TradeEngine.start now).handleAll setup messages).Inv setup ∧
      ((TradeEngine.start now).handleAll setup messages).view.Balanced setup := by
    refine (engineMachine setup).inv_of_runMeets
      (fun eng => eng.Inv setup ∧ eng.view.Balanced setup) ?_
      ⟨TradeEngine.start_inv now, balanced_start now⟩ hguard (run_engineMachine _ messages)
    rintro eng ⟨env, message⟩ eng' ⟨hinv, hbalanced⟩ ⟨hkeeps, hplaces⟩ hstep
    cases hstep
    exact ⟨TradeEngine.handle_inv eng message hinv,
      handle_balanced hinv hbalanced hkeeps hplaces⟩
  exact TradeEngine.conserved_of_balanced _ hboth.2

/-- The whole entry is traded at its price, and the whole exit after it. -/
def sampleRoundTrip : List (Env × TradeMessage) :=
  sampleEntering ++ [(sampleEnv 1200 "x1", sampleTrade "e1" "BUY" (1 / 2) 20),
    (sampleEnv 1300 "x2", sampleTrade "x1" "SELL" (3 / 5) 20)]

theorem conserved_sampleRoundTrip : (sampleEngine sampleRoundTrip).Conserved :=
  conserved_of_runMeets 0 sampleRoundTrip (by decide +kernel)

/-- Only 8 of the 20 shares of the entry are traded, then the exit: the entry added 10,
the exit releases 4. -/
def samplePartialTrip : List (Env × TradeMessage) :=
  sampleEntering ++ [(sampleEnv 1200 "x1", sampleTrade "e1" "BUY" (1 / 2) 8),
    (sampleEnv 1300 "x2", sampleTrade "x1" "SELL" (3 / 5) 8)]

/-- Nothing is held any more, and 6 stay in use. -/
theorem not_conserved_partial_entry :
    (engineMachine sampleSetup).Reachable (sampleEngine samplePartialTrip) ∧
      (∀ key, ((sampleEngine samplePartialTrip).stateOf key).state = .idle ∨
        ((sampleEngine samplePartialTrip).stateOf key).state = .cooldown) ∧
      (sampleEngine samplePartialTrip).desk.books.risk.exposureUsed = 6 ∧
      ¬ (sampleEngine samplePartialTrip).Conserved := by
  have hkeys : (sampleEngine samplePartialTrip).states.keys = [sampleKey] := by decide +kernel
  have hcool : ((sampleEngine samplePartialTrip).stateOf sampleKey).state = .cooldown := by
    decide +kernel
  have hused : (sampleEngine samplePartialTrip).desk.books.risk.exposureUsed = 6 := by
    decide +kernel
  have hidle : ∀ key, ((sampleEngine samplePartialTrip).stateOf key).state = .idle ∨
      ((sampleEngine samplePartialTrip).stateOf key).state = .cooldown := by
    intro key
    by_cases hkey : key = sampleKey
    · rw [hkey]
      exact Or.inr hcool
    · left
      have hlookup : (sampleEngine samplePartialTrip).states.lookup key = none := by
        rw [AList.lookup_eq_none, AList.mem_keys, hkeys]
        simpa using hkey
      unfold TradeEngine.stateOf
      rw [hlookup]
      rfl
  refine ⟨reachable_sampleEngine _, hidle, hused, fun hconserved => ?_⟩
  have hzero := (hconserved.released hidle).1
  rw [hused] at hzero
  exact absurd hzero (by decide)

end AlphaMonitor.Trade
