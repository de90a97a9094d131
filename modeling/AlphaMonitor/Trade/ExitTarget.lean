import AlphaMonitor.Trade.Runs

/-!
# Where the exit target lies

The exit target is the entry price moved by what the market's moves since the entry are
worth, shrunk with time and inventory, but by no less than the profit floor.  Both floors
of `compute_exit_target` compare sizes, and the worth of the moves is multiplied with the
direction although the moves are signed.  So the target of a position may lie on its
losing side, and it does for a short position whose market falls.

## Main definitions

- `marketEdge`: what the moves are worth in price
- `settledEdge`: the profit per unit at the target

## Main results

- `computeExitTarget_eq`: the target in these terms
- `exit_target_floor_iff`: when the target brings the floor in
- `exit_target_mirror_iff`: when the target of the mirrored position is the mirrored target
-/

namespace AlphaMonitor.Trade

/-! ## The parts of the target -/

/-- `min_profit_per_unit`, for a quantity that is not zero. -/
def minProfitPerUnit (cfg : TradeConfig) (env : Env) (entryPrice entryQty : ℚ) : ℚ :=
  (gasEstUsd cfg env * cfg.gasMult + cfg.gasBufferUsd +
    env.feeBps / 10000 * entryPrice * entryQty * 2) / entryQty

/-- The shock's part of `base_edge`. -/
def shockEdge (cfg : TradeConfig) (st : PairTradeState) : ℚ :=
  match st.alphaType, st.shock with
  | some .shockA, some shock => cfg.tpA4Shock * shock.magnitude
  | _, _ => 0

/-- The signed moves' part of `base_edge`. -/
def movesEdge (cfg : TradeConfig) (st : PairTradeState) (flow : PmFlow) : ℚ :=
  cfg.tpA1 * flow.pmMove +
    cfg.tpA2 * (st.pmPeak.getD flow.pmMove - st.pmMoveEntry.getD flow.pmMove) +
    cfg.tpA3 * flow.pmMom

/-- `edge_price`: what the moves and the shock are worth in price. -/
def marketEdge (cfg : TradeConfig) (st : PairTradeState) (flow : PmFlow) (basePm : ℚ) : ℚ :=
  (movesEdge cfg st flow + shockEdge cfg st) * basePm

/-- What is left of an edge after the holding time and at the present inventory. -/
def exitShrink (setup : Setup) (env : Env) (books : Books) (st : PairTradeState) : ℚ :=
  let cfg := setup.cfg
  let holdingMs := (st.entryTsMs.map fun ts => max (env.now - ts) 0).getD 0
  let decayPerSec := (st.alphaType.map cfg.alphaDecayPerSec).getD cfg.targetDecayPerSec
  -- an alpha type may bring its own decay
  let globalCap := max cfg.balanceTotalUsd 1 * cfg.maxGlobalExposureFrac
  let invRatio :=
    -- without a cap nothing counts as inventory
    if globalCap > 0 then clamp (books.risk.exposureUsed / globalCap) 0 1 else 0
  -- a tenth of the edge stays after any time, a half at any inventory
  max (1 - decayPerSec * (holdingMs / 1000)) (1 / 10) * clamp (1 - cfg.invK * invRatio) (1 / 2) 1

theorem exitShrink_pos (setup : Setup) (env : Env) (books : Books) (st : PairTradeState) :
    0 < exitShrink setup env books st := by
  -- both factors are clamped away from zero
  have hdecay : ∀ x : ℚ, 0 < max x (1 / 10) := fun x =>
    lt_of_lt_of_le (by norm_num) (le_max_right x (1 / 10))
  have hinv : ∀ x : ℚ, 0 < clamp x (1 / 2) 1 := fun x =>
    lt_min (lt_of_lt_of_le (by norm_num) (le_max_right x (1 / 2))) one_pos
  exact mul_pos (hdecay _) (hinv _)

/-- The profit per unit at the target, for an edge, the least profit per unit `least`, what is
left of an edge, and the floor below which no target goes. -/
def settledEdge (least shrink floor edge : ℚ) : ℚ :=
  -- `min_profit_per_unit` replaces an edge that is smaller in size
  let edge := if |edge| < least then least else edge
  -- and the floor what time and inventory have left of it
  if |edge * shrink| < |floor| then floor else edge * shrink

/-- The direction of a position. -/
def IsDirection (direction : ℤ) : Prop := direction = 1 ∨ direction = -1

instance (direction : ℤ) : Decidable (IsDirection direction) :=
  inferInstanceAs (Decidable (direction = 1 ∨ direction = -1))

theorem IsDirection.abs_mul {direction : ℤ} (h : IsDirection direction) (x : ℚ) :
    |x * direction| = |x| := by
  rcases h with rfl | rfl <;> simp

theorem IsDirection.mul_self {direction : ℤ} (h : IsDirection direction) :
    (direction : ℚ) * direction = 1 := by
  rcases h with rfl | rfl <;> norm_num

/-- The direction can be taken out of both floors. -/
theorem settledEdge_mul {direction : ℤ} (hdir : IsDirection direction)
    (least decay inv floor edge : ℚ) :
    (if |(if |edge * direction| < least then least * direction else edge * direction) * decay *
        inv| < |floor * direction| then floor * direction
      else (if |edge * direction| < least then least * direction else edge * direction) * decay *
        inv) = settledEdge least (decay * inv) floor edge * direction := by
  -- Both branches of the first floor carry the direction as a factor.
  have hraised : (if |edge * direction| < least then least * direction else edge * direction) =
      (if |edge| < least then least else edge) * direction := by
    rw [hdir.abs_mul]
    split <;> rfl
  have hshrunk : ∀ x : ℚ, x * direction * decay * inv = x * (decay * inv) * direction := by
    intro x
    ring
  unfold settledEdge
  dsimp only
  rw [hraised, hshrunk, hdir.abs_mul, hdir.abs_mul]
  exact (ite_mul _ _ _ _).symm

/-- The target is the settled edge away from the entry price, on the side of the direction. -/
theorem computeExitTarget_eq (setup : Setup) (env : Env) (books : Books) {st : PairTradeState}
    (flow : PmFlow) (basePm entryPrice : ℚ) {entryQty : ℚ} (hqty : 0 < entryQty)
    (hdir : IsDirection st.direction) :
    computeExitTarget setup env books st flow basePm entryPrice entryQty =
      entryPrice + settledEdge (minProfitPerUnit setup.cfg env entryPrice entryQty)
        (exitShrink setup env books st)
        (minProfitPerUnit setup.cfg env entryPrice entryQty * setup.cfg.targetFloorGasMult)
        (marketEdge setup.cfg st flow basePm) * st.direction := by
  -- the quantity is positive, so the first branch of the source is taken
  have hleast : (if entryQty > 0 then
      (gasEstUsd setup.cfg env * setup.cfg.gasMult + setup.cfg.gasBufferUsd +
        env.feeBps / 10000 * entryPrice * entryQty * 2) / entryQty else 0) =
      minProfitPerUnit setup.cfg env entryPrice entryQty := if_pos hqty
  unfold computeExitTarget
  dsimp only
  rw [hleast]
  exact congrArg (entryPrice + ·) (settledEdge_mul hdir _ _ _ _ _)

/-! ## The floor -/

/-- An edge that one of the two floors replaces. -/
def BelowFloor (least shrink floor edge : ℚ) : Prop := |edge| < least ∨ |edge| * shrink < |floor|

/-- What it is replaced by. -/
def floorLevel (least shrink floor : ℚ) : ℚ :=
  if max least 0 * shrink < |floor| then floor else max least 0 * shrink

theorem settledEdge_of_below {least shrink floor edge : ℚ} (hshrink : 0 < shrink)
    (h : BelowFloor least shrink floor edge) :
    settledEdge least shrink floor edge = floorLevel least shrink floor := by
  unfold settledEdge floorLevel
  -- the edge is replaced by the least profit, which may fall below the floor again
  by_cases hleast : |edge| < least
  · have hpos : 0 ≤ least := (abs_nonneg edge).trans hleast.le
    simp only [if_pos hleast, max_eq_left hpos, abs_of_nonneg (mul_nonneg hpos hshrink.le)]
  · -- The edge is at least as large as the least profit, and still too small for the floor.
    have hsmall : |edge| * shrink < |floor| := h.resolve_left hleast
    have hmax : max least 0 ≤ |edge| := max_le (not_lt.mp hleast) (abs_nonneg edge)
    have hlevel : max least 0 * shrink < |floor| :=
      (mul_le_mul_of_nonneg_right hmax hshrink.le).trans_lt hsmall
    have habs : |edge * shrink| < |floor| := by rwa [abs_mul, abs_of_pos hshrink]
    simp only [if_neg hleast, if_pos habs, if_pos hlevel]

theorem settledEdge_of_not_below {least shrink floor edge : ℚ} (hshrink : 0 < shrink)
    (h : ¬ BelowFloor least shrink floor edge) :
    settledEdge least shrink floor edge = edge * shrink := by
  obtain ⟨hleast, hfloor⟩ := not_or.mp h
  have habs : ¬ |edge * shrink| < |floor| := by rwa [abs_mul, abs_of_pos hshrink]
  unfold settledEdge
  simp only [if_neg hleast, if_neg habs]

theorem floor_le_floorLevel (least shrink floor : ℚ) : floor ≤ floorLevel least shrink floor := by
  unfold floorLevel
  split
  · exact le_rfl
  · rename_i h
    exact (le_abs_self floor).trans (not_lt.mp h)

/-- The profit at the target reaches the floor, unless the edge is a loss too large for the
floors to replace. -/
theorem floor_le_settledEdge_iff {least shrink floor edge : ℚ} (hshrink : 0 < shrink) :
    floor ≤ settledEdge least shrink floor edge ↔
      BelowFloor least shrink floor edge ∨ 0 ≤ edge ∨ edge * shrink = floor := by
  by_cases hbelow : BelowFloor least shrink floor edge
  · rw [settledEdge_of_below hshrink hbelow]
    exact iff_of_true (floor_le_floorLevel _ _ _) (Or.inl hbelow)
  · rw [settledEdge_of_not_below hshrink hbelow]
    have hfloor : |floor| ≤ |edge| * shrink := not_lt.mp (not_or.mp hbelow).2
    -- no floor applies, so the shrunk edge is as large as the floor
    constructor
    · intro hle
      rcases le_or_gt 0 edge with hgain | hloss
      · exact Or.inr (Or.inl hgain)
      · -- A loss is at most as large as the floor, so it has to be the floor itself.
        have hneg : edge * shrink = -(|edge| * shrink) := by rw [abs_of_neg hloss]; ring
        have hge : edge * shrink ≤ floor := by
          rw [hneg]
          exact (neg_le_neg hfloor).trans (neg_abs_le floor)
        exact Or.inr (Or.inr (le_antisymm hge hle))
    · rintro (h | hgain | heq)
      · exact absurd h hbelow
      · -- a gain of the floor's size reaches the floor
        rw [abs_of_nonneg hgain] at hfloor
        exact (le_abs_self floor).trans hfloor
      · exact heq.ge

/-- A price at which a position brings in the floor's profit per unit. -/
def MeetsFloor (cfg : TradeConfig) (env : Env) (direction : ℤ) (entryPrice entryQty price : ℚ) :
    Prop :=
  minProfitPerUnit cfg env entryPrice entryQty * cfg.targetFloorGasMult ≤
    direction * (price - entryPrice)

/-- A range of prices in which some price meets the floor. -/
def RangeAdmits (cfg : TradeConfig) (env : Env) (direction : ℤ)
    (entryPrice entryQty lo hi : ℚ) : Prop :=
  ∃ price, lo ≤ price ∧ price ≤ hi ∧ MeetsFloor cfg env direction entryPrice entryQty price

/-- Where the range of prices admits it, the target meets the floor exactly when the moves are
worth no loss, or so little that a floor replaces it. -/
theorem exit_target_floor_iff (setup : Setup) (env : Env) (books : Books) (st : PairTradeState)
    (flow : PmFlow) (basePm entryPrice entryQty lo hi : ℚ) (hqty : 0 < entryQty)
    (hdir : IsDirection st.direction) :
    (RangeAdmits setup.cfg env st.direction entryPrice entryQty lo hi →
      MeetsFloor setup.cfg env st.direction entryPrice entryQty
        (computeExitTarget setup env books st flow basePm entryPrice entryQty)) ↔
    (RangeAdmits setup.cfg env st.direction entryPrice entryQty lo hi →
      0 ≤ marketEdge setup.cfg st flow basePm ∨
        BelowFloor (minProfitPerUnit setup.cfg env entryPrice entryQty)
          (exitShrink setup env books st)
          (minProfitPerUnit setup.cfg env entryPrice entryQty * setup.cfg.targetFloorGasMult)
          (marketEdge setup.cfg st flow basePm) ∨
        marketEdge setup.cfg st flow basePm * exitShrink setup env books st =
          minProfitPerUnit setup.cfg env entryPrice entryQty * setup.cfg.targetFloorGasMult) := by
  -- the direction of the target cancels against that of the position
  have hside : ∀ x : ℚ, (st.direction : ℚ) * (entryPrice + x * st.direction - entryPrice) = x := by
    intro x
    calc (st.direction : ℚ) * (entryPrice + x * st.direction - entryPrice)
        = x * (st.direction * st.direction) := by ring
      _ = x := by rw [hdir.mul_self, mul_one]
  apply imp_congr_right
  intro _
  unfold MeetsFloor
  rw [computeExitTarget_eq setup env books flow basePm entryPrice hqty hdir, hside,
    floor_le_settledEdge_iff (exitShrink_pos setup env books st)]
  exact or_left_comm

/-- Positions of 20 shares at 1/2 with gas of 2/5 to earn back; a move counts in full. -/
def floorSetup : Setup :=
  { sampleSetup with
    cfg := { sampleCfg with gasEstUsd := 2 / 5, gasMult := 1, tpA1 := 1, targetFloorGasMult := 1 } }

/-- A position in a direction. -/
def heldPosition (direction : ℤ) : PairTradeState :=
  { (sampleEngine sampleEntering).stateOf sampleKey with
    state := .positionOpen
    direction := direction
    entryPrice := some (1 / 2)
    entryQty := some 20 }

/-- A long position after a rise keeps the floor. -/
theorem exit_target_floor_rise :
    MeetsFloor floorSetup.cfg (sampleEnv 1200 "x") 1 (1 / 2) 20
      (computeExitTarget floorSetup (sampleEnv 1200 "x") Books.start (heldPosition 1)
        ⟨1 / 10, 0, 0⟩ 1 (1 / 2) 20) := by
  apply (exit_target_floor_iff floorSetup (sampleEnv 1200 "x") Books.start (heldPosition 1)
    ⟨1 / 10, 0, 0⟩ 1 (1 / 2) 20 (1 / 1000) (999 / 1000) (by norm_num) (by decide)).mpr
  · intro _
    exact Or.inl (by decide +kernel)
  · exact ⟨3 / 5, by norm_num, by norm_num, by unfold MeetsFloor; decide +kernel⟩

/-- The market has fallen by a tenth, in favour of a short position: its target is a tenth above
the entry price, though 12/25 would meet the floor. -/
theorem short_exit_target_at_a_loss :
    computeExitTarget floorSetup (sampleEnv 1200 "x") Books.start (heldPosition (-1))
        ⟨-1 / 10, 0, 0⟩ 1 (1 / 2) 20 = 3 / 5 ∧
      RangeAdmits floorSetup.cfg (sampleEnv 1200 "x") (-1) (1 / 2) 20 (1 / 1000) (999 / 1000) ∧
      ¬ MeetsFloor floorSetup.cfg (sampleEnv 1200 "x") (-1) (1 / 2) 20 (3 / 5) := by
  refine ⟨by decide +kernel, ⟨12 / 25, by norm_num, by norm_num, ?_⟩, ?_⟩
  · unfold MeetsFloor
    decide +kernel
  · unfold MeetsFloor
    decide +kernel

/-! ## Mirrored markets -/

/-- The flow of the mirrored market. -/
def PmFlow.mirror (flow : PmFlow) : PmFlow :=
  { flow with pmMove := -flow.pmMove, pmMom := -flow.pmMom }

/-- The position on the other side of the mirrored market.  `signed` is whether the magnitude of
a shock is taken for a signed move; the detectors fill it with a size. -/
def PairTradeState.mirror (signed : Bool) (st : PairTradeState) : PairTradeState :=
  { st with
    direction := -st.direction
    pmPeak := st.pmPeak.map (-·)
    pmMoveEntry := st.pmMoveEntry.map (-·)
    -- a size stays what it is, a signed move changes its side
    shock := if signed then st.shock.map fun shock => { shock with magnitude := -shock.magnitude }
      else st.shock }

theorem movesEdge_mirror (cfg : TradeConfig) (signed : Bool) (st : PairTradeState)
    (flow : PmFlow) :
    movesEdge cfg (st.mirror signed) flow.mirror = -movesEdge cfg st flow := by
  -- an unset peak or entry move stands for the present one
  have hgetD : ∀ x : Option ℚ, (x.map (-·)).getD (-flow.pmMove) = -x.getD flow.pmMove := by
    intro x
    cases x <;> rfl
  unfold movesEdge PairTradeState.mirror PmFlow.mirror
  dsimp only
  rw [hgetD, hgetD]
  ring

theorem shockEdge_mirror (cfg : TradeConfig) (signed : Bool) (st : PairTradeState) :
    shockEdge cfg (st.mirror signed) =
      if signed then -shockEdge cfg st else shockEdge cfg st := by
  cases signed with
  | false => rfl
  | true =>
    have hshock : (st.mirror true).shock =
        st.shock.map fun shock => { shock with magnitude := -shock.magnitude } := rfl
    have halpha : (st.mirror true).alphaType = st.alphaType := rfl
    unfold shockEdge
    rw [hshock, halpha]
    -- only a shock position has a shock part
    rcases st.alphaType with _ | _ | _ | _ <;> cases st.shock <;> simp

/-- `edge_price` in the mirrored market. -/
def mirroredEdge (cfg : TradeConfig) (signed : Bool) (st : PairTradeState) (flow : PmFlow)
    (basePm : ℚ) : ℚ :=
  ((if signed then -shockEdge cfg st else shockEdge cfg st) - movesEdge cfg st flow) * basePm

theorem marketEdge_mirror (cfg : TradeConfig) (signed : Bool) (st : PairTradeState)
    (flow : PmFlow) (basePm : ℚ) :
    marketEdge cfg (st.mirror signed) flow.mirror basePm =
      mirroredEdge cfg signed st flow basePm := by
  unfold marketEdge mirroredEdge
  rw [movesEdge_mirror, shockEdge_mirror]
  ring

theorem exitShrink_mirror (setup : Setup) (env : Env) (books : Books) (signed : Bool)
    (st : PairTradeState) :
    exitShrink setup env books (st.mirror signed) = exitShrink setup env books st := rfl

/-- When two edges settle on the same profit. -/
theorem settledEdge_eq_iff {least shrink floor : ℚ} (hshrink : 0 < shrink) (edge edge' : ℚ) :
    settledEdge least shrink floor edge = settledEdge least shrink floor edge' ↔
      edge = edge' ∨
        (BelowFloor least shrink floor edge ∧ BelowFloor least shrink floor edge') ∨
        (BelowFloor least shrink floor edge ∧ edge' * shrink = floorLevel least shrink floor) ∨
        (BelowFloor least shrink floor edge' ∧ edge * shrink = floorLevel least shrink floor) := by
  by_cases h : BelowFloor least shrink floor edge <;>
    by_cases h' : BelowFloor least shrink floor edge'
  · -- the floor forgets the edge
    rw [settledEdge_of_below hshrink h, settledEdge_of_below hshrink h']
    exact iff_of_true rfl (Or.inr (Or.inl ⟨h, h'⟩))
  · rw [settledEdge_of_below hshrink h, settledEdge_of_not_below hshrink h']
    -- one edge is below and the other is not, so they differ
    have hne : edge ≠ edge' := fun heq => h' (heq ▸ h)
    simp only [h, h', hne, true_and, false_and, and_false, false_or, or_false]
    exact eq_comm
  · rw [settledEdge_of_not_below hshrink h, settledEdge_of_below hshrink h']
    have hne : edge ≠ edge' := fun heq => h (heq ▸ h')
    simp only [h, h', hne, true_and, false_and, and_true, false_or]
  · rw [settledEdge_of_not_below hshrink h, settledEdge_of_not_below hshrink h']
    simp only [h, h', false_and, or_false]
    -- time and inventory shrink both edges alike
    exact mul_left_inj' hshrink.ne'

/-- The target of the mirrored position is the mirrored target exactly when the market edge is the
same in both markets, both edges are replaced by a floor, or one is and the other lies exactly
where it is put. -/
theorem exit_target_mirror_iff (setup : Setup) (env : Env) (books : Books) (st : PairTradeState)
    (flow : PmFlow) (basePm entryPrice entryQty : ℚ) (signed : Bool) (hqty : 0 < entryQty)
    (hdir : IsDirection st.direction) :
    let least := minProfitPerUnit setup.cfg env entryPrice entryQty
    let shrink := exitShrink setup env books st
    let floor := least * setup.cfg.targetFloorGasMult
    let edge := marketEdge setup.cfg st flow basePm
    let edge' := mirroredEdge setup.cfg signed st flow basePm
    computeExitTarget setup env books (st.mirror signed) flow.mirror basePm entryPrice entryQty =
        2 * entryPrice - computeExitTarget setup env books st flow basePm entryPrice entryQty ↔
      edge = edge' ∨ (BelowFloor least shrink floor edge ∧ BelowFloor least shrink floor edge') ∨
        (BelowFloor least shrink floor edge ∧ edge' * shrink = floorLevel least shrink floor) ∨
        (BelowFloor least shrink floor edge' ∧ edge * shrink = floorLevel least shrink floor) := by
  intro least shrink floor edge edge'
  -- the mirrored position is on the other side
  have hdir' : IsDirection (st.mirror signed).direction := by
    rcases hdir with h | h
    · exact Or.inr (congrArg Neg.neg h)
    · exact Or.inl (congrArg Neg.neg h)
  have hne : (st.direction : ℚ) ≠ 0 := by
    rcases hdir with h | h <;> rw [h] <;> norm_num
  have htarget := computeExitTarget_eq setup env books flow basePm entryPrice hqty hdir
  have htarget' :=
    computeExitTarget_eq setup env books flow.mirror basePm entryPrice hqty hdir'
  have hneg : ((st.mirror signed).direction : ℚ) = -st.direction := Int.cast_neg _
  rw [htarget, htarget', exitShrink_mirror, marketEdge_mirror, hneg,
    ← settledEdge_eq_iff (exitShrink_pos _ _ _ _)]
  constructor
  · -- both targets lie on the line through the entry price
    intro h
    have hmul : settledEdge least shrink floor edge * st.direction =
        settledEdge least shrink floor edge' * st.direction := by linarith
    exact mul_right_cancel₀ hne hmul
  · intro h
    change entryPrice + settledEdge least shrink floor edge' * -st.direction =
      2 * entryPrice - (entryPrice + settledEdge least shrink floor edge * st.direction)
    rw [h]
    ring

/-- Without a move, the floor puts both targets at the same distance. -/
theorem exit_target_mirror_unmoved :
    computeExitTarget floorSetup (sampleEnv 1200 "x") Books.start ((heldPosition 1).mirror true)
        (PmFlow.mirror ⟨0, 0, 0⟩) 1 (1 / 2) 20 =
      2 * (1 / 2) - computeExitTarget floorSetup (sampleEnv 1200 "x") Books.start (heldPosition 1)
        ⟨0, 0, 0⟩ 1 (1 / 2) 20 :=
  (exit_target_mirror_iff floorSetup (sampleEnv 1200 "x") Books.start (heldPosition 1) ⟨0, 0, 0⟩ 1
    (1 / 2) 20 true (by norm_num) (by decide)).mpr (Or.inl (by decide +kernel))

/-- A long position after a rise and a short one after a fall get the same target. -/
theorem exit_targets_on_one_side :
    computeExitTarget floorSetup (sampleEnv 1200 "x") Books.start (heldPosition 1)
        ⟨1 / 10, 0, 0⟩ 1 (1 / 2) 20 = 3 / 5 ∧
      computeExitTarget floorSetup (sampleEnv 1200 "x") Books.start
        ((heldPosition 1).mirror true) (PmFlow.mirror ⟨1 / 10, 0, 0⟩) 1 (1 / 2) 20 = 3 / 5 ∧
      computeExitTarget floorSetup (sampleEnv 1200 "x") Books.start
          ((heldPosition 1).mirror true) (PmFlow.mirror ⟨1 / 10, 0, 0⟩) 1 (1 / 2) 20 ≠
        2 * (1 / 2) - computeExitTarget floorSetup (sampleEnv 1200 "x") Books.start
          (heldPosition 1) ⟨1 / 10, 0, 0⟩ 1 (1 / 2) 20 := by
  refine ⟨by decide +kernel, by decide +kernel, by decide +kernel⟩

end AlphaMonitor.Trade
