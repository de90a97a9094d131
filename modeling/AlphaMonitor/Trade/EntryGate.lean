import AlphaMonitor.Trade.EntryLadder

/-!
# The size of an entry

The quantity of an entry is the budget over the best price of its own side, scaled by the
book, the lagging signal, the staleness and the spread.  It is then raised to the venue's
minimum notional where the budget allows that at the first candidate price.  The candidates
start inside the spread, and for a sell they rise.

So the price and the quantity of the accepted order do not come from the same place, and
neither do the quantity that is placed and the one that the profit gate was computed for.

## Main results

- `entry_notional_within_iff`: when no accepted order costs more than the budget
- `entry_profit_gate_iff`: when the gate holds at the quantity that is placed
-/

namespace AlphaMonitor.Trade

open Lib

/-! ## The terms of an entry -/

/-- All factors on the quantity. -/
def entryScale (entry : PendingEntry) (shapeScale spreadScale : ℚ) : ℚ :=
  shapeScale *
    ((entry.cModifier.map fun modifier =>
      clamp (F64.add 1 modifier) (1 / 5) (3 / 2)).getD 1) *
    (if entry.staleScale > 0 then clamp entry.staleScale 0 1 else 1) *
    (if spreadScale < 1 then spreadScale else 1)

/-- A quantity that is exact up to rounding stays so when it is scaled. -/
theorem mul_rounded {n : ℕ} {x y factor : ℚ} (h : ∃ ρ, RoundingFactor n ρ ∧ x = y * ρ) :
    ∃ ρ, RoundingFactor (n + 3) ρ ∧ F64.mul x factor = y * factor * ρ := by
  obtain ⟨ρ, hρ, rfl⟩ := h
  obtain ⟨σ, hσ, hmul⟩ := F64.mul_eq_mul (y * ρ) factor
  exact ⟨ρ * σ, hρ.mul hσ, by rw [hmul]; ring⟩

theorem rounded_mono {m n : ℕ} {x y : ℚ} (h : ∃ ρ, RoundingFactor m ρ ∧ x = y * ρ)
    (hmn : m ≤ n) : ∃ ρ, RoundingFactor n ρ ∧ x = y * ρ := by
  obtain ⟨ρ, hρ, hx⟩ := h
  exact ⟨ρ, hρ.mono hmn, hx⟩

/-- The factors for staleness and spread. -/
theorem lateFactors_rounded (entry : PendingEntry) (spreadScale : ℚ) {x y : ℚ}
    (h : ∃ ρ, RoundingFactor 9 ρ ∧ x = y * ρ) :
    ∃ ρ, RoundingFactor 15 ρ ∧
      (if spreadScale < 1 then
        F64.mul (if entry.staleScale > 0 then F64.mul x (clamp entry.staleScale 0 1) else x)
          spreadScale
      else if entry.staleScale > 0 then F64.mul x (clamp entry.staleScale 0 1) else x) =
        y * (if entry.staleScale > 0 then clamp entry.staleScale 0 1 else 1) *
          (if spreadScale < 1 then spreadScale else 1) * ρ := by
  have hstale : ∃ ρ, RoundingFactor 12 ρ ∧
      (if entry.staleScale > 0 then F64.mul x (clamp entry.staleScale 0 1) else x) =
        y * (if entry.staleScale > 0 then clamp entry.staleScale 0 1 else 1) * ρ := by
    split
    · exact mul_rounded h
    · rw [mul_one]
      exact rounded_mono h (by decide)
  generalize (if entry.staleScale > 0 then F64.mul x _ else x : ℚ) = qty at hstale ⊢
  split
  · exact mul_rounded hstale
  · rw [mul_one]
    exact rounded_mono hstale (by decide)

/-- The quantity is the budget over the reference price, times the factors, up to five rounded
operations. -/
theorem entryQty_eq (entry : PendingEntry) (notional priceRef shapeScale spreadScale : ℚ) :
    ∃ ρ, RoundingFactor 15 ρ ∧
      entryQty entry notional priceRef shapeScale spreadScale =
        notional / priceRef * entryScale entry shapeScale spreadScale * ρ := by
  have hshape : ∃ ρ, RoundingFactor 6 ρ ∧
      F64.mul (F64.div notional priceRef) shapeScale = notional / priceRef * shapeScale * ρ :=
    mul_rounded (F64.div_eq_mul notional priceRef)
  unfold entryQty entryScale
  cases entry.cModifier with
  | none =>
    obtain ⟨ρ, hρ, hqty⟩ := lateFactors_rounded entry spreadScale (rounded_mono hshape (by decide))
    refine ⟨ρ, hρ, hqty.trans ?_⟩
    rw [Option.map_none, Option.getD_none]
    ring
  | some modifier =>
    obtain ⟨ρ, hρ, hqty⟩ := lateFactors_rounded entry spreadScale
      (@mul_rounded _ _ _ (clamp (F64.add 1 modifier) (1 / 5) (3 / 2)) hshape)
    refine ⟨ρ, hρ, hqty.trans ?_⟩
    rw [Option.map_some, Option.getD_some]
    ring

theorem clamp_pos {x lo hi : ℚ} (hx : 0 < max x lo) (hhi : 0 < hi) : 0 < clamp x lo hi :=
  lt_min hx hhi

theorem entryScale_pos (entry : PendingEntry) {shapeScale spreadScale : ℚ} (hshape : 0 < shapeScale)
    (hspread : 0 < spreadScale) : 0 < entryScale entry shapeScale spreadScale := by
  -- the modifier is clamped away from zero
  have hmodifier : 0 < (entry.cModifier.map fun modifier =>
      clamp (F64.add 1 modifier) (1 / 5) (3 / 2)).getD 1 := by
    cases entry.cModifier with
    | none => exact one_pos
    | some modifier => exact clamp_pos (lt_max_of_lt_right (by norm_num)) (by norm_num)
  -- a scale that is not positive counts as one
  have hstale : 0 < if entry.staleScale > 0 then clamp entry.staleScale 0 1 else 1 := by
    split
    · rename_i hpos
      exact clamp_pos (lt_max_of_lt_left hpos) one_pos
    · exact one_pos
  have hwide : 0 < if spreadScale < 1 then spreadScale else 1 := by
    split
    · exact hspread
    · exact one_pos
  exact mul_pos (mul_pos (mul_pos hshape hmodifier) hstale) hwide

theorem spreadScale_pos {cfg : TradeConfig} {bestBid bestAsk spread : ℚ}
    (h : spreadScale cfg bestBid bestAsk = some spread) : 0 < spread := by
  unfold spreadScale at h
  dsimp only at h
  -- the relative spread itself does not matter, only whether it leaves something
  generalize (if F64.div (F64.add bestBid bestAsk) 2 > 0 then _ else _ : ℚ) = spreadPct at h
  split at h
  · split at h
    · rename_i hpos
      cases h
      exact clamp_pos (lt_max_of_lt_left hpos) one_pos
    · cases h
  · cases h
    exact one_pos

/-- `price_ref`: the best price of the entry's own side. -/
def entryReference (entry : PendingEntry) (bestBid bestAsk : ℚ) : ℚ :=
  if entry.direction > 0 then bestBid else bestAsk

/-- What an entry that is placed was computed from. -/
structure EntryPlacement (cfg : TradeConfig) (env : Env) (entry : PendingEntry)
    (bestBid bestAsk notional scaled qty first : ℚ) (rest : List ℚ) : Prop where
  bid_pos : 0 < bestBid
  ask_pos : 0 < bestAsk
  scaled_pos : 0 < scaled
  candidates : entryCandidates cfg entry env.now bestBid bestAsk
    (priceLimit cfg env entry (entryReference entry bestBid bestAsk) scaled) = first :: rest
  bumped : bumpQty cfg notional first scaled = some qty
  gate : profitThreshold cfg env entry (entryReference entry bestBid bestAsk) scaled ≤
    F64.mul (expectedEdgePerUnit cfg entry (entryReference entry bestBid bestAsk)) qty

theorem entryDecision_place_inv {cfg : TradeConfig} {env : Env} {entry : PendingEntry}
    {shape : BookShape} {notional qty first bestBid bestAsk spread : ℚ} {rest : List ℚ}
    (hbid : opiBestBidFromBar entry.bar = some bestBid)
    (hask : opiBestAskFromBar entry.bar = some bestAsk)
    (hspread : spreadScale cfg bestBid bestAsk = some spread)
    (h : entryDecision cfg env entry shape notional = .place qty first rest) :
    EntryPlacement cfg env entry bestBid bestAsk notional
      (entryQty entry notional (entryReference entry bestBid bestAsk) shape.scale spread) qty
      first rest := by
  have href : (if entry.direction > 0 then bestBid else bestAsk) =
      entryReference entry bestBid bestAsk := rfl
  unfold entryDecision at h
  simp only [hbid, hask, hspread, href] at h
  split at h
  · cases h
  · rename_i hbook
    obtain ⟨hbidpos, haskpos, -⟩ := not_or.mp hbook |>.imp_right not_or.mp
    split at h
    · cases h
    · rename_i hqty
      split at h
      · cases h
      · split at h
        · cases h
        · rename_i hcandidates
          split at h
          · cases h
          · rename_i hbump
            split at h
            · cases h
            · rename_i hgate
              cases h
              exact ⟨not_le.mp hbidpos, not_le.mp haskpos, not_le.mp hqty, hcandidates, hbump,
                not_lt.mp hgate⟩

/-- The scaled quantity is worth less than the venue's minimum at the first price. -/
def BelowMinimum (cfg : TradeConfig) (first scaled : ℚ) : Prop :=
  0 < cfg.minOrderNotionalUsd ∧ F64.mul first scaled < f64 cfg.minOrderNotionalUsd

instance (cfg : TradeConfig) (first scaled : ℚ) : Decidable (BelowMinimum cfg first scaled) :=
  inferInstanceAs (Decidable (_ ∧ _))

theorem bumpQty_eq_some {cfg : TradeConfig} {notional first scaled qty : ℚ}
    (h : bumpQty cfg notional first scaled = some qty) :
    qty = if BelowMinimum cfg first scaled then F64.div cfg.minOrderNotionalUsd first
      else scaled := by
  unfold bumpQty at h
  dsimp only at h
  split at h
  · rename_i hsmall
    -- below the minimum the quantity is raised where the budget covers it
    rw [if_pos (show BelowMinimum cfg first scaled from hsmall)]
    split at h
    · exact (Option.some.inj h).symm
    · cases h
  · rename_i hlarge
    rw [if_neg (show ¬ BelowMinimum cfg first scaled from hlarge)]
    exact (Option.some.inj h).symm

/-! ## What `maybe_enter` places -/

/-- An entry was placed: the order part of the pair's state is in an entry state. -/
def EntryStands (st : PairTradeState) : Prop := st.state = .entryPlacing ∨ st.state = .entryWorking

/-- From an idle pair, `maybe_enter` leaves an entry only by placing one, with the budget that
the caps leave. -/
theorem maybeEnter_places {setup : Setup} {env : Env} {desk : Desk} {st : PairTradeState}
    {entry : PendingEntry} {pool : Option ℚ} (hidle : st.state = .idle)
    (hstands : EntryStands (maybeEnter setup env desk st entry pool).2) :
    ∃ shape notional books qty first rest,
      bookShape setup.cfg entry.bar entry.direction = some shape ∧ 0 < shape.scale ∧
      desk.books.budgetForEntry setup.cfg (entry.bar.pairId, entry.bar.tokenSide, entry.direction)
        entry.bar.barSecond pool entry.alphaType = (books, some notional) ∧
      entryDecision setup.cfg env entry shape notional = .place qty first rest ∧
      maybeEnter setup env desk st entry pool =
        placeEntry setup env { desk with books := books }
          { st with lastEntryAttemptMs := some env.now } entry qty first rest := by
  -- every branch that places nothing ends idle or in cooldown
  have hnone : ¬ EntryStands st := by
    rintro (h | h) <;> (rw [hidle] at h; cases h)
  generalize hresult : maybeEnter setup env desk st entry pool = result at hstands ⊢
  unfold maybeEnter at hresult
  dsimp only at hresult
  split at hresult
  · rw [← hresult] at hstands
    exact absurd hstands hnone
  · split at hresult
    · rw [← hresult] at hstands
      exact absurd hstands hnone
    · split at hresult
      · rw [← hresult] at hstands
        exact absurd hstands hnone
      · rename_i shape hshape
        obtain ⟨hshape, hscale⟩ := Option.filter_eq_some_iff.mp hshape
        split at hresult
        · rw [← hresult] at hstands
          exact absurd hstands hnone
        · rename_i books notional hbudget
          split at hresult
          · rw [← hresult] at hstands
            exact absurd hstands hnone
          · -- The cooldown is no entry state either.
            rw [← hresult] at hstands
            rcases hstands with h | h <;> cases h
          · rename_i qty first rest hdecision
            exact ⟨shape, notional, books, qty, first, rest, hshape, of_decide_eq_true hscale,
              -- the only way left: shape, budget and decision all said yes
              hbudget, hdecision, hresult.symm⟩

/-- What stands after an entry is placed: its quantity and first price, and in a live engine the
request to the executor. -/
theorem placeEntry_stands {setup : Setup} {env : Env} {desk : Desk} {st : PairTradeState}
    {entry : PendingEntry} {qty first : ℚ} {rest : List ℚ}
    (hstands : EntryStands (placeEntry setup env desk st entry qty first rest).2) :
    (placeEntry setup env desk st entry qty first rest).2.entryQty = some qty ∧
      (placeEntry setup env desk st entry qty first rest).2.entryPrice = some first ∧
      (setup.isLive = true → ∃ id target,
        (placeEntry setup env desk st entry qty first rest).1.req.orderExec =
          desk.req.orderExec ++ [⟨id, .placeChase entry.key target (entrySide entry.direction) qty
            (first :: rest) "E"⟩]) := by
  unfold placeEntry at hstands ⊢
  dsimp only at hstands ⊢
  split at hstands
  · rename_i hlive
    rw [if_pos hlive]
    generalize hqueue : desk.req.enqueuePlaceChase setup env entry.key (entrySide entry.direction)
      qty (first :: rest) "E" = queued at hstands
    obtain ⟨req, id⟩ := queued
    rcases Requests.enqueuePlaceChase_cases setup env desk.req _ _ _ _ _ hqueue with
      ⟨rfl, -⟩ | ⟨target, rfl, hqueues⟩
    · -- The executor is gone: the pair is in cooldown.
      rcases hstands with h | h <;> cases h
    · exact ⟨rfl, rfl, fun _ => ⟨_, target, hqueues.1⟩⟩
  · rename_i hlive
    rw [if_neg hlive]
    exact ⟨rfl, rfl, fun h => absurd h hlive⟩

/-! ## What the chase gets accepted -/

/-- The client refuses to send a price that the builder does not take, and that ends a chase. -/
def BuilderChecks (u : LowerTable) (prices : List ℚ) (replies : ℕ → PlaceReply) : Prop :=
  ∀ i price, prices[i]? = some price → validatePrice price = none →
    (replies i).mayBeAccepted = false ∧ ¬ (replies i).Retried u true

/-- A call of a chase comes after calls that were all retried. -/
theorem chaseLoop_call {u : LowerTable} {checkMissing : Bool} {attempt : ℕ → ℚ → Submission}
    {prices : List ℚ} {i : ℕ} {acc : PlaceResult} {call : Submission}
    (h : call ∈ (chaseLoop u checkMissing attempt i acc prices).2) :
    ∃ k price, prices[k]? = some price ∧ call = attempt (i + k) price ∧
      ∀ j < k, ∀ earlier, prices[j]? = some earlier →
        (attempt (i + j) earlier).reply.Retried u checkMissing := by
  induction prices generalizing i acc with
  | nil => cases h
  | cons price rest ih =>
    -- the first call has none before it
    have hhead : ∃ k price', (price :: rest)[k]? = some price' ∧
        attempt i price = attempt (i + k) price' ∧ ∀ j < k, ∀ earlier,
          (price :: rest)[j]? = some earlier →
            (attempt (i + j) earlier).reply.Retried u checkMissing :=
      ⟨0, price, rfl, rfl, fun j hj => absurd hj (Nat.not_lt_zero j)⟩
    rcases chaseLoop_log_cons u checkMissing attempt i acc price rest with
      ⟨-, hlog⟩ | ⟨hretried, acc', hlog⟩
    · rw [hlog] at h
      rw [List.mem_singleton.mp h]
      exact hhead
    · rw [hlog] at h
      rcases List.mem_cons.mp h with rfl | hmem
      · exact hhead
      · obtain ⟨k, price', hget, rfl, hall⟩ := ih hmem
        refine ⟨k + 1, price', hget, by rw [Nat.add_assoc, Nat.add_comm 1 k], ?_⟩
        -- the calls of the rest come after the first one, which was retried
        intro j hj earlier hearlier
        cases j with
        | zero =>
          cases hearlier
          exact hretried
        | succ j =>
          have hretry := hall j (by omega) earlier hearlier
          rwa [Nat.add_assoc, Nat.add_comm 1 j] at hretry

/-- A candidate is called when all calls before it are retried. -/
theorem mem_chaseLoop_of_retried (u : LowerTable) (checkMissing : Bool)
    (attempt : ℕ → ℚ → Submission) {prices : List ℚ} {k : ℕ} {price : ℚ}
    (hget : prices[k]? = some price) (i : ℕ) (acc : PlaceResult)
    (hretry : ∀ j < k, ∀ earlier, (attempt (i + j) earlier).reply.Retried u checkMissing) :
    attempt (i + k) price ∈ (chaseLoop u checkMissing attempt i acc prices).2 := by
  induction k generalizing prices i acc with
  | zero =>
    cases prices with
    | nil => cases hget
    | cons first rest =>
      cases hget
      obtain ⟨tail, hlog⟩ := chaseLoop_log_head u checkMissing attempt i acc price rest
      rw [hlog]
      exact List.mem_cons_self
  | succ k ih =>
    cases prices with
    | nil => cases hget
    | cons first rest =>
      rcases chaseLoop_log_cons u checkMissing attempt i acc first rest with
        ⟨hstop, -⟩ | ⟨-, acc', hlog⟩
      · -- a chase that stops at the first candidate contradicts its retry
        exact absurd (hretry 0 (Nat.succ_pos k) first) hstop
      · rw [hlog]
        have hrest := ih hget (i + 1) acc' fun j hj earlier => by
          have hshift := hretry (j + 1) (by omega) earlier
          rwa [Nat.add_comm j 1, ← Nat.add_assoc] at hshift
        rw [Nat.add_assoc, Nat.add_comm 1 k] at hrest
        exact List.mem_cons_of_mem _ hrest

/-- The text of a price out of bounds. -/
def priceBoundsText : String := "Price must be between 0.001 and 0.999 (inclusive), got "

theorem priceBoundsText_not_isPostOnlyReject (u : LowerTable) :
    ¬ isPostOnlyReject u priceBoundsText := by
  have hlow := toLowercase_ascii u priceBoundsText (by decide +kernel)
  simp only [isPostOnlyReject, hlow]
  decide +kernel

/-- Every candidate up to the first one that the builder refuses may be the accepted one. -/
theorem placeWithChase_accepted_iff (u : LowerTable) (key : PairKey) (side : OrderSide) (qty : ℚ)
    (clientPrefix tag : String) (prices : List ℚ) (P : ℚ → Prop) :
    (∀ (clock : ℕ → ℤ) (replies : ℕ → PlaceReply), BuilderChecks u prices replies →
      ∀ call ∈ (placeWithChase u true key side qty clientPrefix tag clock replies prices).2,
        call.reply.mayBeAccepted = true → P call.price) ↔
    ∀ (k : ℕ) (price : ℚ), prices[k]? = some price →
      (∀ j ≤ k, ∀ earlier, prices[j]? = some earlier → (validatePrice earlier).isSome = true) →
        P price := by
  constructor
  · intro h k price hget hvalid
    -- The first k calls conflict with the book, and the next one is accepted.
    let replies : ℕ → PlaceReply := fun i =>
      if i < k then postOnlyReply else if i = k then .accepted "" else .notSent priceBoundsText
    have hchecks : BuilderChecks u prices replies := by
      intro i price' hget' hnone
      -- the builder takes all prices up to the k-th
      rcases lt_trichotomy i k with hlt | rfl | hgt
      · have hsome := hvalid i hlt.le price' hget'
        rw [hnone] at hsome
        cases hsome
      · have hsome := hvalid i (le_refl i) price' hget'
        rw [hnone] at hsome
        cases hsome
      · have hreply : replies i = .notSent priceBoundsText := by
          simp only [replies, if_neg hgt.not_gt, if_neg hgt.ne']
        rw [hreply]
        refine ⟨rfl, ?_⟩
        rintro ⟨err, hresult, -, hpost⟩
        cases hresult
        exact priceBoundsText_not_isPostOnlyReject u hpost
    have hcall := mem_chaseLoop_of_retried u true
      (chaseAttempt key side qty clientPrefix tag (fun _ => 0) replies) hget 0
      PlaceResult.start ?_
    · have haccepted : replies (0 + k) = .accepted "" := by
        rw [Nat.zero_add]
        simp only [replies, if_neg (lt_irrefl k), if_true]
      refine h (fun _ => 0) replies hchecks _ hcall ?_
      change (replies (0 + k)).mayBeAccepted = true
      rw [haccepted]
      rfl
    · intro j hj earlier
      have hreply : replies (0 + j) = postOnlyReply := by
        rw [Nat.zero_add]
        simp only [replies, if_pos hj]
      change (replies (0 + j)).Retried u true
      rw [hreply]
      exact postOnlyReply_retried u true
  · intro h clock replies hchecks call hcall haccepted
    obtain ⟨k, price, hget, rfl, hretried⟩ := chaseLoop_call hcall
    rw [Nat.zero_add] at haccepted
    refine h k price hget ?_
    intro j hj earlier hearlier
    -- a refused price among them would have ended the chase, or be the call itself
    by_contra hinvalid
    have hnone : validatePrice earlier = none := Option.not_isSome_iff_eq_none.mp hinvalid
    obtain ⟨hrefused, hends⟩ := hchecks j earlier hearlier hnone
    rcases Nat.lt_or_eq_of_le hj with hlt | rfl
    · have hretry := hretried j hlt earlier hearlier
      rw [Nat.zero_add] at hretry
      exact hends hretry
    · change (replies j).mayBeAccepted = true at haccepted
      rw [hrefused] at haccepted
      cases haccepted

/-! ## The budget -/

/-- A price at which the entry that was just placed may be accepted: in a live engine some call of
the executor's chase, otherwise the price of the paper position. -/
def AcceptedAt (setup : Setup) (env : Env) (entry : PendingEntry) (before after : Desk)
    (st : PairTradeState) (price : ℚ) : Prop :=
  (setup.isLive = false ∧ st.entryPrice = some price) ∨
    (setup.isLive = true ∧ ∃ id target side qty prices tag clock replies,
      after.req.orderExec =
        before.req.orderExec ++ [⟨id, .placeChase entry.key target side qty prices tag⟩] ∧
      BuilderChecks env.lower prices replies ∧
      ∃ call ∈ (placeWithChase env.lower true entry.key side qty setup.cfg.orderClientPrefix tag
        clock replies prices).2, call.reply.mayBeAccepted = true ∧ call.price = price)

/-- At this price the placed quantity stays within the budget, the scaled one or the one that
reaches the minimum notional at the first price; `ρ` and `σ` stand for the rounding of the two. -/
structure FitsBudget (cfg : TradeConfig) (notional priceRef scaled scale ρ σ first price : ℚ) :
    Prop where
  kept : ¬ BelowMinimum cfg first scaled → price * scale * ρ ≤ priceRef
  raised : BelowMinimum cfg first scaled → price * cfg.minOrderNotionalUsd * σ ≤ notional * first

theorem fitsBudget_iff {cfg : TradeConfig} {notional priceRef scaled scale ρ σ first price : ℚ}
    (hnotional : 0 < notional) (href : 0 < priceRef) (hfirst : 0 < first)
    (hscaled : scaled = notional / priceRef * scale * ρ)
    (hraised : F64.div cfg.minOrderNotionalUsd first = cfg.minOrderNotionalUsd / first * σ) :
    price * (if BelowMinimum cfg first scaled then F64.div cfg.minOrderNotionalUsd first
      else scaled) ≤ notional ↔
      FitsBudget cfg notional priceRef scaled scale ρ σ first price := by
  by_cases hbelow : BelowMinimum cfg first scaled
  · have hmul : price * (cfg.minOrderNotionalUsd / first * σ) =
        price * cfg.minOrderNotionalUsd * σ / first := by
      ring
    rw [if_pos hbelow, hraised, hmul, div_le_iff₀ hfirst]
    exact ⟨fun h => ⟨fun hnot => absurd hbelow hnot, fun _ => h⟩, fun h => h.raised hbelow⟩
  · have hmul : price * (notional / priceRef * scale * ρ) =
        notional * (price * scale * ρ) / priceRef := by
      -- the notional cancels on both sides
      ring
    rw [if_neg hbelow]
    refine Iff.trans ?_ (show price * scale * ρ ≤ priceRef ↔ _ from
      ⟨fun h => ⟨fun _ => h, fun hraise => absurd hraise hbelow⟩, fun h => h.kept hbelow⟩)
    rw [hscaled, hmul, div_le_iff₀ href, mul_le_mul_iff_right₀ hnotional]

theorem depth_le_of_getElem? {side : OrderSide} {prices : List ℚ}
    (h : prices.Pairwise fun p q => side.depth p < side.depth q) {i j : ℕ} {p q : ℚ}
    (hi : prices[i]? = some p) (hj : prices[j]? = some q) (hij : i ≤ j) :
    side.depth p ≤ side.depth q := by
  obtain ⟨hilen, rfl⟩ := List.getElem?_eq_some_iff.mp hi
  -- the ladder goes away from the book
  obtain ⟨hjlen, rfl⟩ := List.getElem?_eq_some_iff.mp hj
  rcases Nat.eq_or_lt_of_le hij with rfl | hlt
  · exact le_rfl
  · exact (List.pairwise_iff_getElem.mp h i j hilen hjlen hlt).le

/-- The ladder of an entry of a scaled quantity. -/
def placementLadder (cfg : TradeConfig) (env : Env) (entry : PendingEntry)
    (bestBid bestAsk scaled : ℚ) (i : ℕ) : ℚ :=
  entryStepPrice cfg entry env.now bestBid bestAsk
    (priceLimit cfg env entry (entryReference entry bestBid bestAsk) scaled) i

/-- A step of that ladder that is a candidate. -/
def PlacementStep (cfg : TradeConfig) (env : Env) (entry : PendingEntry)
    (bestBid bestAsk scaled : ℚ) (i : ℕ) : Prop :=
  EntryStep cfg entry env.now bestBid bestAsk
    (priceLimit cfg env entry (entryReference entry bestBid bestAsk) scaled) i

/-- The first step that is a candidate. -/
structure FirstStep (cfg : TradeConfig) (env : Env) (entry : PendingEntry)
    (bestBid bestAsk scaled : ℚ) (j : ℕ) : Prop where
  step : PlacementStep cfg env entry bestBid bestAsk scaled j
  least : ∀ i < j, ¬ PlacementStep cfg env entry bestBid bestAsk scaled i

theorem FirstStep.unique {cfg : TradeConfig} {env : Env} {entry : PendingEntry}
    {bestBid bestAsk scaled : ℚ} {i j : ℕ}
    (hi : FirstStep cfg env entry bestBid bestAsk scaled i)
    (hj : FirstStep cfg env entry bestBid bestAsk scaled j) : i = j := by
  rcases lt_trichotomy i j with hlt | heq | hgt
  · exact absurd hi.step (hj.least i hlt)
  · exact heq
  · exact absurd hj.step (hi.least j hgt)

theorem OnFloatGrid.validatePrice_isSome {p : ℚ} (hgrid : OnFloatGrid p) (hpos : 0 < p)
    (hhigh : p ≤ f64 (999 / 1000)) : (validatePrice p).isSome = true := by
  obtain ⟨n, rfl⟩ := hgrid
  have hn : (1 : ℚ) ≤ n := by
    have hpos := f64_pos_iff.mp hpos
    have hcast : (0 : ℚ) < n := by linarith
    have hint : (0 : ℤ) < n := by exact_mod_cast hcast
    exact_mod_cast hint
  have hsame : F64.sub (f64 (n / 1000)) (n / 1000) = 0 := by simp [F64.sub]
  obtain ⟨posted, hvalid, -⟩ := acceptablePrice_iff.mpr
    ⟨⟨n, by rw [hsame, abs_zero]; exact f64_nonneg (by norm_num)⟩,
      by rw [f64_f64]; exact f64_mono (by linarith), by rwa [f64_f64]⟩
  rw [hvalid]
  rfl

theorem OnFloatGrid.le_of_validatePrice {p : ℚ} (hgrid : OnFloatGrid p)
    (h : (validatePrice p).isSome = true) : p ≤ f64 (999 / 1000) := by
  obtain ⟨n, rfl⟩ := hgrid
  unfold validatePrice at h
  split at h
  · cases h
  · rename_i hin
    have hhigh := not_lt.mp (not_or.mp hin).2
    rwa [f64_f64] at hhigh

namespace EntryPlacement

variable {cfg : TradeConfig} {env : Env} {entry : PendingEntry}
  {bestBid bestAsk notional scaled qty first : ℚ} {rest : List ℚ}

theorem reference_pos (h : EntryPlacement cfg env entry bestBid bestAsk notional scaled qty first
    rest) : 0 < entryReference entry bestBid bestAsk := by
  unfold entryReference
  split
  · exact h.bid_pos
  · exact h.ask_pos

theorem first_eq (h : EntryPlacement cfg env entry bestBid bestAsk notional scaled qty first rest) :
    ∃ j, FirstStep cfg env entry bestBid bestAsk scaled j ∧
      first = placementLadder cfg env entry bestBid bestAsk scaled j := by
  obtain ⟨j, hstep, hleast, hfirst⟩ := entryCandidates_head cfg entry env.now h.candidates
  exact ⟨j, ⟨hstep, hleast⟩, hfirst⟩

theorem first_pos (h : EntryPlacement cfg env entry bestBid bestAsk notional scaled qty first
    rest) : 0 < first := by
  apply entryCandidates_pos cfg entry env.now bestBid bestAsk
  rw [h.candidates]
  -- the first candidate is a step of the ladder
  exact List.mem_cons_self

/-- The candidates that the builder takes come first, up to a step of the ladder that it takes. -/
theorem callable_iff (h : EntryPlacement cfg env entry bestBid bestAsk notional scaled qty first
    rest) (P : ℚ → Prop) :
    (∀ (k : ℕ) (price : ℚ), (first :: rest)[k]? = some price →
      (∀ j ≤ k, ∀ earlier, (first :: rest)[j]? = some earlier →
        (validatePrice earlier).isSome = true) → P price) ↔
    ∀ i, PlacementStep cfg env entry bestBid bestAsk scaled i → first ≤ f64 (999 / 1000) →
      placementLadder cfg env entry bestBid bestAsk scaled i ≤ f64 (999 / 1000) →
        P (placementLadder cfg env entry bestBid bestAsk scaled i) := by
  have hvalid := entry_ladder_valid cfg entry env.now bestBid bestAsk
    (priceLimit cfg env entry (entryReference entry bestBid bestAsk) scaled)
  have hmem := @mem_entryCandidates_iff cfg entry env.now bestBid bestAsk
    (priceLimit cfg env entry (entryReference entry bestBid bestAsk) scaled)
  rw [h.candidates] at hvalid hmem
  constructor
  · intro hall i hi hfirst hhigh
    obtain ⟨k, hk, hget⟩ := List.mem_iff_getElem.mp ((hmem _).mpr ⟨i, hi, rfl⟩)
    have hgetk := List.getElem?_eq_some_iff.mpr ⟨hk, hget⟩
    refine hall k _ hgetk ?_
    intro j hj earlier hearlier
    have hin := List.mem_of_getElem? hearlier
    -- the earlier candidates lie between the first one and this one
    have hle : earlier ≤ f64 (999 / 1000) := by
      have hlow : (entrySide entry.direction).depth first ≤
          (entrySide entry.direction).depth earlier :=
        depth_le_of_getElem? hvalid.monotone rfl hearlier (Nat.zero_le j)
      have hup := depth_le_of_getElem? hvalid.monotone hearlier hgetk hj
      generalize entrySide entry.direction = side at hlow hup
      cases side with
      | buy => exact (neg_le_neg_iff.mp hlow).trans hfirst
      | sell => exact le_trans hup hhigh
    exact (hvalid.onGrid earlier hin).validatePrice_isSome (hvalid.positive earlier hin) hle
  · intro hall k price hget hvalidated
    have hin := List.mem_of_getElem? hget
    have hbound := (hvalid.onGrid price hin).le_of_validatePrice (hvalidated k le_rfl price hget)
    obtain ⟨i, hi, rfl⟩ := (hmem price).mp hin
    -- a candidate that was called has the builder's bounds, and so has the first one
    exact hall i hi ((hvalid.onGrid first List.mem_cons_self).le_of_validatePrice
      (hvalidated 0 (Nat.zero_le k) first rfl)) hbound

end EntryPlacement

/-- The inputs of an entry: the book of its bar and the budget that the caps leave, and what they
make of the quantity before the ladder is built. -/
structure EntryInputs (setup : Setup) (desk : Desk) (entry : PendingEntry) (pool : Option ℚ)
    (bestBid bestAsk notional scaled scale : ℚ) : Prop where
  bid : opiBestBidFromBar entry.bar = some bestBid
  ask : opiBestAskFromBar entry.bar = some bestAsk
  budget : (desk.books.budgetForEntry setup.cfg
    (entry.bar.pairId, entry.bar.tokenSide, entry.direction) entry.bar.barSecond pool
    entry.alphaType).2 = some notional
  scaled : ∃ shape spread, bookShape setup.cfg entry.bar entry.direction = some shape ∧
    spreadScale setup.cfg bestBid bestAsk = some spread ∧
    scaled = entryQty entry notional (entryReference entry bestBid bestAsk) shape.scale spread ∧
    scale = entryScale entry shape.scale spread

/-- An entry that stands was computed from the inputs, and is what was asked for. -/
theorem EntryInputs.placement {setup : Setup} {env : Env} {desk : Desk} {st : PairTradeState}
    {entry : PendingEntry} {pool : Option ℚ} {bestBid bestAsk notional scaled scale qty : ℚ}
    (hin : EntryInputs setup desk entry pool bestBid bestAsk notional scaled scale)
    (hidle : st.state = .idle)
    (hstands : EntryStands (maybeEnter setup env desk st entry pool).2)
    (hqty : (maybeEnter setup env desk st entry pool).2.entryQty = some qty) :
    ∃ first rest, 0 < scale ∧
      EntryPlacement setup.cfg env entry bestBid bestAsk notional scaled qty first rest ∧
      (maybeEnter setup env desk st entry pool).2.entryPrice = some first ∧
      (setup.isLive = true → ∃ id target,
        (maybeEnter setup env desk st entry pool).1.req.orderExec =
          desk.req.orderExec ++ [⟨id, .placeChase entry.key target (entrySide entry.direction) qty
            (first :: rest) "E"⟩]) := by
  obtain ⟨shape, notional', books, qty', first, rest, hshape, hscale, hbudget, hdecision, heq⟩ :=
    maybeEnter_places hidle hstands
  obtain ⟨shape', spread, hshape', hspread, rfl, rfl⟩ := hin.scaled
  -- the shape is read off the same bar, so it is the one of the inputs
  obtain rfl : shape = shape' := Option.some.inj (hshape.symm.trans hshape')
  have hbudgetIn := hin.budget
  rw [hbudget] at hbudgetIn
  -- the budget is that of the inputs
  obtain rfl : notional' = notional := Option.some.inj hbudgetIn
  rw [heq] at hstands hqty ⊢
  obtain ⟨hqty', hprice, hqueue⟩ := placeEntry_stands hstands
  obtain rfl : qty' = qty := Option.some.inj (hqty'.symm.trans hqty)
  exact ⟨first, rest, entryScale_pos entry hscale (spreadScale_pos hspread),
    entryDecision_place_inv hin.bid hin.ask hspread hdecision, hprice, hqueue⟩

/-- The price of the `i`-th step of a ladder may be the accepted one, where the `j`-th is the first
candidate: the builder takes it and those before it; a paper entry stands at the first one. -/
def MayAccept (setup : Setup) (ladder : ℕ → ℚ) (j i : ℕ) : Prop :=
  if setup.isLive then ladder j ≤ f64 (999 / 1000) ∧ ladder i ≤ f64 (999 / 1000) else i = j

theorem AcceptedAt.forall_iff {setup : Setup} {env : Env} {desk : Desk} {st : PairTradeState}
    {entry : PendingEntry} {pool : Option ℚ} {bestBid bestAsk notional scaled qty first : ℚ}
    {rest : List ℚ} {j : ℕ}
    (hplaced : EntryPlacement setup.cfg env entry bestBid bestAsk notional scaled qty first rest)
    (hprice : (maybeEnter setup env desk st entry pool).2.entryPrice = some first)
    (hqueue : setup.isLive = true → ∃ id target,
      (maybeEnter setup env desk st entry pool).1.req.orderExec =
        desk.req.orderExec ++ [⟨id, .placeChase entry.key target (entrySide entry.direction) qty
          (first :: rest) "E"⟩])
    (hj : FirstStep setup.cfg env entry bestBid bestAsk scaled j)
    (hfirst : first = placementLadder setup.cfg env entry bestBid bestAsk scaled j)
    (P : ℚ → Prop) :
    (∀ price, AcceptedAt setup env entry desk (maybeEnter setup env desk st entry pool).1
        (maybeEnter setup env desk st entry pool).2 price → P price) ↔
      ∀ i, PlacementStep setup.cfg env entry bestBid bestAsk scaled i →
        MayAccept setup (placementLadder setup.cfg env entry bestBid bestAsk scaled) j i →
          P (placementLadder setup.cfg env entry bestBid bestAsk scaled i) := by
  unfold MayAccept
  cases hlive : setup.isLive with
  | false =>
    -- a paper entry stands at its first price
    constructor
    · rintro h i - rfl
      rw [← hfirst]
      exact h first (Or.inl ⟨hlive, hprice⟩)
    · rintro h price (⟨-, hat⟩ | ⟨hlive', -⟩)
      · obtain rfl : first = price := Option.some.inj (hprice.symm.trans hat)
        rw [hfirst]
        exact h j hj.step rfl
      · rw [hlive] at hlive'
        cases hlive'
  | true =>
    obtain ⟨id, target, hqueue⟩ := hqueue hlive
    -- what can be accepted are the calls of the chase on the queued candidates
    have hcalls : (∀ price, AcceptedAt setup env entry desk
        (maybeEnter setup env desk st entry pool).1 (maybeEnter setup env desk st entry pool).2
          price → P price) ↔
        ∀ (clock : ℕ → ℤ) (replies : ℕ → PlaceReply),
          BuilderChecks env.lower (first :: rest) replies →
          ∀ call ∈ (placeWithChase env.lower true entry.key (entrySide entry.direction) qty
            setup.cfg.orderClientPrefix "E" clock replies (first :: rest)).2,
            call.reply.mayBeAccepted = true → P call.price := by
      constructor
      · intro h clock replies hchecks call hcall haccepted
        exact h call.price (Or.inr ⟨hlive, id, target, entrySide entry.direction, qty,
          first :: rest, "E", clock, replies, hqueue, hchecks, call, hcall, haccepted, rfl⟩)
      · rintro h price (⟨hdry, -⟩ | ⟨-, id', target', side, qty', prices, tag, clock, replies,
          hqueue', hchecks, call, hcall, haccepted, rfl⟩)
        · rw [hlive] at hdry
          cases hdry
        · have hsame := List.append_cancel_left (hqueue.symm.trans hqueue')
          cases hsame
          exact h clock replies hchecks call hcall haccepted
    -- the calls are those up to the first refusal, the candidates the steps that are kept
    rw [hcalls, placeWithChase_accepted_iff env.lower entry.key (entrySide entry.direction) qty
      setup.cfg.orderClientPrefix "E" (first :: rest) P, hplaced.callable_iff P, hfirst]
    constructor
    · rintro h i hi ⟨hlow, hhigh⟩
      exact h i hi hlow hhigh
    · intro h i hi hlow hhigh
      exact h i hi ⟨hlow, hhigh⟩

/-- A candidate in the sample market; the lagging signal scales its quantity by one and the
modifier. -/
def sampleCandidate (modifier : ℚ) : PendingEntry where
  key := sampleKey
  bar := sampleBar 0
  pmMove := 0
  pmMom := 0
  direction := 1
  alphaType := .gapB
  shock := none
  opiMid := some (1 / 2)
  basePm := 1
  edgeRaw := 0
  confScore := 1
  costMult := 1
  horizonS := none
  staleScale := 0
  entryTtlOverrideMs := none
  cModifier := some modifier

def idleDesk : Desk := (TradeEngine.start 0).desk

def idleState : PairTradeState := (TradeEngine.start 0).stateOf sampleKey

/-- What `maybe_enter` makes of the candidate. -/
def sampleEnter (modifier : ℚ) : Desk × PairTradeState :=
  maybeEnter sampleSetup (sampleEnv 1000 "x") idleDesk idleState (sampleCandidate modifier) none

/-- With a modifier of -1/5 the quantity is four fifths of the 20 shares that 10 buys. -/
theorem sampleInputs :
    EntryInputs sampleSetup idleDesk (sampleCandidate (-1 / 5)) none (1 / 2) (3 / 5) 10 16
      (F64.add 1 (-1 / 5)) :=
  ⟨by decide +kernel, by decide +kernel, by decide +kernel, ⟨0, 1, 1⟩, 1, by decide +kernel,
    by decide +kernel, by decide +kernel, by decide +kernel⟩

/-- The builder takes the only candidate. -/
theorem sampleBuilderChecks :
    BuilderChecks (sampleEnv 1000 "x").lower [1 / 2] fun _ => .accepted "e1" := by
  intro i price hget hnone
  cases i with
  | zero =>
    cases hget
    have hsome : (validatePrice (1 / 2)).isSome = true := by decide +kernel
    rw [hnone] at hsome
    cases hsome
  | succ i => cases hget

/-- What an entry has to bring in apart from fees. -/
def fixedCost (cfg : TradeConfig) (env : Env) : ℚ :=
  F64.add (F64.mul (gasEstUsd cfg env) cfg.gasMult) cfg.gasBufferUsd

/-- The threshold in exact terms: a factor for the fee and one for the rest. -/
theorem profitThreshold_eq (cfg : TradeConfig) (env : Env) (entry : PendingEntry)
    (priceRef qty : ℚ) :
    ∃ ρ σ, RoundingFactor 12 ρ ∧ RoundingFactor 4 σ ∧
      profitThreshold cfg env entry priceRef qty =
        (fixedCost cfg env + env.feeBps / 10000 * priceRef * qty * 2 * ρ) *
          max entry.costMult 1 * σ := by
  obtain ⟨ρ, hρ, hfee⟩ : ∃ ρ, RoundingFactor 12 ρ ∧
      F64.mul (F64.mul (F64.mul (F64.div env.feeBps 10000) priceRef) qty) 2 =
        env.feeBps / 10000 * priceRef * qty * 2 * ρ :=
    mul_rounded (mul_rounded (mul_rounded (F64.div_eq_mul env.feeBps 10000)))
  obtain ⟨τ, hτ, hsum⟩ := f64_eq_mul (fixedCost cfg env +
    F64.mul (F64.mul (F64.mul (F64.div env.feeBps 10000) priceRef) qty) 2)
  obtain ⟨υ, hυ, hscaled⟩ := F64.mul_eq_mul (F64.add (fixedCost cfg env)
    (F64.mul (F64.mul (F64.mul (F64.div env.feeBps 10000) priceRef) qty) 2)) (max entry.costMult 1)
  have hadd : F64.add (fixedCost cfg env)
      (F64.mul (F64.mul (F64.mul (F64.div env.feeBps 10000) priceRef) qty) 2) =
      (fixedCost cfg env + env.feeBps / 10000 * priceRef * qty * 2 * ρ) * τ := by
    have hfixed : f64 (fixedCost cfg env) = fixedCost cfg env := F64.f64_add _ _
    rw [F64.add, F64.f64_mul, hfixed, hsum, hfee]
  refine ⟨ρ, τ * υ, hρ, hτ.mul hυ, ?_⟩
  change F64.mul (F64.add (fixedCost cfg env) _) _ = _
  rw [hscaled, hadd]
  ring

/-- The gate holds at the quantity that is placed exactly when that is the scaled quantity, or the
edge beyond the fees on the minimum notional pays for gas and buffer; the factors stand for the
rounding of fee and edge. -/
theorem entry_profit_gate_iff {setup : Setup} {env : Env} {desk : Desk} {st : PairTradeState}
    {entry : PendingEntry} {pool : Option ℚ} {bestBid bestAsk notional scaled scale qty : ℚ}
    (hin : EntryInputs setup desk entry pool bestBid bestAsk notional scaled scale)
    (hidle : st.state = .idle)
    (hstands : EntryStands (maybeEnter setup env desk st entry pool).2)
    (hqty : (maybeEnter setup env desk st entry pool).2.entryQty = some qty) :
    ∃ ρ σ : ℚ, |ρ - 1| ≤ 1 / 2 ^ 48 ∧ |σ - 1| ≤ 1 / 2 ^ 48 ∧
      (profitThreshold setup.cfg env entry (entryReference entry bestBid bestAsk) qty ≤
          F64.mul (expectedEdgePerUnit setup.cfg entry (entryReference entry bestBid bestAsk)) qty ↔
        ∀ j, FirstStep setup.cfg env entry bestBid bestAsk scaled j →
          BelowMinimum setup.cfg (placementLadder setup.cfg env entry bestBid bestAsk scaled j)
            scaled →
          (fixedCost setup.cfg env *
              placementLadder setup.cfg env entry bestBid bestAsk scaled j +
            env.feeBps / 10000 * entryReference entry bestBid bestAsk * 2 *
              setup.cfg.minOrderNotionalUsd * ρ) * max entry.costMult 1 ≤
          expectedEdgePerUnit setup.cfg entry (entryReference entry bestBid bestAsk) *
            setup.cfg.minOrderNotionalUsd * σ) := by
  obtain ⟨first, rest, -, hplaced, -, -⟩ := hin.placement hidle hstands hqty
  obtain ⟨j, hj, hfirst⟩ := hplaced.first_eq
  have hpos := hplaced.first_pos
  have hgate := hplaced.gate
  have hqty := bumpQty_eq_some hplaced.bumped
  by_cases hbelow : BelowMinimum setup.cfg first scaled
  · rw [if_pos hbelow] at hqty
    obtain ⟨τ, hτ, hraised⟩ := F64.div_eq_mul setup.cfg.minOrderNotionalUsd first
    rw [← hqty] at hraised
    obtain ⟨ρ, υ, hρ, hυ, hthreshold⟩ := profitThreshold_eq setup.cfg env entry
      (entryReference entry bestBid bestAsk) qty
    obtain ⟨χ, hχ, hedge⟩ := F64.mul_eq_mul
      (expectedEdgePerUnit setup.cfg entry (entryReference entry bestBid bestAsk)) qty
    refine ⟨τ * ρ, τ * χ * υ⁻¹, (hτ.mul hρ).abs_sub_one_le.trans (by norm_num [roundingUnit]),
      ((hτ.mul hχ).mul hυ.inv).abs_sub_one_le.trans (by norm_num [roundingUnit]), ?_⟩
    have hall : (∀ j', FirstStep setup.cfg env entry bestBid bestAsk scaled j' →
        BelowMinimum setup.cfg (placementLadder setup.cfg env entry bestBid bestAsk scaled j')
            scaled →
          (fixedCost setup.cfg env *
              placementLadder setup.cfg env entry bestBid bestAsk scaled j' +
            env.feeBps / 10000 * entryReference entry bestBid bestAsk * 2 *
              setup.cfg.minOrderNotionalUsd * (τ * ρ)) * max entry.costMult 1 ≤
          expectedEdgePerUnit setup.cfg entry (entryReference entry bestBid bestAsk) *
            setup.cfg.minOrderNotionalUsd * (τ * χ * υ⁻¹)) ↔
        (fixedCost setup.cfg env * first +
            env.feeBps / 10000 * entryReference entry bestBid bestAsk * 2 *
              setup.cfg.minOrderNotionalUsd * (τ * ρ)) * max entry.costMult 1 ≤
          expectedEdgePerUnit setup.cfg entry (entryReference entry bestBid bestAsk) *
            setup.cfg.minOrderNotionalUsd * (τ * χ * υ⁻¹) := by
      rw [hfirst] at hbelow ⊢
      refine ⟨fun h => h j hj hbelow, fun h j' hj' _ => ?_⟩
      obtain rfl := hj'.unique hj
      exact h
    rw [hall, hthreshold, hedge, hraised]
    generalize fixedCost setup.cfg env = fixed
    generalize expectedEdgePerUnit setup.cfg entry _ = edge
    generalize entryReference entry bestBid bestAsk = priceRef
    generalize setup.cfg.minOrderNotionalUsd = least
    -- both sides are the same inequality, times the first price and without the last factor
    have hleft : (fixed + env.feeBps / 10000 * priceRef * (least / first * τ) * 2 * ρ) *
        max entry.costMult 1 * υ =
        (fixed * first + env.feeBps / 10000 * priceRef * 2 * least * (τ * ρ)) *
          max entry.costMult 1 * (υ / first) := by
      field_simp
    have hright : edge * (least / first * τ) * χ =
        edge * least * (τ * χ * υ⁻¹) * (υ / first) := by
      have hυ0 := hυ.pos.ne'
      field_simp
    rw [hleft, hright, mul_le_mul_iff_left₀ (div_pos hυ.pos hpos)]
  · rw [if_neg hbelow] at hqty
    refine ⟨1, 1, by norm_num, by norm_num, iff_of_true ?_ fun j' hj' hbelow' => ?_⟩
    · rw [hqty] at hgate ⊢
      exact hgate
    · obtain rfl := hj'.unique hj
      rw [← hfirst] at hbelow'
      exact absurd hbelow' hbelow

/-- The sample market with a minimum notional of 5 and a fee of one percent. -/
def minimumSetup : Setup :=
  { sampleSetup with cfg := { sampleCfg with minOrderNotionalUsd := 5 } }

def feeEnv : Env := { sampleEnv 1000 "x" with feeBps := 100 }

/-- A candidate with an edge, and a stale book that leaves a quarter of the quantity. -/
def staleCandidate (edgeRaw : ℚ) : PendingEntry :=
  { sampleCandidate 0 with edgeRaw := edgeRaw, staleScale := 1 / 4 }

theorem minimumInputs :
    EntryInputs minimumSetup idleDesk (staleCandidate (1 / 50)) none (1 / 2) (3 / 5) 10 5
      (1 / 4) :=
  ⟨by decide +kernel, by decide +kernel, by decide +kernel, ⟨0, 1, 1⟩, 1, by decide +kernel,
    by decide +kernel, by decide +kernel, by decide +kernel⟩

/-- An edge of two cents a share pays for the fees on the minimum notional too. -/
theorem entry_profit_gate_two_cents :
    profitThreshold minimumSetup.cfg feeEnv (staleCandidate (1 / 50)) (1 / 2)
        (F64.div 5 (49 / 100)) ≤
      F64.mul (expectedEdgePerUnit minimumSetup.cfg (staleCandidate (1 / 50)) (1 / 2))
        (F64.div 5 (49 / 100)) := by
  obtain ⟨ρ, σ, hρ, hσ, hiff⟩ := @entry_profit_gate_iff minimumSetup feeEnv idleDesk idleState
    (staleCandidate (1 / 50)) none (1 / 2) (3 / 5) 10 5 (1 / 4) (F64.div 5 (49 / 100))
    minimumInputs (by decide) (Or.inl (by decide +kernel)) (by decide +kernel)
  refine hiff.mpr ?_
  intro j _ _
  -- there is no gas to pay, and the fee is one percent of 5 dollars
  have hfixed : fixedCost minimumSetup.cfg feeEnv = 0 := by decide +kernel
  have href : entryReference (staleCandidate (1 / 50)) (1 / 2) (3 / 5) = 1 / 2 := by decide +kernel
  have hedge : expectedEdgePerUnit minimumSetup.cfg (staleCandidate (1 / 50)) (1 / 2) = 1 / 50 := by
    decide +kernel
  have hfee : feeEnv.feeBps = 100 := rfl
  have hminimum : minimumSetup.cfg.minOrderNotionalUsd = 5 := rfl
  have hmult : max (staleCandidate (1 / 50)).costMult 1 = 1 := by decide +kernel
  have hlow := (abs_le.mp hσ).1
  have hhigh := (abs_le.mp hρ).2
  rw [hfixed, href, hedge, hfee, hminimum, hmult]
  linarith

/-- An edge of seven tenths of a cent passes the gate for 5 shares, and 5 / 0.49 are placed. -/
theorem entry_below_profit_gate :
    (maybeEnter minimumSetup feeEnv idleDesk idleState (staleCandidate (7 / 1000)) none).2.state =
        .entryPlacing ∧
      (maybeEnter minimumSetup feeEnv idleDesk idleState (staleCandidate (7 / 1000))
        none).2.entryQty = some (F64.div 5 (49 / 100)) ∧
      ¬ profitThreshold minimumSetup.cfg feeEnv (staleCandidate (7 / 1000)) (1 / 2)
          (F64.div 5 (49 / 100)) ≤
        F64.mul (expectedEdgePerUnit minimumSetup.cfg (staleCandidate (7 / 1000)) (1 / 2))
          (F64.div 5 (49 / 100)) := by
  refine ⟨by decide +kernel, by decide +kernel, by decide +kernel⟩


end AlphaMonitor.Trade
