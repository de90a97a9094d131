import AlphaMonitor.Lib.Run
import AlphaMonitor.Trade.Engine
import Mathlib.Algebra.BigOperators.Group.List.Basic
import Mathlib.Algebra.Order.BigOperators.Group.List

/-!
# The entry pool under several shards

The engine shards share one entry pool.  The pool belongs to one bar second at a time and
is filled up when a call names another second.  Every call takes the lock at least twice:
first to reset the pool, then to change or read it; other shards may come in between.

## Main definitions

- `PoolCall`: the calls of the source that touch the pool
- `PoolSystem`: any number of shards, one lock region at a time
- `PoolTrue`: the pool tells what is left of its second

## Main results

- `flushPendingEntries_calls`, `applyPlaceResult_calls`: the handlers touch the pool by calls only
- `entry_pool_respected`: runs in which no call finds the pool at another second
- `entry_pool_overdrawn`: a late failure of an older second refills the pool
-/

namespace AlphaMonitor.Trade

open AlphaMonitor.Lib

variable {cfg : TradeConfig}

/-! ## Calls -/

/-- The second lock region of `reserve_entry_pool`. -/
def TradeRiskState.takeNotional (risk : TradeRiskState) (notional : ℚ) : TradeRiskState :=
  { risk with entryPoolRemaining := max (risk.entryPoolRemaining - notional) 0 }

/-- The second lock region of `release_entry_pool`. -/
def TradeRiskState.giveNotional (cfg : TradeConfig) (risk : TradeRiskState) (notional : ℚ) :
    TradeRiskState :=
  { risk with
    entryPoolRemaining :=
      min (risk.entryPoolRemaining + notional) (cfg.balanceTotalUsd * cfg.entryPoolFrac) }

/-- A call that takes the lock of the pool. -/
inductive PoolCall where
  /-- `reset_entry_pool`, alone or before the pool is read. -/
  | look (second : ℤ)
  | reserve (second : ℤ) (notional : ℚ)
  | release (second : ℤ) (notional : ℚ)
  deriving DecidableEq, Repr

namespace PoolCall

/-- The second that the pool is reset to. -/
def second : PoolCall → ℤ
  | .look second | .reserve second _ | .release second _ => second

/-- What the call does to the pool after the reset. -/
def finish (cfg : TradeConfig) (risk : TradeRiskState) : PoolCall → TradeRiskState
  | .look _ => risk
  | .reserve _ notional => risk.takeNotional notional
  | .release _ notional => risk.giveNotional cfg notional

/-- The whole call, with no other shard in between. -/
def apply (cfg : TradeConfig) (risk : TradeRiskState) (call : PoolCall) : TradeRiskState :=
  call.finish cfg (risk.resetEntryPool cfg call.second)

end PoolCall

@[simp] theorem apply_look (risk : TradeRiskState) (second : ℤ) :
    PoolCall.apply cfg risk (.look second) = risk.resetEntryPool cfg second := rfl

@[simp] theorem apply_reserve (risk : TradeRiskState) (second : ℤ) (notional : ℚ) :
    PoolCall.apply cfg risk (.reserve second notional) =
      risk.reserveEntryPool cfg second notional := rfl

@[simp] theorem apply_release (risk : TradeRiskState) (second : ℤ) (notional : ℚ) :
    PoolCall.apply cfg risk (.release second notional) =
      risk.releaseEntryPool cfg second notional := rfl

/-! ## What the handlers do to the pool -/

/-- The pool of the first state. -/
def SamePool (risk risk' : TradeRiskState) : Prop :=
  risk.entryPoolSecond = risk'.entryPoolSecond ∧ risk.entryPoolRemaining = risk'.entryPoolRemaining

/-- The pool has changed by these calls, one after another. -/
def PoolCalls (cfg : TradeConfig) (risk : TradeRiskState) (calls : List PoolCall)
    (risk' : TradeRiskState) : Prop :=
  SamePool risk' (calls.foldl (PoolCall.apply cfg) risk)

theorem SamePool.apply {risk risk' : TradeRiskState} (h : SamePool risk risk') (call : PoolCall) :
    SamePool (PoolCall.apply cfg risk call) (PoolCall.apply cfg risk' call) := by
  obtain ⟨hsecond, hremaining⟩ := h
  have hreset : ∀ second, SamePool (risk.resetEntryPool cfg second)
      (risk'.resetEntryPool cfg second) := by
    intro second
    unfold TradeRiskState.resetEntryPool
    rw [hsecond]
    split
    · exact ⟨hsecond, hremaining⟩
    · exact ⟨rfl, rfl⟩
  cases call with
  | look second => exact hreset second
  | reserve second notional =>
    obtain ⟨hsecond, hremaining⟩ := hreset second
    exact ⟨hsecond, congrArg (fun r => max (r - notional) 0) hremaining⟩
  | release second notional =>
    obtain ⟨hsecond, hremaining⟩ := hreset second
    exact ⟨hsecond, congrArg (fun r => min (r + notional) _) hremaining⟩

theorem SamePool.foldl {risk risk' : TradeRiskState} (h : SamePool risk risk')
    (calls : List PoolCall) : SamePool (calls.foldl (PoolCall.apply cfg) risk)
      (calls.foldl (PoolCall.apply cfg) risk') := by
  induction calls generalizing risk risk' with
  | nil => exact h
  | cons call calls ih => exact ih (h.apply call)

theorem PoolCalls.nil (risk : TradeRiskState) : PoolCalls cfg risk [] risk := ⟨rfl, rfl⟩

theorem PoolCalls.trans {risk₁ risk₂ risk₃ : TradeRiskState} {calls calls' : List PoolCall}
    (h : PoolCalls cfg risk₁ calls risk₂) (h' : PoolCalls cfg risk₂ calls' risk₃) :
    PoolCalls cfg risk₁ (calls ++ calls') risk₃ := by
  unfold PoolCalls at *
  rw [List.foldl_append]
  have hrest := @SamePool.foldl cfg _ _ h calls'
  exact ⟨h'.1.trans hrest.1, h'.2.trans hrest.2⟩

/-- The end of `maybe_enter` reserves, and releases at once if the order cannot be queued. -/
theorem placeEntry_calls (setup : Setup) (env : Env) (desk : Desk) (st : PairTradeState)
    (entry : PendingEntry) (qty first : ℚ) (rest : List ℚ) :
    PoolCalls setup.cfg desk.books.risk [.reserve entry.bar.barSecond (first * qty)]
        (placeEntry setup env desk st entry qty first rest).1.books.risk ∨
      PoolCalls setup.cfg desk.books.risk
        [.reserve entry.bar.barSecond (first * qty), .release entry.bar.barSecond (first * qty)]
        (placeEntry setup env desk st entry qty first rest).1.books.risk := by
  unfold placeEntry
  split
  · simp only
    split
    · exact Or.inl ⟨rfl, rfl⟩
    · exact Or.inr ⟨rfl, rfl⟩
  · left
    simp only
    unfold Books.addExposure
    split
    · exact ⟨rfl, rfl⟩
    · exact ⟨rfl, rfl⟩

theorem budgetForEntry_calls (books : Books) (key : ExposureKey) (barSecond : ℤ)
    (poolOverride : Option ℚ) (alphaType : AlphaType) :
    (books.budgetForEntry cfg key barSecond poolOverride alphaType).1.risk = books.risk ∨
      (books.budgetForEntry cfg key barSecond poolOverride alphaType).1.risk =
        books.risk.resetEntryPool cfg barSecond := by
  unfold Books.budgetForEntry
  split
  · exact Or.inl rfl
  · right
    simp only
    split
    · rfl
    · split
      · rfl
      · split
        · rfl
        · rfl

/-- One entry of the flush: every call names the second of the entry's bar. -/
theorem maybeEnter_calls (setup : Setup) (env : Env) (desk : Desk) (st : PairTradeState)
    (entry : PendingEntry) (poolOverride : Option ℚ) :
    ∃ calls, (∀ call ∈ calls, call.second = entry.bar.barSecond) ∧
      PoolCalls setup.cfg desk.books.risk calls
        (maybeEnter setup env desk st entry poolOverride).1.books.risk := by
  have hnone : ∃ calls : List PoolCall, (∀ call ∈ calls, call.second = entry.bar.barSecond) ∧
      PoolCalls setup.cfg desk.books.risk calls desk.books.risk :=
    ⟨[], List.forall_mem_nil _, PoolCalls.nil _⟩
  unfold maybeEnter
  simp only
  split
  · -- not yet allowed to enter: the pool is not touched
    exact hnone
  · split
    · exact hnone
    · split
      · exact hnone
      · have hbudget := @budgetForEntry_calls setup.cfg desk.books
          (entry.bar.pairId, entry.bar.tokenSide, entry.direction) entry.bar.barSecond poolOverride
          entry.alphaType
        generalize desk.books.budgetForEntry setup.cfg _ _ _ _ = result at hbudget ⊢
        obtain ⟨books, budget⟩ := result
        -- the budget resets the pool or leaves it alone
        have hlook : ∃ calls : List PoolCall, (∀ call ∈ calls, call.second = entry.bar.barSecond) ∧
            PoolCalls setup.cfg desk.books.risk calls books.risk := by
          rcases hbudget with hsame | hreset
          · refine ⟨[], List.forall_mem_nil _, ?_⟩
            rw [show books.risk = desk.books.risk from hsame]
            exact PoolCalls.nil _
          · refine ⟨[.look entry.bar.barSecond], ?_, ?_⟩
            · intro call hcall
              rw [List.mem_singleton.mp hcall]
              rfl
            · rw [show books.risk = _ from hreset]
              exact ⟨rfl, rfl⟩
        cases budget with
        -- no budget, or nothing to place: the pool has only been looked at
        | none => exact hlook
        | some notional =>
          simp only
          cases entryDecision setup.cfg env entry _ notional with
          | skip => exact hlook
          | noCandidate => exact hlook
          | place qty first rest =>
            obtain ⟨calls, hcalls, hpool⟩ := hlook
            have hplace := placeEntry_calls setup env { desk with books := books }
              { st with lastEntryAttemptMs := some env.now } entry qty first rest
            -- the placement reserves, and releases at once where its order cannot be queued
            rcases hplace with hreserve | hrelease
            · refine ⟨_, ?_, hpool.trans hreserve⟩
              intro call hcall
              rcases List.mem_append.mp hcall with hcall | hcall
              · exact hcalls call hcall
              · rw [List.mem_singleton.mp hcall]
                rfl
            · refine ⟨_, ?_, hpool.trans hrelease⟩
              intro call hcall
              rcases List.mem_append.mp hcall with hcall | hcall
              · exact hcalls call hcall
              · rcases List.mem_cons.mp hcall with rfl | hcall
                · rfl
                · rw [List.mem_singleton.mp hcall]
                  rfl

theorem flushLoop_calls (setup : Setup) (env : Env) (second : ℤ) (entries : List PendingEntry)
    (eng : TradeEngine) :
    ∃ calls, (∀ call ∈ calls,
        call.second = second ∨ ∃ entry ∈ entries, call.second = entry.bar.barSecond) ∧
      PoolCalls setup.cfg eng.desk.books.risk calls
        (TradeEngine.flushLoop setup env second entries eng).desk.books.risk := by
  induction entries generalizing eng with
  | nil => exact ⟨[], List.forall_mem_nil _, PoolCalls.nil _⟩
  | cons entry rest ih =>
    unfold TradeEngine.flushLoop
    generalize havail : (if setup.cfg.balanceTotalUsd > 0 then
      eng.desk.books.risk.entryPoolAvailable setup.cfg second
      else (eng.desk.books.risk, 0)) = result
    obtain ⟨risk, available⟩ := result
    simp only [havail]
    have hlook : ∃ calls : List PoolCall, (∀ call ∈ calls, call.second = second) ∧
        PoolCalls setup.cfg eng.desk.books.risk calls risk := by
      -- without a balance the pool is not read
      split at havail
      · cases havail
        refine ⟨[.look second], ?_, rfl, rfl⟩
        intro call hcall
        rw [List.mem_singleton.mp hcall]
        rfl
      · cases havail
        exact ⟨[], List.forall_mem_nil _, PoolCalls.nil _⟩
    obtain ⟨calls, hcalls, hpool⟩ := hlook
    split
    · -- the pool is empty: the rest of the list is dropped
      exact ⟨calls, fun call hcall => Or.inl (hcalls call hcall), hpool⟩
    · split
      · generalize hnext : TradeEngine.putBack _ _ (maybeEnter setup env _ _ entry _) = next
        obtain ⟨entered, hentered, hmaybe⟩ := maybeEnter_calls setup env
          { eng.desk with books := { eng.desk.books with risk := risk } }
          (TradeEngine.stateOf { eng with
            desk := { eng.desk with books := { eng.desk.books with risk := risk } } } entry.key)
          entry (if available > 0 then some available else none)
        obtain ⟨later, hlater, hrest⟩ := ih next
        have hstep : PoolCalls setup.cfg risk entered next.desk.books.risk := by
          rw [← hnext]
          exact hmaybe
        refine ⟨_, ?_, (hpool.trans hstep).trans hrest⟩
        intro call hcall
        rcases List.mem_append.mp hcall with hcall | hcall
        · rcases List.mem_append.mp hcall with hcall | hcall
          · exact Or.inl (hcalls call hcall)
          · exact Or.inr ⟨entry, List.mem_cons_self, hentered call hcall⟩
        · refine (hlater call hcall).imp_right ?_
          rintro ⟨other, hother, hsecond⟩
          exact ⟨other, List.mem_cons_of_mem _ hother, hsecond⟩
      · -- the pair is not idle: its entry makes no call
        generalize hnext : TradeEngine.putBack _ _ _ = next
        obtain ⟨later, hlater, hrest⟩ := ih next
        have hstep : PoolCalls setup.cfg risk [] next.desk.books.risk := by
          rw [← hnext]
          exact PoolCalls.nil _
        refine ⟨_, ?_, (hpool.trans hstep).trans hrest⟩
        intro call hcall
        rw [List.append_nil] at hcall
        rcases List.mem_append.mp hcall with hcall | hcall
        · exact Or.inl (hcalls call hcall)
        · refine (hlater call hcall).imp_right ?_
          rintro ⟨other, hother, hsecond⟩
          exact ⟨other, List.mem_cons_of_mem _ hother, hsecond⟩

/-- A flush of candidates touches the pool by calls only. -/
theorem flushPendingEntries_calls (setup : Setup) (env : Env) (eng : TradeEngine)
    (currentBarSecond : ℤ) :
    ∃ calls, PoolCalls setup.cfg eng.desk.books.risk calls
      (TradeEngine.flushPendingEntries setup env eng currentBarSecond).desk.books.risk := by
  unfold TradeEngine.flushPendingEntries
  split
  · -- nothing pending, not due or nothing ranked: no call at all
    exact ⟨[], PoolCalls.nil _⟩
  · rename_i second hsecond
    split
    · exact ⟨[], PoolCalls.nil _⟩
    · simp only
      split
      · exact ⟨[], PoolCalls.nil _⟩
      · generalize hstart : (if setup.cfg.balanceTotalUsd > 0 then _ else _ : TradeEngine) = start
        obtain ⟨calls, -, hrest⟩ := flushLoop_calls setup env second
          (TradeEngine.rankEntries .shockA setup.cfg.rankTopKA eng.pendingEntries ++
            TradeEngine.rankEntries .gapB setup.cfg.rankTopKB eng.pendingEntries) start
        split at hstart
        · subst hstart
          have hlook : PoolCalls setup.cfg eng.desk.books.risk [.look second]
              (eng.desk.books.risk.resetEntryPool setup.cfg second) := ⟨rfl, rfl⟩
          exact ⟨_, hlook.trans hrest⟩
        · subst hstart
          exact ⟨calls, hrest⟩

/-- A placement result releases its reservation or leaves the pool alone. -/
theorem applyPlaceResult_calls (setup : Setup) (env : Env) (eng : TradeEngine)
    (st : PairTradeState) (entry : PendingEntry) (pairKey : PairKey) (result : PlaceResult) :
    PoolCalls setup.cfg eng.desk.books.risk []
        (TradeEngine.applyPlaceResult setup env eng st entry pairKey result).1.books.risk ∨
      PoolCalls setup.cfg eng.desk.books.risk
        [.release entry.bar.barSecond (st.entryNotional.getD 0)]
        (TradeEngine.applyPlaceResult setup env eng st entry pairKey result).1.books.risk := by
  unfold TradeEngine.applyPlaceResult
  simp only
  split
  · -- an order that was placed keeps its reservation
    left
    simp only
    unfold Books.addExposure
    split
    · exact ⟨rfl, rfl⟩
    · exact ⟨rfl, rfl⟩
  · -- a refused one gives it back to the second of the entry's own bar
    exact Or.inr ⟨rfl, rfl⟩

/-! ## Shards that share the pool -/

/-- The shared pool and the calls of any number of shards. -/
structure PoolSystem (ι : Type*) where
  risk : TradeRiskState
  /-- The call of a shard that has reset the pool and has not finished. -/
  doing : ι → Option PoolCall
  /-- Reservations of each shard that have not been released. -/
  held : List (ι × ℤ × ℚ)
  /-- What has been reserved for each second, and what of it has been released. -/
  reserved : ℤ → ℚ
  released : ℤ → ℚ

/-- One lock region of a shard. -/
inductive PoolEvent (ι : Type*) where
  /-- A call resets the pool. -/
  | start (shard : ι) (call : PoolCall)
  /-- The call of the shard reads or changes the pool and ends. -/
  | finish (shard : ι)

namespace PoolSystem

/-- No reservation has been made. -/
def start (ι : Type*) : PoolSystem ι :=
  ⟨TradeRiskState.start, fun _ => none, [], fun _ => 0, fun _ => 0⟩

variable {ι : Type*} (t : PoolSystem ι)

/-- What is reserved for a second and not released. -/
def net (second : ℤ) : ℚ := t.reserved second - t.released second

/-- Reservations are positive, and only a reservation of the shard is released. -/
def May (shard : ι) : PoolCall → Prop
  | .look _ => True
  | .reserve _ notional => 0 < notional
  | .release second notional => (shard, second, notional) ∈ t.held

variable [DecidableEq ι]

instance (shard : ι) : ∀ call, Decidable (t.May shard call)
  | .look _ => inferInstanceAs (Decidable True)
  | .reserve _ notional => inferInstanceAs (Decidable (0 < notional))
  | .release second notional => inferInstanceAs (Decidable ((shard, second, notional) ∈ t.held))

/-- The records after a call has ended. -/
def note (shard : ι) : PoolCall → PoolSystem ι
  | .look _ => t
  | .reserve second notional =>
    { t with
      held := (shard, second, notional) :: t.held
      reserved := Function.update t.reserved second (t.reserved second + notional) }
  | .release second notional =>
    { t with
      held := t.held.erase (shard, second, notional)
      released := Function.update t.released second (t.released second + notional) }

def step (cfg : TradeConfig) (t : PoolSystem ι) : PoolEvent ι → Option (PoolSystem ι)
  | .start shard call =>
    -- the reset is the first lock region of a call, its effect the second
    if t.doing shard = none ∧ t.May shard call then
      some { t with
        risk := t.risk.resetEntryPool cfg call.second
        doing := Function.update t.doing shard (some call) }
    else none
  | .finish shard =>
    (t.doing shard).map fun call =>
      PoolSystem.note { t with
        risk := call.finish cfg t.risk
        doing := Function.update t.doing shard none } shard call

end PoolSystem

/-- The machine of the shards. -/
def poolMachine (ι : Type*) [DecidableEq ι] (cfg : TradeConfig) :
    Machine (PoolSystem ι) (PoolEvent ι) where
  init t := t = PoolSystem.start ι
  step := PoolSystem.step cfg

/-- What may be reserved for one second. -/
def poolCap (cfg : TradeConfig) : ℚ := cfg.balanceTotalUsd * cfg.entryPoolFrac

section System

variable {ι : Type*}

/-! ## What the books say -/

/-- The amount of a reservation for one second. -/
def heldFor (second : ℤ) (h : ι × ℤ × ℚ) : ℚ := if h.2.1 = second then h.2.2 else 0

variable {t t' : PoolSystem ι} {e : PoolEvent ι}

/-- What is reserved and not released is what the shards hold. -/
structure PoolBooks (t : PoolSystem ι) : Prop where
  balance : ∀ second, t.net second = (t.held.map (heldFor second)).sum
  positive : ∀ h ∈ t.held, 0 < h.2.2
  allowed : ∀ shard call, t.doing shard = some call → t.May shard call

theorem poolBooks_start : PoolBooks (PoolSystem.start ι) where
  balance _ := sub_self 0
  positive := List.forall_mem_nil _
  allowed _ _ h := absurd h (by simp [PoolSystem.start])

theorem heldFor_nonneg (h : PoolBooks t) (second : ℤ) {items : List (ι × ℤ × ℚ)}
    (hsub : ∀ item ∈ items, item ∈ t.held) : 0 ≤ (items.map (heldFor second)).sum := by
  apply List.sum_nonneg
  intro x hx
  obtain ⟨item, hitem, rfl⟩ := List.mem_map.mp hx
  unfold heldFor
  split
  · exact (h.positive item (hsub item hitem)).le
  · exact le_refl _

/-- No second has more reserved than the pool allows, and the pool holds exactly what is left
of the second it belongs to. -/
structure PoolTrue (cfg : TradeConfig) (t : PoolSystem ι) : Prop where
  respected : ∀ second, t.net second ≤ poolCap cfg
  exact : ∀ second, t.risk.entryPoolSecond = some second →
    t.risk.entryPoolRemaining = poolCap cfg - t.net second

theorem poolTrue_start (hcap : 0 ≤ poolCap cfg) : PoolTrue cfg (PoolSystem.start ι) where
  respected _ := (sub_self 0).trans_le hcap
  exact _ h := absurd h (by simp [PoolSystem.start, TradeRiskState.start])

/-- A reset leaves the pool true if it stands at the second, or if nothing is reserved for it. -/
theorem PoolTrue.reset (h : PoolTrue cfg t) {second : ℤ} (doing : ι → Option PoolCall)
    (hsecond : t.risk.entryPoolSecond = some second ∨ t.net second = 0) :
    PoolTrue cfg { t with risk := t.risk.resetEntryPool cfg second, doing := doing } := by
  refine ⟨h.respected, fun s hs => ?_⟩
  show (t.risk.resetEntryPool cfg second).entryPoolRemaining = poolCap cfg - t.net s
  replace hs : (t.risk.resetEntryPool cfg second).entryPoolSecond = some s := hs
  unfold TradeRiskState.resetEntryPool at hs ⊢
  -- the pool stands at the second already: a reset does nothing
  split at hs
  · rename_i heq
    rw [if_pos heq]
    exact h.exact s hs
  · -- a new second starts with the whole pool, and nothing is reserved for it
    rename_i hne
    rw [if_neg hne]
    obtain rfl : second = s := Option.some.inj hs
    rw [hsecond.resolve_left hne, sub_zero]
    rfl

/-- A call that changes the pool ends while the pool stands at its second, and a reservation
fits into what remains. -/
def EndsAtOwnSecond (risk : TradeRiskState) : Option PoolCall → Prop
  | some (.reserve second notional) =>
    risk.entryPoolSecond = some second ∧ notional ≤ risk.entryPoolRemaining
  | some (.release second _) => risk.entryPoolSecond = some second
  | _ => True

/-- The condition on a step.  A release starts while the pool stands at its second; another
call may also start when nothing is reserved for its second. -/
def PoolAtOwnSecond (t : PoolSystem ι) : PoolEvent ι → Prop
  | .start _ (.release second _) => t.risk.entryPoolSecond = some second
  | .start _ (.look second) | .start _ (.reserve second _) =>
    t.risk.entryPoolSecond = some second ∨ t.net second = 0
  | .finish shard => EndsAtOwnSecond t.risk (t.doing shard)

instance (risk : TradeRiskState) : ∀ call, Decidable (EndsAtOwnSecond risk call)
  | some (.reserve _ _) => inferInstanceAs (Decidable (_ ∧ _))
  | some (.release _ _) => inferInstanceAs (Decidable (_ = _))
  | some (.look _) | none => inferInstanceAs (Decidable True)

instance (t : PoolSystem ι) : ∀ e, Decidable (PoolAtOwnSecond t e)
  | .start _ (.release _ _) => inferInstanceAs (Decidable (_ = _))
  | .start _ (.look _) | .start _ (.reserve _ _) => inferInstanceAs (Decidable (_ ∨ _))
  | .finish _ => inferInstanceAs (Decidable (EndsAtOwnSecond _ _))

/-! ## Steps -/

variable [DecidableEq ι]

/-- One reservation and the others. -/
theorem sum_held_erase {shard : ι} {second : ℤ} {notional : ℚ}
    (hmem : (shard, second, notional) ∈ t.held) (s : ℤ) :
    (t.held.map (heldFor s)).sum = heldFor s (shard, second, notional) +
      ((t.held.erase (shard, second, notional)).map (heldFor s)).sum := by
  have hperm := (List.perm_cons_erase hmem).map (heldFor s)
  rw [hperm.sum_eq, List.map_cons, List.sum_cons]

/-- A reservation that is held is part of what is reserved. -/
theorem PoolBooks.le_net (h : PoolBooks t) {shard : ι} {second : ℤ} {notional : ℚ}
    (hmem : (shard, second, notional) ∈ t.held) : notional ≤ t.net second := by
  have hself : heldFor second (shard, second, notional) = notional := if_pos rfl
  rw [h.balance second, sum_held_erase hmem, hself]
  apply le_add_of_nonneg_right
  exact heldFor_nonneg h second fun _ hitem => List.mem_of_mem_erase hitem

/-- Taking a reservation to the books or off them. -/
theorem net_note (t : PoolSystem ι) (shard : ι) (call : PoolCall) (second : ℤ) :
    (t.note shard call).net second =
      match call with
      | .look _ => t.net second
      | .reserve s notional => t.net second + heldFor second (shard, s, notional)
      | .release s notional => t.net second - heldFor second (shard, s, notional) := by
  cases call with
  | look s => rfl
  | reserve s notional =>
    unfold PoolSystem.note PoolSystem.net heldFor
    by_cases hs : s = second
    · subst hs
      simp
      ring
    · simp [Function.update_of_ne (Ne.symm hs), hs]
  | release s notional =>
    unfold PoolSystem.note PoolSystem.net heldFor
    by_cases hs : s = second
    · subst hs
      simp
      ring
    · simp [Function.update_of_ne (Ne.symm hs), hs]

/-- What has been started stays allowed while other shards work. -/
theorem may_note {shard other : ι} {call done : PoolCall} (hne : other ≠ shard)
    (h : t.May other call) : (t.note shard done).May other call := by
  cases call with
  | look s => trivial
  | reserve s notional => exact h
  | release s notional =>
    cases done with
    | look s' => exact h
    | reserve s' notional' => exact List.mem_cons_of_mem _ h
    | release s' notional' =>
      refine (List.mem_erase_of_ne ?_).mpr h
      intro heq
      exact hne (Prod.mk.inj heq).1

theorem poolBooks_step (h : PoolBooks t) (hs : PoolSystem.step cfg t e = some t') :
    PoolBooks t' := by
  cases e with
  | start shard call =>
    unfold PoolSystem.step at hs
    simp only at hs
    split at hs
    · rename_i hmay
      cases hs
      refine ⟨h.balance, h.positive, fun other started hstarted => ?_⟩
      rcases eq_or_ne other shard with rfl | hne
      · obtain rfl : call = started := by simpa using hstarted
        exact hmay.2
      · exact h.allowed other started (by simpa [hne] using hstarted)
    · cases hs
  | finish shard =>
    obtain ⟨call, hcall, rfl⟩ := Option.map_eq_some_iff.mp hs
    have hmay := h.allowed shard call hcall
    constructor
    · intro second
      rw [net_note]
      have hbalance := h.balance second
      cases call with
      | look s => exact hbalance
      | reserve s notional =>
        show t.net second + heldFor second (shard, s, notional) =
          (((shard, s, notional) :: t.held).map (heldFor second)).sum
        rw [List.map_cons, List.sum_cons, hbalance, add_comm]
      | release s notional =>
        show t.net second - heldFor second (shard, s, notional) =
          ((t.held.erase (shard, s, notional)).map (heldFor second)).sum
        rw [hbalance, sum_held_erase hmay, add_sub_cancel_left]
    · cases call with
      | look s => exact h.positive
      | reserve s notional =>
        intro item hitem
        rcases List.mem_cons.mp hitem with rfl | hitem
        · exact hmay
        · exact h.positive item hitem
      | release s notional => exact fun item hitem => h.positive item (List.mem_of_mem_erase hitem)
    · intro other started hstarted
      rcases eq_or_ne other shard with rfl | hne
      · exfalso
        cases call <;> simp [PoolSystem.note] at hstarted
      · have hbefore : t.doing other = some started := by
          cases call <;> simpa [PoolSystem.note, hne] using hstarted
        exact may_note hne (h.allowed other started hbefore)

theorem poolTrue_step (hbooks : PoolBooks t) (h : PoolTrue cfg t) (hguard : PoolAtOwnSecond t e)
    (hs : PoolSystem.step cfg t e = some t') : PoolTrue cfg t' := by
  cases e with
  | start shard call =>
    unfold PoolSystem.step at hs
    simp only at hs
    split at hs
    · cases hs
      apply h.reset
      cases call with
      | look s => exact hguard
      | reserve s notional => exact hguard
      | release s notional => exact Or.inl hguard
    · cases hs
  | finish shard =>
    obtain ⟨call, hcall, rfl⟩ := Option.map_eq_some_iff.mp hs
    have hmay := hbooks.allowed shard call hcall
    replace hguard : EndsAtOwnSecond t.risk (t.doing shard) := hguard
    rw [hcall] at hguard
    cases call with
    | look s => exact ⟨h.respected, h.exact⟩
    | reserve s notional =>
      obtain ⟨hown, hfits⟩ := hguard
      have hleft := h.exact s hown
      constructor
      · intro second
        rw [net_note]
        show t.net second + heldFor second (shard, s, notional) ≤ poolCap cfg
        unfold heldFor
        split
        · rename_i heq
          obtain rfl : s = second := heq
          linarith
        · rw [add_zero]
          exact h.respected second
      · intro second hsecond
        obtain rfl : s = second := Option.some.inj (hown.symm.trans hsecond)
        rw [net_note]
        show max (t.risk.entryPoolRemaining - notional) 0 =
          poolCap cfg - (t.net s + heldFor s (shard, s, notional))
        rw [max_eq_left (sub_nonneg.mpr hfits), hleft, heldFor, if_pos rfl]
        ring
    | release s notional =>
      have hleft := h.exact s hguard
      have hle := hbooks.le_net hmay
      constructor
      · intro second
        rw [net_note]
        refine (sub_le_self _ ?_).trans (h.respected second)
        unfold heldFor
        split
        · exact (hbooks.positive _ hmay).le
        · exact le_refl _
      · intro second hsecond
        obtain rfl : s = second := Option.some.inj (hguard.symm.trans hsecond)
        rw [net_note]
        show min (t.risk.entryPoolRemaining + notional) (poolCap cfg) =
          poolCap cfg - (t.net s - heldFor s (shard, s, notional))
        rw [hleft, heldFor, if_pos rfl, min_eq_left (by linarith)]
        ring

/-- While every call finds the pool at its own second, and every reservation fits into it,
no second has more reserved than the pool allows, and the pool is never filled up. -/
theorem entry_pool_respected (hcap : 0 ≤ poolCap cfg) {es : List (PoolEvent ι)}
    (hguard : (poolMachine ι cfg).RunMeets PoolAtOwnSecond (PoolSystem.start ι) es)
    (hr : (poolMachine ι cfg).run (PoolSystem.start ι) es = some t) : PoolTrue cfg t := by
  have hinv := (poolMachine ι cfg).inv_of_runMeets (fun t => PoolBooks t ∧ PoolTrue cfg t)
    (G := PoolAtOwnSecond) (fun _ _ _ h hguard hs =>
      ⟨poolBooks_step h.1 hs, poolTrue_step h.1 h.2 hguard hs⟩)
    ⟨poolBooks_start, poolTrue_start hcap⟩ hguard hr
  exact hinv.2

end System

/-! ## A late failure -/

/-- Half of the balance of 100 may be reserved for one second. -/
def poolCfg : TradeConfig :=
  { (default : TradeConfig) with balanceTotalUsd := 100, entryPoolFrac := 1 / 2 }

/-- A call that no other shard interrupts. -/
def poolCall (shard : ℕ) (call : PoolCall) : List (PoolEvent ℕ) :=
  [.start shard call, .finish shard]

/-- A placement of second 100 fails before second 101 is flushed. -/
def failureInTime : List (PoolEvent ℕ) :=
  poolCall 0 (.reserve 100 50) ++ poolCall 0 (.release 100 50) ++ poolCall 1 (.reserve 101 30) ++
    poolCall 2 (.reserve 101 20)

/-- The pool of second 101 is used up and not more. -/
theorem entry_pool_respected_in_time :
    ∃ t, (poolMachine ℕ poolCfg).run (PoolSystem.start ℕ) failureInTime = some t ∧
      t.net 101 = poolCap poolCfg ∧ PoolTrue poolCfg t := by
  have hguard : (poolMachine ℕ poolCfg).RunMeets PoolAtOwnSecond (PoolSystem.start ℕ)
      failureInTime := by decide +kernel
  exact ⟨_, rfl, by decide +kernel, entry_pool_respected (by decide +kernel) hguard rfl⟩

/-- A placement of second 100 fails after second 101 has been flushed. -/
def lateFailure : List (PoolEvent ℕ) :=
  poolCall 0 (.reserve 100 50) ++ poolCall 1 (.reserve 101 50) ++ poolCall 0 (.release 100 50)

/-- The late release fills the pool up again, and second 101 gets twice what it may have. -/
theorem entry_pool_overdrawn :
    (∃ t, (poolMachine ℕ poolCfg).run (PoolSystem.start ℕ)
        (lateFailure ++ poolCall 2 (.look 101)) = some t ∧
      t.net 101 = poolCap poolCfg ∧ t.risk.entryPoolSecond = some 101 ∧
        t.risk.entryPoolRemaining = poolCap poolCfg) ∧
    ∃ t, (poolMachine ℕ poolCfg).run (PoolSystem.start ℕ)
        (lateFailure ++ poolCall 2 (.look 101) ++ poolCall 2 (.reserve 101 50)) = some t ∧
      poolCap poolCfg < t.net 101 := by
  refine ⟨⟨_, rfl, ?_, rfl, ?_⟩, _, rfl, ?_⟩
  · decide +kernel
  · decide +kernel
  · decide +kernel

end AlphaMonitor.Trade
