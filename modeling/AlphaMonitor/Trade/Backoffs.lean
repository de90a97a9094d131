import AlphaMonitor.Lib.Run
import AlphaMonitor.Trade.Runs
import Mathlib.Tactic.IntervalCases

/-!
# Backoffs

Three delays grow with failures: the one before the next fill poll, the one before any cancel,
and the one before the next cancel of one order.  Each has its own base, bound and jitter, and
each puts bound and jitter together in its own order.

## Main definitions

- `DelayLaw`: what a failure may do to a delay
- `backoffMachine`: the outcomes that the three delays react to
- `BackoffLaw`, `BackoffGuard`: the law, and when an outcome keeps it

## Main results

- `poll_law_iff`, `cancel_law_iff`, `retry_law_iff`: one outcome of each kind
- `backoffs_lawful_iff`: runs of outcomes
-/

namespace AlphaMonitor.Trade

open Lib (Machine)

/-! ## Delays -/

/-- A failure at `now` takes a delay to `delay'`, and the time that is waited for to `until'`:
the wait is bounded, the delay does not shrink, and a time that is set does not move back. -/
structure DelayLaw (now cap delay delay' : ℤ) (until_ until' : Option ℤ) : Prop where
  bounded : ∀ u ∈ until', u - now ≤ cap
  grows : delay ≤ delay'
  kept : ∀ u ∈ until_, ∃ u' ∈ until', u ≤ u'

/-- The delay of the first rate-limited fill poll. -/
def fillPollBase (setup : Setup) : ℤ := max (setup.orderPollIntervalMs * 2) fillPollBackoffMinMs

/-- The delay of the first rate-limited cancel, before the jitter. -/
def cancelBase (setup : Setup) : ℤ := max (setup.orderPollIntervalMs * 2) cancelBackoffMinMs

/-- The delay after that many failures to cancel one order, before the jitter. -/
def cancelRetryDelay (failures : ℕ) : ℤ :=
  (fun b => min (b * 2) cancelRetryMaxMs)^[failures - 1] cancelRetryBaseMs

/-- The delay that an order waits. -/
def CancelRetryState.delayOf (retry : Option CancelRetryState) : ℤ :=
  (retry.map fun st => cancelRetryDelay st.failures).getD 0

namespace Requests

variable (setup : Setup) (env : Env) (req : Requests)

/-- The delay of the next rate-limited fill poll. -/
def nextFillPollBackoff : ℤ :=
  if req.fillPollBackoffMs > 0 then min (req.fillPollBackoffMs * 2) fillPollBackoffMaxMs
  else fillPollBase setup

/-- The delay of the next rate-limited cancel, before the jitter. -/
def nextCancelBackoff : ℤ :=
  if req.cancelBackoffMs > 0 then min (req.cancelBackoffMs * 2) cancelBackoffMaxMs
  else cancelBase setup

/-- The failures in a row, with one more. -/
def nextCancelFailures : ℤ :=
  let lapsed : Bool :=
    match req.cancelLastFailureMs with
    | some last => decide (env.now - last > cancelFailResetMs)
    | none => false
  (if lapsed then 0 else req.cancelConsecutiveFailures) + 1

/-- The failures to cancel one order, with one more. -/
def nextRetryFailures (orderId : String) : ℕ :=
  ((req.cancelRetry orderId).map (·.failures)).getD 0 + 1

/-- The wait that the next failure to cancel one order sets. -/
def nextRetryWait (orderId : String) : ℤ :=
  if req.nextRetryFailures orderId ≥ cancelRetryMaxFailures then cancelRetryMaxMs
  else max (roundHalfAway (cancelRetryDelay (req.nextRetryFailures orderId) * env.retryJitter))
    cancelRetryBaseMs

end Requests

/-! ## Outcomes -/

/-- An outcome that the delays react to. -/
inductive BackoffEvent where
  /-- `update_fill_poll_backoff`. -/
  | poll (rateLimited success : Bool)
  /-- `update_cancel_backoff`. -/
  | cancel (result : CancelResult)
  /-- `record_cancel_failure`. -/
  | failed (orderId : String)
  /-- `clear_cancel_retry`. -/
  | cancelled (orderId : String)
  deriving DecidableEq, Repr

def BackoffEvent.apply (setup : Setup) (env : Env) (req : Requests) : BackoffEvent → Requests
  | .poll rateLimited success => req.updateFillPollBackoff setup env rateLimited success
  | .cancel result => req.updateCancelBackoff setup env result
  | .failed orderId => req.recordCancelFailure env orderId
  | .cancelled orderId => req.clearCancelRetry orderId

def cancelBackoffJitterMin : ℚ := 1 / 2
def cancelBackoffJitterMax : ℚ := 3 / 2
def retryJitterMin : ℚ := 4 / 5
def retryJitterMax : ℚ := 6 / 5

/-- The jitters that the code can draw. -/
def Env.Drawn (env : Env) : Prop :=
  (cancelBackoffJitterMin ≤ env.cancelJitter ∧ env.cancelJitter ≤ cancelBackoffJitterMax) ∧
    retryJitterMin ≤ env.retryJitter ∧ env.retryJitter ≤ retryJitterMax

instance (env : Env) : Decidable env.Drawn :=
  inferInstanceAs (Decidable (_ ∧ _))

/-- The requests, and the time of the last outcome. -/
structure Backoffs where
  req : Requests
  clock : ℤ

/-- Outcomes at non-decreasing times, from the start of the engine on. -/
def backoffMachine (setup : Setup) : Machine Backoffs (Env × BackoffEvent) where
  init s := s.req = Requests.start s.clock
  step s e :=
    if s.clock ≤ e.1.now ∧ e.1.Drawn then some ⟨e.2.apply setup e.1 s.req, e.1.now⟩ else none

theorem backoffMachine_step {setup : Setup} {s : Backoffs} {e : Env × BackoffEvent}
    (hle : s.clock ≤ e.1.now) (hdrawn : e.1.Drawn) :
    (backoffMachine setup).step s e = some ⟨e.2.apply setup e.1 s.req, e.1.now⟩ :=
  if_pos ⟨hle, hdrawn⟩

/-! ## The law -/

/-- What an outcome may do to its delay; a success brings it back to its base. -/
def BackoffLaw (setup : Setup) (s : Backoffs) (e : Env × BackoffEvent) : Prop :=
  let after := e.2.apply setup e.1 s.req
  match e.2 with
  | .poll rateLimited success =>
    if rateLimited = false ∧ success = true then
      after.fillPollBackoffUntilMs = none ∧ after.nextFillPollBackoff setup = fillPollBase setup
    else
      DelayLaw e.1.now fillPollBackoffMaxMs s.req.fillPollBackoffMs after.fillPollBackoffMs
        s.req.fillPollBackoffUntilMs after.fillPollBackoffUntilMs
  | .cancel result =>
    if result.ok then
      after.cancelBackoffUntilMs = none ∧ after.nextCancelBackoff setup = cancelBase setup
    else
      DelayLaw e.1.now (max cancelBackoffMaxMs cancelCircuitOpenMs) s.req.cancelBackoffMs
        after.cancelBackoffMs s.req.cancelBackoffUntilMs after.cancelBackoffUntilMs
  | .failed orderId =>
    DelayLaw e.1.now cancelRetryMaxMs (CancelRetryState.delayOf (s.req.cancelRetry orderId))
      (CancelRetryState.delayOf (after.cancelRetry orderId))
      ((s.req.cancelRetry orderId).map (·.nextAllowedMs))
      ((after.cancelRetry orderId).map (·.nextAllowedMs))
  | .cancelled orderId =>
    after.cancelRetry orderId = none ∧
      cancelRetryDelay (after.nextRetryFailures orderId) = cancelRetryBaseMs

/-- When an outcome keeps the law. -/
def BackoffGuard (setup : Setup) (s : Backoffs) (e : Env × BackoffEvent) : Prop :=
  match e.2 with
  -- the base is not cut off at the bound
  | .poll rateLimited _ => rateLimited = true → setup.orderPollIntervalMs * 2 ≤ fillPollBackoffMaxMs
  | .cancel result =>
    result.ok = false → (result.rateLimited = true ∨ result.serverError = true) →
      (0 < s.req.cancelBackoffMs → setup.orderPollIntervalMs * 2 ≤ cancelBackoffMaxMs) ∧
        -- what is left to wait is not more than the new wait
        ∀ u ∈ s.req.cancelBackoffUntilMs,
          u - e.1.now ≤ cancelBackoffMinMs ∨
          u - e.1.now ≤ roundHalfAway (s.req.nextCancelBackoff setup * e.1.cancelJitter) ∨
          cancelCircuitFails ≤ s.req.nextCancelFailures e.1 ∧ u - e.1.now ≤ cancelCircuitOpenMs
  | .failed orderId =>
    -- the jitter comes after the bound, but for the eighth failure
    (s.req.nextRetryFailures orderId = 6 ∨ s.req.nextRetryFailures orderId = 7 →
        roundHalfAway (cancelRetryMaxMs * e.1.retryJitter) ≤ cancelRetryMaxMs) ∧
      (s.req.nextRetryFailures orderId = 7 → ∀ st ∈ s.req.cancelRetry orderId,
        st.nextAllowedMs - e.1.now ≤ roundHalfAway (cancelRetryMaxMs * e.1.retryJitter))
  | .cancelled _ => True

/-! ## What the handlers set -/

theorem roundHalfAway_le {q : ℚ} {n : ℤ} (hq : 0 ≤ q) (h : q ≤ n) : roundHalfAway q ≤ n := by
  unfold roundHalfAway
  rw [if_pos hq]
  apply Int.lt_add_one_iff.mp
  rw [Int.floor_lt]
  push_cast
  linarith

theorem le_roundHalfAway {q : ℚ} {n : ℤ} (hn : 0 ≤ n) (h : (n : ℚ) ≤ q) : n ≤ roundHalfAway q := by
  have hq : 0 ≤ q := (Int.cast_nonneg hn).trans h
  unfold roundHalfAway
  rw [if_pos hq, Int.le_floor]
  linarith

namespace Requests

variable {setup : Setup} {env : Env} {req : Requests}

theorem updateFillPollBackoff_limited (success : Bool) :
    req.updateFillPollBackoff setup env true success =
      { req with
        fillPollBackoffMs := req.nextFillPollBackoff setup
        fillPollBackoffUntilMs := some (env.now + req.nextFillPollBackoff setup) } := rfl

theorem updateFillPollBackoff_failed :
    req.updateFillPollBackoff setup env false false = req := rfl

theorem updateFillPollBackoff_success :
    req.updateFillPollBackoff setup env false true =
      if req.fillPollBackoffMs > 0 then
        { req with fillPollBackoffMs := 0, fillPollBackoffUntilMs := none }
      else req := by
  unfold updateFillPollBackoff
  simp

theorem updateCancelBackoff_ok {result : CancelResult} (hok : result.ok = true) :
    req.updateCancelBackoff setup env result =
      if req.cancelBackoffMs > 0 ∨ req.cancelConsecutiveFailures > 0 then
        { req with
          cancelBackoffMs := 0
          cancelBackoffUntilMs := none
          cancelConsecutiveFailures := 0
          cancelLastFailureMs := none }
      else req := by
  unfold updateCancelBackoff
  rw [if_pos hok]

/-- The wait that a rate limit or a server error sets. -/
def cancelWait (setup : Setup) (env : Env) (req : Requests) : ℤ :=
  min (max (roundHalfAway (req.nextCancelBackoff setup * env.cancelJitter)) cancelBackoffMinMs)
    cancelBackoffMaxMs

/-- The time that the circuit breaker leaves. -/
def withCircuit (env : Env) (req : Requests) (until_ : Option ℤ) : Option ℤ :=
  if req.nextCancelFailures env ≥ cancelCircuitFails ∧
      ((until_.map fun u => decide (u < env.now + cancelCircuitOpenMs)).getD true) then
    some (env.now + cancelCircuitOpenMs)
  else until_

theorem updateCancelBackoff_failed {result : CancelResult} (hok : result.ok = false) :
    (req.updateCancelBackoff setup env result).cancelConsecutiveFailures =
        req.nextCancelFailures env ∧
      (req.updateCancelBackoff setup env result).cancelBackoffMs =
        (if result.rateLimited ∨ result.serverError then req.nextCancelBackoff setup
          else req.cancelBackoffMs) ∧
      (req.updateCancelBackoff setup env result).cancelBackoffUntilMs =
        req.withCircuit env (if result.rateLimited ∨ result.serverError then
          some (env.now + req.cancelWait setup env) else req.cancelBackoffUntilMs) := by
  have hfailed : ¬result.ok = true := by simp [hok]
  unfold updateCancelBackoff withCircuit nextCancelFailures
  rw [if_neg hfailed]
  -- Both sides branch on the two flags of the answer alone.
  refine ⟨rfl, ?_, ?_⟩
  · cases result.rateLimited <;> cases result.serverError <;> rfl
  · cases result.rateLimited <;> cases result.serverError <;> rfl

theorem recordCancelFailure_eq (orderId : String) :
    req.recordCancelFailure env orderId =
      { req with
        cancelRetry := Function.update req.cancelRetry orderId
          (some ⟨req.nextRetryFailures orderId, env.now + req.nextRetryWait env orderId⟩) } := rfl

end Requests

/-! ## Fill polls -/

theorem fillPollBackoffMaxMs_nonneg : 0 ≤ fillPollBackoffMaxMs := by decide

/-- What the lawful outcomes so far have left of the fill polls' delay. -/
structure PollSound (setup : Setup) (req : Requests) (clock : ℤ) : Prop where
  nonneg : 0 ≤ req.fillPollBackoffMs
  bounded : req.fillPollBackoffMs ≤ fillPollBackoffMaxMs
  base : 0 < req.fillPollBackoffMs → setup.orderPollIntervalMs * 2 ≤ fillPollBackoffMaxMs
  wait : ∀ u ∈ req.fillPollBackoffUntilMs,
    0 < req.fillPollBackoffMs ∧ u - clock ≤ req.fillPollBackoffMs

section

variable {setup : Setup} {env : Env} {req : Requests} {clock : ℤ}

theorem PollSound.later (h : PollSound setup req clock) {now : ℤ} (hle : clock ≤ now) :
    PollSound setup req now := by
  refine ⟨h.nonneg, h.bounded, h.base, fun u hu => ?_⟩
  have hwait := h.wait u hu
  omega

/-- The next delay does not shrink, and is bounded by its bound unless the base is not. -/
theorem PollSound.next (h : PollSound setup req clock) :
    req.fillPollBackoffMs ≤ req.nextFillPollBackoff setup ∧
      0 < req.nextFillPollBackoff setup ∧
      (req.nextFillPollBackoff setup ≤ fillPollBackoffMaxMs ↔
        setup.orderPollIntervalMs * 2 ≤ fillPollBackoffMaxMs) := by
  obtain ⟨hnonneg, hbounded, hbase, -⟩ := h
  unfold Requests.nextFillPollBackoff fillPollBase
  unfold fillPollBackoffMaxMs fillPollBackoffMinMs at *
  -- After a first limit the delay doubles up to the bound; before, it is the base.
  split
  · rename_i hpos
    have hinterval := hbase hpos
    omega
  · omega

theorem poll_law_iff (h : PollSound setup req clock) (hle : clock ≤ env.now)
    (rateLimited success : Bool) :
    BackoffLaw setup ⟨req, clock⟩ (env, .poll rateLimited success) ↔
      BackoffGuard setup ⟨req, clock⟩ (env, .poll rateLimited success) := by
  obtain ⟨hgrows, hpos, hcap⟩ := h.next
  cases rateLimited with
  | true =>
    simp only [BackoffLaw, BackoffGuard, BackoffEvent.apply, Bool.true_eq_false, false_and,
      if_false, Requests.updateFillPollBackoff_limited, forall_const]
    rw [← hcap]
    constructor
    · intro hlaw
      have hbounded := hlaw.bounded _ rfl
      omega
    · intro hguard
      constructor
      · intro u hu
        cases hu
        omega
      · exact hgrows
      · intro u hu
        have hwait := h.wait u hu
        exact ⟨_, rfl, by omega⟩
  | false =>
    apply iff_of_true
    · cases success with
      | true =>
        simp only [BackoffLaw, BackoffEvent.apply, and_self, if_true,
          Requests.updateFillPollBackoff_success]
        split
        · exact ⟨rfl, rfl⟩
        · -- Nothing to take back: no time is set without a delay.
          rename_i hzero
          refine ⟨Option.eq_none_iff_forall_not_mem.mpr fun u hu => ?_, if_neg hzero⟩
          exact hzero (h.wait u hu).1
      | false =>
        -- Another error changes nothing.
        simp only [BackoffLaw, BackoffEvent.apply, Bool.false_eq_true, and_false, if_false,
          Requests.updateFillPollBackoff_failed]
        constructor
        · intro u hu
          have hwait := h.wait u hu
          have hbounded := h.bounded
          omega
        · exact le_refl _
        · exact fun u hu => ⟨u, hu, le_refl u⟩
    · exact fun hlimited => absurd hlimited (by simp)

theorem PollSound.poll (h : PollSound setup req clock) (hle : clock ≤ env.now)
    {rateLimited success : Bool}
    (hguard : BackoffGuard setup ⟨req, clock⟩ (env, .poll rateLimited success)) :
    PollSound setup (req.updateFillPollBackoff setup env rateLimited success) env.now := by
  cases rateLimited with
  | true =>
    obtain ⟨-, hpos, hcap⟩ := h.next
    have hinterval := hguard rfl
    rw [Requests.updateFillPollBackoff_limited]
    constructor
    · exact le_of_lt hpos
    · exact hcap.mpr hinterval
    · exact fun _ => hinterval
    · intro u hu
      cases hu
      exact ⟨hpos, by simp⟩
  | false =>
    cases success with
    | true =>
      rw [Requests.updateFillPollBackoff_success]
      split
      · exact ⟨le_refl 0, fillPollBackoffMaxMs_nonneg, fun hpos => absurd hpos (lt_irrefl 0), by simp⟩
      · exact h.later hle
    | false => exact h.later hle

/-! ## Cancels -/

/-- What the lawful outcomes so far have left of the cancels' delay. -/
structure CancelSound (setup : Setup) (req : Requests) (clock : ℤ) : Prop where
  nonneg : 0 ≤ req.cancelBackoffMs
  failures : 0 ≤ req.cancelConsecutiveFailures
  base : 0 < req.cancelBackoffMs → req.cancelBackoffMs = cancelBase setup ∨
    req.cancelBackoffMs ≤ cancelBackoffMaxMs ∧ setup.orderPollIntervalMs * 2 ≤ cancelBackoffMaxMs
  wait : ∀ u ∈ req.cancelBackoffUntilMs,
    (0 < req.cancelBackoffMs ∨ 0 < req.cancelConsecutiveFailures) ∧
      u - clock ≤ cancelBackoffMaxMs

theorem CancelSound.later (h : CancelSound setup req clock) {now : ℤ} (hle : clock ≤ now) :
    CancelSound setup req now := by
  refine ⟨h.nonneg, h.failures, h.base, fun u hu => ?_⟩
  obtain ⟨hset, hwait⟩ := h.wait u hu
  exact ⟨hset, by omega⟩

/-- The next delay only shrinks where a base above the bound is cut down to it. -/
theorem CancelSound.next (h : CancelSound setup req clock) :
    0 < req.nextCancelBackoff setup ∧
      (req.cancelBackoffMs ≤ req.nextCancelBackoff setup ↔
        (0 < req.cancelBackoffMs → setup.orderPollIntervalMs * 2 ≤ cancelBackoffMaxMs)) := by
  obtain ⟨hnonneg, -, hbase, -⟩ := h
  unfold Requests.nextCancelBackoff
  unfold cancelBase at *
  unfold cancelBackoffMaxMs cancelBackoffMinMs at *
  -- A base above the bound is not cut off, but the doubled delay after it is.
  split
  · rename_i hpos
    have hbase := hbase hpos
    omega
  · omega

theorem nextCancelFailures_pos (h : CancelSound setup req clock) :
    0 < req.nextCancelFailures env := by
  have hfailures := h.failures
  unfold Requests.nextCancelFailures
  dsimp only
  split
  · split
    · omega
    · omega
  · split
    · omega
    · omega

/-- The circuit breaker does not wait longer than a backoff may. -/
theorem withCircuit_bounded {until_ : Option ℤ}
    (h : ∀ u ∈ until_, u - env.now ≤ cancelBackoffMaxMs) :
    ∀ u ∈ req.withCircuit env until_, u - env.now ≤ cancelBackoffMaxMs := by
  unfold Requests.withCircuit
  split
  · intro u hu
    cases hu
    unfold cancelCircuitOpenMs cancelBackoffMaxMs
    omega
  · exact h

/-- A time is kept by what is set, or by the circuit breaker. -/
theorem withCircuit_kept (until_ : Option ℤ) (u : ℤ) :
    (∃ u' ∈ req.withCircuit env until_, u ≤ u') ↔
      (∃ u' ∈ until_, u ≤ u') ∨
        cancelCircuitFails ≤ req.nextCancelFailures env ∧ u - env.now ≤ cancelCircuitOpenMs := by
  unfold Requests.withCircuit
  split
  · -- The circuit opens: its time comes in the place of an earlier one.
    rename_i hopen
    obtain ⟨hfails, hbefore⟩ := hopen
    constructor
    · rintro ⟨u', hu', hle⟩
      cases hu'
      exact .inr ⟨hfails, by omega⟩
    · rintro (⟨u', hu', hle⟩ | ⟨-, hle⟩)
      · cases hu'
        have hlt := of_decide_eq_true hbefore
        exact ⟨_, rfl, by omega⟩
      · exact ⟨_, rfl, by omega⟩
  · rename_i hclosed
    constructor
    · exact .inl
    · rintro (hkept | ⟨hfails, hle⟩)
      · exact hkept
      · -- The circuit would be open, but for a later time that is set already.
        cases until_ with
        | none => exact absurd ⟨hfails, rfl⟩ hclosed
        | some u' =>
          have hlater : ¬u' < env.now + cancelCircuitOpenMs := fun hlt =>
            hclosed ⟨hfails, decide_eq_true hlt⟩
          exact ⟨u', rfl, by omega⟩

theorem cancelWait_le : req.cancelWait setup env ≤ cancelBackoffMaxMs := min_le_right _ _

/-- When a rate limit or a server error keeps a time that is set. -/
theorem cancelWait_kept_iff {u : ℤ} (hu : u - env.now ≤ cancelBackoffMaxMs) :
    (∃ u' ∈ req.withCircuit env (some (env.now + req.cancelWait setup env)), u ≤ u') ↔
      (u - env.now ≤ cancelBackoffMinMs ∨
        u - env.now ≤ roundHalfAway (req.nextCancelBackoff setup * env.cancelJitter) ∨
        cancelCircuitFails ≤ req.nextCancelFailures env ∧
          u - env.now ≤ cancelCircuitOpenMs) := by
  rw [withCircuit_kept, ← or_assoc]
  apply or_congr_left
  simp only [Option.mem_def, Option.some.injEq, exists_eq_left', Requests.cancelWait]
  -- The bound cuts off nothing that is still waited for.
  omega

theorem cancel_law_iff (h : CancelSound setup req clock) (hle : clock ≤ env.now)
    (result : CancelResult) :
    BackoffLaw setup ⟨req, clock⟩ (env, .cancel result) ↔
      BackoffGuard setup ⟨req, clock⟩ (env, .cancel result) := by
  obtain ⟨hpos, hgrows⟩ := h.next
  cases hok : result.ok with
  | true =>
    apply iff_of_true
    · simp only [BackoffLaw, BackoffEvent.apply, hok, if_true,
        Requests.updateCancelBackoff_ok hok]
      split
      · exact ⟨rfl, rfl⟩
      · -- A time is only set together with a delay or a count of failures.
        rename_i hzero
        refine ⟨Option.eq_none_iff_forall_not_mem.mpr fun u hu => hzero (h.wait u hu).1, ?_⟩
        exact if_neg fun hpos => hzero (.inl hpos)
    · exact fun hfailed => absurd (hok.symm.trans hfailed) (by simp)
  | false =>
    obtain ⟨-, hdelay, huntil⟩ := @Requests.updateCancelBackoff_failed setup env req result hok
    have hwait : ∀ u ∈ req.cancelBackoffUntilMs, u - env.now ≤ cancelBackoffMaxMs := fun u hu =>
      (h.later hle).wait u hu |>.2
    have hcap : max cancelBackoffMaxMs cancelCircuitOpenMs = cancelBackoffMaxMs := by decide
    simp only [BackoffLaw, BackoffGuard, BackoffEvent.apply, hok, Bool.false_eq_true, if_false,
      forall_const, hcap, hdelay, huntil]
    by_cases hhard : result.rateLimited = true ∨ result.serverError = true
    · simp only [hhard, forall_const]
      rw [← hgrows]
      constructor
      · intro hlaw
        exact ⟨hlaw.grows, fun u hu => (cancelWait_kept_iff (hwait u hu)).mp (hlaw.kept u hu)⟩
      · rintro ⟨hgrows, hleft⟩
        refine ⟨withCircuit_bounded ?_, hgrows, fun u hu =>
          (cancelWait_kept_iff (hwait u hu)).mpr (hleft u hu)⟩
        intro u hu
        cases hu
        have hle := @cancelWait_le setup env req
        omega
    · -- Other errors only count, and may open the circuit.
      simp only [hhard, false_implies, iff_true]
      refine ⟨withCircuit_bounded hwait, le_refl _, fun u hu => ?_⟩
      exact (withCircuit_kept _ u).mpr (.inl ⟨u, hu, le_refl u⟩)

theorem CancelSound.cancel (h : CancelSound setup req clock) (hle : clock ≤ env.now)
    {result : CancelResult}
    (hguard : BackoffGuard setup ⟨req, clock⟩ (env, .cancel result)) :
    CancelSound setup (req.updateCancelBackoff setup env result) env.now := by
  obtain ⟨hpos, hgrows⟩ := h.next
  cases hok : result.ok with
  | true =>
    rw [Requests.updateCancelBackoff_ok hok]
    split
    · exact ⟨le_refl 0, le_refl 0, fun hpos => absurd hpos (lt_irrefl 0), by simp⟩
    · exact h.later hle
  | false =>
    obtain ⟨hfailures, hdelay, huntil⟩ :=
      @Requests.updateCancelBackoff_failed setup env req result hok
    have hfailed : 0 < req.nextCancelFailures env := nextCancelFailures_pos h
    have hwait : ∀ u ∈ req.cancelBackoffUntilMs, u - env.now ≤ cancelBackoffMaxMs := fun u hu =>
      (h.later hle).wait u hu |>.2
    by_cases hhard : result.rateLimited = true ∨ result.serverError = true
    · rw [if_pos hhard] at hdelay huntil
      refine ⟨?_, ?_, ?_, ?_⟩
      · rw [hdelay]
        exact le_of_lt hpos
      · rw [hfailures]
        exact le_of_lt hfailed
      · rw [hdelay]
        intro _
        unfold Requests.nextCancelBackoff
        split
        · rename_i hset
          exact .inr ⟨min_le_right _ _, (hguard hok hhard).1 hset⟩
        · exact .inl rfl
      · rw [hdelay, huntil]
        intro u hu
        refine ⟨.inl hpos, withCircuit_bounded ?_ u hu⟩
        intro u' hu'
        cases hu'
        have hle := @cancelWait_le setup env req
        omega
    · rw [if_neg hhard] at hdelay huntil
      refine ⟨?_, ?_, ?_, ?_⟩
      · rw [hdelay]
        exact h.nonneg
      · rw [hfailures]
        exact le_of_lt hfailed
      · rw [hdelay]
        exact h.base
      · rw [hfailures, huntil]
        intro u hu
        exact ⟨.inr hfailed, withCircuit_bounded hwait u hu⟩

/-! ## Cancels of one order -/

theorem cancelRetryDelay_late {failures : ℕ} (h : 6 ≤ failures) :
    cancelRetryDelay failures = cancelRetryMaxMs := by
  obtain ⟨more, rfl⟩ := Nat.exists_eq_add_of_le h
  have hsplit : 6 + more - 1 = more + 5 := by omega
  unfold cancelRetryDelay
  rw [hsplit, Function.iterate_add_apply]
  -- The fifth doubling reaches the bound, and the bound is not left.
  exact Function.iterate_fixed (by decide) more

/-- Up to the fifth failure the delay is far enough below the bound for any jitter, and the next
delay outgrows it. -/
theorem cancelRetryDelay_early {failures : ℕ} (hpos : 1 ≤ failures) (h : failures ≤ 5) :
    ∃ d, cancelRetryDelay failures = 5 * d ∧ 1000 ≤ d ∧ d ≤ 16000 ∧
      6 * cancelRetryDelay failures ≤ 4 * cancelRetryDelay (failures + 1) := by
  interval_cases failures
  · exact ⟨1000, by decide⟩
  · exact ⟨2000, by decide⟩
  · exact ⟨4000, by decide⟩
  · exact ⟨8000, by decide⟩
  · exact ⟨16000, by decide⟩

theorem cancelRetryDelay_mono (failures : ℕ) :
    cancelRetryDelay failures ≤ cancelRetryDelay (failures + 1) := by
  rcases Nat.eq_zero_or_pos failures with rfl | hpos
  · exact le_refl _
  by_cases hearly : failures ≤ 5
  · obtain ⟨d, heq, hlow, -, hnext⟩ := cancelRetryDelay_early hpos hearly
    omega
  · rw [cancelRetryDelay_late (by omega), cancelRetryDelay_late (by omega)]

/-- What the lawful outcomes so far have left of the delays of single orders. -/
def RetrySound (req : Requests) (clock : ℤ) : Prop :=
  ∀ orderId, ∀ st ∈ req.cancelRetry orderId,
    1 ≤ st.failures ∧ st.nextAllowedMs - clock ≤ cancelRetryMaxMs ∧
      (st.failures ≤ 5 → 5 * (st.nextAllowedMs - clock) ≤ 6 * cancelRetryDelay st.failures)

theorem RetrySound.later (h : RetrySound req clock) {now : ℤ} (hle : clock ≤ now) :
    RetrySound req now := by
  intro orderId st hst
  obtain ⟨hpos, hcap, hearly⟩ := h orderId st hst
  refine ⟨hpos, by omega, fun hfew => ?_⟩
  have hwait := hearly hfew
  omega

variable {orderId : String}

/-- The jitter of the sixth and the seventh wait comes after the bound. -/
theorem nextRetryWait_eq (hdrawn : env.Drawn) :
    (req.nextRetryFailures orderId ≤ 5 →
        4 * cancelRetryDelay (req.nextRetryFailures orderId) ≤ 5 * req.nextRetryWait env orderId ∧
        5 * req.nextRetryWait env orderId ≤ 6 * cancelRetryDelay (req.nextRetryFailures orderId)) ∧
      (req.nextRetryFailures orderId = 6 ∨ req.nextRetryFailures orderId = 7 →
        req.nextRetryWait env orderId = roundHalfAway (cancelRetryMaxMs * env.retryJitter) ∧
        96000 ≤ req.nextRetryWait env orderId) ∧
      (8 ≤ req.nextRetryFailures orderId → req.nextRetryWait env orderId = cancelRetryMaxMs) := by
  obtain ⟨-, hlow, hhigh⟩ := hdrawn
  unfold retryJitterMin at hlow
  unfold retryJitterMax at hhigh
  have hpos : 1 ≤ req.nextRetryFailures orderId := Nat.le_add_left 1 _
  unfold Requests.nextRetryWait
  generalize req.nextRetryFailures orderId = failures at hpos
  refine ⟨fun hearly => ?_, fun hmid => ?_, fun hlate => if_pos hlate⟩
  · -- The jitter lies between 4/5 and 6/5, and five divides the delay.
    obtain ⟨d, heq, hd, -, -⟩ := cancelRetryDelay_early hpos hearly
    have hcast : (cancelRetryDelay failures : ℚ) = 5 * d := by exact_mod_cast heq
    have hdpos : (0 : ℚ) ≤ d := by exact_mod_cast (by omega : 0 ≤ d)
    have hlower : 4 * d ≤ roundHalfAway (cancelRetryDelay failures * env.retryJitter) := by
      apply le_roundHalfAway (by omega)
      rw [hcast]
      push_cast
      nlinarith
    have hupper : roundHalfAway (cancelRetryDelay failures * env.retryJitter) ≤ 6 * d := by
      apply roundHalfAway_le
      · rw [hcast]
        exact mul_nonneg (by linarith) (by linarith)
      · rw [hcast]
        push_cast
        nlinarith
    have hfew : ¬failures ≥ cancelRetryMaxFailures := by
      unfold cancelRetryMaxFailures
      omega
    rw [if_neg hfew]
    unfold cancelRetryBaseMs
    omega
  · -- The delay is at its bound, and the jitter is applied to it.
    have hfew : ¬failures ≥ cancelRetryMaxFailures := by
      unfold cancelRetryMaxFailures
      omega
    have hlower : 96000 ≤ roundHalfAway (cancelRetryMaxMs * env.retryJitter) := by
      apply le_roundHalfAway (by omega)
      unfold cancelRetryMaxMs
      push_cast
      linarith
    rw [if_neg hfew, cancelRetryDelay_late (by omega)]
    unfold cancelRetryBaseMs
    omega

theorem nextRetryFailures_eq {st : CancelRetryState} (hst : st ∈ req.cancelRetry orderId) :
    req.nextRetryFailures orderId = st.failures + 1 := by
  unfold Requests.nextRetryFailures
  rw [Option.mem_def.mp hst]
  rfl

/-- The wait passes the bound with the sixth and the seventh failure only. -/
theorem nextRetryWait_le_iff (hdrawn : env.Drawn) :
    req.nextRetryWait env orderId ≤ cancelRetryMaxMs ↔
      (req.nextRetryFailures orderId = 6 ∨ req.nextRetryFailures orderId = 7 →
        roundHalfAway (cancelRetryMaxMs * env.retryJitter) ≤ cancelRetryMaxMs) := by
  obtain ⟨hearly, hmid, hlate⟩ := @nextRetryWait_eq env req orderId hdrawn
  have hpos : 1 ≤ req.nextRetryFailures orderId := Nat.le_add_left 1 _
  by_cases hfew : req.nextRetryFailures orderId ≤ 5
  · have hle : req.nextRetryWait env orderId ≤ cancelRetryMaxMs := by
      obtain ⟨d, heq, -, hd, -⟩ := cancelRetryDelay_early hpos hfew
      have hwait := (hearly hfew).2
      unfold cancelRetryMaxMs
      omega
    exact iff_of_true hle fun hsix => by omega
  by_cases hmany : 8 ≤ req.nextRetryFailures orderId
  · exact iff_of_true (le_of_eq (hlate hmany)) fun hsix => by omega
  · have hbetween : req.nextRetryFailures orderId = 6 ∨ req.nextRetryFailures orderId = 7 := by
      omega
    rw [(hmid hbetween).1]
    exact ⟨fun hle _ => hle, fun hle => hle hbetween⟩

/-- The delay before the jitter does not shrink. -/
theorem delayOf_le : CancelRetryState.delayOf (req.cancelRetry orderId) ≤
    cancelRetryDelay (req.nextRetryFailures orderId) := by
  cases hretry : req.cancelRetry orderId with
  | none =>
    have hone : req.nextRetryFailures orderId = 1 := by
      unfold Requests.nextRetryFailures
      rw [hretry]
      rfl
    simp only [CancelRetryState.delayOf, Option.map_none, Option.getD, hone]
    decide
  | some st =>
    have hnext := nextRetryFailures_eq (Option.mem_def.mpr hretry)
    simp only [CancelRetryState.delayOf, Option.map_some, Option.getD, hnext]
    exact cancelRetryDelay_mono st.failures

/-- The seventh wait alone can end before the one that is set. -/
theorem nextRetryWait_kept_iff (h : RetrySound req env.now) (hdrawn : env.Drawn)
    {st : CancelRetryState} (hst : st ∈ req.cancelRetry orderId) :
    st.nextAllowedMs ≤ env.now + req.nextRetryWait env orderId ↔
      (req.nextRetryFailures orderId = 7 →
        st.nextAllowedMs - env.now ≤ roundHalfAway (cancelRetryMaxMs * env.retryJitter)) := by
  obtain ⟨hearly, hmid, hlate⟩ := @nextRetryWait_eq env req orderId hdrawn
  obtain ⟨hpos, hcap, hold⟩ := h orderId st hst
  have hnext := nextRetryFailures_eq hst
  by_cases hfew : st.failures ≤ 5
  · -- A wait of an early failure is outgrown by the next one, whatever the jitters.
    apply iff_of_true _ fun hseven => by omega
    obtain ⟨d, heq, -, hd, hgrows⟩ := cancelRetryDelay_early hpos hfew
    have hleft := hold hfew
    by_cases hfive : st.failures = 5
    · have hwait := (hmid (.inl (by omega))).2
      omega
    · have hwait := (hearly (by omega)).1
      rw [hnext] at hwait
      omega
  by_cases hsixth : st.failures = 6
  · rw [(hmid (.inr (by omega))).1]
    constructor
    · exact fun hle _ => by omega
    · intro hle
      have hleft := hle (by omega)
      omega
  · -- From the eighth failure on the wait is the bound itself.
    apply iff_of_true _ fun hseven => by omega
    rw [hlate (by omega)]
    omega

theorem retry_law_iff (h : RetrySound req clock) (hle : clock ≤ env.now) (hdrawn : env.Drawn) :
    BackoffLaw setup ⟨req, clock⟩ (env, .failed orderId) ↔
      BackoffGuard setup ⟨req, clock⟩ (env, .failed orderId) := by
  have hlater := h.later hle
  have hbounded := @nextRetryWait_le_iff env req orderId hdrawn
  simp only [BackoffLaw, BackoffGuard, BackoffEvent.apply, Requests.recordCancelFailure_eq,
    Function.update_self, Option.map_some]
  constructor
  · intro hlaw
    refine ⟨hbounded.mp ?_, fun hseven st hst => ?_⟩
    · have hwait := hlaw.bounded _ rfl
      omega
    · obtain ⟨u, hu, hkept⟩ := hlaw.kept st.nextAllowedMs (Option.mem_map_of_mem _ hst)
      cases hu
      exact (nextRetryWait_kept_iff hlater hdrawn hst).mp hkept hseven
  · rintro ⟨hsix, hseven⟩
    constructor
    · intro u hu
      cases hu
      have hwait := hbounded.mpr hsix
      omega
    · exact delayOf_le
    · intro u hu
      obtain ⟨st, hst, rfl⟩ := Option.mem_map.mp hu
      refine ⟨_, rfl, (nextRetryWait_kept_iff hlater hdrawn hst).mpr fun hfailures => ?_⟩
      exact hseven hfailures st hst

theorem RetrySound.failed (h : RetrySound req clock) (hle : clock ≤ env.now)
    (hdrawn : env.Drawn)
    (hguard : BackoffGuard setup ⟨req, clock⟩ (env, .failed orderId)) :
    RetrySound (req.recordCancelFailure env orderId) env.now := by
  have hlaw := (retry_law_iff h hle hdrawn).mpr hguard
  obtain ⟨hearly, -, -⟩ := @nextRetryWait_eq env req orderId hdrawn
  intro orderId' st hst
  -- Only the order that failed has a new state.
  rw [Requests.recordCancelFailure_eq] at hst
  rcases eq_or_ne orderId' orderId with rfl | hne
  · simp only [Function.update_self] at hst
    cases hst
    have hbounded := hlaw.bounded (env.now + req.nextRetryWait env orderId') (by
      simp only [BackoffEvent.apply, Requests.recordCancelFailure_eq, Function.update_self]
      rfl)
    refine ⟨Nat.le_add_left 1 _, hbounded, fun hfew => ?_⟩
    have hwait := (hearly hfew).2
    simp only [add_sub_cancel_left]
    exact hwait
  · simp only [Function.update_of_ne hne] at hst
    exact h.later hle orderId' st hst

/-! ## Runs of outcomes -/

/-- What the lawful outcomes so far have left of all three delays. -/
structure BackoffSound (setup : Setup) (req : Requests) (clock : ℤ) : Prop where
  poll : PollSound setup req clock
  cancel : CancelSound setup req clock
  retry : RetrySound req clock

theorem PollSound.congr {req' : Requests} (h : PollSound setup req clock)
    (hdelay : req'.fillPollBackoffMs = req.fillPollBackoffMs)
    (huntil : req'.fillPollBackoffUntilMs = req.fillPollBackoffUntilMs) :
    PollSound setup req' clock := by
  obtain ⟨hnonneg, hbounded, hbase, hwait⟩ := h
  rw [← hdelay] at hnonneg hbounded hbase hwait
  rw [← huntil] at hwait
  exact ⟨hnonneg, hbounded, hbase, hwait⟩

/-- The outcome of a cancel is not about fill polls or single orders. -/
theorem updateCancelBackoff_frame (result : CancelResult) :
    (req.updateCancelBackoff setup env result).fillPollBackoffMs = req.fillPollBackoffMs ∧
      (req.updateCancelBackoff setup env result).fillPollBackoffUntilMs =
        req.fillPollBackoffUntilMs ∧
      (req.updateCancelBackoff setup env result).cancelRetry = req.cancelRetry := by
  unfold Requests.updateCancelBackoff
  split
  · split
    · exact ⟨rfl, rfl, rfl⟩
    · exact ⟨rfl, rfl, rfl⟩
  · exact ⟨rfl, rfl, rfl⟩

/-- The outcome of a fill poll is not about cancels. -/
theorem updateFillPollBackoff_frame (rateLimited success : Bool)
    (h : CancelSound setup req clock) :
    CancelSound setup (req.updateFillPollBackoff setup env rateLimited success) clock ∧
      (req.updateFillPollBackoff setup env rateLimited success).cancelRetry =
        req.cancelRetry := by
  obtain ⟨hnonneg, hfailures, hbase, hwait⟩ := h
  unfold Requests.updateFillPollBackoff
  split
  · exact ⟨⟨hnonneg, hfailures, hbase, hwait⟩, rfl⟩
  · split
    · exact ⟨⟨hnonneg, hfailures, hbase, hwait⟩, rfl⟩
    · exact ⟨⟨hnonneg, hfailures, hbase, hwait⟩, rfl⟩

theorem RetrySound.congr {req' : Requests} (h : RetrySound req clock)
    (hretry : req'.cancelRetry = req.cancelRetry) : RetrySound req' clock := by
  unfold RetrySound
  rw [hretry]
  exact h

theorem BackoffSound.start (setup : Setup) (now : ℤ) :
    BackoffSound setup (Requests.start now) now where
  poll := ⟨le_refl 0, fillPollBackoffMaxMs_nonneg, fun hpos => absurd hpos (lt_irrefl 0),
    fun u hu => by cases hu⟩
  cancel := ⟨le_refl 0, le_refl 0, fun hpos => absurd hpos (lt_irrefl 0), fun u hu => by cases hu⟩
  retry := fun _ _ hst => by cases hst

theorem law_iff_guard (h : BackoffSound setup req clock) (hle : clock ≤ env.now)
    (hdrawn : env.Drawn) (event : BackoffEvent) :
    BackoffLaw setup ⟨req, clock⟩ (env, event) ↔ BackoffGuard setup ⟨req, clock⟩ (env, event) := by
  cases event with
  | poll rateLimited success => exact poll_law_iff h.poll hle rateLimited success
  | cancel result => exact cancel_law_iff h.cancel hle result
  | failed orderId => exact retry_law_iff h.retry hle hdrawn
  | cancelled orderId =>
    apply iff_of_true _ trivial
    have hnone : (req.clearCancelRetry orderId).cancelRetry orderId = none :=
      Function.update_self _ _ _
    refine ⟨hnone, ?_⟩
    simp only [BackoffEvent.apply, Requests.nextRetryFailures, hnone, Option.map_none, Option.getD]
    rfl

theorem BackoffSound.apply (h : BackoffSound setup req clock) (hle : clock ≤ env.now)
    (hdrawn : env.Drawn) {event : BackoffEvent}
    (hguard : BackoffGuard setup ⟨req, clock⟩ (env, event)) :
    BackoffSound setup (event.apply setup env req) env.now := by
  obtain ⟨hpoll, hcancel, hretry⟩ := h
  cases event with
  | poll rateLimited success =>
    obtain ⟨hcancel', hretry'⟩ := @updateFillPollBackoff_frame setup env req env.now rateLimited
      success (hcancel.later hle)
    exact ⟨hpoll.poll hle hguard, hcancel', (hretry.later hle).congr hretry'⟩
  | cancel result =>
    obtain ⟨hdelay, huntil, hretry'⟩ :=
      @updateCancelBackoff_frame setup env req result
    exact ⟨(hpoll.later hle).congr hdelay huntil, hcancel.cancel hle hguard,
      (hretry.later hle).congr hretry'⟩
  | failed orderId =>
    -- The states of single orders are apart from the other two delays.
    obtain ⟨hnonneg, hfailures, hbase, hwait⟩ := hcancel.later hle
    exact ⟨(hpoll.later hle).congr rfl rfl, ⟨hnonneg, hfailures, hbase, hwait⟩,
      hretry.failed hle hdrawn hguard⟩
  | cancelled orderId =>
    obtain ⟨hnonneg, hfailures, hbase, hwait⟩ := hcancel.later hle
    refine ⟨(hpoll.later hle).congr rfl rfl, ⟨hnonneg, hfailures, hbase, hwait⟩, ?_⟩
    intro orderId' st hst
    rcases eq_or_ne orderId' orderId with rfl | hne
    · simp [BackoffEvent.apply, Requests.clearCancelRetry] at hst
    · simp only [BackoffEvent.apply, Requests.clearCancelRetry, Function.update_of_ne hne] at hst
      exact hretry.later hle orderId' st hst

end

/-- From the start of the engine on, the outcomes keep the law of their delays just in case they
all meet the guard. -/
theorem backoffs_lawful_iff (setup : Setup) {s s' : Backoffs} {es : List (Env × BackoffEvent)}
    (hinit : (backoffMachine setup).init s) (hrun : (backoffMachine setup).run s es = some s') :
    (backoffMachine setup).RunMeets (BackoffLaw setup) s es ↔
      (backoffMachine setup).RunMeets (BackoffGuard setup) s es := by
  have hsound : BackoffSound setup s.req s.clock := by
    rw [show s.req = Requests.start s.clock from hinit]
    exact BackoffSound.start setup s.clock
  apply (backoffMachine setup).runMeets_congr (fun s => BackoffSound setup s.req s.clock) ?_ ?_
    hsound hrun
  · intro s e s' hsound hlaw hstep
    simp only [backoffMachine, Option.ite_none_right_eq_some] at hstep
    obtain ⟨⟨hle, hdrawn⟩, hstep⟩ := hstep
    cases hstep
    exact hsound.apply hle hdrawn ((law_iff_guard hsound hle hdrawn e.2).mp hlaw)
  · intro s e s' hsound hstep
    simp only [backoffMachine, Option.ite_none_right_eq_some] at hstep
    exact law_iff_guard hsound hstep.1.1 hstep.1.2 e.2

/-- A rate-limited fill poll, and a failure to cancel an order. -/
def lawfulOutcomes : List (Env × BackoffEvent) :=
  [(sampleEnv 0 "x", .poll true false), (sampleEnv 100 "x", .failed "e1")]

theorem lawful_outcomes_lawful :
    (backoffMachine sampleSetup).RunMeets (BackoffLaw sampleSetup) ⟨Requests.start 0, 0⟩
      lawfulOutcomes := by
  have hrun : (backoffMachine sampleSetup).run ⟨Requests.start 0, 0⟩ lawfulOutcomes =
      some ⟨(((Requests.start 0).updateFillPollBackoff sampleSetup (sampleEnv 0 "x") true
        false).recordCancelFailure (sampleEnv 100 "x") "e1"), 100⟩ := by
    rw [lawfulOutcomes, Machine.run_cons, backoffMachine_step (by decide) (by decide +kernel),
      Option.bind_some, Machine.run_cons, backoffMachine_step (by decide) (by decide +kernel)]
    rfl
  apply (backoffs_lawful_iff sampleSetup (s := ⟨Requests.start 0, 0⟩) rfl hrun).mpr
  refine ⟨fun _ => by decide, fun s hs => ?_⟩
  rw [backoffMachine_step (by decide) (by decide +kernel)] at hs
  cases hs
  exact ⟨⟨fun hsix => absurd hsix (by decide), fun hseven => absurd hseven (by decide)⟩,
    fun _ _ => trivial⟩

/-- Six failures to cancel one order, with the highest jitter. -/
def sixFailures : List (Env × BackoffEvent) :=
  List.replicate 6 ({ sampleEnv 0 "x" with retryJitter := 6 / 5 }, .failed "e1")

/-- Two rate-limited cancels at once, with a high and a low jitter. -/
def twoLimits : List (Env × BackoffEvent) :=
  [({ sampleEnv 0 "x" with cancelJitter := 3 / 2 }, .cancel ⟨false, true, false, none⟩),
    ({ sampleEnv 0 "x" with cancelJitter := 1 / 2 }, .cancel ⟨false, true, false, none⟩)]

/-- A minute and a half between the fill polls. -/
def slowPolls : Setup := { sampleSetup with orderPollIntervalMs := 90000 }

/-- The sixth wait of an order passes its bound, the first delay of slow fill polls passes theirs,
and a second rate limit moves the time of the next cancel back. -/
theorem backoffs_break_law :
    ¬(backoffMachine sampleSetup).RunMeets (BackoffLaw sampleSetup) ⟨Requests.start 0, 0⟩
        sixFailures ∧
      ¬(backoffMachine slowPolls).RunMeets (BackoffLaw slowPolls) ⟨Requests.start 0, 0⟩
        [(sampleEnv 0 "x", .poll true false)] ∧
      ¬(backoffMachine sampleSetup).RunMeets (BackoffLaw sampleSetup) ⟨Requests.start 0, 0⟩
        twoLimits := by
  refine ⟨fun hlaw => ?_, fun hlaw => ?_, fun hlaw => ?_⟩
  · -- The delay has reached 120000, and 6/5 of it are waited.
    have hsecond := hlaw.2 _ (backoffMachine_step (by decide) (by decide +kernel))
    have hthird := hsecond.2 _ (backoffMachine_step (by decide) (by decide +kernel))
    have hfourth := hthird.2 _ (backoffMachine_step (by decide) (by decide +kernel))
    have hfifth := hfourth.2 _ (backoffMachine_step (by decide) (by decide +kernel))
    have hsixth := hfifth.2 _ (backoffMachine_step (by decide) (by decide +kernel))
    have hbounded := hsixth.1.bounded 144000 (by decide +kernel)
    revert hbounded
    decide
  · -- The base is twice the interval.
    have hbounded := hlaw.1.bounded 180000 rfl
    revert hbounded
    decide
  · -- The first wait is 3/2 of 2000, the second 1/2 of 4000.
    have hsecond := hlaw.2 _ (backoffMachine_step (by decide) (by decide +kernel))
    obtain ⟨u, hu, hle⟩ := hsecond.1.kept 3000 (by decide +kernel)
    have hearlier : u = 2000 := Option.some.inj (hu.symm.trans (by decide +kernel))
    omega

end AlphaMonitor.Trade
