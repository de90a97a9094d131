import AlphaMonitor.Lib.Binary
import AlphaMonitor.Lib.Pacing
import AlphaMonitor.Lib.Run
import Mathlib.Algebra.Order.Ring.Rat

/-!
# The rate limiter of the snapshotter

Snapshots and latest prices wait for one limiter before they are fetched.  It lets one waiter
through at a time, sets the instant for the next one, and makes a waiter who comes too early
sleep until then.  Its interval is a whole number of nanoseconds and never longer than a second,
and it is counted from the instant that was set, not from the one at which the sleeper woke up.

Times are in seconds.

## Main definitions

- `RateLimiter.wait`: one waiter
- `limiterMachine`: the waiters that share a limiter

## Main results

- `rate_kept_iff`: when the limiter keeps its rate
- `countIn_returns_le`: what it keeps in every run
- `rate_kept_of_prompt`: it keeps a rate that lacks nothing while the sleepers are prompt
-/

namespace AlphaMonitor.Feed

open Lib (Machine Rated Spaced Scheduled countIn roundEven)

/-- `shared_max_rps`: the smaller of the two rates, if both are set. -/
def sharedMaxRps (maxRps triggerMaxRps : ℚ) : ℚ :=
  if maxRps > 0 then if triggerMaxRps > 0 then min maxRps triggerMaxRps else maxRps
  else if triggerMaxRps > 0 then triggerMaxRps else 0

/-! ## The limiter -/

/-- `RateLimiter`. -/
structure RateLimiter where
  (interval nextAllowed : ℚ)
  deriving DecidableEq, Repr

namespace RateLimiter

/-- `Duration::from_secs_f64`: a whole number of nanoseconds. -/
def durationFromSecs (secs : ℚ) : ℚ := roundEven (secs * 1000000000) / 1000000000

/-- `RateLimiter::new`; a rate below one a second counts as one. -/
def new (maxRps now : ℚ) : Option RateLimiter :=
  if maxRps ≤ 0 then none else some ⟨durationFromSecs (Lib.F64.div 1 (max maxRps 1)), now⟩

variable (limiter : RateLimiter) (now woken : ℚ)

/-- The instant that a waiter is scheduled for. -/
def scheduled : ℚ := if limiter.nextAllowed > now then limiter.nextAllowed else now

/-- `wait`, from the time `now` at which the lock is got to the time at which it is given back.  A
sleep ends at the time `woken`. -/
def wait : RateLimiter × ℚ :=
  let scheduled := limiter.scheduled now
  let returned := if scheduled > now then woken else now
  ({ limiter with nextAllowed := scheduled + limiter.interval }, returned)

end RateLimiter

/-! ## Waiters -/

/-- The requests that share the limiter. -/
inductive RestRequest where
  | snapshot
  | latestPrice
  deriving DecidableEq, Repr

/-- One waiter: when it gets the lock, and when it wakes up if it has to sleep. -/
structure WaitCall where
  request : RestRequest
  (now woken : ℚ)
  deriving DecidableEq, Repr

/-- A waiter that was let through. -/
structure Permit where
  request : RestRequest
  (scheduled returned : ℚ)
  deriving DecidableEq, Repr

/-- The limiter, the time at which its last waiter returned, and all that were let through. -/
structure LimiterRun where
  limiter : RateLimiter
  clock : ℚ
  permits : List Permit
  deriving DecidableEq

/-- The times at which the waiters returned. -/
def LimiterRun.returns (s : LimiterRun) : List ℚ := s.permits.map (·.returned)

/-- The times at which the waiters of a kind returned. -/
def LimiterRun.returnsOf (s : LimiterRun) (request : RestRequest) : List ℚ :=
  (s.permits.filter fun permit => decide (permit.request = request)).map (·.returned)

/-- Waiters get the lock one after the other, and a sleeper does not wake up too early. -/
def limiterMachine (maxRps : ℚ) : Machine LimiterRun WaitCall where
  init s := RateLimiter.new maxRps s.clock = some s.limiter ∧ s.permits = []
  step s call :=
    let scheduled := s.limiter.scheduled call.now
    let (limiter, returned) := s.limiter.wait call.now call.woken
    if s.clock ≤ call.now ∧ (call.now < scheduled → scheduled ≤ call.woken) then
      some ⟨limiter, returned, s.permits ++ [⟨call.request, scheduled, returned⟩]⟩
    else none

/-! ## The law -/

/-- No window holds more than one return and what the rate gives, of both kinds together. -/
structure RateKept (maxRps : ℚ) (s : LimiterRun) : Prop where
  all : Rated maxRps s.returns
  both : ∀ start length, 0 ≤ length →
    (countIn start length (s.returnsOf .snapshot) +
      countIn start length (s.returnsOf .latestPrice) : ℚ) ≤ 1 + maxRps * length

/-- How long after its instant the last waiter returned: by how much its sleep overran. -/
def LimiterRun.overrun (s : LimiterRun) : ℚ :=
  (s.permits.getLast?.map fun permit => permit.returned - permit.scheduled).getD 0

/-- How long after the instant that is set the next waiter returns: the overrun of its sleep, or
how late it gets the lock. -/
def WaitCall.behind (s : LimiterRun) (call : WaitCall) : ℚ :=
  if s.limiter.nextAllowed > call.now then call.woken - s.limiter.nextAllowed
  else call.now - s.limiter.nextAllowed

/-- What a rate lacks of a full gap between two instants: below one a second it counts as one, and
the gap is cut to nanoseconds. -/
def shortfall (maxRps : ℚ) : ℚ :=
  1 / maxRps - RateLimiter.durationFromSecs (Lib.F64.div 1 (max maxRps 1))

/-- A waiter after the first one is behind by what the rate lacks of a full gap, and by as much as
the one before it. -/
def FallsBehind (maxRps : ℚ) (s : LimiterRun) (call : WaitCall) : Prop :=
  s.permits ≠ [] → shortfall maxRps + s.overrun ≤ call.behind s

instance (maxRps : ℚ) (s : LimiterRun) (call : WaitCall) : Decidable (FallsBehind maxRps s call) :=
  inferInstanceAs (Decidable (_ → _))

/-- Every return is of one kind or the other. -/
theorem countIn_returnsOf (s : LimiterRun) (start length : ℚ) :
    countIn start length (s.returnsOf .snapshot) + countIn start length (s.returnsOf .latestPrice) =
      countIn start length s.returns := by
  have hother : ∀ permit : Permit, decide (permit.request = .latestPrice) =
      !decide (permit.request = .snapshot) := by
    intro permit
    cases permit.request with
    | snapshot => rfl
    | latestPrice => rfl
  unfold LimiterRun.returnsOf LimiterRun.returns
  simp only [hother]
  exact Lib.countIn_filter_add _ _ _ _ _

theorem rateKept_iff_rated {maxRps : ℚ} {s : LimiterRun} :
    RateKept maxRps s ↔ Rated maxRps s.returns := by
  constructor
  · exact fun h => h.all
  · intro h
    refine ⟨h, fun start length hlength => ?_⟩
    have hsum := h start length hlength
    rw [← countIn_returnsOf] at hsum
    push_cast at hsum
    exact hsum

/-! ## Waits -/

section
variable {maxRps : ℚ} {s s' : LimiterRun} {call : WaitCall}

/-- The last waiter returned at the time of the clock, the others before. -/
structure LimiterRun.InOrder (s : LimiterRun) : Prop where
  sorted : s.returns.Pairwise (· ≤ ·)
  bounded : ∀ t ∈ s.returns, t ≤ s.clock
  last : ∀ t ∈ s.returns.getLast?, t = s.clock

/-- What a wait does. -/
structure Waited (s s' : LimiterRun) (call : WaitCall) : Prop where
  limiter : s'.limiter = ⟨s.limiter.interval, s.limiter.scheduled call.now + s.limiter.interval⟩
  clock : s'.clock = if s.limiter.nextAllowed > call.now then call.woken else call.now
  permits : s'.permits = s.permits ++ [⟨call.request, s.limiter.scheduled call.now, s'.clock⟩]
  turn : s.clock ≤ call.now
  late : s.limiter.scheduled call.now ≤ s'.clock

theorem waited_of_step (h : (limiterMachine maxRps).step s call = some s') : Waited s s' call := by
  obtain ⟨⟨hturn, hwoken⟩, heq⟩ := Option.ite_none_right_eq_some.mp h
  have hsleeps : s.limiter.scheduled call.now > call.now ↔ s.limiter.nextAllowed > call.now := by
    unfold RateLimiter.scheduled
    split
    · exact Iff.rfl
    · rename_i hnot
      exact iff_of_false (lt_irrefl _) hnot
  cases heq
  constructor
  · rfl
  · show (if s.limiter.scheduled call.now > call.now then call.woken else call.now) = _
    simp only [hsleeps]
  · rfl
  · exact hturn
  · show _ ≤ if s.limiter.scheduled call.now > call.now then call.woken else call.now
    by_cases hsleep : s.limiter.scheduled call.now > call.now
    · rw [if_pos hsleep]
      exact hwoken hsleep
    · rw [if_neg hsleep]
      exact not_lt.mp hsleep

theorem RateLimiter.le_scheduled (limiter : RateLimiter) (now : ℚ) :
    limiter.nextAllowed ≤ limiter.scheduled now ∧ now ≤ limiter.scheduled now := by
  unfold RateLimiter.scheduled
  split
  · rename_i hlater
    exact ⟨le_refl _, hlater.le⟩
  · rename_i hnow
    exact ⟨not_lt.mp hnow, le_refl _⟩

theorem Waited.clock_le (h : Waited s s' call) : s.clock ≤ s'.clock :=
  (h.turn.trans (s.limiter.le_scheduled call.now).2).trans h.late

theorem Waited.returns (h : Waited s s' call) : s'.returns = s.returns ++ [s'.clock] := by
  unfold LimiterRun.returns
  rw [h.permits, List.map_append]
  rfl

theorem Waited.inOrder (h : Waited s s' call) (hs : s.InOrder) : s'.InOrder := by
  have hle := h.clock_le
  constructor
  · rw [h.returns, List.pairwise_append]
    refine ⟨hs.sorted, List.pairwise_singleton _ _, fun t ht u hu => ?_⟩
    rw [List.mem_singleton.mp hu]
    exact (hs.bounded t ht).trans hle
  · intro t ht
    rw [h.returns] at ht
    rcases List.mem_append.mp ht with hold | hnew
    · exact (hs.bounded t hold).trans hle
    · exact (List.mem_singleton.mp hnew).le
  · intro t ht
    rw [h.returns, List.getLast?_append] at ht
    exact (Option.some.inj ht).symm

/-- The limiter keeps its interval, and is set for the one after the last scheduled time. -/
structure LimiterRun.Paced (interval : ℚ) (s : LimiterRun) : Prop where
  interval : s.limiter.interval = interval
  scheduled : Scheduled s.limiter.interval (s.permits.map fun permit =>
    (permit.scheduled, permit.returned))
  next : ∀ permit ∈ s.permits.getLast?,
    s.limiter.nextAllowed = permit.scheduled + s.limiter.interval ∧ permit.returned = s.clock

theorem Waited.paced (h : Waited s s' call) {interval : ℚ} (hs : s.Paced interval) :
    s'.Paced interval := by
  have hlimiter := h.limiter
  have hafter := s.limiter.le_scheduled call.now
  constructor
  · rw [hlimiter]
    exact hs.interval
  · rw [hlimiter, h.permits, List.map_append]
    constructor
    · intro time htime
      rcases List.mem_append.mp htime with hold | hnew
      · exact hs.scheduled.late time hold
      · rw [List.mem_singleton.mp hnew]
        exact h.late
    · rw [List.isChain_append]
      refine ⟨hs.scheduled.spaced, List.isChain_singleton _, fun time htime new hnew => ?_⟩
      rw [List.getLast?_map] at htime
      obtain ⟨permit, hpermit, rfl⟩ := Option.map_eq_some_iff.mp htime
      obtain ⟨hnext, hreturned⟩ := hs.next permit hpermit
      rw [← Option.some.inj hnew]
      constructor
      · exact hnext ▸ hafter.1
      · rw [hreturned]
        exact h.turn.trans hafter.2
  · intro permit hpermit
    rw [h.permits, List.getLast?_append] at hpermit
    rw [← Option.some.inj hpermit, hlimiter]
    exact ⟨rfl, rfl⟩

theorem interval_init (h : (limiterMachine maxRps).init s) :
    s.limiter.interval = 1 / maxRps - shortfall maxRps := by
  obtain ⟨-, hnew⟩ := Option.ite_none_left_eq_some.mp h.1
  rw [shortfall, sub_sub_cancel, ← Option.some.inj hnew]

theorem paced_init (h : (limiterMachine maxRps).init s) :
    s.Paced (1 / maxRps - shortfall maxRps) := by
  have hpermits := h.2
  constructor
  · exact interval_init h
  · rw [hpermits]
    exact ⟨fun time htime => (List.not_mem_nil htime).elim, List.IsChain.nil⟩
  · rw [hpermits]
    exact fun permit hpermit => by cases hpermit

/-- After a wait the last permit is that of the clock, one interval before the instant that is
set. -/
theorem LimiterRun.Paced.overrun_eq {interval : ℚ} (hs : s.Paced interval) (hsome : s.permits ≠ []) :
    s.overrun = s.clock - (s.limiter.nextAllowed - s.limiter.interval) := by
  obtain ⟨permit, hpermit⟩ := Option.isSome_iff_exists.mp (List.getLast?_isSome.mpr hsome)
  obtain ⟨hnext, hreturned⟩ := hs.next permit hpermit
  unfold LimiterRun.overrun
  rw [hpermit, hnext, ← hreturned, Option.map_some, Option.getD_some, add_sub_cancel_right]

/-- A wait keeps the returns spaced just in case the waiter falls behind far enough. -/
theorem Waited.spaced_iff (h : Waited s s' call) (hs : s.InOrder)
    (hpaced : s.Paced (1 / maxRps - shortfall maxRps)) :
    Spaced (1 / maxRps) s'.returns ↔ Spaced (1 / maxRps) s.returns ∧ FallsBehind maxRps s call := by
  unfold Spaced FallsBehind
  rw [h.returns, List.isChain_append]
  apply and_congr_right
  intro _
  have hbehind : s'.clock = s.limiter.nextAllowed + call.behind s := by
    rw [h.clock, WaitCall.behind]
    split
    · exact (add_sub_cancel _ _).symm
    · exact (add_sub_cancel _ _).symm
  have hguard : ∀ hsome : s.permits ≠ [],
      shortfall maxRps + s.overrun ≤ call.behind s ↔ s.clock + 1 / maxRps ≤ s'.clock := by
    intro hsome
    rw [hbehind, hpaced.overrun_eq hsome, hpaced.interval]
    constructor <;> intro hle <;> linarith
  constructor
  · rintro ⟨-, hlast⟩ hsome
    have hreturns : s.returns ≠ [] := by
      unfold LimiterRun.returns
      simpa using hsome
    obtain ⟨t, ht⟩ := Option.isSome_iff_exists.mp (List.getLast?_isSome.mpr hreturns)
    have hgap := hlast t ht s'.clock rfl
    rw [hs.last t ht] at hgap
    exact (hguard hsome).mpr hgap
  · intro hfalls
    refine ⟨List.isChain_singleton _, fun t ht u hu => ?_⟩
    have hsome : s.permits ≠ [] := by
      intro hnil
      unfold LimiterRun.returns at ht
      rw [hnil] at ht
      cases ht
    rw [hs.last t ht, ← Option.some.inj hu]
    exact (hguard hsome).mp (hfalls hsome)

theorem inOrder_init (h : (limiterMachine maxRps).init s) : s.InOrder := by
  have hreturns : s.returns = [] := by
    unfold LimiterRun.returns
    rw [h.2]
    rfl
  constructor
  · rw [hreturns]
    exact List.Pairwise.nil
  · rw [hreturns]
    exact fun t ht => by cases ht
  · rw [hreturns]
    exact fun t ht => by cases ht

end

/-! ## Runs -/

theorem inOrder_of_run {maxRps : ℚ} {s final : LimiterRun} {calls : List WaitCall}
    (hinit : (limiterMachine maxRps).init s)
    (hrun : (limiterMachine maxRps).run s calls = some final) : final.InOrder :=
  (limiterMachine maxRps).inv_of_runMeets LimiterRun.InOrder
    (fun _ _ _ hs _ hstep => (waited_of_step hstep).inOrder hs) (inOrder_init hinit)
    ((limiterMachine maxRps).runMeets_trivial s calls) hrun

theorem paced_of_run {maxRps : ℚ} {s final : LimiterRun} {calls : List WaitCall}
    (hinit : (limiterMachine maxRps).init s)
    (hrun : (limiterMachine maxRps).run s calls = some final) :
    final.Paced (1 / maxRps - shortfall maxRps) :=
  (limiterMachine maxRps).inv_of_runMeets (LimiterRun.Paced (1 / maxRps - shortfall maxRps))
    (fun _ _ _ hs _ hstep => (waited_of_step hstep).paced hs) (paced_init hinit)
    ((limiterMachine maxRps).runMeets_trivial s calls) hrun

/-- In every run the returns of a window are at most one more than the interval allows. -/
theorem countIn_returns_le {maxRps : ℚ} {s final : LimiterRun} {calls : List WaitCall}
    (hinit : (limiterMachine maxRps).init s) (hgap : 0 < s.limiter.interval)
    (hrun : (limiterMachine maxRps).run s calls = some final) (start : ℚ) {length : ℚ}
    (hlength : 0 ≤ length) :
    (countIn start length final.returns : ℚ) ≤ 2 + length / s.limiter.interval := by
  have hpaced := paced_of_run hinit hrun
  have hreturns : final.returns = (final.permits.map fun permit =>
      (permit.scheduled, permit.returned)).map Prod.snd := by
    rw [List.map_map]
    rfl
  have hscheduled := hpaced.scheduled
  rw [hpaced.interval, ← interval_init hinit] at hscheduled
  rw [hreturns]
  exact Lib.countIn_le_of_scheduled hscheduled hgap hlength

/-- The limiter keeps its rate just in case every waiter after the first one is behind the instant
that is set for it by what the rate lacks of a full gap and by the overrun of the last sleep. -/
theorem rate_kept_iff {maxRps : ℚ} (hrps : 0 < maxRps) {s final : LimiterRun}
    {calls : List WaitCall} (hinit : (limiterMachine maxRps).init s)
    (hrun : (limiterMachine maxRps).run s calls = some final) :
    RateKept maxRps final ↔ (limiterMachine maxRps).RunMeets (FallsBehind maxRps) s calls := by
  rw [rateKept_iff_rated, Lib.rated_iff_spaced hrps (inOrder_of_run hinit hrun).sorted]
  rw [(limiterMachine maxRps).iff_runMeets
    (fun t => t.InOrder ∧ t.Paced (1 / maxRps - shortfall maxRps))
    (fun s => Spaced (1 / maxRps) s.returns)
    (fun _ _ _ hs hstep => ⟨(waited_of_step hstep).inOrder hs.1, (waited_of_step hstep).paced hs.2⟩)
    (fun _ _ _ hs hstep => (waited_of_step hstep).spaced_iff hs.1 hs.2)
    ⟨inOrder_init hinit, paced_init hinit⟩ hrun]
  apply and_iff_right
  unfold LimiterRun.returns
  rw [hinit.2]
  exact List.IsChain.nil

/-- A fresh limiter whose interval is a second. -/
def sampleLimiter : LimiterRun := ⟨⟨1, 0⟩, 0, []⟩

/-- A snapshot at once, and a latest price that sleeps for the rest of the second. -/
def sampleCalls : List WaitCall := [⟨.snapshot, 0, 0⟩, ⟨.latestPrice, 1 / 2, 1⟩]

/-- What the sample calls leave. -/
def sampleFinal : LimiterRun :=
  ⟨⟨1, 2⟩, 1, [⟨.snapshot, 0, 0⟩, ⟨.latestPrice, 1, 1⟩]⟩

theorem rate_kept_oneRps : RateKept 1 sampleFinal := by
  have hinit : (limiterMachine 1).init sampleLimiter := by
    constructor
    · decide +kernel
    · rfl
  have hrun : (limiterMachine 1).run sampleLimiter sampleCalls = some sampleFinal := by
    decide +kernel
  exact (rate_kept_iff one_pos hinit hrun).mpr (by decide +kernel)

/-- A sleeper wakes up at the instant it sleeps for. -/
def WakesOnTime (s : LimiterRun) (call : WaitCall) : Prop :=
  s.limiter.nextAllowed > call.now → call.woken = s.limiter.nextAllowed

/-- With a rate that lacks nothing the limiter keeps it while the sleepers wake up on time. -/
theorem rate_kept_of_prompt {maxRps : ℚ} (hrps : 0 < maxRps) {s final : LimiterRun}
    {calls : List WaitCall} (hinit : (limiterMachine maxRps).init s)
    (hgap : shortfall maxRps ≤ 0)
    (hprompt : (limiterMachine maxRps).RunMeets WakesOnTime s calls)
    (hrun : (limiterMachine maxRps).run s calls = some final) : RateKept maxRps final := by
  rw [rateKept_iff_rated, Lib.rated_iff_spaced hrps (inOrder_of_run hinit hrun).sorted]
  refine ((limiterMachine maxRps).inv_of_runMeets
    (fun t => (t.InOrder ∧ t.Paced (1 / maxRps - shortfall maxRps) ∧ t.overrun = 0) ∧
      Spaced (1 / maxRps) t.returns) ?_ ?_ hprompt hrun).2
  · rintro t call t' ⟨⟨hs, hpaced, hoverrun⟩, hspaced⟩ hwakes hstep
    have hwaited := waited_of_step hstep
    have hreturn : t'.clock = t.limiter.scheduled call.now := by
      rw [hwaited.clock]
      unfold RateLimiter.scheduled
      by_cases hsleep : t.limiter.nextAllowed > call.now
      · rw [if_pos hsleep, if_pos hsleep, hwakes hsleep]
      · rw [if_neg hsleep, if_neg hsleep]
    refine ⟨⟨hwaited.inOrder hs, hwaited.paced hpaced, ?_⟩, ?_⟩
    · unfold LimiterRun.overrun
      rw [hwaited.permits, List.getLast?_concat, Option.map_some, Option.getD_some, hreturn,
        sub_self]
    · refine (hwaited.spaced_iff hs hpaced).mpr ⟨hspaced, fun _ => ?_⟩
      -- nobody returns before the instant that is set
      have hbehind : 0 ≤ call.behind t := by
        unfold WaitCall.behind
        by_cases hsleep : t.limiter.nextAllowed > call.now
        · rw [if_pos hsleep, hwakes hsleep, sub_self]
        · rw [if_neg hsleep]
          exact sub_nonneg.mpr (not_lt.mp hsleep)
      rw [hoverrun]
      linarith
  · refine ⟨⟨inOrder_init hinit, paced_init hinit, ?_⟩, ?_⟩
    · unfold LimiterRun.overrun
      rw [hinit.2]
      rfl
    · unfold LimiterRun.returns
      rw [hinit.2]
      exact List.IsChain.nil

/-- At one in two seconds the limiter still lets one through each second. -/
theorem rate_not_kept : ¬ ∀ (maxRps : ℚ), 0 < maxRps → ∀ (s final : LimiterRun)
    (calls : List WaitCall), (limiterMachine maxRps).init s →
    (limiterMachine maxRps).run s calls = some final → RateKept maxRps final := by
  intro hkept
  have hinit : (limiterMachine (1 / 2)).init sampleLimiter := by
    constructor
    · decide +kernel
    · rfl
  have hrun : (limiterMachine (1 / 2)).run sampleLimiter sampleCalls = some sampleFinal := by
    decide +kernel
  have hrate := (hkept (1 / 2) (by norm_num) _ _ _ hinit hrun).all 0 1 zero_le_one
  have hcount : countIn 0 1 sampleFinal.returns = 2 := by decide +kernel
  rw [hcount] at hrate
  norm_num at hrate

end AlphaMonitor.Feed
