import AlphaMonitor.Feed.Snapshotter
import AlphaMonitor.Lib.Run
import AlphaMonitor.Models

/-!
# The pauses after too many requests

When the venue answers with status 429, the token is left alone for a while, and so are all the
others for a shorter one.  Both pauses double with every answer of that kind up to a bound, are
scaled at random, and are forgotten a while after the last one.  The end of a pause is set from
the last answer alone, so a small jitter can move it back.

## Main definitions

- `RestLimits.mark`: what the answer does to a pause
- `restMachine`: answers, rounds and checks
- `PauseLaw`, `PauseGuard`: what is asked of a step, and when it holds

## Main results

- `RestLimits.until_le_mark_iff`: one answer
- `pauses_grow_iff`: runs
-/

namespace AlphaMonitor.Feed

open Lib (Machine)

/-! ## The pause of a token -/

/-- `mark_rest_backoff`, with the jitter that it draws. -/
def Snapshotter.markRestBackoffJittered (snapshotter : Snapshotter) (nowMs : ℤ) (tokenKey : String)
    (jitter : ℚ) : Snapshotter :=
  let state := (snapshotter.restBackoff tokenKey).getD RestBackoffState.start
  snapshotter.markRestBackoff nowMs tokenKey
    (restLimits.jitterBackoffMs jitter (restLimits.nextBackoff nowMs state))

theorem Snapshotter.markRestBackoffJittered_eq (snapshotter : Snapshotter) (nowMs : ℤ)
    (tokenKey : String) (jitter : ℚ) :
    snapshotter.markRestBackoffJittered nowMs tokenKey jitter =
      { snapshotter with
        restBackoff := Function.update snapshotter.restBackoff tokenKey (some
          (restLimits.mark nowMs jitter
            ((snapshotter.restBackoff tokenKey).getD RestBackoffState.start))) } := rfl

/-- `mark_rest_global_backoff`. -/
def markRestGlobalBackoff (nowMs : ℤ) (jitter : ℚ) (state : RestBackoffState) : RestBackoffState :=
  restGlobalLimits.mark nowMs jitter state

/-- `rest_global_backoff_until`: the end of the open pause; a pause that is over is forgotten. -/
def restGlobalBackoffUntil (nowMs : ℤ) (state : RestBackoffState) : Option ℤ × RestBackoffState :=
  if 0 < state.lastFailMs ∧ restGlobalBackoffResetMs ≤ nowMs - state.lastFailMs then
    (none, RestBackoffState.start)
  else if nowMs < state.untilMs then (some state.untilMs, state)
  else (none, state)

/-! ## Steps -/

/-- What reads or writes the pauses. -/
inductive RestAction where
  /-- A request for the token was answered with status 429. -/
  | tooMany (tokenKey : String) (jitter globalJitter : ℚ)
  | round (kind : Snapshotter.RoundKind) (targets : List String)
  | latestPrice (targets : List String)
  | globalCheck
  | priority (tokenKey : String)
  deriving DecidableEq, Repr

/-- The first round does not ask for pauses. -/
def RestAction.runsFilter : RestAction → Bool
  | .round kind _ => decide (kind ≠ .bootstrap)
  | .latestPrice _ => true
  | _ => false

def RestAction.onDemand : RestAction → Bool
  | .round kind _ => decide (kind = .onDemand)
  | _ => false

/-- The jitters that the code can draw. -/
def RestAction.Drawn : RestAction → Prop
  | .tooMany _ jitter globalJitter =>
    (restLimits.jitterMin ≤ jitter ∧ jitter ≤ restLimits.jitterMax) ∧
      restGlobalLimits.jitterMin ≤ globalJitter ∧ globalJitter ≤ restGlobalLimits.jitterMax
  | _ => True

instance : ∀ action : RestAction, Decidable action.Drawn
  | .tooMany _ _ _ => inferInstanceAs (Decidable (_ ∧ _))
  | .round _ _ | .latestPrice _ | .globalCheck | .priority _ => inferInstanceAs (Decidable True)

structure RestInput where
  nowMs : ℤ
  action : RestAction
  deriving DecidableEq, Repr

/-- The pauses, and when a request for a token, and when any request, was last answered with
status 429. -/
structure RestPauses where
  snapshotter : Snapshotter
  global : RestBackoffState
  clock : ℤ
  tokenLimited : TokenTimes
  limited : Option ℤ

namespace RestPauses

variable (cfg : SnapshotConfig) (s : RestPauses) (input : RestInput)

/-- The tokens that a step selects. -/
def selected : List String :=
  match input.action with
  | .round kind targets => (s.snapshotter.select cfg input.nowMs kind targets).1
  | .latestPrice targets => (s.snapshotter.filterTargetsByBackoff input.nowMs false targets).1
  | _ => []

def apply : RestPauses :=
  match input.action with
  | .tooMany tokenKey jitter globalJitter =>
    { snapshotter := s.snapshotter.markRestBackoffJittered input.nowMs tokenKey jitter
      global := markRestGlobalBackoff input.nowMs globalJitter s.global
      clock := input.nowMs
      tokenLimited := Function.update s.tokenLimited tokenKey (some input.nowMs)
      limited := some input.nowMs }
  | .round kind targets =>
    { s with
      snapshotter := (s.snapshotter.select cfg input.nowMs kind targets).2, clock := input.nowMs }
  | .latestPrice targets =>
    { s with
      snapshotter := (s.snapshotter.filterTargetsByBackoff input.nowMs false targets).2
      clock := input.nowMs }
  | .globalCheck =>
    { s with global := (restGlobalBackoffUntil input.nowMs s.global).2, clock := input.nowMs }
  | .priority tokenKey =>
    { s with
      snapshotter := s.snapshotter.markPriorityToken input.nowMs tokenKey, clock := input.nowMs }

end RestPauses

/-- Steps at times that do not decrease.  The clock counts from the epoch; the code takes zero for
no failure. -/
def restMachine (cfg : SnapshotConfig) : Machine RestPauses RestInput where
  init s := s.snapshotter = Snapshotter.start ∧ s.global = RestBackoffState.start ∧ 0 < s.clock ∧
    s.tokenLimited = (fun _ => none) ∧ s.limited = none
  step s input :=
    if s.clock ≤ input.nowMs ∧ input.action.Drawn then some (s.apply cfg input) else none

theorem restMachine_step {cfg : SnapshotConfig} {s : RestPauses} {input : RestInput}
    (hle : s.clock ≤ input.nowMs) (hdrawn : input.action.Drawn) :
    (restMachine cfg).step s input = some (s.apply cfg input) :=
  if_pos ⟨hle, hdrawn⟩

/-! ## The law -/

/-- What a step does with the pauses that are open. -/
structure PauseLaw (cfg : SnapshotConfig) (s : RestPauses) (input : RestInput) : Prop where
  /-- The end of an open pause does not move back. -/
  grows : ∀ tokenKey, ∀ state ∈ s.snapshotter.restBackoff tokenKey, input.nowMs < state.untilMs →
    ∃ state' ∈ (s.apply cfg input).snapshotter.restBackoff tokenKey,
      state.untilMs ≤ state'.untilMs
  globalGrows : input.nowMs < s.global.untilMs →
    s.global.untilMs ≤ (s.apply cfg input).global.untilMs
  /-- A pause is bounded from the last answer on. -/
  ends : ∀ tokenKey, ∀ state ∈ (s.apply cfg input).snapshotter.restBackoff tokenKey,
    ∃ t ∈ (s.apply cfg input).tokenLimited tokenKey, state.untilMs ≤ t + restBackoffMaxMs
  globalEnds : input.nowMs < (s.apply cfg input).global.untilMs →
    ∃ t ∈ (s.apply cfg input).limited,
      (s.apply cfg input).global.untilMs ≤ t + restGlobalBackoffMaxMs
  /-- No token is selected in its pause, but for one with priority that was asked for. -/
  spares : input.action.runsFilter = true → ∀ tokenKey ∈ s.selected cfg input,
    ∀ state ∈ s.snapshotter.restBackoff tokenKey, input.nowMs < state.untilMs →
      input.action.onDemand = true ∧
        input.nowMs < (s.snapshotter.priorityUntilMs tokenKey).getD 0
  /-- Both pauses are over once there was no such answer for long. -/
  closes : ∀ tokenKey, (∀ t ∈ s.tokenLimited tokenKey, t + restBackoffResetMs ≤ input.nowMs) →
    ∀ state ∈ s.snapshotter.restBackoff tokenKey, state.untilMs ≤ input.nowMs
  globalCloses : (∀ t ∈ s.limited, t + restGlobalBackoffResetMs ≤ input.nowMs) →
    (restGlobalBackoffUntil input.nowMs s.global).1 = none

/-- What is left of an open pause is covered by the next one: by its least length, or by the
doubled pause with the jitter. -/
def RestLimits.Covers (limits : RestLimits) (nowMs : ℤ) (jitter : ℚ) (state : RestBackoffState) :
    Prop :=
  nowMs < state.untilMs →
    state.untilMs - nowMs ≤ limits.minMs ∨
      state.untilMs - nowMs ≤ roundHalfAway (min (state.backoffMs * 2) limits.maxMs * jitter)

/-- Every answer with status 429 covers what is left of the pause of its token and of the pause of
all. -/
def PauseGuard (s : RestPauses) (input : RestInput) : Prop :=
  match input.action with
  | .tooMany tokenKey jitter globalJitter =>
    (∀ state ∈ s.snapshotter.restBackoff tokenKey,
        restLimits.Covers input.nowMs jitter state) ∧
      restGlobalLimits.Covers input.nowMs globalJitter s.global
  | _ => True

/-! ## One pause -/

namespace RestLimits

variable {limits : RestLimits} {nowMs clock : ℤ} {jitter : ℚ} {state : RestBackoffState}

/-- What a failure leaves until the clock. -/
structure Sound (limits : RestLimits) (clock : ℤ) (state : RestBackoffState) : Prop where
  failed : 0 < state.lastFailMs
  past : state.lastFailMs ≤ clock
  backoff : 0 < state.backoffMs
  ends : state.untilMs ≤ state.lastFailMs + limits.maxMs

theorem Sound.later (h : limits.Sound clock state) (hle : clock ≤ nowMs) :
    limits.Sound nowMs state := by
  constructor
  · exact h.failed
  · exact h.past.trans hle
  · exact h.backoff
  · exact h.ends

theorem nextBackoff_pos : 0 < limits.nextBackoff nowMs state := by
  have hmin := limits.min_pos
  have hmax := limits.min_le_max
  unfold nextBackoff
  split
  · exact hmin
  · split
    · omega
    · exact hmin

theorem jitterBackoffMs_le_max {baseMs : ℤ} (hbase : 0 < baseMs) :
    limits.jitterBackoffMs jitter baseMs ≤ limits.maxMs := by
  unfold jitterBackoffMs
  rw [if_neg (not_le.mpr hbase)]
  exact max_le limits.min_le_max (min_le_right _ _)

theorem mark_sound (hnow : 0 < nowMs) : limits.Sound nowMs (limits.mark nowMs jitter state) := by
  constructor
  · exact hnow
  · exact le_refl nowMs
  · exact nextBackoff_pos
  · exact add_le_add_right (jitterBackoffMs_le_max nextBackoff_pos) nowMs

theorem Sound.closed (h : limits.Sound clock state)
    (hover : state.lastFailMs + limits.resetMs ≤ nowMs) : state.untilMs ≤ nowMs := by
  have hends := h.ends
  have hmax := limits.max_lt_reset
  omega

/-- While a pause is open the next one is the doubled one. -/
theorem Sound.nextBackoff_eq (h : limits.Sound clock state) (hopen : nowMs < state.untilMs) :
    limits.nextBackoff nowMs state = min (state.backoffMs * 2) limits.maxMs := by
  have hnot : limits.reset nowMs state = false := by
    have hfailed := h.failed
    have hends := h.ends
    have hmax := limits.max_lt_reset
    apply decide_eq_false
    omega
  unfold nextBackoff
  rw [hnot, if_neg Bool.false_ne_true, if_pos h.backoff]

/-- An answer keeps the end of an open pause just in case it covers what is left of it. -/
theorem until_le_mark_iff (h : limits.Sound clock state) (hle : clock ≤ nowMs) :
    (nowMs < state.untilMs → state.untilMs ≤ (limits.mark nowMs jitter state).untilMs) ↔
      limits.Covers nowMs jitter state := by
  refine forall_congr' fun hopen => ?_
  show state.untilMs ≤ nowMs + limits.jitterBackoffMs jitter (limits.nextBackoff nowMs state) ↔ _
  have hpos := @nextBackoff_pos limits nowMs state
  unfold jitterBackoffMs
  rw [if_neg (not_le.mpr hpos), h.nextBackoff_eq hopen]
  -- Nothing is left beyond the bound.
  have hends := h.ends
  have hpast := h.past
  have hmax := limits.min_le_max
  push_cast
  generalize roundHalfAway _ = wait
  omega

end RestLimits

theorem RestLimits.Sound.not_over {nowMs clock : ℤ} {state : RestBackoffState}
    (h : restLimits.Sound clock state) (hopen : nowMs < state.untilMs) :
    Snapshotter.backoffOver nowMs state = false := by
  apply decide_eq_false
  rintro ⟨-, hover⟩
  have hclosed : state.untilMs ≤ nowMs := h.closed (le_sub_iff_add_le'.mp hover)
  exact absurd hopen (not_lt.mpr hclosed)

/-! ## Filters -/

section
variable {cfg : SnapshotConfig} {nowMs : ℤ} {snapshotter : Snapshotter}

/-- Only pauses that are over are forgotten. -/
theorem Snapshotter.filterTargetsByBackoff_restBackoff (allowPriority : Bool)
    (targets : List String) (tokenKey : String) :
    (snapshotter.filterTargetsByBackoff nowMs allowPriority targets).2.restBackoff tokenKey =
        snapshotter.restBackoff tokenKey ∨
      (snapshotter.filterTargetsByBackoff nowMs allowPriority targets).2.restBackoff tokenKey =
        (snapshotter.restBackoff tokenKey).filter fun state => !backoffOver nowMs state := by
  unfold filterTargetsByBackoff
  split
  · exact Or.inl rfl
  · by_cases hmem : tokenKey ∈ targets
    · exact Or.inr (if_pos hmem)
    · exact Or.inl (if_neg hmem)

theorem Snapshotter.backedOff_of_mem {allowPriority : Bool} {targets : List String}
    {tokenKey : String}
    (h : tokenKey ∈ (snapshotter.filterTargetsByBackoff nowMs allowPriority targets).1) :
    snapshotter.backedOff nowMs allowPriority tokenKey = false := by
  unfold filterTargetsByBackoff at h
  split at h
  · rename_i hnil
    rw [hnil] at h
    cases h
  · simpa using List.of_mem_filter h

/-- A token in its pause passes only with priority, where priority counts. -/
theorem Snapshotter.priority_of_not_backedOff {clock : ℤ} {allowPriority : Bool}
    {tokenKey : String} {state : RestBackoffState}
    (h : snapshotter.backedOff nowMs allowPriority tokenKey = false)
    (hstate : state ∈ snapshotter.restBackoff tokenKey) (hsound : restLimits.Sound clock state)
    (hopen : nowMs < state.untilMs) :
    allowPriority = true ∧ nowMs < (snapshotter.priorityUntilMs tokenKey).getD 0 := by
  unfold backedOff at h
  rw [Option.mem_def.mp hstate] at h
  simpa [hsound.not_over hopen, hopen] using h

end

/-! ## Steps -/

/-- What a step does that is not an answer with status 429. -/
structure RestPauses.Quiet (nowMs : ℤ) (s s' : RestPauses) : Prop where
  clock : s'.clock = nowMs
  tokenLimited : s'.tokenLimited = s.tokenLimited
  limited : s'.limited = s.limited
  tokens : ∀ tokenKey, s'.snapshotter.restBackoff tokenKey = s.snapshotter.restBackoff tokenKey ∨
    s'.snapshotter.restBackoff tokenKey =
      (s.snapshotter.restBackoff tokenKey).filter fun state => !Snapshotter.backoffOver nowMs state
  global : s'.global = s.global ∨ s'.global = RestBackoffState.start ∧
    s.global.lastFailMs + restGlobalBackoffResetMs ≤ nowMs

section
variable {cfg : SnapshotConfig} {s : RestPauses} {nowMs : ℤ}

theorem RestPauses.apply_cases (action : RestAction) :
    (∃ tokenKey jitter globalJitter, action = .tooMany tokenKey jitter globalJitter) ∨
      s.Quiet nowMs (s.apply cfg ⟨nowMs, action⟩) := by
  cases action with
  | tooMany tokenKey jitter globalJitter => exact Or.inl ⟨_, _, _, rfl⟩
  | round kind targets =>
    refine Or.inr ⟨rfl, rfl, rfl, fun tokenKey => ?_, Or.inl rfl⟩
    cases kind with
    | bootstrap => exact Or.inl rfl
    | refresh | fastRefresh | onDemand | gapfill | triggerAll =>
      exact Snapshotter.filterTargetsByBackoff_restBackoff _ _ tokenKey
  | latestPrice targets =>
    exact Or.inr ⟨rfl, rfl, rfl, Snapshotter.filterTargetsByBackoff_restBackoff _ _, Or.inl rfl⟩
  | globalCheck =>
    refine Or.inr ⟨rfl, rfl, rfl, fun _ => Or.inl rfl, ?_⟩
    show (restGlobalBackoffUntil nowMs s.global).2 = _ ∨
      (restGlobalBackoffUntil nowMs s.global).2 = _ ∧ _
    unfold restGlobalBackoffUntil
    split
    · rename_i hover
      exact Or.inr ⟨rfl, le_sub_iff_add_le'.mp hover.2⟩
    · split
      · exact Or.inl rfl
      · exact Or.inl rfl
  | priority tokenKey =>
    refine Or.inr ⟨rfl, rfl, rfl, fun key => Or.inl ?_, Or.inl rfl⟩
    show (s.snapshotter.markPriorityToken nowMs tokenKey).restBackoff key = _
    unfold Snapshotter.markPriorityToken
    split
    · rfl
    · rfl

theorem RestPauses.apply_tooMany_restBackoff (tokenKey : String) (jitter globalJitter : ℚ)
    (key : String) :
    (s.apply cfg ⟨nowMs, .tooMany tokenKey jitter globalJitter⟩).snapshotter.restBackoff key =
      if key = tokenKey then
        some (restLimits.mark nowMs jitter
          ((s.snapshotter.restBackoff tokenKey).getD RestBackoffState.start))
      else s.snapshotter.restBackoff key := by
  show (s.snapshotter.markRestBackoffJittered nowMs tokenKey jitter).restBackoff key = _
  rw [Snapshotter.markRestBackoffJittered_eq]
  exact Function.update_apply _ _ _ _

/-- A round that asks for pauses selects no token in its pause but one with priority. -/
theorem RestPauses.spares {clock : ℤ} {action : RestAction} (hfilter : action.runsFilter = true)
    {tokenKey : String} (hselected : tokenKey ∈ s.selected cfg ⟨nowMs, action⟩)
    {state : RestBackoffState} (hstate : state ∈ s.snapshotter.restBackoff tokenKey)
    (hsound : restLimits.Sound clock state) (hopen : nowMs < state.untilMs) :
    action.onDemand = true ∧ nowMs < (s.snapshotter.priorityUntilMs tokenKey).getD 0 := by
  cases action with
  | round kind targets =>
    cases kind with
    | bootstrap => cases hfilter
    | refresh | fastRefresh | onDemand | gapfill | triggerAll =>
      -- The cooldown filter before it leaves the pauses and the priorities.
      exact @Snapshotter.priority_of_not_backedOff nowMs
        (s.snapshotter.filterCooldown nowMs targets).2 clock _ _ _
        (Snapshotter.backedOff_of_mem hselected) hstate hsound hopen
  | latestPrice targets =>
    exact Snapshotter.priority_of_not_backedOff (Snapshotter.backedOff_of_mem hselected) hstate
      hsound hopen
  | tooMany tokenKey jitter globalJitter => cases hfilter
  | globalCheck => cases hfilter
  | priority tokenKey => cases hfilter

/-- What the steps so far have left: each pause is from the last answer. -/
structure RestPauses.Sound (s : RestPauses) : Prop where
  clock : 0 < s.clock
  tokens : ∀ tokenKey, ∀ state ∈ s.snapshotter.restBackoff tokenKey,
    restLimits.Sound s.clock state ∧ s.tokenLimited tokenKey = some state.lastFailMs
  global : s.global = RestBackoffState.start ∨
    restGlobalLimits.Sound s.clock s.global ∧ s.limited = some s.global.lastFailMs

/-- Before the first answer the pause of all tokens is closed. -/
theorem RestPauses.Sound.global_of_open (h : s.Sound) (hle : s.clock ≤ nowMs)
    (hopen : nowMs < s.global.untilMs) :
    restGlobalLimits.Sound s.clock s.global ∧ s.limited = some s.global.lastFailMs := by
  rcases h.global with hstart | hglobal
  · rw [hstart] at hopen
    exact absurd hopen (not_lt.mpr (h.clock.trans_le hle).le)
  · exact hglobal

theorem RestPauses.Sound.apply (h : s.Sound) (hle : s.clock ≤ nowMs) (action : RestAction) :
    (s.apply cfg ⟨nowMs, action⟩).Sound := by
  have hnow : 0 < nowMs := h.clock.trans_le hle
  rcases @RestPauses.apply_cases cfg s nowMs action with
    ⟨tokenKey, jitter, globalJitter, rfl⟩ | hquiet
  · constructor
    · exact hnow
    · intro key state hstate
      rw [apply_tooMany_restBackoff] at hstate
      by_cases hkey : key = tokenKey
      · rw [if_pos hkey] at hstate
        rw [← Option.some.inj hstate, hkey]
        exact ⟨RestLimits.mark_sound hnow, Function.update_self _ _ _⟩
      · rw [if_neg hkey] at hstate
        obtain ⟨hsound, hlimited⟩ := h.tokens key state hstate
        exact ⟨hsound.later hle, (Function.update_of_ne hkey _ _).trans hlimited⟩
    · exact Or.inr ⟨RestLimits.mark_sound hnow, rfl⟩
  · constructor
    · rw [hquiet.clock]
      exact hnow
    · intro key state hstate
      have hold : state ∈ s.snapshotter.restBackoff key := by
        rcases hquiet.tokens key with hsame | hfiltered
        · rwa [← hsame]
        · rw [hfiltered, Option.mem_def, Option.filter_eq_some_iff] at hstate
          exact hstate.1
      obtain ⟨hsound, hlimited⟩ := h.tokens key state hold
      rw [hquiet.clock, hquiet.tokenLimited]
      exact ⟨hsound.later hle, hlimited⟩
    · rcases hquiet.global with hsame | ⟨hstart, -⟩
      · rw [hsame, hquiet.clock, hquiet.limited]
        exact h.global.imp_right fun hglobal => ⟨hglobal.1.later hle, hglobal.2⟩
      · exact Or.inl hstart

/-- A step that is no answer leaves the open pauses as they are. -/
theorem RestPauses.Sound.kept {s' : RestPauses} (h : s.Sound) (hquiet : s.Quiet nowMs s')
    (hle : s.clock ≤ nowMs) :
    (∀ tokenKey, ∀ state ∈ s.snapshotter.restBackoff tokenKey, nowMs < state.untilMs →
        state ∈ s'.snapshotter.restBackoff tokenKey) ∧
      (nowMs < s.global.untilMs → s'.global = s.global) := by
  constructor
  · intro tokenKey state hstate hopen
    rcases hquiet.tokens tokenKey with hsame | hfiltered
    · rwa [hsame]
    · rw [hfiltered, Option.mem_def, Option.filter_eq_some_iff]
      exact ⟨hstate, by rw [(h.tokens tokenKey state hstate).1.not_over hopen]; rfl⟩
  · intro hopen
    rcases hquiet.global with hsame | ⟨-, hover⟩
    · exact hsame
    · have hsound := (h.global_of_open hle hopen).1
      exact absurd hopen (not_lt.mpr (hsound.closed hover))

theorem PauseLaw.guard {action : RestAction} (hlaw : PauseLaw cfg s ⟨nowMs, action⟩)
    (h : s.Sound) (hle : s.clock ≤ nowMs) : PauseGuard s ⟨nowMs, action⟩ := by
  cases action with
  | tooMany tokenKey jitter globalJitter =>
    constructor
    · intro state hstate
      rw [← RestLimits.until_le_mark_iff (h.tokens tokenKey state hstate).1 hle]
      intro hopen
      obtain ⟨state', hmem, hgrows⟩ := hlaw.grows tokenKey state hstate hopen
      rw [RestPauses.apply_tooMany_restBackoff, if_pos rfl, Option.mem_def.mp hstate] at hmem
      rw [← Option.some.inj hmem] at hgrows
      exact hgrows
    · intro hopen
      have hsound := (h.global_of_open hle hopen).1
      exact (RestLimits.until_le_mark_iff hsound hle).mp hlaw.globalGrows hopen
  | round kind targets => trivial
  | latestPrice targets => trivial
  | globalCheck => trivial
  | priority tokenKey => trivial

theorem PauseGuard.law {action : RestAction} (hguard : PauseGuard s ⟨nowMs, action⟩)
    (h : s.Sound) (hle : s.clock ≤ nowMs) : PauseLaw cfg s ⟨nowMs, action⟩ := by
  have hnow : 0 < nowMs := h.clock.trans_le hle
  have hafter := @RestPauses.Sound.apply cfg s nowMs h hle action
  have hnext : (s.apply cfg ⟨nowMs, action⟩).clock = nowMs := by
    cases action <;> rfl
  constructor
  · -- An answer sets a pause anew, any other step leaves the open ones.
    intro tokenKey state hstate hopen
    rcases @RestPauses.apply_cases cfg s nowMs action with
      ⟨key, jitter, globalJitter, rfl⟩ | hquiet
    · rw [RestPauses.apply_tooMany_restBackoff]
      by_cases hkey : tokenKey = key
      · subst hkey
        rw [if_pos rfl, Option.mem_def.mp hstate]
        have hsound := (h.tokens tokenKey state hstate).1
        exact ⟨_, rfl, (RestLimits.until_le_mark_iff hsound hle).mpr (hguard.1 state hstate) hopen⟩
      · rw [if_neg hkey]
        exact ⟨state, hstate, le_refl _⟩
    · exact ⟨state, (h.kept hquiet hle).1 tokenKey state hstate hopen, le_refl _⟩
  · intro hopen
    rcases @RestPauses.apply_cases cfg s nowMs action with
      ⟨key, jitter, globalJitter, rfl⟩ | hquiet
    · have hsound := (h.global_of_open hle hopen).1
      exact (RestLimits.until_le_mark_iff hsound hle).mpr hguard.2 hopen
    · rw [(h.kept hquiet hle).2 hopen]
  · intro tokenKey state hstate
    obtain ⟨hsound, hlimited⟩ := hafter.tokens tokenKey state hstate
    exact ⟨state.lastFailMs, hlimited, hsound.ends⟩
  · intro hopen
    obtain ⟨hsound, hlimited⟩ := hafter.global_of_open hnext.le hopen
    exact ⟨_, hlimited, hsound.ends⟩
  · intro hfilter tokenKey hselected state hstate hopen
    have hsound := (h.tokens tokenKey state hstate).1
    exact RestPauses.spares hfilter hselected hstate hsound hopen
  · intro tokenKey hlong state hstate
    obtain ⟨hsound, hlimited⟩ := h.tokens tokenKey state hstate
    exact hsound.closed (hlong _ hlimited)
  · intro hlong
    unfold restGlobalBackoffUntil
    rcases h.global with hstart | ⟨hsound, hlimited⟩
    · have hclosed : ¬nowMs < RestBackoffState.start.untilMs := not_lt.mpr hnow.le
      rw [hstart, if_neg (fun hfailed => lt_irrefl _ hfailed.1), if_neg hclosed]
    · rw [if_pos ⟨hsound.failed, le_sub_iff_add_le'.mpr (hlong _ hlimited)⟩]

end

/-! ## Runs -/

theorem RestPauses.runMeets_law {cfg : SnapshotConfig} {s final : RestPauses}
    {inputs : List RestInput} (hinit : (restMachine cfg).init s)
    (hrun : (restMachine cfg).run s inputs = some final) :
    (restMachine cfg).RunMeets (PauseLaw cfg) s inputs ↔
      (restMachine cfg).RunMeets PauseGuard s inputs := by
  have hstep : ∀ (s s' : RestPauses) (input : RestInput), (restMachine cfg).step s input = some s' →
      s.clock ≤ input.nowMs ∧ s.apply cfg input = s' := by
    intro s s' input hstep
    obtain ⟨hallowed, heq⟩ := Option.ite_none_right_eq_some.mp hstep
    exact ⟨hallowed.1, Option.some.inj heq⟩
  apply (restMachine cfg).runMeets_congr RestPauses.Sound
  · intro s input s' hs _ htaken
    obtain ⟨hle, rfl⟩ := hstep s s' input htaken
    exact hs.apply hle input.action
  · intro s input s' hs htaken
    obtain ⟨hle, -⟩ := hstep s s' input htaken
    exact ⟨fun hlaw => hlaw.guard hs hle, fun hguard => hguard.law hs hle⟩
  · obtain ⟨hsnapshotter, hglobal, hclock, -, -⟩ := hinit
    constructor
    · exact hclock
    · rw [hsnapshotter]
      exact fun _ _ hstate => by cases hstate
    · exact Or.inl hglobal
  · exact hrun

/-- The pauses keep the law all along a run just in case every answer with status 429 covers what
is left of the pauses that are open. -/
theorem pauses_grow_iff {cfg : SnapshotConfig} {s final : RestPauses} {inputs : List RestInput}
    (hinit : (restMachine cfg).init s) (hrun : (restMachine cfg).run s inputs = some final) :
    (restMachine cfg).RunMeets (PauseLaw cfg) s inputs ↔
      (restMachine cfg).RunMeets PauseGuard s inputs :=
  RestPauses.runMeets_law hinit hrun

/-- A snapshotter of one token, before the first request. -/
def samplePauses : RestPauses := ⟨Snapshotter.start, RestBackoffState.start, 1, fun _ => none, none⟩

def samplePauseConfig : SnapshotConfig := ⟨["pm:yes"], 0, 0, 0, 0⟩

theorem samplePauses_init : (restMachine samplePauseConfig).init samplePauses :=
  ⟨rfl, rfl, Int.one_pos, rfl, rfl⟩

/-- Too many requests for the sample token. -/
def sampleTooMany (nowMs : ℤ) (jitter : ℚ) : RestInput := ⟨nowMs, .tooMany "pm:yes" jitter 1⟩

theorem sampleTooMany_drawn (nowMs : ℤ) {jitter : ℚ} (hdrawn : 1 / 2 ≤ jitter ∧ jitter ≤ 3 / 2) :
    (sampleTooMany nowMs jitter).action.Drawn := by
  have hone : (1 / 2 : ℚ) ≤ 1 ∧ (1 : ℚ) ≤ 3 / 2 := by norm_num
  exact ⟨hdrawn, hone⟩

/-- Two answers, the second one while 2999 ms of the first pause are left. -/
def sampleAnswers (jitter : ℚ) : List RestInput :=
  [sampleTooMany 1000 (3 / 2), sampleTooMany 1001 jitter]

theorem sampleAnswers_run {jitter : ℚ} (hdrawn : 1 / 2 ≤ jitter ∧ jitter ≤ 3 / 2) :
    ∃ final, (restMachine samplePauseConfig).run samplePauses (sampleAnswers jitter) = some final := by
  have hfirst := @sampleTooMany_drawn 1000 (3 / 2) (by norm_num)
  have hsecond := sampleTooMany_drawn 1001 hdrawn
  have hlater : (samplePauses.apply samplePauseConfig (sampleTooMany 1000 (3 / 2))).clock ≤
      (sampleTooMany 1001 jitter).nowMs := by
    show (1000 : ℤ) ≤ 1001
    norm_num
  unfold sampleAnswers
  rw [Machine.run_cons, restMachine_step (by decide) hfirst, Option.bind_some, Machine.run_cons,
    restMachine_step hlater hsecond]
  exact ⟨_, rfl⟩

/-- The pauses that the first of the sample answers sets. -/
theorem sampleTooMany_marks :
    restLimits.mark 1000 (3 / 2) RestBackoffState.start = ⟨2000, 4000, 1000, 1⟩ ∧
      restGlobalLimits.mark 1000 1 RestBackoffState.start = ⟨5000, 6000, 1000, 1⟩ := by
  decide +kernel

theorem pauses_grow_doubled :
    (restMachine samplePauseConfig).RunMeets (PauseLaw samplePauseConfig) samplePauses
      (sampleAnswers 1) := by
  obtain ⟨final, hrun⟩ := @sampleAnswers_run 1 (by norm_num)
  apply (pauses_grow_iff samplePauses_init hrun).mpr
  have hfirst := @sampleTooMany_drawn 1000 (3 / 2) (by norm_num)
  have hfresh : PauseGuard samplePauses (sampleTooMany 1000 (3 / 2)) := by
    constructor
    · intro state hstate
      cases hstate
    · intro hopen
      exact absurd hopen (by decide)
  refine ⟨hfresh, fun s hs => ?_⟩
  cases (restMachine_step (by decide) hfirst).symm.trans hs
  refine ⟨⟨fun state hstate => ?_, ?_⟩, fun _ _ => trivial⟩
  · have hmark : restLimits.mark 1000 (3 / 2) RestBackoffState.start = state :=
      Option.some.inj hstate
    rw [← hmark, sampleTooMany_marks.1]
    unfold RestLimits.Covers
    decide +kernel
  · show restGlobalLimits.Covers 1001 1 (restGlobalLimits.mark 1000 1 RestBackoffState.start)
    rw [sampleTooMany_marks.2]
    unfold RestLimits.Covers
    decide +kernel

/-- Half of the doubled pause ends before what is left of the first one. -/
theorem pauses_not_grow : ¬ ∀ (cfg : SnapshotConfig) (s final : RestPauses)
    (inputs : List RestInput), (restMachine cfg).init s → (restMachine cfg).run s inputs = some final →
      (restMachine cfg).RunMeets (PauseLaw cfg) s inputs := by
  intro hall
  obtain ⟨final, hrun⟩ := @sampleAnswers_run (1 / 2) (by norm_num)
  have hlaw := hall _ _ _ _ samplePauses_init hrun
  have hguard := (RestPauses.runMeets_law samplePauses_init hrun).mp hlaw
  have hfirst := @sampleTooMany_drawn 1000 (3 / 2) (by norm_num)
  have hsecond := hguard.2 _ (restMachine_step (by decide) hfirst)
  have hcovers := hsecond.1.1 (restLimits.mark 1000 (3 / 2) RestBackoffState.start) rfl
  rw [sampleTooMany_marks.1] at hcovers
  revert hcovers
  unfold RestLimits.Covers
  decide +kernel

end AlphaMonitor.Feed
