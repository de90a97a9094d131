import AlphaMonitor.Feed.Messages
import AlphaMonitor.Models
import Mathlib.Logic.Function.Basic

/-!
# The Opinion snapshotter

The snapshotter fetches order books in rounds.  Which tokens a round fetches is
decided by filters over what it knows of each token: when the WebSocket task last
reported an update of the book, the newest time the venue stamped on anything, and
how long the token is to be left alone.
-/

namespace AlphaMonitor.Feed

/-! ## Pauses -/

/-- `RestBackoffState`. -/
structure RestBackoffState where
  (backoffMs untilMs lastFailMs failures : ℤ)
  deriving DecidableEq, Repr

/-- The bounds of a pause and of its jitter, and how long after a failure it is forgotten. -/
structure RestLimits where
  (minMs maxMs resetMs : ℤ)
  (jitterMin jitterMax : ℚ)
  min_pos : 0 < minMs
  min_le_max : minMs ≤ maxMs
  max_lt_reset : maxMs < resetMs

def restBackoffMinMs : ℤ := 2000
def restBackoffMaxMs : ℤ := 60000
def restBackoffResetMs : ℤ := 120000
def restGlobalBackoffMinMs : ℤ := 5000
def restGlobalBackoffMaxMs : ℤ := 120000
def restGlobalBackoffResetMs : ℤ := 300000

/-- The pause of a token. -/
def restLimits : RestLimits where
  minMs := restBackoffMinMs
  maxMs := restBackoffMaxMs
  resetMs := restBackoffResetMs
  jitterMin := 1 / 2
  jitterMax := 3 / 2
  min_pos := by decide
  min_le_max := by decide
  max_lt_reset := by decide

/-- The pause of all tokens. -/
def restGlobalLimits : RestLimits where
  minMs := restGlobalBackoffMinMs
  maxMs := restGlobalBackoffMaxMs
  resetMs := restGlobalBackoffResetMs
  jitterMin := 1 / 2
  jitterMax := 3 / 2
  min_pos := by decide
  min_le_max := by decide
  max_lt_reset := by decide

/-- `RestBackoffState` before the first failure. -/
def RestBackoffState.start : RestBackoffState := ⟨0, 0, 0, 0⟩

namespace RestLimits

variable (limits : RestLimits) (nowMs : ℤ) (jitter : ℚ) (state : RestBackoffState)

/-- `jitter_backoff_ms_with_limits`. -/
def jitterBackoffMs (baseMs : ℤ) : ℤ :=
  if baseMs ≤ 0 then 0
  else max limits.minMs (min (roundHalfAway (baseMs * jitter)) limits.maxMs)

/-- There was no failure, or it is long ago. -/
def reset : Bool :=
  decide (state.lastFailMs = 0 ∨ limits.resetMs ≤ nowMs - state.lastFailMs)

/-- The pause after one more failure, before the jitter. -/
def nextBackoff : ℤ :=
  if limits.reset nowMs state then limits.minMs
  else if 0 < state.backoffMs then min (state.backoffMs * 2) limits.maxMs
  else limits.minMs

/-- One more failure. -/
def mark : RestBackoffState where
  backoffMs := limits.nextBackoff nowMs state
  untilMs := nowMs + limits.jitterBackoffMs jitter (limits.nextBackoff nowMs state)
  lastFailMs := nowMs
  failures := if limits.reset nowMs state then 1 else state.failures + 1

end RestLimits

/-! ## The state -/

/-- The snapshotter's settings. -/
structure SnapshotConfig where
  targets : List String
  (orderbookWsStaleMs orderbookStalenessMs : ℤ)
  (cooldownThresholdMs cooldownDurationMs : ℤ)
  deriving DecidableEq, Repr

/-- A map from tokens to times; tokens that were never entered have none. -/
abbrev TokenTimes := String → Option ℤ

/-- What the snapshotter keeps about the tokens. -/
structure Snapshotter where
  (lastWsSeenMs lastWsLastPriceMs lastWsBookMs lastPayloadTsMs : TokenTimes)
  (lastArrivalTsMs cooldownUntilMs priorityUntilMs : TokenTimes)
  restBackoff : String → Option RestBackoffState

def priorityTokenWindowMs : ℤ := 60000

namespace Snapshotter

def start : Snapshotter where
  lastWsSeenMs _ := none
  lastWsLastPriceMs _ := none
  lastWsBookMs _ := none
  lastPayloadTsMs _ := none
  lastArrivalTsMs _ := none
  cooldownUntilMs _ := none
  priorityUntilMs _ := none
  restBackoff _ := none

variable (cfg : SnapshotConfig) (nowMs : ℤ) (snapshotter : Snapshotter)

/-! ## Notes -/

/-- The newest time stays. -/
def notePayload (tokenKey : String) (payloadTsMs : ℤ) : Snapshotter :=
  { snapshotter with
    lastPayloadTsMs := Function.update snapshotter.lastPayloadTsMs tokenKey
      (some (max ((snapshotter.lastPayloadTsMs tokenKey).getD payloadTsMs) payloadTsMs)) }

/-- `WsActivity`: a message of the token arrived. -/
def noteActivity (tokenKey : String) (lastPrice bookUpdate : Bool) (payloadTsMs : Option ℤ) :
    Snapshotter :=
  if tokenKey ∈ cfg.targets then
    let noted : Snapshotter :=
      { snapshotter with
        lastWsSeenMs := Function.update snapshotter.lastWsSeenMs tokenKey (some nowMs)
        lastWsLastPriceMs :=
          if lastPrice then Function.update snapshotter.lastWsLastPriceMs tokenKey (some nowMs)
          else snapshotter.lastWsLastPriceMs
        lastWsBookMs :=
          if bookUpdate then Function.update snapshotter.lastWsBookMs tokenKey (some nowMs)
          else snapshotter.lastWsBookMs }
    match payloadTsMs with
    | some tsMs => noted.notePayload tokenKey tsMs
    | none => noted
  else snapshotter

/-- `mark_priority_token`. -/
def markPriorityToken (tokenKey : String) : Snapshotter :=
  if (snapshotter.priorityUntilMs tokenKey).getD 0 < nowMs + priorityTokenWindowMs then
    { snapshotter with
      priorityUntilMs := Function.update snapshotter.priorityUntilMs tokenKey
        (some (nowMs + priorityTokenWindowMs)) }
  else snapshotter

/-- `mark_rest_backoff`: the venue answered that there are too many requests.  The pause is the
doubled last one, scaled at random to `jitteredMs`. -/
def markRestBackoff (tokenKey : String) (jitteredMs : ℤ) : Snapshotter :=
  let state := (snapshotter.restBackoff tokenKey).getD RestBackoffState.start
  { snapshotter with
    restBackoff := Function.update snapshotter.restBackoff tokenKey (some
      { backoffMs := restLimits.nextBackoff nowMs state
        untilMs := nowMs + jitteredMs
        lastFailMs := nowMs
        failures := if restLimits.reset nowMs state then 1 else state.failures + 1 }) }

/-- `maybe_mark_cooldown`: a token whose book is old at the venue is left alone for a while. -/
def maybeMarkCooldown (tokenKey : String) (marketStalenessMs : Option ℤ) : Snapshotter :=
  match marketStalenessMs with
  | none => snapshotter
  | some stalenessMs =>
    if stalenessMs ≤ cfg.cooldownThresholdMs then snapshotter
    else if (snapshotter.cooldownUntilMs tokenKey).getD 0 < nowMs + cfg.cooldownDurationMs then
      { snapshotter with
        cooldownUntilMs := Function.update snapshotter.cooldownUntilMs tokenKey
          (some (nowMs + cfg.cooldownDurationMs)) }
    else snapshotter

/-- What `fetch_and_emit` notes about a book that arrived. -/
def noteFetched (tokenKey : String) (payloadTsMs : Option ℤ) : Snapshotter :=
  let arrived : Snapshotter :=
    { snapshotter with
      lastArrivalTsMs := Function.update snapshotter.lastArrivalTsMs tokenKey (some nowMs) }
  let stamped :=
    match payloadTsMs with
    | some tsMs => arrived.notePayload tokenKey tsMs
    | none => arrived
  if 0 < cfg.cooldownThresholdMs ∧ 0 < cfg.cooldownDurationMs then
    stamped.maybeMarkCooldown cfg nowMs tokenKey (payloadTsMs.map (nowMs - ·))
  else stamped

/-! ## Filters -/

/-- The WebSocket task has not reported an update of the book for too long. -/
def bookStale (tokenKey : String) : Bool :=
  let lastBookMs := (snapshotter.lastWsBookMs tokenKey).getD 0
  if cfg.orderbookWsStaleMs ≤ 0 then false
  else decide (lastBookMs = 0 ∨ cfg.orderbookWsStaleMs < nowMs - lastBookMs)

/-- The newest time that the venue stamped on anything is too old. -/
def payloadStale (tokenKey : String) : Bool :=
  let lastPayloadMs := (snapshotter.lastPayloadTsMs tokenKey).getD 0
  if cfg.orderbookStalenessMs ≤ 0 then false
  else decide (lastPayloadMs = 0 ∨ cfg.orderbookStalenessMs < nowMs - lastPayloadMs)

/-- `filter_orderbook_targets`: the tokens to fetch, and how many are skipped as fresh. -/
def filterOrderbookTargets (targets : List String) : List String × ℕ :=
  if cfg.orderbookWsStaleMs ≤ 0 ∧ cfg.orderbookStalenessMs ≤ 0 then (targets, 0)
  else
    (targets.filter fun tokenKey =>
        snapshotter.bookStale cfg nowMs tokenKey || snapshotter.payloadStale cfg nowMs tokenKey,
      targets.countP fun tokenKey =>
        !(snapshotter.bookStale cfg nowMs tokenKey || snapshotter.payloadStale cfg nowMs tokenKey))

/-- A pause of the token is still on. -/
def coolingDown (tokenKey : String) : Bool :=
  (snapshotter.cooldownUntilMs tokenKey).any fun untilMs => decide (nowMs < untilMs)

/-- The tokens that are not cooling down; a cooldown that is over is forgotten. -/
def filterCooldown (targets : List String) : List String × Snapshotter :=
  (targets.filter fun tokenKey => !snapshotter.coolingDown nowMs tokenKey,
    { snapshotter with
      cooldownUntilMs := fun tokenKey =>
        if tokenKey ∈ targets ∧ snapshotter.coolingDown nowMs tokenKey = false then none
        else snapshotter.cooldownUntilMs tokenKey })

/-- The last failure is so long ago that it is forgotten. -/
def backoffOver (state : RestBackoffState) : Bool :=
  decide (0 < state.lastFailMs ∧ restBackoffResetMs ≤ nowMs - state.lastFailMs)

/-- The token is left alone after a failure; where priority counts, unless it has some. -/
def backedOff (allowPriority : Bool) (tokenKey : String) : Bool :=
  match snapshotter.restBackoff tokenKey with
  | none => false
  | some state =>
    !backoffOver nowMs state && decide (nowMs < state.untilMs) &&
      !(allowPriority && decide (nowMs < (snapshotter.priorityUntilMs tokenKey).getD 0))

/-- `filter_targets_by_backoff`. -/
def filterTargetsByBackoff (allowPriority : Bool) (targets : List String) :
    List String × Snapshotter :=
  if targets = [] then (targets, snapshotter)
  else
    (targets.filter fun tokenKey => !snapshotter.backedOff nowMs allowPriority tokenKey,
      { snapshotter with
        priorityUntilMs := fun tokenKey =>
          (snapshotter.priorityUntilMs tokenKey).filter fun untilMs => decide (nowMs < untilMs)
        restBackoff := fun tokenKey =>
          if tokenKey ∈ targets then
            (snapshotter.restBackoff tokenKey).filter fun state => !backoffOver nowMs state
          else snapshotter.restBackoff tokenKey })

/-! ## Rounds -/

/-- The rounds in which books are fetched. -/
inductive RoundKind where
  | bootstrap
  | refresh
  | fastRefresh
  | onDemand
  | gapfill
  | triggerAll
  deriving DecidableEq, Repr

/-- The tokens that a round fetches, of those it starts from.  The first round asks only for the
age of the books; on demand, priority counts. -/
def select (kind : RoundKind) (targets : List String) : List String × Snapshotter :=
  match kind with
  | .bootstrap => ((snapshotter.filterOrderbookTargets cfg nowMs targets).1, snapshotter)
  | _ =>
    let warm := snapshotter.filterCooldown nowMs targets
    let stale := (warm.2.filterOrderbookTargets cfg nowMs warm.1).1
    warm.2.filterTargetsByBackoff nowMs (decide (kind = .onDemand)) stale

/-- What a batch of commands asks for. -/
structure Triggers where
  tokens : List String
  inactive : Option (String × ℤ)
  all : Option String
  deriving DecidableEq, Repr

/-- One command of a batch. -/
def takeCommand (taken : Snapshotter × Triggers) (command : SnapshotCommand) :
    Snapshotter × Triggers :=
  match command with
  | .triggerAll reason => (taken.1, { taken.2 with all := some reason })
  | .triggerInactive reason cutoffMs =>
    (taken.1, { taken.2 with inactive := some (reason, cutoffMs) })
  | .wsActivity tokenKey lastPrice bookUpdate payloadTsMs =>
    (taken.1.noteActivity cfg nowMs tokenKey lastPrice bookUpdate payloadTsMs, taken.2)
  | .triggerToken tokenKey _ =>
    (taken.1.markPriorityToken nowMs tokenKey,
      { taken.2 with tokens := taken.2.tokens.insert tokenKey })

/-- The commands that are there when the snapshotter wakes up, all at one time. -/
def takeCommands (commands : List SnapshotCommand) : Snapshotter × Triggers :=
  commands.foldl (takeCommand cfg nowMs) (snapshotter, ⟨[], none, none⟩)

end Snapshotter

/-- The rounds that a batch of commands asks for, in their order. -/
def Snapshotter.Triggers.rounds (triggers : Snapshotter.Triggers) : List Snapshotter.RoundKind :=
  (if triggers.tokens = [] then [] else [.onDemand]) ++
    (if triggers.inactive.isSome then [.gapfill] else []) ++
    (if triggers.all.isSome then [.triggerAll] else [])

/-! ## What keeps the times of book updates -/

namespace Snapshotter

variable (cfg : SnapshotConfig) (nowMs : ℤ) (snapshotter : Snapshotter)

theorem noteFetched_lastWsBookMs (tokenKey : String) (payloadTsMs : Option ℤ) :
    (snapshotter.noteFetched cfg nowMs tokenKey payloadTsMs).lastWsBookMs =
      snapshotter.lastWsBookMs := by
  have hcooldown : ∀ (s : Snapshotter) stalenessMs,
      (s.maybeMarkCooldown cfg nowMs tokenKey stalenessMs).lastWsBookMs = s.lastWsBookMs := by
    intro s stalenessMs
    unfold maybeMarkCooldown
    cases stalenessMs with
    | none => rfl
    | some ms =>
      simp only
      split
      · rfl
      · split <;> rfl
  unfold noteFetched
  cases payloadTsMs with
  | none =>
    simp only
    split
    · exact hcooldown _ _
    · rfl
  | some tsMs =>
    simp only
    split
    · exact hcooldown _ _
    · rfl

theorem select_lastWsBookMs (kind : RoundKind) (targets : List String) :
    (snapshotter.select cfg nowMs kind targets).2.lastWsBookMs = snapshotter.lastWsBookMs := by
  have hbackoff : ∀ (s : Snapshotter) allowPriority keys,
      (s.filterTargetsByBackoff nowMs allowPriority keys).2.lastWsBookMs = s.lastWsBookMs := by
    intro s allowPriority keys
    unfold filterTargetsByBackoff
    split <;> rfl
  cases kind with
  | bootstrap => rfl
  | refresh | fastRefresh | onDemand | gapfill | triggerAll => exact hbackoff _ _ _

/-- A batch of commands leaves the time of a token's last book update, or makes it the time of the
batch because of a note about the token. -/
theorem takeCommands_lastWsBookMs (commands : List SnapshotCommand) (tokenKey : String) :
    (snapshotter.takeCommands cfg nowMs commands).1.lastWsBookMs tokenKey =
        snapshotter.lastWsBookMs tokenKey ∨
      (snapshotter.takeCommands cfg nowMs commands).1.lastWsBookMs tokenKey = some nowMs ∧
        ∃ lastPrice payloadTsMs,
          .wsActivity tokenKey lastPrice true payloadTsMs ∈ commands := by
  have hall : ∀ (commands : List SnapshotCommand) (taken : Snapshotter × Triggers),
      (commands.foldl (takeCommand cfg nowMs) taken).1.lastWsBookMs tokenKey =
          taken.1.lastWsBookMs tokenKey ∨
        (commands.foldl (takeCommand cfg nowMs) taken).1.lastWsBookMs tokenKey = some nowMs ∧
          ∃ lastPrice payloadTsMs,
            .wsActivity tokenKey lastPrice true payloadTsMs ∈ commands := by
    intro commands
    induction commands with
    | nil => exact fun taken => Or.inl rfl
    | cons command rest ih =>
      intro taken
      -- one command either notes an update of the token or leaves its time
      have hone : (takeCommand cfg nowMs taken command).1.lastWsBookMs tokenKey =
            taken.1.lastWsBookMs tokenKey ∨
          (takeCommand cfg nowMs taken command).1.lastWsBookMs tokenKey = some nowMs ∧
            ∃ lastPrice payloadTsMs, command = .wsActivity tokenKey lastPrice true payloadTsMs := by
        cases command with
        | triggerAll reason => exact Or.inl rfl
        | triggerInactive reason cutoffMs => exact Or.inl rfl
        | triggerToken key reason =>
          left
          unfold takeCommand markPriorityToken
          simp only
          split <;> rfl
        | wsActivity key lastPrice bookUpdate payloadTsMs =>
          unfold takeCommand noteActivity
          simp only
          split
          · by_cases hkey : key = tokenKey
            · subst hkey
              cases bookUpdate with
              | false =>
                left
                cases payloadTsMs <;> rfl
              | true =>
                right
                refine ⟨?_, lastPrice, payloadTsMs, rfl⟩
                cases payloadTsMs <;> simp [notePayload]
            · left
              have hne : tokenKey ≠ key := Ne.symm hkey
              cases payloadTsMs <;> cases bookUpdate <;> simp [notePayload, hne]
          · exact Or.inl rfl
      rw [List.foldl_cons]
      rcases ih (takeCommand cfg nowMs taken command) with hkept | ⟨hnow, lastPrice, tsMs, hmem⟩
      · rw [hkept]
        rcases hone with hsame | ⟨hset, lastPrice, tsMs, hcommand⟩
        · exact Or.inl hsame
        · exact Or.inr ⟨hset, lastPrice, tsMs, hcommand ▸ List.mem_cons_self⟩
      · exact Or.inr ⟨hnow, lastPrice, tsMs, List.mem_cons_of_mem _ hmem⟩
  exact hall commands (snapshotter, ⟨[], none, none⟩)

/-! ## Who is fetched -/

theorem mem_filterOrderbookTargets (targets : List String) (tokenKey : String) :
    tokenKey ∈ (snapshotter.filterOrderbookTargets cfg nowMs targets).1 ↔
      tokenKey ∈ targets ∧ ((cfg.orderbookWsStaleMs ≤ 0 ∧ cfg.orderbookStalenessMs ≤ 0) ∨
        snapshotter.bookStale cfg nowMs tokenKey = true ∨
          snapshotter.payloadStale cfg nowMs tokenKey = true) := by
  unfold filterOrderbookTargets
  split
  · rename_i hoff
    simp [hoff]
  · rename_i hon
    simp [hon]

/-- A token that is skipped as fresh is fetched in no round. -/
theorem notMem_select {kind : RoundKind} {targets : List String} {tokenKey : String}
    (h : tokenKey ∉ (snapshotter.filterOrderbookTargets cfg nowMs targets).1) :
    tokenKey ∉ (snapshotter.select cfg nowMs kind targets).1 := by
  have hwarm : ∀ keys : List String, (∀ key ∈ keys, key ∈ targets) →
      tokenKey ∉ ((snapshotter.filterCooldown nowMs targets).2.filterOrderbookTargets cfg nowMs
        keys).1 := by
    intro keys hkeys hmem
    rw [mem_filterOrderbookTargets] at h hmem
    exact h ⟨hkeys tokenKey hmem.1, hmem.2⟩
  have hstale : tokenKey ∉ ((snapshotter.filterCooldown nowMs targets).2.filterOrderbookTargets cfg
      nowMs (snapshotter.filterCooldown nowMs targets).1).1 := by
    apply hwarm
    intro key hkey
    exact List.mem_of_mem_filter hkey
  have hbackoff : ∀ (s : Snapshotter) allowPriority keys, tokenKey ∉ keys →
      tokenKey ∉ (s.filterTargetsByBackoff nowMs allowPriority keys).1 := by
    intro s allowPriority keys hkeys
    unfold filterTargetsByBackoff
    split
    · exact hkeys
    · exact fun hmem => hkeys (List.mem_of_mem_filter hmem)
  cases kind with
  | bootstrap => exact h
  | refresh | fastRefresh | onDemand | gapfill | triggerAll => exact hbackoff _ _ _ hstale

/-- The token passes the filters of a round in which priority does not count. -/
def Passes (tokenKey : String) : Prop :=
  snapshotter.coolingDown nowMs tokenKey = false ∧
    ((cfg.orderbookWsStaleMs ≤ 0 ∧ cfg.orderbookStalenessMs ≤ 0) ∨
      snapshotter.bookStale cfg nowMs tokenKey = true ∨
        snapshotter.payloadStale cfg nowMs tokenKey = true) ∧
    snapshotter.backedOff nowMs false tokenKey = false

instance (tokenKey : String) : Decidable (snapshotter.Passes cfg nowMs tokenKey) :=
  inferInstanceAs (Decidable (_ ∧ _ ∧ _))

/-- A refresh of all tokens fetches those that pass. -/
theorem mem_select_triggerAll (targets : List String) (tokenKey : String) :
    tokenKey ∈ (snapshotter.select cfg nowMs .triggerAll targets).1 ↔
      tokenKey ∈ targets ∧ snapshotter.Passes cfg nowMs tokenKey := by
  have hbackoff : ∀ (s : Snapshotter) keys,
      tokenKey ∈ (s.filterTargetsByBackoff nowMs false keys).1 ↔
        tokenKey ∈ keys ∧ s.backedOff nowMs false tokenKey = false := by
    intro s keys
    unfold filterTargetsByBackoff
    split
    · rename_i hnil
      simp [hnil]
    · simp
  have hwarm : tokenKey ∈ (snapshotter.filterCooldown nowMs targets).1 ↔
      tokenKey ∈ targets ∧ snapshotter.coolingDown nowMs tokenKey = false := by
    simp [filterCooldown]
  show tokenKey ∈ ((snapshotter.filterCooldown nowMs targets).2.filterTargetsByBackoff nowMs false
    ((snapshotter.filterCooldown nowMs targets).2.filterOrderbookTargets cfg nowMs
      (snapshotter.filterCooldown nowMs targets).1).1).1 ↔ _
  -- forgetting old cooldowns changes nothing that the later filters look at
  rw [hbackoff, mem_filterOrderbookTargets, hwarm]
  unfold Passes
  constructor
  · rintro ⟨⟨⟨htarget, hcool⟩, hstale⟩, hback⟩
    exact ⟨htarget, hcool, hstale, hback⟩
  · rintro ⟨htarget, hcool, hstale, hback⟩
    exact ⟨⟨⟨htarget, hcool⟩, hstale⟩, hback⟩

end Snapshotter

/-- A batch with a refresh of all tokens asks for its round. -/
theorem Snapshotter.triggerAll_mem_rounds (cfg : SnapshotConfig) (nowMs : ℤ)
    (snapshotter : Snapshotter) {commands : List SnapshotCommand} {reason : String}
    (h : .triggerAll reason ∈ commands) :
    .triggerAll ∈ (snapshotter.takeCommands cfg nowMs commands).2.rounds := by
  have hall : ∀ (commands : List SnapshotCommand) (taken : Snapshotter × Triggers),
      taken.2.all.isSome = true ∨ .triggerAll reason ∈ commands →
      (commands.foldl (takeCommand cfg nowMs) taken).2.all.isSome = true := by
    intro commands
    induction commands with
    | nil =>
      rintro taken (hset | hmem)
      · exact hset
      · cases hmem
    | cons command rest ih =>
      intro taken hready
      rw [List.foldl_cons]
      apply ih
      rcases hready with hset | hmem
      · left
        cases command with
        | triggerAll reason => rfl
        | triggerInactive | wsActivity | triggerToken => exact hset
      · rcases List.mem_cons.mp hmem with rfl | hlater
        · exact Or.inl rfl
        · exact Or.inr hlater
  unfold takeCommands Triggers.rounds
  rw [if_pos (hall commands (snapshotter, ⟨[], none, none⟩) (Or.inr h))]
  exact List.mem_append_right _ List.mem_cons_self

end AlphaMonitor.Feed
