import AlphaMonitor.Feed.Health
import AlphaMonitor.Lib.Run
import Mathlib.Data.List.Infix

/-!
# The WebSocket tasks

Each venue has a task that connects, reads until the connection ends, and connects again
after a rest that grows with the failures.  Both note in the shared health how they fare.
A task whose attempt fails keeps the guard of the health while it rests, and all others
that ask for the health wait for it: the shards with every bar, the dispatcher with every
drop, the task that hands out the ticks, and the other venue's task with every market
message.

## Main definitions

- `PmTask.step`, `OpinionTask.step`: the two tasks
- `connMachine`: both tasks, and what the others do with the health

## Main results

- `ConnSystem.health_stalls`: after a failed attempt the health is shut for the whole rest
- `ConnSystem.gapfills_spaced`: how often the books are asked for after a failure
-/

namespace AlphaMonitor.Feed

/-- Where a task is in its loop. -/
inductive Phase (κ : Type) where
  /-- At the top. -/
  | starting
  | connecting
  | opened (conn : κ)
  /-- Asleep, with the guard of the health or without. -/
  | resting (till : ℤ) (guarded : Bool)
  deriving DecidableEq, Repr

/-- The backoff after a rest. -/
def nextBackoffMs (backoffMs : ℤ) : ℤ := min (backoffMs * 2) 30000

/-! ## Polymarket -/

structure PmTask where
  /-- The connection knows when its last message came. -/
  phase : Phase ℤ
  backoffMs : ℤ
  deriving DecidableEq, Repr

inductive PmStep where
  | wake
  | start
  | fail
  | connect
  /-- The tick every five seconds. -/
  | staleTick
  /-- A frame, which is an event of the market or not. -/
  | receive (market : Bool)
  /-- An error, the end of the stream, or a closing frame. -/
  | close
  deriving DecidableEq, Repr

namespace PmTask

def initial : PmTask := ⟨.starting, 1000⟩

variable (staleReconnectMs now : ℤ) (task : PmTask) (health : HealthState)

/-- The connection has been silent for too long. -/
def isStale (last : ℤ) : Bool :=
  decide (staleReconnectMs > 0) && decide (now - last > staleReconnectMs)

/-- The step asks for the health. -/
def needsHealth : PmStep → Bool
  | .wake => false
  | .staleTick =>
    match task.phase with
    | .opened last => isStale staleReconnectMs now last
    | _ => false
  | .receive market => market
  | _ => true

/-- `run_polymarket_ws`, from one use of the health to the next: a connection opens and ends before
the step in which that is noted, for which the task may have to wait. -/
def step : PmStep → Option (PmTask × HealthState)
  | .wake =>
    match task.phase with
    | .resting till _ =>
      if till ≤ now then some (⟨.starting, nextBackoffMs task.backoffMs⟩, health) else none
    | _ => none
  | .start =>
    match task.phase with
    | .starting => some ({ task with phase := .connecting }, health.setState .polymarket .reconnecting)
    | _ => none
  | .fail =>
    match task.phase with
    | .connecting =>
      -- the guard lives to the end of the branch, so across the sleep
      some ({ task with phase := .resting (now + task.backoffMs) true },
        (health.recordReconnect .polymarket).setState .polymarket .down)
    | _ => none
  | .connect =>
    match task.phase with
    | .connecting => some (⟨.opened now, 1000⟩, health.setState .polymarket .up)
    | _ => none
  | .staleTick =>
    match task.phase with
    | .opened last =>
      if isStale staleReconnectMs now last then
        some ({ task with phase := .starting }, health.recordReconnect .polymarket)
      else some (task, health)
    | _ => none
  | .receive market =>
    match task.phase with
    | .opened _ =>
      some ({ task with phase := .opened now },
        if market then health.recordMessage .polymarket now else health)
    | _ => none
  | .close =>
    match task.phase with
    -- a connection that was lost is made again without a rest
    | .opened _ => some ({ task with phase := .starting }, health.recordReconnect .polymarket)
    | _ => none

end PmTask

/-! ## Opinion -/

structure OpinionWsConfig where
  (staleReconnectMs hardClearMs errorReconnectWindowMs : ℤ)
  errorReconnectThreshold : ℕ

/-- What the task reads of an item of a message. -/
structure WsItem where
  msgType : Option String
  code : Option ℤ
  message : Option String
  deriving DecidableEq, Repr

namespace WsItem

variable (item : WsItem)

/-- `is_market_msg_type`. -/
def isMarket : Bool :=
  decide (item.msgType ∈ [some "market.depth.diff", some "market.last.price",
    some "market.last.trade"])

/-- `is_user_msg_type`. -/
def isUser : Bool := decide (item.msgType ∈ [some "trade.order.update", some "trade.record.new"])

/-- `is_server_error_payload`. -/
def isServerError : Bool :=
  ((item.code.map fun code => decide (code ≥ 500)).getD false) ||
    ((item.message.map fun text => decide ("internal server error".toList <:+:
      text.toList.map Char.toLower)).getD false)

end WsItem

/-- What is known of the open connection. -/
structure OpinionConn where
  (lastMsgTsMs lastMarketMsgTsMs errorWindowStartMs : ℤ)
  errorCount : ℕ
  /-- The items of the message at hand that are left. -/
  items : List WsItem
  deriving DecidableEq, Repr

/-- `SnapshotCommand`, as the task sends it. -/
inductive SnapshotTrigger where
  | triggerAll (reason : String)
  | triggerInactive (reason : String) (cutoffMs : ℤ)
  deriving DecidableEq, Repr

structure OpinionTask where
  phase : Phase OpinionConn
  backoffMs : ℤ
  hasConnected : Bool
  /-- `LAST_OPI_GAPFILL_TRIGGER_MS`. -/
  lastGapfillMs : ℤ
  /-- The commands that were sent, with their times. -/
  sent : List (SnapshotTrigger × ℤ)
  deriving DecidableEq, Repr

/-- Why a connection ends from outside. -/
inductive CloseReason where
  | recvError
  | streamEnd
  | wsClosed
  deriving DecidableEq, Repr

def CloseReason.text : CloseReason → String
  | .recvError => "recv_error"
  | .streamEnd => "stream_end"
  | .wsClosed => "ws_closed"

inductive OpinionStep where
  | wake
  | start
  | fail
  | connect
  /-- The heartbeat is due; it is sent, or that fails. -/
  | heartbeat (sent : Bool)
  /-- A message with its items; a control frame, or a text that is no JSON, has none. -/
  | receive (items : List WsItem)
  /-- The next item of the message at hand. -/
  | item
  | close (reason : CloseReason)
  deriving DecidableEq, Repr

namespace OpinionTask

def initial : OpinionTask := ⟨.starting, 1000, false, 0, []⟩

variable (cfg : OpinionWsConfig) (now : ℤ) (task : OpinionTask) (health : HealthState)

/-- `jitter_ms`. -/
def jitterMs (baseMs : ℤ) : ℤ := now % (min 250 (max (baseMs / 4) 1) + 1)

/-- `sleep_with_jitter`. -/
def rest (guarded : Bool) : OpinionTask :=
  { task with phase := .resting (now + (task.backoffMs + jitterMs now task.backoffMs)) guarded }

/-- `try_trigger_opinion_gapfill`. -/
def tryTriggerGapfill (reason : String) : OpinionTask :=
  if cfg.hardClearMs ≤ 0 then task
  -- the last one was less than half a minute ago
  else if task.lastGapfillMs > 0 ∧ now - task.lastGapfillMs < 30000 then task
  else
    { task with
      lastGapfillMs := now
      sent := task.sent ++ [(.triggerInactive reason cfg.hardClearMs, now)] }

/-- `should_reconnect_on_non_market`. -/
def shouldReconnect (conn : OpinionConn) (item : WsItem) : OpinionConn × Bool :=
  if cfg.errorReconnectWindowMs ≤ 0 ∨ cfg.errorReconnectThreshold = 0 then (conn, false)
  else if item.isServerError = false then (conn, false)
  else
    let conn :=
      if now - conn.errorWindowStartMs > cfg.errorReconnectWindowMs then
        { conn with errorWindowStartMs := now, errorCount := 0 }
      else conn
    let conn := { conn with errorCount := conn.errorCount + 1 }
    (conn, decide (conn.errorCount ≥ cfg.errorReconnectThreshold))

/-- The connection ends: the books are asked for, and the task rests without the guard. -/
def lost (reason : String) : OpinionTask × HealthState :=
  ((task.tryTriggerGapfill cfg now reason).rest now false, health.recordReconnect .opinion)

/-- The next item. -/
def handleItem (conn : OpinionConn) (item : WsItem) (rest : List WsItem) :
    OpinionTask × HealthState :=
  if item.isUser then
    ({ task with backoffMs := 1000, phase := .opened { conn with items := rest } }, health)
  else if item.isMarket then
    -- only a message of use resets the backoff
    ({ task with
        backoffMs := 1000
        phase := .opened { conn with lastMarketMsgTsMs := now, items := rest } },
      health.recordMessage .opinion now)
  else
    match shouldReconnect cfg now conn item with
    | (conn, true) => { task with phase := .opened conn }.lost cfg now health "server_error_reconnect"
    | (conn, false) => ({ task with phase := .opened { conn with items := rest } }, health)

/-- A heartbeat that was sent. -/
def checkAge (conn : OpinionConn) : OpinionTask × HealthState :=
  let task :=
    if cfg.hardClearMs > 0 ∧ now - conn.lastMarketMsgTsMs > cfg.hardClearMs then
      task.tryTriggerGapfill cfg now "market_silent_hard_clear"
    else task
  if cfg.staleReconnectMs > 0 ∧ now - conn.lastMsgTsMs > cfg.staleReconnectMs then
    task.lost cfg now health "stale_reconnect"
  else (task, health)

/-- The step asks for the health. -/
def needsHealth : OpinionStep → Bool
  | .wake => false
  | .receive _ => false
  | .item =>
    match task.phase with
    | .opened conn =>
      match conn.items with
      | item :: _ =>
        !item.isUser && (item.isMarket || (shouldReconnect cfg now conn item).2)
      | [] => false
    | _ => false
  | _ => true

/-- `run_opinion_ws`, in the same steps: what a connection does is a step once it is noted. -/
def step : OpinionStep → Option (OpinionTask × HealthState)
  | .wake =>
    match task.phase with
    | .resting till _ =>
      if till ≤ now then
        some ({ task with phase := .starting, backoffMs := nextBackoffMs task.backoffMs }, health)
      else none
    | _ => none
  | .start =>
    match task.phase with
    | .starting => some ({ task with phase := .connecting }, health.setState .opinion .reconnecting)
    | _ => none
  | .fail =>
    match task.phase with
    | .connecting =>
      -- here too the guard is kept across the sleep
      some ((task.tryTriggerGapfill cfg now "connect_failed").rest now true,
        (health.recordReconnect .opinion).setState .opinion .down)
    | _ => none
  | .connect =>
    match task.phase with
    | .connecting =>
      let reason := if task.hasConnected then "ws_reconnect" else "ws_connect"
      some ({ task with
          phase := .opened ⟨now, now, now, 0, []⟩
          hasConnected := true
          sent := task.sent ++ [(.triggerAll reason, now)] },
        health.setState .opinion .up)
    | _ => none
  | .heartbeat sent =>
    match task.phase with
    | .opened conn =>
      if conn.items ≠ [] then none
      else if sent then some (task.checkAge cfg now (health.recordHeartbeatSent .opinion) conn)
      else
        -- this end of a connection asks for no books
        some (task.rest now false, (health.recordHeartbeatFail .opinion).recordReconnect .opinion)
    | _ => none
  | .receive items =>
    match task.phase with
    | .opened conn =>
      if conn.items ≠ [] then none
      else some ({ task with phase := .opened { conn with lastMsgTsMs := now, items := items } }, health)
    | _ => none
  | .item =>
    match task.phase with
    | .opened conn =>
      match conn.items with
      | item :: rest => some (task.handleItem cfg now health conn item rest)
      | [] => none
    | _ => none
  | .close reason =>
    match task.phase with
    | .opened conn =>
      if conn.items ≠ [] then none else some (task.lost cfg now health reason.text)
    | _ => none

end OpinionTask

/-! ## The system -/

structure ConnConfig where
  pmStaleReconnectMs : ℤ
  opinion : OpinionWsConfig

structure ConnSystem where
  clock : ℤ
  health : HealthState
  polymarket : PmTask
  opinion : OpinionTask
  /-- The task that hands out the ticks waits for the health. -/
  reporting : Bool
  /-- The seconds of the ticks that were handed out. -/
  ticks : List ℤ

inductive ConnEvent where
  | pass (ms : ℕ)
  | polymarket (e : PmStep)
  | opinion (e : OpinionStep)
  /-- A tick is handed out to the dispatcher and the pairs. -/
  | tick
  /-- The rows of the health are written after a tick. -/
  | report
  /-- A shard reads the health for a bar. -/
  | read
  /-- The dispatcher notes a drop. -/
  | drop (venue : Venue)
  deriving DecidableEq, Repr

namespace ConnSystem

def start (now : ℤ) : ConnSystem :=
  ⟨now, HealthState.new, PmTask.initial, OpinionTask.initial, false, []⟩

variable (cfg : ConnConfig) (sys : ConnSystem)

/-- A resting task has the guard of the health. -/
def isShut : Bool :=
  (match sys.polymarket.phase with
    | .resting _ guarded => guarded
    | _ => false) ||
  (match sys.opinion.phase with
    | .resting _ guarded => guarded
    | _ => false)

/-- The event needs the health. -/
def needsHealth : ConnEvent → Bool
  | .pass _ => false
  | .polymarket e => sys.polymarket.needsHealth cfg.pmStaleReconnectMs sys.clock e
  | .opinion e => sys.opinion.needsHealth cfg.opinion sys.clock e
  | .tick => false
  | _ => true

/-- The event, when the health can be had. -/
def move : ConnEvent → Option ConnSystem
  | .pass ms => some { sys with clock := sys.clock + ms }
  | .polymarket e =>
    (sys.polymarket.step cfg.pmStaleReconnectMs sys.clock sys.health e).map fun result =>
      { sys with polymarket := result.1, health := result.2 }
  | .opinion e =>
    (sys.opinion.step cfg.opinion sys.clock sys.health e).map fun result =>
      { sys with opinion := result.1, health := result.2 }
  | .tick =>
    if sys.reporting then none
    else some { sys with reporting := true, ticks := sys.ticks ++ [sys.clock / 1000] }
  | .report => if sys.reporting then some { sys with reporting := false } else none
  | .read => some sys
  | .drop venue => some { sys with health := sys.health.recordDrop venue }

def step (e : ConnEvent) : Option ConnSystem :=
  if sys.needsHealth cfg e && sys.isShut then none else sys.move cfg e

end ConnSystem

def connMachine (cfg : ConnConfig) : Lib.Machine ConnSystem ConnEvent where
  init sys := ∃ now, 0 < now ∧ sys = ConnSystem.start now
  step sys e := sys.step cfg e

/-! ## What a step does -/

/-- The books are asked for, for some reasons. -/
def OpinionTask.askFor (cfg : OpinionWsConfig) (now : ℤ) (task : OpinionTask)
    (reasons : List String) : OpinionTask :=
  reasons.foldl (fun task reason => task.tryTriggerGapfill cfg now reason) task

/-- What a step of the Opinion task does to the task. -/
inductive OpinionTask.Move (cfg : OpinionWsConfig) (now : ℤ) (task : OpinionTask) :
    OpinionTask → Prop
  | wake (till : ℤ) (guarded : Bool) (hphase : task.phase = .resting till guarded) :
      Move cfg now task
        { task with phase := .starting, backoffMs := nextBackoffMs task.backoffMs }
  | start (hphase : task.phase = .starting) :
      Move cfg now task { task with phase := .connecting }
  | fail (till : ℤ) (reasons : List String) (hphase : task.phase = .connecting) :
      Move cfg now task { task.askFor cfg now reasons with phase := .resting till true }
  | connect (conn : OpinionConn) (reason : String) (hphase : task.phase = .connecting) :
      Move cfg now task
        { task with
          phase := .opened conn
          hasConnected := true
          sent := task.sent ++ [(.triggerAll reason, now)] }
  | stay (conn conn' : OpinionConn) (backoffMs : ℤ) (reasons : List String)
      (hphase : task.phase = .opened conn)
      (hbackoff : backoffMs = task.backoffMs ∨ backoffMs = 1000) :
      Move cfg now task
        { task.askFor cfg now reasons with phase := .opened conn', backoffMs := backoffMs }
  | lost (conn : OpinionConn) (till : ℤ) (reasons : List String)
      (hphase : task.phase = .opened conn) :
      Move cfg now task { task.askFor cfg now reasons with phase := .resting till false }

section Moves

variable {cfg : OpinionWsConfig} {now : ℤ} {task task' : OpinionTask} {health health' : HealthState}

theorem OpinionTask.tryTriggerGapfill_keeps (cfg : OpinionWsConfig) (now : ℤ) (task : OpinionTask)
    (reason : String) : (task.tryTriggerGapfill cfg now reason).phase = task.phase ∧
      (task.tryTriggerGapfill cfg now reason).backoffMs = task.backoffMs := by
  unfold OpinionTask.tryTriggerGapfill
  split
  · exact ⟨rfl, rfl⟩
  · split
    · exact ⟨rfl, rfl⟩
    · exact ⟨rfl, rfl⟩

/-- Asking for the books changes neither the phase nor the backoff. -/
theorem OpinionTask.askFor_keeps (cfg : OpinionWsConfig) (now : ℤ) (task : OpinionTask)
    (reasons : List String) : (task.askFor cfg now reasons).phase = task.phase ∧
      (task.askFor cfg now reasons).backoffMs = task.backoffMs := by
  induction reasons generalizing task with
  | nil => exact ⟨rfl, rfl⟩
  | cons reason rest ih =>
    have hfirst := OpinionTask.tryTriggerGapfill_keeps cfg now task reason
    have hrest := ih (task.tryTriggerGapfill cfg now reason)
    exact ⟨hrest.1.trans hfirst.1, hrest.2.trans hfirst.2⟩

/-- Nor does it look at the phase. -/
theorem OpinionTask.askFor_opened (cfg : OpinionWsConfig) (now : ℤ) (task : OpinionTask)
    (conn : OpinionConn) (reason : String) :
    OpinionTask.tryTriggerGapfill cfg now { task with phase := .opened conn } reason =
      { task.askFor cfg now [reason] with phase := .opened conn } := by
  unfold OpinionTask.askFor OpinionTask.tryTriggerGapfill
  simp only [List.foldl_cons, List.foldl_nil]
  split
  · rfl
  · split
    · rfl
    · rfl

theorem OpinionTask.lost_move (conn : OpinionConn) (reasons : List String) (reason : String)
    (hphase : task.phase = .opened conn) :
    OpinionTask.Move cfg now task ((task.askFor cfg now reasons).lost cfg now health reason).1 := by
  have hask : (task.askFor cfg now reasons).tryTriggerGapfill cfg now reason =
      task.askFor cfg now (reasons ++ [reason]) := by
    rw [OpinionTask.askFor, OpinionTask.askFor, List.foldl_append]
    rfl
  unfold OpinionTask.lost OpinionTask.rest
  simp only
  rw [hask]
  exact .lost conn _ (reasons ++ [reason]) hphase

theorem OpinionTask.checkAge_move {conn : OpinionConn} (hphase : task.phase = .opened conn) :
    OpinionTask.Move cfg now task (task.checkAge cfg now health conn).1 := by
  -- the books may be asked for before the age is looked at
  obtain ⟨reasons, hreasons⟩ : ∃ reasons, (if cfg.hardClearMs > 0 ∧
      now - conn.lastMarketMsgTsMs > cfg.hardClearMs then
        task.tryTriggerGapfill cfg now "market_silent_hard_clear" else task) =
      task.askFor cfg now reasons := by
    split
    · exact ⟨["market_silent_hard_clear"], rfl⟩
    · exact ⟨[], rfl⟩
  unfold OpinionTask.checkAge
  rw [hreasons]
  simp only
  split
  · exact OpinionTask.lost_move conn reasons _ hphase
  · have hstay := @OpinionTask.Move.stay cfg now task conn conn task.backoffMs reasons hphase
      (Or.inl rfl)
    have hkeeps := OpinionTask.askFor_keeps cfg now task reasons
    have hsame : { task.askFor cfg now reasons with
        phase := .opened conn, backoffMs := task.backoffMs } = task.askFor cfg now reasons := by
      rw [← hphase, ← hkeeps.1, ← hkeeps.2]
    rw [hsame] at hstay
    exact hstay

theorem OpinionTask.handleItem_move {conn : OpinionConn} (item : WsItem) (rest : List WsItem)
    (hphase : task.phase = .opened conn) :
    OpinionTask.Move cfg now task (task.handleItem cfg now health conn item rest).1 := by
  unfold OpinionTask.handleItem
  split
  · exact .stay conn { conn with items := rest } 1000 [] hphase (Or.inr rfl)
  · split
    · exact .stay conn { conn with lastMarketMsgTsMs := now, items := rest } 1000 [] hphase
        (Or.inr rfl)
    · split
      · rename_i conn' _
        -- the connection is given up after too many errors
        have hask := OpinionTask.askFor_opened cfg now task conn' "server_error_reconnect"
        unfold OpinionTask.lost OpinionTask.rest
        simp only
        rw [hask]
        exact .lost conn _ ["server_error_reconnect"] hphase
      · rename_i conn' _
        exact .stay conn { conn' with items := rest } task.backoffMs [] hphase (Or.inl rfl)

/-- Every step of the task is one of the moves. -/
theorem OpinionTask.move_of_step {e : OpinionStep}
    (h : task.step cfg now health e = some (task', health')) :
    OpinionTask.Move cfg now task task' := by
  unfold OpinionTask.step at h
  cases e with
  | wake =>
    simp only at h
    split at h
    · rename_i till guarded hphase
      split at h
      · cases h
        exact .wake till guarded hphase
      · cases h
    · cases h
  | start =>
    simp only at h
    split at h
    · rename_i hphase
      cases h
      exact .start hphase
    · cases h
  | fail =>
    simp only at h
    split at h
    · rename_i hphase
      cases h
      exact .fail _ ["connect_failed"] hphase
    · cases h
  | connect =>
    simp only at h
    split at h
    · rename_i hphase
      cases h
      exact .connect _ _ hphase
    · cases h
  | heartbeat sent =>
    simp only at h
    split at h
    · rename_i conn hphase
      split at h
      · cases h
      · split at h
        · have hage := @OpinionTask.checkAge_move cfg now task (health.recordHeartbeatSent .opinion)
            conn hphase
          rw [Option.some.inj h] at hage
          exact hage
        · cases h
          exact .lost conn _ [] hphase
    · cases h
  | receive items =>
    simp only at h
    split at h
    · rename_i conn hphase
      split at h
      · cases h
      · cases h
        exact .stay conn { conn with lastMsgTsMs := now, items := items } task.backoffMs [] hphase
          (Or.inl rfl)
    · cases h
  | item =>
    simp only at h
    split at h
    · rename_i conn hphase
      split at h
      · rename_i item rest _
        have hmove := @OpinionTask.handleItem_move cfg now task health conn item rest hphase
        rw [Option.some.inj h] at hmove
        exact hmove
      · cases h
    · cases h
  | close reason =>
    simp only at h
    split at h
    · rename_i conn hphase
      split at h
      · cases h
      · cases h
        exact @OpinionTask.lost_move cfg now task health conn [] _ hphase
    · cases h

end Moves

/-! ## The guard -/

section Tasks

variable {staleMs now till : ℤ} {cfg : OpinionWsConfig} {health health' : HealthState}

/-- A step that does not ask for the health leaves it. -/
theorem PmTask.health_of_step {task task' : PmTask} {e : PmStep}
    (h : task.step staleMs now health e = some (task', health'))
    (hneeds : task.needsHealth staleMs now e = false) : health' = health := by
  unfold PmTask.step at h
  cases e with
  | wake =>
    simp only at h
    split at h
    · split at h
      · cases h
        rfl
      · cases h
    · cases h
  | staleTick =>
    simp only at h
    split at h
    · rename_i last hphase
      have hfresh : isStale staleMs now last = false := by
        simpa [PmTask.needsHealth, hphase] using hneeds
      rw [hfresh] at h
      cases h
      rfl
    · cases h
  | receive market =>
    obtain rfl : market = false := hneeds
    simp only at h
    split at h
    · cases h
      rfl
    · cases h
  | _ => cases hneeds

/-- A resting task only wakes, and not too early. -/
theorem PmTask.step_of_resting {task task' : PmTask} {e : PmStep} {guarded : Bool}
    (hphase : task.phase = .resting till guarded)
    (h : task.step staleMs now health e = some (task', health')) : till ≤ now := by
  unfold PmTask.step at h
  rw [hphase] at h
  cases e with
  | wake =>
    simp only at h
    split at h
    · assumption
    · cases h
  | _ => cases h

theorem OpinionTask.health_of_step {task task' : OpinionTask} {e : OpinionStep}
    (h : task.step cfg now health e = some (task', health'))
    (hneeds : task.needsHealth cfg now e = false) : health' = health := by
  unfold OpinionTask.step at h
  cases e with
  | wake =>
    simp only at h
    split at h
    · split at h
      · cases h
        rfl
      · cases h
    · cases h
  | receive items =>
    simp only at h
    split at h
    · split at h
      · cases h
      · cases h
        rfl
    · cases h
  | item =>
    simp only at h
    split at h
    · rename_i conn hphase
      split at h
      · rename_i item rest hitems
        unfold OpinionTask.needsHealth at hneeds
        simp only [hphase, hitems] at hneeds
        unfold OpinionTask.handleItem at h
        cases huser : item.isUser with
        | true =>
          rw [huser, if_pos rfl] at h
          cases h
          rfl
        | false =>
          rw [huser, Bool.not_false, Bool.true_and, Bool.or_eq_false_iff] at hneeds
          rw [huser, if_neg (by simp), hneeds.1, if_neg (by simp)] at h
          -- an item that ends the connection would ask for the health
          generalize OpinionTask.shouldReconnect cfg now conn item = verdict at h hneeds
          obtain ⟨conn', force⟩ := verdict
          obtain rfl : force = false := hneeds.2
          cases h
          rfl
      · cases h
    · cases h
  | _ => cases hneeds

theorem OpinionTask.step_of_resting {task task' : OpinionTask} {e : OpinionStep} {guarded : Bool}
    (hphase : task.phase = .resting till guarded)
    (h : task.step cfg now health e = some (task', health')) : till ≤ now := by
  unfold OpinionTask.step at h
  rw [hphase] at h
  cases e with
  | wake =>
    simp only at h
    split at h
    · assumption
    · cases h
  | _ => cases h

end Tasks

namespace ConnSystem

variable {cfg : ConnConfig} {sys sys' : ConnSystem} {till : ℤ}

/-- One of the tasks rests with the guard until then. -/
def RestsWithGuard (sys : ConnSystem) (till : ℤ) : Prop :=
  sys.polymarket.phase = .resting till true ∨ sys.opinion.phase = .resting till true

theorem isShut_of_rests (h : sys.RestsWithGuard till) : sys.isShut = true := by
  unfold isShut
  rcases h with h | h
  · rw [h, Bool.true_or]
  · rw [h, Bool.or_true]

theorem move_of_step {e : ConnEvent} (h : sys.step cfg e = some sys') :
    (sys.needsHealth cfg e && sys.isShut) = false ∧ sys.move cfg e = some sys' := by
  unfold step at h
  split at h
  · cases h
  · rename_i hfree
    exact ⟨Bool.eq_false_iff.mpr hfree, h⟩

/-- The clock does not go back. -/
theorem clock_le_of_step {e : ConnEvent} (h : sys.step cfg e = some sys') :
    sys.clock ≤ sys'.clock := by
  have hmove := (move_of_step h).2
  cases e with
  | pass ms =>
    cases hmove
    exact Int.le_add_of_nonneg_right (Int.natCast_nonneg ms)
  | polymarket e =>
    obtain ⟨result, -, rfl⟩ := Option.map_eq_some_iff.mp hmove
    exact le_refl _
  | opinion e =>
    obtain ⟨result, -, rfl⟩ := Option.map_eq_some_iff.mp hmove
    exact le_refl _
  | tick =>
    unfold move at hmove
    simp only at hmove
    split at hmove
    · cases hmove
    · cases hmove
      exact le_refl _
  | report =>
    unfold move at hmove
    simp only at hmove
    split at hmove
    · cases hmove
      exact le_refl _
    · cases hmove
  | read =>
    cases hmove
    exact le_refl _
  | drop venue =>
    cases hmove
    exact le_refl _

theorem clock_le_of_run {es : List ConnEvent} (hr : (connMachine cfg).run sys es = some sys') :
    sys.clock ≤ sys'.clock := by
  induction es generalizing sys with
  | nil =>
    cases hr
    exact le_refl _
  | cons e es ih =>
    obtain ⟨mid, hmid, hrest⟩ := (connMachine cfg).run_cons_eq_some hr
    exact le_trans (clock_le_of_step hmid) (ih hrest)

/-- How many ticks can still be handed out before a report. -/
def ticksLeft (sys : ConnSystem) : ℕ := if sys.reporting then 0 else 1

/-- While the guard is held, no step asks for the health, and the health stays as it is. -/
theorem rests_step {e : ConnEvent} (hrest : sys.RestsWithGuard till)
    (h : sys.step cfg e = some sys') (hsoon : sys'.clock < till) :
    sys'.RestsWithGuard till ∧ sys'.health = sys.health ∧ sys.needsHealth cfg e = false ∧
      sys'.ticks.length + sys'.ticksLeft = sys.ticks.length + sys.ticksLeft := by
  obtain ⟨hfree, hmove⟩ := move_of_step h
  rw [isShut_of_rests hrest, Bool.and_true] at hfree
  have hnow := clock_le_of_step h
  cases e with
  | pass ms =>
    cases hmove
    exact ⟨hrest, rfl, hfree, rfl⟩
  | polymarket e =>
    obtain ⟨⟨task, health⟩, hstep, rfl⟩ := Option.map_eq_some_iff.mp hmove
    refine ⟨?_, PmTask.health_of_step hstep hfree, hfree, rfl⟩
    rcases hrest with hpm | hopi
    · -- it is this task that rests
      have hlate := PmTask.step_of_resting hpm hstep
      exact absurd (lt_of_le_of_lt (le_trans hlate hnow) hsoon) (lt_irrefl till)
    · exact Or.inr hopi
  | opinion e =>
    obtain ⟨⟨task, health⟩, hstep, rfl⟩ := Option.map_eq_some_iff.mp hmove
    refine ⟨?_, OpinionTask.health_of_step hstep hfree, hfree, rfl⟩
    rcases hrest with hpm | hopi
    · exact Or.inl hpm
    · have hlate := OpinionTask.step_of_resting hopi hstep
      exact absurd (lt_of_le_of_lt (le_trans hlate hnow) hsoon) (lt_irrefl till)
  | tick =>
    unfold move at hmove
    simp only at hmove
    split at hmove
    · cases hmove
    · rename_i hreporting
      cases hmove
      refine ⟨hrest, rfl, hfree, ?_⟩
      simp [ticksLeft, hreporting]
  | report => cases hfree
  | read => cases hfree
  | drop venue => cases hfree

theorem rests_run {es : List ConnEvent} (hrest : sys.RestsWithGuard till)
    (hr : (connMachine cfg).run sys es = some sys') (hsoon : sys'.clock < till) :
    sys'.health = sys.health ∧
      (connMachine cfg).RunMeets (fun sys e => sys.needsHealth cfg e = false) sys es ∧
      sys'.ticks.length + sys'.ticksLeft = sys.ticks.length + sys.ticksLeft := by
  induction es generalizing sys with
  | nil =>
    cases hr
    exact ⟨rfl, trivial, rfl⟩
  | cons e es ih =>
    obtain ⟨mid, hmid, hrest'⟩ := (connMachine cfg).run_cons_eq_some hr
    have hmidsoon := lt_of_le_of_lt (clock_le_of_run hrest') hsoon
    obtain ⟨hstill, hhealth, hneeds, hticks⟩ := rests_step hrest hmid hmidsoon
    obtain ⟨hhealth', hmeets, hticks'⟩ := ih hstill hrest'
    refine ⟨hhealth'.trans hhealth, ⟨hneeds, ?_⟩, hticks'.trans hticks⟩
    intro mid' hmid'
    obtain rfl : mid = mid' := Option.some.inj (hmid.symm.trans hmid')
    exact hmeets

/-! ## Backoffs -/

/-- The backoff of a venue's task. -/
def backoffOf (sys : ConnSystem) : Venue → ℤ
  | .polymarket => sys.polymarket.backoffMs
  | .opinion => sys.opinion.backoffMs

/-- The venue's attempt to connect fails. -/
def failOf : Venue → ConnEvent
  | .polymarket => .polymarket .fail
  | .opinion => .opinion .fail

theorem jitterMs_nonneg (now baseMs : ℤ) : 0 ≤ OpinionTask.jitterMs now baseMs :=
  Int.emod_nonneg _ (by omega)

/-- After a failed attempt the task rests with the guard, for its backoff at least. -/
theorem rests_of_fail {venue : Venue} (h : sys.step cfg (failOf venue) = some sys') :
    ∃ till, sys.clock + sys.backoffOf venue ≤ till ∧ sys'.RestsWithGuard till := by
  have hmove := (move_of_step h).2
  cases venue with
  | polymarket =>
    obtain ⟨result, hstep, rfl⟩ := Option.map_eq_some_iff.mp hmove
    simp only [PmTask.step] at hstep
    split at hstep
    · cases hstep
      exact ⟨_, le_refl _, Or.inl rfl⟩
    · cases hstep
  | opinion =>
    obtain ⟨result, hstep, rfl⟩ := Option.map_eq_some_iff.mp hmove
    simp only [OpinionTask.step] at hstep
    split at hstep
    · cases hstep
      refine ⟨_, ?_, Or.inr rfl⟩
      have hjitter := jitterMs_nonneg sys.clock sys.opinion.backoffMs
      rw [(OpinionTask.tryTriggerGapfill_keeps _ _ _ _).2]
      simp only [backoffOf]
      omega
    · cases hstep

end ConnSystem

namespace ConnSystem

variable {cfg : ConnConfig} {sys sys' : ConnSystem}

/-- An event is a step of one of the tasks, or leaves both alone. -/
theorem step_cases {e : ConnEvent} (h : sys.step cfg e = some sys') :
    (∃ pm result, sys.polymarket.step cfg.pmStaleReconnectMs sys.clock sys.health pm =
        some result ∧ sys' = { sys with polymarket := result.1, health := result.2 }) ∨
      (∃ opi result, sys.opinion.step cfg.opinion sys.clock sys.health opi = some result ∧
        sys' = { sys with opinion := result.1, health := result.2 }) ∨
      (sys'.polymarket = sys.polymarket ∧ sys'.opinion = sys.opinion) := by
  have hmove := (move_of_step h).2
  cases e with
  | polymarket pm =>
    obtain ⟨result, htask, rfl⟩ := Option.map_eq_some_iff.mp hmove
    exact Or.inl ⟨pm, result, htask, rfl⟩
  | opinion opi =>
    obtain ⟨result, htask, rfl⟩ := Option.map_eq_some_iff.mp hmove
    exact Or.inr (Or.inl ⟨opi, result, htask, rfl⟩)
  | tick =>
    unfold move at hmove
    simp only at hmove
    split at hmove
    · cases hmove
    · cases hmove
      exact Or.inr (Or.inr ⟨rfl, rfl⟩)
  | report =>
    unfold move at hmove
    simp only at hmove
    split at hmove
    · cases hmove
      exact Or.inr (Or.inr ⟨rfl, rfl⟩)
    · cases hmove
  | pass | read | drop =>
    cases hmove
    exact Or.inr (Or.inr ⟨rfl, rfl⟩)

/-! ## Rests -/

/-- The backoff is from one second to half a minute. -/
def BackoffBounded (backoffMs : ℤ) : Prop := 1000 ≤ backoffMs ∧ backoffMs ≤ 30000

theorem BackoffBounded.next {backoffMs : ℤ} (h : BackoffBounded backoffMs) :
    BackoffBounded (nextBackoffMs backoffMs) := by
  unfold BackoffBounded nextBackoffMs at *
  omega

theorem backoffBounded_initial : BackoffBounded 1000 := by
  unfold BackoffBounded
  omega

theorem backoffBounded_pm {staleMs now : ℤ} {health health' : HealthState} {task task' : PmTask}
    {e : PmStep} (hbefore : BackoffBounded task.backoffMs)
    (h : task.step staleMs now health e = some (task', health')) :
    BackoffBounded task'.backoffMs := by
  unfold PmTask.step at h
  cases e with
  | wake =>
    simp only at h
    split at h
    · split at h
      · cases h
        exact hbefore.next
      · cases h
    · cases h
  | connect =>
    simp only at h
    split at h
    · cases h
      exact backoffBounded_initial
    · cases h
  | staleTick =>
    simp only at h
    split at h
    · split at h
      · cases h
        exact hbefore
      · cases h
        exact hbefore
    · cases h
  | start | fail | close | receive =>
    simp only at h
    split at h
    · cases h
      exact hbefore
    · cases h

theorem backoffBounded_opinion {opiCfg : OpinionWsConfig} {now : ℤ} {task task' : OpinionTask}
    (hbefore : BackoffBounded task.backoffMs) (h : OpinionTask.Move opiCfg now task task') :
    BackoffBounded task'.backoffMs := by
  have hask : ∀ reasons, BackoffBounded (task.askFor opiCfg now reasons).backoffMs := by
    intro reasons
    rw [(OpinionTask.askFor_keeps opiCfg now task reasons).2]
    exact hbefore
  cases h with
  | wake => exact hbefore.next
  | start => exact hbefore
  | fail till reasons => exact hask reasons
  | connect => exact hbefore
  | stay conn conn' backoffMs reasons hphase hbackoff =>
    rcases hbackoff with rfl | rfl
    · exact hbefore
    · exact backoffBounded_initial
  | lost conn till reasons => exact hask reasons

theorem backoffBounded_of_reachable (h : (connMachine cfg).Reachable sys) (venue : Venue) :
    BackoffBounded (sys.backoffOf venue) := by
  have hall : BackoffBounded sys.polymarket.backoffMs ∧ BackoffBounded sys.opinion.backoffMs := by
    apply (connMachine cfg).inv_of_reachable ?_ ?_ h
    · rintro _ ⟨now, -, rfl⟩
      exact ⟨backoffBounded_initial, backoffBounded_initial⟩
    · intro sys e sys' hbefore hstep
      obtain ⟨pm, ⟨task, health⟩, htask, rfl⟩ | ⟨opi, ⟨task, health⟩, htask, rfl⟩ |
        ⟨hpm, hopi⟩ := step_cases hstep
      · exact ⟨backoffBounded_pm hbefore.1 htask, hbefore.2⟩
      · have hmoves := OpinionTask.move_of_step htask
        exact ⟨hbefore.1, backoffBounded_opinion hbefore.2 hmoves⟩
      · rw [hpm, hopi]
        exact hbefore
  cases venue with
  | polymarket => exact hall.1
  | opinion => exact hall.2

/-- After a failed attempt, and until the backoff of one second to half a minute is over, the
health stays as it is, no step that asks for it is taken, and at most one tick is handed out. -/
theorem health_stalls {venue : Venue} {es : List ConnEvent} {shut : ConnSystem}
    (h : (connMachine cfg).Reachable sys) (hfail : sys.step cfg (failOf venue) = some shut)
    (hr : (connMachine cfg).run shut es = some sys')
    (hsoon : sys'.clock < sys.clock + sys.backoffOf venue) :
    1000 ≤ sys.backoffOf venue ∧ sys.backoffOf venue ≤ 30000 ∧ sys'.health = shut.health ∧
      (connMachine cfg).RunMeets (fun sys e => sys.needsHealth cfg e = false) shut es ∧
      sys'.ticks.length ≤ shut.ticks.length + 1 := by
  obtain ⟨till, htill, hrest⟩ := rests_of_fail hfail
  obtain ⟨hhealth, hmeets, hticks⟩ := rests_run hrest hr (lt_of_lt_of_le hsoon htill)
  obtain ⟨hlow, hhigh⟩ := backoffBounded_of_reachable h venue
  refine ⟨hlow, hhigh, hhealth, hmeets, ?_⟩
  have hleft : shut.ticksLeft ≤ 1 := by
    unfold ticksLeft
    split
    · exact Nat.zero_le 1
    · exact le_refl 1
  omega

def sampleConn : ConnConfig := ⟨10000, 15000, 30000, 60000, 3⟩

/-- Polymarket cannot be reached, and a tick is due. -/
theorem health_stalls_tick :
    ∃ shut sys', (connMachine sampleConn).run (start 1000) [.polymarket .start, .polymarket .fail] =
        some shut ∧
      (connMachine sampleConn).run shut [.tick, .pass 500] = some sys' ∧
        sys'.health = shut.health ∧ sys'.ticks.length ≤ shut.ticks.length + 1 := by
  obtain ⟨hlow, hhigh, hhealth, -, hticks⟩ := @health_stalls sampleConn
    { start 1000 with
      polymarket := ⟨.connecting, 1000⟩
      health := HealthState.new.setState .polymarket .reconnecting } _ .polymarket
    [.tick, .pass 500] _ ⟨start 1000, [.polymarket .start], ⟨1000, by omega, rfl⟩, rfl⟩ rfl rfl
    (by decide)
  exact ⟨_, _, rfl, rfl, hhealth, hticks⟩

/-! ## Asking for the books -/

/-- When the books were asked for after a failure. -/
def gapfills (task : OpinionTask) : List ℤ :=
  task.sent.filterMap fun command =>
    match command.1 with
    | .triggerInactive _ _ => some command.2
    | .triggerAll _ => none

/-- They were asked for half a minute apart, the last time at the time that is kept. -/
structure GapfillsSpaced (now : ℤ) (task : OpinionTask) : Prop where
  spaced : (gapfills task).Pairwise fun earlier later => earlier + 30000 ≤ later
  last : ∀ t ∈ gapfills task, t ≤ task.lastGapfillMs
  kept : gapfills task ≠ [] → 0 < task.lastGapfillMs
  past : task.lastGapfillMs ≤ now

theorem GapfillsSpaced.of_same {now : ℤ} {task task' : OpinionTask} (h : GapfillsSpaced now task)
    (hfills : gapfills task' = gapfills task) (hlast : task'.lastGapfillMs = task.lastGapfillMs) :
    GapfillsSpaced now task' := by
  constructor
  · rw [hfills]
    exact h.spaced
  · rw [hfills, hlast]
    exact h.last
  · rw [hfills, hlast]
    exact h.kept
  · rw [hlast]
    exact h.past

theorem GapfillsSpaced.tryTriggerGapfill {opiCfg : OpinionWsConfig} {now : ℤ} {task : OpinionTask}
    (hnow : 0 < now) (h : GapfillsSpaced now task) (reason : String) :
    GapfillsSpaced now (task.tryTriggerGapfill opiCfg now reason) := by
  unfold OpinionTask.tryTriggerGapfill
  split
  · exact h
  · split
    · exact h
    · rename_i hspaced
      have hfills : gapfills { task with
          lastGapfillMs := now
          sent := task.sent ++ [(.triggerInactive reason opiCfg.hardClearMs, now)] } =
          gapfills task ++ [now] := by
        rw [gapfills, List.filterMap_append]
        rfl
      -- the one before, if there was one, is half a minute ago
      have hapart : ∀ t ∈ gapfills task, t + 30000 ≤ now := by
        intro t ht
        have hlast := h.last t ht
        have hkept := h.kept (List.ne_nil_of_mem ht)
        have hlate : ¬now - task.lastGapfillMs < 30000 := fun hsoon => hspaced ⟨hkept, hsoon⟩
        omega
      constructor
      · rw [hfills, List.pairwise_append]
        refine ⟨h.spaced, List.pairwise_singleton _ _, ?_⟩
        intro earlier hearlier later hlater
        rw [List.mem_singleton.mp hlater]
        exact hapart earlier hearlier
      · intro t ht
        rw [hfills] at ht
        rcases List.mem_append.mp ht with hold | hnew
        · have hold' := hapart t hold
          change t ≤ now
          omega
        · exact (List.mem_singleton.mp hnew).le
      · exact fun _ => hnow
      · exact le_refl now

theorem GapfillsSpaced.askFor {opiCfg : OpinionWsConfig} {now : ℤ} {task : OpinionTask}
    (hnow : 0 < now) (h : GapfillsSpaced now task) (reasons : List String) :
    GapfillsSpaced now (task.askFor opiCfg now reasons) := by
  induction reasons generalizing task with
  | nil => exact h
  | cons reason rest ih => exact ih (h.tryTriggerGapfill hnow reason)

theorem GapfillsSpaced.move {opiCfg : OpinionWsConfig} {now : ℤ} {task task' : OpinionTask}
    (hnow : 0 < now) (h : GapfillsSpaced now task)
    (hmove : OpinionTask.Move opiCfg now task task') : GapfillsSpaced now task' := by
  cases hmove with
  | wake => exact h.of_same rfl rfl
  | start => exact h.of_same rfl rfl
  | fail till reasons => exact (h.askFor hnow reasons).of_same rfl rfl
  | connect conn reason =>
    refine h.of_same ?_ rfl
    rw [gapfills, List.filterMap_append]
    exact List.append_nil _
  | stay conn conn' backoffMs reasons => exact (h.askFor hnow reasons).of_same rfl rfl
  | lost conn till reasons => exact (h.askFor hnow reasons).of_same rfl rfl

/-- However often connections fail, the books are asked for half a minute apart. -/
theorem gapfills_spaced (h : (connMachine cfg).Reachable sys) :
    (gapfills sys.opinion).Pairwise fun earlier later => earlier + 30000 ≤ later := by
  have hall : 0 < sys.clock ∧ GapfillsSpaced sys.clock sys.opinion := by
    apply (connMachine cfg).inv_of_reachable ?_ ?_ h
    · rintro _ ⟨now, hnow, rfl⟩
      refine ⟨hnow, List.Pairwise.nil, ?_, fun hne => (hne rfl).elim, hnow.le⟩
      intro t ht
      cases ht
    · rintro sys e sys' ⟨hnow, hspaced⟩ hstep
      have hclock := clock_le_of_step hstep
      refine ⟨lt_of_lt_of_le hnow hclock, ?_⟩
      obtain ⟨pm, ⟨task, health⟩, htask, rfl⟩ | ⟨opi, ⟨task, health⟩, htask, rfl⟩ |
        ⟨hpm, hopi⟩ := step_cases hstep
      · exact hspaced
      · exact hspaced.move hnow (OpinionTask.move_of_step htask)
      · rw [hopi]
        exact { hspaced with past := le_trans hspaced.past hclock }
  exact hall.2.spaced

/-- A failed attempt, and another one after the rest. -/
def twoFailures : List ConnEvent :=
  [.opinion .start, .opinion .fail, .pass 1250, .opinion .wake, .opinion .start, .opinion .fail]

theorem gapfills_spaced_failures :
    ∃ sys, (connMachine sampleConn).run (start 1000) twoFailures = some sys ∧
      gapfills sys.opinion = [1000] ∧
        (gapfills sys.opinion).Pairwise fun earlier later => earlier + 30000 ≤ later :=
  ⟨_, rfl, rfl, @gapfills_spaced sampleConn _ ⟨start 1000, twoFailures,
    ⟨1000, by omega, rfl⟩, rfl⟩⟩

end ConnSystem

end AlphaMonitor.Feed
