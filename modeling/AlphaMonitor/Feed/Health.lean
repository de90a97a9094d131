import AlphaMonitor.Shard.Worker
import AlphaMonitor.Store.Messages

/-!
# Health of the venues

The WebSocket tasks note how their connections fare, and the dispatcher notes what it
drops.  A snapshot of a venue is written to the database, and read by the shards.
-/

namespace AlphaMonitor.Feed

open Shard (HealthSnapshot)
open Store (ConnectionHealthRow)

/-- `WsState`. -/
inductive WsState where
  | down
  | up
  | reconnecting
  deriving DecidableEq, Repr

/-- The number that stands for the state in a row. -/
def WsState.asInt : WsState → ℤ
  | .down => 0
  | .up => 1
  | .reconnecting => 2

/-- `VenueHealth`. -/
structure VenueHealth where
  wsState : WsState
  reconnectCount : ℤ
  lastMsgLocalTs : Option ℤ
  (heartbeatSent heartbeatFail droppedEvents : ℤ)
  deriving DecidableEq, Repr

def VenueHealth.default : VenueHealth := ⟨.down, 0, none, 0, 0, 0⟩

/-- `HealthState`. -/
structure HealthState where
  (polymarket opinion : VenueHealth)
  deriving DecidableEq, Repr

namespace HealthState

/-- `HealthState::new`. -/
def new : HealthState := ⟨VenueHealth.default, VenueHealth.default⟩

variable (state : HealthState)

/-- `select`. -/
def select : Venue → VenueHealth
  | .polymarket => state.polymarket
  | .opinion => state.opinion

/-- A change at `select_mut`. -/
def modify (venue : Venue) (f : VenueHealth → VenueHealth) : HealthState :=
  match venue with
  | .polymarket => { state with polymarket := f state.polymarket }
  | .opinion => { state with opinion := f state.opinion }

@[simp] theorem select_modify (venue : Venue) (f : VenueHealth → VenueHealth) :
    (state.modify venue f).select venue = f (state.select venue) := by
  cases venue <;> rfl

theorem select_modify_of_ne {venue other : Venue} (h : other ≠ venue)
    (f : VenueHealth → VenueHealth) : (state.modify venue f).select other = state.select other := by
  cases venue <;> cases other <;> first | rfl | exact (h rfl).elim

/-- `set_state`. -/
def setState (venue : Venue) (wsState : WsState) : HealthState :=
  state.modify venue fun entry => { entry with wsState := wsState }

/-- `record_reconnect`. -/
def recordReconnect (venue : Venue) : HealthState :=
  state.modify venue fun entry =>
    { entry with reconnectCount := entry.reconnectCount + 1, wsState := .reconnecting }

/-- `record_message`. -/
def recordMessage (venue : Venue) (now : ℤ) : HealthState :=
  state.modify venue fun entry => { entry with lastMsgLocalTs := some now }

/-- `record_heartbeat_sent`. -/
def recordHeartbeatSent (venue : Venue) : HealthState :=
  state.modify venue fun entry => { entry with heartbeatSent := entry.heartbeatSent + 1 }

/-- `record_heartbeat_fail`. -/
def recordHeartbeatFail (venue : Venue) : HealthState :=
  state.modify venue fun entry => { entry with heartbeatFail := entry.heartbeatFail + 1 }

/-- `record_drop`. -/
def recordDrop (venue : Venue) : HealthState :=
  state.modify venue fun entry => { entry with droppedEvents := entry.droppedEvents + 1 }

/-- `snapshot`. -/
def snapshot (now : ℤ) (venue : Venue) (barSecond : ℤ) : ConnectionHealthRow :=
  let entry := state.select venue
  { venue := venue
    barSecond := barSecond
    wsState := entry.wsState.asInt
    reconnectCount := entry.reconnectCount
    -- a clock that was set back makes no negative age
    lastMsgAgeMs := entry.lastMsgLocalTs.map fun ts => max (now - ts) 0
    heartbeatSent := some entry.heartbeatSent
    heartbeatFail := some entry.heartbeatFail
    droppedEvents := entry.droppedEvents
    notes := none }

/-- What a shard reads of a snapshot. -/
def seen (now : ℤ) (venue : Venue) (barSecond : ℤ) : HealthSnapshot :=
  let row := state.snapshot now venue barSecond
  { wsUp := decide (row.wsState = WsState.up.asInt)
    heartbeatFail := row.heartbeatFail
    droppedEvents := row.droppedEvents }

/-- The events of a venue that were dropped so far. -/
def dropped (venue : Venue) : ℤ := (state.select venue).droppedEvents

@[simp] theorem seen_droppedEvents (now : ℤ) (venue : Venue) (barSecond : ℤ) :
    (state.seen now venue barSecond).droppedEvents = state.dropped venue := rfl

@[simp] theorem dropped_recordDrop (venue : Venue) :
    (state.recordDrop venue).dropped venue = state.dropped venue + 1 := by
  simp [recordDrop, dropped]

theorem dropped_recordDrop_of_ne {venue other : Venue} (h : other ≠ venue) :
    (state.recordDrop venue).dropped other = state.dropped other := by
  rw [recordDrop, dropped, select_modify_of_ne _ h, dropped]

end HealthState

/-- What the WebSocket task of a venue notes. -/
inductive HealthNote where
  | setState (wsState : WsState)
  | reconnect
  | message (now : ℤ)
  | heartbeatSent
  | heartbeatFail
  deriving DecidableEq, Repr

/-- A note of the WebSocket task. -/
def HealthState.note (state : HealthState) (venue : Venue) : HealthNote → HealthState
  | .setState wsState => state.setState venue wsState
  | .reconnect => state.recordReconnect venue
  | .message now => state.recordMessage venue now
  | .heartbeatSent => state.recordHeartbeatSent venue
  | .heartbeatFail => state.recordHeartbeatFail venue

/-- The WebSocket tasks drop no events. -/
@[simp] theorem HealthState.dropped_note (state : HealthState) (venue other : Venue)
    (note : HealthNote) : (state.note venue note).dropped other = state.dropped other := by
  unfold HealthState.dropped
  by_cases h : other = venue
  · subst h
    cases note <;>
      simp [HealthState.note, setState, recordReconnect, recordMessage, recordHeartbeatSent,
        recordHeartbeatFail]
  · cases note <;>
      simp [HealthState.note, setState, recordReconnect, recordMessage, recordHeartbeatSent,
        recordHeartbeatFail, select_modify_of_ne _ h]

end AlphaMonitor.Feed
