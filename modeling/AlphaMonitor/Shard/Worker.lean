import AlphaMonitor.Lib.Run
import AlphaMonitor.Shard.TokenState

/-!
# The shard worker

A worker keeps the states of its tokens and takes events and ticks one at a time.
An event is handled in the state of its token; a tick is handled in the tokens
that had an event since the last tick.

## Main definitions

- `ShardWorker.handleEvent`, `ShardWorker.handleTick`
- `shardMachine`: a worker that takes any messages
-/

namespace AlphaMonitor.Shard

/-- What the health module knows of a venue in a second. -/
structure HealthSnapshot where
  wsUp : Bool
  heartbeatFail : Option ℤ
  droppedEvents : ℤ
  deriving DecidableEq, Repr

/-- What a worker reads besides its messages. -/
structure ShardEnv where
  now : ℤ
  /-- `token_sides` of the registry. -/
  tokenSides : String → Option TokenSide
  health : Venue → ℤ → HealthSnapshot

/-- `ShardMessage`. -/
inductive ShardMessage where
  | event (event : Event)
  | tick (barSecond : ℤ)
  deriving DecidableEq, Repr

/-- `ShardWorker`, with a record of what it did. -/
structure ShardWorker where
  config : ShardConfig
  state : String → Option TokenState
  dirtyTokens : List String
  /-- All bars sent so far, in order. -/
  emitted : List Bars1sToken
  /-- All events handled so far, as they are handed on, each with the second it is counted in. -/
  handled : List (Event × Option ℤ)

namespace ShardWorker

def start (config : ShardConfig) : ShardWorker := ⟨config, fun _ => none, [], [], []⟩

variable (env : ShardEnv) (worker : ShardWorker)

/-- `emit_result`: the health bits are added to the bar. -/
def emitResult (st : TokenState) (bar : Bars1sToken) : TokenState × Bars1sToken :=
  let snapshot := env.health bar.venue bar.barSecond
  let flags := bar.connectionHealthFlags |||
    (if snapshot.wsUp then healthWsConnected else 0) |||
    (if bar.venue = .polymarket ∨ snapshot.heartbeatFail.getD 0 = 0 then healthHeartbeatOk else 0)
  if snapshot.droppedEvents > st.lastDropCount then
    ({ st with lastDropCount := snapshot.droppedEvents },
      { bar with connectionHealthFlags := flags ||| healthEventDrop })
  else (st, { bar with connectionHealthFlags := flags })

def emitAll : TokenState → List Bars1sToken → TokenState × List Bars1sToken
  | st, [] => (st, [])
  | st, bar :: rest =>
    let (st, bar) := emitResult env st bar
    let (st, rest) := emitAll st rest
    (st, bar :: rest)

/-- `flush_ready` of one token, whose state is `st`. -/
def flushToken (tokenKey : String) (st : TokenState) : ShardWorker :=
  let (st, bars) := st.flushReady worker.config tokenKey
  let (st, bars) := emitAll env st bars
  { worker with
    state := Function.update worker.state tokenKey (some st)
    emitted := worker.emitted ++ bars }

/-- `handle_event`. -/
def handleEvent (event : Event) : ShardWorker :=
  let tokenKey := event.tokenKey
  let side := (env.tokenSides tokenKey).getD .unknown
  let st := (worker.state tokenKey).getD (TokenState.new event.venue side event.barSecond env.now)
  let result := st.handleEvent event
  let worker :=
    { worker with
      dirtyTokens := worker.dirtyTokens.insert tokenKey
      handled := worker.handled ++ [(result.event, result.second)] }
  worker.flushToken env tokenKey result.state

/-- `handle_tick`, for one token. -/
def tickToken (barSecond : ℤ) (tokenKey : String) : ShardWorker :=
  match worker.state tokenKey with
  | some st => worker.flushToken env tokenKey (st.advance barSecond)
  | none => worker

/-- `handle_tick`: the tokens that are dirty are visited, in the order in which they
became so.  Each is handled on its own, so the order is of no effect. -/
def handleTick (barSecond : ℤ) : ShardWorker :=
  worker.dirtyTokens.foldl (fun worker tokenKey => worker.tickToken env barSecond tokenKey)
    { worker with dirtyTokens := [] }

/-- One message. -/
def handle : ShardMessage → ShardWorker
  | .event event => worker.handleEvent env event
  | .tick barSecond => worker.handleTick env barSecond

end ShardWorker

/-- A worker that takes any messages, each in its own surroundings. -/
def shardMachine (config : ShardConfig) : Lib.Machine ShardWorker (ShardEnv × ShardMessage) where
  init worker := worker = ShardWorker.start config
  step worker e := some (worker.handle e.1 e.2)

/-! ## One token -/

/-- The bars of one token, in the order in which they were sent. -/
def ShardWorker.barsOf (worker : ShardWorker) (tokenKey : String) : List Bars1sToken :=
  worker.emitted.filter fun bar => decide (bar.tokenKey = tokenKey)

/-! ## Surroundings of sample runs -/

/-- The thresholds of the sample configuration. -/
def exampleConfig : ShardConfig where
  pmStalenessMs := 10000
  otherStalenessMs := 30000
  hardClearMs := 120000
  alphaCaptureEnabled := false

/-- All venues are up and nothing was dropped. -/
def calmEnv : ShardEnv where
  now := 0
  tokenSides _ := none
  health _ _ := ⟨true, none, 0⟩

/-- An event that arrives at the time the exchange stamped on it. -/
def eventAt (venue : Venue) (kind : EventKind) (payload : EventPayload) (tsMs : ℤ) : Event where
  venue := venue
  tokenKey := "token"
  kind := kind
  channel := none
  exchangeTsMs := tsMs
  localTsMs := tsMs
  exchangeTsSource := .venueWs
  flags := EventFlags.none
  payload := payload

/-- A book with one level on either side. -/
def smallBook : EventPayload :=
  { EventPayload.empty with bids := some [⟨1 / 2, 10⟩], asks := some [⟨13 / 25, 10⟩] }

/-- A bid one cent above it. -/
def higherBid : EventPayload :=
  { EventPayload.empty with side := some .bid, price := some (51 / 100), size := some 5 }

end AlphaMonitor.Shard
