import AlphaMonitor.Lib.LastWrite
import AlphaMonitor.Lib.Run
import AlphaMonitor.Pair.BuildBar
import Mathlib.Data.Finset.Basic
import Mathlib.Data.List.AList

/-!
# The pair aggregator, its flush worker and the writer

Token bars fill the two halves of a bucket.  A bucket with both halves is built
and sent at once; a bucket that stays incomplete is put on the flush queue by a
later tick, and the flush worker builds it with the halves it has.  The writer
deduplicates each batch of rows and upserts it into `bars_1s_pair`.

Clock readings of the time budgets are an input: a flush is told how many of its
readings are still within the budget.

## Main definitions

- `AggState.flushStale`, `AggState.drainFlushQueue`: moving stale buckets on
- `AggState.handleTokenBar`: one `TokenBar` message
- `aggMachine`: the aggregator, its worker and the writer as one machine
-/

namespace AlphaMonitor.Pair

open AlphaMonitor.Lib

def flushStaleMaxKeys : ℕ := 500
def flushBuildMaxKeys : ℕ := 500
def reorderExtraCapS : ℤ := 120

/-! ## State -/

/-- The part of `PairAggState` that decides what is built and when. -/
structure AggState where
  buckets : AList (fun _ : BarKey => PairBucket)
  /-- The keys of each second, by increasing second. -/
  bucketIndex : List (ℤ × List BarKey)
  currentTick : ℤ
  opiTokenMap : PairKey → Option String
  pmTokenMap : PairKey → Option String
  lateArrivalBufferS : ℤ
  lastSeenPm : String → Option ℤ
  lastSeenOpi : String → Option ℤ
  flushQueue : List BarKey
  flushPendingKeys : Finset BarKey

def AggState.start (lateArrivalBufferS : ℤ) : AggState where
  buckets := ∅
  bucketIndex := []
  currentTick := 0
  opiTokenMap := fun _ => none
  pmTokenMap := fun _ => none
  lateArrivalBufferS := lateArrivalBufferS
  lastSeenPm := fun _ => none
  lastSeenOpi := fun _ => none
  flushQueue := []
  flushPendingKeys := ∅

/-- `bucket_index.entry(second).or_default().push(key)`. -/
def indexPush (second : ℤ) (key : BarKey) : List (ℤ × List BarKey) → List (ℤ × List BarKey)
  | [] => [(second, [key])]
  | (s, keys) :: rest =>
    if second < s then (second, [key]) :: (s, keys) :: rest
    else if second = s then (s, keys ++ [key]) :: rest
    else (s, keys) :: indexPush second key rest

namespace AggState

variable (st : AggState)

/-! ## Flushing stale buckets -/

/-- How far the other half's token is ahead of the bar, capped. -/
def extraBuffer (tokenMap : PairKey → Option String) (lastSeen : String → Option ℤ)
    (key : BarKey) : ℤ :=
  match (tokenMap (key.1, key.2.1)).bind lastSeen with
  | some seen => if seen - key.2.2 > 0 then max 0 (min (seen - key.2.2) reorderExtraCapS) else 0
  | none => 0

/-- `should_flush_bucket`. -/
def shouldFlushBucket (key : BarKey) (bucket : PairBucket) (opiReady : Bool) : Bool :=
  -- no tick yet: there is no time to compare with
  if st.currentTick ≤ 0 then false
  else
    -- a missing half may be behind because its token is, so the bucket waits for that token's lag
    let extraPm :=
      if bucket.pm.isNone then extraBuffer st.pmTokenMap st.lastSeenPm key else 0
    let extraOpi :=
      if bucket.opi.isNone ∧ opiReady = true then extraBuffer st.opiTokenMap st.lastSeenOpi key
      else 0
    let cutoff := st.currentTick - (max st.lateArrivalBufferS 0 + max extraPm extraOpi)
    decide (key.2.2 < cutoff)

/-- The keys of one second: `clock` readings are left within the budget and
`processed` keys are already queued.  Returns the keys that stay in the index. -/
def flushKeys (opiReady : Bool) : List BarKey → ℕ → ℕ → AggState → List BarKey × ℕ × ℕ × AggState
  | [], clock, processed, st => ([], clock, processed, st)
  | key :: rest, clock, processed, st =>
    -- the keys that are not looked at any more stay in the index
    if processed ≥ flushStaleMaxKeys then (key :: rest, clock, processed, st)
    else
      match clock with
      | 0 => (key :: rest, 0, processed, st)
      | clock + 1 =>
        -- the key is queued already: it leaves the index
        if key ∈ st.flushPendingKeys then flushKeys opiReady rest clock processed st
        else
          match st.buckets.lookup key with
          -- the bucket is gone: its key leaves the index
          | none => flushKeys opiReady rest clock processed st
          | some bucket =>
            if st.shouldFlushBucket key bucket opiReady then
              flushKeys opiReady rest clock (processed + 1)
                { st with
                  flushQueue := st.flushQueue ++ [key]
                  flushPendingKeys := insert key st.flushPendingKeys }
            else
              -- too young: the key stays for the next flush
              let (remaining, clock', processed', st') :=
                flushKeys opiReady rest clock processed st
              (key :: remaining, clock', processed', st')

/-- The outer loop of `flush_stale`.  Each turn reads the clock, so as many turns
as readings in time are enough. -/
def flushStaleLoop (opiReady : Bool) (cutoff : ℤ) : ℕ → ℕ → ℕ → AggState → AggState
  | 0, _, _, st => st
  | turns + 1, clock, processed, st =>
    if processed ≥ flushStaleMaxKeys ∨ clock = 0 then st
    else
      match st.bucketIndex with
      | [] => st
      | (second, keys) :: rest =>
        -- the index is in order, so no later second is stale either
        if second ≥ cutoff then st
        else
          let (remaining, clock', processed', st') :=
            flushKeys opiReady keys (clock - 1) processed { st with bucketIndex := rest }
          let index := if remaining = [] then rest else (second, remaining) :: rest
          flushStaleLoop opiReady cutoff turns clock' processed' { st' with bucketIndex := index }

/-- `flush_stale` with `clock` readings of the time budget still in time. -/
def flushStale (opiReady : Bool) (clock : ℕ) : AggState :=
  if st.currentTick ≤ 0 then st
  else
    flushStaleLoop opiReady (st.currentTick - max st.lateArrivalBufferS 0) clock clock 0 st

/-- The loop of `drain_flush_queue`: keys that are no longer pending are dropped. -/
def drainLoop : ℕ → ℕ → List BarKey → AggState → List BarKey × AggState
  | 0, _, acc, st => (acc, st)
  | clock + 1, processed, acc, st =>
    if processed ≥ flushBuildMaxKeys then (acc, st)
    else
      match st.flushQueue with
      | [] => (acc, st)
      | key :: rest =>
        if key ∈ st.flushPendingKeys then
          drainLoop clock (processed + 1) (acc ++ [key])
            { st with flushQueue := rest, flushPendingKeys := st.flushPendingKeys.erase key }
        -- a key that has lost its mark was built meanwhile
        else drainLoop clock processed acc { st with flushQueue := rest }

/-- `drain_flush_queue`. -/
def drainFlushQueue (clock : ℕ) : List BarKey × AggState := drainLoop clock 0 [] st

/-! ## Token bars -/

/-- `record_arrival` and the token maps. -/
def recordArrival (input : PairInput) : AggState :=
  match input.venue with
  | .polymarket =>
    -- the last bar that arrived counts, not the latest second
    { st with
      lastSeenPm := Function.update st.lastSeenPm input.tokenKey (some input.barSecond)
      pmTokenMap :=
        Function.update st.pmTokenMap (input.pairId, input.tokenSide) (some input.tokenKey) }
  | .opinion =>
    { st with
      lastSeenOpi := Function.update st.lastSeenOpi input.tokenKey (some input.barSecond)
      opiTokenMap :=
        Function.update st.opiTokenMap (input.pairId, input.tokenSide) (some input.tokenKey) }

end AggState

/-- Put a token bar into its half of the bucket. -/
def PairBucket.fill (bucket : PairBucket) (input : PairInput) : PairBucket :=
  match input.venue with
  | .polymarket => { bucket with pm := some input }
  | .opinion => { bucket with opi := some input }

namespace AggState

variable (st : AggState)

/-- The `TokenBar` branch: the new state, and the bucket if it is complete. -/
def handleTokenBar (input : PairInput) : AggState × Option PairBucket :=
  let st := st.recordArrival input
  let key := input.key
  let index :=
    match st.buckets.lookup key with
    | some _ => st.bucketIndex
    | none => indexPush key.2.2 key st.bucketIndex
  let bucket := ((st.buckets.lookup key).getD PairBucket.empty).fill input
  -- both halves are there: the bucket is taken out at once, wherever its key waits
  if bucket.pm.isSome ∧ bucket.opi.isSome then
    ({ st with
      bucketIndex := index
      buckets := st.buckets.erase key
      flushPendingKeys := st.flushPendingKeys.erase key }, some bucket)
  else
    ({ st with bucketIndex := index, buckets := st.buckets.insert key bucket }, none)

/-- The `Tick` branch, as far as buckets are concerned. -/
def handleTick (barSecond : ℤ) (opiReady : Bool) (clock : ℕ) : AggState :=
  AggState.flushStale { st with currentTick := barSecond } opiReady clock

end AggState

/-! ## Writing rows -/

def pgSafeBinds : ℕ := 60000
def pairBarCols : ℕ := 68
def pairBarBatchMax : ℕ := pgSafeBinds / pairBarCols

/-- `ON CONFLICT … DO UPDATE`: every column is taken from the new row except
`rolling_corr_samples_5m`, which the list of updated columns lacks. -/
def onConflict (old new : Bars1sPair) : Bars1sPair :=
  { new with rollingCorrSamples5m := old.rollingCorrSamples5m }

/-- The content of `bars_1s_pair`. -/
abbrev PairTable := BarKey → Option Bars1sPair

/-- Write one staged batch: deduplicate it, then upsert it chunk by chunk. -/
def writePairBars (table : PairTable) (staged : List Bars1sPair) : PairTable :=
  ((dedupeRows Bars1sPair.key staged).toChunks (max pairBarBatchMax 1)).foldl
    (upsertRows Bars1sPair.key onConflict) table

/-! ## The aggregator, its worker and the writer together -/

/-- Everything between the token bars and the stored rows. -/
structure AggSystem where
  agg : AggState
  /-- Keys the flush worker has drained and not handled yet. -/
  drained : List BarKey
  /-- A row the worker has built and not sent yet. -/
  built : Option Bars1sPair
  /-- Rows sent to the writer and not written yet. -/
  dbQueue : List Bars1sPair
  table : PairTable
  /-- Every row built so far, for stating properties only. -/
  flushed : List Bars1sPair

/-- What the environment supplies when a row is built. -/
structure BuildInputs where
  ctx : BuildContext
  stats : RollingStats
  opiReady : Bool

inductive AggEvent where
  /-- A `TokenBar` message. -/
  | tokenBar (input : PairInput) (env : BuildInputs)
  /-- A `Tick` message. -/
  | tick (barSecond : ℤ) (opiReady : Bool) (clock : ℕ)
  /-- The worker drains the flush queue. -/
  | drain (clock : ℕ)
  /-- The worker handles its next key. -/
  | build (env : BuildInputs)
  /-- The worker sends the row it has built. -/
  | send
  /-- The writer commits a batch of `n` rows. -/
  | write (n : ℕ)

def AggSystem.start (lateArrivalBufferS : ℤ) : AggSystem where
  agg := AggState.start lateArrivalBufferS
  drained := []
  built := none
  dbQueue := []
  table := fun _ => none
  flushed := []

namespace AggSystem

/-- One event; the rows reach the writer only if `captureEnabled`. -/
def step (captureEnabled : Bool) (s : AggSystem) : AggEvent → Option AggSystem
  | .tokenBar input env =>
    let (agg, ready) := s.agg.handleTokenBar input
    match ready with
    | none => some { s with agg := agg }
    | some bucket =>
      let bar := buildBarWithContext input.key bucket env.ctx env.stats env.opiReady
      some { s with
        agg := agg
        dbQueue := if captureEnabled then s.dbQueue ++ [bar] else s.dbQueue
        flushed := s.flushed ++ [bar] }
  | .tick barSecond opiReady clock =>
    some { s with agg := s.agg.handleTick barSecond opiReady clock }
  | .drain clock =>
    -- the worker drains again only when it is done with what it has drained
    if s.drained = [] ∧ s.built = none then
      let (keys, agg) := s.agg.drainFlushQueue clock
      some { s with agg := agg, drained := keys }
    else none
  | .build env =>
    match s.drained, s.built with
    | key :: rest, none =>
      match s.agg.buckets.lookup key with
      -- completed meanwhile by the other half
      | none => some { s with drained := rest }
      | some bucket =>
        let bar := buildBarWithContext key bucket env.ctx env.stats env.opiReady
        some { s with
          agg := { s.agg with buckets := s.agg.buckets.erase key }
          drained := rest
          built := some bar
          flushed := s.flushed ++ [bar] }
    | _, _ => none
  | .send =>
    match s.built with
    | some bar =>
      some { s with
        built := none
        dbQueue := if captureEnabled then s.dbQueue ++ [bar] else s.dbQueue }
    | none => none
  | .write n =>
    if n ≤ s.dbQueue.length then
      some { s with
        dbQueue := s.dbQueue.drop n
        table := writePairBars s.table (s.dbQueue.take n) }
    else none

end AggSystem

/-- The machine of one aggregator shard and the writer. -/
def aggMachine (captureEnabled : Bool) (lateArrivalBufferS : ℤ) : Machine AggSystem AggEvent where
  init s := s = AggSystem.start lateArrivalBufferS
  step := AggSystem.step captureEnabled

end AlphaMonitor.Pair
